import Llarp.Path.Commit

/-!
# Who may speak for a path

A message down a path comes from the router that is next on the path, and carries the
identifier that this router writes. `GetByUpstream` compares the sender for transit hops. For
our own paths it does not, and it also finds them under the identifier for sending.
-/

namespace Llarp

open Foundation

/-- The router and the identifier are those with which messages reach the path. -/
def HopHandler.Entitled (remote : RouterID) (id : PathID) : HopHandler → Prop
  | .own path => path.upstream = remote ∧ path.rxID = id
  | .transit hop => hop.info.upstream = remote

instance (remote : RouterID) (id : PathID) : (handler : HopHandler) →
    Decidable (handler.Entitled remote id)
  | .own _ => inferInstanceAs (Decidable (_ ∧ _))
  | .transit _ => inferInstanceAs (Decidable (_ = _))

namespace PathContext

variable (own : List Path) (transit : List TransitHop)

/-- The context after some paths of our own and some transit hops were added. -/
def ofPaths : PathContext :=
  transit.foldl putTransitHop (own.foldl addOwnPath {})

variable {ctx : PathContext} {id : PathID} {remote : RouterID}

theorem getElem?_ourPaths_addOwnPath (path : Path) :
    (ctx.addOwnPath path).ourPaths[id]? =
      ctx.ourPaths[id]?.or (if path.txID = id ∨ path.rxID = id then some path else none) := by
  rw [addOwnPath, getElem?_insertIfNew, getElem?_insertIfNew]
  cases known : ctx.ourPaths[id]? with
  | none =>
    by_cases receives : path.rxID = id
    · by_cases sends : path.txID = id <;> simp [receives, sends]
    · by_cases sends : path.txID = id <;> simp [receives, sends]
  | some old =>
    by_cases receives : path.rxID = id
    · by_cases sends : path.txID = id <;> simp [receives, sends]
    · by_cases sends : path.txID = id <;> simp [receives, sends]

/-- Of several paths with the same identifier, the first one keeps it. -/
theorem getElem?_ourPaths_foldl :
    (own.foldl addOwnPath ctx).ourPaths[id]? =
      ctx.ourPaths[id]?.or (own.find? fun path => path.txID = id ∨ path.rxID = id) := by
  induction own generalizing ctx with
  | nil => simp
  | cons path own ih =>
    rw [List.foldl_cons, ih, getElem?_ourPaths_addOwnPath, Option.or_assoc, List.find?_cons]
    by_cases its : path.txID = id ∨ path.rxID = id
    · simp [its]
    · simp [its]

@[simp] theorem ourPaths_foldl_putTransitHop :
    (transit.foldl putTransitHop ctx).ourPaths = ctx.ourPaths := by
  induction transit generalizing ctx with
  | nil => rfl
  | cons hop transit ih => exact ih

theorem getElem?_ourPaths_ofPaths :
    (ofPaths own transit).ourPaths[id]? =
      own.find? fun path => path.txID = id ∨ path.rxID = id := by
  rw [ofPaths, ourPaths_foldl_putTransitHop, getElem?_ourPaths_foldl]
  simp

/-- A hop is only found for the router that is next on its path. -/
theorem upstream_of_mapGet {hop : TransitHop}
    (found : ctx.mapGet id (·.info.upstream = remote) = some hop) :
    hop.info.upstream = remote := by
  obtain ⟨entry, passed, rfl⟩ := Option.map_eq_some_iff.mp found
  have checked := List.find?_some passed
  simp only [decide_eq_true_eq] at checked
  exact checked.2

/-- `GetByUpstream` only finds paths that the sender may speak for exactly if the first of our
paths with the identifier, if there is one, begins at the sender and receives under it. -/
theorem entitled_iff_first_hop (own : List Path) (transit : List TransitHop) (remote : RouterID)
    (id : PathID) :
    (∀ handler, (ofPaths own transit).getByUpstream remote id = some handler →
      handler.Entitled remote id) ↔
    ∀ path, (own.find? fun path => path.txID = id ∨ path.rxID = id) = some path →
      path.upstream = remote ∧ path.rxID = id := by
  rw [← getElem?_ourPaths_ofPaths own transit]
  constructor
  · intro entitled path first
    refine entitled (.own path) ?_
    rw [getByUpstream, first]
  · intro begins handler found
    cases ours : (ofPaths own transit).ourPaths[id]? with
    | some path =>
      rw [getByUpstream, ours] at found
      cases found
      exact begins path ours
    | none =>
      rw [getByUpstream, ours] at found
      obtain ⟨hop, passed, rfl⟩ := Option.map_eq_some_iff.mp found
      exact upstream_of_mapGet passed

/-- Router 7 is no hop of our path through the routers 1, 2 and 3, but a message from it
reaches the path under both identifiers. -/
theorem stranger_reaches_own_path :
    (ofPaths [Path.shortPath] []).getByUpstream (.copy 32 [7]) Path.shortPath.rxID =
        some (.own Path.shortPath) ∧
      (ofPaths [Path.shortPath] []).getByUpstream (.copy 32 [7]) Path.shortPath.txID =
        some (.own Path.shortPath) ∧
      Path.shortPath.rxID ≠ Path.shortPath.txID ∧
      ¬ HopHandler.Entitled (.copy 32 [7]) Path.shortPath.rxID (.own Path.shortPath) := by
  decide +kernel

end PathContext

end Llarp

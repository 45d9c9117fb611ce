import Llarp.Exit.ExitEndpoint

/-!
# The paths of exits

A path id is registered for an identity, not for one of its exits, and an exit is looked up as the
first one of the identity in the hash table. When an exit is destroyed, the path that it has then
is forgotten; when it changes its path, the old one is not. So the registered paths are the current
ones as long as no update succeeds and the first exit of an identity has its only registered path.
-/

namespace Llarp.Exit

open Foundation List Option

/-- The id of the current path. -/
def Endpoint.rxID (ep : Endpoint) : Option PathID := ep.currentPath.map Hop.rxID

namespace ExitEndpoint

abbrev Exits := List (PubKey × Endpoint)

abbrev Paths := Std.ExtTreeMap PathID PubKey

/-- An exit that is found by a path is active and has that path, and every registered path is that
of an active exit of its key. -/
structure PathsCurrent (s : ExitEndpoint) : Prop where
  found : ∀ p ep, s.findEndpointByPath p = some ep →
    (∃ pk, (pk, ep) ∈ s.activeExits) ∧ ep.rxID = some p
  registered : ∀ (p : PathID) pk, s.paths[p]? = some pk →
    ∃ ep, (pk, ep) ∈ s.activeExits ∧ ep.rxID = some p

/-- The id of the path that the first exit of an identity has. -/
def firstPath (exits : Exits) (pk : PubKey) : Option PathID :=
  (exits.find? (·.1 = pk)).bind (·.2.rxID)

/-- A registered path is that of the first exit of its key. -/
def First (exits : Exits) (paths : Paths) : Prop :=
  ∀ (p : PathID) pk, paths[p]? = some pk → firstPath exits pk = some p

/-- The exits are listed under their keys, which have addresses. -/
structure Listed (s : ExitEndpoint) : Prop where
  keys : ∀ entry ∈ s.activeExits, entry.2.pubKey = entry.1
  mapped : ∀ entry ∈ s.activeExits, entry.1 ∈ s.keyToIP

/-- A new exit is for an identity without another registered path, and the first exit of the
identity has the path then. No update of a path succeeds. -/
def KeepsPaths (cfg : Config) (s : ExitEndpoint) : Event → Prop
  | .allocateNewExit request _ => ∀ handler, granted cfg request = some handler →
      (∀ p : PathID, s.paths[p]? = some request.pk → p = request.path) ∧
        ((s.activeExits.take request.place).find? (·.1 = request.pk)).elim
          (some handler.rxID) (·.2.rxID) = some request.path
  | .updateExit path verified rxID _ =>
    s.findEndpointByPath path = none ∨ verified = false ∨ rxID ∈ s.paths
  | _ => True

variable {cfg : Config} {s t : ExitEndpoint} {e : Event} {pk q : PubKey} {exits : Exits}
  {paths : Paths}

/-! ### First exits -/

theorem key_of_find? {entry : PubKey × Endpoint} (first : exits.find? (·.1 = pk) = some entry) :
    entry.1 = pk := by
  have matched := find?_some first
  exact of_decide_eq_true matched

variable {ep : Endpoint} {p : PathID}

theorem firstPath_eq_some :
    firstPath exits pk = some p ↔
      ∃ ep, exits.find? (·.1 = pk) = some (pk, ep) ∧ ep.rxID = some p := by
  rw [firstPath, bind_eq_some_iff]
  constructor
  · rintro ⟨⟨key, ep⟩, first, path⟩
    obtain rfl : key = pk := key_of_find? first
    exact ⟨ep, first, path⟩
  · rintro ⟨ep, first, path⟩
    exact ⟨(pk, ep), first, path⟩

theorem Listed.pathsCurrent_iff (listed : Listed s) :
    PathsCurrent s ↔ First s.activeExits s.paths := by
  constructor
  · intro current p pk registered
    obtain ⟨ep, active, -⟩ := current.registered p pk registered
    obtain ⟨⟨key, ep⟩, first⟩ : ∃ entry, s.activeExits.find? (·.1 = pk) = some entry :=
      isSome_iff_exists.mp (find?_isSome.mpr ⟨_, active, decide_eq_true rfl⟩)
    obtain rfl : key = pk := key_of_find? first
    have found : s.findEndpointByPath p = some ep := by
      rw [findEndpointByPath, registered]
      dsimp only
      rw [first]
      exact if_pos (listed.keys _ (mem_of_find?_eq_some first))
    exact firstPath_eq_some.mpr ⟨ep, first, (current.found p ep found).2⟩
  · intro first
    refine ⟨fun p ep found => ?_, fun p pk registered => ?_⟩
    · rw [findEndpointByPath] at found
      cases registered : s.paths[p]? with
      | none => exact absurd (registered ▸ found) nofun
      | some pk =>
        obtain ⟨ep', entry, path⟩ := firstPath_eq_some.mp (first p pk registered)
        rw [registered] at found
        dsimp only at found
        rw [entry] at found
        dsimp only at found
        split_ifs at found
        cases found
        exact ⟨⟨pk, mem_of_find?_eq_some entry⟩, path⟩
    · obtain ⟨ep, entry, path⟩ := firstPath_eq_some.mp (first p pk registered)
      exact ⟨ep, mem_of_find?_eq_some entry, path⟩

/-! ### Exits that are destroyed -/

/-- The first match is still the first one when something else is erased. -/
theorem find?_eraseP {α : Type*} {f g : α → Bool} {l : List α} {x : α} (found : l.find? f = some x)
    (spared : g x = false) : (l.eraseP g).find? f = some x := by
  induction l with
  | nil => cases found
  | cons a l ih =>
    cases hit : f a with
    | true =>
      rw [find?_cons_of_pos hit] at found
      cases found
      rw [eraseP_cons_of_neg (by rw [spared]; nofun), find?_cons_of_pos hit]
    | false =>
      have miss : ¬f a = true := by rw [hit]; nofun
      rw [find?_cons_of_neg miss] at found
      cases erased : g a with
      | true => rwa [eraseP_cons_of_pos erased]
      | false =>
        rw [eraseP_cons_of_neg (by rw [erased]; nofun), find?_cons_of_neg miss, ih found]

theorem getElem?_delEndpointInfo :
    (delEndpointInfo paths ep)[p]? = some pk ↔ ep.rxID ≠ some p ∧ paths[p]? = some pk := by
  rw [delEndpointInfo, Endpoint.rxID]
  cases ep.currentPath with
  | none => simp
  | some hop => rw [getElem?_erase_eq_some, map_some, Ne, Ne, some.injEq, eq_comm]

theorem getElem?_foldl_delEndpointInfo {gone : Exits} :
    (gone.foldl (fun paths entry => delEndpointInfo paths entry.2) paths)[p]? = some pk ↔
      (∀ entry ∈ gone, entry.2.rxID ≠ some p) ∧ paths[p]? = some pk := by
  induction gone generalizing paths with
  | nil => simp
  | cons entry gone ih =>
    rw [foldl_cons, ih, getElem?_delEndpointInfo, forall_mem_cons]
    tauto

/-- Exits that are destroyed take their paths with them. -/
theorem First.eraseExits (first : First s.activeExits s.paths)
    (doomed : PubKey × Endpoint → Bool) :
    First (s.eraseExits doomed).activeExits (s.eraseExits doomed).paths := by
  intro p pk registered
  obtain ⟨kept, old⟩ := getElem?_foldl_delEndpointInfo.mp registered
  obtain ⟨ep, entry, path⟩ := firstPath_eq_some.mp (first p pk old)
  refine firstPath_eq_some.mpr ⟨ep, ?_, path⟩
  have spared : doomed (pk, ep) = false := by
    by_contra gone
    rw [Bool.not_eq_false] at gone
    exact kept _ (mem_filter.mpr ⟨mem_of_find?_eq_some entry, gone⟩) path
  rw [find?_eq_some_iff_append] at entry ⊢
  obtain ⟨own, before, behind, split, others⟩ := entry
  refine ⟨own, before.filter (!doomed ·), behind.filter (!doomed ·), ?_, fun x member =>
    others x (mem_of_mem_filter member)⟩
  show s.activeExits.filter (!doomed ·) = _
  rw [split, filter_append, filter_cons_of_pos (by rw [spared]; rfl)]

/-- An exit that is closed takes its path with it. -/
theorem First.eraseP {same : PubKey × Endpoint → Bool} {entry : PubKey × Endpoint}
    (first : First exits paths)
    (alike : ∀ x, same x = true → x.2.currentPath = entry.2.currentPath) :
    First (exits.eraseP same) (delEndpointInfo paths entry.2) := by
  intro p pk registered
  obtain ⟨kept, old⟩ := getElem?_delEndpointInfo.mp registered
  obtain ⟨ep, found, path⟩ := firstPath_eq_some.mp (first p pk old)
  refine firstPath_eq_some.mpr ⟨ep, find?_eraseP found ?_, path⟩
  rw [← Bool.not_eq_true]
  intro closed
  rw [Endpoint.rxID, ← alike _ closed] at kept
  exact kept path

/-! ### Exits that are added -/

theorem firstPath_insert (place : ℕ) (k : PubKey) :
    firstPath (exits.take place ++ (pk, ep) :: exits.drop place) k =
      if pk = k then ((exits.take place).find? (·.1 = pk)).elim ep.rxID (·.2.rxID)
      else firstPath exits k := by
  rw [firstPath, find?_append]
  split_ifs with same
  · subst same
    simp only [decide_true, find?_cons_of_pos]
    cases (exits.take place).find? (·.1 = pk) with
    | none => rfl
    | some entry => rfl
  · rw [find?_cons_of_neg (by rwa [decide_eq_true_eq]), ← find?_append,
      take_append_drop, firstPath]

/-- What a new exit needs. -/
theorem First.insert_iff {path : PathID} (first : First exits paths) (place : ℕ) :
    First (exits.take place ++ (pk, ep) :: exits.drop place) (paths.insert path pk) ↔
      (∀ p : PathID, paths[p]? = some pk → p = path) ∧
        ((exits.take place).find? (·.1 = pk)).elim ep.rxID (·.2.rxID) = some path := by
  constructor
  · intro after
    have new := after path pk (getElem?_insert_eq_some.mpr (.inl ⟨rfl, rfl⟩))
    refine ⟨fun p registered => ?_, ?_⟩
    · by_contra other
      have old := after p pk (getElem?_insert_eq_some.mpr (.inr ⟨other, registered⟩))
      exact other (some.inj (old.symm.trans new))
    · rwa [firstPath_insert, if_pos rfl] at new
  · rintro ⟨only, new⟩ p k registered
    rw [firstPath_insert]
    rcases getElem?_insert_eq_some.mp registered with ⟨rfl, rfl⟩ | ⟨other, old⟩
    · rwa [if_pos rfl]
    · rw [if_neg fun same : pk = k => other (only p (same ▸ old))]
      exact first p k old

/-! ### Addresses -/

/-- An identity gets an address. Another one may lose its address, and all its exits with it, but
only if the identity had none. -/
inductive Evicted (s : ExitEndpoint) (pk : PubKey) : ExitEndpoint → Prop
  | nobody {t : ExitEndpoint} (exits : t.activeExits = s.activeExits) (paths : t.paths = s.paths)
      (mapped : ∀ k, k = pk ∨ k ∈ s.keyToIP → k ∈ t.keyToIP) : Evicted s pk t
  | owner {t : ExitEndpoint} (q : PubKey) (unmapped : pk ∉ s.keyToIP)
      (exits : t.activeExits = (s.eraseExits (·.1 = q)).activeExits)
      (paths : t.paths = (s.eraseExits (·.1 = q)).paths)
      (mapped : ∀ k, k = pk ∨ k ≠ q ∧ k ∈ s.keyToIP → k ∈ t.keyToIP) : Evicted s pk t

theorem mem_insert_of {map : Std.ExtTreeMap PubKey IPv6} {ip : IPv6} {k : PubKey}
    (mapped : k = pk ∨ k ∈ map) : k ∈ map.insert pk ip := by
  rw [Std.ExtTreeMap.mem_insert, Std.LawfulEqOrd.compare_eq_iff_eq, eq_comm]
  exact mapped

theorem getIPForIdent_allocates (cfg : Config) (unmapped : s.keyToIP[pk]? = none) (now : ℕ) :
    (s.getIPForIdent cfg pk now).2.activeExits = (s.allocateNewAddress cfg).2.activeExits ∧
      (s.getIPForIdent cfg pk now).2.paths = (s.allocateNewAddress cfg).2.paths ∧
      ∀ k, k = pk ∨ k ∈ (s.allocateNewAddress cfg).2.keyToIP →
        k ∈ (s.getIPForIdent cfg pk now).2.keyToIP := by
  rw [getIPForIdent, unmapped]
  dsimp only
  split_ifs with known
  · refine ⟨rfl, rfl, ?_⟩
    rintro k (rfl | mapped)
    · exact known
    · exact mapped
  · exact ⟨rfl, rfl, fun k => mem_insert_of⟩
  · exact ⟨rfl, rfl, fun k => mem_insert_of⟩

theorem evicted_getIPForIdent (cfg : Config) (s : ExitEndpoint) (pk : PubKey) (now : ℕ) :
    Evicted s pk (s.getIPForIdent cfg pk now).2 := by
  cases found : s.keyToIP[pk]? with
  | some ip =>
    have unchanged : (s.getIPForIdent cfg pk now).2 = s.markIPActive ip now := by
      rw [getIPForIdent, found]
    rw [unchanged]
    refine .nobody rfl rfl ?_
    rintro k (rfl | mapped)
    · exact mem_iff_exists_getElem?.mpr ⟨ip, found⟩
    · exact mapped
  | none =>
    obtain ⟨exits, paths, mapped⟩ := getIPForIdent_allocates cfg found now
    by_cases next : s.nextAddr < cfg.highestAddr
    · rw [allocateNewAddress, if_pos next] at exits paths mapped
      exact .nobody exits paths mapped
    · rw [allocateNewAddress, if_neg next] at exits paths mapped
      refine .owner _ (not_mem_iff_getElem?.mpr found) exits paths fun k kept => mapped k ?_
      refine kept.imp_right ?_
      rintro ⟨other, known⟩
      show k ∈ s.keyToIP.erase _
      rw [Std.ExtTreeMap.mem_erase, Ne, Std.LawfulEqOrd.compare_eq_iff_eq]
      exact ⟨Ne.symm other, known⟩

theorem Evicted.listed (evicted : Evicted s pk t) (listed : Listed s) : Listed t := by
  cases evicted with
  | nobody exits paths mapped =>
    refine ⟨exits ▸ listed.keys, fun entry member => mapped _ (.inr ?_)⟩
    exact listed.mapped entry (exits ▸ member)
  | owner q unmapped exits paths mapped =>
    have kept {entry : PubKey × Endpoint} (member : entry ∈ t.activeExits) :
        entry ∈ s.activeExits ∧ entry.1 ≠ q := by
      rw [exits] at member
      obtain ⟨old, spared⟩ := mem_filter.mp member
      exact ⟨old, by simpa using spared⟩
    refine ⟨fun entry member => listed.keys entry (kept member).1, fun entry member => ?_⟩
    exact mapped _ (.inr ⟨(kept member).2, listed.mapped entry (kept member).1⟩)

theorem Evicted.first (evicted : Evicted s pk t) (first : First s.activeExits s.paths) :
    First t.activeExits t.paths := by
  cases evicted with
  | nobody exits paths mapped => rwa [exits, paths]
  | owner q unmapped exits paths mapped =>
    rw [exits, paths]
    exact first.eraseExits _

theorem Evicted.mem (evicted : Evicted s pk t) : pk ∈ t.keyToIP := by
  cases evicted with
  | nobody exits paths mapped => exact mapped pk (.inl rfl)
  | owner q unmapped exits paths mapped => exact mapped pk (.inl rfl)

/-! ### Steps -/

/-- Without an address there is no exit, and no registered path either. -/
theorem Listed.find?_eq_none (listed : Listed s) (unmapped : pk ∉ s.keyToIP) {sub : Exits}
    (subset : sub ⊆ s.activeExits) : sub.find? (·.1 = pk) = none := by
  refine List.find?_eq_none.mpr fun entry member same => unmapped ?_
  rw [← of_decide_eq_true same]
  exact listed.mapped entry (subset member)

theorem Listed.not_registered (listed : Listed s) (first : First s.activeExits s.paths)
    (unmapped : pk ∉ s.keyToIP) (p : PathID) : s.paths[p]? ≠ some pk := by
  intro registered
  obtain ⟨ep, entry, -⟩ := firstPath_eq_some.mp (first p pk registered)
  rw [listed.find?_eq_none unmapped (List.Subset.refl _)] at entry
  cases entry

/-- Whoever is evicted, it makes no difference to the new exit. -/
theorem Evicted.insert_iff (evicted : Evicted s pk t) (listed : Listed s)
    (first : First s.activeExits s.paths) {path : PathID} (ep : Endpoint) (place : ℕ) :
    First (t.activeExits.take place ++ (pk, ep) :: t.activeExits.drop place)
        (t.paths.insert path pk) ↔
      (∀ p : PathID, s.paths[p]? = some pk → p = path) ∧
        ((s.activeExits.take place).find? (·.1 = pk)).elim ep.rxID (·.2.rxID) = some path := by
  rw [(evicted.first first).insert_iff]
  cases evicted with
  | nobody exits paths mapped => rw [exits, paths]
  | owner q unmapped exits paths mapped =>
    have sublist : t.activeExits ⊆ s.activeExits := by
      rw [exits]
      exact filter_subset_self _
    have unregistered (p : PathID) : t.paths[p]? ≠ some pk := by
      rw [paths]
      intro registered
      exact listed.not_registered first unmapped p (getElem?_foldl_delEndpointInfo.mp registered).2
    rw [listed.find?_eq_none unmapped (List.Subset.trans (take_subset _ _) sublist),
      listed.find?_eq_none unmapped (take_subset _ _)]
    refine and_congr_left fun _ => ⟨fun _ p registered => ?_, fun _ p registered => ?_⟩
    · exact absurd registered (listed.not_registered first unmapped p)
    · exact absurd registered (unregistered p)

theorem keepsPaths_of_allocateNewExit (listed : Listed s) (first : First s.activeExits s.paths)
    {request : ExitRequest} {now : ℕ}
    (after : First (s.allocateNewExit cfg request now).2.activeExits
      (s.allocateNewExit cfg request now).2.paths) :
    KeepsPaths cfg s (.allocateNewExit request now) := by
  intro _ grants
  rw [allocateNewExit_eq, grants] at after
  exact ((evicted_getIPForIdent cfg s request.pk now).insert_iff listed first _ _).mp after

theorem Listed.addExit (listed : Listed s) {request : ExitRequest} (mapped : request.pk ∈ s.keyToIP)
    (handler : Hop) (ip : IPv6) : Listed (s.addExit request handler ip) := by
  constructor
  · intro entry member
    rcases mem_addExit.mp member with rfl | old
    · rfl
    · exact listed.keys entry old
  · intro entry member
    rcases mem_addExit.mp member with rfl | old
    · exact mapped
    · exact listed.mapped entry old

/-- A path that is updated stays registered along with the new one, but the exit has only one. -/
theorem updateLocalPath_not_first {path next : PathID}
    (registered : s.paths[path]? = some pk) (unused : next ∉ s.paths) (handler : Option Hop) :
    ¬First (s.updateLocalPath pk next handler).activeExits
      (s.updateLocalPath pk next handler).paths := by
  have other : path ≠ next := by
    rintro rfl
    exact unused (mem_iff_exists_getElem?.mpr ⟨pk, registered⟩)
  have absent : ¬s.paths.contains next = true := unused
  rw [updateLocalPath, if_neg absent]
  intro after
  have old := after path pk (getElem?_insert_eq_some.mpr (.inr ⟨other, registered⟩))
  have new := after next pk (getElem?_insert_eq_some.mpr (.inl ⟨rfl, rfl⟩))
  exact other (some.inj (old.symm.trans new))

theorem registered_of_found (found : s.findEndpointByPath p = some ep) :
    s.paths[p]? = some ep.pubKey := by
  rw [findEndpointByPath] at found
  split at found
  · cases found
  · rename_i pk registered
    split at found
    · cases found
    · split_ifs at found with own
      cases found
      rwa [own]

theorem keepsPaths_of_first {path rxID : PathID} {verified : Bool} {handler : Option Hop}
    (after : First (s.handleUpdateExitMessage path verified rxID handler).activeExits
      (s.handleUpdateExitMessage path verified rxID handler).paths) :
    KeepsPaths cfg s (.updateExit path verified rxID handler) := by
  cases found : s.findEndpointByPath path with
  | none => exact .inl found
  | some ep =>
    cases verified with
    | false => exact .inr (.inl rfl)
    | true =>
      refine .inr (.inr (by_contra fun unused => ?_))
      rw [handleUpdateExitMessage, found] at after
      exact updateLocalPath_not_first (registered_of_found found) unused handler after

theorem Listed.of_sublist (listed : Listed s) (exits : t.activeExits.Sublist s.activeExits)
    (keys : t.keyToIP = s.keyToIP) : Listed t :=
  ⟨fun entry member => listed.keys entry (exits.subset member),
    fun entry member => keys ▸ listed.mapped entry (exits.subset member)⟩

theorem Listed.step (listed : Listed s) (steps : step cfg s e = some t) : Listed t := by
  cases moved_of_step steps with
  | stays quiet => exact listed
  | @marks _ pk now asked => exact (evicted_getIPForIdent cfg s pk now).listed listed
  | @connects _ pk now asked =>
    exact { (evicted_getIPForIdent cfg s pk now).listed listed with }
  | @allocates request handler now grants asked =>
    have evicted := evicted_getIPForIdent cfg s request.pk now
    exact (evicted.listed listed).addExit evicted.mem handler _
  | hears now found => exact { listed with }
  | ticks now expired => exact listed.of_sublist filter_sublist rfl
  | closes rxID verified replied found alike => exact listed.of_sublist eraseP_sublist rfl
  | updates handler found unused =>
    constructor
    · intro entry member
      obtain ⟨old, present, hop, rfl⟩ := mem_replaceF_setPath member
      exact listed.keys old present
    · intro entry member
      obtain ⟨old, present, hop, rfl⟩ := mem_replaceF_setPath member
      exact listed.mapped old present

theorem First.step (first : First s.activeExits s.paths) (listed : Listed s)
    (keeps : KeepsPaths cfg s e) (steps : step cfg s e = some t) :
    First t.activeExits t.paths := by
  cases moved_of_step steps with
  | stays quiet => exact first
  | @marks _ pk now asked => exact (evicted_getIPForIdent cfg s pk now).first first
  | @connects _ pk now asked => exact (evicted_getIPForIdent cfg s pk now).first first
  | @allocates request handler now grants asked =>
    exact ((evicted_getIPForIdent cfg s request.pk now).insert_iff listed first _ _).mpr
      (keeps handler grants)
  | hears now found => exact first
  | ticks now expired => exact First.eraseExits (s := { s with snodeSessions := _ }) first _
  | closes rxID verified replied found alike => exact first.eraseP alike
  | updates handler found unused =>
    rcases keeps with missing | unverified | used
    · exact absurd (found.symm.trans missing) nofun
    · cases unverified
    · exact absurd used unused

theorem KeepsPaths.of_first (first : First s.activeExits s.paths) (listed : Listed s)
    (after : ∀ t, step cfg s e = some t → First t.activeExits t.paths) : KeepsPaths cfg s e := by
  cases e with
  | allocateNewExit request now =>
    exact keepsPaths_of_allocateNewExit listed first (after _ rfl)
  | updateExit path verified rxID handler => exact keepsPaths_of_first (after _ rfl)
  | _ => trivial

theorem listed_start (cfg : Config) : Listed (start cfg) := ⟨nofun, nofun⟩

theorem pathsCurrent_start (cfg : Config) : PathsCurrent (start cfg) := by
  refine (listed_start cfg).pathsCurrent_iff.mpr fun p pk registered => ?_
  cases registered

/-- In every run the exits stand under their own keys, and their keys have addresses. -/
theorem always_listed (cfg : Config) (events : List Event) :
    Always (step cfg) Listed (start cfg) events :=
  fun _ _ _ => run_invariant_of_forall _ (fun _ _ _ listed => listed.step) (listed_start cfg)

/-- In every run the registered paths are the current ones in every state exactly if no path is
updated and every new exit is the only one of its identity, or shares its path with the first. -/
theorem always_pathsCurrent_iff (cfg : Config) (events : List Event) :
    Always (step cfg) PathsCurrent (start cfg) events ↔
      Along (step cfg) (KeepsPaths cfg) (start cfg) events := by
  refine always_iff_along Listed (fun s e t listed _ _ => listed.step)
    (fun s e listed current => ?_) (listed_start cfg) (pathsCurrent_start cfg)
  have first := listed.pathsCurrent_iff.mp current
  constructor
  · intro after
    refine KeepsPaths.of_first first listed fun t steps => ?_
    exact (listed.step steps).pathsCurrent_iff.mp (after t steps)
  · intro keeps t steps
    exact (listed.step steps).pathsCurrent_iff.mpr (first.step listed keeps steps)

/-- An exit over a path with the given id. -/
def exampleRequest (path : PathID) : ExitRequest where
  pk := examplePeer
  path := path
  wantInternet := true
  handler := some ⟨0, path⟩
  previousIsRouter := false
  place := 0

def examplePath (n : UInt8) : PathID := ⟨List.replicate 16 n, List.length_replicate⟩

theorem not_always_of_found {events : List Event} {p q : PathID} (other : p ≠ q)
    (mixed : (run (step cfg) (start cfg) events).bind
      (fun t => (t.findEndpointByPath p).bind Endpoint.rxID) = some q) :
    ¬Always (step cfg) PathsCurrent (start cfg) events := by
  intro always
  obtain ⟨t, runs, mixed⟩ := bind_eq_some_iff.mp mixed
  obtain ⟨ep, found, path⟩ := bind_eq_some_iff.mp mixed
  have current := ((always events t prefix_rfl runs).found p ep found).2
  exact other (some.inj (current.symm.trans path))

/-- With two exits over different paths, the exit that is found for the first path has the second
one; after an update to another path, the old one is still registered. -/
theorem second_exit_and_update_mix_paths :
    ¬Always (step exampleConfig) PathsCurrent (start exampleConfig)
        [.allocateNewExit (exampleRequest (examplePath 1)) 0,
          .allocateNewExit (exampleRequest (examplePath 2)) 0] ∧
      ¬Always (step exampleConfig) PathsCurrent (start exampleConfig)
        [.allocateNewExit (exampleRequest (examplePath 1)) 0,
          .updateExit (examplePath 1) true (examplePath 2) (some ⟨1, examplePath 2⟩)] := by
  have other : examplePath 1 ≠ examplePath 2 := by decide
  exact ⟨not_always_of_found other (by decide +kernel),
    not_always_of_found other (by decide +kernel)⟩

end ExitEndpoint

end Llarp.Exit

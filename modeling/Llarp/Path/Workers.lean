import Llarp.Path.Context
import Llarp.Foundation.Run

/-!
# The workers of transit hops

The event loop submits traffic to worker threads with weak references to the hops, which the
path context owns. A worker takes an item from a queue, locks its reference and uses the hop
without looking at the result. If the context has dropped the hop in the meantime, the worker
dereferences a null pointer, which ends the run. The gatherer on the event loop looks.
-/

namespace Llarp

open Foundation

/-- A hop object: what traffic needs, and when it expires. -/
structure HopObject where
  hop : TransitHop
  started : ℕ
  lifetime : ℕ
  destroy : Bool := false
  deriving DecidableEq

def HopObject.expired (object : HopObject) (now : ℕ) : Bool :=
  object.destroy || object.started + object.lifetime ≤ now

inductive Direction where
  | up
  | down
  deriving DecidableEq

/-- An item of work: a weak reference to a hop, and the traffic. -/
structure WorkItem where
  hop : ℕ
  event : TrafficEvent
  deriving DecidableEq

/-- The transit hops of a router and their workers. Hops are numbered. `table` is the map of
the path context, with two entries for each hop, and `holders` are the other owners of hops:
callbacks and handlers on the event loop. `hands` are the items that workers have taken from
the queues but not locked yet. -/
structure TransitWorker where
  now : ℕ := 0
  objects : ℕ → Option HopObject := fun _ => none
  table : List (PathID × ℕ) := []
  holders : List ℕ := []
  submitted : Direction → List WorkItem := fun _ => []
  hands : Direction → List WorkItem := fun _ => []
  gathered : Direction → List (ℕ × RelayMessage) := fun _ => []
  handled : List (Direction × ℕ × RelayMessage) := []

inductive WorkerEvent where
  | put (hop : ℕ) (object : HopObject)
  | hold (hop : ℕ)
  | release (hop : ℕ)
  | selfDestruct (hop : ℕ)
  | submit (direction : Direction) (hop : ℕ) (event : TrafficEvent)
  | pop (direction : Direction)
  | work (direction : Direction) (index : ℕ)
  | gather
  | expirePaths
  | tick (ms : ℕ)

namespace TransitWorker

def queueLength : ℕ := 128

/-- Whether a weak reference can be locked: somebody owns the hop. -/
def locks (s : TransitWorker) (hop : ℕ) : Bool :=
  s.table.any (·.2 = hop) || s.holders.contains hop

def expires (s : TransitWorker) (hop : ℕ) : Bool :=
  (s.objects hop).any (·.expired s.now)

/-- The message that a worker makes. -/
def process (cipher : XChaCha20) (hop : TransitHop) : Direction → TrafficEvent → RelayMessage
  | .up, event => hop.runUpstream cipher event
  | .down, event => hop.runDownstream cipher event

/-- The items of work that are not done yet. -/
def outstanding (s : TransitWorker) (direction : Direction) : List WorkItem :=
  s.submitted direction ++ s.hands direction

variable (cipher : XChaCha20)

/-- A step of the event loop or of a worker. -/
def step (s : TransitWorker) : WorkerEvent → Option TransitWorker
  | .put hop object =>
    if s.objects hop = none then
      some
        { s with
          objects := Function.update s.objects hop object
          table := (object.hop.info.rxID, hop) :: (object.hop.info.txID, hop) :: s.table }
    else some s
  | .hold hop => some (if s.locks hop then { s with holders := hop :: s.holders } else s)
  | .release hop => some { s with holders := s.holders.erase hop }
  | .selfDestruct hop =>
    some { s with
      objects := Function.update s.objects hop
        ((s.objects hop).map ({ · with destroy := true })) }
  -- the hop submits the item itself, so that somebody owns it; a full queue drops the item
  | .submit direction hop event =>
    if s.locks hop ∧ (s.submitted direction).length < queueLength then
      some { s with
        submitted := Function.update s.submitted direction
          (s.submitted direction ++ [⟨hop, event⟩]) }
    else some s
  | .pop direction =>
    match s.submitted direction with
    | [] => some s
    | item :: rest =>
      some { s with
        submitted := Function.update s.submitted direction rest
        hands := Function.update s.hands direction (item :: s.hands direction) }
  | .work direction index =>
    match (s.hands direction)[index]? with
    | none => some s
    | some item =>
      if s.locks item.hop then
        (s.objects item.hop).map fun object =>
          { s with
            hands := Function.update s.hands direction ((s.hands direction).eraseIdx index)
            gathered :=
              if (s.gathered direction).length < queueLength then
                Function.update s.gathered direction (s.gathered direction ++
                  [(item.hop, process cipher object.hop direction item.event)])
              else s.gathered }
      else none
  | .gather =>
    some { s with
      gathered := fun _ => []
      handled := s.handled ++
        ((s.gathered .up).filter (s.locks ·.1)).map (.up, ·) ++
        ((s.gathered .down).filter (s.locks ·.1)).map (.down, ·) }
  | .expirePaths => some { s with table := s.table.filter fun entry => !s.expires entry.2 }
  | .tick ms => some { s with now := s.now + ms }

/-- A hop is dropped only when no work is outstanding for it. -/
def Patient (s : TransitWorker) : WorkerEvent → Prop
  | .expirePaths => ∀ direction, ∀ item ∈ s.outstanding direction,
    s.expires item.hop = true → item.hop ∈ s.holders
  | .release hop => ∀ direction, ∀ item ∈ s.outstanding direction,
    item.hop = hop → (s.table.any (·.2 = hop) = true ∨ hop ∈ s.holders.erase hop)
  | _ => True

instance {p : Direction → Prop} [DecidablePred p] : Decidable (∀ direction, p direction) :=
  decidable_of_iff (p .up ∧ p .down)
    ⟨fun ⟨up, down⟩ direction => by cases direction <;> assumption, fun h => ⟨h .up, h .down⟩⟩

instance (s : TransitWorker) (event : WorkerEvent) : Decidable (s.Patient event) := by
  unfold Patient
  split
  · infer_instance
  · infer_instance
  · infer_instance

/-- Every hop with outstanding work is owned, and owned hops exist. -/
structure Served (s : TransitWorker) : Prop where
  exists_of_locks : ∀ hop, s.locks hop = true → (s.objects hop).isSome = true
  submitted : ∀ direction, ∀ item ∈ s.submitted direction, s.locks item.hop = true
  hands : ∀ direction, ∀ item ∈ s.hands direction, s.locks item.hop = true

variable {cipher} {s s' : TransitWorker} {hop : ℕ}

theorem locks_iff : s.locks hop = true ↔ (∃ entry ∈ s.table, entry.2 = hop) ∨ hop ∈ s.holders := by
  simp [locks]

theorem forall_mem_update {queues : Direction → List WorkItem} {queue : List WorkItem}
    {P : WorkItem → Prop} (old : ∀ direction, ∀ item ∈ queues direction, P item)
    (new : ∀ item ∈ queue, P item) (direction : Direction) :
    ∀ direction', ∀ item ∈ Function.update queues direction queue direction', P item := by
  intro direction'
  rw [Function.update_apply]
  split_ifs
  · exact new
  · exact old direction'

namespace Served

variable (served : s.Served)

include served

theorem locks_of_mem {direction : Direction} {item : WorkItem}
    (member : item ∈ s.outstanding direction) : s.locks item.hop = true :=
  (List.mem_append.mp member).elim (served.submitted direction item) (served.hands direction item)

/-- Owners may come as long as their hops exist. -/
theorem extend {objects : ℕ → Option HopObject} {table : List (PathID × ℕ)} {holders : List ℕ}
    (filed : s.table ⊆ table) (held : s.holders ⊆ holders)
    (known : ∀ hop, (∃ entry ∈ table, entry.2 = hop) ∨ hop ∈ holders →
      (objects hop).isSome = true) : Served { s with objects, table, holders } := by
  have kept (hop : ℕ) (locks : s.locks hop = true) :
      TransitWorker.locks { s with objects, table, holders } hop = true := by
    rw [locks_iff] at locks ⊢
    exact locks.imp (fun ⟨entry, member, its⟩ => ⟨entry, filed member, its⟩) (held ·)
  exact ⟨fun hop locks => known hop (locks_iff.mp locks),
    fun direction item member => kept _ (served.submitted direction item member),
    fun direction item member => kept _ (served.hands direction item member)⟩

/-- Owners may go as long as every outstanding item keeps one. -/
theorem restrict {table : List (PathID × ℕ)} {holders : List ℕ} (filed : table ⊆ s.table)
    (held : holders ⊆ s.holders)
    (kept : ∀ direction, ∀ item ∈ s.outstanding direction,
      (∃ entry ∈ table, entry.2 = item.hop) ∨ item.hop ∈ holders) :
    Served { s with table, holders } where
  exists_of_locks other locks := by
    refine served.exists_of_locks other ?_
    rw [locks_iff] at locks ⊢
    exact locks.imp (fun ⟨entry, member, its⟩ => ⟨entry, filed member, its⟩) (held ·)
  submitted direction item member :=
    locks_iff.mpr (kept direction item (List.mem_append_left _ member))
  hands direction item member :=
    locks_iff.mpr (kept direction item (List.mem_append_right _ member))

/-- A step that drops no hop too early does not dereference a null pointer. -/
theorem step {event : WorkerEvent} (patient : s.Patient event) :
    ∃ s', s.step cipher event = some s' ∧ s'.Served := by
  cases event with
  | put hop object =>
    rw [TransitWorker.step]
    split_ifs
    · refine ⟨_, rfl, served.extend (List.subset_cons_of_subset _ (List.subset_cons_self ..))
        (List.Subset.refl _) fun other owned => ?_⟩
      rw [Function.update_apply]
      split_ifs with same
      · rfl
      · refine served.exists_of_locks other (locks_iff.mpr ?_)
        simpa [Ne.symm same] using owned
    · exact ⟨s, rfl, served⟩
  | hold hop =>
    refine ⟨_, rfl, ?_⟩
    split_ifs with owned
    · refine served.extend (List.Subset.refl _) (List.subset_cons_self ..) fun other locks => ?_
      rw [List.mem_cons, or_left_comm] at locks
      rcases locks with rfl | locks
      · exact served.exists_of_locks _ owned
      · exact served.exists_of_locks other (locks_iff.mpr locks)
    · exact served
  | release hop =>
    refine ⟨_, rfl, served.restrict (List.Subset.refl _) List.erase_subset ?_⟩
    intro direction item member
    by_cases its : item.hop = hop
    · rw [its]
      exact (patient direction item member its).imp_left fun filed => by simpa using filed
    · refine (locks_iff.mp (served.locks_of_mem member)).imp_right fun held => ?_
      exact (List.mem_erase_of_ne its).mpr held
  | selfDestruct hop =>
    refine ⟨_, rfl, { served with exists_of_locks := fun other locks => ?_ }⟩
    have known := served.exists_of_locks other locks
    show (Function.update s.objects hop _ other).isSome = true
    rw [Function.update_apply]
    split_ifs with same
    · rw [Option.isSome_map, ← same]
      exact known
    · exact known
  | submit direction hop event =>
    rw [TransitWorker.step]
    split_ifs with room
    · refine ⟨_, rfl, { served with submitted := forall_mem_update served.submitted ?_ direction }⟩
      exact List.forall_mem_append.mpr
        ⟨served.submitted direction, List.forall_mem_singleton.mpr room.1⟩
    · exact ⟨s, rfl, served⟩
  | pop direction =>
    cases queue : s.submitted direction with
    | nil => exact ⟨s, by rw [TransitWorker.step, queue], served⟩
    | cons first rest =>
      have queued := served.submitted direction
      rw [queue, List.forall_mem_cons] at queued
      rw [TransitWorker.step, queue]
      refine ⟨_, rfl,
        { served with
          submitted := forall_mem_update served.submitted queued.2 direction
          hands := forall_mem_update served.hands ?_ direction }⟩
      exact List.forall_mem_cons.mpr ⟨queued.1, served.hands direction⟩
  | work direction index =>
    cases taken : (s.hands direction)[index]? with
    | none => exact ⟨s, by simp only [TransitWorker.step, taken], served⟩
    | some item =>
      have locks : s.locks item.hop = true := 
        served.hands direction item (List.mem_of_getElem? taken)
      obtain ⟨object, known⟩ := Option.isSome_iff_exists.mp (served.exists_of_locks _ locks)
      obtain ⟨gathered, moved⟩ : ∃ gathered, s.step cipher (.work direction index) =
          some { s with
            hands := Function.update s.hands direction ((s.hands direction).eraseIdx index)
            gathered } := by
        simp only [TransitWorker.step, taken, locks, if_true, known, Option.map_some]
        exact ⟨_, rfl⟩
      refine ⟨_, moved, { served with hands := forall_mem_update served.hands ?_ direction }⟩
      exact fun other member => served.hands direction other (List.mem_of_mem_eraseIdx member)
  | gather =>
    exact ⟨_, rfl, { served with }⟩
  | expirePaths =>
    refine ⟨_, rfl, served.restrict (List.filter_subset_self _) (List.Subset.refl _) ?_⟩
    intro direction item member
    by_cases expires : s.expires item.hop = true
    · exact .inr (patient direction item member expires)
    · -- the entries of a hop that has not expired stay
      refine (locks_iff.mp (served.locks_of_mem member)).imp_left ?_
      rintro ⟨entry, filed, its⟩
      exact ⟨entry, List.mem_filter.mpr ⟨filed, by simp [its, expires]⟩, its⟩
  | tick ms =>
    exact ⟨_, rfl, { served with }⟩

end Served

/-- No worker dereferences a null pointer in a run in which no hop is dropped while work is
outstanding for it. -/
theorem run_isSome_of_patient (cipher : XChaCha20) (events : List WorkerEvent)
    (patient : Along (step cipher) Patient {} events) :
    (run (step cipher) {} events).isSome = true := by
  have start : Served {} := ⟨fun _ owned => by simp [locks] at owned, fun _ => nofun, fun _ => nofun⟩
  obtain ⟨s, reaches, -⟩ :=
    exists_run_of_along Served (fun _ _ served => served.step) start patient
  rw [reaches]
  rfl

/-- A hop for concrete runs. It expires after 10 milliseconds. -/
def plainHop : HopObject :=
  ⟨⟨⟨.copy 16 [1], .copy 16 [2], .copy 32 [3], .copy 32 [4]⟩, .zero 32, .zero 32⟩, 0, 10, false⟩

/-- Work is done for a hop before it expires. -/
theorem run_isSome_of_patient_in_time :
    (run (step ⟨fun _ _ _ => 7⟩) {}
      [.put 0 plainHop, .submit .up 0 (⟨[1], by decide⟩, .zero 32), .pop .up, .work .up 0, .gather,
        .tick 20, .expirePaths]).isSome = true :=
  run_isSome_of_patient _ _ (by decide +kernel)

/-- A hop expires while traffic is queued for it, and the worker dereferences a null pointer. -/
theorem worker_uses_expired_hop :
    run (step ⟨fun _ _ _ => 7⟩) {}
      [.put 0 plainHop, .submit .up 0 (⟨[1], by decide⟩, .zero 32), .tick 20, .expirePaths,
        .pop .up, .work .up 0] = none := by
  have stops : (run (step ⟨fun _ _ _ => 7⟩) {}
      [.put 0 plainHop, .submit .up 0 (⟨[1], by decide⟩, .zero 32), .tick 20, .expirePaths,
        .pop .up, .work .up 0]).isNone = true := by decide +kernel
  exact Option.isNone_iff_eq_none.mp stops

end TransitWorker

end Llarp

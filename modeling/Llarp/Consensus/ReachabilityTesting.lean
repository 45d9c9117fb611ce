import Llarp.Crypto.Types

/-!
# Reachability tests

A service node tests the others one by one. `next_random` takes the next one off a queue; when
the queue is exhausted it is filled with all the routers of the whitelist, and the function calls
itself to take one off the new queue. By then it has set the time of the next test, which the
inner call finds in the future: the call that fills the queue never returns a node.
-/

namespace Llarp.Consensus

open Foundation List

structure ReachabilityTesting where
  /-- the back of the vector comes first -/
  testingQueue : List RouterID
  nextGeneralTest : ℤ
  failing : Finset RouterID

namespace ReachabilityTesting

variable (us : RouterID) (failing : Finset RouterID)

/-- The nodes that general tests are made of. -/
abbrev Tested (pk : RouterID) : Prop := pk ≠ us ∧ pk ∉ failing

/-- Take the next node to test off the queue. -/
def pull : List RouterID → Option RouterID × List RouterID
  | [] => (none, [])
  | pk :: queue => if Tested us failing pk then (some pk, queue) else pull queue

/-- One call draws an interval; `shuffled` is the whitelist in a random order. -/
def nextRandom (shuffled : List RouterID) (interval : Bool → ℤ) (now : ℤ) (requeue : Bool)
    (s : ReachabilityTesting) : Option RouterID × ReachabilityTesting :=
  if now < s.nextGeneralTest then (none, s)
  else
    let s := { s with nextGeneralTest := now + interval requeue }
    match pull us s.failing s.testingQueue with
    | (some pk, queue) => (some pk, { s with testingQueue := queue })
    | (none, queue) =>
      if requeue = true then nextRandom shuffled interval now false { s with testingQueue := shuffled }
      else (none, { s with testingQueue := queue })
termination_by requeue.toNat

variable {us failing} {shuffled whitelist : List RouterID} {interval : Bool → ℤ} {now : ℤ}
  {s : ReachabilityTesting}

theorem pull_fst (queue : List RouterID) :
    (pull us failing queue).1 = queue.find? fun pk => Tested us failing pk := by
  induction queue with
  | nil => rfl
  | cons pk queue ih =>
    rw [pull, find?_cons]
    by_cases tested : Tested us failing pk
    · rw [if_pos tested, decide_eq_true tested]
    · rw [if_neg tested, decide_eq_false tested, ih]

/-- A call that fills the queue makes the inner call before the time of the next test. -/
theorem nextRandom_fst (due : s.nextGeneralTest ≤ now) (positive : 0 < interval true) :
    (nextRandom us shuffled interval now true s).1 =
      s.testingQueue.find? fun pk => Tested us s.failing pk := by
  rw [nextRandom, if_neg due.not_gt, ← pull_fst]
  dsimp only
  split
  next pulled => rw [pulled]
  next pulled =>
    rw [if_pos rfl, nextRandom, if_pos (lt_add_of_pos_right now positive), pulled]

/-- A node to test is found if the queue has one, or else if the whitelist has one. -/
structure Finds (us : RouterID) (whitelist : List RouterID) (s : ReachabilityTesting)
    (found : Option RouterID) : Prop where
  queued : (∃ pk ∈ s.testingQueue, Tested us s.failing pk) →
    ∃ pk ∈ s.testingQueue, Tested us s.failing pk ∧ found = some pk
  listed : (∀ pk ∈ s.testingQueue, ¬Tested us s.failing pk) →
    (∃ pk ∈ whitelist, Tested us s.failing pk) →
      ∃ pk ∈ whitelist, Tested us s.failing pk ∧ found = some pk

/-- A test that is due is made if the queue has a node to test, or the whitelist has none. -/
theorem finds_nextRandom_iff (due : s.nextGeneralTest ≤ now) (positive : ∀ r, 0 < interval r)
    (_listed : shuffled.Perm whitelist) :
    Finds us whitelist s (nextRandom us shuffled interval now true s).1 ↔
      (∃ pk ∈ s.testingQueue, Tested us s.failing pk) ∨
        ∀ pk ∈ whitelist, ¬Tested us s.failing pk := by
  rw [nextRandom_fst due (positive true)]
  cases search : s.testingQueue.find? fun pk => Tested us s.failing pk with
  | some pk =>
    have tested : Tested us s.failing pk := by simpa using find?_some search
    have queued := mem_of_find?_eq_some search
    refine iff_of_true ⟨fun _ => ⟨pk, queued, tested, rfl⟩, fun none => ?_⟩
      (.inl ⟨pk, queued, tested⟩)
    exact absurd tested (none pk queued)
  | none =>
    have nobody : ∀ pk ∈ s.testingQueue, ¬Tested us s.failing pk := by simpa using search
    constructor
    · intro finds
      refine .inr fun pk member tested => ?_
      obtain ⟨_, _, _, found⟩ := finds.listed nobody ⟨pk, member, tested⟩
      cases found
    · rintro (⟨pk, queued, tested⟩ | unlisted)
      · exact absurd tested (nobody pk queued)
      · exact ⟨fun ⟨pk, queued, tested⟩ => absurd tested (nobody pk queued),
          fun _ ⟨pk, member, tested⟩ => absurd tested (unlisted pk member)⟩

theorem finds_nextRandom_queued : Finds (.zero 32) [] ⟨[.copy 32 [1]], 0, ∅⟩
    (nextRandom (.zero 32) [] (fun _ => 10) 5 true ⟨[.copy 32 [1]], 0, ∅⟩).1 :=
  (finds_nextRandom_iff (by decide) (by decide) .nil).mpr
    (.inl ⟨_, mem_singleton_self _, by decide⟩)

/-- With an empty queue the only other router of the whitelist is not tested. -/
theorem not_finds_nextRandom_requeued : ¬Finds (.zero 32) [.copy 32 [1]] ⟨[], 0, ∅⟩
    (nextRandom (.zero 32) [.copy 32 [1]] (fun _ => 10) 5 true ⟨[], 0, ∅⟩).1 := by
  rw [nextRandom_fst (by decide) (by decide)]
  intro finds
  obtain ⟨_, _, _, found⟩ := finds.listed nofun ⟨_, mem_singleton_self _, by decide⟩
  cases found

end ReachabilityTesting

end Llarp.Consensus

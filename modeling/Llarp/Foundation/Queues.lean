import Llarp.Foundation.Maps

/-!
# Priority queues, and queues under keys

A priority queue is the list of its elements together with a rule that says which of the
elements of least priority is on top. Of a map from keys to queues only the contents count:
all that is queued under any key, up to the order.
-/

namespace Foundation

open List

/-! ### Priority queues -/

/-- Which element of a queue is on top: one of least priority. -/
structure Heap {α β : Type*} [LE β] (priority : α → β) where
  top : List α → Option α
  top_mem : ∀ {queue e}, top queue = some e → e ∈ queue
  top_le : ∀ {queue e}, top queue = some e → ∀ x ∈ queue, priority e ≤ priority x
  eq_nil_of_top : ∀ {queue}, top queue = none → queue = []

section Heap

variable {α β : Type*} [DecidableEq α]

/-- Of several elements of least priority the oldest one is on top. -/
def Heap.oldest [LinearOrder β] (priority : α → β) : Heap priority where
  top := List.argmin priority
  top_mem := List.argmin_mem
  top_le := fun found _ member => List.le_of_mem_argmin member found
  eq_nil_of_top := List.argmin_eq_none.mp

variable [LE β] {priority : α → β} (heap : Heap priority)

/-- The elements in the order in which a loop takes them off the top, at most `n`. -/
def Heap.drain : (n : ℕ) → List α → List α
  | 0, _ => []
  | n + 1, queue =>
    match heap.top queue with
    | none => []
    | some e => e :: drain n (queue.erase e)

/-- All elements in the order in which a loop takes them off the top. -/
def Heap.drainAll (queue : List α) : List α := heap.drain queue.length queue

theorem Heap.mem_of_mem_drain {n : ℕ} {queue : List α} {e : α} (member : e ∈ heap.drain n queue) :
    e ∈ queue := by
  induction n generalizing queue with
  | zero => cases member
  | succ n ih =>
    rw [drain] at member
    split at member
    · cases member
    · rename_i found
      rcases mem_cons.mp member with rfl | later
      · exact heap.top_mem found
      · exact mem_of_mem_erase (ih later)

/-- The elements leave in the order of their priorities. -/
theorem Heap.pairwise_drain (n : ℕ) (queue : List α) :
    (heap.drain n queue).Pairwise fun a b => priority a ≤ priority b := by
  induction n generalizing queue with
  | zero => exact .nil
  | succ n ih =>
    rw [drain]
    split
    · exact .nil
    · rename_i found
      exact .cons (fun x later =>
        heap.top_le found x (mem_of_mem_erase (heap.mem_of_mem_drain later))) (ih _)

/-- What has left the queue, and what is still in it. -/
theorem Heap.perm_drain_append (n : ℕ) (queue : List α) :
    (heap.drain n queue ++ queue.diff (heap.drain n queue)).Perm queue := by
  induction n generalizing queue with
  | zero => exact .refl _
  | succ n ih =>
    rw [drain]
    split
    · exact .refl _
    · rename_i e found
      rw [diff_cons, cons_append]
      exact ((ih _).cons e).trans (perm_cons_erase (heap.top_mem found)).symm

theorem Heap.length_drain (n : ℕ) (queue : List α) :
    (heap.drain n queue).length = min n queue.length := by
  induction n generalizing queue with
  | zero => exact (Nat.zero_min _).symm
  | succ n ih =>
    rw [drain]
    cases found : heap.top queue with
    | none => rw [heap.eq_nil_of_top found, length_nil, Nat.min_zero]
    | some e =>
      have size := length_erase_add_one (heap.top_mem found)
      rw [length_cons, ih, ← size, Nat.add_min_add_right]

theorem Heap.perm_drainAll (queue : List α) : (heap.drainAll queue).Perm queue := by
  have whole := heap.perm_drain_append queue.length queue
  have size := whole.length_eq
  rw [length_append, length_drain, Nat.min_self] at size
  have empty : queue.diff (heap.drain queue.length queue) = [] :=
    length_eq_zero_iff.mp (by omega)
  rwa [empty, append_nil] at whole

/-- A loop that takes elements off the top goes on where another one has stopped. -/
theorem Heap.drain_add (m n : ℕ) (queue : List α) :
    heap.drain (m + n) queue =
      heap.drain m queue ++ heap.drain n (queue.diff (heap.drain m queue)) := by
  induction m generalizing queue with
  | zero => rw [Nat.zero_add, drain, nil_append, diff_nil]
  | succ m ih =>
    rw [Nat.add_right_comm, drain, drain]
    cases found : heap.top queue with
    | none =>
      have empty := length_eq_zero_iff.mp
        ((heap.length_drain n []).trans (Nat.min_zero n))
      rw [heap.eq_nil_of_top found]
      exact empty.symm
    | some e =>
      dsimp only
      rw [ih, diff_cons, cons_append]

end Heap

/-- With the greatest element on top, the elements leave in ascending order only if none is greater
than another. -/
theorem Heap.ascending_drainAll_iff {α β : Type*} [DecidableEq α] [LinearOrder β] {key : α → β}
    (heap : Heap fun e => OrderDual.toDual (key e)) (queue : List α) :
    (heap.drainAll queue).Pairwise (fun a b => key a ≤ key b) ↔
      ∀ a ∈ queue, ∀ b ∈ queue, key a = key b := by
  have members := fun e => (heap.perm_drainAll queue).mem_iff (a := e)
  constructor
  · intro ascending
    have same : (heap.drainAll queue).Pairwise fun a b => key a = key b :=
      (ascending.and (heap.pairwise_drain _ queue)).imp fun both => le_antisymm both.1 both.2
    have : Std.Symm fun a b => key a = key b := ⟨fun _ _ => Eq.symm⟩
    intro a found b found'
    exact List.Pairwise.forall_of_forall (R := fun a b => key a = key b) (fun _ _ => rfl) same
      ((members a).mpr found) ((members b).mpr found')
  · intro same
    refine pairwise_iff_forall_sublist.mpr fun {a b} pair => le_of_eq (same a ?_ b ?_)
    · exact (members a).mp (pair.subset (by simp))
    · exact (members b).mp (pair.subset (by simp))

/-! ### Queues under keys -/

section Contents

variable {κ α : Type*} [Ord κ] [Std.TransOrd κ] [Std.LawfulEqOrd κ]

/-- All that is queued under any key. -/
def contents (queues : Std.ExtTreeMap κ (List α)) : List α :=
  queues.toList.flatMap fun entry => entry.2

variable [DecidableEq κ] (queues : Std.ExtTreeMap κ (List α)) (key : κ)

theorem contents_perm_erase :
    (contents queues).Perm (queues[key]?.getD [] ++ contents (queues.erase key)) := by
  cases found : queues[key]? with
  | none => rw [erase_of_getElem? found, Option.getD_none, nil_append]
  | some queue => exact (toList_perm_cons_erase found).flatMap_right _

theorem contents_insert (queue : List α) :
    (contents (queues.insert key queue)).Perm (queue ++ contents (queues.erase key)) := by
  have split := contents_perm_erase (queues.insert key queue) key
  rwa [erase_insert, getElem?_insert, if_pos rfl, Option.getD_some] at split

/-- An element that is put under a key. -/
theorem contents_push (e : α) :
    (contents (queues.insert key (queues[key]?.getD [] ++ [e]))).Perm (contents queues ++ [e]) := by
  refine (contents_insert ..).trans ?_
  refine List.Perm.trans ?_ ((contents_perm_erase queues key).symm.append_right _)
  rw [append_assoc, append_assoc]
  exact perm_append_comm.append_left _

/-- An element that is taken from under a key. -/
theorem contents_pop [DecidableEq α] {e : α} (member : e ∈ queues[key]?.getD []) :
    (contents queues).Perm
      (e :: contents (queues.insert key ((queues[key]?.getD []).erase e))) := by
  refine (contents_perm_erase queues key).trans ?_
  refine ((perm_cons_erase member).append_right _).trans ?_
  exact ((contents_insert ..).symm).cons e

/-- Looking up a key with an operator that creates missing entries. -/
theorem contents_insertIfNew : (contents (queues.insertIfNew key [])).Perm (contents queues) := by
  cases found : queues[key]? with
  | some queue => rw [insertIfNew_eq_self found]
  | none =>
    rw [insertIfNew_eq_insert found]
    refine (contents_insert ..).trans ?_
    rw [erase_of_getElem? found, nil_append]

end Contents

end Foundation

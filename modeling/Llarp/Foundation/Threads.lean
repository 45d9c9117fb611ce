import Mathlib

/-!
# Threads with stacks

Threads run over shared data. The state of a thread is the stack of its frames: the top frame
runs, and the frames below it wait for it to return. What matters to an invariant is which
frames there are, not where they are.
-/

namespace Foundation

variable {φ : Type*} {threads : List (List φ)} {thread : ℕ} {frame : φ} {stack below : List φ}

/-- The frames of all threads. -/
def frames (threads : List (List φ)) : List φ := threads.flatten

/-- The frames of one thread and those of the others. -/
theorem frames_set_perm (found : threads[thread]? = some stack) :
    ∃ others, ∀ changed, (frames (threads.set thread changed)).Perm (changed ++ others) := by
  obtain ⟨bound, rfl⟩ := List.getElem?_eq_some_iff.mp found
  refine ⟨frames (threads.take thread) ++ frames (threads.drop (thread + 1)), fun changed => ?_⟩
  rw [List.set_eq_take_append_cons_drop, if_pos bound, frames, List.flatten_append,
    List.flatten_cons]
  exact List.perm_append_comm_assoc ..

/-- Putting back the stack of a thread changes nothing. -/
theorem set_getElem?_self (found : threads[thread]? = some stack) :
    threads.set thread stack = threads := by
  obtain ⟨bound, rfl⟩ := List.getElem?_eq_some_iff.mp found
  exact List.set_getElem_self bound

/-- A call puts a frame on top of a stack. -/
theorem frames_call (found : threads[thread]? = some stack) :
    (frames (threads.set thread (frame :: stack))).Perm (frame :: frames threads) := by
  obtain ⟨others, changes⟩ := frames_set_perm found
  have before := changes stack
  rw [set_getElem?_self found] at before
  exact (changes (frame :: stack)).trans (before.symm.cons frame)

/-- The top frame runs and leaves other frames in its place. -/
theorem frames_resume (found : threads[thread]? = some (frame :: below)) :
    ∃ rest, (frames threads).Perm (frame :: rest) ∧
      ∀ next, (frames (threads.set thread (next ++ below))).Perm (next ++ rest) := by
  obtain ⟨others, changes⟩ := frames_set_perm found
  refine ⟨below ++ others, ?_, fun next => ?_⟩
  · have before := changes (frame :: below)
    rwa [set_getElem?_self found] at before
  · rw [← List.append_assoc]
    exact changes (next ++ below)

end Foundation

import Mathlib

/-!
# The difference of two sorted lists

The algorithm walks through both lists at once. The second list is in ascending order. If the first
one is not, an element of the second list stays in the result when a greater one comes before it.
-/

namespace Foundation

variable {α : Type*} [Ord α]

/-- The elements of the first list that the algorithm does not come across in the second one. -/
def setDifference : List α → List α → List α
  | [], _ => []
  | xs, [] => xs
  | x :: xs, y :: ys =>
    match compare x y with
    | .lt => x :: setDifference xs (y :: ys)
    | .gt => setDifference (x :: xs) ys
    | .eq => setDifference xs ys
termination_by xs ys => xs.length + ys.length

theorem sublist_setDifference (xs ys : List α) : (setDifference xs ys).Sublist xs := by
  fun_induction setDifference xs ys with
  | case1 => exact .refl _
  | case2 => exact .refl _
  | case3 _ _ _ _ _ ih => exact ih.cons_cons _
  | case4 _ _ _ _ _ ih => exact ih
  | case5 _ _ _ _ _ ih => exact ih.cons _

variable [Std.TransOrd α] [Std.LawfulEqOrd α] {x a : α} {xs ys : List α}

section

variable (ascending : ys.Pairwise fun a b => compare a b = .lt)

include ascending

/-- One element of the first list removes all that is not greater from the second one. -/
theorem setDifference_cons :
    a ∈ setDifference (x :: xs) ys ↔
      a = x ∧ a ∉ ys ∨ a ∈ setDifference xs (ys.filter fun y => compare x y = .lt) := by
  induction ys with
  | nil => cases xs <;> simp [setDifference]
  | cons y ys ih =>
    obtain ⟨first, ascending⟩ := List.pairwise_cons.mp ascending
    rw [setDifference]
    cases order : compare x y with
    | lt =>
      have all : ∀ z ∈ y :: ys, compare x z = .lt := by
        simpa [order] using fun z later => Std.TransCmp.lt_trans order (first z later)
      have new : x ∉ y :: ys := fun member => by simpa using all x member
      rw [List.filter_eq_self.mpr (by simpa using all)]
      exact List.mem_cons.trans (or_congr_left ⟨fun same => ⟨same, same ▸ new⟩, And.left⟩)
    | gt =>
      rw [List.filter_cons_of_neg (by simp [order])]
      refine (ih ascending).trans (or_congr_left (and_congr_right ?_))
      rintro rfl
      have differ : a ≠ y := fun same => by simp [same] at order
      simp [differ]
    | eq =>
      obtain rfl := Std.LawfulEqOrd.eq_of_compare order
      rw [List.filter_cons_of_neg (by simp), List.filter_eq_self.mpr (by simpa using first)]
      exact (or_iff_right fun ⟨same, new⟩ => new (same ▸ List.mem_cons_self)).symm

/-- An element of both lists stays if one that is not smaller comes before it. -/
theorem mem_setDifference :
    a ∈ setDifference xs ys ↔
      a ∈ xs ∧ (a ∈ ys → ∃ m, [m, a].Sublist xs ∧ compare m a ≠ .lt) := by
  induction xs generalizing ys with
  | nil => cases ys <;> simp [setDifference]
  | cons x xs ih =>
    rw [setDifference_cons ascending, ih (ascending.filter _), List.mem_filter, decide_eq_true_iff]
    constructor
    · rintro (⟨rfl, new⟩ | ⟨member, later⟩)
      · exact ⟨List.mem_cons_self, fun listed => absurd listed new⟩
      · refine ⟨List.mem_cons_of_mem _ member, fun listed => ?_⟩
        by_cases less : compare x a = .lt
        · obtain ⟨m, pair, order⟩ := later ⟨listed, less⟩
          exact ⟨m, pair.cons _, order⟩
        · exact ⟨x, (List.singleton_sublist.mpr member).cons_cons x, less⟩
    · rintro ⟨member, later⟩
      by_cases listed : a ∈ ys
      · obtain ⟨m, pair, order⟩ := later listed
        cases pair with
        | cons _ pair => exact .inr ⟨pair.subset (by simp), fun _ => ⟨m, pair, order⟩⟩
        | cons_cons _ last =>
          exact .inr ⟨List.singleton_sublist.mp last, fun both => absurd both.2 order⟩
      · rcases List.mem_cons.mp member with rfl | member
        · exact .inl ⟨rfl, listed⟩
        · exact .inr ⟨member, fun both => absurd both.1 listed⟩

/-- Nothing of the second list is left if every element of both comes behind smaller ones only. -/
theorem setDifference_outside_iff :
    (∀ a ∈ setDifference xs ys, a ∉ ys) ↔
      xs.Pairwise fun m a => a ∈ ys → compare m a = .lt := by
  rw [List.pairwise_iff_forall_sublist]
  constructor
  · intro outside m a pair listed
    by_contra less
    exact outside a ((mem_setDifference ascending).mpr
      ⟨pair.subset (by simp), fun _ => ⟨m, pair, less⟩⟩) listed
  · intro before a member listed
    obtain ⟨m, pair, less⟩ := ((mem_setDifference ascending).mp member).2 listed
    exact less (before pair listed)

end

end Foundation

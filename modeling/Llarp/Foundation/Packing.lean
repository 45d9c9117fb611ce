import Mathlib.Algebra.BigOperators.Group.List.Basic
import Mathlib.Algebra.Order.BigOperators.Group.List
import Mathlib.Algebra.Order.Ring.Nat

/-!
# Greedy packing

Items of different sizes are put into a bin in their order, until the next one does not fit any more.
-/

namespace Foundation

variable {α : Type*} (size : α → ℕ)

def totalSize (items : List α) : ℕ := (items.map size).sum

@[simp] theorem totalSize_nil : totalSize size [] = 0 := rfl

@[simp] theorem totalSize_cons (x : α) (xs : List α) :
    totalSize size (x :: xs) = size x + totalSize size xs :=
  List.sum_cons

variable {size}

theorem size_le_totalSize {x : α} {items : List α} (member : x ∈ items) :
    size x ≤ totalSize size items :=
  List.le_sum_of_mem (List.mem_map_of_mem member)

variable (size)

/-- A bin with some room is filled with the first items. -/
structure Filling (room : ℕ) (items bin rest : List α) : Prop where
  whole : items = bin ++ rest
  fits : totalSize size bin ≤ room
  /-- the next item does not fit -/
  full : ∀ x ∈ rest.head?, room < totalSize size bin + size x

variable {size} {room : ℕ} {x : α} {items bin rest : List α}

namespace Filling

theorem nil (room : ℕ) : Filling size room [] [] [] := ⟨rfl, Nat.zero_le _, nofun⟩

theorem of_large (large : room < size x) : Filling size room (x :: items) [] (x :: items) := by
  refine ⟨rfl, Nat.zero_le _, fun y first => ?_⟩
  obtain rfl : x = y := Option.some.inj first
  rwa [totalSize_nil, Nat.zero_add]

theorem cons (filling : Filling size (room - size x) items bin rest) (small : size x ≤ room) :
    Filling size room (x :: items) (x :: bin) rest := by
  have fits := filling.fits
  refine ⟨by rw [filling.whole, List.cons_append], ?_, fun y first => ?_⟩
  · rw [totalSize_cons]
    omega
  · have full := filling.full y first
    rw [totalSize_cons]
    omega

theorem exists_filling (size : α → ℕ) (room : ℕ) (items : List α) :
    ∃ bin rest, Filling size room items bin rest := by
  induction items generalizing room with
  | nil => exact ⟨[], [], nil room⟩
  | cons x items ih =>
    rcases lt_or_ge room (size x) with large | small
    · exact ⟨[], x :: items, of_large large⟩
    · obtain ⟨bin, rest, filling⟩ := ih (room - size x)
      exact ⟨x :: bin, rest, filling.cons small⟩

/-- The first item is in the bin exactly if it fits. -/
theorem cons_cases (filling : Filling size room (x :: items) bin rest) :
    (room < size x ∧ bin = [] ∧ rest = x :: items) ∨
      ∃ more, size x ≤ room ∧ bin = x :: more ∧ Filling size (room - size x) items more rest := by
  obtain ⟨whole, fits, full⟩ := filling
  cases bin with
  | nil =>
    rw [List.nil_append] at whole
    have large := full x (by rw [← whole]; rfl)
    rw [totalSize_nil, Nat.zero_add] at large
    exact .inl ⟨large, rfl, whole.symm⟩
  | cons y more =>
    obtain ⟨rfl, rest_eq⟩ := List.cons.inj whole
    rw [totalSize_cons] at fits full
    refine .inr ⟨more, by omega, rfl, rest_eq, by omega, fun z first => ?_⟩
    have := full z first
    omega

/-- There is only one way to fill a bin. -/
theorem unique {other behind : List α} (filling : Filling size room items bin rest)
    (same : Filling size room items other behind) : other = bin ∧ behind = rest := by
  induction items generalizing room bin other with
  | nil =>
    obtain ⟨rfl, rfl⟩ := List.append_eq_nil_iff.mp filling.whole.symm
    obtain ⟨rfl, rfl⟩ := List.append_eq_nil_iff.mp same.whole.symm
    exact ⟨rfl, rfl⟩
  | cons x items ih =>
    rcases filling.cons_cases with ⟨large, rfl, rfl⟩ | ⟨more, small, rfl, filled⟩
    · rcases same.cons_cases with ⟨-, rfl, rfl⟩ | ⟨_, small, -, -⟩
      · exact ⟨rfl, rfl⟩
      · exact absurd small (by omega)
    · rcases same.cons_cases with ⟨large, -, -⟩ | ⟨others, -, rfl, sameFilled⟩
      · exact absurd small (by omega)
      · obtain ⟨rfl, rfl⟩ := ih filled sameFilled
        exact ⟨rfl, rfl⟩

theorem length_lt (filling : Filling size room items bin rest) (some : bin ≠ []) :
    rest.length < items.length := by
  have positive := List.length_pos_iff.mpr some
  rw [filling.whole, List.length_append]
  omega

end Filling

end Foundation

import Mathlib.Data.Nat.Basic
import Mathlib.Data.Set.Basic
import Mathlib.Tactic.Linarith
import Mathlib.Tactic.Ring

/-!
# Blocks of numbers

Numbers are cut in blocks of one size, from zero on. If one size divides another, every small block
is within a large one.
-/

namespace Foundation

/-- The numbers in the block of `c`. -/
def block (size c : ℕ) : Set ℕ := {x | x / size = c / size}

/-- The least number in the block of `c`. -/
def blockStart (size c : ℕ) : ℕ := c / size * size

/-- The greatest number in the block of `c`. -/
def blockEnd (size c : ℕ) : ℕ := c / size * size + size - 1

theorem mem_block {size c x : ℕ} : x ∈ block size c ↔ x / size = c / size := Iff.rfl

theorem mem_block_self (size c : ℕ) : c ∈ block size c := rfl

section Ends

variable {size : ℕ} (positive : 0 < size) (c : ℕ)

include positive

theorem blockStart_mem_block : blockStart size c ∈ block size c :=
  Nat.mul_div_cancel _ positive

theorem blockEnd_mem_block : blockEnd size c ∈ block size c := by
  have last : (size - 1) / size = 0 := Nat.div_eq_of_lt (Nat.sub_lt positive one_pos)
  have shape : blockEnd size c = size * (c / size) + (size - 1) := by
    rw [blockEnd, Nat.add_sub_assoc positive, mul_comm]
  rw [mem_block, shape, Nat.mul_add_div positive, last, Nat.add_zero]

theorem le_blockEnd {c x : ℕ} (member : x ∈ block size c) : x ≤ blockEnd size c := by
  have split := Nat.div_add_mod' x size
  have small := Nat.mod_lt x positive
  rw [mem_block.mp member] at split
  rw [blockEnd]
  omega

end Ends

/-! ### Blocks of two sizes -/

section Sizes

variable {small factor c d x : ℕ}

/-- A small block that meets a large one is within it. -/
theorem block_subset_block (here : x ∈ block small d) (there : x ∈ block (small * factor) c) :
    block small d ⊆ block (small * factor) c := by
  intro y member
  rw [mem_block] at *
  rw [← there, ← Nat.div_div_eq_div_mul, ← Nat.div_div_eq_div_mul, member, here]

variable (positive : 0 < small) (d)

include positive

theorem blockStart_div : blockStart (small * factor) d / small = d / (small * factor) * factor := by
  rw [blockStart, mul_left_comm, Nat.mul_div_cancel_left _ positive]

theorem blockEnd_div (several : 0 < factor) :
    blockEnd (small * factor) d / small = d / (small * factor) * factor + (factor - 1) := by
  obtain ⟨more, rfl⟩ := Nat.exists_eq_add_of_lt several
  have shape : blockEnd (small * (0 + more + 1)) d =
      small * (d / (small * (0 + more + 1)) * (0 + more + 1) + more) + (small - 1) := by
    rw [blockEnd, Nat.add_sub_assoc (Nat.mul_pos positive several)]
    have last : small * (0 + more + 1) - 1 = small * more + (small - 1) := by
      rw [zero_add, Nat.mul_add_one]
      omega
    rw [last]
    ring
  rw [shape, Nat.mul_add_div positive, Nat.div_eq_of_lt (Nat.sub_lt positive one_pos)]
  omega

/-- A large block is in no small one: its ends are in different ones. -/
theorem not_blockStart_and_blockEnd (several : 1 < factor) :
    ¬(blockStart (small * factor) d ∈ block small c ∧ blockEnd (small * factor) d ∈ block small c) := by
  rintro ⟨first, last⟩
  rw [mem_block, blockStart_div d positive] at first
  rw [mem_block, blockEnd_div d positive (by omega)] at last
  omega

/-- The small block of `d` is the last one in its large block. -/
theorem blockEnd_mem_block_iff (several : 0 < factor) :
    blockEnd (small * factor) d ∈ block small d ↔ d / small % factor = factor - 1 := by
  rw [mem_block, blockEnd_div d positive several, ← Nat.div_div_eq_div_mul]
  have split := Nat.div_add_mod' (d / small) factor
  omega

end Sizes

end Foundation

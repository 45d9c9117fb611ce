import Mathlib.Data.BitVec
import Mathlib.Tactic.IntervalCases
import Mathlib.Tactic.Linarith

/-!
# 128-bit integers

`uint128_t` is a pair of 64-bit words with operators of its own. They compute what the operators on
128 bits would. In network byte order the words are swapped, and the bytes of each.
-/

namespace Llarp

@[ext]
structure UInt128 where
  upper : UInt64
  lower : UInt64
  deriving DecidableEq

namespace UInt128

def toBitVec (x : UInt128) : BitVec 128 := x.upper.toBitVec ++ x.lower.toBitVec

def ofLower (lower : UInt64) : UInt128 := ⟨0, lower⟩

def and (x b : UInt128) : UInt128 := ⟨x.upper &&& b.upper, x.lower &&& b.lower⟩

def or (x b : UInt128) : UInt128 := ⟨x.upper ||| b.upper, x.lower ||| b.lower⟩

def add (x b : UInt128) : UInt128 :=
  let lower := x.lower + b.lower
  let upper := if lower < b.lower then x.upper + 1 else x.upper
  ⟨upper + b.upper, lower⟩

def sub (x b : UInt128) : UInt128 :=
  let upper := if b.lower > x.lower then x.upper - 1 else x.upper
  ⟨upper - b.upper, x.lower - b.lower⟩

def shiftLeft (x : UInt128) (shift : UInt64) : UInt128 :=
  if shift = 0 then x
  else if shift < 64 then ⟨x.upper <<< shift ||| x.lower >>> (64 - shift), x.lower <<< shift⟩
  else if shift = 64 then ⟨x.lower, 0⟩
  else if shift < 128 then ⟨x.lower <<< (shift - 64), 0⟩
  else ⟨0, 0⟩

/-- `count_bits` of a word. -/
def countBits64 (word : UInt64) : ℕ := (List.range 64).countP word.toBitVec.getLsbD

def countBits128 (x : UInt128) : ℕ := countBits64 x.upper + countBits64 x.lower

/-- The bit that the swap of the bytes of a word puts at a place. -/
def swapIndex (i : ℕ) : ℕ := (7 - i / 8) * 8 + i % 8

/-- `big_to_host` on a little-endian machine. -/
def swap64 (word : UInt64) : UInt64 :=
  let bits := (List.range 64).map fun i => word.toBitVec.getLsbD (swapIndex i)
  ⟨(BitVec.ofBoolListLE bits).setWidth 64⟩

def ntoh128 (x : UInt128) : UInt128 := ⟨swap64 x.lower, swap64 x.upper⟩

def hton128 (x : UInt128) : UInt128 := ntoh128 x

/-! ### What the operators compute -/

theorem toNat_toBitVec (x : UInt128) :
    x.toBitVec.toNat = x.upper.toNat * 2 ^ 64 + x.lower.toNat := by
  have small : x.lower.toBitVec.toNat < 2 ^ 64 := x.lower.toBitVec.isLt
  rw [toBitVec, BitVec.toNat_append, ← Nat.shiftLeft_add_eq_or_of_lt small, Nat.shiftLeft_eq]
  rfl

theorem toBitVec_inj {x y : UInt128} : x.toBitVec = y.toBitVec ↔ x = y := by
  refine ⟨fun same => ?_, congrArg toBitVec⟩
  have nats := congrArg BitVec.toNat same
  have smallx := x.lower.toNat_lt
  have smally := y.lower.toNat_lt
  rw [toNat_toBitVec, toNat_toBitVec] at nats
  have uppers : x.upper.toNat = y.upper.toNat := by omega
  have lowers : x.lower.toNat = y.lower.toNat := by omega
  ext
  · rw [uppers]
  · rw [lowers]

@[simp] theorem toBitVec_and (x b : UInt128) : (x.and b).toBitVec = x.toBitVec &&& b.toBitVec :=
  BitVec.and_append.symm

@[simp] theorem toBitVec_or (x b : UInt128) : (x.or b).toBitVec = x.toBitVec ||| b.toBitVec :=
  BitVec.or_append.symm

@[simp] theorem toBitVec_add (x b : UInt128) : (x.add b).toBitVec = x.toBitVec + b.toBitVec := by
  apply BitVec.eq_of_toNat_eq
  rw [BitVec.toNat_add, toNat_toBitVec, toNat_toBitVec, toNat_toBitVec, add]
  simp only [UInt64.lt_iff_toNat_lt, UInt64.toNat_add]
  have := x.lower.toNat_lt
  have := b.lower.toNat_lt
  have := x.upper.toNat_lt
  have := b.upper.toNat_lt
  split_ifs
  · rw [UInt64.toNat_add, UInt64.toNat_one]
    omega
  · omega

@[simp] theorem toBitVec_sub (x b : UInt128) : (x.sub b).toBitVec = x.toBitVec - b.toBitVec := by
  apply BitVec.eq_of_toNat_eq
  rw [BitVec.toNat_sub, toNat_toBitVec, toNat_toBitVec, toNat_toBitVec, sub]
  simp only [gt_iff_lt, UInt64.lt_iff_toNat_lt, UInt64.toNat_sub]
  have := x.lower.toNat_lt
  have := b.lower.toNat_lt
  have := x.upper.toNat_lt
  have := b.upper.toNat_lt
  split_ifs
  · rw [UInt64.toNat_sub, UInt64.toNat_one]
    omega
  · omega

theorem getLsbD_toBitVec (x : UInt128) (i : ℕ) : x.toBitVec.getLsbD i =
    if i < 64 then x.lower.toBitVec.getLsbD i else x.upper.toBitVec.getLsbD (i - 64) :=
  BitVec.getLsbD_append

section Shift

variable {shift : UInt64} (small : shift.toNat < 64) (word : UInt64)

include small

theorem getLsbD_shiftLeft64 (i : ℕ) : (word <<< shift).toBitVec.getLsbD i =
    (decide (i < 64) && !decide (i < shift.toNat) && word.toBitVec.getLsbD (i - shift.toNat)) := by
  have same : (word <<< shift).toBitVec = word.toBitVec <<< shift.toNat := by
    apply BitVec.eq_of_toNat_eq
    exact (UInt64.toNat_shiftLeft word shift).trans (by rw [Nat.mod_eq_of_lt small]; rfl)
  rw [same, BitVec.getLsbD_shiftLeft]

theorem getLsbD_shiftRight64 (i : ℕ) :
    (word >>> shift).toBitVec.getLsbD i = word.toBitVec.getLsbD (shift.toNat + i) := by
  have same : (word >>> shift).toBitVec = word.toBitVec >>> shift.toNat := by
    apply BitVec.eq_of_toNat_eq
    exact (UInt64.toNat_shiftRight word shift).trans (by rw [Nat.mod_eq_of_lt small]; rfl)
  rw [same, BitVec.getLsbD_ushiftRight]

end Shift

@[simp] theorem toBitVec_shiftLeft (x : UInt128) (shift : UInt64) :
    (x.shiftLeft shift).toBitVec = x.toBitVec <<< shift.toNat := by
  apply BitVec.eq_of_getLsbD_eq
  intro i inside
  rw [BitVec.getLsbD_shiftLeft, getLsbD_toBitVec, getLsbD_toBitVec, shiftLeft]
  by_cases zero : shift = 0
  · subst zero
    simp [inside]
  rw [if_neg zero]
  have positive : 0 < shift.toNat := by
    rw [Nat.pos_iff_ne_zero]
    exact fun none => zero (UInt64.toNat_inj.mp none)
  by_cases small : shift < 64
  · have less : shift.toNat < 64 := UInt64.lt_iff_toNat_lt.mp small
    have rest : (64 - shift).toNat = 64 - shift.toNat :=
      UInt64.toNat_sub_of_le _ _ (UInt64.le_iff_toNat_le.mpr less.le)
    have restSmall : (64 - shift).toNat < 64 := by omega
    rw [if_pos small]
    simp only [UInt64.toBitVec_or, BitVec.getLsbD_or, getLsbD_shiftLeft64 less,
      getLsbD_shiftRight64 restSmall, rest]
    by_cases low : i < 64
    · simp [low, inside, show i - shift.toNat < 64 by omega]
    · by_cases moved : i - 64 < shift.toNat
      · -- the bits that leave the lower word
        have place : 64 - shift.toNat + (i - 64) = i - shift.toNat := by omega
        simp [low, inside, moved, place, show i - shift.toNat < 64 by omega,
          show ¬i < shift.toNat by omega]
      · have place : 64 - shift.toNat + (i - 64) = i - shift.toNat := by omega
        have none : x.lower.toBitVec.getLsbD (i - shift.toNat) = false :=
          BitVec.getLsbD_of_ge _ _ (by omega)
        simp [low, inside, moved, place, none, show ¬i - shift.toNat < 64 by omega,
          show ¬i < shift.toNat by omega, show i - 64 < 64 by omega, Nat.sub_right_comm i 64]
  rw [if_neg small]
  have large : 64 ≤ shift.toNat := not_lt.mp fun less => small (UInt64.lt_iff_toNat_lt.mpr less)
  have empty : (0 : UInt64).toBitVec.getLsbD i = false := BitVec.getLsbD_zero
  by_cases middle : shift = 64
  · subst middle
    rw [if_pos rfl]
    show (if i < 64 then (0 : UInt64).toBitVec.getLsbD i else x.lower.toBitVec.getLsbD (i - 64)) =
      (decide (i < 128) && !decide (i < 64) && if i - 64 < 64 then _ else _)
    by_cases low : i < 64
    · simp [low]
    · simp [low, inside, show i - 64 < 64 by omega]
  rw [if_neg middle]
  by_cases below : shift < 128
  · have less : shift.toNat < 128 := UInt64.lt_iff_toNat_lt.mp below
    have rest : (shift - 64).toNat = shift.toNat - 64 :=
      UInt64.toNat_sub_of_le _ _ (UInt64.le_iff_toNat_le.mpr large)
    rw [if_pos below]
    simp only [getLsbD_shiftLeft64 (by omega : (shift - 64).toNat < 64), rest, empty]
    by_cases low : i < 64
    · simp [low, show i < shift.toNat by omega]
    · have place : i - 64 - (shift.toNat - 64) = i - shift.toNat := by omega
      simp [low, inside, place, show i - 64 < 64 by omega, show i - shift.toNat < 64 by omega,
        show i - 64 < shift.toNat - 64 ↔ i < shift.toNat by omega]
  · have more : 128 ≤ shift.toNat := not_lt.mp fun less => below (UInt64.lt_iff_toNat_lt.mpr less)
    rw [if_neg below]
    simp [show i < shift.toNat by omega]

/-! ### Byte order -/

theorem swapIndex_lt {i : ℕ} (inside : i < 64) : swapIndex i < 64 := by
  rw [swapIndex]
  omega

theorem swapIndex_swapIndex {i : ℕ} (inside : i < 64) : swapIndex (swapIndex i) = i := by
  rw [swapIndex, swapIndex]
  omega

theorem getLsbD_swap64 (word : UInt64) {i : ℕ} (inside : i < 64) :
    (swap64 word).toBitVec.getLsbD i = word.toBitVec.getLsbD (swapIndex i) := by
  rw [swap64, BitVec.getLsbD_setWidth, BitVec.getLsbD_ofBoolListLE,
    List.getD_eq_getElem?_getD]
  simp [inside]

@[simp] theorem swap64_swap64 (word : UInt64) : swap64 (swap64 word) = word := by
  apply UInt64.toBitVec_inj.mp
  apply BitVec.eq_of_getLsbD_eq
  intro i inside
  rw [getLsbD_swap64 _ inside, getLsbD_swap64 _ (swapIndex_lt inside), swapIndex_swapIndex inside]

theorem swap64_and (a b : UInt64) : swap64 (a &&& b) = swap64 a &&& swap64 b := by
  apply UInt64.toBitVec_inj.mp
  apply BitVec.eq_of_getLsbD_eq
  intro i inside
  rw [UInt64.toBitVec_and, BitVec.getLsbD_and, getLsbD_swap64 _ inside, getLsbD_swap64 _ inside,
    getLsbD_swap64 _ inside, UInt64.toBitVec_and, BitVec.getLsbD_and]

theorem countBits64_swap64 (word : UInt64) : countBits64 (swap64 word) = countBits64 word := by
  have perm : ((List.range 64).map swapIndex).Perm (List.range 64) := by decide
  rw [countBits64, countBits64, ← perm.countP_eq word.toBitVec.getLsbD, List.countP_map]
  refine List.countP_congr fun i member => ?_
  rw [getLsbD_swap64 word (List.mem_range.mp member), Function.comp]

@[simp] theorem ntoh128_ntoh128 (x : UInt128) : x.ntoh128.ntoh128 = x := by
  ext
  · simp [ntoh128]
  · simp [ntoh128]

@[simp] theorem ntoh128_hton128 (x : UInt128) : x.hton128.ntoh128 = x := ntoh128_ntoh128 x

theorem ntoh128_inj {x y : UInt128} : x.ntoh128 = y.ntoh128 ↔ x = y :=
  Function.Injective.eq_iff (Function.LeftInverse.injective ntoh128_ntoh128)

@[simp] theorem ntoh128_and (x b : UInt128) : (x.and b).ntoh128 = x.ntoh128.and b.ntoh128 := by
  simp only [ntoh128, and, swap64_and]

@[simp] theorem countBits128_ntoh128 (x : UInt128) : x.ntoh128.countBits128 = x.countBits128 := by
  rw [countBits128, countBits128, ntoh128, countBits64_swap64, countBits64_swap64, Nat.add_comm]

/-- The words are counted as the bits of the number. -/
theorem countBits128_eq (x : UInt128) :
    x.countBits128 = (List.range 128).countP x.toBitVec.getLsbD := by
  have halves : List.range 128 = List.range 64 ++ (List.range 64).map (64 + ·) :=
    rfl
  rw [halves, List.countP_append, List.countP_map, countBits128, Nat.add_comm]
  congr 1
  · refine List.countP_congr fun i member => ?_
    rw [getLsbD_toBitVec, if_pos (List.mem_range.mp member)]
  · refine List.countP_congr fun i member => ?_
    rw [Function.comp, getLsbD_toBitVec, if_neg (by omega), Nat.add_sub_cancel_left]

end UInt128

end Llarp

import Llarp.Foundation.Bytes

/-!
# Bit sets of fixed size

A bit set of `n` bits whose checked accesses fail outside the set, as those of a
C++ `std::bitset` throw. The functions return `none` where the original throws.
-/

namespace Foundation.Bitset

variable {n : ℕ}

/-- Set one bit. -/
def set (bits : BitVec n) (i : ℕ) : Option (BitVec n) :=
  if i < n then some (bits ||| BitVec.twoPow n i) else none

/-- Read one bit. -/
def test (bits : BitVec n) (i : ℕ) : Option Bool :=
  if i < n then some (bits.getLsbD i) else none

/-- Read bits in order until one of them is not set. -/
def testEach (bits : BitVec n) : List ℕ → Option Bool
  | [] => some true
  | i :: is => (test bits i).bind fun bit => if bit then testEach bits is else some false

variable {bits bits' : BitVec n} {i j : ℕ} {is : List ℕ}

theorem set_isSome : (set bits i).isSome ↔ i < n := by
  unfold set
  split <;> simp_all

/-- Setting a bit turns on that bit and no other. -/
theorem getLsbD_of_set (h : set bits i = some bits') :
    bits'.getLsbD j = (bits.getLsbD j || decide (i = j)) := by
  unfold set at h
  split at h
  · cases h
    rw [BitVec.getLsbD_or, BitVec.getLsbD_twoPow]
    simp_all
  · simp at h

theorem testEach_eq_some_true :
    testEach bits is = some true ↔ ∀ i ∈ is, bits.getLsbD i = true := by
  induction is with
  | nil => simp [testEach]
  | cons i is ih =>
    rw [testEach, test, List.forall_mem_cons]
    split
    · cases hbit : bits.getLsbD i with
      | true => simpa [hbit] using ih
      | false => simp
    · have : bits.getLsbD i = false := BitVec.getLsbD_of_ge bits i (by omega)
      simp [this]

/-- A scan of the first `k` bits stays inside the set exactly when the set has
`k` bits, or one of its bits is not set and stops the scan. -/
theorem testEach_range'_isSome (start k : ℕ) (hstart : start ≤ n) :
    (testEach bits (List.range' start k)).isSome ↔
      start + k ≤ n ∨ ∃ i, start ≤ i ∧ i < n ∧ bits.getLsbD i = false := by
  induction k generalizing start with
  | zero => simp [testEach, hstart]
  | succ k ih =>
    rw [List.range'_succ, testEach, test]
    split_ifs with inside
    · cases hbit : bits.getLsbD start with
      | false =>
        simp only [Option.bind_some, Bool.false_eq_true, if_false, Option.isSome_some, true_iff]
        exact Or.inr ⟨start, le_refl _, inside, hbit⟩
      | true =>
        simp only [Option.bind_some, if_true]
        rw [ih (start + 1) inside, show start + 1 + k = start + (k + 1) by omega]
        refine or_congr_right ⟨?_, ?_⟩
        · rintro ⟨i, hi, rest⟩
          exact ⟨i, by omega, rest⟩
        · rintro ⟨i, hi, hn, hclear⟩
          refine ⟨i, ?_, hn, hclear⟩
          rcases Nat.lt_or_eq_of_le hi with above | rfl
          · exact above
          · rw [hbit] at hclear
            cases hclear
    · simp only [Option.bind_none, Option.isSome_none, Bool.false_eq_true, false_iff, not_or,
        not_exists]
      exact ⟨by omega, fun i => by omega⟩

theorem testEach_range_isSome (k : ℕ) :
    (testEach bits (List.range k)).isSome ↔ k ≤ n ∨ ∃ i < n, bits.getLsbD i = false := by
  rw [List.range_eq_range', testEach_range'_isSome 0 k (Nat.zero_le n)]
  simp

end Foundation.Bitset

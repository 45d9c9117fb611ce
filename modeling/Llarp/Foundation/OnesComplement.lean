import Llarp.Foundation.Bytes

/-!
# Sums in ones' complement

Words of 16 bits are added with end-around carry: what is carried out at the high end is added at
the low end. So sums count modulo `2 ^ 16 - 1`, where zero has two representations, and a sum is
the zero word only if all words are zero. Exchanging the two bytes of a word is multiplication by
`2 ^ 8`, so that it does not matter in which order the bytes of words are read when a sum is
compared with the word whose bits are all ones.
-/

namespace Foundation

open List

/-! ### Words in network order -/

/-- Addition with end-around carry. -/
def onesAdd (a b : ℕ) : ℕ := (a + b) % 2 ^ 16 + (a + b) / 2 ^ 16

def onesSum (words : List ℕ) : ℕ := words.foldl onesAdd 0

/-- The words of a text in network order. A single byte at the end is the high byte of a word. -/
def networkWords : List UInt8 → List ℕ
  | [] => []
  | [a] => [2 ^ 8 * a.toNat]
  | a :: b :: rest => (2 ^ 8 * a.toNat + b.toNat) :: networkWords rest

variable (value : UInt16) (bytes : List UInt8)

/-- The words of the text, a checksum among them, add up to the word with all bits set. -/
def Verifies : Prop := onesSum (networkWords bytes) = 0xFFFF

instance (bytes : List UInt8) : Decidable (Verifies bytes) := inferInstanceAs (Decidable (_ = _))

/-! ### Representatives -/

/-- The word that represents a number: zero only for zero. -/
def residue (n : ℕ) : ℕ := if n = 0 then 0 else (n - 1) % 65535 + 1

theorem residue_modEq (n : ℕ) : residue n ≡ n [MOD 65535] := by
  rw [residue, Nat.ModEq]
  split_ifs with zero
  · rw [zero]
  · omega

theorem residue_le (n : ℕ) : residue n ≤ 65535 := by
  rw [residue]
  split_ifs
  · exact Nat.zero_le _
  · omega

theorem residue_eq_zero_iff {n : ℕ} : residue n = 0 ↔ n = 0 := by
  rw [residue]
  split_ifs with zero
  · simp [zero]
  · simp [zero]

theorem residue_eq_ones_iff {n : ℕ} : residue n = 65535 ↔ n ≡ 0 [MOD 65535] ∧ n ≠ 0 := by
  rw [residue, Nat.ModEq]
  split_ifs with zero
  · simp [zero]
  · omega

/-- A word is the representative of what it is congruent to, if both or none are zero. -/
theorem eq_residue {v n : ℕ} (le : v ≤ 65535) (same : v ≡ n [MOD 65535]) (zero : v = 0 ↔ n = 0) :
    v = residue n := by
  rw [residue]
  rw [Nat.ModEq] at same
  split_ifs with none
  · exact zero.mpr none
  · omega

theorem onesAdd_residue (n w : ℕ) (le : w ≤ 65535) : onesAdd (residue n) w = residue (n + w) := by
  have bound := residue_le n
  have same := residue_modEq n
  have zero := @residue_eq_zero_iff n
  rw [Nat.ModEq] at same
  apply eq_residue
  · rw [onesAdd]
    omega
  · rw [onesAdd, Nat.ModEq]
    omega
  · rw [onesAdd]
    omega

theorem onesSum_eq_residue {words : List ℕ} (le : ∀ w ∈ words, w ≤ 65535) :
    onesSum words = residue words.sum := by
  suffices ∀ n, words.foldl onesAdd (residue n) = residue (n + words.sum) by
    simpa [onesSum, residue] using this 0
  induction words with
  | nil => exact fun n => rfl
  | cons w words ih =>
    intro n
    rw [forall_mem_cons] at le
    rw [foldl_cons, onesAdd_residue n w le.1, ih le.2, sum_cons, Nat.add_assoc]

/-! ### Words in the order of a little-endian machine -/

/-- The sum of the words of a text, as a little-endian machine reads them. -/
def wordSum : List UInt8 → ℕ
  | [] => 0
  | [a] => a.toNat
  | a :: b :: rest => a.toNat + 2 ^ 8 * b.toNat + wordSum rest

theorem networkWords_le : ∀ w ∈ networkWords bytes, w ≤ 65535 := by
  induction bytes using networkWords.induct with
  | case1 => exact nofun
  | case2 a =>
    have bound := a.toNat_lt
    simp [networkWords]
    omega
  | case3 a b rest ih =>
    have bounds := And.intro a.toNat_lt b.toNat_lt
    rw [networkWords, forall_mem_cons]
    exact ⟨by omega, ih⟩

theorem sum_networkWords :
    (networkWords bytes).sum ≡ 2 ^ 8 * wordSum bytes [MOD 65535] ∧
      ((networkWords bytes).sum = 0 ↔ wordSum bytes = 0) := by
  induction bytes using networkWords.induct with
  | case1 => exact ⟨rfl, Iff.rfl⟩
  | case2 a => simp [networkWords, wordSum, Nat.ModEq]
  | case3 a b rest ih =>
    obtain ⟨same, zero⟩ := ih
    rw [networkWords, wordSum, sum_cons]
    rw [Nat.ModEq] at same ⊢
    omega

/-- It does not matter in which order the bytes are read. -/
theorem verifies_iff {bytes : List UInt8} :
    Verifies bytes ↔ wordSum bytes ≡ 0 [MOD 65535] ∧ wordSum bytes ≠ 0 := by
  obtain ⟨same, zero⟩ := sum_networkWords bytes
  rw [Verifies, onesSum_eq_residue (networkWords_le bytes), residue_eq_ones_iff, Ne, zero]
  refine and_congr_left fun _ => ?_
  rw [Nat.ModEq] at same ⊢
  rw [Nat.ModEq]
  omega

theorem wordSum_append {front : List UInt8} (even : 2 ∣ front.length) (back : List UInt8) :
    wordSum (front ++ back) = wordSum front + wordSum back := by
  induction front using wordSum.induct with
  | case1 => simp [wordSum]
  | case2 a => simp at even
  | case3 a b rest ih =>
    have tail : 2 ∣ rest.length := by
      rw [length_cons, length_cons] at even
      omega
    rw [cons_append, cons_append, wordSum, wordSum, ih tail]
    omega

theorem wordSum_le : 2 * wordSum bytes ≤ 65535 * (bytes.length + 1) := by
  induction bytes using wordSum.induct with
  | case1 => simp [wordSum]
  | case2 a =>
    have bound := a.toNat_lt
    simp [wordSum]
    omega
  | case3 a b rest ih =>
    have bounds := And.intro a.toNat_lt b.toNat_lt
    rw [wordSum, length_cons, length_cons]
    omega

theorem wordSum_ne_zero {bytes : List UInt8} (first : bytes.getD 0 0 ≠ 0) : wordSum bytes ≠ 0 := by
  induction bytes using wordSum.induct with
  | case1 => exact absurd rfl first
  | case2 a => simpa [wordSum, ← UInt8.toNat_inj] using first
  | case3 a b rest =>
    have positive : a.toNat ≠ 0 := by simpa [← UInt8.toNat_inj] using first
    rw [wordSum]
    omega

/-- Overwriting words of a text changes its sum by as much as the words differ. -/
theorem wordSum_splice {dst src : List UInt8} {offset : ℕ}
    (fits : offset + src.length ≤ dst.length) (at_word : 2 ∣ offset) (even : 2 ∣ src.length) :
    wordSum (splice dst offset src) + wordSum (window dst offset src.length) =
      wordSum dst + wordSum src := by
  have front : 2 ∣ (dst.take offset).length := by
    rw [length_take, Nat.min_eq_left (by omega)]
    exact at_word
  have middle : 2 ∣ (window dst offset src.length).length := by rwa [length_window fits]
  have parts : dst = dst.take offset ++
      (window dst offset src.length ++ dst.drop (offset + src.length)) := by
    rw [window, ← drop_drop, take_append_drop, take_append_drop]
  have sum : wordSum dst = wordSum (dst.take offset) +
      (wordSum (window dst offset src.length) + wordSum (dst.drop (offset + src.length))) := by
    conv_lhs => rw [parts, wordSum_append front, wordSum_append middle]
  rw [splice, append_assoc, wordSum_append front, wordSum_append even, sum]
  omega

/-! ### Words in memory -/

/-- Read a number as a little-endian machine does. -/
def ofLittleEndian : ℕ :=
  bytes.foldr (fun byte rest => byte.toNat + 2 ^ 8 * rest) 0

def hostLoad16 : UInt16 := UInt16.ofNat (ofLittleEndian (bytes.take 2))

def hostLoad32 : UInt32 := UInt32.ofNat (ofLittleEndian (bytes.take 4))

def hostStore16 : List UInt8 :=
  [UInt8.ofNat value.toNat, UInt8.ofNat (value.toNat / 2 ^ 8)]

@[simp] theorem length_hostStore16 : (hostStore16 value).length = 2 := rfl

theorem wordSum_hostStore16 : wordSum (hostStore16 value) = value.toNat := by
  have bound := value.toNat_lt
  simp only [hostStore16, wordSum, UInt8.toNat_ofNat']
  omega

theorem toNat_hostLoad16 {bytes : List UInt8} (two : bytes.length = 2) :
    (hostLoad16 bytes).toNat = wordSum bytes := by
  obtain ⟨a, b, rfl⟩ := length_eq_two.mp two
  have bounds := And.intro a.toNat_lt b.toNat_lt
  simp only [hostLoad16, take, ofLittleEndian, foldr, wordSum, UInt16.toNat_ofNat']
  omega

theorem hostLoad16_hostStore16 : hostLoad16 (hostStore16 value) = value := by
  rw [← UInt16.toNat_inj, toNat_hostLoad16 rfl, wordSum_hostStore16]

theorem hostStore16_hostLoad16 {bytes : List UInt8} (two : bytes.length = 2) :
    hostStore16 (hostLoad16 bytes) = bytes := by
  have same := toNat_hostLoad16 two
  obtain ⟨a, b, rfl⟩ := length_eq_two.mp two
  have bounds := And.intro a.toNat_lt b.toNat_lt
  simp only [wordSum] at same
  have low : UInt8.ofNat (hostLoad16 [a, b]).toNat = a := by
    rw [← UInt8.toNat_inj, UInt8.toNat_ofNat', same]
    omega
  have high : UInt8.ofNat ((hostLoad16 [a, b]).toNat / 2 ^ 8) = b := by
    rw [← UInt8.toNat_inj, UInt8.toNat_ofNat', same]
    omega
  rw [hostStore16, low, high]

/-! ### Folding carries -/

theorem toNat_lowWord (x : UInt32) : (x &&& (0xFFFF : UInt32)).toNat = x.toNat % 2 ^ 16 := by
  exact Nat.and_two_pow_sub_one_eq_mod x.toNat 16

theorem toNat_highWord (x : UInt32) : (x >>> (16 : UInt32)).toNat = x.toNat / 2 ^ 16 := by
  exact Nat.shiftRight_eq_div_pow x.toNat 16

/-- The low word of a number plus its high word. -/
def addWords (x : UInt32) : UInt32 := (x &&& (0xFFFF : UInt32)) + (x >>> (16 : UInt32))

theorem toNat_addWords (x : UInt32) :
    (addWords x).toNat = x.toNat % 2 ^ 16 + x.toNat / 2 ^ 16 := by
  have bound := x.toNat_lt
  rw [addWords, UInt32.toNat_add, toNat_lowWord, toNat_highWord]
  omega

/-- The words of a number in memory. -/
theorem toNat_addWords_hostLoad32 {bytes : List UInt8} (four : bytes.length = 4) :
    (addWords (hostLoad32 bytes)).toNat = wordSum bytes := by
  obtain ⟨a, b, c, d, rfl⟩ := length_eq_four.mp four
  have bounds := And.intro a.toNat_lt (And.intro b.toNat_lt (And.intro c.toNat_lt d.toNat_lt))
  have value : (hostLoad32 [a, b, c, d]).toNat =
      a.toNat + 2 ^ 8 * b.toNat + 2 ^ 16 * (c.toNat + 2 ^ 8 * d.toNat) := by
    simp only [hostLoad32, take, ofLittleEndian, foldr, UInt32.toNat_ofNat']
    omega
  simp only [toNat_addWords, value, wordSum]
  omega

/-- The words of the complement of a number. -/
theorem toNat_addWords_not (x : UInt32) :
    (addWords (~~~x)).toNat + (addWords x).toNat = 131070 := by
  have bound := x.toNat_lt
  have complement : (~~~x).toNat = 2 ^ 32 - 1 - x.toNat := UInt32.toNat_not x
  rw [toNat_addWords, toNat_addWords, complement]
  omega

/-- Carries are added at the low end, twice. -/
def foldCarries (sum : UInt32) : UInt32 := addWords sum + (addWords sum >>> (16 : UInt32))

/-- Two times is enough. -/
theorem foldCarries_mod (sum : UInt32) :
    (foldCarries sum).toNat % 2 ^ 16 = residue sum.toNat := by
  have bound := sum.toNat_lt
  have once := toNat_addWords sum
  have twice : (foldCarries sum).toNat =
      (addWords sum).toNat + (addWords sum).toNat / 2 ^ 16 := by
    rw [foldCarries, UInt32.toNat_add, toNat_highWord, once]
    omega
  generalize (addWords sum).toNat = t at once twice
  have same : t ≡ sum.toNat [MOD 65535] := by
    rw [once, Nat.ModEq]
    omega
  have zero : t = 0 ↔ sum.toNat = 0 := by omega
  have small : t ≤ 131070 := by omega
  -- the carry of the second fold is one or none
  have low : (t + t / 2 ^ 16) % 2 ^ 16 = if t < 2 ^ 16 then t else t - 65535 := by
    split_ifs
    · omega
    · omega
  rw [twice, low]
  rw [Nat.ModEq] at same
  split_ifs
  · exact eq_residue (by omega) same zero
  · refine eq_residue (by omega) ?_ (by omega)
    rw [Nat.ModEq]
    omega

end Foundation

import Llarp.Net.IPRange

/-!
# The addresses of a range

The netmask of a range is a number of ones and then zeros. A range contains the addresses from the
first one with its leading bits to the last one.
-/

namespace Llarp.IPRange

/-- `count_bits_128`. -/
def countBits (bits : BitVec 128) : ℕ := (List.range 128).countP bits.getLsbD

def contains (range : IPRange) (ip : BitVec 128) : Bool :=
  range.addr &&& range.netmaskBits = ip &&& range.netmaskBits

def highestAddr (range : IPRange) : BitVec 128 :=
  (range.addr &&& range.netmaskBits) + (1#128 <<< (128 - countBits range.netmaskBits)) - 1#128

def v4MappedRange : IPRange := ⟨0xffff00000000#128, netmaskIPv6Bits 96⟩

def isV4 (range : IPRange) : Bool := v4MappedRange.contains range.addr

theorem countBits_netmaskIPv6Bits {bits : ℕ} (small : bits ≤ 128) :
    countBits (netmaskIPv6Bits bits) = bits := by
  have all : ∀ bits : Fin 129, countBits (netmaskIPv6Bits bits) = bits := by decide +kernel
  exact all ⟨bits, by omega⟩

/-- The leading bits of an address. -/
theorem toNat_and_netmaskIPv6Bits (ip : BitVec 128) (bits : ℕ) :
    (ip &&& netmaskIPv6Bits bits).toNat = ip.toNat / 2 ^ (128 - bits) * 2 ^ (128 - bits) := by
  have shifts : ip &&& netmaskIPv6Bits bits = (ip >>> (128 - bits)) <<< (128 - bits) := by
    ext i inside
    rw [netmaskIPv6Bits, BitVec.getElem_and, BitVec.getElem_shiftLeft, BitVec.getElem_shiftLeft]
    by_cases low : i < 128 - bits
    · simp [low]
    · simp only [low, BitVec.getElem_allOnes, Bool.and_true,
        BitVec.getElem_ushiftRight, Nat.add_sub_cancel' (not_lt.mp low),
        BitVec.getLsbD_eq_getElem inside, Bool.not_false, Bool.true_and, decide_false]
  have fits : ip.toNat / 2 ^ (128 - bits) * 2 ^ (128 - bits) < 2 ^ 128 :=
    lt_of_le_of_lt (Nat.div_mul_le_self ..) ip.isLt
  rw [shifts, BitVec.toNat_shiftLeft, BitVec.toNat_ushiftRight, Nat.shiftRight_eq_div_pow,
    Nat.shiftLeft_eq, Nat.mod_eq_of_lt fits]

section Prefix

variable {range : IPRange} {bits : ℕ} (small : bits ≤ 128)
  (mask : range.netmaskBits = netmaskIPv6Bits bits)

include small mask

theorem toNat_highestAddr :
    range.highestAddr.toNat =
      range.addr.toNat / 2 ^ (128 - bits) * 2 ^ (128 - bits) + 2 ^ (128 - bits) - 1 := by
  have positive : 0 < 2 ^ (128 - bits) := Nat.two_pow_pos _
  -- the block of the addresses with these leading bits ends within the address space
  have fits : range.addr.toNat / 2 ^ (128 - bits) * 2 ^ (128 - bits) + 2 ^ (128 - bits) ≤
      2 ^ 128 := by
    have whole : 2 ^ bits * 2 ^ (128 - bits) = 2 ^ 128 := by
      rw [← pow_add, Nat.add_sub_cancel' small]
    have below : range.addr.toNat / 2 ^ (128 - bits) < 2 ^ bits := by
      rw [Nat.div_lt_iff_lt_mul positive, whole]
      exact range.addr.isLt
    rw [← Nat.succ_mul, ← whole]
    exact Nat.mul_le_mul_right _ below
  rw [highestAddr, mask, countBits_netmaskIPv6Bits small, BitVec.toNat_sub, BitVec.toNat_add,
    toNat_and_netmaskIPv6Bits, BitVec.toNat_shiftLeft, Nat.shiftLeft_eq]
  simp only [BitVec.toNat_ofNat, Nat.one_mod_two_pow_eq_one.mpr (by decide : 0 < 128), one_mul]
  generalize range.addr.toNat / 2 ^ (128 - bits) * 2 ^ (128 - bits) = base at *
  generalize 2 ^ (128 - bits) = size at *
  omega

/-- The addresses from that of the range to the highest one are in the range. -/
theorem contains_of_le {ip : BitVec 128} (above : range.addr ≤ ip)
    (below : ip ≤ range.highestAddr) : range.contains ip = true := by
  have positive : 0 < 2 ^ (128 - bits) := Nat.two_pow_pos _
  rw [BitVec.le_def] at above below
  rw [toNat_highestAddr small mask] at below
  rw [contains, decide_eq_true_iff, mask]
  apply BitVec.eq_of_toNat_eq
  rw [toNat_and_netmaskIPv6Bits, toNat_and_netmaskIPv6Bits]
  congr 1
  refine le_antisymm (Nat.div_le_div_right above) ?_
  rw [← Nat.lt_succ_iff, Nat.div_lt_iff_lt_mul positive, Nat.succ_mul]
  omega

theorem addr_le_highestAddr : range.addr ≤ range.highestAddr := by
  rw [BitVec.le_def, toNat_highestAddr small mask]
  have rest := Nat.mod_lt range.addr.toNat (Nat.two_pow_pos (128 - bits))
  have split := Nat.div_add_mod' range.addr.toNat (2 ^ (128 - bits))
  omega

end Prefix

end Llarp.IPRange

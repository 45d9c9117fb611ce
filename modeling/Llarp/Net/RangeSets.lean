import Llarp.Foundation.Blocks
import Llarp.Net.Ranges
import Llarp.Net.UInt128

/-!
# Ranges as sets of addresses

A range with a prefix netmask stands for the addresses that have its leading bits: a block of
addresses, in host byte order. Whether a range contains another one is decided by two addresses of
the latter, the one that it is given by and the highest one. The former may have any host bits, so
it need not be the first one of the block.
-/

namespace Llarp

open Foundation UInt128

/-- `IPRange` in memory, in network byte order. -/
structure StoredRange where
  addr : UInt128
  netmaskBits : UInt128
  deriving DecidableEq

namespace StoredRange

/-- `_netmask_ipv6_bits`: all bits from this one on. -/
def netmaskFrom (numset : ℕ) : UInt128 :=
  if 128 - numset ≠ 0 then ((UInt128.ofLower 1).shiftLeft numset.toUInt64).or (netmaskFrom (numset + 1))
  else .ofLower 0
termination_by 128 - numset

def netmaskIPv6Bits (bits : ℕ) : UInt128 := (netmaskFrom (128 - bits)).hton128

/-- `ipaddr_ipv4_bits` in host byte order. -/
def ipaddrIPv4Bits (a b c d : UInt32) : UInt32 := d ||| c <<< 8 ||| b <<< 16 ||| a <<< 24

def expandV4 (ip : UInt32) : UInt128 :=
  ((UInt128.ofLower 0xffff00000000).or (.ofLower ip.toUInt64)).hton128

def fromIPv4 (a b c d mask : UInt8) : StoredRange :=
  ⟨expandV4 (ipaddrIPv4Bits a.toUInt32 b.toUInt32 c.toUInt32 d.toUInt32),
    netmaskIPv6Bits (mask.toNat + 96)⟩

variable (range : StoredRange) (ip : UInt128)

def contains : Bool :=
  range.addr.and range.netmaskBits = ip.and range.netmaskBits

def highestAddr : UInt128 :=
  let size := (UInt128.ofLower 1).shiftLeft (128 - range.netmaskBits.countBits128).toUInt64
  (((range.addr.and range.netmaskBits).ntoh128.add size).sub (.ofLower 1)).hton128

def containsRange (range other : StoredRange) : Bool :=
  range.contains other.addr && range.contains other.highestAddr

/-- `operator*`. -/
def intersects (range other : StoredRange) : Bool :=
  range.containsRange other || other.containsRange range

def findPrivateRange (excluding : List StoredRange) : Option StoredRange :=
  let good := fun range => excluding.all fun ex => !ex.intersects range
  let first := ((List.range' 16 16).map fun oct => fromIPv4 172 oct.toUInt8 0 1 16).find? good
  let second := ((List.range 256).map fun oct => fromIPv4 10 oct.toUInt8 0 1 16).find? good
  let third := ((List.range 256).map fun oct => fromIPv4 192 168 oct.toUInt8 1 24).find? good
  first.or (second.or third)

/-! ### Host byte order -/

def hostAddr : BitVec 128 := ip.ntoh128.toBitVec

def host : IPRange := ⟨hostAddr range.addr, hostAddr range.netmaskBits⟩

theorem hostAddr_hton128 (x : UInt128) : hostAddr x.hton128 = x.toBitVec := by
  rw [hostAddr, ntoh128_hton128]

/-- Every number of 128 bits is an address. -/
theorem exists_hostAddr {n : ℕ} (small : n < 2 ^ 128) : ∃ ip, (hostAddr ip).toNat = n := by
  refine ⟨hton128 ⟨.ofNat (n / 2 ^ 64), .ofNat (n % 2 ^ 64)⟩, ?_⟩
  rw [hostAddr_hton128, toNat_toBitVec, UInt64.toNat_ofNat', UInt64.toNat_ofNat']
  omega

theorem contains_eq : range.contains ip = range.host.contains (hostAddr ip) := by
  simp only [contains, IPRange.contains, host, hostAddr, ← toBitVec_and,
    ← ntoh128_and, toBitVec_inj, ntoh128_inj]

theorem hostAddr_highestAddr : hostAddr range.highestAddr = range.host.highestAddr := by
  have count : range.netmaskBits.countBits128 = IPRange.countBits (hostAddr range.netmaskBits) := by
    rw [← countBits128_ntoh128, countBits128_eq]
    rfl
  have shift : (128 - range.netmaskBits.countBits128).toUInt64.toNat =
      128 - range.netmaskBits.countBits128 := by
    rw [Nat.toUInt64, UInt64.toNat_ofNat']
    omega
  rw [highestAddr, hostAddr_hton128, toBitVec_sub, toBitVec_add,
    toBitVec_shiftLeft, shift, ntoh128_and, toBitVec_and, count]
  rfl

theorem toBitVec_netmaskFrom {numset : ℕ} (small : numset ≤ 128) :
    (netmaskFrom numset).toBitVec = BitVec.allOnes 128 <<< numset := by
  obtain ⟨rest, isRest⟩ : ∃ rest, rest + numset = 128 := ⟨128 - numset, by omega⟩
  induction rest generalizing numset with
  | zero =>
    obtain rfl : numset = 128 := by omega
    rw [netmaskFrom]
    rfl
  | succ rest ih =>
    have shift : numset.toUInt64.toNat = numset := by
      rw [Nat.toUInt64, UInt64.toNat_ofNat']
      omega
    have one : (ofLower 1).toBitVec = 1#128 := rfl
    rw [netmaskFrom, if_pos (by omega), toBitVec_or, toBitVec_shiftLeft, one,
      ih (by omega) (by omega)]
    apply BitVec.eq_of_getLsbD_eq
    intro i inside
    rw [Bool.eq_iff_iff]
    simp only [BitVec.getLsbD_or, BitVec.getLsbD_shiftLeft, BitVec.getLsbD_one,
      BitVec.getLsbD_allOnes, Bool.and_eq_true, Bool.or_eq_true, Bool.not_eq_true',
      decide_eq_true_eq, decide_eq_false_iff_not]
    omega

theorem hostAddr_netmaskIPv6Bits (bits : ℕ) :
    hostAddr (netmaskIPv6Bits bits) = IPRange.netmaskIPv6Bits bits := by
  rw [netmaskIPv6Bits, hostAddr_hton128, toBitVec_netmaskFrom (Nat.sub_le ..)]
  rfl

end StoredRange

/-- A range whose netmask is a number of ones and then zeros. -/
structure PrefixRange extends StoredRange where
  bits : ℕ
  bits_le : bits ≤ 128
  mask_eq : netmaskBits = StoredRange.netmaskIPv6Bits bits

namespace PrefixRange

open StoredRange

variable (range : PrefixRange)

/-- The number of addresses. -/
def size : ℕ := 2 ^ (128 - range.bits)

/-- The given address as a number. -/
def base : ℕ := (hostAddr range.addr).toNat

/-- The addresses with the leading bits of the given one. -/
def addresses : Set UInt128 := {ip | (hostAddr ip).toNat ∈ block range.size range.base}

theorem mem_addresses {range : PrefixRange} {ip : UInt128} :
    ip ∈ range.addresses ↔ (hostAddr ip).toNat ∈ block range.size range.base := Iff.rfl

theorem addr_mem_addresses : range.addr ∈ range.addresses := mem_block_self ..

theorem size_pos : 0 < range.size := Nat.two_pow_pos _

theorem host_mask : range.host.netmaskBits = IPRange.netmaskIPv6Bits range.bits := by
  rw [host, range.mask_eq, hostAddr_netmaskIPv6Bits]

theorem contains_iff (ip : UInt128) : range.contains ip = true ↔ ip ∈ range.addresses := by
  have positive := range.size_pos
  rw [contains_eq, IPRange.contains, decide_eq_true_iff, host_mask, ← BitVec.toNat_inj,
    IPRange.toNat_and_netmaskIPv6Bits, IPRange.toNat_and_netmaskIPv6Bits]
  exact (Nat.mul_left_inj positive.ne').trans eq_comm

theorem toNat_highestAddr :
    (hostAddr range.highestAddr).toNat = blockEnd range.size range.base := by
  rw [hostAddr_highestAddr, IPRange.toNat_highestAddr range.bits_le range.host_mask]
  rfl

theorem highestAddr_mem_addresses : range.highestAddr ∈ range.addresses := by
  rw [mem_addresses, toNat_highestAddr]
  exact blockEnd_mem_block range.size_pos range.base

theorem exists_blockStart :
    ∃ ip ∈ range.addresses, (hostAddr ip).toNat = blockStart range.size range.base := by
  have small : blockStart range.size range.base < 2 ^ 128 :=
    lt_of_le_of_lt (Nat.div_mul_le_self ..) (hostAddr range.addr).isLt
  obtain ⟨ip, isFirst⟩ := exists_hostAddr small
  refine ⟨ip, ?_, isFirst⟩
  rw [mem_addresses, isFirst]
  exact blockStart_mem_block range.size_pos range.base

/-! ### Two ranges -/

section Two

variable (a b : PrefixRange)

/-- The range `b` is larger than `a`, and its given address is in `a` and in the last part of `b` that
has the size of `a`: the bits that only `a` fixes are all ones. -/
def Misleading : Prop :=
  b.bits < a.bits ∧ b.addr ∈ a.addresses ∧
    b.base / a.size % 2 ^ (a.bits - b.bits) = 2 ^ (a.bits - b.bits) - 1

variable {a b}

theorem size_eq (longer : a.bits ≤ b.bits) : a.size = b.size * 2 ^ (b.bits - a.bits) := by
  have small := b.bits_le
  rw [size, size, ← pow_add]
  congr 1
  omega

theorem containsRange_iff : a.containsRange b.toStoredRange = true ↔
    b.addr ∈ a.addresses ∧ b.highestAddr ∈ a.addresses := by
  rw [containsRange, Bool.and_eq_true, contains_iff, contains_iff]

/-- A range that is not smaller contains another one if they meet. -/
theorem addresses_subset (longer : a.bits ≤ b.bits) {ip : UInt128} (here : ip ∈ b.addresses)
    (there : ip ∈ a.addresses) : b.addresses ⊆ a.addresses := by
  intro other member
  rw [mem_addresses, size_eq longer] at there ⊢
  exact block_subset_block here there member

theorem containsRange_of_le (longer : a.bits ≤ b.bits) {ip : UInt128} (here : ip ∈ b.addresses)
    (there : ip ∈ a.addresses) : a.containsRange b.toStoredRange = true :=
  have within := addresses_subset longer here there
  containsRange_iff.mpr ⟨within b.addr_mem_addresses, within b.highestAddr_mem_addresses⟩

/-- A larger range is not contained, for its first and its last address are not. -/
theorem not_addresses_subset (shorter : b.bits < a.bits) : ¬b.addresses ⊆ a.addresses := by
  intro within
  obtain ⟨ip, member, isFirst⟩ := b.exists_blockStart
  have first := within member
  have last := within b.highestAddr_mem_addresses
  rw [mem_addresses, isFirst, size_eq shorter.le] at first
  rw [mem_addresses, toNat_highestAddr, size_eq shorter.le] at last
  have several : 1 < 2 ^ (a.bits - b.bits) := Nat.one_lt_two_pow (by omega)
  exact not_blockStart_and_blockEnd b.base a.size_pos several ⟨first, last⟩

theorem containsRange_iff_of_lt (shorter : b.bits < a.bits) :
    a.containsRange b.toStoredRange = true ↔ a.Misleading b := by
  rw [containsRange_iff, Misleading, and_iff_right shorter]
  refine and_congr_right fun given => ?_
  -- `a` is the block of the given address
  have same : block a.size a.base = block a.size b.base := by
    ext x
    have equal : b.base / a.size = a.base / a.size := given
    rw [mem_block, mem_block, equal]
  rw [mem_addresses, toNat_highestAddr, same, size_eq shorter.le]
  exact blockEnd_mem_block_iff b.base a.size_pos (Nat.two_pow_pos _)

theorem containsRange_iff_subset_iff :
    (a.containsRange b.toStoredRange = true ↔ b.addresses ⊆ a.addresses) ↔ ¬a.Misleading b := by
  rcases le_or_gt a.bits b.bits with longer | shorter
  · refine iff_of_true ⟨fun contained => ?_, fun within => ?_⟩ fun wrong => ?_
    · exact addresses_subset longer b.addr_mem_addresses (containsRange_iff.mp contained).1
    · exact containsRange_of_le longer b.addr_mem_addresses (within b.addr_mem_addresses)
    · exact absurd wrong.1 (Nat.not_lt.mpr longer)
  · rw [containsRange_iff_of_lt shorter, iff_false_right (not_addresses_subset shorter)]

theorem intersects_iff : a.intersects b.toStoredRange = true ↔
    (a.addresses ∩ b.addresses).Nonempty := by
  rw [intersects, Bool.or_eq_true]
  constructor
  · rintro (contained | contained)
    · exact ⟨b.addr, (containsRange_iff.mp contained).1, b.addr_mem_addresses⟩
    · exact ⟨a.addr, a.addr_mem_addresses, (containsRange_iff.mp contained).1⟩
  · rintro ⟨ip, here, there⟩
    rcases le_total a.bits b.bits with longer | longer
    · exact .inl (containsRange_of_le longer there here)
    · exact .inr (containsRange_of_le longer here there)

end Two

theorem le_highestAddr {ip : UInt128} (member : ip ∈ range.addresses) :
    (hostAddr ip).toNat ≤ (hostAddr range.highestAddr).toNat := by
  rw [toNat_highestAddr]
  exact le_blockEnd range.size_pos member

/-! ### Private ranges -/

def ofIPv4 (a b c d mask : UInt8) (small : mask.toNat ≤ 32) : PrefixRange where
  toStoredRange := fromIPv4 a b c d mask
  bits := mask.toNat + 96
  bits_le := by omega
  mask_eq := rfl

/-- The candidates of all three loops. -/
def privateRanges : List StoredRange :=
  (List.range' 16 16).map (fun oct => fromIPv4 172 oct.toUInt8 0 1 16) ++
  (List.range 256).map (fun oct => fromIPv4 10 oct.toUInt8 0 1 16) ++
  (List.range 256).map fun oct => fromIPv4 192 168 oct.toUInt8 1 24

theorem findPrivateRange_eq (excluding : List StoredRange) : findPrivateRange excluding =
    privateRanges.find? fun range => excluding.all fun ex => !ex.intersects range := by
  rw [privateRanges, List.find?_append, List.find?_append, Option.or_assoc]
  rfl

theorem exists_of_findPrivateRange {excluding : List StoredRange} {found : StoredRange}
    (isFound : findPrivateRange excluding = some found) :
    ∃ range : PrefixRange, range.toStoredRange = found ∧
      ∀ ex ∈ excluding, ex.intersects found = false := by
  have ranged : ∀ range ∈ privateRanges, ∃ p : PrefixRange, p.toStoredRange = range := by
    simp only [privateRanges, List.mem_append, List.mem_map]
    rintro range ((⟨oct, -, rfl⟩ | ⟨oct, -, rfl⟩) | ⟨oct, -, rfl⟩)
    · exact ⟨ofIPv4 172 oct.toUInt8 0 1 16 (by decide), rfl⟩
    · exact ⟨ofIPv4 10 oct.toUInt8 0 1 16 (by decide), rfl⟩
    · exact ⟨ofIPv4 192 168 oct.toUInt8 1 24 (by decide), rfl⟩
  rw [findPrivateRange_eq] at isFound
  obtain ⟨range, isRange⟩ := ranged found (List.mem_of_find?_eq_some isFound)
  have good := List.find?_some isFound
  refine ⟨range, isRange, fun ex member => ?_⟩
  simpa using List.all_eq_true.mp good ex member

/-- What the operations say about ranges is what is true of their addresses. -/
structure AsSets (a b : PrefixRange) : Prop where
  contains : a.containsRange b.toStoredRange = true ↔ b.addresses ⊆ a.addresses
  intersects : a.intersects b.toStoredRange = true ↔ (a.addresses ∩ b.addresses).Nonempty
  highest : a.highestAddr ∈ a.addresses ∧
    ∀ ip ∈ a.addresses, (hostAddr ip).toNat ≤ (hostAddr a.highestAddr).toNat
  free : ∀ (excluding : List PrefixRange) (found : StoredRange),
    findPrivateRange (excluding.map (·.toStoredRange)) = some found →
      ∃ range : PrefixRange, range.toStoredRange = found ∧
        ∀ ex ∈ excluding, Disjoint range.addresses ex.addresses

theorem asSets_iff (a b : PrefixRange) : AsSets a b ↔ ¬a.Misleading b := by
  refine ⟨fun sets => containsRange_iff_subset_iff.mp sets.contains, fun right => ?_⟩
  refine ⟨containsRange_iff_subset_iff.mpr right, intersects_iff,
    ⟨a.highestAddr_mem_addresses, fun ip => a.le_highestAddr⟩, ?_⟩
  intro excluding found isFound
  obtain ⟨range, rfl, apart⟩ := exists_of_findPrivateRange isFound
  refine ⟨range, rfl, fun ex member => ?_⟩
  have separate := apart ex.toStoredRange (List.mem_map_of_mem member)
  rw [Set.disjoint_iff_inter_eq_empty, Set.inter_comm, ← Set.not_nonempty_iff_eq_empty,
    ← intersects_iff, separate]
  exact Bool.false_ne_true

/-- `10.255.255.0/24` says that it contains all of `10.0.0.0/8`, if that is given by its last
address. -/
theorem contains_larger_range :
    ¬AsSets (ofIPv4 10 255 255 0 24 (by decide)) (ofIPv4 10 255 255 255 8 (by decide)) := by
  intro sets
  have wrong : Misleading (ofIPv4 10 255 255 0 24 (by decide))
      (ofIPv4 10 255 255 255 8 (by decide)) := by
    refine ⟨by decide, ?_, ?_⟩
    · rw [mem_addresses, mem_block]
      decide +kernel
    · decide +kernel
  exact containsRange_iff_subset_iff.mp sets.contains wrong

end PrefixRange

end Llarp

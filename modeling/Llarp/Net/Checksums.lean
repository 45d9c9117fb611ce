import Llarp.Net.IPPacket

/-!
# Checksums under new addresses

A checksum that covers addresses is adjusted by the difference of the old and the new ones, so that
the sum of all words stays the same modulo `2 ^ 16 - 1`. What the checksum of a transport protocol
covers is a pseudo header with the addresses, and as much of the segment as the protocol says.
-/

namespace Llarp

open Foundation

namespace IPPacket

/-! ### Adjusted checksums -/

/-- The checksum changes by as much as the sums of the covered addresses, and does not become
zero. -/
structure Adjusts (delta : UInt16 → UInt16) (old new : ℕ) : Prop where
  sum : ∀ check, (delta check).toNat + new ≡ check.toNat + old [MOD 65535]
  zero : ∀ check, delta check = 0 → check = 0

/-- The folded sum of a checksum, what is covered of old addresses and the complement of what is
covered of new ones. -/
theorem adjusts_of_sum {delta : UInt16 → UInt16} {sum : UInt16 → UInt32} {old new : ℕ} (limit : ℕ)
    (folds : ∀ check, delta check = (foldCarries (sum check) &&& (0xFFFF : UInt32)).toUInt16)
    (sums : ∀ check, (sum check).toNat + new = check.toNat + old + 65535 * limit)
    (le : new ≤ 65535 * limit) : Adjusts delta old new := by
  have word (check : UInt16) : (delta check).toNat = residue (sum check).toNat := by
    rw [folds, UInt32.toNat_toUInt16, toNat_lowWord, foldCarries_mod, Nat.mod_eq_of_lt]
    exact Nat.lt_succ_of_le (residue_le _)
  constructor
  · intro check
    have same := residue_modEq (sum check).toNat
    have total := sums check
    rw [word]
    rw [Nat.ModEq] at same ⊢
    omega
  · intro check vanishes
    rw [← UInt16.toNat_inj, word, UInt16.toNat_zero, residue_eq_zero_iff] at vanishes
    have total := sums check
    rw [← UInt16.toNat_inj, UInt16.toNat_zero]
    omega

theorem toNat_add32cs_n (addr : IPv4Addr) :
    (add32cs (hostLoad32 addr.bytes)).toNat = wordSum addr.bytes :=
  toNat_addWords_hostLoad32 addr.length_eq

theorem toNat_sub32cs (x : UInt32) : (sub32cs x).toNat + (add32cs x).toNat = 131070 :=
  toNat_addWords_not x

theorem deltaIPv4Checksum_adjusts (oldSrcIP oldDstIP newSrcIP newDstIP : IPv4Addr) :
    Adjusts (deltaIPv4Checksum oldSrcIP oldDstIP newSrcIP newDstIP)
      (wordSum oldSrcIP.bytes + wordSum oldDstIP.bytes)
      (wordSum newSrcIP.bytes + wordSum newDstIP.bytes) := by
  have words := toNat_add32cs_n
  have complement (addr : IPv4Addr) :
      (sub32cs (hostLoad32 addr.bytes)).toNat + wordSum addr.bytes = 131070 := by
    rw [← words addr]
    exact toNat_sub32cs _
  have newSrc := complement newSrcIP
  have newDst := complement newDstIP
  refine adjusts_of_sum 4 (fun check => rfl) (fun check => ?_) (by omega)
  have check_lt := check.toNat_lt
  have oldSrc := complement oldSrcIP
  have oldDst := complement oldDstIP
  simp only [UInt32.toNat_add, UInt16.toNat_toUInt32, words]
  omega

theorem toNat_addn128cs_in6Uint32 (addr : IPv6Addr) :
    (addn128cs (in6Uint32 addr)).toNat = wordSum addr.bytes := by
  have part (i : ℕ) (inside : i < 4) :
      (add32cs (in6Uint32 addr i)).toNat = wordSum (window addr.bytes (4 * i) 4) := by
    have four : (window addr.bytes (4 * i) 4).length = 4 :=
      length_window (by rw [addr.length_eq]; omega)
    rw [← toNat_addWords_hostLoad32 four, window, in6Uint32, add32cs, hostLoad32, hostLoad32,
      List.take_take, Nat.min_self]
  have parts : addr.bytes = window addr.bytes 0 4 ++ (window addr.bytes 4 4 ++
      (window addr.bytes 8 4 ++ window addr.bytes 12 4)) := by
    obtain ⟨bytes, length⟩ := addr
    simp only [window, List.drop_zero]
    rw [List.take_of_length_le (show (bytes.drop 12).length ≤ 4 by simp [length]),
      show bytes.drop 12 = (bytes.drop 8).drop 4 by rw [List.drop_drop], List.take_append_drop,
      show bytes.drop 8 = (bytes.drop 4).drop 4 by rw [List.drop_drop], List.take_append_drop,
      List.take_append_drop]
  have even (i : ℕ) (inside : 4 * i + 4 ≤ 16) : 2 ∣ (window addr.bytes (4 * i) 4).length := by
    rw [length_window (by rwa [addr.length_eq])]
    decide
  have bound (i : ℕ) (inside : i < 4) : (add32cs (in6Uint32 addr i)).toNat ≤ 131070 := by
    rw [← toNat_sub32cs (in6Uint32 addr i)]
    exact Nat.le_add_left _ _
  have sum : wordSum addr.bytes = wordSum (window addr.bytes 0 4) + (wordSum (window addr.bytes 4 4) +
      (wordSum (window addr.bytes 8 4) + wordSum (window addr.bytes 12 4))) := by
    conv_lhs => rw [parts, wordSum_append (even 0 (by decide)), wordSum_append (even 1 (by decide)),
      wordSum_append (even 2 (by decide))]
  have bounds := And.intro (And.intro (bound 0 (by decide)) (bound 1 (by decide)))
    (And.intro (bound 2 (by decide)) (bound 3 (by decide)))
  rw [sum, ← part 0 (by decide), ← part 1 (by decide), ← part 2 (by decide), ← part 3 (by decide),
    addn128cs, UInt32.toNat_add, UInt32.toNat_add, UInt32.toNat_add]
  omega

theorem toNat_subn128cs (x : ℕ → UInt32) :
    (subn128cs x).toNat + (addn128cs x).toNat = 524280 := by
  have zero := toNat_sub32cs (x 0)
  have one := toNat_sub32cs (x 1)
  have two := toNat_sub32cs (x 2)
  have three := toNat_sub32cs (x 3)
  simp only [subn128cs, addn128cs, UInt32.toNat_add]
  omega

theorem deltaIPv6Checksum_adjusts (oldSrcIP oldDstIP newSrcIP newDstIP : IPv6Addr) :
    Adjusts (deltaIPv6Checksum oldSrcIP oldDstIP newSrcIP newDstIP)
      (wordSum oldSrcIP.bytes + wordSum oldDstIP.bytes)
      (wordSum newSrcIP.bytes + wordSum newDstIP.bytes) := by
  have words := toNat_addn128cs_in6Uint32
  have complement (addr : IPv6Addr) :
      (subn128cs (in6Uint32 addr)).toNat + wordSum addr.bytes = 524280 := by
    rw [← words addr]
    exact toNat_subn128cs _
  have newSrc := complement newSrcIP
  have newDst := complement newDstIP
  refine adjusts_of_sum 16 (fun check => rfl) (fun check => ?_) (by omega)
  have check_lt := check.toNat_lt
  have oldSrc := complement oldSrcIP
  have oldDst := complement oldDstIP
  simp only [UInt32.toNat_add, UInt16.toNat_toUInt32, words]
  omega

/-! ### Fields -/

def fieldAt (bytes : List UInt8) (offset : ℕ) : UInt16 := hostLoad16 (window bytes offset 2)

def rewriteField (f : UInt16 → UInt16) (bytes : List UInt8) (offset : ℕ) : List UInt8 :=
  splice bytes offset (hostStore16 (f (fieldAt bytes offset)))

section Field

variable {f : UInt16 → UInt16} {bytes : List UInt8} {offset : ℕ}

section

variable (fits : offset + 2 ≤ bytes.length)

include fits

theorem length_rewriteField : (rewriteField f bytes offset).length = bytes.length :=
  length_splice fits

theorem fieldAt_rewriteField :
    fieldAt (rewriteField f bytes offset) offset = f (fieldAt bytes offset) := by
  have written : window (rewriteField f bytes offset) offset 2 =
      hostStore16 (f (fieldAt bytes offset)) := window_splice_self fits
  rw [fieldAt, written, hostLoad16_hostStore16]

theorem window_rewriteField_of_disjoint {start count : ℕ}
    (apart : start + count ≤ offset ∨ offset + 2 ≤ start) :
    window (rewriteField f bytes offset) start count = window bytes start count :=
  window_splice_of_disjoint fits apart

theorem rewriteField_eq_self (same : f (fieldAt bytes offset) = fieldAt bytes offset) :
    rewriteField f bytes offset = bytes := by
  refine splice_eq_self fits ?_
  rw [same, length_hostStore16, fieldAt, hostStore16_hostLoad16 (length_window fits), window]

theorem wordSum_rewriteField (at_word : 2 ∣ offset) :
    wordSum (rewriteField f bytes offset) + (fieldAt bytes offset).toNat =
      wordSum bytes + (f (fieldAt bytes offset)).toNat := by
  have spliced : wordSum (rewriteField f bytes offset) + wordSum (window bytes offset 2) =
      wordSum bytes + wordSum (hostStore16 (f (fieldAt bytes offset))) :=
    wordSum_splice fits at_word ⟨1, rfl⟩
  rwa [wordSum_hostStore16, ← toNat_hostLoad16 (length_window fits)] at spliced

end

theorem fieldAt_take {count : ℕ} (fits : offset + 2 ≤ count) (le : count ≤ bytes.length) :
    fieldAt (bytes.take count) offset = fieldAt bytes offset := by
  have inside : offset + 2 ≤ (bytes.take count).length := by rwa [List.length_take_of_le le]
  rw [fieldAt, fieldAt, ← window_append_left inside, List.take_append_drop]

theorem take_rewriteField {count : ℕ} (fits : offset + 2 ≤ count) (le : count ≤ bytes.length) :
    (rewriteField f bytes offset).take count = rewriteField f (bytes.take count) offset := by
  rw [rewriteField, rewriteField, take_splice fits le, fieldAt_take fits le]

end Field

/-! ### Segments -/

variable (proto : UInt8) (segment : List UInt8)

/-- The protocols whose checksums are adjusted: TCP, UDP, UDP-Lite and DCCP. -/
def HasChecksum : Prop := proto = 6 ∨ proto = 17 ∨ proto = 136 ∨ proto = 33

instance (proto : UInt8) : Decidable (HasChecksum proto) := inferInstanceAs (Decidable (_ ∨ _))

/-- The checksum zero stands for no checksum. -/
def IsUDP : Prop := proto = 17 ∨ proto = 136

instance (proto : UInt8) : Decidable (IsUDP proto) := inferInstanceAs (Decidable (_ ∨ _))

/-- Where the checksum is in a segment. -/
def checksumOffset : ℕ := if proto = 6 then 16 else 6

/-- How the checksum of a segment changes. -/
def checksumWord (delta : UInt16 → UInt16) (proto : UInt8) (check : UInt16) : UInt16 :=
  if IsUDP proto then if check = 0 then 0 else delta check
  else if delta check = 0xFFFF then 0 else delta check

/-- How many bytes of a segment its checksum covers. The lengths in UDP and UDP-Lite headers, and
the data offset and coverage in DCCP headers, are in the two bytes before the checksum. -/
def coverage : ℕ :=
  let length := ofBigEndian (window segment 4 2)
  if proto = 17 then length
  else if proto = 136 then if length = 0 then segment.length else length
  else if proto = 33 then
    if length % 16 = 0 then segment.length else 4 * (length / 2 ^ 8) + 4 * (length % 16 - 1)
  else segment.length

/-- The length in the pseudo header. -/
def pseudoLength : ℕ :=
  if proto = 17 then coverage proto segment else segment.length

/-- The checksum of a segment is right: it covers itself, and it adds up together with a pseudo
header. It is not zero for UDP, except for packets without a checksum where these are allowed. -/
structure SegmentVerifies (pseudo : ℕ → List UInt8) (optional : Bool) (proto : UInt8)
    (segment : List UInt8) : Prop where
  covers : checksumOffset proto + 2 ≤ coverage proto segment
  within : coverage proto segment ≤ segment.length
  sum : optional = true ∧ proto = 17 ∧ fieldAt segment (checksumOffset proto) = 0 ∨
    (IsUDP proto → fieldAt segment (checksumOffset proto) ≠ 0) ∧
      Verifies (pseudo (pseudoLength proto segment) ++ segment.take (coverage proto segment))

section Segment

variable {delta : UInt16 → UInt16} {proto : UInt8} {old new : ℕ} {segment : List UInt8}

theorem checksumWord_eq_zero_iff (adjusts : Adjusts delta old new) (udp : IsUDP proto)
    {check : UInt16} : checksumWord delta proto check = 0 ↔ check = 0 := by
  rw [checksumWord]
  split_ifs with zero
  · simp [zero]
  · exact ⟨adjusts.zero check, fun same => absurd same zero⟩

theorem checksumWord_sum (adjusts : Adjusts delta old new) {check : UInt16}
    (counts : IsUDP proto → check ≠ 0) :
    (checksumWord delta proto check).toNat + new ≡ check.toNat + old [MOD 65535] := by
  have sum := adjusts.sum check
  rw [checksumWord]
  split_ifs with udp zero ones
  · exact absurd zero (counts udp)
  · exact sum
  · -- both words represent zero
    rw [ones] at sum
    refine Nat.ModEq.trans ?_ sum
    have all : (0xFFFF : UInt16).toNat = 65535 := rfl
    rw [Nat.ModEq, all, UInt16.toNat_zero, Nat.zero_add, Nat.add_mod_left]
  · exact sum

theorem even_checksumOffset (proto : UInt8) : 2 ∣ checksumOffset proto := by
  rw [checksumOffset]
  split_ifs
  · decide
  · decide

theorem six_le_checksumOffset (proto : UInt8) : 6 ≤ checksumOffset proto := by
  rw [checksumOffset]
  split_ifs
  · decide
  · decide

/-- What the checksum covers is not changed with it. -/
theorem coverage_rewriteField {f : UInt16 → UInt16} {offset : ℕ} (beyond : 6 ≤ offset)
    (fits : offset + 2 ≤ segment.length) :
    coverage proto (rewriteField f segment offset) = coverage proto segment := by
  rw [coverage, coverage, window_rewriteField_of_disjoint fits (.inl beyond),
    length_rewriteField fits]

theorem pseudoLength_rewriteField {f : UInt16 → UInt16} {offset : ℕ} (beyond : 6 ≤ offset)
    (fits : offset + 2 ≤ segment.length) :
    pseudoLength proto (rewriteField f segment offset) = pseudoLength proto segment := by
  rw [pseudoLength, pseudoLength, coverage_rewriteField beyond fits, length_rewriteField fits]

/-! ### Pseudo headers -/

/-- The addresses, and then what does not depend on them. -/
def pseudoHeader {size : ℕ} (src dst : AlignedBuffer size) (tail : ℕ → List UInt8) (length : ℕ) :
    List UInt8 :=
  src.bytes ++ (dst.bytes ++ tail length)

variable {size : ℕ} {src dst newSrc newDst : AlignedBuffer size} {tail : ℕ → List UInt8}

theorem wordSum_pseudoHeader (even : 2 ∣ size) (length : ℕ) :
    wordSum (pseudoHeader src dst tail length) =
      wordSum src.bytes + wordSum dst.bytes + wordSum (tail length) := by
  have evenSrc : 2 ∣ src.bytes.length := by rwa [src.length_eq]
  have evenDst : 2 ∣ dst.bytes.length := by rwa [dst.length_eq]
  rw [pseudoHeader, wordSum_append evenSrc, wordSum_append evenDst, Nat.add_assoc]

/-- What the checksum of a segment verifies. -/
theorem verifies_pseudoHeader_iff (even : 2 ∣ size) (evenTail : ∀ n, 2 ∣ (tail n).length)
    (positive : ∀ n, wordSum (tail n) ≠ 0) {length : ℕ} {covered : List UInt8} :
    Verifies (pseudoHeader src dst tail length ++ covered) ↔
      wordSum src.bytes + wordSum dst.bytes + wordSum (tail length) + wordSum covered ≡ 0
        [MOD 65535] := by
  have evenHeader : 2 ∣ (pseudoHeader src dst tail length).length := by
    rw [pseudoHeader, List.length_append, List.length_append, src.length_eq, dst.length_eq]
    exact dvd_add even (dvd_add even (evenTail length))
  rw [verifies_iff, wordSum_append evenHeader, wordSum_pseudoHeader even]
  refine and_iff_left ?_
  have some := positive length
  omega

/-- A segment whose checksum has been adjusted verifies with the new addresses. -/
theorem SegmentVerifies.rewriteField (even : 2 ∣ size) (evenTail : ∀ n, 2 ∣ (tail n).length)
    (positive : ∀ n, wordSum (tail n) ≠ 0)
    (adjusts : Adjusts delta (wordSum src.bytes + wordSum dst.bytes)
      (wordSum newSrc.bytes + wordSum newDst.bytes))
    {optional : Bool} (verifies : SegmentVerifies (pseudoHeader src dst tail) optional proto segment) :
    SegmentVerifies (pseudoHeader newSrc newDst tail) optional proto
      (IPPacket.rewriteField (checksumWord delta proto) segment (checksumOffset proto)) := by
  obtain ⟨covers, within, sum⟩ := verifies
  have fits : checksumOffset proto + 2 ≤ segment.length := covers.trans within
  have beyond := six_le_checksumOffset proto
  have fitsCovered : checksumOffset proto + 2 ≤ (segment.take (coverage proto segment)).length := by
    rwa [List.length_take_of_le within]
  refine ⟨?_, ?_, ?_⟩
  · rwa [coverage_rewriteField beyond fits]
  · rwa [coverage_rewriteField beyond fits, length_rewriteField fits]
  · rw [coverage_rewriteField beyond fits, pseudoLength_rewriteField beyond fits,
      fieldAt_rewriteField fits, take_rewriteField covers within,
      verifies_pseudoHeader_iff even evenTail positive]
    rcases sum with ⟨allowed, rfl, none⟩ | ⟨counts, sum⟩
    · exact .inl ⟨allowed, rfl, (checksumWord_eq_zero_iff adjusts (.inl rfl)).mpr none⟩
    · refine .inr ⟨fun udp vanishes =>
        counts udp ((checksumWord_eq_zero_iff adjusts udp).mp vanishes), ?_⟩
      rw [verifies_pseudoHeader_iff even evenTail positive] at sum
      -- the checksum makes up for the difference of the addresses
      have word := checksumWord_sum adjusts counts
      have changed := wordSum_rewriteField (f := checksumWord delta proto) fitsCovered
        (even_checksumOffset proto)
      rw [fieldAt_take covers within] at changed
      rw [Nat.ModEq] at sum word ⊢
      omega

/-- A segment with its checksum as it was verifies with the new addresses if these have the same
sum. -/
theorem SegmentVerifies.unchanged_iff (even : 2 ∣ size) (evenTail : ∀ n, 2 ∣ (tail n).length)
    (positive : ∀ n, wordSum (tail n) ≠ 0)
    (verifies : SegmentVerifies (pseudoHeader src dst tail) false proto segment) :
    SegmentVerifies (pseudoHeader newSrc newDst tail) false proto segment ↔
      wordSum newSrc.bytes + wordSum newDst.bytes ≡ wordSum src.bytes + wordSum dst.bytes
        [MOD 65535] := by
  obtain ⟨covers, within, ⟨allowed, -, -⟩ | ⟨counts, sum⟩⟩ := verifies
  · cases allowed
  · rw [verifies_pseudoHeader_iff even evenTail positive, Nat.ModEq] at sum
    constructor
    · rintro ⟨-, -, ⟨allowed, -, -⟩ | ⟨-, newSum⟩⟩
      · cases allowed
      · rw [verifies_pseudoHeader_iff even evenTail positive, Nat.ModEq] at newSum
        rw [Nat.ModEq]
        omega
    · intro same
      refine ⟨covers, within, .inr ⟨counts, ?_⟩⟩
      rw [verifies_pseudoHeader_iff even evenTail positive]
      rw [Nat.ModEq] at same ⊢
      omega

theorem checksumWord_ne_ones (other : ¬IsUDP proto) (check : UInt16) :
    checksumWord delta proto check ≠ 0xFFFF := by
  rw [checksumWord]
  split_ifs with ones
  · decide
  · exact ones

/-- The words that are not changed. -/
theorem checksumWord_eq_self_iff (adjusts : Adjusts delta old new) (other : ¬IsUDP proto)
    {check : UInt16} :
    checksumWord delta proto check = check ↔ new ≡ old [MOD 65535] ∧ check ≠ 0xFFFF := by
  have counts : IsUDP proto → check ≠ 0 := fun udp => absurd udp other
  have sum := checksumWord_sum adjusts counts
  have ones : checksumWord delta proto check ≠ 0xFFFF := checksumWord_ne_ones other check
  constructor
  · intro same
    rw [same] at sum ones
    exact ⟨Nat.ModEq.add_left_cancel' _ sum, ones⟩
  · rintro ⟨same, different⟩
    have congruent : (checksumWord delta proto check).toNat ≡ check.toNat [MOD 65535] :=
      Nat.ModEq.add_right_cancel same sum
    -- both are below the modulus
    have below {word : UInt16} (ne : word ≠ 0xFFFF) : word.toNat < 65535 := by
      have le : word.toNat < 65536 := word.toNat_lt
      have apart : word.toNat ≠ 65535 := fun all => ne (UInt16.toNat_inj.mp all)
      omega
    rw [← UInt16.toNat_inj]
    exact Nat.ModEq.eq_of_lt_of_lt congruent (below ones) (below different)

end Segment

end IPPacket

end Llarp

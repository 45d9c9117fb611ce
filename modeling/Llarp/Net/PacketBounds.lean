import Llarp.Net.ExtensionHeaders
import Llarp.Net.ICMP

/-!
# Accesses to packets

Where the functions that read the headers of a packet leave its memory. The ports are checked for
one byte and have two, the loop along the extension headers reads a header before it checks that
there is room for it, and the message about an unreachable destination quotes eight bytes behind the
header, whether they are there or not.
-/

namespace Llarp

open Foundation

namespace IPPacket

/-! ### Sequences of accesses -/

/-- A computation comes to an end with a result of this kind. -/
abbrev Ends {α : Type} (result : Access α) (post : α → Prop) : Prop :=
  ∃ value, result = .ok value ∧ post value

/-- Memory outside of the packet is accessed exactly under a condition. -/
def FaultsIff {α : Type} (result : Access α) (condition : Prop) : Prop :=
  result = .error .outOfBounds ↔ condition

section Faults

variable {α β : Type} {condition : Prop}

theorem faultsIff_ok (value : α) (never : ¬condition) : FaultsIff (.ok value) condition :=
  ⟨nofun, fun holds => absurd holds never⟩

theorem faultsIff_rejected (never : ¬condition) :
    FaultsIff (.error .rejected : Access α) condition :=
  ⟨nofun, fun holds => absurd holds never⟩

theorem faultsIff_outOfBounds (always : condition) :
    FaultsIff (.error .outOfBounds : Access α) condition :=
  ⟨fun _ => always, fun _ => rfl⟩

/-- After a step that comes to an end, the rest decides. -/
theorem FaultsIff.bind {first : Access α} {rest : α → Access β} (post : α → Prop)
    (ends : Ends first post)
    (faults : ∀ value, post value → FaultsIff (rest value) condition) :
    FaultsIff (first >>= rest) condition := by
  obtain ⟨value, rfl, holds⟩ := ends
  exact faults value holds

end Faults

/-! ### Steps that come to an end -/

section Steps

variable {pkt : IPPacket}

/-- A write inside of the packet changes nothing else. -/
theorem exists_write {offset : ℕ} {bytes : List UInt8} (inside : offset + bytes.length ≤ pkt.size) :
    ∃ new, pkt.write offset bytes = .ok new ∧ new.size = pkt.size ∧
      ∀ i, i < offset ∨ offset + bytes.length ≤ i → new.buf[i]? = pkt.buf[i]? := by
  refine ⟨_, write_eq inside, length_splice inside, fun i outside => ?_⟩
  exact (getElem?_splice inside i).trans (if_neg (by omega))

theorem exists_write_size {size offset : ℕ} {bytes : List UInt8} (sized : pkt.size = size)
    (inside : offset + bytes.length ≤ size) :
    ∃ new, pkt.write offset bytes = .ok new ∧ new.size = size := by
  obtain ⟨new, written, same, -⟩ := exists_write (sized ▸ inside)
  exact ⟨new, written, same.trans sized⟩

theorem FaultsIff.write {α : Type} {condition : Prop} {size offset : ℕ} {bytes : List UInt8}
    {rest : IPPacket → Access α} (sized : pkt.size = size) (inside : offset + bytes.length ≤ size)
    (faults : ∀ new : IPPacket, new.size = size → FaultsIff (rest new) condition) :
    FaultsIff (pkt.write offset bytes >>= rest) condition :=
  .bind (·.size = size) (exists_write_size sized inside) faults

theorem exists_read {offset count : ℕ} (inside : offset + count ≤ pkt.size) :
    ∃ bytes, pkt.read offset count = .ok bytes ∧ bytes.length = count :=
  ⟨_, read_eq inside, length_window inside⟩

/-- What is done about the transport protocol stays inside of the payload. -/
theorem exists_deltaChecksum (delta : UInt16 → UInt16) (proto : UInt8) {pld psz : ℕ} (fragoff : ℕ)
    (inside : pld + psz ≤ pkt.size) :
    ∃ new, deltaChecksum delta proto pkt pld psz fragoff = .ok new ∧ new.size = pkt.size := by
  by_cases known : HasChecksum proto
  · refine ⟨_, deltaChecksum_eq known inside, length_rewriteAt fun offset here => ?_⟩
    obtain ⟨place, site, rfl⟩ := Option.map_eq_some_iff.mp here
    have fits := checksumSite_fits site
    have length : pkt.buf.length = pkt.size := rfl
    omega
  · exact ⟨pkt, deltaChecksum_other known, rfl⟩

end Steps

/-! ### Addresses of IPv4 packets -/

variable (bytes : List UInt8) (header : UInt8 × ℕ) {pkt : IPPacket}

theorem exists_updateIPv4Transport (complete : 20 ≤ pkt.size) (ihs : ℕ)
    (src dst newSrc newDst : IPv4Addr) :
    ∃ new, pkt.updateIPv4Transport ihs src dst newSrc newDst = .ok new ∧ new.size = pkt.size := by
  by_cases within : ihs ≤ pkt.size
  · rw [updateIPv4Transport_eq complete within]
    exact exists_deltaChecksum _ _ _ (by omega)
  · exact ⟨pkt, if_neg within, rfl⟩

theorem updateIPv4Address_faults (complete : 20 ≤ pkt.size) (nSrcIP nDstIP : IPv4Addr) :
    FaultsIff (pkt.updateIPv4Address nSrcIP nDstIP) False := by
  have address (addr : IPv4Addr) : addr.bytes.length = 4 := addr.length_eq
  refine .bind (fun _ => True) ⟨_, srcv4_eq complete, trivial⟩ fun oSrcIP _ => ?_
  refine .bind (fun _ => True) ⟨_, dstv4_eq complete, trivial⟩ fun oDstIP _ => ?_
  refine .bind (fun _ => True) ⟨_, ihl_eq complete, trivial⟩ fun ihl _ => ?_
  refine .bind (·.size = pkt.size) (exists_updateIPv4Transport complete _ _ _ _ _) fun new sized => ?_
  refine .bind (·.length = 2) (exists_read (by omega)) fun check _ => ?_
  refine .write sized (by rw [length_hostStore16]; omega) fun new sized => ?_
  refine .write sized (by rw [address]; omega) fun new sized => ?_
  rw [write_eq (by rw [address]; omega)]
  exact faultsIff_ok _ id

/-! ### Ports -/

/-- The last byte of the packet is the first one of the port. -/
def PortCut (pkt : IPPacket) (offset : ℕ) : Prop :=
  (pkt.buf.getD 9 0 = IPProtocol.tcp ∨ pkt.buf.getD 9 0 = IPProtocol.udp) ∧
    (pkt.buf.getD 0 0).toNat % 16 * 4 + offset + 1 = pkt.size

theorem portAt_faults (complete : 20 ≤ pkt.size) (offset : ℕ) :
    FaultsIff (pkt.portAt offset) (PortCut pkt offset) := by
  rw [portAt, byte_eq (by omega), PortCut]
  show FaultsIff (if _ then _ else _) _
  split_ifs with ports
  · refine .bind (· = (pkt.buf.getD 0 0).toNat % 16) ⟨_, ihl_eq complete, rfl⟩ ?_
    rintro - rfl
    generalize (pkt.buf.getD 0 0).toNat % 16 * 4 + offset = start
    by_cases checked : start > pkt.size ∨ 1 > pkt.size - start
    · rw [boundsCheck, if_pos checked]
      exact faultsIff_rejected (by omega)
    · rw [boundsCheck, if_neg checked]
      by_cases inside : start + 2 ≤ pkt.size
      · rw [read_eq inside]
        exact faultsIff_ok _ (by omega)
      · rw [read, if_neg inside]
        exact faultsIff_outOfBounds ⟨ports, by omega⟩
  · exact faultsIff_ok _ fun cut => ports cut.1

/-! ### Unreachable destinations -/

/-- The packet ends before the eight bytes behind its header. -/
def QuoteCut (pkt : IPPacket) : Prop :=
  (pkt.buf.getD 0 0).toNat / 16 = 4 ∧ (pkt.buf.getD 0 0).toNat % 16 ≠ 0 ∧
    pkt.size < (pkt.buf.getD 0 0).toNat % 16 * 4 + 8

theorem exists_ofSize {sz : ℕ} (large : 20 ≤ sz) :
    ∃ pkt, ofSize sz = .ok pkt ∧ pkt.size = sz := by
  refine ⟨⟨List.replicate sz 0⟩, if_neg ?_, List.length_replicate⟩
  rintro ⟨-, small⟩
  exact absurd small (not_lt.mpr large)

theorem makeICMPUnreachable_faults (complete : 20 ≤ pkt.size) :
    FaultsIff pkt.makeICMPUnreachable (QuoteCut pkt) := by
  have address (addr : IPv4Addr) : addr.bytes.length = 4 := addr.length_eq
  rw [makeICMPUnreachable, isV4_eq complete, QuoteCut]
  show FaultsIff (if decide _ = true then _ else _) _
  split_ifs with v4
  · refine .bind (· = (pkt.buf.getD 0 0).toNat % 16) ⟨_, ihl_eq complete, rfl⟩ ?_
    rintro - rfl
    have isV4 := of_decide_eq_true v4
    generalize (pkt.buf.getD 0 0).toNat % 16 = ihl
    by_cases empty : ihl = 0
    · -- a reply of 16 bytes is too short for a packet
      rw [empty]
      exact faultsIff_rejected fun cut => cut.2.1 rfl
    · refine .bind (·.size = (8 + ihl * 4) * 2) (exists_ofSize (by omega)) fun reply sized => ?_
      -- the header
      refine .write sized (by simp; omega) fun reply sized => ?_
      refine .write sized (by simp; omega) fun reply sized => ?_
      refine .write sized (by simp; omega) fun reply sized => ?_
      refine .bind (fun _ => True) ⟨_, dstv4_eq complete, trivial⟩ fun dst _ => ?_
      refine .write sized (by rw [address]; omega) fun reply sized => ?_
      refine .bind (fun _ => True) ⟨_, srcv4_eq complete, trivial⟩ fun src _ => ?_
      refine .write sized (by rw [address]; omega) fun reply sized => ?_
      refine .write sized (by simp; omega) fun reply sized => ?_
      refine .bind (fun _ => True) ⟨_, byte_eq (by omega), trivial⟩ fun ttl _ => ?_
      refine .write sized (by simp; omega) fun reply sized => ?_
      refine .write sized (by simp; omega) fun reply sized => ?_
      -- the message
      refine .write sized (by simp; omega) fun reply sized => ?_
      refine .write sized (by simp; omega) fun reply sized => ?_
      refine .write sized (by simp; omega) fun reply sized => ?_
      by_cases whole : ihl * 4 + 8 ≤ pkt.size
      · refine .bind (·.length = ihl * 4 + 8) (exists_read (by omega)) fun quote length => ?_
        refine .write sized (by rw [length]; omega) fun reply sized => ?_
        refine .bind (fun _ => True) ⟨_, read_eq (by omega), trivial⟩ fun header _ => ?_
        refine .write sized (by rw [length_hostStore16]; omega) fun reply sized => ?_
        refine .bind (fun _ => True) ⟨_, read_eq (by omega), trivial⟩ fun icmp _ => ?_
        refine .write sized (by rw [length_hostStore16]; omega) fun reply sized => ?_
        exact faultsIff_ok _ fun cut => absurd cut.2.2 (not_lt.mpr whole)
      · rw [read, if_neg (by omega)]
        exact faultsIff_outOfBounds ⟨isV4, empty, not_le.mp whole⟩
  · exact faultsIff_ok _ fun cut => v4 (decide_eq_true cut.1)

/-! ### Addresses of IPv6 packets -/

/-- Hop-by-hop options, routing or destination options. -/
def IsOptions (kind : UInt8) : Prop := kind = 0 ∨ kind = 43 ∨ kind = 60

instance (kind : UInt8) : Decidable (IsOptions kind) := inferInstanceAs (Decidable (_ ∨ _))

/-- From a header to the next one, by kind and place. The header is complete, and is not one of a
later fragment. -/
inductive HeaderStep (bytes : List UInt8) : UInt8 × ℕ → UInt8 × ℕ → Prop where
  | options {kind next len : UInt8} {offset : ℕ} (isOptions : IsOptions kind)
      (isNext : bytes[offset]? = some next) (isLen : bytes[offset + 1]? = some len)
      (complete : offset + (len.toNat + 1) * 8 ≤ bytes.length) :
      HeaderStep bytes (kind, offset) (next, offset + (len.toNat + 1) * 8)
  | fragment {next high low : UInt8} {offset : ℕ} (isNext : bytes[offset]? = some next)
      (isHigh : bytes[offset + 2]? = some high) (isLow : bytes[offset + 3]? = some low)
      (complete : offset + 8 ≤ bytes.length)
      (first : high.toNat * 2 ^ 8 + (low &&& 0xFC).toNat = 0) :
      HeaderStep bytes (44, offset) (next, offset + 8)

/-- The bytes of a header that tell its length or offset are in the packet. -/
def HeaderReadable : Prop :=
  (IsOptions header.1 → header.2 + 2 ≤ bytes.length) ∧ (header.1 = 44 → header.2 + 4 ≤ bytes.length)

/-- The start of every header is in the packet that is reached from a header along complete ones. -/
def HeadersReadable : Prop :=
  ∀ header', Relation.ReflTransGen (HeaderStep bytes) header header' →
    HeaderReadable bytes header'

section Headers

variable {pkt : IPPacket} {kind : UInt8} {pld psz : ℕ}

theorem headersReadable_of_step {bytes : List UInt8} {header next : UInt8 × ℕ}
    (readable : HeaderReadable bytes header) (step : HeaderStep bytes header next)
    (only : ∀ next', HeaderStep bytes header next' → next' = next) :
    HeadersReadable bytes header ↔ HeadersReadable bytes next := by
  constructor
  · exact fun all header' reaches => all header' (.head step reaches)
  · intro all header' reaches
    rcases reaches.cases_head with rfl | ⟨next', first, rest⟩
    · exact readable
    · rw [only next' first] at rest
      exact all header' rest

variable {header : UInt8 × ℕ}

theorem headersReadable_of_no_step {bytes : List UInt8} (readable : HeaderReadable bytes header)
    (last : ∀ next, ¬HeaderStep bytes header next) : HeadersReadable bytes header := by
  intro _ reaches
  rcases reaches.cases_head with rfl | ⟨next, first, -⟩
  · exact readable
  · exact absurd first (last next)

/-- The loop comes to an end inside of the packet if all headers can be read, and leaves it
otherwise. -/
def LoopEnds (pkt : IPPacket) (header : UInt8 × ℕ) (result : Access (Option Transport)) : Prop :=
  HeadersReadable pkt.buf header ∧ (∃ found, result = .ok found ∧
      ∀ transport ∈ found, transport.pld + transport.psz ≤ pkt.size) ∨
    ¬HeadersReadable pkt.buf header ∧ result = .error .outOfBounds

theorem loopEnds_ok {found : Option Transport} (readable : HeaderReadable pkt.buf header)
    (last : ∀ next, ¬HeaderStep pkt.buf header next)
    (inside : ∀ transport ∈ found, transport.pld + transport.psz ≤ pkt.size) :
    LoopEnds pkt header (.ok found) :=
  .inl ⟨headersReadable_of_no_step readable last, found, rfl, inside⟩

theorem loopEnds_outOfBounds (cut : ¬HeaderReadable pkt.buf header) :
    LoopEnds pkt header (.error .outOfBounds) :=
  .inr ⟨fun all => cut (all header .refl), rfl⟩

theorem LoopEnds.step {header next : UInt8 × ℕ} {result : Access (Option Transport)}
    (ends : LoopEnds pkt next result) (readable : HeaderReadable pkt.buf header)
    (step : HeaderStep pkt.buf header next)
    (only : ∀ next', HeaderStep pkt.buf header next' → next' = next) : LoopEnds pkt header result := by
  rw [LoopEnds, headersReadable_of_step readable step only]
  exact ends

/-- A byte of the header is read, or it is cut off. -/
theorem LoopEnds.byte {i : ℕ} {rest : UInt8 → Access (Option Transport)}
    (needed : HeaderReadable pkt.buf header → i < pkt.size)
    (further : ∀ value, pkt.buf[i]? = some value → LoopEnds pkt header (rest value)) :
    LoopEnds pkt header (pkt.byte i >>= rest) := by
  rw [IPPacket.byte]
  by_cases inside : i < pkt.size
  · have found : pkt.buf[i]? = some pkt.buf[i] := List.getElem?_eq_getElem inside
    rw [found]
    exact further _ found
  · rw [List.getElem?_eq_none (not_lt.mp inside)]
    exact loopEnds_outOfBounds (mt needed inside)

/-- The loop at options. -/
theorem loopEnds_options (options : IsOptions kind) (rest : pld + psz = pkt.size) {fuel : ℕ}
    (further : ∀ {kind pld' psz'}, psz' + 8 ≤ psz → pld' + psz' = pkt.size →
      LoopEnds pkt (kind, pld') (pkt.extensionHeaders fuel kind pld' psz')) :
    LoopEnds pkt (kind, pld) (pkt.extensionHeaders (fuel + 1) kind pld psz) := by
  have other : kind ≠ 44 := by
    rintro rfl
    exact absurd options (by decide)
  have isKind : kind = 0 ∨ kind = 43 ∨ kind = 60 := options
  have needed (start : HeaderReadable pkt.buf (kind, pld)) : pld + 2 ≤ pkt.size := start.1 options
  rw [extensionHeaders, if_pos isKind]
  refine .byte (fun start => Nat.lt_of_add_right_lt (needed start)) fun next isNext => ?_
  refine .byte needed fun len isLen => ?_
  obtain ⟨readable, -⟩ := List.getElem?_eq_some_iff.mp isLen
  have start : HeaderReadable pkt.buf (kind, pld) :=
    ⟨fun _ => readable, fun fragment => absurd fragment other⟩
  have only {next' : UInt8 × ℕ} (step : HeaderStep pkt.buf (kind, pld) next') :
      pld + (len.toNat + 1) * 8 ≤ pkt.size ∧ next' = (next, pld + (len.toNat + 1) * 8) := by
    cases step with
    | options _ isNext' isLen' complete =>
      cases isNext.symm.trans isNext'
      cases isLen.symm.trans isLen'
      exact ⟨complete, rfl⟩
    | fragment => exact absurd rfl other
  show LoopEnds pkt (kind, pld) (if psz < (len.toNat + 1) * 8 then .ok none else _)
  split_ifs
  · refine loopEnds_ok start (fun next' step => ?_) (fun transport member => by cases member)
    have complete := (only step).1
    omega
  · exact (further (by omega) (by omega)).step start
      (.options options isNext isLen (by rw [← size]; omega)) fun next' step => (only step).2

/-- The loop at a fragment header. -/
theorem loopEnds_fragment (rest : pld + psz = pkt.size) {fuel : ℕ}
    (further : ∀ {kind pld' psz'}, psz' + 8 ≤ psz → pld' + psz' = pkt.size →
      LoopEnds pkt (kind, pld') (pkt.extensionHeaders fuel kind pld' psz')) :
    LoopEnds pkt (44, pld) (pkt.extensionHeaders (fuel + 1) 44 pld psz) := by
  have needed (start : HeaderReadable pkt.buf (44, pld)) : pld + 4 ≤ pkt.size := start.2 rfl
  refine .byte (fun start => Nat.lt_of_add_right_lt (needed start)) fun next isNext => ?_
  refine .byte (fun start => Nat.lt_of_succ_lt (needed start)) fun high isHigh => ?_
  refine .byte needed fun low isLow => ?_
  obtain ⟨readable, -⟩ := List.getElem?_eq_some_iff.mp isLow
  have start : HeaderReadable pkt.buf (44, pld) :=
    ⟨fun options => absurd options (by decide : ¬IsOptions 44), fun _ => readable⟩
  have only {next' : UInt8 × ℕ} (step : HeaderStep pkt.buf (44, pld) next') :
      pld + 8 ≤ pkt.size ∧ high.toNat * 2 ^ 8 + (low &&& 0xFC).toNat = 0 ∧
        next' = (next, pld + 8) := by
    cases step with
    | options isOptions => exact absurd isOptions (by decide)
    | fragment isNext' isHigh' isLow' complete first =>
      cases isNext.symm.trans isNext'
      cases isHigh.symm.trans isHigh'
      cases isLow.symm.trans isLow'
      exact ⟨complete, first, rfl⟩
  show LoopEnds pkt (44, pld) (if psz < 8 then .ok none
    else if high.toNat * 2 ^ 8 + (low &&& 0xFC).toNat ≠ 0 then .ok (some _) else _)
  split_ifs with short moves
  · refine loopEnds_ok start (fun next' step => ?_) (fun transport member => by cases member)
    have complete := (only step).1
    omega
  · refine loopEnds_ok start (fun next' step => moves (only step).2.1) fun transport member => ?_
    rw [← Option.some.inj member]
    show pld + 8 + (psz - 8) ≤ pkt.size
    omega
  · have inside : pld + 8 ≤ pkt.buf.length := by
      rw [← size]
      omega
    exact (further (by omega) (by omega)).step start
      (.fragment isNext isHigh isLow inside (not_not.mp moves)) fun next' step => (only step).2.2

theorem loopEnds (fuel : ℕ) (enough : psz < fuel) (rest : pld + psz = pkt.size) :
    LoopEnds pkt (kind, pld) (pkt.extensionHeaders fuel kind pld psz) := by
  induction fuel generalizing kind pld psz with
  | zero => exact absurd enough (Nat.not_lt_zero _)
  | succ fuel ih =>
    -- each header takes eight bytes at least
    have further {kind : UInt8} {pld' psz' : ℕ} (less : psz' + 8 ≤ psz)
        (rest' : pld' + psz' = pkt.size) :
        LoopEnds pkt (kind, pld') (pkt.extensionHeaders fuel kind pld' psz') :=
      ih (by omega) rest'
    by_cases options : IsOptions kind
    · exact loopEnds_options options rest further
    · by_cases fragment : kind = 44
      · rw [fragment]
        exact loopEnds_fragment rest further
      · rw [extensionHeaders, if_neg (show ¬(kind = 0 ∨ kind = 43 ∨ kind = 60) from options),
          if_neg fragment]
        refine loopEnds_ok ?_ (fun next step => ?_) fun transport member => ?_
        · exact ⟨fun isOptions => absurd isOptions options, fun is44 => absurd is44 fragment⟩
        · cases step with
          | options isOptions => exact options isOptions
          | fragment => exact fragment rfl
        · rw [← Option.some.inj member]
          exact rest.le

/-- The loop reads only bytes behind the fixed header. -/
theorem extensionHeaders_congr {new : IPPacket} (same : ∀ i, 40 ≤ i → new.buf[i]? = pkt.buf[i]?)
    (fuel : ℕ) (behind : 40 ≤ pld) :
    new.extensionHeaders fuel kind pld psz = pkt.extensionHeaders fuel kind pld psz := by
  have bytes (i : ℕ) (inside : 40 ≤ i) : new.byte i = pkt.byte i := by rw [byte, byte, same i inside]
  induction fuel generalizing kind pld psz with
  | zero => rfl
  | succ fuel ih =>
    have further {kind : UInt8} {psz' : ℕ} size :
        new.extensionHeaders fuel kind (pld + size) psz' =
          pkt.extensionHeaders fuel kind (pld + size) psz' := ih (Nat.le_add_right_of_le behind)
    simp only [extensionHeaders, bytes pld behind, bytes (pld + 1) (by omega),
      bytes (pld + 2) (by omega), bytes (pld + 3) (by omega), further]

/-- A header that the loop comes to is cut off. -/
def HeaderCut (pkt : IPPacket) : Prop :=
  40 < pkt.size ∧ ¬HeadersReadable pkt.buf (pkt.buf.getD 6 0, 40)

theorem exists_setFlowLabelIf (large : 40 < pkt.size) (label : Option (AlignedBuffer 4)) :
    ∃ new, pkt.setFlowLabelIf label = .ok new ∧ new.size = pkt.size ∧
      ∀ i, 4 ≤ i → new.buf[i]? = pkt.buf[i]? := by
  cases label with
  | none => exact ⟨pkt, rfl, rfl, fun i _ => rfl⟩
  | some label =>
    have four : (window pkt.buf 0 4).length = 4 := length_window (by rw [← size]; omega)
    have mixed := IPv6Packet.length_mixLabel four label
    have fits : 0 + (IPv6Packet.mixLabel (window pkt.buf 0 4) label).length ≤ pkt.size := by omega
    obtain ⟨new, written, sized, same⟩ := exists_write fits
    refine ⟨new, ?_, sized, fun i behind => same i (.inr (by omega))⟩
    rw [setFlowLabelIf, setFlowLabel, read_eq (by omega)]
    exact written

/-- The place of the new addresses. -/
theorem exists_write_address {new : IPPacket} {addr : IPv6Addr} {offset : ℕ}
    (sized : new.size = pkt.size) (large : 40 < pkt.size) (start : 8 ≤ offset) (stop : offset ≤ 24)
    (same : ∀ i, i = 6 ∨ 40 ≤ i → new.buf[i]? = pkt.buf[i]?) :
    ∃ next, new.write offset addr.bytes = .ok next ∧ next.size = pkt.size ∧
      ∀ i, i = 6 ∨ 40 ≤ i → next.buf[i]? = pkt.buf[i]? := by
  have length := addr.length_eq
  have fits : offset + addr.bytes.length ≤ new.size := by omega
  obtain ⟨next, written, kept, others⟩ := exists_write fits
  refine ⟨next, written, kept.trans sized, fun i place => ?_⟩
  rw [others i (by omega), same i place]

theorem updateIPv6Address_faults (src dst : IPv6Addr) (label : Option (AlignedBuffer 4)) :
    FaultsIff (pkt.updateIPv6Address src dst label) (HeaderCut pkt) := by
  rw [updateIPv6Address]
  split_ifs with small
  · exact faultsIff_ok pkt fun cut => absurd cut.1 (not_lt.mpr small)
  · have large : 40 < pkt.size := not_le.mp small
    let Kept (new : IPPacket) : Prop :=
      new.size = pkt.size ∧ ∀ i, i = 6 ∨ 40 ≤ i → new.buf[i]? = pkt.buf[i]?
    obtain ⟨labeled, label_eq, label_size, others⟩ := exists_setFlowLabelIf large label
    refine .bind Kept ⟨labeled, label_eq, label_size, fun i place => others i (by omega)⟩ ?_
    rintro new ⟨sized, same⟩
    have address (offset : ℕ) (inside : offset + 16 ≤ 40) :
        ∃ addr, (new.read offset 16).map (AlignedBuffer.copy 16) = .ok addr ∧ True := by
      rw [read_eq (by omega)]
      exact ⟨_, rfl, trivial⟩
    refine .bind (fun _ => True) (address 8 (by decide)) fun oldSrcIP _ => ?_
    refine .bind (fun _ => True) (address 24 (by decide)) fun oldDstIP _ => ?_
    refine .bind Kept (exists_write_address sized large (by decide) (by decide) same) ?_
    rintro new ⟨sized, same⟩
    refine .bind Kept (exists_write_address sized large (by decide) (by decide) same) ?_
    rintro new ⟨sized, same⟩
    -- the loop finds what it would find in the packet as it was
    have first : new.byte 6 = .ok (pkt.buf.getD 6 0) := by
      rw [byte, same 6 (.inl rfl), ← byte, byte_eq (by omega)]
    refine .bind (· = pkt.buf.getD 6 0) ⟨_, first, rfl⟩ ?_
    rintro - rfl
    rw [extensionHeaders_congr (fun i behind => same i (.inr behind)) new.size le_rfl, sized]
    have loop : LoopEnds pkt (pkt.buf.getD 6 0, 40)
        (pkt.extensionHeaders pkt.size (pkt.buf.getD 6 0) 40 (pkt.size - 40)) :=
      loopEnds pkt.size (by omega) (by omega)
    rcases loop with ⟨readable, found, ends, inside⟩ | ⟨cut, ends⟩
    · rw [ends]
      have never : ¬HeaderCut pkt := fun cut => cut.2 readable
      cases found with
      | none => exact faultsIff_ok new never
      | some transport =>
        show FaultsIff (new.updateIPv6Transport transport oldSrcIP oldDstIP src dst) _
        have fits : transport.pld + transport.psz ≤ new.size := sized ▸ inside transport rfl
        obtain ⟨last, updated, -⟩ := exists_deltaChecksum
          (deltaIPv6Checksum oldSrcIP oldDstIP src dst) transport.nextproto transport.fragoff fits
        rw [IPv6Packet.updateIPv6Transport_eq, updated]
        exact faultsIff_ok last never
    · rw [ends]
      exact faultsIff_outOfBounds ⟨large, cut⟩

end Headers

/-! ### All calls -/

/-- The functions that read or change the headers of a packet. -/
inductive HeaderCall where
  | updateIPv4Address (nSrcIP nDstIP : IPv4Addr)
  | updateIPv6Address (src dst : IPv6Addr) (flowlabel : Option (AlignedBuffer 4))
  | dstPort
  | srcPort
  | makeICMPUnreachable

namespace HeaderCall

/-- The call accesses memory outside of the packet. -/
def LeavesPacket (pkt : IPPacket) : HeaderCall → Prop
  | updateIPv4Address nSrcIP nDstIP =>
    pkt.updateIPv4Address nSrcIP nDstIP = .error .outOfBounds
  | updateIPv6Address src dst flowlabel =>
    pkt.updateIPv6Address src dst flowlabel = .error .outOfBounds
  | dstPort => pkt.dstPort = .error .outOfBounds
  | srcPort => pkt.srcPort = .error .outOfBounds
  | makeICMPUnreachable => pkt.makeICMPUnreachable = .error .outOfBounds

/-- Something that the call reads is cut off at the end of the packet. -/
def IsCut (pkt : IPPacket) : HeaderCall → Prop
  | updateIPv4Address _ _ => False
  | updateIPv6Address _ _ _ => HeaderCut pkt
  | dstPort => PortCut pkt 2
  | srcPort => PortCut pkt 0
  | makeICMPUnreachable => QuoteCut pkt

/-- A call stays inside of the packet, or rejects it, exactly if nothing is cut off. -/
theorem not_leavesPacket_iff (pkt : IPPacket) (large : minSize ≤ pkt.size) (call : HeaderCall) :
    ¬call.LeavesPacket pkt ↔ ¬call.IsCut pkt := by
  have complete : 20 ≤ pkt.size := large
  refine not_congr ?_
  cases call with
  | updateIPv4Address nSrcIP nDstIP => exact updateIPv4Address_faults complete nSrcIP nDstIP
  | updateIPv6Address src dst flowlabel => exact updateIPv6Address_faults src dst flowlabel
  | dstPort => exact portAt_faults complete 2
  | srcPort => exact portAt_faults complete 0
  | makeICMPUnreachable => exact makeICMPUnreachable_faults complete

/-- A UDP packet of 28 bytes, without options. -/
def exampleDatagram : IPPacket :=
  ⟨[69, 0, 0, 28, 0, 7, 0, 0, 64, 17, 102, 192, 10, 0, 0, 1, 10, 0, 0, 2,
    4, 210, 0, 53, 0, 8, 0, 0]⟩

theorem not_leavesPacket_exampleDatagram : ¬dstPort.LeavesPacket exampleDatagram ∧
    ¬makeICMPUnreachable.LeavesPacket exampleDatagram := by
  have large : minSize ≤ exampleDatagram.size := by decide
  refine ⟨(not_leavesPacket_iff exampleDatagram large dstPort).mpr ?_,
    (not_leavesPacket_iff exampleDatagram large makeICMPUnreachable).mpr ?_⟩
  · rintro ⟨-, cut⟩
    revert cut
    decide
  · rintro ⟨-, -, cut⟩
    revert cut
    decide

/-- Packets that end within the destination port, within the source port, behind the header, and
within an extension header. -/
theorem truncated_packets_are_left :
    (∀ pkt ∈ [exampleDatagram.buf.take 23, exampleDatagram.buf.take 21, exampleDatagram.buf.take 20,
      0x60 :: List.replicate 40 0], minSize ≤ pkt.length) ∧
    dstPort.LeavesPacket ⟨exampleDatagram.buf.take 23⟩ ∧
    srcPort.LeavesPacket ⟨exampleDatagram.buf.take 21⟩ ∧
    makeICMPUnreachable.LeavesPacket ⟨exampleDatagram.buf.take 20⟩ ∧
    (updateIPv6Address (AlignedBuffer.zero 16) (AlignedBuffer.zero 16) none).LeavesPacket
      ⟨0x60 :: List.replicate 40 0⟩ := by
  refine ⟨by decide, ?_, ?_, ?_, ?_⟩
  · show IPPacket.dstPort _ = _
    decide +kernel
  · show IPPacket.srcPort _ = _
    decide +kernel
  · show IPPacket.makeICMPUnreachable _ = _
    decide +kernel
  · show IPPacket.updateIPv6Address _ _ _ _ = _
    decide +kernel

end HeaderCall

end IPPacket

end Llarp

import Llarp.Net.HeaderV4

/-!
# New addresses in IPv4 packets

Every fragment of a datagram is rewritten by itself. The checksum of the transport protocol is in
one of them, for fragments are cut at multiples of eight bytes; which one, and where, follows from
the offset in its header.
-/

namespace Llarp

open Foundation

namespace IPPacket

/-! ### Where a checksum is rewritten -/

variable {offset : ℕ} (proto : UInt8) {f : UInt16 → UInt16} (pkt : IPPacket)

/-- The place in the payload where the checksum is looked for. -/
def checksumSite (fragoff psz : ℕ) : Option ℕ :=
  if IsUDP proto then if fragoff > 6 ∨ psz < 6 + 2 then none else some 6
  else if fragoff > checksumOffset proto ∨ psz < checksumOffset proto - fragoff + 2 then none
  else some (checksumOffset proto - fragoff)

def rewriteAt (f : UInt16 → UInt16) (bytes : List UInt8) : Option ℕ → List UInt8
  | none => bytes
  | some offset => rewriteField f bytes offset

/-- The switch over the transport protocols, which is the same for both versions. -/
def deltaChecksum (delta : UInt16 → UInt16) (proto : UInt8) (pkt : IPPacket)
    (pld psz fragoff : ℕ) : Access IPPacket :=
  if proto = 6 then deltaChecksumTCP delta pkt pld psz fragoff 16
  else if proto = 17 ∨ proto = 136 then deltaChecksumUDP delta pkt pld psz fragoff
  else if proto = 33 then deltaChecksumTCP delta pkt pld psz fragoff 6
  else return pkt

theorem rewriteAt_append_right (front back : List UInt8) (site : Option ℕ) :
    rewriteAt f (front ++ back) (site.map (front.length + ·)) = front ++ rewriteAt f back site := by
  cases site with
  | none => rfl
  | some offset =>
    have beyond : front.length ≤ front.length + offset := Nat.le_add_right _ _
    simp only [Option.map_some, rewriteAt, rewriteField, fieldAt, splice_append_right beyond,
      window_append_right beyond, Nat.add_sub_cancel_left]

theorem checksumSite_fits {proto : UInt8} {fragoff psz offset : ℕ}
    (site : checksumSite proto fragoff psz = some offset) : offset + 2 ≤ psz := by
  rw [checksumSite] at site
  split_ifs at site
  · cases site
    omega
  · cases site
    omega

theorem length_rewriteAt {bytes : List UInt8} {site : Option ℕ}
    (fits : ∀ offset, site = some offset → offset + 2 ≤ bytes.length) :
    (rewriteAt f bytes site).length = bytes.length := by
  cases site with
  | none => rfl
  | some offset => exact length_rewriteField (fits offset rfl)

section Switch

variable {delta : UInt16 → UInt16} {pkt : IPPacket} {pld psz fragoff : ℕ} {proto : UInt8}

theorem deltaChecksumTCP_eq (inside : pld + psz ≤ pkt.size) (chksumoff : ℕ) :
    deltaChecksumTCP delta pkt pld psz fragoff chksumoff =
      .ok ⟨if fragoff > chksumoff ∨ psz < chksumoff - fragoff + 2 then pkt.buf
        else rewriteField (fun check => if delta check = 0xFFFF then 0 else delta check) pkt.buf
          (pld + (chksumoff - fragoff))⟩ := by
  rw [deltaChecksumTCP]
  split_ifs
  · rfl
  · have place : pld + chksumoff - fragoff = pld + (chksumoff - fragoff) := by omega
    have fits : pld + (chksumoff - fragoff) + 2 ≤ pkt.size := by omega
    rw [place, read_eq fits]
    exact write_eq fits

theorem deltaChecksumUDP_eq (inside : pld + psz ≤ pkt.size) :
    deltaChecksumUDP delta pkt pld psz fragoff =
      .ok ⟨if fragoff > 6 ∨ psz < 6 + 2 then pkt.buf
        else rewriteField (fun check => if check = 0 then 0 else delta check) pkt.buf (pld + 6)⟩ := by
  rw [deltaChecksumUDP]
  split_ifs
  · rfl
  · have fits : pld + 6 + 2 ≤ pkt.size := by omega
    rw [read_eq fits]
    show (if fieldAt pkt.buf (pld + 6) = 0 then _ else _) = _
    split_ifs with none
    · rw [rewriteField_eq_self fits (by rw [if_pos none, none])]
      rfl
    · rw [write_eq fits, rewriteField, if_neg none]
      rfl

/-- The field of TCP and DCCP. -/
theorem rewriteAt_checksumSite_of_not_udp (other : ¬IsUDP proto) :
    rewriteAt (checksumWord delta proto) pkt.buf ((checksumSite proto fragoff psz).map (pld + ·)) =
      if fragoff > checksumOffset proto ∨ psz < checksumOffset proto - fragoff + 2 then pkt.buf
      else rewriteField (fun check => if delta check = 0xFFFF then 0 else delta check) pkt.buf
        (pld + (checksumOffset proto - fragoff)) := by
  have word : checksumWord delta proto =
      fun check => if delta check = 0xFFFF then 0 else delta check := by
    funext check
    rw [checksumWord, if_neg other]
  rw [checksumSite, word]
  split_ifs
  · rfl
  · rfl

/-- The field of UDP and UDP-Lite. -/
theorem rewriteAt_checksumSite_of_udp (udp : IsUDP proto) :
    rewriteAt (checksumWord delta proto) pkt.buf ((checksumSite proto fragoff psz).map (pld + ·)) =
      if fragoff > 6 ∨ psz < 6 + 2 then pkt.buf
      else rewriteField (fun check => if check = 0 then 0 else delta check) pkt.buf (pld + 6) := by
  have word : checksumWord delta proto = fun check => if check = 0 then 0 else delta check := by
    funext check
    rw [checksumWord, if_pos udp]
  rw [checksumSite, word]
  split_ifs
  · rfl
  · rfl

theorem deltaChecksum_eq (known : HasChecksum proto) (inside : pld + psz ≤ pkt.size) :
    deltaChecksum delta proto pkt pld psz fragoff =
      .ok ⟨rewriteAt (checksumWord delta proto) pkt.buf
        ((checksumSite proto fragoff psz).map (pld + ·))⟩ := by
  rcases known with rfl | rfl | rfl | rfl
  · rw [rewriteAt_checksumSite_of_not_udp (by decide)]
    exact deltaChecksumTCP_eq inside 16
  · rw [rewriteAt_checksumSite_of_udp (by decide)]
    exact deltaChecksumUDP_eq inside
  · rw [rewriteAt_checksumSite_of_udp (by decide)]
    exact deltaChecksumUDP_eq inside
  · rw [rewriteAt_checksumSite_of_not_udp (by decide)]
    exact deltaChecksumTCP_eq inside 6

theorem deltaChecksum_other (unknown : ¬HasChecksum proto) :
    deltaChecksum delta proto pkt pld psz fragoff = .ok pkt := by
  rw [HasChecksum, not_or, not_or, not_or] at unknown
  obtain ⟨notTCP, notUDP, notUDPLite, notDCCP⟩ := unknown
  rw [deltaChecksum, if_neg notTCP, if_neg (not_or.mpr ⟨notUDP, notUDPLite⟩), if_neg notDCCP]
  rfl

end Switch

/-! ### Packets -/

section Packet

variable {src dst newSrc newDst : IPv4Addr} {proto : UInt8} {pkt : IPPacket}

theorem updateIPv4Transport_eq (complete : 20 ≤ pkt.size) {ihs : ℕ} (within : ihs ≤ pkt.size) :
    pkt.updateIPv4Transport ihs src dst newSrc newDst =
      deltaChecksum (deltaIPv4Checksum src dst newSrc newDst) (pkt.buf.getD 9 0) pkt ihs
        (pkt.size - ihs) pkt.fragmentOffset := by
  rw [updateIPv4Transport, if_pos within, read_eq (by omega), byte_eq (by omega)]
  rfl

/-- The addresses are replaced, and behind the header at most a checksum. -/
theorem HeaderV4.updateIPv4Address_packet (h : HeaderV4) (body : List UInt8) (src dst : IPv4Addr) :
    (h.packet body).updateIPv4Address src dst = .ok ((h.readdressed src dst).packet
      (if HasChecksum h.proto then
        rewriteAt (checksumWord (deltaIPv4Checksum h.src h.dst src dst) h.proto) body
          (checksumSite h.proto (h.packet body).fragmentOffset body.length)
      else body)) := by
  have large := h.large body
  have within := h.within body
  have proto_eq : (h.packet body).buf.getD 9 0 = h.proto := rfl
  have buf : (h.packet body).buf = h.bytes ++ body := rfl
  have size : (h.packet body).size = h.bytes.length + body.length := List.length_append
  rw [updateIPv4Address, h.srcv4_packet, ok_bind, h.dstv4_packet, ok_bind, ihl_eq large, ok_bind,
    ← headerLength, updateIPv4Transport_eq large within, proto_eq]
  split_ifs with known
  · rw [deltaChecksum_eq known (Nat.add_sub_of_le within).le, h.headerLength_packet, size,
      Nat.add_sub_cancel_left, buf, rewriteAt_append_right]
    exact h.readdress_packet _ src dst
  · rw [deltaChecksum_other known]
    exact h.readdress_packet body src dst

/-- What new addresses make of a packet. -/
structure Readdressed (src dst newSrc newDst : IPv4Addr) (proto : UInt8) (pkt new : IPPacket) :
    Prop where
  isIPv4 : IsIPv4 newSrc newDst proto new
  verifies : Verifies pkt.header → Verifies new.header
  offset_eq : new.fragmentOffset = pkt.fragmentOffset
  payload_eq : new.payload = rewriteAt
    (checksumWord (deltaIPv4Checksum src dst newSrc newDst) proto) pkt.payload
      (checksumSite proto pkt.fragmentOffset pkt.payload.length)

theorem IsIPv4.exists_readdressed (isIPv4 : IsIPv4 src dst proto pkt) (known : HasChecksum proto)
    (newSrc newDst : IPv4Addr) : ∃ new, pkt.updateIPv4Address newSrc newDst = .ok new ∧
      Readdressed src dst newSrc newDst proto pkt new := by
  obtain ⟨h, isPacket, rfl, rfl, rfl⟩ := isIPv4.exists_header
  generalize pkt.payload = body at isPacket
  subst isPacket
  have updates := h.updateIPv4Address_packet body newSrc newDst
  rw [if_pos known] at updates
  refine ⟨_, updates, (h.readdressed newSrc newDst).isIPv4_packet _, ?_, rfl, ?_⟩
  · rw [h.header_packet, HeaderV4.header_packet]
    exact h.verifies_readdressed newSrc newDst
  · rw [h.payload_packet, HeaderV4.payload_packet]

end Packet

/-! ### Fragments -/

/-- The packets are fragments one after the other, cut at multiples of eight bytes. -/
def Contiguous : (offset : ℕ) → List IPPacket → Prop
  | _, [] => True
  | offset, pkt :: pkts => pkt.fragmentOffset = offset ∧ (pkts ≠ [] → 8 ∣ pkt.payload.length) ∧
      Contiguous (offset + pkt.payload.length) pkts

/-- The fragments of a datagram. -/
structure IsDatagram (src dst : IPv4Addr) (proto : UInt8) (pkts : List IPPacket) : Prop where
  packets : ∀ pkt ∈ pkts, IsIPv4 src dst proto pkt
  contiguous : Contiguous 0 pkts

def reassembled (pkts : List IPPacket) : List UInt8 := pkts.flatMap payload

/-- The place of a field in a piece of a segment. -/
def fieldSite (field offset length : ℕ) : Option ℕ :=
  if offset ≤ field ∧ field - offset + 2 ≤ length then some (field - offset) else none

theorem checksumSite_eq_fieldSite (aligned : 8 ∣ offset) (psz : ℕ) :
    checksumSite proto offset psz = fieldSite (checksumOffset proto) offset psz := by
  have udp : IsUDP proto → checksumOffset proto = 6 := by
    rintro (rfl | rfl)
    · rfl
    · rfl
  rw [checksumSite, fieldSite]
  split_ifs with isUDP elsewhere here here elsewhere here here
  · rw [udp isUDP] at here
    omega
  · rfl
  · rw [udp isUDP] at here ⊢
    congr 1
    omega
  · rw [udp isUDP] at here
    omega
  · omega
  · rfl
  · rfl
  · omega

theorem rewriteAt_append_left {front : List UInt8} (fits : offset + 2 ≤ front.length)
    (back : List UInt8) :
    rewriteAt f (front ++ back) (some offset) = rewriteAt f front (some offset) ++ back := by
  rw [rewriteAt, rewriteField, fieldAt, window_append_left fits]
  exact splice_append_left fits

/-- No field of two bytes at an even place is cut at an even place. -/
theorem rewriteAt_fieldSite_append {field offset : ℕ} (at_word : 2 ∣ field) (aligned : 2 ∣ offset)
    {front : List UInt8} (cut : 2 ∣ front.length) (back : List UInt8) :
    rewriteAt f (front ++ back) (fieldSite field offset (front ++ back).length) =
      rewriteAt f front (fieldSite field offset front.length) ++
        rewriteAt f back (fieldSite field (offset + front.length) back.length) := by
  rw [fieldSite, fieldSite, fieldSite, List.length_append]
  by_cases inFront : offset ≤ field ∧ field - offset + 2 ≤ front.length
  · rw [if_pos inFront, if_pos (by omega), if_neg (by omega), rewriteAt_append_left inFront.2]
    rfl
  · rw [if_neg inFront]
    by_cases inBack : offset + front.length ≤ field ∧
        field - (offset + front.length) + 2 ≤ back.length
    · have place : field - offset = front.length + (field - (offset + front.length)) := by omega
      rw [if_pos inBack, if_pos (by omega), place]
      exact rewriteAt_append_right front back (some _)
    · rw [if_neg inBack, if_neg (by omega)]
      rfl

/-! ### Datagrams -/

/-- What follows the addresses in the pseudo header of IPv4. -/
def pseudoTailV4 (length : ℕ) : List UInt8 := [0, proto] ++ bigEndian 2 length

/-- The checksum of the datagram in the packets verifies. -/
def DatagramVerifies (src dst : IPv4Addr) (proto : UInt8) (pkts : List IPPacket) : Prop :=
  SegmentVerifies (pseudoHeader src dst (pseudoTailV4 proto)) true proto (reassembled pkts)

section Datagram

variable {src dst newSrc newDst : IPv4Addr} {proto : UInt8} {pkts rewritten : List IPPacket}

theorem exists_mapM (packets : ∀ pkt ∈ pkts, IsIPv4 src dst proto pkt) (known : HasChecksum proto) :
    ∃ rewritten, pkts.mapM (updateIPv4Address · newSrc newDst) = .ok rewritten ∧
      List.Forall₂ (Readdressed src dst newSrc newDst proto) pkts rewritten := by
  induction pkts with
  | nil => exact ⟨[], rfl, .nil⟩
  | cons pkt pkts ih =>
    rw [List.forall_mem_cons] at packets
    obtain ⟨new, updates, readdressed⟩ := packets.1.exists_readdressed known newSrc newDst
    obtain ⟨rest, others, all⟩ := ih packets.2
    refine ⟨new :: rest, ?_, .cons readdressed all⟩
    rw [List.mapM_cons, updates, others]
    rfl

/-- The rewritten packets are fragments as before. Their segment has its checksum rewritten as it is
in the fragment that has it. -/
theorem Contiguous.readdressed {offset : ℕ} (contiguous : Contiguous offset pkts)
    (aligned : 8 ∣ offset)
    (all : List.Forall₂ (Readdressed src dst newSrc newDst proto) pkts rewritten) :
    Contiguous offset rewritten ∧ reassembled rewritten =
      rewriteAt (checksumWord (deltaIPv4Checksum src dst newSrc newDst) proto) (reassembled pkts)
        (fieldSite (checksumOffset proto) offset (reassembled pkts).length) := by
  induction all generalizing offset with
  | nil =>
    have none : fieldSite (checksumOffset proto) offset 0 = none := if_neg (by omega)
    refine ⟨trivial, ?_⟩
    show [] = rewriteAt _ [] (fieldSite (checksumOffset proto) offset 0)
    rw [none, rewriteAt]
  | @cons pkt new pkts rest one all ih =>
    obtain ⟨rfl, cut, others⟩ := contiguous
    have length : new.payload.length = pkt.payload.length := by
      rw [one.payload_eq, length_rewriteAt fun _ => checksumSite_fits]
    have payload := one.payload_eq
    rw [checksumSite_eq_fieldSite proto aligned] at payload
    cases all with
    | nil =>
      refine ⟨⟨one.offset_eq, absurd rfl, trivial⟩, ?_⟩
      simp only [reassembled, List.flatMap_cons, List.flatMap_nil, List.append_nil, payload]
    | cons next all =>
      have whole := cut (List.cons_ne_nil _ _)
      have even : 2 ∣ 8 := by decide
      obtain ⟨joined, rewrites⟩ := ih others (dvd_add aligned whole)
      refine ⟨⟨one.offset_eq, fun _ => length ▸ whole, length ▸ joined⟩, ?_⟩
      rw [reassembled, List.flatMap_cons, payload, ← reassembled, rewrites]
      exact (rewriteAt_fieldSite_append (even_checksumOffset proto) (even.trans aligned)
        (even.trans whole) _).symm

theorem even_pseudoTailV4 (proto : UInt8) (length : ℕ) : 2 ∣ (pseudoTailV4 proto length).length := by
  exact ⟨2, rfl⟩

theorem wordSum_pseudoTailV4 (known : HasChecksum proto) (length : ℕ) :
    wordSum (pseudoTailV4 proto length) ≠ 0 := by
  have positive : wordSum [0, proto] ≠ 0 := by
    rcases known with rfl | rfl | rfl | rfl
    all_goals decide
  rw [pseudoTailV4, wordSum_append ⟨1, rfl⟩]
  omega

/-- Packets with new addresses: they are the fragments of a datagram between these, the checksums
of their headers and that of the datagram verify if they did before, and the checksum of UDP
is left out exactly if it was. -/
theorem updateIPv4Address_verifies (datagram : IsDatagram src dst proto pkts)
    (known : HasChecksum proto) (newSrc newDst : IPv4Addr) :
    ∃ rewritten, pkts.mapM (updateIPv4Address · newSrc newDst) = .ok rewritten ∧
      IsDatagram newSrc newDst proto rewritten ∧
      List.Forall₂ (fun pkt new => Verifies pkt.header → Verifies new.header) pkts rewritten ∧
      (DatagramVerifies src dst proto pkts → DatagramVerifies newSrc newDst proto rewritten) ∧
      (IsUDP proto → (fieldAt (reassembled rewritten) (checksumOffset proto) = 0 ↔
        fieldAt (reassembled pkts) (checksumOffset proto) = 0)) := by
  have adjusts := deltaIPv4Checksum_adjusts src dst newSrc newDst
  obtain ⟨rewritten, updates, all⟩ := exists_mapM datagram.packets known
  obtain ⟨contiguous, segment⟩ := datagram.contiguous.readdressed (dvd_zero 8) all
  have packets (new : IPPacket) (member : new ∈ rewritten) : IsIPv4 newSrc newDst proto new := by
    obtain ⟨i, inside, rfl⟩ := List.getElem_of_mem member
    exact (all.get (all.length_eq ▸ inside) inside).isIPv4
  refine ⟨rewritten, updates, ⟨packets, contiguous⟩, all.imp fun _ _ one => one.verifies, ?_, ?_⟩
  · intro verifies
    have fits := verifies.covers.trans verifies.within
    have adjusted := SegmentVerifies.rewriteField ⟨2, rfl⟩ (even_pseudoTailV4 proto)
      (wordSum_pseudoTailV4 known) adjusts verifies
    rw [DatagramVerifies, segment, fieldSite, if_pos ⟨Nat.zero_le _, fits⟩]
    exact adjusted
  · intro udp
    rw [segment, fieldSite]
    split_ifs with here
    · have zero : fieldAt (rewriteField (checksumWord (deltaIPv4Checksum src dst newSrc newDst) proto)
          (reassembled pkts) (checksumOffset proto)) (checksumOffset proto) = _ :=
        fieldAt_rewriteField here.2
      show fieldAt (rewriteField _ _ (checksumOffset proto)) _ = 0 ↔ _
      rw [zero, checksumWord_eq_zero_iff adjusts udp]
    · rfl

end Datagram

/-- A TCP segment from 10.0.0.1 to 10.0.0.2 in two fragments, with its checksum in the second. -/
def exampleFragments : List IPPacket :=
  [⟨[69, 0, 0, 36, 0, 7, 32, 0, 64, 6, 70, 203, 10, 0, 0, 1, 10, 0, 0, 2,
      4, 210, 0, 80, 0, 0, 0, 1, 0, 0, 0, 0, 80, 2, 32, 0]⟩,
    ⟨[69, 0, 0, 28, 0, 7, 0, 2, 64, 6, 102, 209, 10, 0, 0, 1, 10, 0, 0, 2,
      114, 179, 0, 0, 1, 2, 3, 4]⟩]

def exampleAddr (last : UInt8) : IPv4Addr := ⟨[10, 0, 0, last], rfl⟩

theorem updateIPv4Address_verifies_fragments :
    ∃ rewritten, exampleFragments.mapM (updateIPv4Address · (exampleAddr 7) (exampleAddr 8)) =
        .ok rewritten ∧ DatagramVerifies (exampleAddr 7) (exampleAddr 8) 6 rewritten := by
  have datagram : IsDatagram (exampleAddr 1) (exampleAddr 2) 6 exampleFragments := by
    refine ⟨fun pkt member => ?_, by simp [exampleFragments, Contiguous]; decide +kernel⟩
    rcases List.mem_pair.mp member with rfl | rfl
    all_goals constructor
    all_goals decide +kernel
  obtain ⟨rewritten, updates, -, -, verifies, -⟩ :=
    updateIPv4Address_verifies datagram (.inl rfl) (exampleAddr 7) (exampleAddr 8)
  refine ⟨rewritten, updates, verifies ⟨?_, ?_, .inr ⟨?_, ?_⟩⟩⟩
  all_goals decide +kernel

end IPPacket

end Llarp

import Llarp.Net.Checksums

/-!
# Headers of IPv4

A header as a record of its fields. A write at the place of a field sets the field, and new addresses
go with an adjusted checksum.
-/

namespace Llarp

open Foundation List

namespace IPPacket

/-! ### Addresses in a header -/

section Addresses

variable {n : ℕ} {front options : List UInt8} {src dst : AlignedBuffer n} {offset : ℕ}

/-- A header with its addresses. -/
def addressed (front : List UInt8) (src dst : AlignedBuffer n) (options : List UInt8) : List UInt8 :=
  front ++ (src.bytes ++ (dst.bytes ++ options))

theorem addressed_eq :
    addressed front src dst options = front ++ src.bytes ++ (dst.bytes ++ options) :=
  (append_assoc ..).symm

theorem addressed_append (body : List UInt8) :
    addressed front src dst options ++ body = addressed front src dst (options ++ body) := by
  simp only [addressed, append_assoc]

variable (at_front : front.length = offset)

include at_front

theorem length_before_dst : (front ++ src.bytes).length = offset + n := by
  rw [length_append, src.length_eq, at_front]

theorem length_addressed :
    (addressed front src dst options).length = offset + n + n + options.length := by
  rw [addressed_eq, length_append, length_before_dst at_front, length_append, dst.length_eq,
    ← Nat.add_assoc]

theorem window_addressed_src : window (addressed front src dst options) offset n = src.bytes :=
  window_middle at_front src.length_eq

theorem window_addressed_dst :
    window (addressed front src dst options) (offset + n) n = dst.bytes := by
  rw [addressed_eq]
  exact window_middle (length_before_dst at_front) dst.length_eq

theorem splice_addressed_src (new : AlignedBuffer n) :
    splice (addressed front src dst options) offset new.bytes = addressed front new dst options :=
  splice_middle at_front (new.length_eq.trans src.length_eq.symm)

theorem splice_addressed_dst (new : AlignedBuffer n) :
    splice (addressed front src dst options) (offset + n) new.bytes =
      addressed front src new options := by
  rw [addressed_eq, addressed_eq]
  exact splice_middle (length_before_dst at_front) (new.length_eq.trans dst.length_eq.symm)

end Addresses

/-! ### Packets -/

variable (pkt : IPPacket)

/-- The length of the header in bytes. -/
def headerLength : ℕ := (pkt.buf.getD 0 0).toNat % 16 * 4

def header : List UInt8 := pkt.buf.take pkt.headerLength

def payload : List UInt8 := pkt.buf.drop pkt.headerLength

/-- The offset of the payload in the datagram. -/
def fragmentOffset : ℕ := (load16 (window pkt.buf 6 2) &&& 0x1FFF).toNat * 8

/-- An IPv4 packet of this protocol between two addresses, with a header that has all its
fields. -/
structure IsIPv4 (src dst : IPv4Addr) (proto : UInt8) (pkt : IPPacket) : Prop where
  version : (pkt.buf.getD 0 0).toNat / 16 = 4
  complete : 20 ≤ pkt.headerLength
  within : pkt.headerLength ≤ pkt.size
  proto_eq : pkt.buf.getD 9 0 = proto
  src_eq : window pkt.buf 12 4 = src.bytes
  dst_eq : window pkt.buf 16 4 = dst.bytes

section

variable {pkt} (complete : 20 ≤ pkt.size)

include complete

theorem srcv4_eq : pkt.srcv4 = .ok (.copy 4 (window pkt.buf 12 4)) := by
  rw [srcv4, read_eq (by omega)]
  rfl

theorem dstv4_eq : pkt.dstv4 = .ok (.copy 4 (window pkt.buf 16 4)) := by
  rw [dstv4, read_eq (by omega)]
  rfl

theorem ihl_eq : pkt.ihl = .ok ((pkt.buf.getD 0 0).toNat % 16) := by
  rw [ihl, byte_eq (by omega)]
  rfl

theorem isV4_eq : pkt.isV4 = .ok (decide ((pkt.buf.getD 0 0).toNat / 16 = 4)) := by
  rw [isV4, version, byte_eq (by omega)]
  rfl

end

/-- A write before a border. -/
theorem write_head {head body : List UInt8} {offset : ℕ} {bytes : List UInt8}
    (fits : offset + bytes.length ≤ head.length) :
    IPPacket.write ⟨head ++ body⟩ offset bytes = .ok ⟨splice head offset bytes ++ body⟩ := by
  rw [write_eq (by rw [size, length_append]; omega), splice_append_left fits]

/-- The header of a packet of IPv4, with numbers as a little-endian machine reads them. -/
structure HeaderV4 where
  first : UInt8
  tos : UInt8
  len : UInt16
  id : UInt16
  frag : UInt16
  ttl : UInt8
  proto : UInt8
  check : UInt16
  src : IPv4Addr
  dst : IPv4Addr
  options : List UInt8
  version_eq : first.toNat / 16 = 4
  length_eq : first.toNat % 16 * 4 = 20 + options.length

namespace HeaderV4

variable (h : HeaderV4) (body : List UInt8)

/-- What precedes the addresses. -/
def front : List UInt8 :=
  [h.first, h.tos] ++ hostStore16 h.len ++ hostStore16 h.id ++ hostStore16 h.frag ++
    [h.ttl, h.proto] ++ hostStore16 h.check

def bytes : List UInt8 := addressed h.front h.src h.dst h.options

def packet : IPPacket := ⟨h.bytes ++ body⟩

theorem length_bytes : h.bytes.length = 20 + h.options.length := length_addressed rfl

theorem size_packet : (h.packet body).size = 20 + h.options.length + body.length := by
  rw [packet, size, length_append, length_bytes]

theorem large : 20 ≤ (h.packet body).size := by
  rw [size_packet]
  omega

theorem headerLength_packet : (h.packet body).headerLength = h.bytes.length :=
  h.length_eq.trans h.length_bytes.symm

theorem within : (h.packet body).headerLength ≤ (h.packet body).size := by
  rw [headerLength_packet, length_bytes, size_packet]
  exact Nat.le_add_right ..

theorem header_packet : (h.packet body).header = h.bytes := by
  rw [header, headerLength_packet]
  exact take_left

theorem payload_packet : (h.packet body).payload = body := by
  rw [payload, headerLength_packet]
  exact drop_left

theorem window_src : window (h.packet body).buf 12 4 = h.src.bytes := by
  rw [packet, bytes, addressed_append]
  exact window_addressed_src rfl

theorem window_dst : window (h.packet body).buf 16 4 = h.dst.bytes := by
  rw [packet, bytes, addressed_append]
  exact window_addressed_dst rfl

theorem isIPv4_packet : IsIPv4 h.src h.dst h.proto (h.packet body) where
  version := h.version_eq
  complete := by
    rw [headerLength_packet, length_bytes]
    exact Nat.le_add_right ..
  within := h.within body
  proto_eq := rfl
  src_eq := h.window_src body
  dst_eq := h.window_dst body

theorem srcv4_packet : (h.packet body).srcv4 = .ok h.src := by
  rw [srcv4_eq (h.large body), window_src, AlignedBuffer.copy_bytes]

theorem dstv4_packet : (h.packet body).dstv4 = .ok h.dst := by
  rw [dstv4_eq (h.large body), window_dst, AlignedBuffer.copy_bytes]

variable {h body} in
/-- A write into the header sets one of its fields. -/
theorem write_packet {offset : ℕ} {bytes : List UInt8} (h' : HeaderV4)
    (spliced : splice h.bytes offset bytes = h'.bytes) (fits : offset + bytes.length ≤ 20) :
    (h.packet body).write offset bytes = .ok (h'.packet body) := by
  have long := h.length_bytes
  rw [packet, write_head (by omega), spliced, packet]

variable (src dst : IPv4Addr)

theorem write_src : (h.packet body).write 12 src.bytes = .ok ({ h with src }.packet body) :=
  write_packet _ (splice_addressed_src rfl src) (by rw [src.length_eq]; decide)

theorem write_dst : (h.packet body).write 16 dst.bytes = .ok ({ h with dst }.packet body) :=
  write_packet _ (splice_addressed_dst rfl dst) (by rw [dst.length_eq])

/-! ### New addresses -/

/-- The header with new addresses and an adjusted checksum. -/
def readdressed : HeaderV4 :=
  { h with check := deltaIPv4Checksum h.src h.dst src dst h.check, src, dst }

/-- The part of `UpdateIPv4Address` for the header. -/
theorem readdress_packet :
    (do
      let check ← (h.packet body).read 10 2
      let pkt ← (h.packet body).write 10
        (hostStore16 (deltaIPv4Checksum h.src h.dst src dst (hostLoad16 check)))
      let pkt ← pkt.write 12 src.bytes
      pkt.write 16 dst.bytes) = .ok ((h.readdressed src dst).packet body) := by
  let checked : HeaderV4 := { h with check := deltaIPv4Checksum h.src h.dst src dst h.check }
  have check : (h.packet body).read 10 2 = .ok (hostStore16 h.check) :=
    read_eq (le_trans (by decide) (h.large body))
  rw [check, ok_bind, hostLoad16_hostStore16, write_packet checked rfl (by simp), ok_bind,
    checked.write_src]
  exact write_dst _ body dst

theorem wordSum_bytes : wordSum h.bytes = wordSum ([h.first, h.tos] ++ hostStore16 h.len ++
    hostStore16 h.id ++ hostStore16 h.frag ++ [h.ttl, h.proto]) + h.check.toNat +
      (wordSum h.src.bytes + (wordSum h.dst.bytes + wordSum h.options)) := by
  rw [bytes, addressed, wordSum_append ⟨6, rfl⟩, front, wordSum_append ⟨5, rfl⟩,
    wordSum_hostStore16, wordSum_append ⟨2, h.src.length_eq⟩, wordSum_append ⟨2, h.dst.length_eq⟩]

/-- The checksum makes up for the difference of the addresses. -/
theorem verifies_readdressed (verifies : Verifies h.bytes) :
    Verifies (h.readdressed src dst).bytes := by
  have adjusts := (deltaIPv4Checksum_adjusts h.src h.dst src dst).sum h.check
  have old := h.wordSum_bytes
  have new := (h.readdressed src dst).wordSum_bytes
  rw [verifies_iff] at verifies ⊢
  refine ⟨?_, wordSum_ne_zero ?_⟩
  · have before := verifies.1
    simp only [readdressed] at new
    rw [Nat.ModEq] at adjusts before ⊢
    simp only [readdressed]
    omega
  · -- the first byte has the version
    have version := h.version_eq
    rintro (zero : h.first = 0)
    rw [zero] at version
    exact absurd version (by decide)

end HeaderV4

/-! ### The header of a packet -/

/-- The first bytes of a text. -/
theorem take_eq_map {bytes : List UInt8} {n : ℕ} (long : n ≤ bytes.length) :
    bytes.take n = (range n).map (bytes.getD · 0) := by
  refine ext_getElem (by simp [long]) fun i taken _ => ?_
  rw [getElem_take, getElem_map, getElem_range, getD_eq_getElem]

theorem window_append_drop {bytes : List UInt8} (n count : ℕ) :
    window bytes n count ++ bytes.drop (n + count) = bytes.drop n := by
  rw [window, ← drop_drop, take_append_drop]

theorem IsIPv4.exists_header {src dst : IPv4Addr} {proto : UInt8} {pkt : IPPacket}
    (isIPv4 : IsIPv4 src dst proto pkt) :
    ∃ h : HeaderV4, pkt = h.packet pkt.payload ∧ h.src = src ∧ h.dst = dst ∧ h.proto = proto := by
  have complete := isIPv4.complete
  have within : pkt.headerLength ≤ pkt.buf.length := isIPv4.within
  have field (a b : UInt8) : hostStore16 (hostLoad16 [a, b]) = [a, b] := hostStore16_hostLoad16 rfl
  let h : HeaderV4 :=
    { first := pkt.buf.getD 0 0
      tos := pkt.buf.getD 1 0
      len := hostLoad16 [pkt.buf.getD 2 0, pkt.buf.getD 3 0]
      id := hostLoad16 [pkt.buf.getD 4 0, pkt.buf.getD 5 0]
      frag := hostLoad16 [pkt.buf.getD 6 0, pkt.buf.getD 7 0]
      ttl := pkt.buf.getD 8 0
      proto
      check := hostLoad16 [pkt.buf.getD 10 0, pkt.buf.getD 11 0]
      src
      dst
      options := window pkt.buf 20 (pkt.headerLength - 20)
      version_eq := isIPv4.version
      length_eq := by
        rw [length_window (by omega)]
        show pkt.headerLength = _
        omega }
  have front : h.front = pkt.buf.take 12 := by
    rw [take_eq_map (by omega), HeaderV4.front]
    simp only [h, field]
    rw [← isIPv4.proto_eq]
    rfl
  have end_eq : 20 + (pkt.headerLength - 20) = pkt.headerLength := by omega
  have options : window pkt.buf 20 (pkt.headerLength - 20) ++ pkt.payload = _ :=
    end_eq ▸ window_append_drop 20 _
  refine ⟨h, ?_, rfl, rfl, rfl⟩
  rw [HeaderV4.packet, HeaderV4.bytes, front, addressed, append_assoc, append_assoc,
    append_assoc, options, ← isIPv4.src_eq, ← isIPv4.dst_eq, window_append_drop,
    window_append_drop, take_append_drop]

end IPPacket

end Llarp

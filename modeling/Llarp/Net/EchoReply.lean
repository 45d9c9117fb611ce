import Llarp.Net.PacketBounds

/-!
# Replies to echo requests

The dummy interface answers a request by a packet of the same size with the addresses swapped and
new checksums. The checksum of the pseudo header of IPv6 is complemented before it goes into that of
the message, so that it is taken away and not added, and its length is not that of the message.
-/

namespace Llarp

open Foundation IPProtocol List

namespace IPPacket

/-! ### Checksums -/

variable {pkt : IPPacket} {offset : ℕ} {sum : UInt32} {buf : List UInt8} (stray : AlignedBuffer 3)

theorem toNat_ipchksumLoop (fits : sum.toNat + wordSum buf < 2 ^ 32) :
    (ipchksumLoop buf sum).toNat = sum.toNat + wordSum buf := by
  induction buf, sum using ipchksumLoop.induct with
  | case1 a b buf sum ih =>
    have word : (hostLoad16 [a, b]).toUInt32.toNat = a.toNat + 2 ^ 8 * b.toNat := by
      rw [UInt16.toNat_toUInt32, toNat_hostLoad16 rfl]
      rfl
    rw [wordSum] at fits ⊢
    have next : (sum + (hostLoad16 [a, b]).toUInt32).toNat =
        sum.toNat + (a.toNat + 2 ^ 8 * b.toNat) := by
      rw [UInt32.toNat_add, word, Nat.mod_eq_of_lt (by omega)]
    rw [ipchksumLoop, ih (by omega), next]
    omega
  | case2 sum a =>
    rw [wordSum] at fits ⊢
    rw [ipchksumLoop, UInt32.toNat_add, UInt8.toNat_toUInt32, Nat.mod_eq_of_lt fits]
  | case3 sum => rfl

/-- The checksum is the complement of the folded sum. -/
theorem toNat_ipchksum (fits : sum.toNat + wordSum buf < 2 ^ 32) :
    (ipchksum buf sum).toNat + residue (sum.toNat + wordSum buf) = 65535 := by
  have folded := foldCarries_mod (ipchksumLoop buf sum)
  rw [toNat_ipchksumLoop fits] at folded
  have bound := (foldCarries (ipchksumLoop buf sum)).toNat_lt
  have complement : (~~~foldCarries (ipchksumLoop buf sum)).toNat =
      2 ^ 32 - 1 - (foldCarries (ipchksumLoop buf sum)).toNat := UInt32.toNat_not _
  rw [ipchksum, UInt32.toNat_toUInt16, toNat_lowWord, complement]
  omega

/-- The sum of a text that has been completed by its checksum. -/
theorem wordSum_splice_ipchksum (within : offset + 2 ≤ buf.length) (at_word : 2 ∣ offset)
    (cleared : window buf offset 2 = [0, 0]) :
    wordSum (splice buf offset (hostStore16 (ipchksum buf sum))) =
      wordSum buf + (ipchksum buf sum).toNat := by
  have fits : offset + (hostStore16 (ipchksum buf sum)).length ≤ buf.length := within
  have spliced := wordSum_splice fits at_word ⟨1, rfl⟩
  rw [length_hostStore16, cleared, wordSum_hostStore16] at spliced
  exact spliced

/-- A text that has been completed by its checksum verifies. -/
theorem verifies_splice_ipchksum (short : buf.length ≤ 2 ^ 17 - 2)
    (within : offset + 2 ≤ buf.length) (at_word : 2 ∣ offset)
    (cleared : window buf offset 2 = [0, 0]) :
    Verifies (splice buf offset (hostStore16 (ipchksum buf 0))) := by
  have bound := wordSum_le buf
  have zero : (0 : UInt32).toNat = 0 := rfl
  have fits : (0 : UInt32).toNat + wordSum buf < 2 ^ 32 := by omega
  have check := toNat_ipchksum fits
  rw [zero, Nat.zero_add] at check
  have same := residue_modEq (wordSum buf)
  have none := @residue_eq_zero_iff (wordSum buf)
  rw [verifies_iff, wordSum_splice_ipchksum within at_word cleared]
  rw [Nat.ModEq] at same ⊢
  omega

/-! ### Requests and replies -/

/-- A complete echo request of IPv4. -/
structure IsEchoRequestV4 (pkt : IPPacket) : Prop where
  version : (pkt.buf.getD 0 0).toNat / 16 = 4
  complete : 20 ≤ pkt.headerLength
  message : pkt.headerLength + 8 ≤ pkt.size
  length_eq : ofBigEndian (window pkt.buf 2 2) = pkt.size
  proto_eq : pkt.buf.getD 9 0 = IPProtocol.icmp
  type_eq : pkt.buf.getD pkt.headerLength 0 = 8

/-- A complete echo request of IPv6, without extension headers. -/
structure IsEchoRequestV6 (pkt : IPPacket) : Prop where
  version : (pkt.buf.getD 0 0).toNat / 16 = 6
  message : 48 ≤ pkt.size
  length_eq : 40 + ofBigEndian (window pkt.buf 4 2) = pkt.size
  proto_eq : pkt.buf.getD 6 0 = IPProtocol.icmp6
  type_eq : pkt.buf.getD 40 0 = 128

/-- The reply to a request of IPv4: the identifier, the sequence number and the payload are those of
the request. -/
structure IsEchoReplyV4 (pkt reply : IPPacket) : Prop where
  size_eq : reply.size = pkt.size
  first_eq : reply.buf.getD 0 0 = pkt.buf.getD 0 0
  src_eq : window reply.buf 12 4 = window pkt.buf 16 4
  dst_eq : window reply.buf 16 4 = window pkt.buf 12 4
  type_eq : reply.buf.getD pkt.headerLength 0 = 0
  rest_eq : reply.buf.drop (pkt.headerLength + 4) = pkt.buf.drop (pkt.headerLength + 4)
  header_verifies : Verifies (reply.buf.take pkt.headerLength)
  message_verifies : Verifies (reply.buf.drop pkt.headerLength)

/-- What precedes a message in its checksum. -/
def pseudoICMP6 (src dst : List UInt8) (length : ℕ) : List UInt8 :=
  src ++ dst ++ bigEndian 4 length ++ [0, 0, 0, IPProtocol.icmp6]

structure IsEchoReplyV6 (pkt reply : IPPacket) : Prop where
  size_eq : reply.size = pkt.size
  first_eq : reply.buf.getD 0 0 = pkt.buf.getD 0 0
  src_eq : window reply.buf 8 16 = window pkt.buf 24 16
  dst_eq : window reply.buf 24 16 = window pkt.buf 8 16
  type_eq : reply.buf.getD 40 0 = 129
  rest_eq : reply.buf.drop 44 = pkt.buf.drop 44
  message_verifies : Verifies (pseudoICMP6 (window reply.buf 8 16) (window reply.buf 24 16)
    (reply.size - 40) ++ reply.buf.drop 40)

/-! ### Steps -/

section Steps

variable {head body : List UInt8}

/-- A write behind a border. -/
theorem write_body {offset : ℕ} {bytes : List UInt8} (fits : offset + bytes.length ≤ body.length) :
    IPPacket.write ⟨head ++ body⟩ (head.length + offset) bytes =
      .ok ⟨head ++ splice body offset bytes⟩ := by
  rw [write_eq (by rw [size, length_append]; omega),
    splice_append_right (Nat.le_add_right _ _), Nat.add_sub_cancel_left]

/-- The reply starts as a copy. -/
theorem exists_copy {reply pkt : IPPacket} (sized : reply.size = pkt.size) :
    Ends (reply.write 0 pkt.buf) (· = pkt) := by
  have fits : 0 + pkt.buf.length ≤ reply.size := by
    rw [sized, Nat.zero_add, IPPacket.size]
  refine ⟨_, write_eq fits, ?_⟩
  rw [splice_whole sized]

end Steps

/-! ### Messages -/

/-- The payload of every packet with this header starts behind it. -/
def Bordered (head : List UInt8) : Prop :=
  ∀ body ≠ [], payloadOffset ⟨head ++ body⟩ = .ok head.length

section Messages

variable {head body : List UInt8} (bordered : Bordered head)

include bordered

theorem setIcmpType_eq (type value : UInt8) :
    setIcmpType ⟨head ++ type :: body⟩ value = .ok ⟨head ++ value :: body⟩ := by
  have written : IPPacket.write ⟨head ++ type :: body⟩ (head.length + 0) [value] =
      .ok ⟨head ++ splice (type :: body) 0 [value]⟩ :=
    write_body (Nat.succ_le_succ (Nat.zero_le _))
  rw [setIcmpType, bordered _ (cons_ne_nil _ _)]
  exact written

theorem setIcmpCode_eq (type code value : UInt8) :
    setIcmpCode ⟨head ++ type :: code :: body⟩ value = .ok ⟨head ++ type :: value :: body⟩ := by
  have checked : boundsCheck ⟨head ++ type :: code :: body⟩ (head.length + 1) 1 = .ok () := by
    refine if_neg ?_
    rw [IPPacket.size, length_append, length_cons, length_cons]
    omega
  rw [setIcmpCode, bordered _ (cons_ne_nil _ _), ok_bind, checked]
  exact write_body (Nat.succ_le_succ (Nat.succ_le_succ (Nat.zero_le _)))

theorem icmpChecksum_eq (long : 4 ≤ body.length) :
    icmpChecksum ⟨head ++ body⟩ = .ok (head.length + 2) := by
  have checked : boundsCheck ⟨head ++ body⟩ (head.length + 2) 2 = .ok () := by
    refine if_neg ?_
    rw [IPPacket.size, length_append]
    omega
  rw [icmpChecksum, bordered body (ne_nil_of_length_pos (by omega)), ok_bind, checked]
  rfl

omit bordered in
/-- What is behind the header is read. -/
theorem read_body : IPPacket.read ⟨head ++ body⟩ head.length
    (IPPacket.size ⟨head ++ body⟩ - head.length) = .ok body := by
  have size : IPPacket.size ⟨head ++ body⟩ = head.length + body.length := length_append
  rw [size, Nat.add_sub_cancel_left, read_eq size.ge, window, drop_left, take_length]

end Messages

/-! ### Replies of IPv4 -/

theorem isV6_eq (complete : 20 ≤ pkt.size) :
    pkt.isV6 = .ok (decide ((pkt.buf.getD 0 0).toNat / 16 = 6)) := by
  rw [isV6, version, byte_eq (by omega)]
  rfl

theorem payloadOffset_v4 (version : (pkt.buf.getD 0 0).toNat / 16 = 4) (complete : 20 ≤ pkt.size)
    (inside : pkt.headerLength < pkt.size) : pkt.payloadOffset = .ok pkt.headerLength := by
  have checked : pkt.boundsCheck pkt.headerLength 1 = .ok () := if_neg (by omega)
  rw [payloadOffset, isV4_eq complete, isV6_eq complete, decide_eq_true version, ihl_eq complete]
  show (pkt.boundsCheck pkt.headerLength 1 >>= fun _ => pure pkt.headerLength) = _
  rw [checked]
  rfl

namespace HeaderV4

variable (h : HeaderV4) (body : List UInt8)

theorem bordered : Bordered h.bytes := by
  intro body more
  have positive := length_pos_of_ne_nil more
  show (h.packet body).payloadOffset = _
  rw [← h.headerLength_packet body]
  refine payloadOffset_v4 h.version_eq (h.large body) ?_
  rw [headerLength_packet, length_bytes, size_packet]
  omega

theorem read_header :
    (h.packet body).read 0 (h.packet body).headerLength = .ok h.bytes := by
  have size : (h.packet body).size = h.bytes.length + body.length := length_append
  rw [headerLength_packet, read_eq (by omega), window, drop_zero, packet, take_left]

end HeaderV4

theorem makeICMPReply_v4 (h : HeaderV4) (icmp : h.proto = icmp) {rest : List UInt8}
    (short : rest.length ≤ 65535) (type code x y : UInt8) :
    Ends (makeICMPReply stray (h.packet (type :: code :: x :: y :: rest))) fun reply =>
      ∃ (new : HeaderV4) (x y : UInt8), reply = new.packet (0 :: 0 :: x :: y :: rest) ∧
        new.first = h.first ∧ new.options = h.options ∧ new.src = h.dst ∧ new.dst = h.src ∧
        Verifies new.bytes ∧ Verifies (0 :: 0 :: x :: y :: rest) := by
  let body : List UInt8 := 0 :: 0 :: x :: y :: rest
  let message : List UInt8 := 0 :: 0 :: 0 :: 0 :: rest
  let counted : HeaderV4 := { h with id := h.id + 1 }
  let drafted : HeaderV4 := { counted with ttl := h.ttl - 1, frag := 0 }
  let cleared : HeaderV4 := { drafted with check := 0, src := h.dst, dst := h.src }
  let new : HeaderV4 := { cleared with check := ipchksum cleared.bytes 0 }
  have long (x y : UInt8) : 4 ≤ (0 :: 0 :: x :: y :: rest).length := by simp
  obtain ⟨empty, made, sized⟩ := exists_ofSize (h.large (type :: code :: x :: y :: rest))
  obtain ⟨_, copied, rfl⟩ := exists_copy sized
  have isV4 : (h.packet (type :: code :: x :: y :: rest)).isV4 = .ok true := by
    exact congrArg _ (decide_eq_true h.version_eq)
  have typed : (h.packet (type :: code :: x :: y :: rest)).setIcmpType 0 =
      .ok (h.packet (0 :: code :: x :: y :: rest)) := setIcmpType_eq h.bordered type 0
  have coded : (h.packet (0 :: code :: x :: y :: rest)).setIcmpCode 0 = .ok (h.packet body) :=
    setIcmpCode_eq h.bordered 0 code 0
  -- the header
  have zero : [0, 0] = hostStore16 0 := by decide
  have readId : (h.packet body).read 4 2 = .ok (hostStore16 h.id) :=
    read_eq (le_trans (by decide) (h.large body))
  have readTTL : (counted.packet body).byte 8 = .ok h.ttl :=
    byte_eq (lt_of_lt_of_le (by decide) (counted.large body))
  have other : ¬HasChecksum h.proto := by
    rw [icmp]
    decide
  have readdressed := drafted.updateIPv4Address_packet body h.dst h.src
  rw [if_neg other] at readdressed
  have within : (cleared.packet body).headerLength ≤ (h.packet (type :: code :: x :: y :: rest)).size := by
    rw [cleared.headerLength_packet, cleared.length_bytes, h.size_packet]
    exact Nat.le_add_right ..
  -- the message
  have at_check : (new.packet body).icmpChecksum = .ok (new.bytes.length + 2) :=
    icmpChecksum_eq new.bordered (long x y)
  have clears : (new.packet body).write (new.bytes.length + 2) [0, 0] = .ok (new.packet message) :=
    write_body (long x y)
  have offset : (new.packet message).payloadOffset = _ := new.bordered message (cons_ne_nil _ _)
  have reads : (new.packet message).read new.bytes.length
      ((new.packet message).size - new.bytes.length) = .ok message := read_body
  have writes : (new.packet message).write (new.bytes.length + 2) (hostStore16 (ipchksum message 0)) =
      .ok ⟨new.bytes ++ splice message 2 (hostStore16 (ipchksum message 0))⟩ := write_body (long 0 0)
  rw [makeICMPReply, made, ok_bind, copied, ok_bind, isV4, ok_bind, typed, ok_bind, coded,
    ok_bind, readId, ok_bind, hostLoad16_hostStore16, HeaderV4.write_packet counted rfl (by simp),
    ok_bind, readTTL, ok_bind, HeaderV4.write_packet { counted with ttl := h.ttl - 1 } rfl (by simp),
    ok_bind, HeaderV4.write_packet drafted (by rw [zero]; rfl) (by simp), ok_bind, h.dstv4_packet, ok_bind,
    h.srcv4_packet, ok_bind, readdressed, ok_bind, HeaderV4.write_packet cleared (by rw [zero]; rfl) (by simp),
    ok_bind, ihl_eq (cleared.large body), ok_bind, ← headerLength, min_eq_left within,
    cleared.read_header, ok_bind, HeaderV4.write_packet new rfl (by simp), ok_bind, at_check,
    ok_bind, clears, ok_bind, offset, ok_bind, reads]
  have small : cleared.bytes.length ≤ 60 := by
    have length := h.length_eq
    rw [cleared.length_bytes]
    show 20 + h.options.length ≤ 60
    omega
  have verifies : Verifies (splice cleared.bytes 10 (hostStore16 (ipchksum cleared.bytes 0))) :=
    verifies_splice_ipchksum (by omega) (by rw [cleared.length_bytes]; omega) (by decide)
      (by rw [zero]; rfl)
  refine ⟨_, writes, new, _, _, rfl, rfl, rfl, rfl, rfl, verifies, ?_⟩
  refine verifies_splice_ipchksum ?_ (long 0 0) (by decide) rfl
  simp only [length_cons]
  omega

theorem exists_message {body : List UInt8} (long : 4 ≤ body.length) :
    ∃ type code x y rest, body = type :: code :: x :: y :: rest := by
  match body with
  | [] | [_] | [_, _] | [_, _, _] => simp at long
  | type :: code :: x :: y :: rest => exact ⟨type, code, x, y, rest, rfl⟩

theorem ofBigEndian_lt_of_two {bytes : List UInt8} (two : bytes.length = 2) :
    ofBigEndian bytes < 65536 :=
  (ofBigEndian_lt bytes).trans_eq (congrArg (256 ^ ·) two)

theorem exists_packet (version : (pkt.buf.getD 0 0).toNat / 16 = 4)
    (complete : 20 ≤ pkt.headerLength) (within : pkt.headerLength ≤ pkt.size) :
    ∃ h : HeaderV4, pkt = h.packet pkt.payload ∧ h.proto = pkt.buf.getD 9 0 := by
  have size : pkt.buf.length = pkt.size := rfl
  let src : IPv4Addr := ⟨window pkt.buf 12 4, length_window (by omega)⟩
  let dst : IPv4Addr := ⟨window pkt.buf 16 4, length_window (by omega)⟩
  have isIPv4 : IsIPv4 src dst _ pkt := ⟨version, complete, within, rfl, rfl, rfl⟩
  obtain ⟨h, isPacket, -, -, proto⟩ := isIPv4.exists_header
  exact ⟨h, isPacket, proto⟩

theorem IsEchoRequestV4.exists_header (request : IsEchoRequestV4 pkt) :
    ∃ (h : HeaderV4) (type code x y : UInt8) (rest : List UInt8), h.proto = icmp ∧
      pkt = h.packet (type :: code :: x :: y :: rest) ∧ rest.length ≤ 65535 := by
  have complete := request.complete
  have message := request.message
  have size : pkt.buf.length = pkt.size := rfl
  have bodyLength : pkt.payload.length = pkt.size - pkt.headerLength := length_drop
  have small : pkt.size < 65536 := by
    rw [← request.length_eq]
    exact ofBigEndian_lt_of_two (length_window (by omega))
  obtain ⟨h, isPacket, isProto⟩ := exists_packet request.version complete (by omega)
  obtain ⟨type, code, x, y, rest, isMessage⟩ := exists_message (by omega : 4 ≤ pkt.payload.length)
  rw [isMessage] at isPacket bodyLength
  simp only [length_cons] at bodyLength
  exact ⟨h, type, code, x, y, rest, isProto.trans request.proto_eq, isPacket, by omega⟩

theorem IsEchoRequestV4.reply (request : IsEchoRequestV4 pkt) (stray : AlignedBuffer 3) :
    Ends (pkt.makeICMPReply stray) (IsEchoReplyV4 pkt) := by
  obtain ⟨h, type, code, x, y, rest, icmp, rfl, short⟩ := request.exists_header
  obtain ⟨_, ends, new, x', y', rfl, first, options, src, dst, header, message⟩ :=
    makeICMPReply_v4 stray h icmp short type code x y
  have same : new.bytes.length = h.bytes.length := by
    rw [new.length_bytes, h.length_bytes, options]
  refine ⟨_, ends, ?_, first, ?_, ?_, ?_, ?_, ?_, ?_⟩
  · rw [new.size_packet, h.size_packet, options]
    rfl
  · rw [new.window_src, h.window_dst, src]
  · rw [new.window_dst, h.window_src, dst]
  all_goals rw [h.headerLength_packet]
  · rw [← same, HeaderV4.packet, getD_append_right _ _ _ _ le_rfl, Nat.sub_self]
    rfl
  · rw [HeaderV4.packet, HeaderV4.packet, drop_length_add_append, ← same,
      drop_length_add_append]
    rfl
  · rwa [← same, HeaderV4.packet, take_left]
  · rwa [← same, HeaderV4.packet, drop_left]

/-! ### Replies of IPv6 -/

theorem payloadOffset_v6 (version : (pkt.buf.getD 0 0).toNat / 16 = 6) (large : 40 < pkt.size) :
    pkt.payloadOffset = .ok 40 := by
  have complete : 20 ≤ pkt.size := by omega
  have checked : pkt.boundsCheck 40 1 = .ok () := if_neg (by omega)
  rw [payloadOffset, isV4_eq complete, isV6_eq complete, version]
  show (pkt.boundsCheck 40 1 >>= fun _ => pure 40) = _
  rw [checked]
  rfl

/-- The fixed header of an ICMP packet of IPv6. -/
structure HeaderV6 where
  front : AlignedBuffer 6
  hoplimit : UInt8
  src : IPv6Addr
  dst : IPv6Addr
  version_eq : (front.bytes.getD 0 0).toNat / 16 = 6

namespace HeaderV6

variable (h : HeaderV6) (body : List UInt8)

def bytes : List UInt8 :=
  addressed (h.front.bytes ++ [IPProtocol.icmp6, h.hoplimit]) h.src h.dst []

def packet : IPPacket := ⟨h.bytes ++ body⟩

/-- There are no extension headers. -/
def bare : IPv6Packet := ⟨h.front, h.hoplimit, h.src, h.dst, [], IPProtocol.icmp6, body⟩

theorem packet_eq : h.packet body = (h.bare body).encode := by
  rw [packet, bytes, addressed_append]
  rfl

theorem length_bytes : h.bytes.length = 40 := length_addressed (h.bare []).length_start

theorem size_packet : (h.packet body).size = 40 + body.length := by
  rw [packet, size, length_append, length_bytes]

theorem first_packet : (h.packet body).buf.getD 0 0 = h.front.bytes.getD 0 0 := by
  rw [packet, bytes, addressed, append_assoc, append_assoc,
    getD_append _ _ _ _ (by rw [h.front.length_eq]; decide)]

theorem version_packet : ((h.packet body).buf.getD 0 0).toNat / 16 = 6 := by
  rw [first_packet, h.version_eq]

theorem byte_six : (h.packet body).byte 6 = .ok icmp6 := by
  rw [packet_eq]
  exact (h.bare body).byte_next

theorem bordered : Bordered h.bytes := by
  intro body more
  have positive := length_pos_of_ne_nil more
  show (h.packet body).payloadOffset = _
  rw [length_bytes]
  exact payloadOffset_v6 (h.version_packet body) (by rw [size_packet]; omega)

theorem window_src : window (h.packet body).buf 8 16 = h.src.bytes := by
  rw [packet_eq]
  exact (h.bare body).window_src

theorem window_dst : window (h.packet body).buf 24 16 = h.dst.bytes := by
  rw [packet_eq]
  exact (h.bare body).window_dst

theorem read_src : (h.packet body).read 8 16 = .ok h.src.bytes := by
  rw [read_eq (by rw [size_packet]; omega), window_src]

theorem read_dst : (h.packet body).read 24 16 = .ok h.dst.bytes := by
  rw [read_eq (by rw [size_packet]; omega), window_dst]

theorem drop_packet (n : ℕ) : (h.packet body).buf.drop (40 + n) = body.drop n := by
  rw [packet, ← h.length_bytes, drop_length_add_append]

/-- There is no checksum that has to be adjusted in the message. -/
theorem updateIPv6Address_packet (more : body ≠ []) (src dst : IPv6Addr) :
    (h.packet body).updateIPv6Address src dst none = .ok ({ h with src, dst }.packet body) := by
  have positive := length_pos_of_ne_nil more
  have size := h.size_packet body
  have ends : icmp6 ≠ 0 ∧ icmp6 ≠ 43 ∧ icmp6 ≠ 60 ∧
      icmp6 ≠ 44 := by decide
  rw [packet_eq] at size
  rw [packet_eq, packet_eq, (h.bare body).updateIPv6Address_encode (by omega) fun _ => ends]
  rfl

end HeaderV6

/-- The pseudo header as it is put together. -/
def psuedoHdr (src dst : List UInt8) (length : ℕ) : List UInt8 :=
  src ++ dst ++ ((bigEndian 4 length).take 1 ++ stray.bytes) ++ [0, 0, 0, IPProtocol.icmp6]

theorem makeICMPReply_v6 (h : HeaderV6) (rest : List UInt8) (type code x y : UInt8) :
    makeICMPReply stray (h.packet (type :: code :: x :: y :: rest)) =
      .ok ({ h with src := h.dst, dst := h.src }.packet (splice (129 :: 0 :: 0 :: 0 :: rest) 2
        (hostStore16 (ipchksum (129 :: 0 :: 0 :: 0 :: rest)
          (ipchksum (psuedoHdr stray h.dst.bytes h.src.bytes (rest.length + 4)) 0).toUInt32)))) := by
  let new : HeaderV6 := { h with src := h.dst, dst := h.src }
  let body : List UInt8 := 129 :: 0 :: x :: y :: rest
  let message : List UInt8 := 129 :: 0 :: 0 :: 0 :: rest
  let pkt := h.packet (type :: code :: x :: y :: rest)
  have large : 20 ≤ pkt.size := by
    rw [h.size_packet]
    omega
  have long (x y : UInt8) : 4 ≤ (129 :: 0 :: x :: y :: rest).length := by simp
  obtain ⟨empty, made, sized⟩ := exists_ofSize large
  obtain ⟨_, copied, rfl⟩ := exists_copy sized
  have version : (pkt.buf.getD 0 0).toNat / 16 = 6 := h.version_packet _
  have notV4 : pkt.isV4 = .ok false := by rw [isV4_eq large, version]; rfl
  have isV6 : pkt.isV6 = .ok true := by rw [isV6_eq large, version]; rfl
  have isSrc : pkt.srcv6 = .ok h.src := by
    rw [srcv6, isV6]
    rw [h.read_src]
    exact congrArg _ h.src.copy_bytes
  have isDst : pkt.dstv6 = .ok h.dst := by
    rw [dstv6, isV6]
    rw [h.read_dst]
    exact congrArg _ h.dst.copy_bytes
  have typed : pkt.setIcmpType 129 = .ok (h.packet (129 :: code :: x :: y :: rest)) :=
    setIcmpType_eq h.bordered type 129
  have coded : (h.packet (129 :: code :: x :: y :: rest)).setIcmpCode 0 = .ok (h.packet body) :=
    setIcmpCode_eq h.bordered 129 code 0
  have at_check : (new.packet body).icmpChecksum = .ok (new.bytes.length + 2) :=
    icmpChecksum_eq new.bordered (long x y)
  have clears : (new.packet body).write (new.bytes.length + 2) [0, 0] = .ok (new.packet message) :=
    write_body (long x y)
  have offset : (new.packet message).payloadOffset = _ := new.bordered message (cons_ne_nil _ _)
  have reads : (new.packet message).read new.bytes.length
      ((new.packet message).size - new.bytes.length) = .ok message := read_body
  have count : (new.packet message).size - new.bytes.length = rest.length + 4 := by
    rw [new.size_packet, new.length_bytes, Nat.add_sub_cancel_left]
    rfl
  rw [makeICMPReply, made, ok_bind, copied, ok_bind, notV4, ok_bind, isV6,
    ok_bind, typed, ok_bind, coded, ok_bind, isDst, ok_bind, isSrc, ok_bind,
    h.updateIPv6Address_packet _ (cons_ne_nil _ _), ok_bind, at_check, ok_bind, clears, ok_bind,
    offset, new.read_src, new.read_dst, new.byte_six, ok_bind,
    reads, count]
  exact write_body (long 0 0)

/-- The sum of the pseudo header and of what is put in its place. It is a multiple of the modulus if
it makes no difference whether the latter is added or taken away. -/
def pseudoSums (src dst : List UInt8) (length : ℕ) : ℕ :=
  2 * (wordSum src + wordSum dst + 2 ^ 8 * 58) + wordSum (bigEndian 4 length) +
    wordSum (0 :: stray.bytes)

theorem take_one_bigEndian {length : ℕ} (small : length < 2 ^ 24) :
    (bigEndian 4 length).take 1 = [0] := by
  have high : length / 256 ^ 3 = 0 := Nat.div_eq_of_lt small
  rw [bigEndian, high]
  rfl

section Sums

variable {src dst : List UInt8} (srcLength : src.length = 16) (dstLength : dst.length = 16)

include srcLength dstLength

theorem wordSum_pseudo {length : List UInt8} (four : length.length = 4) :
    wordSum (src ++ dst ++ length ++ [0, 0, 0, icmp6]) =
      wordSum src + wordSum dst + wordSum length + 2 ^ 8 * 58 := by
  have even {bytes : List UInt8} {n : ℕ} (is : bytes.length = 2 * n) : 2 ∣ bytes.length := ⟨n, is⟩
  have addresses : (src ++ dst).length = 2 * 16 := by rw [length_append, srcLength, dstLength]
  have whole : (src ++ dst ++ length).length = 2 * 18 := by
    rw [length_append, addresses, four]
  rw [wordSum_append (even whole), wordSum_append (even addresses),
    wordSum_append (even (n := 8) srcLength)]
  rfl

/-- The checksum of a message verifies exactly if the sums cancel. -/
theorem verifies_message_iff (stray : AlignedBuffer 3) {rest : List UInt8}
    (short : rest.length ≤ 65535) {length : ℕ} (small : length < 2 ^ 24) :
    Verifies (pseudoICMP6 src dst length ++
      splice (129 :: 0 :: 0 :: 0 :: rest) 2 (hostStore16 (ipchksum (129 :: 0 :: 0 :: 0 :: rest)
        (ipchksum (psuedoHdr stray src dst length) 0).toUInt32))) ↔
      pseudoSums stray src dst length ≡ 0 [MOD 65535] := by
  let message : List UInt8 := 129 :: 0 :: 0 :: 0 :: rest
  let pseudo : List UInt8 := psuedoHdr stray src dst length
  have messageLength : message.length = rest.length + 4 := rfl
  have pseudoSum : wordSum pseudo =
      wordSum src + wordSum dst + wordSum (0 :: stray.bytes) + 2 ^ 8 * 58 := by
    have four : (0 :: stray.bytes).length = 4 := by rw [length_cons, stray.length_eq]
    have sum := wordSum_pseudo srcLength dstLength four
    show wordSum (psuedoHdr stray src dst length) = _
    rw [psuedoHdr, take_one_bigEndian small]
    exact sum
  have trueSum : wordSum (pseudoICMP6 src dst length) =
      wordSum src + wordSum dst + wordSum (bigEndian 4 length) + 2 ^ 8 * 58 :=
    wordSum_pseudo srcLength dstLength (length_bigEndian 4 length)
  have even : 2 ∣ (pseudoICMP6 src dst length).length := by
    simp [pseudoICMP6, srcLength, dstLength]
  -- no sum exceeds 32 bits
  have bounds := And.intro (wordSum_le message) (And.intro (wordSum_le src) (wordSum_le dst))
  have strayBound := wordSum_le (0 :: stray.bytes)
  rw [length_cons, stray.length_eq] at strayBound
  have zero : (0 : UInt32).toNat = 0 := rfl
  have inner : (0 : UInt32).toNat + wordSum pseudo < 2 ^ 32 := by omega
  have pseudoCheck := toNat_ipchksum inner
  have word : (ipchksum pseudo 0).toUInt32.toNat = (ipchksum pseudo 0).toNat :=
    UInt16.toNat_toUInt32 _
  have outer : (ipchksum pseudo 0).toUInt32.toNat + wordSum message < 2 ^ 32 := by omega
  have check := toNat_ipchksum outer
  have sum : wordSum (splice message 2 (hostStore16 (ipchksum message
      (ipchksum pseudo 0).toUInt32))) = _ :=
    wordSum_splice_ipchksum (by omega) (by decide) rfl
  have innerSame := residue_modEq ((0 : UInt32).toNat + wordSum pseudo)
  have outerSame := residue_modEq ((ipchksum pseudo 0).toUInt32.toNat + wordSum message)
  rw [verifies_iff, wordSum_append even, sum, pseudoSums]
  rw [Nat.ModEq] at innerSame outerSame ⊢
  rw [Nat.ModEq]
  omega

end Sums

theorem IsEchoRequestV6.exists_header (request : IsEchoRequestV6 pkt) :
    ∃ (h : HeaderV6) (type code x y : UInt8) (rest : List UInt8),
      pkt = h.packet (type :: code :: x :: y :: rest) ∧ rest.length ≤ 65535 := by
  have large := request.message
  have size : pkt.buf.length = pkt.size := rfl
  have bodyLength : (pkt.buf.drop 40).length = pkt.size - 40 := length_drop
  have long : 4 ≤ (pkt.buf.drop 40).length := by omega
  obtain ⟨type, code, x, y, rest, isMessage⟩ := exists_message long
  have field := ofBigEndian_lt_of_two (length_window (show 4 + 2 ≤ pkt.buf.length by omega))
  have whole := request.length_eq
  have taken {n : ℕ} (short : n ≤ 40) := take_eq_map (show n ≤ pkt.buf.length by omega)
  let h : HeaderV6 :=
    { front := ⟨pkt.buf.take 6, length_take_of_le (by omega)⟩
      hoplimit := pkt.buf.getD 7 0
      src := ⟨window pkt.buf 8 16, length_window (by omega)⟩
      dst := ⟨window pkt.buf 24 16, length_window (by omega)⟩
      version_eq := by
        show ((pkt.buf.take 6).getD 0 0).toNat / 16 = 6
        rw [taken (by decide)]
        exact request.version }
  refine ⟨h, type, code, x, y, rest, ?_, ?_⟩
  · have start : pkt.buf.take 6 ++ [icmp6, pkt.buf.getD 7 0] = pkt.buf.take 8 := by
      rw [taken (by decide), taken (by decide), ← request.proto_eq]
      rfl
    rw [HeaderV6.packet, ← isMessage, HeaderV6.bytes, start, addressed, append_nil,
      append_assoc, append_assoc, window_append_drop, window_append_drop,
      take_append_drop]
  · rw [isMessage] at bodyLength
    simp only [length_cons] at bodyLength
    omega

/-- What is left to be shown of a reply is that its checksum verifies. -/
theorem IsEchoRequestV6.reply (request : IsEchoRequestV6 pkt) (stray : AlignedBuffer 3) :
    Ends (pkt.makeICMPReply stray) fun reply => IsEchoReplyV6 pkt reply ↔
      pseudoSums stray (window pkt.buf 24 16) (window pkt.buf 8 16) (pkt.size - 40) ≡ 0
        [MOD 65535] := by
  obtain ⟨h, type, code, x, y, rest, rfl, short⟩ := request.exists_header
  have verifies := verifies_message_iff h.dst.length_eq h.src.length_eq stray short
    (show rest.length + 4 < 2 ^ 24 by omega)
  refine ⟨_, makeICMPReply_v6 stray h rest type code x y, ?_⟩
  generalize ipchksum (129 :: 0 :: 0 :: 0 :: rest) _ = check at verifies
  generalize message_eq : splice (129 :: 0 :: 0 :: 0 :: rest) 2 (hostStore16 check) = message at verifies
  let new : HeaderV6 := { h with src := h.dst, dst := h.src }
  have length : message.length = rest.length + 4 := message_eq ▸ rfl
  rw [h.window_src, h.window_dst, h.size_packet, Nat.add_sub_cancel_left]
  refine Iff.trans ?_ verifies
  constructor
  · intro reply
    have right := reply.message_verifies
    rwa [new.window_src, new.window_dst, new.size_packet, Nat.add_sub_cancel_left, length,
      new.drop_packet _ 0] at right
  · intro _
    refine ⟨?_, ?_, ?_, ?_, ?_, ?_, ?_⟩
    · rw [new.size_packet, h.size_packet, length]
      rfl
    · rw [new.first_packet, h.first_packet]
    · rw [new.window_src, h.window_dst]
    · rw [new.window_dst, h.window_src]
    · rw [HeaderV6.packet, getD_append_right _ _ _ _ new.length_bytes.le, new.length_bytes,
        ← message_eq]
      rfl
    · rw [new.drop_packet _ 4, h.drop_packet _ 4, ← message_eq]
      rfl
    · rwa [new.window_src, new.window_dst, new.size_packet, Nat.add_sub_cancel_left, length,
        new.drop_packet _ 0]

/-- A complete echo request. -/
def IsEchoRequest (pkt : IPPacket) : Prop := IsEchoRequestV4 pkt ∨ IsEchoRequestV6 pkt

/-- The reply that belongs to a request. -/
def IsEchoReply (pkt reply : IPPacket) : Prop :=
  if (pkt.buf.getD 0 0).toNat / 16 = 4 then IsEchoReplyV4 pkt reply else IsEchoReplyV6 pkt reply

end IPPacket

namespace DummyInterface

open IPPacket

/-- The destination of a packet is in a range of the interface. -/
def OnLink (netif : DummyInterface) (pkt : IPPacket) : Prop :=
  ∃ dst, pkt.dstaddr = .ok dst ∧ ∃ range ∈ netif.addrs,
    range.isV4 = decide ((pkt.buf.getD 0 0).toNat / 16 = 4) ∧ range.contains dst = true

/-- The interface queues a reply of this kind. -/
def Replies (netif : DummyInterface) (stray : AlignedBuffer 3) (pkt : IPPacket)
    (kind : IPPacket → Prop) : Prop :=
  ∃ reply, netif.writePacket stray pkt =
    .ok (true, { netif with gottenPackets := netif.gottenPackets ++ [reply] }) ∧ kind reply

section Accepts

variable {netif : DummyInterface} {stray : AlignedBuffer 3} {pkt reply : IPPacket}

/-- The checks before a reply is made. -/
theorem writePacket_eq (large : 20 ≤ pkt.size) (onLink : netif.OnLink pkt) {type proto : UInt8}
    (isType : pkt.icmpType = .ok type) (isProto : pkt.protocol = .ok proto)
    (request : (pkt.buf.getD 0 0).toNat / 16 = 4 ∧ proto = icmp ∧ type = 8 ∨
      (pkt.buf.getD 0 0).toNat / 16 = 6 ∧ proto = icmp6 ∧ type = 128) :
    netif.writePacket stray pkt = (do
      let reply ← pkt.makeICMPReply stray
      return (true, { netif with gottenPackets := netif.gottenPackets ++ [reply] })) := by
  obtain ⟨dst, isDst, range, member, family, contains⟩ := onLink
  have found : (netif.addrs.any fun range =>
      range.isV4 == decide ((pkt.buf.getD 0 0).toNat / 16 = 4) && range.contains dst) = true := by
    rw [any_eq_true]
    exact ⟨range, member, by rw [family, contains, beq_self_eq_true, Bool.true_and]⟩
  rw [writePacket, isV4_eq large, isV6_eq large, isType, isProto, isDst]
  rcases request with ⟨version, rfl, rfl⟩ | ⟨version, rfl, rfl⟩
  · rw [version] at found ⊢
    show (if (!netif.addrs.any fun range => range.isV4 == true && range.contains dst) = true then _
      else _) = _
    rw [show (netif.addrs.any fun range => range.isV4 == true && range.contains dst) = true from found]
    rfl
  · rw [version] at found ⊢
    show (if (!netif.addrs.any fun range => range.isV4 == false && range.contains dst) = true then _
      else _) = _
    rw [show (netif.addrs.any fun range => range.isV4 == false && range.contains dst) = true from found]
    rfl

theorem replies_iff_of_ends (kind : IPPacket → Prop) {condition : Prop}
    (written : netif.writePacket stray pkt = (do
      let reply ← pkt.makeICMPReply stray
      return (true, { netif with gottenPackets := netif.gottenPackets ++ [reply] })))
    (ends : Ends (pkt.makeICMPReply stray) fun reply => kind reply ↔ condition) :
    netif.Replies stray pkt kind ↔ condition := by
  obtain ⟨reply, made, isKind⟩ := ends
  rw [made] at written
  constructor
  · rintro ⟨reply', queued, holds⟩
    have same := Except.ok.inj (written.symm.trans queued)
    have queue := congrArg (fun result => result.2.gottenPackets) same
    obtain rfl : reply = reply' := singleton_inj.mp (append_cancel_left queue)
    exact isKind.mp holds
  · exact fun holds => ⟨reply, written, isKind.mpr holds⟩

theorem replies_v4 (request : IsEchoRequestV4 pkt) (onLink : netif.OnLink pkt) :
    netif.Replies stray pkt (IsEchoReplyV4 pkt) := by
  have complete := request.complete
  have message := request.message
  have large : 20 ≤ pkt.size := by omega
  have isType : pkt.icmpType = .ok 8 := by
    rw [icmpType, payloadOffset_v4 request.version large (by omega)]
    show pkt.byte pkt.headerLength = _
    rw [byte_eq (by omega), request.type_eq]
  have isProto : pkt.protocol = .ok icmp := by
    rw [protocol, isV4_eq large, decide_eq_true request.version]
    show pkt.byte 9 = _
    rw [byte_eq (by omega), request.proto_eq]
  have written : netif.writePacket stray pkt = _ := writePacket_eq large onLink isType isProto
    (.inl ⟨request.version, rfl, rfl⟩)
  obtain ⟨reply, made, isReply⟩ := request.reply stray
  exact (replies_iff_of_ends _ written ⟨reply, made, (iff_true_intro isReply)⟩).mpr trivial

theorem replies_v6_iff (request : IsEchoRequestV6 pkt) (onLink : netif.OnLink pkt) :
    netif.Replies stray pkt (IsEchoReplyV6 pkt) ↔
      pseudoSums stray (window pkt.buf 24 16) (window pkt.buf 8 16) (pkt.size - 40) ≡ 0
        [MOD 65535] := by
  have message := request.message
  have large : 20 ≤ pkt.size := by omega
  have isType : pkt.icmpType = .ok 128 := by
    rw [icmpType, payloadOffset_v6 request.version (by omega)]
    show pkt.byte 40 = _
    rw [byte_eq (by omega), request.type_eq]
  have isProto : pkt.protocol = .ok icmp6 := by
    rw [protocol, isV4_eq large, request.version]
    show pkt.byte 6 = _
    rw [byte_eq (by omega), request.proto_eq]
  have written : netif.writePacket stray pkt = _ := writePacket_eq large onLink isType isProto
    (.inr ⟨request.version, rfl, rfl⟩)
  exact replies_iff_of_ends _ written (request.reply stray)

/-- A request for an address on the link is answered as it should be exactly if it is one of IPv4, or
the pseudo header and what is put in its place cancel. -/
theorem replies_iff (request : IsEchoRequest pkt) (onLink : netif.OnLink pkt)
    (stray : AlignedBuffer 3) :
    netif.Replies stray pkt (IsEchoReply pkt) ↔ (pkt.buf.getD 0 0).toNat / 16 = 4 ∨
      pseudoSums stray (window pkt.buf 24 16) (window pkt.buf 8 16) (pkt.size - 40) ≡ 0
        [MOD 65535] := by
  rcases request with request | request
  · have kind : IsEchoReply pkt = IsEchoReplyV4 pkt := by
      funext reply
      rw [IsEchoReply, if_pos request.version]
    rw [kind]
    exact iff_of_true (replies_v4 request onLink) (.inl request.version)
  · have other : ¬(pkt.buf.getD 0 0).toNat / 16 = 4 := by
      rw [request.version]
      decide
    have kind : IsEchoReply pkt = IsEchoReplyV6 pkt := by
      funext reply
      rw [IsEchoReply, if_neg other]
    rw [kind, replies_v6_iff request onLink, or_iff_right other]

end Accepts

/-- An interface with the addresses of `10.0.0.0/24` and `fd00::/64`. -/
def exampleInterface : DummyInterface :=
  ⟨[⟨0xFFFF0A000001#128, IPRange.netmaskIPv6Bits 120⟩,
    ⟨0xFD000000000000000000000000000001#128, IPRange.netmaskIPv6Bits 64⟩], []⟩

/-- A request from `10.0.0.1` to `10.0.0.2`. -/
def exampleEcho : IPPacket :=
  ⟨[69, 0, 0, 30, 0, 1, 0, 0, 64, 1, 102, 220, 10, 0, 0, 1, 10, 0, 0, 2,
    8, 0, 150, 151, 0, 7, 0, 1, 97, 98]⟩

/-- A request from `fd00::1` to `fd00::2`. -/
def exampleEcho6 : IPPacket :=
  ⟨[0x60, 0, 0, 0, 0, 8, 58, 64, 0xFD, 0, 0, 0, 0, 0, 0, 0, 0, 0, 0, 0, 0, 0, 0, 1,
    0xFD, 0, 0, 0, 0, 0, 0, 0, 0, 0, 0, 0, 0, 0, 0, 2, 128, 0, 133, 171, 0, 7, 0, 1]⟩

theorem replies_exampleEcho : exampleInterface.Replies (.zero 3) exampleEcho
    (IsEchoReply exampleEcho) := by
  have request : IsEchoRequestV4 exampleEcho := by
    constructor
    all_goals decide +kernel
  have onLink : exampleInterface.OnLink exampleEcho :=
    ⟨0xFFFF0A000002#128, by decide +kernel, _, mem_cons_self, by decide +kernel⟩
  exact (replies_iff (.inl request) onLink (.zero 3)).mpr (.inl request.version)

/-- Even if the words behind the length happen to be the right ones, the checksum of the reply is
wrong. -/
theorem echo6_reply_has_wrong_checksum :
    IsEchoRequest exampleEcho6 ∧ exampleInterface.OnLink exampleEcho6 ∧
      ¬exampleInterface.Replies ⟨[0, 0, 8], rfl⟩ exampleEcho6 (IsEchoReply exampleEcho6) := by
  have request : IsEchoRequestV6 exampleEcho6 := by
    constructor
    all_goals decide +kernel
  have onLink : exampleInterface.OnLink exampleEcho6 :=
    ⟨0xFD000000000000000000000000000002#128, by decide +kernel, _,
      mem_cons_of_mem _ mem_cons_self, by decide +kernel⟩
  have kind : IsEchoReply exampleEcho6 = IsEchoReplyV6 exampleEcho6 := by
    funext reply
    exact if_neg (by decide)
  refine ⟨.inr request, onLink, ?_⟩
  rw [kind, replies_v6_iff request onLink]
  decide +kernel

end DummyInterface

end Llarp

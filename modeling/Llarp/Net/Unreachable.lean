import Llarp.Net.EchoReply

/-!
# Destination unreachable

The answer to a packet that cannot be delivered has a header of five words, but the message in it
comes behind as many bytes as the header of the packet has.
-/

namespace Llarp

open Foundation

namespace IPPacket

/-- A packet with a destination-unreachable message, which quotes the header of another packet and
the first eight bytes behind it. -/
structure IsUnreachable (pkt reply : IPPacket) : Prop where
  version : (reply.buf.getD 0 0).toNat / 16 = 4
  verifies : Verifies reply.header
  length_eq : ofBigEndian (window reply.buf 2 2) = reply.size
  proto_eq : reply.buf.getD 9 0 = IPProtocol.icmp
  type_eq : reply.payload[0]? = some 3
  message_verifies : Verifies reply.payload
  quotes : reply.payload.drop 8 = pkt.buf.take (pkt.headerLength + 8)

/-- The answer is as it should be. -/
def AnswersUnreachable (pkt : IPPacket) : Prop :=
  ∃ reply, pkt.makeICMPUnreachable = .ok (some reply) ∧ IsUnreachable pkt reply

namespace HeaderV4

variable (h : HeaderV4) (body : List UInt8)

/-- The header of an answer. -/
def answer (check : UInt16) : HeaderV4 :=
  ⟨0x45, 0, hostLoad16 (store16 (UInt16.ofNat ((8 + (20 + h.options.length)) * 2))), 0, 0x40, h.ttl,
    1, check, h.dst, h.src, [], rfl, rfl⟩

/-- What is between the header of an answer and the message. -/
def space : List UInt8 := List.replicate h.options.length 0

/-- The message without its checksum. -/
def message : List UInt8 := [3, 7, 0, 0, 0, 0, 5, 220] ++ (h.bytes ++ body.take 8)

/-- An answer with a message. -/
def answering (check : UInt16) (msg : List UInt8) : IPPacket :=
  (h.answer check).packet (h.space ++ msg)

variable (check : UInt16) (msg : List UInt8)

theorem answering_eq : h.answering check msg = ⟨(h.answer check).bytes ++ h.space ++ msg⟩ := by
  rw [answering, packet, List.append_assoc]

theorem length_before : ((h.answer check).bytes ++ h.space).length = 20 + h.options.length := by
  rw [List.length_append, length_bytes, space, List.length_replicate]
  rfl

theorem write_answering (offset : ℕ) (bytes : List UInt8)
    (fits : offset + bytes.length ≤ msg.length) :
    (h.answering check msg).write (20 + h.options.length + offset) bytes =
      .ok (h.answering check (splice msg offset bytes)) := by
  rw [answering_eq, answering_eq, ← h.length_before check]
  exact write_body fits

theorem makeICMPUnreachable_packet {body : List UInt8} (eight : 8 ≤ body.length) :
    (h.packet body).makeICMPUnreachable = .ok (some
      (h.answering (ipchksum ((h.answer 0).bytes ++ h.space) 0) (splice (h.message body) 2
        (hostStore16 (ipchksum (h.message body) 0))))) := by
  have large := h.large body
  have isV4 : (h.packet body).isV4 = .ok true := by
    rw [isV4_eq large]
    exact congrArg _ (decide_eq_true h.version_eq)
  have ihs : ((h.packet body).buf.getD 0 0).toNat % 16 * 4 = 20 + h.options.length := h.length_eq
  have ttl : (h.packet body).byte 8 = .ok h.ttl := byte_eq (lt_of_lt_of_le (by decide) large)
  let zeros : List UInt8 := List.replicate (20 + h.options.length + 8) 0
  let draft : List UInt8 := h.space ++ (List.replicate 8 0 ++ zeros)
  let blank : HeaderV4 := ⟨0x45, 0, 0, 0, 0, 0, 0, 0, .zero 4, .zero 4, [], rfl, rfl⟩
  let counted : HeaderV4 := { blank with len := (h.answer 0).len }
  have made : ofSize ((8 + (20 + h.options.length)) * 2) = .ok ⟨List.replicate 20 0 ++ draft⟩ := by
    rw [ofSize, if_neg (by rw [minSize]; omega)]
    simp only [draft, zeros, space, List.replicate_append_replicate]
    congr 3
    omega
  -- the header
  have first : IPPacket.write ⟨List.replicate 20 0 ++ draft⟩ 0 [0x45, 0] =
      .ok (blank.packet draft) := by
    have start : splice (List.replicate 20 0) 0 [0x45, 0] = blank.bytes := by decide
    rw [write_head (by simp), start]
    rfl
  have zero : ([0, 0] : List UInt8) = hostStore16 0 := by decide
  have frag : ([0x40, 0] : List UInt8) = hostStore16 0x40 := by decide
  have length (len : UInt16) : store16 len = hostStore16 (hostLoad16 (store16 len)) :=
    (hostStore16_hostLoad16 rfl).symm
  rw [makeICMPUnreachable, isV4, ok_bind, if_pos rfl, ihl_eq large, ok_bind, ihs]
  dsimp only
  rw [made, ok_bind, first, ok_bind, write_packet blank (by rw [zero]; rfl) (by simp), ok_bind,
    write_packet counted (by rw [length]; rfl) (by simp), ok_bind, h.dstv4_packet, ok_bind,
    write_src, ok_bind, h.srcv4_packet, ok_bind, write_dst, ok_bind,
    write_packet { h.answer 0 with ttl := 0, frag := 0 } rfl (by simp), ok_bind, ttl, ok_bind,
    write_packet { h.answer 0 with frag := 0 } rfl (by simp), ok_bind,
    write_packet (h.answer 0) (by rw [frag]; rfl) (by simp), ok_bind]
  -- the message
  have typed : ((h.answer 0).packet draft).write (20 + h.options.length) [3, 7] =
      .ok (h.answering 0 ([3, 7, 0, 0, 0, 0, 0, 0] ++ zeros)) :=
    h.write_answering 0 _ 0 _ (Nat.le_add_left 2 _)
  have cleared : (h.answering 0 ([3, 7, 0, 0, 0, 0, 0, 0] ++ zeros)).write
      (20 + h.options.length + 2) [0, 0, 0, 0] =
        .ok (h.answering 0 ([3, 7, 0, 0, 0, 0, 0, 0] ++ zeros)) :=
    h.write_answering 0 _ 2 _ (Nat.le_add_left 6 _)
  have sized : (h.answering 0 ([3, 7, 0, 0, 0, 0, 0, 0] ++ zeros)).write
      (20 + h.options.length + 6) (store16 1500) =
        .ok (h.answering 0 ([3, 7, 0, 0, 0, 0, 5, 220] ++ zeros)) :=
    h.write_answering 0 _ 6 _ (Nat.le_add_left 8 _)
  have quote : (h.bytes ++ body.take 8).length = zeros.length := by
    rw [List.length_append, h.length_bytes, List.length_take_of_le eight, List.length_replicate]
  have quoted : (h.packet body).read 0 (20 + h.options.length + 8) =
      .ok (h.bytes ++ body.take 8) := by
    rw [read_eq (by rw [h.size_packet]; omega), window, List.drop_zero, ← h.length_bytes,
      packet, List.take_length_add_append]
  have filled : (h.answering 0 ([3, 7, 0, 0, 0, 0, 5, 220] ++ zeros)).write
      (20 + h.options.length + 8) (h.bytes ++ body.take 8) =
        .ok (h.answering 0 (h.message body)) := by
    rw [h.write_answering 0 _ 8 _ (by rw [quote, List.length_append]; exact le_rfl),
      splice_append_right (by decide)]
    exact congrArg (fun quote => Except.ok (h.answering 0 ([3, 7, 0, 0, 0, 0, 5, 220] ++ quote)))
      (splice_whole quote.symm)
  have size : (h.message body).length = 8 + (20 + h.options.length + 8) := by
    rw [message, List.length_append, quote, List.length_replicate]
    rfl
  have header : (h.answering 0 (h.message body)).read 0 (20 + h.options.length) =
      .ok ((h.answer 0).bytes ++ h.space) := by
    rw [answering_eq, ← h.length_before 0, read_eq (by simp [IPPacket.size]),
      window, List.drop_zero, List.take_left]
  generalize check_eq : ipchksum ((h.answer 0).bytes ++ h.space) 0 = check
  have checked : (h.answering 0 (h.message body)).write 10 (hostStore16 check) =
      .ok (h.answering check (h.message body)) := write_packet _ rfl (by simp)
  have icmp : (h.answering check (h.message body)).read (20 + h.options.length)
      (8 + (20 + h.options.length + 8)) = .ok (h.message body) := by
    rw [answering_eq, ← size, ← h.length_before check,
      read_eq List.length_append.ge, window, List.drop_left, List.take_length]
  rw [typed, ok_bind, cleared, ok_bind, sized, ok_bind, quoted, ok_bind, filled, ok_bind, header,
    ok_bind, check_eq, checked, ok_bind, icmp, ok_bind,
    h.write_answering check _ 2 _ (by rw [size, length_hostStore16]; omega), ok_bind]
  rfl

end HeaderV4

/-- The answer is as it should be exactly for packets without options. -/
theorem answersUnreachable_iff (pkt : IPPacket) (version : (pkt.buf.getD 0 0).toNat / 16 = 4)
    (complete : 20 ≤ pkt.headerLength) (eight : pkt.headerLength + 8 ≤ pkt.size) :
    pkt.AnswersUnreachable ↔ pkt.headerLength = 20 := by
  obtain ⟨h, isPacket, -⟩ := exists_packet version complete (by omega)
  have bodyLength : pkt.payload.length = pkt.size - pkt.headerLength := List.length_drop
  have long : 8 ≤ pkt.payload.length := by omega
  generalize pkt.payload = body at isPacket long
  subst isPacket
  rw [AnswersUnreachable, h.makeICMPUnreachable_packet long, h.headerLength_packet, h.length_bytes]
  constructor
  · rintro ⟨_, ⟨⟩, unreachable⟩
    have type := unreachable.type_eq
    rw [HeaderV4.answering, HeaderV4.payload_packet, HeaderV4.space] at type
    cases count : h.options.length with
    | zero => rfl
    | succ n =>
      rw [count] at type
      cases type
  · intro plain
    have none : h.options.length = 0 := by omega
    have space : h.space = [] := by rw [HeaderV4.space, none, List.replicate_zero]
    refine ⟨_, rfl, ?_⟩
    rw [HeaderV4.answering, space, List.append_nil, List.nil_append]
    have quote : (h.bytes ++ body.take 8).length = 28 := by
      rw [List.length_append, h.length_bytes, none, List.length_take_of_le long]
    have size : (h.message body).length = 36 := congrArg (· + 8) quote
    have whole : ofBigEndian (hostStore16 (h.answer 0).len) = 56 := by
      show ofBigEndian (hostStore16 (hostLoad16 (store16 (UInt16.ofNat (_ * 2))))) = _
      rw [none]
      decide
    refine ⟨HeaderV4.version_eq _, ?_, ?_, rfl, ?_, ?_, ?_⟩
    · rw [HeaderV4.header_packet]
      have twenty : (h.answer 0).bytes.length = 20 := HeaderV4.length_bytes _
      have cleared : window (h.answer 0).bytes 10 2 = [0, 0] :=
        (by decide : hostStore16 0 = [0, 0])
      exact verifies_splice_ipchksum (by rw [twenty]; decide) (by rw [twenty]; decide) (by decide)
        cleared
    · rw [HeaderV4.size_packet, length_splice (by rw [size, length_hostStore16]; decide), size]
      exact whole
    all_goals rw [HeaderV4.payload_packet]
    · rfl
    · exact verifies_splice_ipchksum (by rw [size]; decide) (by rw [size]; decide) (by decide) rfl
    · rw [h.headerLength_packet, HeaderV4.packet, List.take_length_add_append]
      rfl

theorem answersUnreachable_plain : AnswersUnreachable ⟨0x45 :: List.replicate 27 0⟩ :=
  (answersUnreachable_iff _ (by decide) (by decide) (by decide)).mpr (by decide)

/-- A header of six words: a word of zeros stands where the message is expected. -/
theorem not_answersUnreachable_options : ∃ reply,
    makeICMPUnreachable ⟨0x46 :: List.replicate 31 0⟩ = .ok (some reply) ∧
      reply.payload[0]? = some 0 ∧ ¬AnswersUnreachable ⟨0x46 :: List.replicate 31 0⟩ := by
  refine ⟨_, rfl, rfl, ?_⟩
  rintro ⟨_, ⟨⟩, unreachable⟩
  cases unreachable.type_eq

end IPPacket

end Llarp

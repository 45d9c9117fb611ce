import Llarp.Service.IntroSetDecode
import Llarp.Service.Protocol
import Llarp.Util.BencodeTake
import Llarp.Util.BencodeWrite

/-!
# Encoding and decoding protocol messages

The inner messages of a frame are written into a buffer one after the other. A message is written as
a whole or the writer fails, and what has been written is decoded to a message with the same payload.
-/

namespace Llarp.Service

open Foundation Bencode WriteBuffer Decoder

theorem length_lt_dict {entries : List (String × List UInt8)} {key : String} {value : List UInt8}
    (member : (key, value) ∈ entries) : value.length < (Bencode.dict entries).length := by
  obtain ⟨before, behind, rfl⟩ := List.mem_iff_append.mp member
  have letter : (ascii "d").length = 1 := by decide
  rw [Bencode.dict, List.flatMap_append, List.flatMap_cons]
  simp only [List.length_append, letter]
  omega

abbrev VanityNonce := AlignedBuffer 16

/-! ### Identities -/

namespace ServiceInfo

variable (vanity : VanityNonce) (info : ServiceInfo)

def bEncode : WriteBuffer → Option WriteBuffer :=
  writeDict <|
    [("e", writeBytestring info.enckey.bytes),
      ("s", writeBytestring info.signkey.bytes),
      ("v", writeUint64 0)] ++
    (if vanity.isZero then [] else [("x", writeBytestring vanity.bytes)])

def encoding : List UInt8 :=
  Bencode.dict <|
    [("e", bytestring info.enckey.bytes),
      ("s", bytestring info.signkey.bytes),
      ("v", uint64 0)] ++
    (if vanity.isZero then [] else [("x", bytestring vanity.bytes)])

theorem writesAll_bEncode : WritesAll (info.bEncode vanity) (info.encoding vanity) := by
  apply writesAll_writeDict
  refine List.rel_append ?_ ?_
  · exact .cons ⟨rfl, writes_writeBytestring _⟩ <| .cons ⟨rfl, writes_writeBytestring _⟩ <|
      .cons ⟨rfl, writes_writeUint64 0⟩ .nil
  · split_ifs
    · exact .nil
    · exact .cons ⟨rfl, writes_writeBytestring _⟩ .nil

theorem takes_bDecode (before info : ServiceInfo) :
    Decoder.Takes bDecode before (info.encoding vanity)
      ({ before with enckey := info.enckey, signkey := info.signkey } : ServiceInfo).updateAddr := by
  set keyed : ServiceInfo := { before with enckey := info.enckey, signkey := info.signkey }
  have keys : Decoder.TakesMembers (.members readers .refuse) before
      [("e", bytestring info.enckey.bytes), ("s", bytestring info.signkey.bytes), ("v", uint64 0)]
      keyed := by
    refine ⟨by decide, _, takes_members rfl (takes_into
      (takes_aligned (by decide) _ info.enckey)), ?_⟩
    refine ⟨by decide, _, takes_members rfl (takes_into
      (takes_aligned (by decide) _ info.signkey)), ?_⟩
    exact ⟨by decide, _, takes_members rfl (takes_integer _ _ 0), rfl⟩
  have nonce : Decoder.TakesMembers (.members readers .refuse) keyed
      (if vanity.isZero then [] else [("x", bytestring vanity.bytes)]) keyed := by
    split_ifs
    · rfl
    · refine ⟨by decide, _, takes_members rfl (takes_string ?_ ?_), rfl⟩
      · rw [vanity.length_eq]
        decide
      · exact if_pos vanity.length_eq
  exact takes_check (takes_dict (keys.append nonce)) rfl

end ServiceInfo

/-! ### Introductions -/

namespace Introduction

def bEncode (intro : Introduction) : WriteBuffer → Option WriteBuffer :=
  writeDict <|
    [("k", writeBytestring intro.router.bytes)] ++
    (if intro.latency > 0 then [("l", writeUint64 intro.latency)] else []) ++
    [("p", writeBytestring intro.pathID.bytes),
      ("v", writeUint64 0),
      ("x", writeUint64 intro.expiresAt)]

def encoding (intro : Introduction) : List UInt8 :=
  Bencode.dict <|
    [("k", bytestring intro.router.bytes)] ++
    (if intro.latency > 0 then [("l", uint64 intro.latency)] else []) ++
    [("p", bytestring intro.pathID.bytes),
      ("v", uint64 0),
      ("x", uint64 intro.expiresAt)]

theorem writesAll_bEncode (intro : Introduction) : WritesAll intro.bEncode intro.encoding := by
  apply writesAll_writeDict
  refine List.rel_append (List.rel_append ?_ ?_) ?_
  · exact .cons ⟨rfl, writes_writeBytestring _⟩ .nil
  · split_ifs
    · exact .cons ⟨rfl, writes_writeUint64 _⟩ .nil
    · exact .nil
  · exact .cons ⟨rfl, writes_writeBytestring _⟩ <| .cons ⟨rfl, writes_writeUint64 0⟩ <|
      .cons ⟨rfl, writes_writeUint64 _⟩ .nil

/-- The times are numbers of 64 bits. -/
structure Timely (intro : Introduction) : Prop where
  latency : intro.latency < 2 ^ 64
  expiresAt : intro.expiresAt < 2 ^ 64

theorem timely_empty : empty.Timely := ⟨by decide, by decide⟩

theorem takes_bDecode {intro : Introduction} (timely : intro.Timely) :
    Decoder.Takes bDecode empty intro.encoding intro := by
  have latency : (UInt64.ofNat intro.latency).toNat = intro.latency :=
    UInt64.toNat_ofNat_of_lt' timely.latency
  have expiresAt : (UInt64.ofNat intro.expiresAt).toNat = intro.expiresAt :=
    UInt64.toNat_ofNat_of_lt' timely.expiresAt
  have router : Decoder.TakesMembers (.members readers .refuse) empty
      [("k", bytestring intro.router.bytes)] { empty with router := intro.router } :=
    ⟨by decide, _, takes_members rfl (takes_into
      (takes_aligned (by decide) _ intro.router)), rfl⟩
  have delay : Decoder.TakesMembers (.members readers .refuse) { empty with router := intro.router }
      (if intro.latency > 0 then [("l", uint64 intro.latency)] else [])
      { empty with router := intro.router, latency := intro.latency } := by
    split_ifs with positive
    · have taken := takes_integer
        (fun latency intro => { intro with latency := latency.toNat })
        { empty with router := intro.router } (UInt64.ofNat intro.latency)
      rw [latency] at taken
      exact ⟨by decide, _, takes_members rfl taken, rfl⟩
    · -- a latency of 0 is that of a new introduction
      rw [Nat.eq_zero_of_not_pos positive]
      rfl
  have rest : Decoder.TakesMembers (.members readers .refuse)
      { empty with router := intro.router, latency := intro.latency }
      [("p", bytestring intro.pathID.bytes), ("v", uint64 0), ("x", uint64 intro.expiresAt)]
      intro := by
    have taken := takes_integer
      (fun expiresAt intro => { intro with expiresAt := expiresAt.toNat })
      { intro with expiresAt := 0 } (UInt64.ofNat intro.expiresAt)
    rw [expiresAt] at taken
    refine ⟨by decide, _, takes_members rfl (takes_into
      (takes_aligned (by decide) _ intro.pathID)), ?_⟩
    refine ⟨by decide, _, takes_members rfl (takes_integer _ _ 0), ?_⟩
    exact ⟨by decide, _, takes_members rfl taken, rfl⟩
  exact takes_dict ((router.append delay).append rest)

end Introduction

/-! ### Messages -/

def ProtocolType.toUInt64 : ProtocolType → UInt64
  | .control => 0
  | .trafficV4 => 1
  | .trafficV6 => 2
  | .exit => 3
  | .auth => 4
  | .quic => 5
  | .other value => value

def ProtocolType.ofUInt64 (value : UInt64) : ProtocolType :=
  if value = 0 then .control
  else if value = 1 then .trafficV4
  else if value = 2 then .trafficV6
  else if value = 3 then .exit
  else if value = 4 then .auth
  else if value = 5 then .quic
  else .other value

namespace ProtocolMessage

/-- A default-constructed message. -/
def empty : ProtocolMessage := ⟨.trafficV4, [], .empty, .empty, .zero 16, 0⟩

/-- The version is read but not kept. -/
def readers : List (String × Decoder ProtocolMessage) :=
  [("a", .integer fun proto msg => { msg with proto := .ofUInt64 proto }),
    ("d", .string fun payload msg => some { msg with payload }),
    ("i", .into introReply (fun introReply msg => { msg with introReply }) Introduction.bDecode),
    ("n", .integer fun seqno msg => { msg with seqno }),
    ("s", .into sender (fun sender msg => { msg with sender }) ServiceInfo.bDecode),
    ("t", .into tag (fun tag msg => { msg with tag }) (.aligned 16)),
    ("v", .integer fun _ msg => msg)]

def bDecode : Decoder ProtocolMessage := .dict (.members readers .refuse)

def bEncode (vanity : VanityNonce) (msg : ProtocolMessage) : WriteBuffer → Option WriteBuffer :=
  writeDict <|
    [("a", writeUint64 msg.proto.toUInt64.toNat)] ++
    (if msg.payload = [] then [] else [("d", writeBytestring msg.payload)]) ++
    [("i", msg.introReply.bEncode),
      ("n", writeUint64 msg.seqno.toNat),
      ("s", msg.sender.bEncode vanity)] ++
    (if msg.tag.isZero then [] else [("t", writeBytestring msg.tag.bytes)]) ++
    [("v", writeUint64 0)]

def encoding (vanity : VanityNonce) (msg : ProtocolMessage) : List UInt8 :=
  Bencode.dict <|
    [("a", uint64 msg.proto.toUInt64.toNat)] ++
    (if msg.payload = [] then [] else [("d", bytestring msg.payload)]) ++
    [("i", msg.introReply.encoding),
      ("n", uint64 msg.seqno.toNat),
      ("s", msg.sender.encoding vanity)] ++
    (if msg.tag.isZero then [] else [("t", bytestring msg.tag.bytes)]) ++
    [("v", uint64 0)]

variable (vanity : VanityNonce) {msg : ProtocolMessage}

theorem writesAll_bEncode (msg : ProtocolMessage) :
    WritesAll (msg.bEncode vanity) (msg.encoding vanity) := by
  apply writesAll_writeDict
  refine List.rel_append (List.rel_append (List.rel_append (List.rel_append ?_ ?_) ?_) ?_) ?_
  · exact .cons ⟨rfl, writes_writeUint64 _⟩ .nil
  · split_ifs
    · exact .nil
    · exact .cons ⟨rfl, writes_writeBytestring _⟩ .nil
  · exact .cons ⟨rfl, msg.introReply.writesAll_bEncode.writes⟩ <|
      .cons ⟨rfl, writes_writeUint64 _⟩ <|
      .cons ⟨rfl, (msg.sender.writesAll_bEncode vanity).writes⟩ .nil
  · split_ifs
    · exact .nil
    · exact .cons ⟨rfl, writes_writeBytestring _⟩ .nil
  · exact .cons ⟨rfl, writes_writeUint64 0⟩ .nil

theorem starts_encoding (msg : ProtocolMessage) : Starts (msg.encoding vanity) :=
  ⟨_, _, rfl, by decide⟩

/-- The message that is decoded from the encoding of another one. -/
def received (msg : ProtocolMessage) : ProtocolMessage :=
  { msg with
    proto := .ofUInt64 msg.proto.toUInt64
    sender := { ServiceInfo.empty with
      enckey := msg.sender.enckey, signkey := msg.sender.signkey }.updateAddr }

theorem takes_bDecode (timely : msg.introReply.Timely) (short : msg.payload.length < 10 ^ 9) :
    Decoder.Takes bDecode empty (msg.encoding vanity) msg.received := by
  set typed : ProtocolMessage := { empty with proto := .ofUInt64 msg.proto.toUInt64 }
  set filled : ProtocolMessage := { typed with payload := msg.payload }
  set named : ProtocolMessage := { msg.received with tag := .zero 16 }
  have proto : Decoder.TakesMembers (.members readers .refuse) empty
      [("a", uint64 msg.proto.toUInt64.toNat)] typed :=
    ⟨by decide, _, takes_members rfl (takes_integer _ _ _), rfl⟩
  have payload : Decoder.TakesMembers (.members readers .refuse) typed
      (if msg.payload = [] then [] else [("d", bytestring msg.payload)]) filled := by
    split_ifs with none
    · show typed = { typed with payload := msg.payload }
      rw [none]
      rfl
    · exact ⟨by decide, _, takes_members rfl (takes_string short rfl), rfl⟩
  have sender : Decoder.TakesMembers (.members readers .refuse) filled
      [("i", msg.introReply.encoding), ("n", uint64 msg.seqno.toNat),
        ("s", msg.sender.encoding vanity)] named := by
    refine ⟨by decide, _, takes_members rfl (takes_into
      (Introduction.takes_bDecode timely)), ?_⟩
    refine ⟨by decide, _, takes_members rfl (takes_integer _ _ _), ?_⟩
    exact ⟨by decide, _, takes_members rfl (takes_into
      (ServiceInfo.takes_bDecode vanity _ msg.sender)), rfl⟩
  have tag : Decoder.TakesMembers (.members readers .refuse) named
      (if msg.tag.isZero then [] else [("t", bytestring msg.tag.bytes)]) msg.received := by
    split_ifs with zero
    · show named = { msg.received with tag := msg.tag }
      rw [AlignedBuffer.eq_zero_of_isZero zero]
    · exact ⟨by decide, _, takes_members rfl (takes_into
        (takes_aligned (by decide) _ msg.tag)), rfl⟩
  have version : Decoder.TakesMembers (.members readers .refuse) msg.received [("v", uint64 0)]
      msg.received :=
    ⟨by decide, _, takes_members rfl (takes_integer _ _ 0), rfl⟩
  exact takes_dict ((((proto.append payload).append sender).append tag).append version)

/-- A message is longer than its payload. -/
theorem length_payload_lt (msg : ProtocolMessage) :
    msg.payload.length < (msg.encoding vanity).length := by
  by_cases none : msg.payload = []
  · obtain ⟨c, rest, written, -⟩ := starts_encoding vanity msg
    rw [none]
    exact Nat.succ_pos _
  · have entry : (bytestring msg.payload).length < (msg.encoding vanity).length := by
      refine length_lt_dict (show ("d", _) ∈ _ from ?_)
      rw [if_neg none]
      simp
    refine lt_of_le_of_lt ?_ entry
    rw [length_bytestring]
    exact Nat.le_add_left ..

end ProtocolMessage

end Llarp.Service

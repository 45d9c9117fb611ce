import Llarp.Foundation.Packing
import Llarp.Service.MessageCodec

/-!
# Packing messages into frames

A list of messages is sent in as few frames as possible: `EncryptAndSign` takes messages from the
front as long as they fit, and is called until there are none left. It fails if the messages that it
has taken fill the buffer, for then there is no room for the end of the list; and it takes none if the
first one does not fit.

It depends on the caller what becomes of the others. `EncryptAndSendTo` gives up on a failure and
calls without end for a message that does not fit. `FlushPendingTraffic` gives up on such a message,
and sends the frame although signing it has failed.
-/

namespace Llarp.Service

open Foundation Bencode WriteBuffer ProtocolMessage ProtocolFrame List

def serviceProtoMessageMaxSize : ℕ := 2048

/-! ### Decoding -/

/-- The result of a decoder, unless it refuses the bytes. -/
def decoded {σ : Type} (decode : Decoder σ) (fresh : σ) (data : List UInt8) : Option σ :=
  match decode fresh (.ofBytes data) with
  | (.accepted, s, _) => some s
  | _ => none

/-- The host with the decoders of messages and of lists of messages. -/
def Host.reading (host : Host) : Host :=
  { host with
    decodeMessage := decoded ProtocolMessage.bDecode .empty
    decodeMessages := decoded (.list .empty ProtocolMessage.bDecode) [] }

/-! ### Encrypting and signing -/

/-- What an endpoint seals frames with. The cipher takes back what it does, a signature is valid, and
a zeroed one is not. -/
structure Sealing (host : Host) where
  pub : ServiceInfo
  vanity : VanityNonce
  sign : List UInt8 → Signature
  sharedKey : SharedSecret
  xchacha20_xchacha20 : ∀ data key nonce,
    host.xchacha20 (host.xchacha20 data key nonce) key nonce = data
  length_xchacha20 : ∀ data key nonce, (host.xchacha20 data key nonce).length = data.length
  verify_sign : ∀ bytes, host.verify pub.signkey bytes (sign bytes) = true
  verify_zero : ∀ bytes, host.verify pub.signkey bytes (.zero 64) = false

variable {host : Host}

namespace Sealing

variable (sealing : Sealing host)

/-- Write messages, as long as they fit. -/
def packMessages : List ProtocolMessage → WriteBuffer → WriteBuffer × List ProtocolMessage
  | [], b => (b, [])
  | msg :: msgs, b =>
    match msg.bEncode sealing.vanity b with
    | none => (b, msg :: msgs)
    | some b => packMessages msgs b

/-- Encrypt a payload and sign the frame with it. -/
def sealFrame (frame : ProtocolFrame) (payload : List UInt8) : Bool × ProtocolFrame :=
  let frame := { frame with
    D := host.xchacha20 payload sealing.sharedKey frame.N
    Z := .zero 64 }
  match fit serviceProtoFrameMaxSize frame.bencode with
  | none => (false, frame)
  | some buf => (true, { frame with Z := sealing.sign buf })

/-- `ProtocolFrame::EncryptAndSign` for several messages: whether it succeeds, what it makes of the
frame, and the messages that it leaves. -/
def encryptAndSign (frame : ProtocolFrame) (msgs : List ProtocolMessage) :
    Bool × ProtocolFrame × List ProtocolMessage :=
  match WriteBuffer.write (ascii "l") ⟨serviceProtoMessageMaxSize, []⟩ with
  | none => (false, frame, msgs)
  | some b =>
    let (b, msgs) := sealing.packMessages msgs b
    match b.finish with
    | none => (false, frame, msgs)
    | some b =>
      let (signed, frame) := sealing.sealFrame frame b.written
      (signed, frame, msgs)

end Sealing

/-- A path and a session over which messages are sent. The nonces of the frames are random. A frame
is taken if the path is ready and the send queue has room. -/
structure Sending (host : Host) extends Sealing host where
  intro : Introduction
  timely : intro.Timely
  tag : ConvoTag
  nonces : ℕ → KeyExchangeNonce
  taken : ℕ → Bool

namespace Sending

variable (sending : Sending host)

/-- The frame with this number, before messages are put in. -/
def newFrame (n : ℕ) : ProtocolFrame where
  C := .zero _
  D := []
  F := sending.intro.pathID
  N := sending.nonces n
  R := 0
  T := sending.tag
  version := 0
  Z := .zero 64

/-- Send a frame before others. -/
def send (n : ℕ) (frame : ProtocolFrame) (frames : List ProtocolFrame) : List ProtocolFrame :=
  if sending.taken n then frame :: frames else frames

/-- The loop of `SendContext::EncryptAndSendTo`. Without an end there is no result. -/
def encryptAndSendLoop : ℕ → ℕ → List ProtocolMessage → Option (List ProtocolFrame)
  | 0, _, _ => none
  | fuel + 1, n, msgs =>
    if msgs = [] then some []
    else
      match sending.encryptAndSign (sending.newFrame n) msgs with
      | (false, _, _) => some []
      | (true, frame, msgs) => (encryptAndSendLoop fuel (n + 1) msgs).map (sending.send n frame)

/-- The loop of `Endpoint::FlushPendingTraffic`, with the number of messages before the last frame. -/
def flushLoop : ℕ → ℕ → ℕ → List ProtocolMessage → Option (List ProtocolFrame)
  | 0, _, _, _ => none
  | fuel + 1, n, initialSz, msgs =>
    if msgs = [] then some []
    else if n ≠ 0 ∧ msgs.length = initialSz then some []
    else
      let (_, frame, rest) := sending.encryptAndSign (sending.newFrame n) msgs
      (flushLoop fuel (n + 1) msgs.length rest).map (sending.send n frame)

/-- The messages of `EncryptAndSendTo`; only the first one has an introduction. -/
def messages (t : ProtocolType) (seqnos : ℕ → Option UInt64) (datas : List (List UInt8)) :
    List ProtocolMessage :=
  datas.mapIdx fun i data =>
    { ProtocolMessage.empty with
      payload := data
      sender := sending.pub
      proto := t
      seqno := (seqnos i).getD 0
      introReply := if i = 0 then sending.intro else .empty }

/-- The messages of `FlushPendingTraffic`. -/
def pendingMessages (seqnos : ℕ → UInt64) (pkts : List (List UInt8 × ProtocolType)) :
    List ProtocolMessage :=
  pkts.mapIdx fun i pkt =>
    { ProtocolMessage.empty with
      payload := pkt.1
      proto := pkt.2
      introReply := sending.intro
      sender := sending.pub
      seqno := seqnos i }

end Sending

/-! ### What is in a frame -/

/-- The payloads that are decrypted from a frame. -/
def ProtocolFrame.payloads (host : Host) (key : SharedSecret) (frame : ProtocolFrame) :
    List (List UInt8) :=
  ((frame.decryptPayload host.reading key).getD []).map (·.payload)

theorem decoded_of_takes {σ : Type} {decode : Decoder σ} {fresh s : σ} {data : List UInt8}
    (takes : Decoder.Takes decode fresh data s) : decoded decode fresh data = some s := by
  have holds : (LlarpBuffer.ofBytes data).rest = data ++ [] := by rw [rest_ofBytes, append_nil]
  rw [decoded, takes (.ofBytes data) [] (Nat.zero_le _) holds]

namespace Sealing

variable {sealing : Sealing host}

variable (sealing) in
def size (msg : ProtocolMessage) : ℕ := (msg.encoding sealing.vanity).length

variable (sealing) in
/-- The message fits a frame on its own. -/
def fits (msg : ProtocolMessage) : Bool :=
  (Bencode.list [msg.encoding sealing.vanity]).length ≤ serviceProtoMessageMaxSize

theorem fits_iff {msg : ProtocolMessage} : sealing.fits msg = true ↔ sealing.size msg < 2047 := by
  have letters : (ascii "l").length = 1 ∧ (ascii "e").length = 1 := by decide
  rw [fits, size, decide_eq_true_iff, Bencode.list, length_append, length_append,
    flatten_singleton, serviceProtoMessageMaxSize]
  omega

variable {msgs batch rest : List ProtocolMessage}

/-- A batch that leaves room has only messages that fit. -/
theorem fits_of_mem (room : totalSize sealing.size batch < 2047) {msg : ProtocolMessage}
    (member : msg ∈ batch) : sealing.fits msg = true :=
  fits_iff.mpr (lt_of_le_of_lt (size_le_totalSize member) room)

theorem packMessages_eq {b : WriteBuffer}
    (filling : Filling sealing.size b.sizeLeft msgs batch rest) :
    sealing.packMessages msgs b =
      (b.append (batch.map (·.encoding sealing.vanity)).flatten, rest) := by
  induction msgs generalizing b batch with
  | nil =>
    obtain ⟨rfl, rfl⟩ := append_eq_nil_iff.mp filling.whole.symm
    rw [packMessages, map_nil, flatten_nil, append, append_nil]
  | cons msg msgs ih =>
    have written : msg.bEncode sealing.vanity b =
        if sealing.size msg ≤ b.sizeLeft then some (b.append (msg.encoding sealing.vanity))
        else none := (msg.writesAll_bEncode sealing.vanity).2 b
    rcases filling.cons_cases with ⟨large, rfl, rfl⟩ | ⟨more, small, rfl, filled⟩
    · rw [if_neg (not_le.mpr large)] at written
      rw [packMessages, written, map_nil, flatten_nil, append, append_nil]
    · rw [if_pos small] at written
      rw [packMessages, written]
      have next : sealing.packMessages msgs (b.append (msg.encoding sealing.vanity)) = _ :=
        ih (by rwa [sizeLeft_append])
      dsimp only
      rw [next, append_append, map_cons, flatten_cons]

/-- An entry that may be missing is at most as long as it can get. -/
theorem length_optional_le (missing : Prop) [Decidable missing] (key : String)
    (value : List UInt8) :
    ((if missing then [] else [(key, value)]).flatMap fun entry =>
      bytestring (ascii entry.1) ++ entry.2).length ≤
        (bytestring (ascii key)).length + value.length := by
  split_ifs
  · exact Nat.zero_le _
  · rw [flatMap_singleton, length_append]

theorem fits_frame {frame : ProtocolFrame} (noCipher : frame.C = .zero _) (noReset : frame.R = 0)
    (version : frame.version = 0) (small : frame.D.length ≤ serviceProtoMessageMaxSize) :
    fit serviceProtoFrameMaxSize frame.bencode = some frame.bencode := by
  have digits : (decimal frame.D.length).length ≤ 4 :=
    length_decimal_le (by decide) (lt_of_le_of_lt small (by decide))
  have none : frame.C.isZero = true := by rw [noCipher, AlignedBuffer.isZero_zero]
  have key : ∀ text ∈ ["A", "D", "F", "N", "T", "V", "Z"], (bytestring (ascii text)).length = 3 := by
    decide
  have fixed : (bytestring (ascii "H")).length = 3 ∧ (uint64 0).length = 3 ∧
      (ascii "d").length = 1 ∧ (ascii "e").length = 1 := by decide
  have buffers : (bytestring frame.F.bytes).length = 19 ∧ (bytestring frame.N.bytes).length = 35 ∧
      (bytestring frame.T.bytes).length = 19 ∧ (bytestring frame.Z.bytes).length = 67 := by
    simp only [length_bytestring_aligned]
    decide
  have data : (bytestring frame.D).length ≤ 2053 := by
    rw [length_bytestring]
    exact Nat.add_le_add (Nat.add_le_add digits le_rfl) small
  refine if_pos ?_
  have dataPart := length_optional_le (frame.D.isEmpty = true) "D" (bytestring frame.D)
  have noncePart := length_optional_le (frame.N.isZero = true) "N" (bytestring frame.N.bytes)
  have tagPart := length_optional_le (frame.T.isZero = true) "T" (bytestring frame.T.bytes)
  rw [key "D" (by decide)] at dataPart
  rw [key "N" (by decide)] at noncePart
  rw [key "T" (by decide)] at tagPart
  rw [bencode, if_pos none, if_pos noReset, version, Bencode.dict]
  simp only [flatMap_append, flatMap_cons, flatMap_nil, length_append,
    length_nil, key "A" (by decide), key "F" (by decide), key "V" (by decide),
    key "Z" (by decide), fixed, buffers, serviceProtoFrameMaxSize, UInt64.toNat_zero]
  omega

theorem length_encodings (batch : List ProtocolMessage) :
    (batch.map (·.encoding sealing.vanity)).flatten.length = totalSize sealing.size batch := by
  rw [length_flatten, map_map]
  rfl

end Sealing

namespace Sending

variable {sending : Sending host} {n : ℕ} {msgs batch rest : List ProtocolMessage}

variable (sending) in
/-- The frame with this number and these messages, before it is signed. -/
def unsignedFrame (n : ℕ) (batch : List ProtocolMessage) : ProtocolFrame :=
  { sending.newFrame n with
    D := host.xchacha20 (Bencode.list (batch.map (·.encoding sending.vanity))) sending.sharedKey
      (sending.nonces n) }

variable (sending) in
def signedFrame (n : ℕ) (batch : List ProtocolMessage) : ProtocolFrame :=
  { sending.unsignedFrame n batch with Z := sending.sign (sending.unsignedFrame n batch).bencode }

theorem fit_unsignedFrame (room : totalSize sending.size batch < 2047) :
    fit serviceProtoFrameMaxSize (sending.unsignedFrame n batch).bencode =
      some (sending.unsignedFrame n batch).bencode := by
  refine Sealing.fits_frame rfl rfl rfl ?_
  have letters : (ascii "l").length = 1 ∧ (ascii "e").length = 1 := by decide
  rw [unsignedFrame, sending.length_xchacha20, Bencode.list, length_append,
    length_append, Sealing.length_encodings, serviceProtoMessageMaxSize]
  omega

theorem sealFrame_eq (room : totalSize sending.size batch < 2047) :
    sending.sealFrame (sending.newFrame n) (Bencode.list (batch.map (·.encoding sending.vanity))) =
      (true, sending.signedFrame n batch) := by
  have whole := fit_unsignedFrame (n := n) room
  rw [unsignedFrame, newFrame] at whole
  rw [Sealing.sealFrame, newFrame]
  rw [whole]
  rfl

theorem start_eq : WriteBuffer.write (ascii "l") ⟨serviceProtoMessageMaxSize, []⟩ =
    some ⟨serviceProtoMessageMaxSize, ascii "l"⟩ := by
  decide

/-- Messages that fill the buffer are lost. -/
theorem encryptAndSign_full (filling : Filling sending.size 2047 msgs batch rest)
    (full : totalSize sending.size batch = 2047) (frame : ProtocolFrame) :
    sending.encryptAndSign frame msgs = (false, frame, rest) := by
  set b : WriteBuffer := ⟨serviceProtoMessageMaxSize, ascii "l"⟩
  have packed : sending.packMessages msgs b = _ := Sealing.packMessages_eq filling
  have left : (b.append (batch.map (·.encoding sending.vanity)).flatten).sizeLeft = 0 := by
    rw [sizeLeft_append, Sealing.length_encodings, full]
    decide
  have fails : (b.append (batch.map (·.encoding sending.vanity)).flatten).finish = none := by
    rw [finish, write, left, if_neg (by decide)]
  rw [Sealing.encryptAndSign, start_eq]
  dsimp only
  rw [packed]
  rw [fails]

theorem encryptAndSign_room (filling : Filling sending.size 2047 msgs batch rest)
    (room : totalSize sending.size batch < 2047) :
    sending.encryptAndSign (sending.newFrame n) msgs =
      (true, sending.signedFrame n batch, rest) := by
  set b : WriteBuffer := ⟨serviceProtoMessageMaxSize, ascii "l"⟩
  have packed : sending.packMessages msgs b = _ := Sealing.packMessages_eq filling
  have ends : (b.append (batch.map (·.encoding sending.vanity)).flatten).finish =
      some ⟨serviceProtoMessageMaxSize, Bencode.list (batch.map (·.encoding sending.vanity))⟩ := by
    rw [finish, write, if_pos]
    · rfl
    · rw [sizeLeft_append, Sealing.length_encodings]
      show 1 ≤ 2047 - _
      omega
  rw [Sealing.encryptAndSign, start_eq]
  dsimp only
  rw [packed]
  rw [ends]
  dsimp only
  rw [sealFrame_eq room]

theorem verify_signedFrame (room : totalSize sending.size batch < 2047) :
    (sending.signedFrame n batch).verify host.reading sending.pub = true := by
  have unsigned : { sending.signedFrame n batch with Z := .zero 64 } =
      sending.unsignedFrame n batch := rfl
  rw [verify, unsigned, fit_unsignedFrame room]
  exact sending.verify_sign _

theorem verify_newFrame (n : ℕ) :
    (sending.newFrame n).verify host.reading sending.pub = false := by
  rw [verify, Option.any_eq_false]
  intro buf _
  exact sending.verify_zero buf

/-- A frame without messages is neither a message nor a list. -/
theorem payloads_newFrame (n : ℕ) : (sending.newFrame n).payloads host sending.sharedKey = [] := by
  have nothing : host.xchacha20 [] sending.sharedKey (sending.nonces n) = [] :=
    length_eq_zero_iff.mp (sending.length_xchacha20 ..)
  show ((decodePayload host.reading
    (host.xchacha20 [] sending.sharedKey (sending.nonces n))).getD []).map _ = []
  rw [nothing]
  rfl

theorem payloads_signedFrame (room : totalSize sending.size batch < 2047)
    (timely : ∀ msg ∈ batch, msg.introReply.Timely) :
    (sending.signedFrame n batch).payloads host sending.sharedKey = batch.map (·.payload) := by
  have short : ∀ msg ∈ batch, msg.payload.length < 10 ^ 9 := by
    intro msg member
    have fits : sending.size msg < 2047 := Sealing.fits_iff.mp (Sealing.fits_of_mem room member)
    exact (msg.length_payload_lt sending.vanity).trans (fits.trans (by decide))
  have taken : decoded (.list .empty bDecode) []
      (Bencode.list (batch.map (·.encoding sending.vanity))) =
        some (batch.map received) :=
    decoded_of_takes (Decoder.takes_listValues (fun msg _ => msg.starts_encoding sending.vanity)
      (fun msg member => takes_bDecode sending.vanity (timely msg member)
        (short msg member)) [])
  have opened : decodePayload host.reading
      (Bencode.list (batch.map (·.encoding sending.vanity))) =
        some (batch.map received) := taken
  show ((decodePayload host.reading (host.xchacha20 (host.xchacha20 _
    sending.sharedKey (sending.nonces n)) sending.sharedKey (sending.nonces n))).getD []).map _ = _
  rw [sending.xchacha20_xchacha20, opened, Option.getD_some, map_map]
  rfl

/-! ### Delivery -/

variable (sending) in
/-- The frames carry the payloads of all messages that fit a frame, and are signed. -/
structure Delivers (frames : List ProtocolFrame) (msgs : List ProtocolMessage) : Prop where
  payloads : frames.flatMap (·.payloads host sending.sharedKey) =
    (msgs.filter sending.fits).map (·.payload)
  signed : ∀ frame ∈ frames, frame.verify host.reading sending.pub = true

variable (sending) in
/-- The loop comes to an end, and what it has sent delivers the messages. -/
def Ends (loop : ℕ → Option (List ProtocolFrame)) (msgs : List ProtocolMessage) : Prop :=
  ∃ fuel frames, loop fuel = some frames ∧ sending.Delivers frames msgs

theorem delivers_nil_iff : sending.Delivers [] msgs ↔ ∀ msg ∈ msgs, sending.fits msg = false := by
  constructor
  · intro delivers msg member
    have none := delivers.payloads
    rw [flatMap_nil, eq_comm, map_eq_nil_iff, filter_eq_nil_iff] at none
    exact Bool.eq_false_of_not_eq_true (none msg member)
  · intro none
    refine ⟨?_, nofun⟩
    rw [flatMap_nil, filter_eq_nil_iff.mpr fun msg member => ?_, map_nil]
    rw [none msg member]
    exact Bool.false_ne_true

variable {frames : List ProtocolFrame}

/-- At most the messages of a list are in the frames. -/
def Bounded (sending : Sending host) (frames : List ProtocolFrame) (msgs : List ProtocolMessage) :
    Prop :=
  (frames.flatMap (·.payloads host sending.sharedKey)).length ≤ (msgs.filter sending.fits).length

/-- What comes of a loop: it does not send more than the messages, and delivers them if `goes`. -/
structure Settles (sending : Sending host) (loop : ℕ → Option (List ProtocolFrame))
    (msgs : List ProtocolMessage) (goes : Prop) : Prop where
  bounded : ∀ fuel frames, loop fuel = some frames → sending.Bounded frames msgs
  ends_iff : sending.Ends loop msgs ↔ goes

section Settles

variable {loop next : ℕ → Option (List ProtocolFrame)} {goes Q : Prop}

/-- A loop that sends nothing. -/
theorem Settles.of_nothing (start : loop 0 = none) (result : ∀ fuel, loop (fuel + 1) = some []) :
    sending.Settles loop msgs (∀ msg ∈ msgs, sending.fits msg = false) := by
  have only (fuel : ℕ) (frames : List ProtocolFrame) (ends : loop fuel = some frames) :
      frames = [] := by
    cases fuel with
    | zero => cases start.symm.trans ends
    | succ fuel => exact Option.some.inj (ends.symm.trans (result fuel))
  refine ⟨fun fuel frames ends => ?_, ?_⟩
  · rw [only fuel frames ends]
    exact Nat.zero_le _
  rw [← delivers_nil_iff]
  constructor
  · rintro ⟨fuel, frames, ends, delivers⟩
    exact only fuel frames ends ▸ delivers
  · exact fun delivers => ⟨1, [], result 0, delivers⟩

/-- A loop that sends one frame before the others. -/
theorem Settles.step {first : List ProtocolFrame → List ProtocolFrame}
    (settles : sending.Settles next rest goes) (start : loop 0 = none)
    (step : ∀ fuel, loop (fuel + 1) = (next fuel).map first)
    (frame : ∀ frames, sending.Bounded frames rest → sending.Bounded (first frames) msgs ∧
      (sending.Delivers (first frames) msgs ↔ Q ∧ sending.Delivers frames rest)) :
    sending.Settles loop msgs (Q ∧ goes) := by
  have of_ends (fuel : ℕ) (frames : List ProtocolFrame) (ends : loop fuel = some frames) :
      ∃ before others, next before = some others ∧ first others = frames := by
    cases fuel with
    | zero => cases start.symm.trans ends
    | succ fuel =>
      rw [step, Option.map_eq_some_iff] at ends
      exact ⟨fuel, ends⟩
  refine ⟨fun fuel frames ends => ?_, ?_⟩
  · obtain ⟨before, others, ended, rfl⟩ := of_ends fuel frames ends
    exact (frame others (settles.bounded before others ended)).1
  rw [← settles.ends_iff]
  constructor
  · rintro ⟨fuel, frames, ends, delivers⟩
    obtain ⟨before, others, ended, rfl⟩ := of_ends fuel frames ends
    obtain ⟨holds, delivers⟩ :=
      (frame others (settles.bounded before others ended)).2.mp delivers
    exact ⟨holds, before, others, ended, delivers⟩
  · rintro ⟨holds, fuel, others, ends, delivers⟩
    refine ⟨fuel + 1, _, ?_, (frame others (settles.bounded fuel others ends)).2.mpr ⟨holds, delivers⟩⟩
    rw [step, ends, Option.map_some]

theorem Settles.congr {goes' : Prop} (settles : sending.Settles loop msgs goes) (same : goes ↔ goes') :
    sending.Settles loop msgs goes' :=
  ⟨settles.bounded, settles.ends_iff.trans same⟩

end Settles

theorem filter_filling (filling : Filling sending.size 2047 msgs batch rest) :
    msgs.filter sending.fits = batch.filter sending.fits ++ rest.filter sending.fits := by
  rw [filling.whole, filter_append]

theorem filter_batch (room : totalSize sending.size batch < 2047) :
    batch.filter sending.fits = batch :=
  filter_eq_self.mpr fun _ => Sealing.fits_of_mem room

section

variable (filling : Filling sending.size 2047 msgs batch rest)

include filling

/-- A frame has at most the messages of its batch. -/
theorem Bounded.send (bounded : sending.Bounded frames rest) {frame : ProtocolFrame}
    (own : (frame.payloads host sending.sharedKey).length ≤ (batch.filter sending.fits).length) :
    sending.Bounded (sending.send n frame frames) msgs := by
  rw [Bounded]
  rw [filter_filling filling, length_append, Sending.send]
  split_ifs
  · rw [flatMap_cons, length_append]
    exact Nat.add_le_add own bounded
  · exact bounded.trans (Nat.le_add_left ..)

/-- A frame delivers its messages, and the other frames the other ones. -/
theorem sends_signedFrame (room : totalSize sending.size batch < 2047)
    (timely : ∀ msg ∈ msgs, msg.introReply.Timely) (bounded : sending.Bounded frames rest) :
    sending.Bounded (sending.send n (sending.signedFrame n batch) frames) msgs ∧
      (sending.Delivers (sending.send n (sending.signedFrame n batch) frames) msgs ↔
        (batch = [] ∨ sending.taken n = true) ∧ sending.Delivers frames rest) := by
  have payloads := payloads_signedFrame (n := n) room fun msg member =>
    timely msg (filling.whole ▸ mem_append_left _ member)
  refine ⟨bounded.send filling (by rw [payloads, filter_batch room, length_map]), ?_⟩
  rw [send]
  split_ifs with taken
  · rw [and_iff_right (.inr taken)]
    constructor
    · rintro ⟨all, signed⟩
      refine ⟨?_, fun frame member => signed frame (mem_cons_of_mem _ member)⟩
      rw [flatMap_cons, payloads, filter_filling filling, filter_batch room,
        map_append] at all
      exact append_cancel_left all
    · rintro ⟨all, signed⟩
      refine ⟨?_, forall_mem_cons.mpr ⟨verify_signedFrame room, signed⟩⟩
      rw [flatMap_cons, payloads, filter_filling filling, filter_batch room,
        map_append, all]
  · by_cases empty : batch = []
    · obtain rfl : msgs = rest := filling.whole.trans (by rw [empty, nil_append])
      rw [and_iff_right (.inl empty)]
    -- the messages of a frame that is not taken are missing
    have positive := length_pos_iff.mpr empty
    refine iff_of_false (fun delivers => ?_) fun both => both.1.elim empty taken
    have size := congrArg length delivers.payloads
    rw [filter_filling filling, filter_batch room, length_map, length_append] at size
    rw [Bounded] at bounded
    omega

theorem timely_rest (timely : ∀ msg ∈ msgs, msg.introReply.Timely) :
    ∀ msg ∈ rest, msg.introReply.Timely :=
  fun msg member => timely msg (filling.whole ▸ mem_append_right _ member)

end

/-! ### `EncryptAndSendTo` -/

theorem encryptAndSendLoop_full (filling : Filling sending.size 2047 msgs batch rest)
    (full : totalSize sending.size batch = 2047) (some : msgs ≠ []) (fuel : ℕ) :
    sending.encryptAndSendLoop (fuel + 1) n msgs = .some [] := by
  rw [encryptAndSendLoop, if_neg some, encryptAndSign_full filling full]

theorem encryptAndSendLoop_room (filling : Filling sending.size 2047 msgs batch rest)
    (room : totalSize sending.size batch < 2047) (some : msgs ≠ []) (fuel : ℕ) :
    sending.encryptAndSendLoop (fuel + 1) n msgs =
      (sending.encryptAndSendLoop fuel (n + 1) rest).map
        (sending.send n (sending.signedFrame n batch)) := by
  rw [encryptAndSendLoop, if_neg some, encryptAndSign_room filling room]

/-- With a message that does not fit the loop goes on and on. -/
theorem encryptAndSendLoop_stuck (filling : Filling sending.size 2047 msgs [] rest)
    (some : msgs ≠ []) (fuel n : ℕ) : sending.encryptAndSendLoop fuel n msgs = none := by
  obtain rfl : msgs = rest := filling.whole
  induction fuel generalizing n with
  | zero => rfl
  | succ fuel ih =>
    rw [encryptAndSendLoop_room filling (Nat.zero_lt_succ 2046) some, ih, Option.map_none]

variable (sending) in
/-- The messages go out, with frames from some number on. They are packed in order, as many as there
is room for. Each frame has room for the end of its list and is taken, up to one that has none, from
which on no message fits a frame. -/
inductive GoesOut : ℕ → List ProtocolMessage → Prop
  | done (n : ℕ) : GoesOut n []
  | frame {n : ℕ} {msgs batch rest : List ProtocolMessage}
      (filling : Filling sending.size 2047 msgs batch rest) (some : batch ≠ [])
      (room : totalSize sending.size batch < 2047) (taken : sending.taken n = true)
      (goes : GoesOut (n + 1) rest) : GoesOut n msgs
  | last {n : ℕ} {msgs batch rest : List ProtocolMessage}
      (filling : Filling sending.size 2047 msgs batch rest)
      (full : totalSize sending.size batch = 2047)
      (none : ∀ msg ∈ msgs, sending.fits msg = false) : GoesOut n msgs

theorem GoesOut.cases (goes : sending.GoesOut n msgs) (some : msgs ≠ [])
    (filling : Filling sending.size 2047 msgs batch rest) :
    (batch ≠ [] ∧ totalSize sending.size batch < 2047 ∧ sending.taken n = true ∧
        sending.GoesOut (n + 1) rest) ∨
      totalSize sending.size batch = 2047 ∧ ∀ msg ∈ msgs, sending.fits msg = false := by
  cases goes with
  | done => exact absurd rfl some
  | frame filled notEmpty room taken goes =>
    obtain ⟨rfl, rfl⟩ := filling.unique filled
    exact .inl ⟨notEmpty, room, taken, goes⟩
  | last filled full none =>
    obtain ⟨rfl, rfl⟩ := filling.unique filled
    exact .inr ⟨full, none⟩

theorem settles_encryptAndSendLoop (timely : ∀ msg ∈ msgs, msg.introReply.Timely) :
    sending.Settles (sending.encryptAndSendLoop · n msgs) msgs (sending.GoesOut n msgs) := by
  induction size : msgs.length using Nat.strong_induction_on generalizing n msgs with
  | _ _ ih =>
    subst size
    by_cases none : msgs = []
    · subst none
      exact (Settles.of_nothing rfl fun _ => rfl).congr (iff_of_true nofun (.done n))
    obtain ⟨batch, rest, filling⟩ := Filling.exists_filling sending.size 2047 msgs
    rcases filling.fits.eq_or_lt with full | room
    · -- the loop gives up
      refine (Settles.of_nothing rfl (encryptAndSendLoop_full filling full none)).congr
        ⟨.last filling full, fun goes => ?_⟩
      rcases goes.cases none filling with ⟨-, room, -⟩ | ⟨-, unfit⟩
      · exact absurd full room.ne
      · exact unfit
    by_cases stuck : batch = []
    · subst stuck
      have never := encryptAndSendLoop_stuck filling none
      refine ⟨fun fuel frames ends => (nomatch (never fuel n).symm.trans ends),
        iff_of_false ?_ fun goes => ?_⟩
      · rintro ⟨fuel, frames, ends, -⟩
        cases (never fuel n).symm.trans ends
      · rcases goes.cases none filling with ⟨some, -⟩ | ⟨full, -⟩
        · exact some rfl
        · exact absurd full room.ne
    · refine ((ih rest.length (filling.length_lt stuck) (timely_rest filling timely) rfl).step rfl
        (encryptAndSendLoop_room filling room none) fun _ =>
          sends_signedFrame filling room timely).congr ⟨?_, fun goes => ?_⟩
      · rintro ⟨taken, goes⟩
        exact .frame filling stuck room (taken.resolve_left stuck) goes
      · rcases goes.cases none filling with ⟨-, -, taken, goes⟩ | ⟨full, -⟩
        · exact ⟨.inr taken, goes⟩
        · exact absurd full room.ne

/-! ### `FlushPendingTraffic` -/

section Flush

variable {initialSz : ℕ}

section

variable (filling : Filling sending.size 2047 msgs batch rest)

include filling

theorem flushLoop_full (full : totalSize sending.size batch = 2047) (some : msgs ≠ [])
    (fresh : ¬(n ≠ 0 ∧ msgs.length = initialSz)) (fuel : ℕ) :
    sending.flushLoop (fuel + 1) n initialSz msgs =
      (sending.flushLoop fuel (n + 1) msgs.length rest).map
        (sending.send n (sending.newFrame n)) := by
  rw [flushLoop, if_neg some, if_neg fresh, encryptAndSign_full filling full]

theorem flushLoop_room (room : totalSize sending.size batch < 2047) (some : msgs ≠ [])
    (fresh : ¬(n ≠ 0 ∧ msgs.length = initialSz)) (fuel : ℕ) :
    sending.flushLoop (fuel + 1) n initialSz msgs =
      (sending.flushLoop fuel (n + 1) msgs.length rest).map
        (sending.send n (sending.signedFrame n batch)) := by
  rw [flushLoop, if_neg some, if_neg fresh, encryptAndSign_room filling room]

/-- The frame that could not be signed must not be taken, and its messages are missing. -/
theorem sends_newFrame {frames : List ProtocolFrame} (bounded : sending.Bounded frames rest) :
    sending.Bounded (sending.send n (sending.newFrame n) frames) msgs ∧
      (sending.Delivers (sending.send n (sending.newFrame n) frames) msgs ↔
        (sending.taken n = false ∧ ∀ msg ∈ batch, sending.fits msg = false) ∧
          sending.Delivers frames rest) := by
  refine ⟨bounded.send filling (by rw [payloads_newFrame]; exact Nat.zero_le _), ?_⟩
  rw [send]
  split_ifs with taken
  · refine iff_of_false (fun delivers => ?_) fun both => ?_
    · have valid := delivers.signed _ mem_cons_self
      rw [verify_newFrame] at valid
      exact Bool.false_ne_true valid
    · rw [taken] at both
      cases both.1.1
  · rw [and_iff_right (Bool.eq_false_of_not_eq_true taken)]
    have unfit_iff : (∀ msg ∈ batch, sending.fits msg = false) ↔ batch.filter sending.fits = [] := by
      simp only [filter_eq_nil_iff, Bool.not_eq_true]
    rw [unfit_iff]
    constructor
    · rintro ⟨all, signed⟩
      have size := congrArg length all
      rw [filter_filling filling, length_map, length_append] at size
      rw [Bounded] at bounded
      have none : batch.filter sending.fits = [] := length_eq_zero_iff.mp (by omega)
      rw [filter_filling filling, none] at all
      exact ⟨none, all, signed⟩
    · rintro ⟨none, all, signed⟩
      refine ⟨?_, signed⟩
      rw [filter_filling filling, none, nil_append, all]

end

variable (sending) in
/-- The messages are flushed, with frames from some number on. They are packed in order, as many as
there is room for. Each frame has room for the end of its list and is taken; or it has none, is not
taken, and is no loss. With a message that is larger than a frame it is all over, which is no loss
either if no message from there on fits a frame. -/
inductive Flushes : ℕ → List ProtocolMessage → Prop
  | done (n : ℕ) : Flushes n []
  | frame {n : ℕ} {msgs batch rest : List ProtocolMessage}
      (filling : Filling sending.size 2047 msgs batch rest) (some : batch ≠ [])
      (room : totalSize sending.size batch < 2047) (taken : sending.taken n = true)
      (flushes : Flushes (n + 1) rest) : Flushes n msgs
  | lost {n : ℕ} {msgs batch rest : List ProtocolMessage}
      (filling : Filling sending.size 2047 msgs batch rest)
      (full : totalSize sending.size batch = 2047) (refused : sending.taken n = false)
      (none : ∀ msg ∈ batch, sending.fits msg = false) (flushes : Flushes (n + 1) rest) :
      Flushes n msgs
  | stuck {n : ℕ} {msgs : List ProtocolMessage} (filling : Filling sending.size 2047 msgs [] msgs)
      (none : ∀ msg ∈ msgs, sending.fits msg = false) : Flushes n msgs

theorem Flushes.cases (flushes : sending.Flushes n msgs) (some : msgs ≠ [])
    (filling : Filling sending.size 2047 msgs batch rest) :
    (batch ≠ [] ∧ totalSize sending.size batch < 2047 ∧ sending.taken n = true ∧
        sending.Flushes (n + 1) rest) ∨
      (totalSize sending.size batch = 2047 ∧ (sending.taken n = false ∧
        ∀ msg ∈ batch, sending.fits msg = false) ∧ sending.Flushes (n + 1) rest) ∨
      batch = [] ∧ ∀ msg ∈ msgs, sending.fits msg = false := by
  cases flushes with
  | done => exact absurd rfl some
  | frame filled notEmpty room taken flushes =>
    obtain ⟨rfl, rfl⟩ := filling.unique filled
    exact .inl ⟨notEmpty, room, taken, flushes⟩
  | lost filled full refused none flushes =>
    obtain ⟨rfl, rfl⟩ := filling.unique filled
    exact .inr (.inl ⟨full, ⟨refused, none⟩, flushes⟩)
  | stuck filled none =>
    obtain ⟨rfl, rfl⟩ := filling.unique filled
    exact .inr (.inr ⟨rfl, none⟩)

theorem settles_flushLoop (timely : ∀ msg ∈ msgs, msg.introReply.Timely)
    (fresh : ¬(n ≠ 0 ∧ msgs.length = initialSz)) :
    sending.Settles (sending.flushLoop · n initialSz msgs) msgs (sending.Flushes n msgs) := by
  induction size : msgs.length using Nat.strong_induction_on generalizing n initialSz msgs with
  | _ _ ih =>
    subst size
    by_cases none : msgs = []
    · subst none
      exact (Settles.of_nothing rfl fun _ => rfl).congr (iff_of_true nofun (.done n))
    obtain ⟨batch, rest, filling⟩ := Filling.exists_filling sending.size 2047 msgs
    have others (some : batch ≠ []) : sending.Settles
        (sending.flushLoop · (n + 1) msgs.length rest) rest (sending.Flushes (n + 1) rest) :=
      ih rest.length (filling.length_lt some) (timely_rest filling timely)
        (fun same => (filling.length_lt some).ne same.2) rfl
    rcases filling.fits.eq_or_lt with full | room
    · have some : batch ≠ [] := by
        rintro rfl
        exact Nat.succ_ne_zero 2046 full.symm
      refine ((others some).step rfl (flushLoop_full filling full none fresh) fun _ =>
        sends_newFrame filling).congr ⟨?_, fun flushes => ?_⟩
      · rintro ⟨⟨refused, unfit⟩, flushes⟩
        exact .lost filling full refused unfit flushes
      · rcases flushes.cases none filling with ⟨-, room, -⟩ | ⟨-, lost⟩ | ⟨empty, -⟩
        · exact absurd full room.ne
        · exact lost
        · exact absurd empty some
    by_cases stuck : batch = []
    · subst stuck
      obtain rfl : msgs = rest := filling.whole
      -- there is one more frame, without messages
      have givesUp (fuel : ℕ) : sending.flushLoop (fuel + 1) (n + 1) msgs.length msgs = some [] := by
        rw [flushLoop, if_neg none, if_pos ⟨Nat.succ_ne_zero n, rfl⟩]
      have nothing : sending.Settles (sending.flushLoop · (n + 1) msgs.length msgs) msgs _ :=
        .of_nothing rfl givesUp
      refine (nothing.step rfl
        (flushLoop_room filling room none fresh) fun _ =>
          sends_signedFrame filling room timely).congr
            ((and_iff_right (.inl rfl)).trans ⟨.stuck filling, fun flushes => ?_⟩)
      rcases flushes.cases none filling with ⟨some, -⟩ | ⟨full, -⟩ | ⟨-, unfit⟩
      · exact absurd rfl some
      · exact absurd full room.ne
      · exact unfit
    · refine ((others stuck).step rfl (flushLoop_room filling room none fresh) fun _ =>
        sends_signedFrame filling room timely).congr ⟨?_, fun flushes => ?_⟩
      · rintro ⟨taken, flushes⟩
        exact .frame filling stuck room (taken.resolve_left stuck) flushes
      · rcases flushes.cases none filling with ⟨-, -, taken, flushes⟩ | ⟨full, -⟩ | ⟨empty, -⟩
        · exact ⟨.inr taken, flushes⟩
        · exact absurd full room.ne
        · exact absurd empty stuck

end Flush

/-! ### Both callers -/

theorem timely_messages (t : ProtocolType) (seqnos : ℕ → Option UInt64)
    (datas : List (List UInt8)) :
    ∀ msg ∈ sending.messages t seqnos datas, msg.introReply.Timely := by
  intro _ member
  obtain ⟨-, -, rfl⟩ := mem_mapIdx.mp member
  split_ifs
  · exact sending.timely
  · exact Introduction.timely_empty

theorem timely_pendingMessages (seqnos : ℕ → UInt64) (pkts : List (List UInt8 × ProtocolType)) :
    ∀ msg ∈ sending.pendingMessages seqnos pkts, msg.introReply.Timely := by
  intro _ member
  obtain ⟨-, -, rfl⟩ := mem_mapIdx.mp member
  exact sending.timely

/-- Payloads are delivered exactly if their messages go out, or are flushed. -/
theorem payloads_delivered_iff (sending : Sending host) :
    (∀ (t : ProtocolType) (seqnos : ℕ → Option UInt64) (datas : List (List UInt8)),
      let msgs := sending.messages t seqnos datas
      sending.Ends (sending.encryptAndSendLoop · 0 msgs) msgs ↔ sending.GoesOut 0 msgs) ∧
    ∀ (seqnos : ℕ → UInt64) (pkts : List (List UInt8 × ProtocolType)),
      let msgs := sending.pendingMessages seqnos pkts
      sending.Ends (sending.flushLoop · 0 msgs.length msgs) msgs ↔ sending.Flushes 0 msgs :=
  ⟨fun t seqnos datas => (settles_encryptAndSendLoop (timely_messages t seqnos datas)).ends_iff,
    fun seqnos pkts => (settles_flushLoop (timely_pendingMessages seqnos pkts) fun h => h.1 rfl).ends_iff⟩

/-! ### Payloads that are not delivered -/

def exampleKey : PubKey := .copy 32 [1]

def exampleSending : Sending plainHost where
  pub := plainService exampleKey
  vanity := .zero 16
  sign _ := .copy 64 (exampleKey.bytes ++ exampleKey.bytes)
  sharedKey := .zero 32
  xchacha20_xchacha20 _ _ _ := rfl
  length_xchacha20 _ _ _ := rfl
  verify_sign _ := by
    have same : (.copy 64 (exampleKey.bytes ++ exampleKey.bytes) : Signature) =
      .copy 64 (exampleKey.bytes ++ exampleKey.bytes) := rfl
    exact decide_eq_true same
  verify_zero _ := by
    have other : (.zero 64 : Signature) ≠ .copy 64 (exampleKey.bytes ++ exampleKey.bytes) := by decide
    exact decide_eq_false other
  intro := .empty
  timely := Introduction.timely_empty
  tag := .zero 16
  nonces _ := .zero 32
  taken _ := true

/-- A payload that is larger than a frame. -/
def largeMessages : List ProtocolMessage :=
  exampleSending.messages .trafficV4 (fun _ => none) [List.replicate 2048 0]

/-- Two payloads that fill a frame. -/
def fillingMessages : List ProtocolMessage :=
  exampleSending.messages .trafficV4 (fun _ => none) [List.replicate 800 0, List.replicate 865 0]

/-- A payload that is larger than a frame, and one that is not. -/
def pendingExample : List ProtocolMessage :=
  exampleSending.pendingMessages (fun _ => 0)
    [(List.replicate 2048 0, .trafficV4), ([1], .trafficV4)]

theorem filling_of_large {msg : ProtocolMessage} (large : 2047 ≤ msg.payload.length)
    (msgs : List ProtocolMessage) :
    Filling sending.size 2047 (msg :: msgs) [] (msg :: msgs) :=
  .of_large (lt_of_le_of_lt large (msg.length_payload_lt sending.vanity))

/-- A payload that is larger than a frame is tried again without end. Two payloads that fill a frame
are lost. When pending traffic is flushed, a payload behind one that is too large is lost. -/
theorem large_and_filling_payloads_not_delivered :
    ¬exampleSending.Ends (exampleSending.encryptAndSendLoop · 0 largeMessages) largeMessages ∧
    ¬exampleSending.Ends (exampleSending.encryptAndSendLoop · 0 fillingMessages) fillingMessages ∧
    ¬exampleSending.Ends (exampleSending.flushLoop · 0 pendingExample.length pendingExample)
      pendingExample := by
  refine ⟨?_, ?_, ?_⟩
  · intro ends
    have goes : exampleSending.GoesOut 0 largeMessages :=
      (settles_encryptAndSendLoop (timely_messages _ _ _)).ends_iff.mp ends
    have filling : Filling exampleSending.size 2047 largeMessages [] largeMessages :=
      filling_of_large (by decide +kernel) []
    rcases goes.cases (by decide +kernel) filling with ⟨some, -⟩ | ⟨full, -⟩
    · exact some rfl
    · exact absurd full (by decide +kernel)
  · intro ends
    have goes : exampleSending.GoesOut 0 fillingMessages :=
      (settles_encryptAndSendLoop (timely_messages _ _ _)).ends_iff.mp ends
    have full : totalSize exampleSending.size fillingMessages = 2047 := by decide +kernel
    have filling : Filling exampleSending.size 2047 fillingMessages fillingMessages [] :=
      ⟨(append_nil _).symm, full.le, nofun⟩
    rcases goes.cases (by decide +kernel) filling with ⟨-, room, -⟩ | ⟨-, unfit⟩
    · exact room.ne full
    · exact absurd unfit (by decide +kernel)
  · intro ends
    have flushes : exampleSending.Flushes 0 pendingExample :=
      (settles_flushLoop (timely_pendingMessages _ _) fun h => h.1 rfl).ends_iff.mp ends
    have filling : Filling exampleSending.size 2047 pendingExample [] pendingExample :=
      filling_of_large (by decide +kernel) _
    rcases flushes.cases (by decide +kernel) filling with ⟨some, -⟩ | ⟨full, -⟩ | ⟨-, unfit⟩
    · exact some rfl
    · exact absurd full (by decide +kernel)
    · exact absurd unfit (by decide +kernel)

end Sending

end Llarp.Service

import Llarp.Dns.Name

/-!
# Messages

A message is a header with four counts, questions and records. Only questions and answers are written
and read; the other records of a decoded message have default values. The name of a record is written
as any name is, but two bytes are skipped in its place when a record is read.
-/

namespace Llarp.Dns

open Foundation Reader

/-! ### Data of records -/

variable (v : List UInt8) (bytes : List UInt8) (datagram : List UInt8)

def encodeRData : Encoder :=
  if v.length > 65536 then .refuse
  else
    -- the length is cut to 16 bits
    let len := v.length.toUInt16
    (Encoder.put (store16 len)).seq (.put (v.take len.toNat))

def decodeRData : Reader (List UInt8) :=
  readUInt16.bind fun len cur =>
    if cur.sizeLeft < len.toNat then (none, cur)
    else (some (cur.rest.take len.toNat), cur.advance len.toNat)

/-! ### Questions and records -/

structure Question where
  qname : List UInt8
  qtype : UInt16
  qclass : UInt16
  deriving DecidableEq

namespace Question

def encode (question : Question) : Encoder :=
  (encodeNameTo question.qname).seq
    ((Encoder.put (store16 question.qtype)).seq (.put (store16 question.qclass)))

def decode (behind : UInt8) : Reader Question :=
  (decodeName behind).bind fun qname =>
  readUInt16.bind fun qtype =>
  readUInt16.bind fun qclass =>
  .done ⟨qname, qtype, qclass⟩

end Question

structure ResourceRecord where
  rrName : List UInt8 := []
  rrType : UInt16 := 0
  rrClass : UInt16 := 0
  ttl : UInt32 := 0
  rData : List UInt8 := []
  deriving DecidableEq

namespace ResourceRecord

def encode (record : ResourceRecord) : Encoder :=
  (encodeNameTo record.rrName).seq
    ((Encoder.put (store16 record.rrType)).seq
    ((Encoder.put (store16 record.rrClass)).seq
    ((Encoder.put (store32 record.ttl)).seq (encodeRData record.rData))))

def decode : Reader ResourceRecord :=
  readUInt16.bind fun _ =>
  readUInt16.bind fun rrType =>
  readUInt16.bind fun rrClass =>
  readUInt32.bind fun ttl =>
  decodeRData.bind fun rData =>
  .done { rrType, rrClass, ttl, rData }

end ResourceRecord

/-! ### Messages -/

structure MessageHeader where
  id : UInt16
  fields : UInt16
  qdCount : UInt16
  anCount : UInt16
  nsCount : UInt16
  arCount : UInt16

namespace MessageHeader

/-- Each count has its own check, which comes to the same as one for all. -/
def encode (hdr : MessageHeader) : Encoder :=
  Encoder.each (fun field => .put (store16 field))
    [hdr.id, hdr.fields, hdr.qdCount, hdr.anCount, hdr.nsCount, hdr.arCount]

def decode : Reader MessageHeader :=
  readUInt16.bind fun id =>
  readUInt16.bind fun fields =>
  readUInt16.bind fun qdCount =>
  readUInt16.bind fun anCount =>
  readUInt16.bind fun nsCount =>
  readUInt16.bind fun arCount =>
  .done ⟨id, fields, qdCount, anCount, nsCount, arCount⟩

end MessageHeader

structure Message where
  hdrId : UInt16
  hdrFields : UInt16
  questions : List Question
  answers : List ResourceRecord
  authorities : List ResourceRecord := []
  additional : List ResourceRecord := []
  deriving DecidableEq

namespace Message

def header (msg : Message) : MessageHeader :=
  ⟨msg.hdrId, msg.hdrFields, msg.questions.length.toUInt16, msg.answers.length.toUInt16, 0, 0⟩

def encode (msg : Message) : Encoder :=
  msg.header.encode.seq
    ((Encoder.each Question.encode msg.questions).seq
      (.each ResourceRecord.encode msg.answers))

/-- `Message(hdr)` and `Message::Decode`. -/
def decode (behind : UInt8) (hdr : MessageHeader) : Reader Message :=
  ((Question.decode behind).times hdr.qdCount.toNat).bind fun questions =>
  (ResourceRecord.decode.times hdr.anCount.toNat).bind fun answers =>
  .done
    { hdrId := hdr.id
      hdrFields := hdr.fields
      questions
      answers
      authorities := List.replicate hdr.nsCount.toNat {}
      additional := List.replicate hdr.arCount.toNat {} }

end Message

/-- `MaybeParseDNSMessage`, with the place where the cursor is left. -/
def maybeParseDNSMessage (behind : UInt8) (datagram : List UInt8) : Option Message × Cursor :=
  MessageHeader.decode.bind (Message.decode behind) ⟨datagram, 0⟩

/-! ### Shapes of what is encoded -/

def rDataShape : Shape :=
  if v.length > 65536 then .refuse
  else (Shape.put (store16 v.length.toUInt16)).seq (.put (v.take v.length.toUInt16.toNat))

def Question.shape (question : Question) : Shape :=
  (nameShape question.qname).seq
    ((Shape.put (store16 question.qtype)).seq (.put (store16 question.qclass)))

def ResourceRecord.shape (record : ResourceRecord) : Shape :=
  (nameShape record.rrName).seq
    ((Shape.put (store16 record.rrType)).seq
    ((Shape.put (store16 record.rrClass)).seq
    ((Shape.put (store32 record.ttl)).seq (rDataShape record.rData))))

def MessageHeader.shape (hdr : MessageHeader) : Shape :=
  Shape.each (fun field => .put (store16 field))
    [hdr.id, hdr.fields, hdr.qdCount, hdr.anCount, hdr.nsCount, hdr.arCount]

def Message.shape (msg : Message) : Shape :=
  msg.header.shape.seq
    ((Shape.each Question.shape msg.questions).seq (.each ResourceRecord.shape msg.answers))

theorem describes_encodeRData : Describes (rDataShape v) (encodeRData v) := by
  rw [rDataShape, encodeRData]
  split_ifs
  · exact .refuse
  · exact (Describes.put _).seq (.put _)

theorem Question.describes (question : Question) : Describes question.shape question.encode :=
  (describes_encodeNameTo _).seq ((Describes.put _).seq (.put _))

theorem ResourceRecord.describes (record : ResourceRecord) :
    Describes record.shape record.encode :=
  (describes_encodeNameTo _).seq ((Describes.put _).seq ((Describes.put _).seq
    ((Describes.put _).seq (describes_encodeRData _))))

theorem Message.describes (msg : Message) : Describes msg.shape msg.encode :=
  (Describes.each (fun _ => .put _) _).seq
    ((Describes.each Question.describes _).seq (.each ResourceRecord.describes _))

/-! ### Readers that stay within the datagram -/

/-- The reader does not depend on the byte behind the datagram, and leaves the cursor within. -/
def Steady {α : Type} (read : UInt8 → Reader α) (bytes : List UInt8) : Prop :=
  ∃ value rest, ∀ behind, read behind ⟨bytes, 0⟩ = (value, ⟨rest, 0⟩)

theorem Steady.bind {α β : Type} {first : UInt8 → Reader α} {second : UInt8 → α → Reader β}
    {bytes : List UInt8} (steady : Steady first bytes)
    (next : ∀ a rest, Steady (fun behind => second behind a) rest) :
    Steady (fun behind => (first behind).bind (second behind)) bytes := by
  obtain ⟨value, rest, isFirst⟩ := steady
  cases value with
  | none => exact ⟨none, rest, fun behind => bind_none (isFirst behind)⟩
  | some a =>
    obtain ⟨value, rest', isSecond⟩ := next a rest
    exact ⟨value, rest', fun behind => (bind_some (isFirst behind)).trans (isSecond behind)⟩

theorem steady_done {α : Type} (a : α) (bytes : List UInt8) :
    Steady (fun _ => done a) bytes :=
  ⟨some a, bytes, fun _ => rfl⟩

theorem steady_readUInt16 : Steady (fun _ => readUInt16) bytes := by
  by_cases short : bytes.length < 2
  · exact ⟨none, bytes, fun _ => readUInt16_short short 0⟩
  · exact ⟨some (load16 bytes), bytes.drop 2, fun _ => readUInt16_eq short 0⟩

theorem steady_readUInt32 : Steady (fun _ => readUInt32) bytes := by
  by_cases short : bytes.length < 4
  · exact ⟨none, bytes, fun _ => if_pos short⟩
  · exact ⟨some (load32 bytes), bytes.drop 4, fun _ => if_neg short⟩

theorem steady_decodeRData : Steady (fun _ => decodeRData) bytes := by
  refine Steady.bind (steady_readUInt16 bytes) fun len rest => ?_
  by_cases short : rest.length < len.toNat
  · exact ⟨none, rest, fun _ => if_pos short⟩
  · exact ⟨some (rest.take len.toNat), rest.drop len.toNat, fun _ => if_neg short⟩

theorem steady_times {α : Type} {read : UInt8 → Reader α} (steady : ∀ bytes, Steady read bytes)
    (n : ℕ) (bytes : List UInt8) : Steady (fun behind => (read behind).times n) bytes := by
  induction n generalizing bytes with
  | zero => exact steady_done [] bytes
  | succ n ih =>
    exact (steady bytes).bind fun a rest => (ih rest).bind fun as => steady_done (a :: as)

theorem steady_record : Steady (fun _ => ResourceRecord.decode) bytes :=
  (steady_readUInt16 bytes).bind fun _ bytes =>
  (steady_readUInt16 bytes).bind fun _ bytes =>
  (steady_readUInt16 bytes).bind fun _ bytes =>
  (steady_readUInt32 bytes).bind fun _ bytes =>
  (steady_decodeRData bytes).bind fun _ bytes => steady_done _ bytes

/-! ### Names that run out -/

/-- The name of one of the questions ends behind a label with the datagram. -/
inductive RunsOut : ℕ → List UInt8 → Prop where
  | here {n : ℕ} {labels : List (List UInt8)} (sized : Sized labels) (nonempty : labels ≠ []) :
      RunsOut (n + 1) (wireLabels labels)
  | later {n : ℕ} {labels : List (List UInt8)} {typeAndClass rest : List UInt8}
      (sized : Sized labels) (size : typeAndClass.length = 4) (runsOut : RunsOut n rest) :
      RunsOut (n + 1) (wireLabels labels ++ 0 :: (typeAndClass ++ rest))

namespace Question

variable (behind : UInt8) {labels : List (List UInt8)} {typeAndClass : List UInt8}

theorem decode_complete (rest : List UInt8) (sized : Sized labels)
    (size : typeAndClass.length = 4) :
    decode behind ⟨wireLabels labels ++ 0 :: (typeAndClass ++ rest), 0⟩ =
      (some ⟨dotted labels, load16 typeAndClass, load16 (typeAndClass.drop 2)⟩, ⟨rest, 0⟩) := by
  obtain ⟨a, b, c, d, rfl⟩ : ∃ a b c d, typeAndClass = [a, b, c, d] := by
    match typeAndClass, size with
    | [a, b, c, d], _ => exact ⟨a, b, c, d, rfl⟩
  rw [decode, bind_some (decodeName_complete behind ([a, b, c, d] ++ rest) sized)]
  rfl

theorem decode_cut (sized : Sized labels) (nonempty : labels ≠ []) :
    decode behind ⟨wireLabels labels, 0⟩ = (none, ⟨[], 1⟩) := by
  have isName := decodeName_cut behind sized nonempty
  -- the type of the question is missing, even if the byte behind the datagram is zero
  split_ifs at isName
  · exact bind_some isName
  · exact bind_none isName

/-- A question is complete, or its name runs out, or the decoder fails within the datagram. -/
theorem decode_cases (bytes : List UInt8) :
    (∃ labels typeAndClass rest, Sized labels ∧ typeAndClass.length = 4 ∧
      bytes = wireLabels labels ++ 0 :: (typeAndClass ++ rest)) ∨
    (∃ labels, Sized labels ∧ labels ≠ [] ∧ bytes = wireLabels labels) ∨
    ∃ rest, ∀ behind, decode behind ⟨bytes, 0⟩ = (none, ⟨rest, 0⟩) := by
  obtain ⟨labels, sized, rfl | ⟨rest, rfl⟩ | ⟨l, rest, rfl, nonzero, short⟩⟩ :=
    wireLabels_cases bytes
  · by_cases nonempty : labels = []
    · subst nonempty
      exact .inr (.inr ⟨[], fun behind => rfl⟩)
    · exact .inr (.inl ⟨labels, sized, nonempty, rfl⟩)
  · have named := fun behind => decodeName_complete behind rest sized
    by_cases four : rest.length < 4
    · refine .inr (.inr ?_)
      by_cases two : rest.length < 2
      · refine ⟨rest, fun behind => (bind_some (named behind)).trans ?_⟩
        exact bind_none (readUInt16_short two 0)
      · have one : (rest.drop 2).length < 2 := by rw [List.length_drop]; omega
        refine ⟨rest.drop 2, fun behind => (bind_some (named behind)).trans ?_⟩
        exact (bind_some (readUInt16_eq two 0)).trans
          (bind_none (readUInt16_short one 0))
    · refine .inl ⟨labels, rest.take 4, rest.drop 4, sized, List.length_take_of_le (by omega), ?_⟩
      rw [List.take_append_drop]
  · exact .inr (.inr ⟨rest, fun behind =>
      bind_none (decodeName_short behind rest sized nonzero short)⟩)

end Question

theorem RunsOut.times_decode {n : ℕ} {bytes : List UInt8} (runsOut : RunsOut n bytes)
    (behind : UInt8) : (Question.decode behind).times n ⟨bytes, 0⟩ = (none, ⟨[], 1⟩) := by
  induction runsOut with
  | here sized nonempty => exact bind_none (Question.decode_cut behind sized nonempty)
  | later sized size _ ih =>
    exact (bind_some (Question.decode_complete behind _ sized size)).trans
      (bind_none ih)

theorem steady_questions {n : ℕ} {bytes : List UInt8} (complete : ¬RunsOut n bytes) :
    Steady (fun behind => (Question.decode behind).times n) bytes := by
  induction n generalizing bytes with
  | zero => exact steady_done [] bytes
  | succ n ih =>
    obtain ⟨labels, typeAndClass, rest, sized, size, rfl⟩ | ⟨labels, sized, nonempty, rfl⟩ |
      ⟨rest, fails⟩ := Question.decode_cases bytes
    · have first := fun behind => Question.decode_complete behind rest sized size
      obtain ⟨value, left, isNext⟩ := ih fun runsOut => complete (.later sized size runsOut)
      cases value with
      | none =>
        exact ⟨none, left, fun behind =>
          (bind_some (first behind)).trans (bind_none (isNext behind))⟩
      | some questions =>
        exact ⟨some _, left, fun behind =>
          (bind_some (first behind)).trans (bind_some (isNext behind))⟩
    · exact absurd (.here sized nonempty) complete
    · exact ⟨none, rest, fun behind => bind_none (fails behind)⟩

/-! ### Bounds -/

/-- The number of questions in a header. -/
def qdCount : ℕ := (load16 (datagram.drop 4)).toNat

/-- The datagram has a header and ends behind a label of a question. -/
def EndsInName : Prop :=
  12 ≤ datagram.length ∧ RunsOut (qdCount datagram) (datagram.drop 12)

/-- The result does not depend on what is behind the datagram, and the cursor stays within. -/
def ParsesWithin : Prop :=
  (∀ behind behind', (maybeParseDNSMessage behind datagram).1 =
    (maybeParseDNSMessage behind' datagram).1) ∧
  ∀ behind, (maybeParseDNSMessage behind datagram).2.past = 0

theorem decode_header {datagram : List UInt8} (complete : 12 ≤ datagram.length) :
    ∃ hdr : MessageHeader, (hdr.id = load16 datagram ∧ hdr.qdCount.toNat = qdCount datagram) ∧
      MessageHeader.decode ⟨datagram, 0⟩ = (some hdr, ⟨datagram.drop 12, 0⟩) := by
  match datagram, complete with
  | _ :: _ :: _ :: _ :: _ :: _ :: _ :: _ :: _ :: _ :: _ :: _ :: rest, _ =>
    exact ⟨_, ⟨rfl, rfl⟩, rfl⟩

theorem decode_header_short {datagram : List UInt8} (short : datagram.length < 12) :
    ∃ rest, MessageHeader.decode ⟨datagram, 0⟩ = (none, ⟨rest, 0⟩) := by
  match datagram, short with
  | [], _ | [_], _ | [_, _], _ | [_, _, _], _ | [_, _, _, _], _ | [_, _, _, _, _], _
  | [_, _, _, _, _, _], _ | [_, _, _, _, _, _, _], _ | [_, _, _, _, _, _, _, _], _
  | [_, _, _, _, _, _, _, _, _], _ | [_, _, _, _, _, _, _, _, _, _], _
  | [_, _, _, _, _, _, _, _, _, _, _], _ => exact ⟨_, rfl⟩

theorem parsesWithin_of_steady {datagram : List UInt8}
    (steady : Steady (fun behind => MessageHeader.decode.bind (Message.decode behind)) datagram) :
    ParsesWithin datagram := by
  obtain ⟨value, rest, isResult⟩ := steady
  have same : ∀ behind, maybeParseDNSMessage behind datagram = (value, ⟨rest, 0⟩) := isResult
  constructor
  · intro behind behind'
    rw [same, same]
  · intro behind
    rw [same]

/-- A datagram is parsed within its bytes exactly if it does not end behind a label of a question.
Names and messages are written within a buffer exactly if it does not end where a length of a label or
the zero behind a name is written. -/
theorem codecs_within_iff (datagram name : List UInt8) (msg : Message) (buf : Buffer) :
    (ParsesWithin datagram ↔ ¬EndsInName datagram) ∧
    ((encodeNameTo name).Within buf ↔ buf.room ∉ (nameShape name).marks) ∧
    (msg.encode.Within buf ↔ buf.room ∉ msg.shape.marks) := by
  refine ⟨⟨fun within ends => ?_, fun complete => ?_⟩,
    (describes_encodeNameTo name).within_iff _, msg.describes.within_iff _⟩
  · obtain ⟨hdr, ⟨-, isCount⟩, isHeader⟩ := decode_header ends.1
    have failed : maybeParseDNSMessage 0 datagram = (none, ⟨[], 1⟩) := by
      refine (bind_some isHeader).trans (bind_none ?_)
      rw [isCount]
      exact ends.2.times_decode 0
    have inside := within.2 0
    rw [failed] at inside
    exact one_ne_zero inside
  · apply parsesWithin_of_steady
    by_cases large : 12 ≤ datagram.length
    · obtain ⟨hdr, ⟨-, isCount⟩, isHeader⟩ := decode_header large
      have questions : Steady (fun behind => (Question.decode behind).times hdr.qdCount.toNat)
          (datagram.drop 12) :=
        steady_questions (isCount ▸ fun runsOut => complete ⟨large, runsOut⟩)
      obtain ⟨value, rest, isMessage⟩ := questions.bind fun questions rest =>
        (steady_times steady_record hdr.anCount.toNat rest).bind fun answers rest =>
        steady_done _ rest
      exact ⟨value, rest, fun behind => (bind_some isHeader).trans (isMessage behind)⟩
    · obtain ⟨rest, isHeader⟩ := decode_header_short (Nat.lt_of_not_le large)
      exact ⟨none, rest, fun behind => bind_none isHeader⟩

/-- The header of a query with one question. -/
def exampleHeader : List UInt8 := [0, 7, 1, 0, 0, 1, 0, 0, 0, 0, 0, 0]

/-- A datagram that ends behind the label `a`, and buffers in which there is no room for the zero
behind it: the cursor and the zero come behind the end. -/
theorem last_byte_of_name_unchecked :
    ¬ParsesWithin (exampleHeader ++ [1, 97]) ∧
    ¬(encodeNameTo [97]).Within ⟨[], 2⟩ ∧
    ¬(Message.encode ⟨7, 0x100, [⟨[97], 1, 1⟩], [], [], []⟩).Within ⟨[], 14⟩ := by
  refine ⟨fun within => ?_, fun within => within.1 rfl, fun within => within.1 rfl⟩
  exact absurd (within.2 0) (by decide)

end Llarp.Dns

import Llarp.Dns.Message

/-!
# Messages there and back

A message whose questions have names other than the root and that has no answers comes back from its
wire form. The root name is written with one zero too many. In answers the decoder skips two bytes,
whatever the length of the name is, so what it takes for the fields of an answer stands before them
if the name is longer.
-/

namespace Llarp.Dns

open Foundation ResourceRecord Reader Shape List

/-! ### Names -/

variable (record : ResourceRecord) (name : List UInt8)

/-- The labels of a text. -/
def labelsOf : List (List UInt8) := (stripDot name).splitOn dot

def IsRoot : Prop := stripDot name = []

instance (name : List UInt8) : Decidable (IsRoot name) := inferInstanceAs (Decidable (_ = _))

/-- The root name, or labels of 1 to 63 bytes between dots. -/
def ValidName : Prop :=
  IsRoot name ∨ ∀ label ∈ labelsOf name, 0 < label.length ∧ label.length ≤ 63

/-- The text with a dot at its end. -/
def withDot : List UInt8 := stripDot name ++ [dot]

/-- The wire form of a name, as it should be. -/
def nameWire : List UInt8 :=
  if IsRoot name then [0] else wireLabels (labelsOf name) ++ [0]

/-- The wire form of a name, as it is written. -/
def nameWritten : List UInt8 := wireLabels (labelsOf name) ++ [0]

section Name

variable {name : List UInt8}

theorem labelsOf_root (root : IsRoot name) : labelsOf name = [[]] := by
  rw [labelsOf, show stripDot name = [] from root]
  rfl

theorem nameWritten_root (root : IsRoot name) : nameWritten name = [0, 0] := by
  rw [nameWritten, labelsOf_root root]
  rfl

theorem dotted_eq {labels : List (List UInt8)} (nonempty : labels ≠ []) :
    dotted labels = [dot].intercalate labels ++ [dot] := by
  induction labels with
  | nil => exact absurd rfl nonempty
  | cons label labels ih =>
    rw [dotted, flatMap_cons]
    cases labels with
    | nil => simp
    | cons next labels =>
      rw [← dotted, ih (cons_ne_nil _ _)]
      simp [intercalate_cons_cons]

theorem dotted_labelsOf (name : List UInt8) : dotted (labelsOf name) = withDot name := by
  rw [labelsOf, dotted_eq (splitOn_ne_nil _ _), intercalate_splitOn, withDot]

/-- The dot at the end of a text does not matter. -/
theorem stripDot_withDot (name : List UInt8) : stripDot (withDot name) = stripDot name := by
  rw [withDot]
  nth_rewrite 1 [stripDot]
  rw [if_pos (by simp), dropLast_concat]

theorem sized_labelsOf (valid : ValidName name) (proper : ¬IsRoot name) : Sized (labelsOf name) := by
  intro label member
  obtain ⟨positive, small⟩ := valid.resolve_left proper label member
  exact ⟨positive, by omega⟩

theorem bytes_labelsShape {labels : List (List UInt8)}
    (valid : ∀ label ∈ labels, 0 < label.length ∧ label.length ≤ 63) :
    (labelsShape labels).bytes = some (wireLabels labels ++ [0]) := by
  induction labels with
  | nil => rfl
  | cons label labels ih =>
    obtain ⟨positive, small⟩ := valid label mem_cons_self
    have rest := ih fun l member => valid l (mem_cons_of_mem _ member)
    rw [labelsShape, if_neg (by omega), if_neg (length_pos_iff.mp positive)]
    have wire : wireLabels (label :: labels) ++ [0] =
        [label.length.toUInt8] ++ (label ++ (wireLabels labels ++ [0])) := by
      simp [wireLabels]
    rw [wire]
    exact bytes_seq rfl (bytes_seq rfl rest)

theorem bytes_nameShape (valid : ValidName name) :
    (nameShape name).bytes = some (nameWritten name) := by
  by_cases root : IsRoot name
  · rw [nameWritten_root root, nameShape]
    have parts : (stripDot name).splitOn dot = [[]] := labelsOf_root root
    rw [parts]
    rfl
  · exact bytes_labelsShape (valid.resolve_left root)

/-- The wire form is decoded, and what has been decoded is written again. -/
def Rewrites (name : List UInt8) : Prop :=
  ∀ behind, ∃ decoded, (decodeName behind ⟨nameWire name, 0⟩).1 = some decoded ∧
    (encodeNameTo decoded).Writes (nameWire name)

theorem rewrites_iff (valid : ValidName name) : Rewrites name ↔ ¬IsRoot name := by
  by_cases root : IsRoot name
  · refine iff_of_false (fun rewrites => ?_) (not_not.mpr root)
    obtain ⟨decoded, isDecoded, writes⟩ := rewrites 0
    rw [nameWire, if_pos root] at isDecoded writes
    obtain rfl : [] = decoded := Option.some.inj isDecoded
    have written := (describes_encodeNameTo []).writes_iff.mp writes
    exact absurd written (by decide)
  · refine iff_of_true (fun behind => ?_) root
    rw [nameWire, if_neg root]
    refine ⟨withDot name, ?_, ?_⟩
    · rw [decodeName_complete behind [] (sized_labelsOf valid root), dotted_labelsOf]
    · have same : nameShape (withDot name) = nameShape name := by
        rw [nameShape, stripDot_withDot, nameShape]
      apply (describes_encodeNameTo _).writes
      rw [same]
      exact bytes_nameShape valid

end Name

/-! ### Answers -/

/-- The fields of a record behind its name, as they are written. -/
def ResourceRecord.fields : List UInt8 :=
  store16 record.rrType ++ (store16 record.rrClass ++ (store32 record.ttl ++
    (store16 record.rData.length.toUInt16 ++ record.rData.take record.rData.length.toUInt16.toNat)))

/-- A record without its name, which is not decoded. -/
def ResourceRecord.nameless : ResourceRecord := { record with rrName := [] }

/-- The bytes start with two that are skipped, the fields of the first record, two that are skipped,
and so on. -/
def FieldsFollow : List UInt8 → List ResourceRecord → Prop
  | _, [] => True
  | bytes, record :: records =>
    record.fields <+: bytes.drop 2 ∧
      FieldsFollow (bytes.drop (2 + record.fields.length)) records

section Answers

variable {record : ResourceRecord} {bytes : List UInt8}

theorem readUInt16_store16 (value : UInt16) (rest : List UInt8) :
    readUInt16 ⟨store16 value ++ rest, 0⟩ = (some value, ⟨rest, 0⟩) := by
  have complete : ¬(store16 value ++ rest).length < 2 := by
    rw [length_append, length_store16]
    omega
  rw [readUInt16_eq complete, load16_store16, drop_left' (length_store16 value)]

theorem readUInt32_store32 (value : UInt32) (rest : List UInt8) :
    readUInt32 ⟨store32 value ++ rest, 0⟩ = (some value, ⟨rest, 0⟩) := by
  have complete : ¬(store32 value ++ rest).length < 4 := by
    rw [length_append, length_store32]
    omega
  have read : readUInt32 ⟨store32 value ++ rest, 0⟩ = (some (load32 (store32 value ++ rest)),
      ⟨(store32 value ++ rest).drop 4, 0⟩) := if_neg complete
  rw [read, load32_store32, drop_left' (length_store32 value)]

theorem toNat_length_rData (small : record.rData.length < 65536) :
    record.rData.length.toUInt16.toNat = record.rData.length :=
  UInt16.toNat_ofNat_of_lt' small

/-- The fields stand where they are expected. -/
theorem decode_fields (small : record.rData.length < 65536) (x y : UInt8) (rest : List UInt8) :
    decode ⟨x :: y :: (record.fields ++ rest), 0⟩ =
      (some record.nameless, ⟨rest, 0⟩) := by
  have data : decodeRData ⟨store16 record.rData.length.toUInt16 ++
      (record.rData.take record.rData.length.toUInt16.toNat ++ rest), 0⟩ =
        (some record.rData, ⟨rest, 0⟩) := by
    rw [toNat_length_rData small, take_length]
    refine (bind_some (readUInt16_store16 _ _)).trans ?_
    have complete : ¬(record.rData ++ rest).length < record.rData.length := by simp
    rw [toNat_length_rData small]
    refine (if_neg complete).trans ?_
    rw [take_left, Cursor.advance, drop_left]
  refine (bind_some (readUInt16_eq (by simp) 0)).trans ?_
  refine (bind_some (readUInt16_store16 _ _)).trans ?_
  refine (bind_some (readUInt16_store16 _ _)).trans ?_
  refine (bind_some (readUInt32_store32 _ _)).trans ?_
  exact bind_some data

theorem Reader.of_bind {α β : Type} {first : Reader α} {second : α → Reader β} {cur cur' : Cursor}
    {b : β} (isDone : first.bind second cur = (some b, cur')) :
    ∃ a mid, first cur = (some a, mid) ∧ second a mid = (some b, cur') := by
  unfold bind at isDone
  split at isDone
  · exact ⟨_, _, ‹_›, isDone⟩
  · cases isDone

theorem of_readUInt16 {value : UInt16} {cur : Cursor}
    (isRead : readUInt16 ⟨bytes, 0⟩ = (some value, cur)) :
    ∃ rest, bytes = store16 value ++ rest ∧ cur = ⟨rest, 0⟩ := by
  by_cases short : bytes.length < 2
  · rw [readUInt16_short short] at isRead
    cases isRead
  · rw [readUInt16_eq short] at isRead
    obtain ⟨⟨⟩, rfl⟩ := Prod.mk.inj isRead
    exact ⟨_, by rw [store16_load16 (by omega), take_append_drop], rfl⟩

theorem of_readUInt32 {value : UInt32} {cur : Cursor}
    (isRead : readUInt32 ⟨bytes, 0⟩ = (some value, cur)) :
    ∃ rest, bytes = store32 value ++ rest ∧ cur = ⟨rest, 0⟩ := by
  rw [readUInt32] at isRead
  split_ifs at isRead with short
  · cases isRead
  · obtain ⟨⟨⟩, rfl⟩ := Prod.mk.inj isRead
    exact ⟨_, by rw [store32_load32 (Nat.le_of_not_lt short), take_append_drop], rfl⟩

theorem of_decodeRData {v : List UInt8} {cur : Cursor}
    (isRead : decodeRData ⟨bytes, 0⟩ = (some v, cur)) :
    v.length < 65536 ∧ ∃ rest, bytes = store16 v.length.toUInt16 ++ (v ++ rest) ∧
      cur = ⟨rest, 0⟩ := by
  obtain ⟨len, mid, isLen, isData⟩ := of_bind isRead
  obtain ⟨rest, rfl, rfl⟩ := of_readUInt16 isLen
  split_ifs at isData with short
  · cases isData
  · obtain ⟨⟨⟩, rfl⟩ := Prod.mk.inj isData
    have length : (rest.take len.toNat).length = len.toNat :=
      length_take_of_le (Nat.le_of_not_lt short)
    refine ⟨by rw [length]; exact len.toNat_lt, rest.drop len.toNat, ?_, rfl⟩
    have isLength : (rest.take len.toNat).length.toUInt16 = len := by
      rw [length]
      exact UInt16.ofNat_toNat
    rw [isLength, take_append_drop]

/-- What is decoded stands behind the two bytes that are skipped. -/
theorem of_decode {cur : Cursor} (isRead : decode ⟨bytes, 0⟩ = (some record, cur)) :
    record.rData.length < 65536 ∧
      ∃ x y rest, bytes = x :: y :: (record.fields ++ rest) ∧ cur = ⟨rest, 0⟩ := by
  obtain ⟨skipped, _, isSkipped, isRead⟩ := of_bind isRead
  obtain ⟨behind, rfl, rfl⟩ := of_readUInt16 isSkipped
  obtain ⟨rrType, _, isType, isRead⟩ := of_bind isRead
  obtain ⟨rest, rfl, rfl⟩ := of_readUInt16 isType
  obtain ⟨rrClass, _, isClass, isRead⟩ := of_bind isRead
  obtain ⟨rest, rfl, rfl⟩ := of_readUInt16 isClass
  obtain ⟨ttl, _, isTTL, isRead⟩ := of_bind isRead
  obtain ⟨rest, rfl, rfl⟩ := of_readUInt32 isTTL
  obtain ⟨rData, _, isData, isRead⟩ := of_bind isRead
  obtain ⟨small, rest, rfl, rfl⟩ := of_decodeRData isData
  obtain ⟨⟨⟩, rfl⟩ := Prod.mk.inj isRead
  obtain ⟨x, y, isTwo⟩ := length_eq_two.mp (length_store16 skipped)
  refine ⟨small, x, y, rest, ?_, rfl⟩
  have data : rData.take rData.length.toUInt16.toNat = rData := by
    rw [UInt16.toNat_ofNat_of_lt' small, take_length]
  rw [isTwo, fields, data]
  simp only [append_assoc, cons_append, nil_append]

/-- Names of records are not decoded. -/
theorem nameless_of_decode {cur cur' : Cursor}
    (isRead : decode cur = (some record, cur')) : record.nameless = record := by
  obtain ⟨_, _, _, isRead⟩ := of_bind isRead
  obtain ⟨rrType, _, _, isRead⟩ := of_bind isRead
  obtain ⟨rrClass, _, _, isRead⟩ := of_bind isRead
  obtain ⟨ttl, _, _, isRead⟩ := of_bind isRead
  obtain ⟨rData, _, _, isRead⟩ := of_bind isRead
  rw [← Option.some.inj (congrArg Prod.fst isRead)]
  rfl

theorem nameless_of_times_decode {n : ℕ} {records : List ResourceRecord} {cur cur' : Cursor}
    (isRead : decode.times n cur = (some records, cur')) :
    records.map nameless = records := by
  induction n generalizing records cur cur' with
  | zero =>
    rw [← Option.some.inj (congrArg Prod.fst isRead)]
    rfl
  | succ n ih =>
    obtain ⟨first, _, isFirst, isRest⟩ := of_bind isRead
    obtain ⟨others, _, isOthers, isDone⟩ := of_bind isRest
    rw [← Option.some.inj (congrArg Prod.fst isDone), map_cons, nameless_of_decode isFirst,
      ih isOthers]

theorem drop_fields (record : ResourceRecord) (x y : UInt8) (rest : List UInt8) :
    (x :: y :: (record.fields ++ rest)).drop (2 + record.fields.length) = rest := by
  rw [Nat.add_comm]
  exact drop_left

/-- Records are decoded exactly if their fields follow two bytes each. -/
theorem times_decode_iff (records : List ResourceRecord) (bytes : List UInt8) :
    (decode.times records.length ⟨bytes, 0⟩).1 =
        some (records.map nameless) ↔
      (∀ record ∈ records, record.rData.length < 65536) ∧ FieldsFollow bytes records := by
  induction records generalizing bytes with
  | nil => exact iff_of_true rfl ⟨nofun, trivial⟩
  | cons record records ih =>
    rw [forall_mem_cons]
    constructor
    · intro isRead
      obtain ⟨first, mid, isFirst, isRest⟩ := of_bind (Prod.ext isRead rfl)
      obtain ⟨others, end', isOthers, isDone⟩ := of_bind isRest
      obtain ⟨small, x, y, rest, rfl, rfl⟩ := of_decode isFirst
      obtain ⟨rfl, rfl⟩ := cons.inj (Option.some.inj (congrArg Prod.fst isDone))
      obtain ⟨later, follow⟩ := (ih rest).mp (congrArg Prod.fst isOthers)
      refine ⟨⟨small, later⟩, ⟨rest, rfl⟩, ?_⟩
      show FieldsFollow ((x :: y :: (record.fields ++ rest)).drop (2 + record.fields.length)) records
      rwa [drop_fields]
    · rintro ⟨⟨small, later⟩, ⟨rest, isRest⟩, follow⟩
      obtain ⟨x, y, rfl⟩ : ∃ x y, bytes = x :: y :: (record.fields ++ rest) := by
        match bytes, isRest with
        | [], isRest | [_], isRest =>
          have length := congrArg length isRest
          simp [fields] at length
        | x :: y :: _, isRest => exact ⟨x, y, by rw [isRest]; rfl⟩
      rw [drop_fields] at follow
      have others := (ih rest).mpr ⟨later, follow⟩
      rw [length_cons, times, bind_some (decode_fields small x y rest),
        bind_some (Prod.ext others rfl)]
      rfl

end Answers

/-! ### Messages -/

def Question.written (question : Question) : List UInt8 :=
  nameWritten question.qname ++ (store16 question.qtype ++ store16 question.qclass)

def ResourceRecord.written : List UInt8 :=
  nameWritten record.rrName ++ record.fields

def MessageHeader.written (hdr : MessageHeader) : List UInt8 :=
  [hdr.id, hdr.fields, hdr.qdCount, hdr.anCount, hdr.nsCount, hdr.arCount].flatMap store16

namespace Message

/-- The answers as they are written. -/
def answersWritten (msg : Message) : List UInt8 := msg.answers.flatMap ResourceRecord.written

def written (msg : Message) : List UInt8 :=
  msg.header.written ++ (msg.questions.flatMap Question.written ++ msg.answersWritten)

/-- Messages whose counts, names and data have a wire form. -/
structure Plain (msg : Message) : Prop where
  fewQuestions : msg.questions.length < 65536
  fewAnswers : msg.answers.length < 65536
  questionNames : ∀ question ∈ msg.questions, ValidName question.qname
  answerNames : ∀ record ∈ msg.answers, ValidName record.rrName
  data : ∀ record ∈ msg.answers, record.rData.length ≤ 65536

/-- What has been parsed is the message, with dots at the ends of the names of questions. -/
structure SameContent (msg parsed : Message) : Prop where
  hdrId : parsed.hdrId = msg.hdrId
  hdrFields : parsed.hdrFields = msg.hdrFields
  questions : parsed.questions =
    msg.questions.map fun question => { question with qname := withDot question.qname }
  answers : parsed.answers.map ResourceRecord.nameless = msg.answers.map ResourceRecord.nameless

/-- Whenever the message is encoded, it is parsed again. -/
def ComesBack (msg : Message) : Prop :=
  ∀ room bytes left, msg.encode ⟨[], room⟩ = .done ⟨bytes, left⟩ →
    ∀ behind, ∃ parsed, (maybeParseDNSMessage behind bytes).1 = some parsed ∧
      msg.SameContent parsed

variable {msg : Message}

theorem bytes_shape (plain : msg.Plain) : msg.shape.bytes = some msg.written := by
  have header : msg.header.shape.bytes = some msg.header.written :=
    bytes_each fun _ _ => rfl
  have questions : (each Question.shape msg.questions).bytes =
      some (msg.questions.flatMap Question.written) :=
    bytes_each fun question member =>
      bytes_seq (bytes_nameShape (plain.questionNames question member))
        (bytes_seq rfl rfl)
  have answers : (each ResourceRecord.shape msg.answers).bytes = some msg.answersWritten := by
    refine bytes_each fun record member => ?_
    have data : (rDataShape record.rData).bytes = some (store16 record.rData.length.toUInt16 ++
        record.rData.take record.rData.length.toUInt16.toNat) := by
      rw [rDataShape, if_neg (Nat.not_lt.mpr (plain.data record member))]
      exact bytes_seq rfl rfl
    exact bytes_seq (bytes_nameShape (plain.answerNames record member))
      (bytes_seq rfl (bytes_seq rfl (bytes_seq rfl data)))
  exact bytes_seq header (bytes_seq questions answers)

theorem decode_written_header (hdr : MessageHeader) (rest : List UInt8) :
    MessageHeader.decode ⟨hdr.written ++ rest, 0⟩ = (some hdr, ⟨rest, 0⟩) := by
  refine (bind_some (readUInt16_store16 _ _)).trans ?_
  refine (bind_some (readUInt16_store16 _ _)).trans ?_
  refine (bind_some (readUInt16_store16 _ _)).trans ?_
  refine (bind_some (readUInt16_store16 _ _)).trans ?_
  refine (bind_some (readUInt16_store16 _ _)).trans ?_
  exact bind_some (readUInt16_store16 _ _)

theorem decode_written_questions (behind : UInt8) {questions : List Question} (rest : List UInt8)
    (valid : ∀ question ∈ questions, ValidName question.qname ∧ ¬IsRoot question.qname) :
    (Question.decode behind).times questions.length
      ⟨questions.flatMap Question.written ++ rest, 0⟩ =
        (some (questions.map fun question => { question with qname := withDot question.qname }),
          ⟨rest, 0⟩) := by
  induction questions with
  | nil => rfl
  | cons question questions ih =>
    obtain ⟨⟨named, proper⟩, others⟩ := forall_mem_cons.mp valid
    have first := Question.decode_complete behind (questions.flatMap Question.written ++ rest)
      (sized_labelsOf named proper)
      (show (store16 question.qtype ++ store16 question.qclass).length = 4 by simp)
    rw [dotted_labelsOf, load16_store16, drop_left' (length_store16 _)] at first
    have last : load16 (store16 question.qclass) = question.qclass := by
      simpa using load16_store16 question.qclass []
    rw [last] at first
    have shape : (question :: questions).flatMap Question.written ++ rest =
        wireLabels (labelsOf question.qname) ++ 0 :: ((store16 question.qtype ++
          store16 question.qclass) ++ (questions.flatMap Question.written ++ rest)) := by
      simp [Question.written, nameWritten]
    rw [shape]
    exact (bind_some first).trans (bind_some (ih others))

/-- The parser gets to the answers. -/
theorem parse_written (plain : msg.Plain)
    (proper : ∀ question ∈ msg.questions, ¬IsRoot question.qname) (behind : UInt8) :
    (maybeParseDNSMessage behind msg.written).1 =
      (ResourceRecord.decode.times msg.answers.length ⟨msg.answersWritten, 0⟩).1.map fun answers =>
        { hdrId := msg.hdrId
          hdrFields := msg.hdrFields
          questions := msg.questions.map fun question =>
            { question with qname := withDot question.qname }
          answers } := by
  have qdCount : msg.header.qdCount.toNat = msg.questions.length :=
    UInt16.toNat_ofNat_of_lt' plain.fewQuestions
  have anCount : msg.header.anCount.toNat = msg.answers.length :=
    UInt16.toNat_ofNat_of_lt' plain.fewAnswers
  have questions := decode_written_questions behind msg.answersWritten
    fun question member => ⟨plain.questionNames question member, proper question member⟩
  rw [maybeParseDNSMessage, written, bind_some (decode_written_header _ _), decode, qdCount,
    bind_some questions, anCount]
  cases isRead : ResourceRecord.decode.times msg.answers.length ⟨msg.answersWritten, 0⟩ with
  | mk answers cur =>
    cases answers with
    | none => rw [bind_none isRead]; rfl
    | some answers => rw [bind_some isRead]; rfl

/-- A message comes back, and so do the names of its questions, exactly if none of them is the root
name, no record has 65536 bytes of data, and the fields of the answers stand where two bytes are
skipped for each name. -/
theorem comesBack_iff (plain : msg.Plain) :
    (msg.ComesBack ∧ ∀ question ∈ msg.questions, Rewrites question.qname) ↔
      (∀ question ∈ msg.questions, ¬IsRoot question.qname) ∧
      (∀ record ∈ msg.answers, record.rData.length ≠ 65536) ∧
      FieldsFollow msg.answersWritten msg.answers := by
  have rewrites : (∀ question ∈ msg.questions, Rewrites question.qname) ↔
      ∀ question ∈ msg.questions, ¬IsRoot question.qname :=
    forall₂_congr fun question member => rewrites_iff (plain.questionNames question member)
  rw [rewrites, and_comm]
  refine and_congr_right fun proper => ?_
  have small : (∀ record ∈ msg.answers, record.rData.length ≠ 65536) ↔
      ∀ record ∈ msg.answers, record.rData.length < 65536 :=
    forall₂_congr fun record member => (plain.data record member).lt_iff_ne.symm
  have parsed := parse_written plain proper
  rw [small, ← times_decode_iff]
  constructor
  · intro comesBack
    obtain ⟨room, isDone⟩ := msg.describes.writes (bytes_shape plain)
    obtain ⟨back, isBack, same⟩ := comesBack _ _ _ isDone 0
    obtain ⟨answers, isAnswers, rfl⟩ := Option.map_eq_some_iff.mp ((parsed 0).symm.trans isBack)
    rw [isAnswers, ← same.answers, nameless_of_times_decode (Prod.ext isAnswers rfl)]
  · intro isAnswers _ bytes _ isDone _
    obtain rfl : msg.written = bytes :=
      Option.some.inj ((bytes_shape plain).symm.trans (msg.describes.bytes_eq isDone))
    rw [parsed, isAnswers]
    exact ⟨_, rfl, rfl, rfl, rfl, by simp [nameless]⟩

/-- A query for `a.` without answers. -/
def exampleQuery : Message := ⟨7, 0x100, [⟨[97], 1, 1⟩], [], [], []⟩

theorem comesBack_exampleQuery : exampleQuery.ComesBack := by
  have valid : ValidName [97] := .inr (by decide)
  have plain : exampleQuery.Plain :=
    ⟨by decide, by decide, by simpa [exampleQuery] using valid, by simp [exampleQuery],
      by simp [exampleQuery]⟩
  refine ((comesBack_iff plain).mpr ⟨?_, ?_, trivial⟩).1
  · simp only [exampleQuery, mem_singleton, forall_eq]
    decide
  · simp [exampleQuery]

/-- A query for `a` with one answer, of type A and with four bytes of data. -/
def exampleReply : Message :=
  ⟨7, 0x8180, [⟨[97], 1, 1⟩], [⟨[97], 1, 1, 1, [10, 0, 0, 1]⟩], [], []⟩

/-- An answer with a name does not come back, and neither does the root name. -/
theorem named_answer_and_root_do_not_come_back :
    exampleReply.Plain ∧ ¬exampleReply.ComesBack ∧ ValidName [] ∧ ¬Rewrites [] := by
  have valid : ValidName [97] := .inr (by decide)
  have plain : exampleReply.Plain :=
    ⟨by decide, by decide, by simpa [exampleReply] using valid, by simpa [exampleReply] using valid,
      by simp [exampleReply]⟩
  have root : IsRoot [] := rfl
  refine ⟨plain, fun comesBack => ?_, .inl root, fun rewrites => ?_⟩
  · obtain ⟨room, isDone⟩ := exampleReply.describes.writes (bytes_shape plain)
    obtain ⟨back, isBack, -⟩ := comesBack _ _ _ isDone 0
    have fails : (maybeParseDNSMessage 0 exampleReply.written).1 = none := by decide +kernel
    cases fails.symm.trans isBack
  · exact (rewrites_iff (.inl root)).mp rewrites root

end Message

end Llarp.Dns

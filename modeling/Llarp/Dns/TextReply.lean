import Llarp.Dns.Message

/-!
# Text replies

The text of a TXT record is written in pieces of up to 256 bytes, each behind a byte for its length. A
piece of 256 bytes has the length zero in this byte.
-/

namespace Llarp.Dns

open List

/-- A result, or how there is none. -/
inductive Outcome (α : Type) where
  | done (value : α)
  | lengthError
  /-- an access outside of a container or a buffer -/
  | outside
  deriving DecidableEq

/-- The loop of `AddTXTReply`: what is in the buffer of 1024 bytes, and the rest of the text. -/
def writeText (written str : List UInt8) : Outcome (List UInt8) :=
  if str.isEmpty then .done written
  else if written.length < 1024 then
    let left := min str.length 256
    let headed := written ++ [left.toUInt8]
    if left ≤ 1024 - headed.length then writeText (headed ++ str.take left) (str.drop left)
    else .lengthError
  else .outside
termination_by str.length
decreasing_by
  have some := List.length_pos_iff.mpr (mt List.isEmpty_iff.mpr ‹_›)
  rw [List.length_drop]
  omega

def Message.addTXTReply (msg : Message) (str : List UInt8) (ttl : UInt32) : Outcome Message :=
  match msg.questions with
  | [] => .outside
  | question :: _ =>
    match writeText [] str with
    | .done rData => .done
        { msg with
          answers := msg.answers ++
            [{ rrName := question.qname, rrType := 16, rrClass := 1, ttl, rData }] }
    | .lengthError => .lengthError
    | .outside => .outside

/-- The bytes are character-strings, which make up the text. -/
def CharacterStrings (rData str : List UInt8) : Prop :=
  ∃ pieces : List (List UInt8), (∀ piece ∈ pieces, 1 ≤ piece.length ∧ piece.length ≤ 255) ∧
    rData = pieces.flatMap (fun piece => piece.length.toUInt8 :: piece) ∧ pieces.flatten = str

/-- A reply has the text, or the text is too big. -/
def Message.AddsText (msg : Message) (str : List UInt8) (ttl : UInt32) : Prop :=
  msg.addTXTReply str ttl = .lengthError ∨
    ∃ record, msg.addTXTReply str ttl = .done { msg with answers := msg.answers ++ [record] } ∧
      CharacterStrings record.rData str

variable {written str : List UInt8}

/-- The length bytes are at multiples of 257, so that no one is outside of the buffer. -/
theorem writeText_cases (whole : written.length % 257 = 0 ∨ str.length = 0)
    (inside : written.length ≤ 1024) :
    if written.length + str.length + (str.length + 255) / 256 ≤ 1024 then
      ∃ rest, writeText written str = .done (written ++ rest)
    else writeText written str = .lengthError := by
  fun_induction writeText written str with
  | case1 written str empty =>
    rw [isEmpty_iff.mp empty]
    exact if_pos inside ▸ ⟨[], by rw [append_nil]⟩
  | case2 written str some room left headed fits ih =>
    have positive := length_pos_iff.mpr (mt isEmpty_iff.mpr some)
    have begun : headed.length = written.length + 1 := length_append
    have size : (headed ++ str.take left).length = written.length + 1 + left := by
      rw [length_append, begun, length_take_of_le (min_le_left _ _)]
    have later := ih (by rw [size, length_drop]; omega) (by omega)
    have same : written.length + 1 + left + (str.length - left) + (str.length - left + 255) / 256 =
        written.length + str.length + (str.length + 255) / 256 := by omega
    rw [size, length_drop, same] at later
    split_ifs at later ⊢
    · obtain ⟨rest, done⟩ := later
      exact ⟨left.toUInt8 :: (str.take left ++ rest), by rw [done]; simp [headed]⟩
    · exact later
  | case3 written str some room left headed full =>
    have positive := length_pos_iff.mpr (mt isEmpty_iff.mpr some)
    have begun : headed.length = written.length + 1 := length_append
    exact (if_neg (by omega)).mpr rfl
  | case4 written str some full =>
    have positive := length_pos_iff.mpr (mt isEmpty_iff.mpr some)
    omega

theorem not_characterStrings_zero {rest : List UInt8} : ¬CharacterStrings (0 :: rest) str := by
  rintro ⟨pieces, sized, same, -⟩
  cases pieces with
  | nil => cases same
  | cons piece pieces =>
    obtain ⟨some, short⟩ := sized piece mem_cons_self
    have zero : 0 = piece.length % 256 := congrArg UInt8.toNat (cons.inj same).1
    omega

/-- The first round of the loop. -/
theorem writeText_first (some : str ≠ []) : writeText [] str =
    writeText ((min str.length 256).toUInt8 :: str.take (min str.length 256))
      (str.drop (min str.length 256)) := by
  have fits : min str.length 256 ≤ 1024 - 1 := by omega
  rw [writeText, if_neg (mt List.isEmpty_iff.mp some), if_pos (by decide)]
  exact if_pos fits

/-- A text of less than 256 bytes is one character-string. -/
theorem exists_of_short (short : str.length < 256) :
    ∃ rData, writeText [] str = .done rData ∧ CharacterStrings rData str := by
  by_cases empty : str = []
  · subst empty
    exact ⟨[], by rw [writeText]; rfl, [], nofun, rfl, rfl⟩
  · refine ⟨str.length.toUInt8 :: str, ?_, [str], ?_, by simp, by simp⟩
    · rw [writeText_first empty, min_eq_left (by omega), take_length, drop_length,
        writeText]
      rfl
    · have positive := length_pos_iff.mpr empty
      exact forall_mem_singleton.mpr ⟨positive, by omega⟩

/-- In a text of 256 bytes or more, the first length byte is zero. -/
theorem exists_of_long (long : 256 ≤ str.length) (fits : str.length ≤ 1020) :
    ∃ rest, writeText [] str = .done (0 :: rest) := by
  have some : str ≠ [] := ne_nil_of_length_pos (by omega)
  have size : (0 :: str.take 256).length = 257 := by
    rw [length_cons, length_take_of_le long]
  have later := @writeText_cases (0 :: str.take 256) (str.drop 256) (.inl (by rw [size]))
    (by rw [size]; decide)
  rw [size, length_drop, if_pos (by omega)] at later
  obtain ⟨rest, done⟩ := later
  rw [writeText_first some, min_eq_right long]
  exact ⟨_, done⟩

theorem Message.not_addsText {msg : Message} {ttl : UInt32} (long : 256 ≤ str.length)
    (fits : str.length ≤ 1020) : ¬msg.AddsText str ttl := by
  obtain ⟨rest, done⟩ := exists_of_long long fits
  rw [AddsText, addTXTReply, done]
  cases msg.questions with
  | nil => simp
  | cons question questions =>
    rintro (error | ⟨record, added, strings⟩)
    · cases error
    · simp only [Outcome.done.injEq, mk.injEq, append_cancel_left_eq, cons.injEq] at added
      rw [← added.2.2.2.1.1] at strings
      exact not_characterStrings_zero strings

/-- The reply is right exactly if the text fits into one character-string, or is too big. -/
theorem Message.addsText_iff (msg : Message) (str : List UInt8) (ttl : UInt32) :
    msg.AddsText str ttl ↔
      msg.questions ≠ [] ∧ (str.length < 256 ∨ 1020 < str.length) := by
  by_cases middle : 256 ≤ str.length ∧ str.length ≤ 1020
  · exact iff_of_false (not_addsText middle.1 middle.2) (by omega)
  rw [AddsText, addTXTReply]
  cases msg.questions with
  | nil => simp
  | cons question questions =>
    refine iff_of_true ?_ ⟨cons_ne_nil _ _, by omega⟩
    by_cases short : str.length < 256
    · obtain ⟨rData, done, strings⟩ := exists_of_short short
      rw [done]
      exact .inr ⟨_, rfl, strings⟩
    · have big := @writeText_cases [] str (.inl rfl) (Nat.zero_le _)
      rw [length_nil, Nat.zero_add, if_neg (by omega)] at big
      rw [big]
      exact .inl rfl

/-- A text of 256 bytes is written behind a zero. -/
theorem Message.text_of_256_bytes_behind_zero :
    ¬AddsText ⟨7, 0, [⟨[97, 46], 16, 1⟩], [], [], []⟩ (List.replicate 256 97) 1 :=
  not_addsText length_replicate.ge (by rw [length_replicate]; decide)

end Llarp.Dns

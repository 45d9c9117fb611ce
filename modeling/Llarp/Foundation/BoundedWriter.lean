import Mathlib.Data.Set.Finite.Lattice
import Mathlib.Data.Set.Finite.List

/-!
# Writing into a buffer of bounded size

An encoder writes behind what has been written. Some of its writes are checked against the room that
is left, and it gives up if there is not enough; some single bytes are written without a check. The
shape of an encoder is all there is to know about it: the bytes that it writes if there is room, and
the offsets of those that are not checked.
-/

namespace Foundation

/-- What has been written, and how many bytes there is room for. -/
structure Buffer where
  written : List UInt8
  room : ℕ

inductive Writing where
  | done (buf : Buffer)
  | refused
  /-- a byte is written behind the end -/
  | overrun

abbrev Encoder := Buffer → Writing

/-- The bytes of an encoder, if it does not always give up, and the offsets of those that are not
checked. -/
structure Shape where
  bytes : Option (List UInt8)
  marks : List ℕ

namespace Encoder

/-- Write bytes if there is room. -/
def put (bytes : List UInt8) : Encoder := fun buf =>
  if buf.room < bytes.length then .refused
  else .done ⟨buf.written ++ bytes, buf.room - bytes.length⟩

/-- Write a byte, whether there is room or not. -/
def poke (byte : UInt8) : Encoder := fun buf =>
  if buf.room = 0 then .overrun else .done ⟨buf.written ++ [byte], buf.room - 1⟩

def refuse : Encoder := fun _ => .refused

def seq (first second : Encoder) : Encoder := fun buf =>
  match first buf with
  | .done buf => second buf
  | .refused => .refused
  | .overrun => .overrun

/-- The encoders of the elements of a list, one after the other. -/
def each {α : Type*} (encode : α → Encoder) : List α → Encoder
  | [] => .done
  | x :: xs => (encode x).seq (each encode xs)

end Encoder

namespace Shape

def put (bytes : List UInt8) : Shape := ⟨some bytes, []⟩

def poke (byte : UInt8) : Shape := ⟨some [byte], [0]⟩

def refuse : Shape := ⟨none, []⟩

def seq (first second : Shape) : Shape :=
  match first.bytes with
  | none => first
  | some bytes => ⟨second.bytes.map (bytes ++ ·), first.marks ++ second.marks.map (bytes.length + ·)⟩

def each {α : Type*} (shape : α → Shape) : List α → Shape
  | [] => put []
  | x :: xs => (shape x).seq (each shape xs)

theorem bytes_seq {first second : Shape} {bytes more : List UInt8}
    (isFirst : first.bytes = some bytes) (isSecond : second.bytes = some more) :
    (first.seq second).bytes = some (bytes ++ more) := by
  simp [seq, isFirst, isSecond]

theorem bytes_each {α : Type*} {shape : α → Shape} {wire : α → List UInt8} {xs : List α}
    (isBytes : ∀ x ∈ xs, (shape x).bytes = some (wire x)) :
    (each shape xs).bytes = some (xs.flatMap wire) := by
  induction xs with
  | nil => rfl
  | cons x xs ih =>
    exact bytes_seq (isBytes x List.mem_cons_self)
      (ih fun y member => isBytes y (List.mem_cons_of_mem _ member))

/-- What an encoder of this shape does. -/
def run (shape : Shape) (buf : Buffer) : Writing :=
  if buf.room ∈ shape.marks then .overrun
  else
    match shape.bytes with
    | none => .refused
    | some bytes => Encoder.put bytes buf

end Shape

/-- The encoder has this shape. -/
def Describes (shape : Shape) (encode : Encoder) : Prop := ∀ buf, encode buf = shape.run buf

namespace Describes

theorem put (bytes : List UInt8) : Describes (.put bytes) (.put bytes) := fun _ => rfl

theorem refuse : Describes .refuse .refuse := fun _ => rfl

theorem poke (byte : UInt8) : Describes (.poke byte) (.poke byte) := by
  intro buf
  by_cases full : buf.room = 0
  · simp [Encoder.poke, Shape.run, Shape.poke, full]
  · simp [Encoder.poke, Shape.run, Shape.poke, Encoder.put, full]

theorem done : Describes (.put []) .done := by
  intro buf
  simp [Shape.run, Shape.put, Encoder.put]

variable {first second : Encoder} {s t : Shape}

theorem seq (describes : Describes s first) (next : Describes t second) :
    Describes (s.seq t) (first.seq second) := by
  intro buf
  rw [Encoder.seq, describes buf, Shape.run, Shape.run, Shape.seq]
  by_cases mark : buf.room ∈ s.marks
  · cases s.bytes with
    | none => simp [mark]
    | some bytes => simp [mark]
  rw [if_neg mark]
  cases isBytes : s.bytes with
  | none => simp [mark, isBytes]
  | some bytes =>
    by_cases full : buf.room < bytes.length
    · -- the marks of the second encoder are behind all that there is room for
      have before : ∀ x, bytes.length + x ≠ buf.room := fun x => by omega
      cases t.bytes with
      | none => simp [mark, full, before, Encoder.put]
      | some more =>
        have fuller : buf.room < (bytes ++ more).length := by simp; omega
        simp only [Encoder.put, full, if_true, Option.map_some, fuller]
        simp [mark, before]
    · have shifted : buf.room - bytes.length ∈ t.marks ↔
          buf.room ∈ s.marks ++ t.marks.map (bytes.length + ·) := by
        rw [List.mem_append, or_iff_right mark, List.mem_map]
        constructor
        · exact fun found => ⟨_, found, by omega⟩
        · rintro ⟨x, found, sum⟩
          rwa [← sum, Nat.add_sub_cancel_left]
      simp only [Encoder.put, full, if_false]
      rw [next, Shape.run]
      simp only [shifted]
      cases t.bytes with
      | none => rfl
      | some more =>
        have fits : buf.room - bytes.length < more.length ↔
            buf.room < (bytes ++ more).length := by simp; omega
        simp only [Encoder.put, fits, Option.map_some, List.append_assoc, List.length_append,
          Nat.sub_sub]

theorem each {α : Type*} {shape : α → Shape} {encode : α → Encoder}
    (describes : ∀ x, Describes (shape x) (encode x)) (xs : List α) :
    Describes (.each shape xs) (.each encode xs) := by
  induction xs with
  | nil => exact done
  | cons x xs ih => exact (describes x).seq ih

end Describes

/-! ### Encoders that stay within the buffer -/

namespace Encoder

/-- The bytes that are written if there is enough room. -/
def Writes (encode : Encoder) (bytes : List UInt8) : Prop :=
  ∃ room, encode ⟨[], room⟩ = .done ⟨bytes, room - bytes.length⟩

/-- Nothing is written behind the end, and the encoder gives up if its bytes do not fit. -/
def Within (encode : Encoder) (buf : Buffer) : Prop :=
  encode buf ≠ .overrun ∧ ((∀ bytes, encode.Writes bytes → buf.room < bytes.length) →
    encode buf = .refused)

end Encoder

variable {shape : Shape} {encode : Encoder}

section

variable (describes : Describes shape encode)

include describes

theorem Describes.writes {bytes : List UInt8} (isBytes : shape.bytes = some bytes) :
    encode.Writes bytes := by
  -- a buffer that is larger than all offsets
  obtain ⟨most, above⟩ := (List.finite_toSet shape.marks).bddAbove
  refine ⟨most + 1 + bytes.length, ?_⟩
  have unmarked : most + 1 + bytes.length ∉ shape.marks := fun member => by
    have := above member
    omega
  rw [describes, Shape.run, if_neg unmarked, isBytes]
  simp [Encoder.put]

/-- What has been written are the bytes of the shape. -/
theorem Describes.bytes_eq {room left : ℕ} {bytes : List UInt8}
    (isDone : encode ⟨[], room⟩ = .done ⟨bytes, left⟩) : shape.bytes = some bytes := by
  rw [describes, Shape.run] at isDone
  split_ifs at isDone
  split at isDone
  · cases isDone
  · rename_i found isBytes
    unfold Encoder.put at isDone
    split_ifs at isDone
    have same : found = bytes := congrArg Buffer.written (Writing.done.inj isDone)
    rw [isBytes, same]

theorem Describes.writes_iff {bytes : List UInt8} :
    encode.Writes bytes ↔ shape.bytes = some bytes :=
  ⟨fun ⟨_, isDone⟩ => describes.bytes_eq isDone, describes.writes⟩

/-- An encoder stays within the buffer exactly if the buffer does not end at an unchecked byte. -/
theorem Describes.within_iff (buf : Buffer) : encode.Within buf ↔ buf.room ∉ shape.marks := by
  rw [Encoder.Within, describes buf, Shape.run]
  constructor
  · intro within mark
    exact within.1 (if_pos mark)
  · intro unmarked
    rw [if_neg unmarked]
    cases isBytes : shape.bytes with
    | none => exact ⟨nofun, fun _ => rfl⟩
    | some bytes =>
      show Encoder.put bytes buf ≠ _ ∧ (_ → Encoder.put bytes buf = _)
      unfold Encoder.put
      by_cases full : buf.room < bytes.length
      · rw [if_pos full]
        exact ⟨nofun, fun _ => rfl⟩
      · rw [if_neg full]
        exact ⟨nofun, fun short => absurd (short bytes (describes.writes isBytes)) full⟩

end

end Foundation

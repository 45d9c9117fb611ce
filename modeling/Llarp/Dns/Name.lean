import Llarp.Foundation.BoundedWriter
import Llarp.Foundation.Bytes

/-!
# Domain names

On the wire a name is a row of labels, each behind its length, and a zero. As a text it is the labels
with a dot behind each. The decoder checks before it takes a label that all of it is in the datagram,
but not that there is a length: behind the last label it may read a byte behind the datagram.
-/

namespace Llarp.Dns

open Foundation List

/-! ### Reading -/

/-- A place in a datagram: the bytes that are left, and how far it is behind the end. -/
structure Cursor where
  rest : List UInt8
  past : ℕ := 0
  deriving DecidableEq

namespace Cursor

def sizeLeft (cur : Cursor) : ℕ := cur.rest.length

/-- The byte at the cursor; `behind` is the one behind the datagram. -/
def next (behind : UInt8) (cur : Cursor) : UInt8 × Cursor :=
  match cur.rest with
  | byte :: rest => (byte, { cur with rest })
  | [] => (behind, { cur with past := cur.past + 1 })

def advance (cur : Cursor) (count : ℕ) : Cursor := { cur with rest := cur.rest.drop count }

end Cursor

/-- A decoder returns a value or fails, and in both cases it may have moved the cursor. -/
abbrev Reader (α : Type) := Cursor → Option α × Cursor

namespace Reader

def bind {α β : Type} (first : Reader α) (second : α → Reader β) : Reader β := fun cur =>
  match first cur with
  | (some a, cur) => second a cur
  | (none, cur) => (none, cur)

theorem bind_some {α β : Type} {first : Reader α} {second : α → Reader β} {cur cur' : Cursor} {a : α}
    (isFirst : first cur = (some a, cur')) : first.bind second cur = second a cur' := by
  unfold bind
  rw [isFirst]

theorem bind_none {α β : Type} {first : Reader α} {second : α → Reader β} {cur cur' : Cursor}
    (isFirst : first cur = (none, cur')) : first.bind second cur = (none, cur') := by
  unfold bind
  rw [isFirst]

def done {α : Type} (a : α) : Reader α := fun cur => (some a, cur)

/-- The loop over the elements of a vector of this size. -/
def times {α : Type} (read : Reader α) : ℕ → Reader (List α)
  | 0 => done []
  | n + 1 => read.bind fun a => (times read n).bind fun as => done (a :: as)

end Reader

def readUInt16 : Reader UInt16 := fun cur =>
  if cur.sizeLeft < 2 then (none, cur) else (some (load16 cur.rest), cur.advance 2)

theorem readUInt16_short {bytes : List UInt8} (short : bytes.length < 2) (past : ℕ) :
    readUInt16 ⟨bytes, past⟩ = (none, ⟨bytes, past⟩) :=
  if_pos short

theorem readUInt16_eq {bytes : List UInt8} (complete : ¬bytes.length < 2) (past : ℕ) :
    readUInt16 ⟨bytes, past⟩ = (some (load16 bytes), ⟨bytes.drop 2, past⟩) :=
  if_neg complete

def readUInt32 : Reader UInt32 := fun cur =>
  if cur.sizeLeft < 4 then (none, cur) else (some (load32 cur.rest), cur.advance 4)

/-! ### Names -/

def dot : UInt8 := '.'.toUInt8

/-- The loop over the labels. -/
def decodeLabels (behind : UInt8) : (fuel : ℕ) → Reader (List UInt8)
  | 0, cur => (none, cur)
  | fuel + 1, cur =>
    let (l, cur) := cur.next behind
    if l = 0 then (some [], cur)
    else if cur.sizeLeft < l.toNat then (none, cur)
    else
      let (name, next) := decodeLabels behind fuel (cur.advance l.toNat)
      (name.map ((cur.rest.take l.toNat ++ [dot]) ++ ·), next)

/-- Every label takes a byte, so the loop ends in time. -/
def decodeName (behind : UInt8) : Reader (List UInt8) := fun cur =>
  if cur.sizeLeft < 1 then (none, cur) else decodeLabels behind (cur.sizeLeft + 1) cur

/-- The loop over the parts of a name. -/
def encodeLabels : List (List UInt8) → Encoder
  | [] => .poke 0
  | part :: parts =>
    if part.length > 63 then .refuse
    else if part = [] then (Encoder.poke 0).seq (.poke 0)
    else (Encoder.poke part.length.toUInt8).seq ((Encoder.put part).seq (encodeLabels parts))

variable (labels : List (List UInt8)) (name : List UInt8)

/-- A name without the dot at its end. -/
def stripDot : List UInt8 :=
  if name.getLast? = some dot then name.dropLast else name

def encodeNameTo : Encoder := encodeLabels ((stripDot name).splitOn dot)

/-! ### What is decoded -/

/-- The wire form of labels, without the zero at the end. -/
def wireLabels : List UInt8 :=
  labels.flatMap fun label => label.length.toUInt8 :: label

/-- The text of a name, with a dot behind each label. -/
def dotted : List UInt8 := labels.flatMap (· ++ [dot])

/-- Labels that have a wire form: not empty, with a length of one byte. -/
def Sized : Prop :=
  ∀ label ∈ labels, 0 < label.length ∧ label.length < 256

section Decode

variable (behind : UInt8) {label : List UInt8} {labels : List (List UInt8)} (rest : List UInt8)

theorem toNat_length (small : label.length < 256) : label.length.toUInt8.toNat = label.length :=
  UInt8.toNat_ofNat_of_lt' small

theorem length_ne_zero (positive : 0 < label.length) (small : label.length < 256) :
    label.length.toUInt8 ≠ 0 := by
  intro zero
  have toNat := congrArg UInt8.toNat zero
  rw [toNat_length small] at toNat
  exact positive.ne' toNat

theorem decodeLabels_cons (fuel : ℕ) (l : UInt8) :
    decodeLabels behind (fuel + 1) ⟨l :: rest, 0⟩ =
      if l = 0 then (some [], ⟨rest, 0⟩)
      else if rest.length < l.toNat then (none, ⟨rest, 0⟩)
      else ((decodeLabels behind fuel ⟨rest.drop l.toNat, 0⟩).1.map ((rest.take l.toNat ++ [dot]) ++ ·),
        (decodeLabels behind fuel ⟨rest.drop l.toNat, 0⟩).2) :=
  rfl

/-- No byte is left for a length, and one behind the datagram is read. -/
theorem decodeLabels_nil (fuel : ℕ) :
    decodeLabels behind (fuel + 1) ⟨[], 0⟩ = (if behind = 0 then some [] else none, ⟨[], 1⟩) := by
  by_cases zero : behind = 0
  · simp [decodeLabels, Cursor.next, zero]
  · have positive : 0 < behind.toNat := Nat.pos_of_ne_zero fun toNat =>
      zero (UInt8.toNat_inj.mp toNat)
    simp [decodeLabels, Cursor.next, Cursor.sizeLeft, zero, positive]

/-- A complete label is taken. -/
theorem decodeLabels_label {fuel : ℕ} (positive : 0 < label.length) (small : label.length < 256) :
    decodeLabels behind (fuel + 1) ⟨label.length.toUInt8 :: label ++ rest, 0⟩ =
      ((decodeLabels behind fuel ⟨rest, 0⟩).1.map ((label ++ [dot]) ++ ·),
        (decodeLabels behind fuel ⟨rest, 0⟩).2) := by
  have room : ¬(label ++ rest).length < label.length := by simp
  rw [cons_append, decodeLabels_cons, if_neg (length_ne_zero positive small),
    toNat_length small, if_neg room, drop_left, take_left]

/-- The decoder takes complete labels, and goes on behind them. -/
theorem decodeLabels_append {fuel : ℕ} (sized : Sized labels) :
    decodeLabels behind (fuel + labels.length) ⟨wireLabels labels ++ rest, 0⟩ =
      ((decodeLabels behind fuel ⟨rest, 0⟩).1.map (dotted labels ++ ·),
        (decodeLabels behind fuel ⟨rest, 0⟩).2) := by
  induction labels with
  | nil => simp [wireLabels, dotted]
  | cons label labels ih =>
    have first := sized label mem_cons_self
    have later : Sized labels := fun l member => sized l (mem_cons_of_mem _ member)
    have shape : wireLabels (label :: labels) ++ rest =
        label.length.toUInt8 :: label ++ (wireLabels labels ++ rest) := by
      simp [wireLabels]
    rw [length_cons, ← Nat.add_assoc, shape,
      decodeLabels_label behind (wireLabels labels ++ rest) first.1 first.2, ih later]
    simp [dotted, Function.comp_def]

theorem length_le_wireLabels (labels : List (List UInt8)) :
    labels.length ≤ (wireLabels labels).length := by
  induction labels with
  | nil => exact Nat.zero_le _
  | cons label labels ih =>
    rw [wireLabels, flatMap_cons, length_append, length_cons, length_cons]
    rw [wireLabels] at ih
    omega

/-- What the loop does behind the labels, it does in time. -/
theorem decodeName_append (sized : Sized labels) (some_left : wireLabels labels ++ rest ≠ []) :
    ∃ fuel, decodeName behind ⟨wireLabels labels ++ rest, 0⟩ =
      ((decodeLabels behind (fuel + 1) ⟨rest, 0⟩).1.map (dotted labels ++ ·),
        (decodeLabels behind (fuel + 1) ⟨rest, 0⟩).2) := by
  have enough := length_le_wireLabels labels
  have left : ¬(Cursor.mk (wireLabels labels ++ rest) 0).sizeLeft < 1 :=
    Nat.not_lt.mpr (length_pos_iff.mpr some_left)
  refine ⟨(wireLabels labels ++ rest).length - labels.length, ?_⟩
  have split : (Cursor.mk (wireLabels labels ++ rest) 0).sizeLeft + 1 =
      (wireLabels labels ++ rest).length - labels.length + 1 + labels.length := by
    rw [Cursor.sizeLeft, length_append]
    omega
  rw [decodeName, if_neg left, split, decodeLabels_append behind rest sized]

theorem decodeName_complete (sized : Sized labels) :
    decodeName behind ⟨wireLabels labels ++ 0 :: rest, 0⟩ = (some (dotted labels), ⟨rest, 0⟩) := by
  obtain ⟨fuel, isName⟩ := decodeName_append behind (0 :: rest) sized (by simp)
  rw [isName, decodeLabels_cons, if_pos rfl]
  simp

/-- The datagram ends behind a label. -/
theorem decodeName_cut (sized : Sized labels) (nonempty : labels ≠ []) :
    decodeName behind ⟨wireLabels labels, 0⟩ =
      (if behind = 0 then some (dotted labels) else none, ⟨[], 1⟩) := by
  have some_left : wireLabels labels ++ [] ≠ [] := by
    rw [append_nil, ← length_pos_iff]
    exact (length_pos_iff.mpr nonempty).trans_le (length_le_wireLabels labels)
  obtain ⟨fuel, isName⟩ := decodeName_append behind [] sized some_left
  rw [append_nil] at isName
  rw [isName, decodeLabels_nil]
  split_ifs
  · simp
  · simp

/-- The datagram ends within a label. -/
theorem decodeName_short (sized : Sized labels) {l : UInt8} (nonzero : l ≠ 0)
    (short : rest.length < l.toNat) :
    decodeName behind ⟨wireLabels labels ++ l :: rest, 0⟩ = (none, ⟨rest, 0⟩) := by
  obtain ⟨fuel, isName⟩ := decodeName_append behind (l :: rest) sized (by simp)
  rw [isName, decodeLabels_cons, if_neg nonzero, if_pos short]
  rfl

end Decode

/-- Labels stand at the beginning of every row of bytes. A zero follows, or nothing, or a length
that is not followed by as many bytes. -/
theorem wireLabels_cases (bytes : List UInt8) : ∃ labels, Sized labels ∧
    (bytes = wireLabels labels ∨ (∃ rest, bytes = wireLabels labels ++ 0 :: rest) ∨
      ∃ l rest, bytes = wireLabels labels ++ l :: rest ∧ l ≠ 0 ∧ rest.length < l.toNat) := by
  induction size : bytes.length using Nat.strong_induction_on generalizing bytes with
  | _ size ih =>
    match bytes with
    | [] => exact ⟨[], nofun, .inl rfl⟩
    | l :: rest =>
      by_cases zero : l = 0
      · exact ⟨[], nofun, .inr (.inl ⟨rest, by rw [zero]; rfl⟩)⟩
      by_cases short : rest.length < l.toNat
      · exact ⟨[], nofun, .inr (.inr ⟨l, rest, rfl, zero, short⟩)⟩
      -- a complete label, and what is behind it
      have taken : (rest.take l.toNat).length = l.toNat := length_take_of_le (by omega)
      have isLength : (rest.take l.toNat).length.toUInt8 = l := by
        rw [taken]
        exact UInt8.ofNat_toNat
      have positive : 0 < l.toNat :=
        Nat.pos_of_ne_zero fun toNat => zero (UInt8.toNat_inj.mp toNat)
      obtain ⟨labels, sized, cases⟩ := ih (rest.drop l.toNat).length
        (by rw [← size, length_drop, length_cons]; omega) (rest.drop l.toNat) rfl
      refine ⟨rest.take l.toNat :: labels, ?_, ?_⟩
      · intro label member
        rcases mem_cons.mp member with rfl | later
        · rw [taken]
          exact ⟨positive, l.toNat_lt⟩
        · exact sized label later
      · have shape : l :: rest = l :: rest.take l.toNat ++ rest.drop l.toNat := by
          rw [cons_append, take_append_drop]
        have wire : wireLabels (rest.take l.toNat :: labels) =
            l :: rest.take l.toNat ++ wireLabels labels := by
          rw [wireLabels, flatMap_cons, isLength, wireLabels]
        rw [shape, wire]
        simpa only [append_assoc, append_cancel_left_eq] using cases

/-! ### What is encoded -/

def labelsShape : List (List UInt8) → Shape
  | [] => .poke 0
  | part :: parts =>
    if part.length > 63 then .refuse
    else if part = [] then (Shape.poke 0).seq (.poke 0)
    else (Shape.poke part.length.toUInt8).seq ((Shape.put part).seq (labelsShape parts))

def nameShape : Shape := labelsShape ((stripDot name).splitOn dot)

theorem describes_encodeLabels (parts : List (List UInt8)) :
    Describes (labelsShape parts) (encodeLabels parts) := by
  induction parts with
  | nil => exact .poke 0
  | cons part parts ih =>
    rw [labelsShape, encodeLabels]
    split_ifs
    · exact .refuse
    · exact (Describes.poke 0).seq (.poke 0)
    · exact (Describes.poke _).seq ((Describes.put part).seq ih)

theorem describes_encodeNameTo : Describes (nameShape name) (encodeNameTo name) :=
  describes_encodeLabels _

end Llarp.Dns

import Llarp.Util.Bencode

/-!
# Writing into a buffer

Numbers are written with `vsnprintf`, which needs a byte more than the text for the zero at its
end. If there is no such byte, the last character of the text is lost and the writer goes on. No
dictionary is spoilt by that: the byte that ends it has no room then.
-/

namespace Llarp

open Bencode List

/-- A buffer of which the bytes before the cursor have been written. -/
structure WriteBuffer where
  sz : ℕ
  written : List UInt8 := []
  deriving DecidableEq

namespace WriteBuffer

variable (bytes : List UInt8) (b : WriteBuffer)

def sizeLeft : ℕ := b.sz - b.written.length

def append (bytes : List UInt8) : WriteBuffer :=
  { b with written := b.written ++ bytes }

def write : Option WriteBuffer :=
  if bytes.length ≤ b.sizeLeft then some (b.append bytes) else none

def writef (text : List UInt8) (b : WriteBuffer) : Option WriteBuffer :=
  if text = [] ∨ b.sizeLeft < text.length then none
  -- the zero takes the place of the last character
  else if b.sizeLeft = text.length then some (b.append (text.dropLast ++ [0]))
  else some (b.append text)

variable (data : List UInt8) {items : List (WriteBuffer → Option WriteBuffer)}
  {encoded : List (String × List UInt8)} {first second : WriteBuffer → Option WriteBuffer}
  (writer : WriteBuffer → Option WriteBuffer)
  {entries : List (String × (WriteBuffer → Option WriteBuffer))}

def writeBytestring (b : WriteBuffer) : Option WriteBuffer :=
  (b.writef (decimal data.length ++ ascii ":")).bind (write data)

def writeUint64 (n : ℕ) (b : WriteBuffer) : Option WriteBuffer :=
  (b.writef (ascii "i" ++ decimal n)).bind (write (ascii "e"))

def startDict : WriteBuffer → Option WriteBuffer := write (ascii "d")

def finish : WriteBuffer → Option WriteBuffer := write (ascii "e")

/-- The rest of a dictionary: each key with what writes its value, and the end. -/
def writeEntries : List (String × (WriteBuffer → Option WriteBuffer)) → WriteBuffer →
    Option WriteBuffer
  | [], b => b.finish
  | (key, value) :: entries, b =>
    (writeBytestring (ascii key) b).bind fun b => (value b).bind (writeEntries entries)

def writeDict (entries : List (String × (WriteBuffer → Option WriteBuffer)))
    (b : WriteBuffer) : Option WriteBuffer :=
  b.startDict.bind (writeEntries entries)

/-- The rest of a list: what writes its elements, and the end. -/
def writeElements : List (WriteBuffer → Option WriteBuffer) → WriteBuffer → Option WriteBuffer
  | [], b => b.finish
  | item :: items, b => (item b).bind (writeElements items)

/-- `BEncodeWriteList`. -/
def writeList (items : List (WriteBuffer → Option WriteBuffer)) (b : WriteBuffer) :
    Option WriteBuffer :=
  (b.write (ascii "l")).bind (writeElements items)

/-- The writer appends these bytes if there is room for one more, and without that room it fails
or fills the buffer. -/
def Writes (bytes : List UInt8) : Prop :=
  ∀ b, (bytes.length < b.sizeLeft → writer b = some (b.append bytes)) ∧
    (b.sizeLeft ≤ bytes.length → ∀ after, writer b = some after → after.sizeLeft = 0)

theorem sizeLeft_append (bytes : List UInt8) :
    (b.append bytes).sizeLeft = b.sizeLeft - bytes.length := by
  rw [sizeLeft, sizeLeft, append, length_append, Nat.sub_sub]

theorem append_append (first second : List UInt8) :
    (b.append first).append second = b.append (first ++ second) := by
  rw [append, append, append, append_assoc]

theorem writes_write : Writes (write bytes) bytes := by
  refine fun b => ⟨fun room => if_pos room.le, fun full after written => ?_⟩
  rw [write] at written
  split_ifs at written
  cases written
  rw [sizeLeft_append]
  omega

theorem writes_writef {text : List UInt8} (some : text ≠ []) : Writes (writef text) text := by
  refine fun b => ⟨fun room => ?_, fun full after written => ?_⟩
  · rw [writef, if_neg (not_or.mpr ⟨some, by omega⟩), if_neg (by omega)]
  · rw [writef] at written
    split_ifs at written with short exact_room
    · cases written
      have size : (text.dropLast ++ [0]).length = text.length := by
        rw [length_append, length_dropLast, length_singleton]
        exact Nat.sub_add_cancel (length_pos_iff.mpr some)
      rw [sizeLeft_append, size]
      omega
    · exact absurd (not_lt.mp (not_or.mp short).2) (by omega)

/-- Writers in a row. -/
theorem Writes.bind {bytes more : List UInt8} (writes : Writes first bytes)
    (next : Writes second more) : Writes (fun b => (first b).bind second) (bytes ++ more) := by
  intro b
  rw [length_append]
  constructor
  · intro room
    have rest : more.length < (b.append bytes).sizeLeft := by
      rw [sizeLeft_append]
      omega
    dsimp only
    rw [(writes b).1 (by omega), Option.bind_some, (next _).1 rest, append_append]
  · intro full after written
    obtain ⟨between, written, last⟩ := Option.bind_eq_some_iff.mp written
    refine (next between).2 ?_ after last
    rcases lt_or_ge bytes.length b.sizeLeft with room | short
    · cases ((writes b).1 room).symm.trans written
      rw [sizeLeft_append]
      omega
    · rw [(writes b).2 short between written]
      exact Nat.zero_le _

theorem writes_writeBytestring : Writes (writeBytestring data) (bytestring data) :=
  (writes_writef (append_ne_nil_of_right_ne_nil _ (cons_ne_nil _ _))).bind
    (writes_write data)

theorem writes_writeUint64 (n : ℕ) : Writes (writeUint64 n) (uint64 n) :=
  (writes_writef (cons_ne_nil _ _)).bind (writes_write (ascii "e"))

/-- The writer appends these bytes exactly if there is room for them. -/
def WritesAll (bytes : List UInt8) : Prop :=
  bytes ≠ [] ∧ ∀ b, writer b = if bytes.length ≤ b.sizeLeft then some (b.append bytes) else none

theorem writesAll_finish : WritesAll finish (ascii "e") := ⟨cons_ne_nil _ _, fun _ => rfl⟩

/-- A writer that fails for want of room makes up for the text that lost its last character. -/
theorem Writes.bindAll {bytes more : List UInt8} (writes : Writes first bytes)
    (next : WritesAll second more) :
    WritesAll (fun b => (first b).bind second) (bytes ++ more) := by
  have some := length_pos_iff.mpr next.1
  refine ⟨append_ne_nil_of_right_ne_nil _ next.1, fun b => ?_⟩
  dsimp only
  rw [length_append]
  rcases lt_or_ge bytes.length b.sizeLeft with room | short
  · rw [(writes b).1 room, Option.bind_some, next.2, sizeLeft_append, append_append]
    exact if_congr (by omega) rfl rfl
  · rw [if_neg (by omega), Option.bind_eq_none_iff]
    intro between written
    rw [next.2, (writes b).2 short between written, if_neg (by omega)]

theorem writesAll_writeEntries
    (writes : List.Forall₂ (fun entry value => entry.1 = value.1 ∧ Writes entry.2 value.2) entries
      encoded) :
    WritesAll (writeEntries entries)
      (encoded.flatMap (fun entry => bytestring (ascii entry.1) ++ entry.2) ++ ascii "e") := by
  induction writes with
  | nil => exact writesAll_finish
  | @cons entry value entries encoded first rest ih =>
    obtain ⟨key, value⟩ := value
    obtain ⟨rfl, first⟩ := first
    rw [flatMap_cons, append_assoc, append_assoc]
    exact (writes_writeBytestring _).bindAll (first.bindAll ih)

theorem writesAll_writeDict
    (writes : List.Forall₂ (fun entry value => entry.1 = value.1 ∧ Writes entry.2 value.2) entries
      encoded) :
    WritesAll (writeDict entries) (Bencode.dict encoded) := by
  rw [Bencode.dict, append_assoc]
  exact (writes_write (ascii "d")).bindAll (writesAll_writeEntries writes)

theorem WritesAll.writes {writer : WriteBuffer → Option WriteBuffer} {bytes : List UInt8}
    (all : WritesAll writer bytes) : Writes writer bytes := by
  refine fun b => ⟨fun room => ?_, fun full after written => ?_⟩
  · rw [all.2, if_pos room.le]
  · rw [all.2] at written
    split_ifs at written
    cases written
    rw [sizeLeft_append]
    omega

theorem writesAll_writeElements {encoded : List (List UInt8)}
    (writes : List.Forall₂ Writes items encoded) :
    WritesAll (writeElements items) (encoded.flatten ++ ascii "e") := by
  induction writes with
  | nil => exact writesAll_finish
  | cons first rest ih =>
    rw [flatten_cons, append_assoc]
    exact first.bindAll ih

theorem writesAll_writeList {encoded : List (List UInt8)}
    (writes : List.Forall₂ Writes items encoded) :
    WritesAll (writeList items) (Bencode.list encoded) := by
  rw [Bencode.list, append_assoc]
  exact (writes_write (ascii "l")).bindAll (writesAll_writeElements writes)

theorem WritesAll.eq_fit {writer : WriteBuffer → Option WriteBuffer} {bytes : List UInt8}
    (writes : WritesAll writer bytes) (capacity : ℕ) :
    writer ⟨capacity, []⟩ = (fit capacity bytes).map (WriteBuffer.mk capacity) := by
  rw [writes.2, fit]
  show (if bytes.length ≤ capacity then _ else _) = _
  split_ifs
  · rfl
  · rfl

end WriteBuffer

end Llarp

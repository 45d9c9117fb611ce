import Llarp.Util.BencodeWrite
import Llarp.Util.BencodeBounds

/-!
# What writing does to memory

A writer is a row of calls of `write` and `writef` that ends with the first call that fails. Here
it works on memory: a text that does not fit is printed as far as it goes, with a zero behind it.
The bytes before the cursor are those of a `WriteBuffer`.
-/

namespace Llarp

/-- A call that writes, or the refusal to encode a value at all. What is printed is a C string,
and never empty. -/
inductive Output where
  | write (bytes : List UInt8)
  | writef (text : List UInt8) (printable : text ≠ [] ∧ 0 ∉ text)
  | refuse
  deriving DecidableEq

namespace LlarpBuffer

/-- The buffer with bytes written at the cursor. -/
def put (bytes : List UInt8) (b : LlarpBuffer) : LlarpBuffer :=
  { b with mem := fun i =>
      if b.cur ≤ i ∧ i < b.cur + bytes.length then bytes.getD (i - b.cur) 0 else b.mem i }

/-- At most as many bytes as are left, the last of which is a zero. -/
def vsnprintf (text : List UInt8) (b : LlarpBuffer) : LlarpBuffer :=
  if b.sizeLeft = 0 then b else b.put (text.take (b.sizeLeft - 1) ++ [0])

def write (bytes : List UInt8) (b : LlarpBuffer) : Bool × LlarpBuffer :=
  if bytes.length ≤ b.sizeLeft then (true, (b.put bytes).skip bytes.length) else (false, b)

def writef (text : List UInt8) (b : LlarpBuffer) : Bool × LlarpBuffer :=
  let toWrite := b.sizeLeft
  let b := b.vsnprintf text
  if text.length = 0 then (false, b)
  else if toWrite < text.length then (false, b)
  else (true, b.skip text.length)

/-- The bytes before the cursor. -/
def toWriteBuffer (b : LlarpBuffer) : WriteBuffer := ⟨b.sz, slice b.mem 0 b.cur⟩

end LlarpBuffer

open LlarpBuffer Output List

namespace Output

def bytes : Output → List UInt8
  | .write bytes => bytes
  | .writef text _ => text
  | .refuse => []

def append : Output → WriteBuffer → Option WriteBuffer
  | .write bytes => WriteBuffer.write bytes
  | .writef text _ => WriteBuffer.writef text
  | .refuse => fun _ => none

def store : Output → LlarpBuffer → Bool × LlarpBuffer
  | .write bytes => LlarpBuffer.write bytes
  | .writef text _ => LlarpBuffer.writef text
  | .refuse => fun b => (false, b)

/-- Calls one after the other. -/
def appendAll : List Output → WriteBuffer → Option WriteBuffer
  | [], b => some b
  | call :: calls, b => (call.append b).bind (appendAll calls)

def storeAll : List Output → LlarpBuffer → Bool × LlarpBuffer
  | [], b => (true, b)
  | call :: calls, b =>
    match call.store b with
    | (true, b) => storeAll calls b
    | (false, b) => (false, b)

end Output

/-! ### Refinement -/

/-- Writing to memory changes nothing but the bytes between the cursor and the end of the buffer,
and moves the cursor only forward. If it succeeds, the bytes before the cursor are those that the
writer leaves; if it fails, so does the writer. -/
structure Stores (writer : WriteBuffer → Option WriteBuffer)
    (stores : LlarpBuffer → Bool × LlarpBuffer) (b : LlarpBuffer) : Prop where
  sz : (stores b).2.sz = b.sz
  cur : b.cur ≤ (stores b).2.cur
  outside : ∀ i, i < b.cur ∨ b.sz ≤ i → (stores b).2.mem i = b.mem i
  result : writer b.toWriteBuffer =
    if (stores b).1 then some (stores b).2.toWriteBuffer else none

namespace LlarpBuffer

variable {b : LlarpBuffer} {bytes : List UInt8}

theorem sizeLeft_toWriteBuffer (b : LlarpBuffer) : b.toWriteBuffer.sizeLeft = b.sizeLeft := by
  rw [WriteBuffer.sizeLeft, toWriteBuffer, length_slice, sizeLeft]

theorem put_outside {i : ℕ} (outside : i < b.cur ∨ b.cur + bytes.length ≤ i) :
    (b.put bytes).mem i = b.mem i :=
  if_neg (by omega)

/-- Bytes that are written stand in memory. -/
theorem slice_put (b : LlarpBuffer) (bytes : List UInt8) {n : ℕ} (short : n ≤ bytes.length) :
    slice (b.put bytes).mem b.cur n = bytes.take n := by
  have size : (bytes.take n).length = n := length_take_of_le short
  have holds : ∀ i < (bytes.take n).length,
      (b.put bytes).mem (b.cur + i) = (bytes.take n).getD i 0 := by
    intro i inside
    have here : b.cur ≤ b.cur + i ∧ b.cur + i < b.cur + bytes.length := by omega
    rw [put]
    dsimp only
    rw [if_pos here, Nat.add_sub_cancel_left, getD_eq_getElem?_getD,
      getD_eq_getElem?_getD, getElem?_take_of_lt (size ▸ inside)]
  have whole := slice_eq_of_getD holds
  rwa [size] at whole

theorem toWriteBuffer_skip (b : LlarpBuffer) {n : ℕ} (short : n ≤ bytes.length) :
    ((b.put bytes).skip n).toWriteBuffer = b.toWriteBuffer.append (bytes.take n) := by
  rw [toWriteBuffer, toWriteBuffer]
  congr 1
  show slice (b.put bytes).mem 0 (b.cur + n) = _
  rw [slice_add, Nat.zero_add, slice_put b bytes short,
    slice_congr fun i _ before => put_outside (.inl (by omega))]

end LlarpBuffer

namespace Stores

variable {b : LlarpBuffer}

theorem write (bytes : List UInt8) (b : LlarpBuffer) :
    Stores (WriteBuffer.write bytes) (LlarpBuffer.write bytes) b := by
  by_cases fits : bytes.length ≤ b.sizeLeft
  · have stores : LlarpBuffer.write bytes b = (true, (b.put bytes).skip bytes.length) :=
      if_pos fits
    have inside : b.cur + bytes.length ≤ b.sz ∨ bytes.length = 0 := by
      rw [sizeLeft] at fits
      omega
    refine ⟨?_, ?_, fun i outside => ?_, ?_⟩
    · rw [stores]; rfl
    · rw [stores]; exact Nat.le_add_right _ _
    · rw [stores]
      exact put_outside (by omega)
    · rw [stores, if_pos rfl, toWriteBuffer_skip b le_rfl, take_length, WriteBuffer.write,
        sizeLeft_toWriteBuffer, if_pos fits]
  · have stores : LlarpBuffer.write bytes b = (false, b) := if_neg fits
    refine ⟨?_, ?_, fun i outside => ?_, ?_⟩
    · rw [stores]
    · rw [stores]
    · rw [stores]
    · rw [stores, WriteBuffer.write, sizeLeft_toWriteBuffer, if_neg fits]
      rfl

end Stores

namespace LlarpBuffer

theorem vsnprintf_outside {text : List UInt8} {b : LlarpBuffer} {i : ℕ}
    (outside : i < b.cur ∨ b.sz ≤ i) : (b.vsnprintf text).mem i = b.mem i := by
  rw [vsnprintf]
  split_ifs
  · rfl
  · refine put_outside ?_
    rw [length_append, length_take, length_singleton]
    rw [sizeLeft] at *
    omega

theorem vsnprintf_frame (text : List UInt8) (b : LlarpBuffer) :
    (b.vsnprintf text).sz = b.sz ∧ (b.vsnprintf text).cur = b.cur := by
  rw [vsnprintf]
  split_ifs
  · exact ⟨rfl, rfl⟩
  · exact ⟨rfl, rfl⟩

/-- What is printed if the text fits: all of it, or all but its last character and a zero. -/
theorem toWriteBuffer_vsnprintf {text : List UInt8} {b : LlarpBuffer} (some : text ≠ [])
    (fits : text.length ≤ b.sizeLeft) :
    ((b.vsnprintf text).skip text.length).toWriteBuffer = b.toWriteBuffer.append
      (if b.sizeLeft = text.length then text.dropLast ++ [0] else text) := by
  have positive := length_pos_iff.mpr some
  rw [vsnprintf, if_neg (by omega)]
  have size : text.length ≤ (text.take (b.sizeLeft - 1) ++ [0]).length := by
    rw [length_append, length_take, length_singleton]
    omega
  rw [toWriteBuffer_skip b size]
  congr 1
  split_ifs with exactly
  · rw [exactly, dropLast_eq_take, take_of_length_le]
    rw [length_append, length_take, length_singleton]
    omega
  · rw [take_of_length_le (by omega : text.length ≤ b.sizeLeft - 1), take_left]

end LlarpBuffer

namespace Stores

theorem writef {text : List UInt8} (some : text ≠ []) (b : LlarpBuffer) :
    Stores (WriteBuffer.writef text) (LlarpBuffer.writef text) b := by
  have positive := length_pos_iff.mpr some
  obtain ⟨sz, cur⟩ := vsnprintf_frame text b
  by_cases fits : text.length ≤ b.sizeLeft
  · have stores : LlarpBuffer.writef text b = (true, (b.vsnprintf text).skip text.length) := by
      rw [LlarpBuffer.writef, if_neg positive.ne', if_neg (not_lt.mpr fits)]
    refine ⟨?_, ?_, fun i outside => ?_, ?_⟩
    · rw [stores]; exact sz
    · rw [stores]; exact cur.ge.trans (Nat.le_add_right _ _)
    · rw [stores]; exact vsnprintf_outside outside
    · rw [stores, if_pos rfl, toWriteBuffer_vsnprintf some fits, WriteBuffer.writef,
        sizeLeft_toWriteBuffer, if_neg (not_or.mpr ⟨some, not_lt.mpr fits⟩)]
      split_ifs
      · rfl
      · rfl
  · have stores : LlarpBuffer.writef text b = (false, b.vsnprintf text) := by
      rw [LlarpBuffer.writef, if_neg positive.ne', if_pos (not_le.mp fits)]
    refine ⟨?_, ?_, fun i outside => ?_, ?_⟩
    · rw [stores]; exact sz
    · rw [stores]; exact cur.ge
    · rw [stores]; exact vsnprintf_outside outside
    · rw [stores, WriteBuffer.writef, sizeLeft_toWriteBuffer, if_pos (.inr (not_le.mp fits))]
      rfl

/-- A row of calls. -/
theorem storeAll (calls : List Output) (b : LlarpBuffer) :
    Stores (appendAll calls) (storeAll calls) b := by
  induction calls generalizing b with
  | nil => exact ⟨rfl, le_rfl, fun _ _ => rfl, rfl⟩
  | cons call calls ih =>
    have first : Stores call.append call.store b := by
      cases call with
      | write bytes => exact write bytes b
      | writef text printable => exact writef printable.1 b
      | refuse => exact ⟨rfl, le_rfl, fun _ _ => rfl, rfl⟩
    obtain ⟨sz, cur, outside, result⟩ := first
    generalize stored : call.store b = after at *
    obtain ⟨ok, after⟩ := after
    dsimp only at sz cur outside result
    cases ok with
    | false =>
      have ends : Output.storeAll (call :: calls) b = (false, after) := by
        rw [Output.storeAll, stored]
      refine ⟨by rw [ends]; exact sz, by rw [ends]; exact cur,
        by rw [ends]; exact outside, ?_⟩
      rw [ends, appendAll, result]
      rfl
    | true =>
      have goes : Output.storeAll (call :: calls) b = Output.storeAll calls after := by
        rw [Output.storeAll, stored]
      obtain ⟨sz', cur', outside', result'⟩ := ih after
      refine ⟨by rw [goes, sz', sz], by rw [goes]; exact cur.trans cur', fun i away => ?_, ?_⟩
      · rw [goes, outside' i (by omega), outside i away]
      · rw [goes, ← result', appendAll, result]
        rfl

end Stores

/-! ### Which bytes a row of calls appends -/

namespace Output

/-- All the bytes that a row of calls is to write. -/
def total (calls : List Output) : List UInt8 := calls.flatMap bytes

def isPrinted : Output → Bool
  | .write _ => false
  | .writef _ _ => true
  | .refuse => false

/-- The last byte is printed. -/
def endsInText : List Output → Bool
  | [] => false
  | call :: calls => if total calls = [] then call.isPrinted else endsInText calls

theorem total_cons (call : Output) (calls : List Output) :
    total (call :: calls) = call.bytes ++ total calls :=
  flatMap_cons

theorem total_append (calls more : List Output) :
    total (calls ++ more) = total calls ++ total more :=
  flatMap_append

/-- Calls without bytes do nothing. -/
theorem appendAll_of_empty {calls : List Output} (willing : .refuse ∉ calls)
    (none : total calls = []) (b : WriteBuffer) : appendAll calls b = some b := by
  induction calls generalizing b with
  | nil => rfl
  | cons call calls ih =>
    rw [total_cons, append_eq_nil_iff] at none
    obtain ⟨first, rest⟩ := none
    have others := fun member => willing (mem_cons_of_mem _ member)
    cases call with
    | write bytes =>
      obtain rfl : bytes = [] := first
      have kept : b.append [] = b := by rw [WriteBuffer.append, append_nil]
      have first : WriteBuffer.write [] b = some b :=
        (if_pos (Nat.zero_le _)).trans (congrArg some kept)
      rw [appendAll, append, first]
      exact ih others rest b
    | writef text printable => exact absurd first printable.1
    | refuse => exact absurd mem_cons_self willing

theorem writes_append {call : Output} (willing : call ≠ .refuse) :
    WriteBuffer.Writes call.append call.bytes := by
  cases call with
  | write bytes => exact WriteBuffer.writes_write bytes
  | writef text printable => exact WriteBuffer.writes_writef printable.1
  | refuse => exact absurd rfl willing

theorem appendAll_of_refuse {calls : List Output} (refuses : .refuse ∈ calls) (b : WriteBuffer) :
    appendAll calls b = none := by
  induction calls generalizing b with
  | nil => exact absurd refuses not_mem_nil
  | cons call calls ih =>
    rcases mem_cons.mp refuses with rfl | later
    · rfl
    · exact Option.bind_eq_none_iff.mpr fun after _ => ih later after

/-- If all bytes fit exactly and the last of them is printed, a zero stands in its place. -/
theorem appendAll_eq {calls : List Output} (willing : .refuse ∉ calls) (b : WriteBuffer) :
    appendAll calls b =
      if (total calls).length ≤ b.sizeLeft then
        some (b.append (if endsInText calls ∧ b.sizeLeft = (total calls).length then
          (total calls).dropLast ++ [0] else total calls))
      else none := by
  induction calls generalizing b with
  | nil =>
    have kept : b.append [] = b := by rw [WriteBuffer.append, append_nil]
    exact congrArg some kept.symm
  | cons call calls ih =>
    have first : call ≠ .refuse := fun refuses => willing (refuses ▸ mem_cons_self)
    have others := fun member => willing (mem_cons_of_mem call member)
    rw [appendAll, total_cons, length_append]
    by_cases none : total calls = []
    · -- the first call writes all the bytes
      have rest : appendAll calls = some := funext (appendAll_of_empty others none)
      rw [none, append_nil, length_nil, Nat.add_zero, rest, Option.bind_fun_some,
        endsInText, if_pos none]
      cases call with
      | write bytes => simp only [isPrinted, Bool.false_eq_true, false_and, if_false]; rfl
      | writef text printable =>
        rw [append, WriteBuffer.writef, bytes, isPrinted]
        simp only [printable.1, false_or, true_and]
        rcases lt_trichotomy b.sizeLeft text.length with short | exactly | room
        · rw [if_pos short, if_neg (not_le.mpr short)]
        · rw [if_neg exactly.not_lt, if_pos exactly, if_pos exactly.ge, if_pos exactly]
        · rw [if_neg room.not_gt, if_neg room.ne', if_pos room.le, if_neg room.ne']
      | refuse => exact absurd rfl first
    · have positive := length_pos_iff.mpr none
      rw [endsInText, if_neg none]
      rcases lt_or_ge call.bytes.length b.sizeLeft with room | short
      · rw [(writes_append first b).1 room, Option.bind_some, ih others, WriteBuffer.sizeLeft_append,
          WriteBuffer.append_append, apply_ite (call.bytes ++ ·), ← append_assoc,
          dropLast_append_of_ne_nil none]
        have same : (total calls).length ≤ b.sizeLeft - call.bytes.length ↔
            call.bytes.length + (total calls).length ≤ b.sizeLeft := by omega
        have exactly : b.sizeLeft - call.bytes.length = (total calls).length ↔
            b.sizeLeft = call.bytes.length + (total calls).length := by omega
        simp only [same, exactly]
      · -- nothing is left for the other calls
        rw [if_neg (by omega), Option.bind_eq_none_iff]
        intro after written
        rw [ih others, (writes_append first b).2 short after written, if_neg (by omega)]

/-- A printed byte is not a zero. -/
theorem last_ne_zero {calls : List Output} (ends : endsInText calls = true) :
    ∃ front last, total calls = front ++ [last] ∧ last ≠ 0 := by
  induction calls with
  | nil => cases ends
  | cons call calls ih =>
    rw [endsInText] at ends
    rw [total_cons]
    split_ifs at ends with none
    · cases call with
      | write bytes => cases ends
      | writef text printable =>
        refine ⟨text.dropLast, text.getLast printable.1, ?_, fun zero => printable.2 ?_⟩
        · rw [none, append_nil, dropLast_concat_getLast]
          rfl
        · rw [← zero]
          exact getLast_mem printable.1
      | refuse => cases ends
    · obtain ⟨front, last, eq, notZero⟩ := ih ends
      exact ⟨call.bytes ++ front, last, by rw [eq, append_assoc], notZero⟩

end Output

/-- If the writer returns true, the bytes between the old and the new cursor are the value, and in
any case nothing is written behind the end of the buffer. -/
def WritesExactly (stores : LlarpBuffer → Bool × LlarpBuffer) (value : List UInt8)
    (b : LlarpBuffer) : Prop :=
  ((stores b).1 = true → slice (stores b).2.mem b.cur ((stores b).2.cur - b.cur) = value) ∧
    ∀ i, b.sz ≤ i → (stores b).2.mem i = b.mem i

namespace Stores

variable {writer : WriteBuffer → Option WriteBuffer} {stores : LlarpBuffer → Bool × LlarpBuffer}
  {b : LlarpBuffer} (refines : Stores writer stores b)

include refines

theorem accepted {after : WriteBuffer} (appends : writer b.toWriteBuffer = some after) :
    (stores b).1 = true := by
  by_contra refused
  have result := refines.result
  rw [appends, if_neg refused] at result
  cases result

theorem refused (fails : writer b.toWriteBuffer = none) : ¬(stores b).1 = true := by
  intro accepted
  have result := refines.result
  rw [fails, if_pos accepted] at result
  cases result

/-- The bytes between the old and the new cursor are those that were appended. -/
theorem slice_eq {bytes : List UInt8} (accepted : (stores b).1 = true)
    (appends : writer b.toWriteBuffer = some (b.toWriteBuffer.append bytes)) :
    slice (stores b).2.mem b.cur ((stores b).2.cur - b.cur) = bytes := by
  have result := refines.result
  rw [appends, accepted] at result
  have written : slice b.mem 0 b.cur ++ bytes = slice (stores b).2.mem 0 (stores b).2.cur :=
    congrArg WriteBuffer.written (Option.some.inj result)
  rw [← Nat.add_sub_cancel' refines.cur, slice_add, Nat.zero_add] at written
  have sizes : (slice b.mem 0 b.cur).length = (slice (stores b).2.mem 0 b.cur).length := by
    rw [length_slice, length_slice]
  exact (append_inj written sizes).2.symm

end Stores

/-- A row of calls is exact unless its last byte is printed and falls on the end of the buffer. -/
theorem writesExactly_storeAll_iff (calls : List Output) (b : LlarpBuffer) :
    WritesExactly (storeAll calls) (total calls) b ↔
      ¬((.refuse ∉ calls ∧ endsInText calls = true) ∧
        b.sizeLeft = (total calls).length) := by
  have refines := Stores.storeAll calls b
  constructor
  · rintro exactly ⟨⟨willing, ends⟩, fits⟩
    have appends := appendAll_eq willing b.toWriteBuffer
    obtain ⟨front, last, eq, notZero⟩ := last_ne_zero ends
    rw [sizeLeft_toWriteBuffer, if_pos fits.ge, if_pos ⟨ends, fits⟩] at appends
    have accepted := refines.accepted appends
    have zero := (refines.slice_eq accepted appends).symm.trans (exactly.1 accepted)
    rw [eq, dropLast_concat] at zero
    exact notZero (cons.inj (append_cancel_left zero)).1.symm
  · intro room
    refine ⟨fun accepted => ?_, fun i behind => refines.outside i (.inr behind)⟩
    have willing : .refuse ∉ calls := by
      intro refuses
      exact absurd accepted (refines.refused (appendAll_of_refuse refuses _))
    have appends := appendAll_eq willing b.toWriteBuffer
    have inexact : ¬(endsInText calls = true ∧
        b.sizeLeft = (total calls).length) :=
      fun both => room ⟨⟨willing, both.1⟩, both.2⟩
    rw [sizeLeft_toWriteBuffer] at appends
    split_ifs at appends
    · exact refines.slice_eq accepted appends
    · exact absurd accepted (refines.refused appends)

end Llarp

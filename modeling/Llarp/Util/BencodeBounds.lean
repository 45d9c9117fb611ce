import Llarp.Util.BencodeScan
import Llarp.Util.BencodeTotal

/-!
# What the readers decode depends on the bytes of the buffer

A reader of a buffer does what the reader of a list does with the bytes from the cursor to the
end of the buffer, as long as the value is not cut off there. If it is, the reader looks at the
byte behind the buffer, and goes on behind the end if this is the byte that it wants.
-/

namespace Llarp

open LlarpBuffer

namespace LlarpBuffer

/-- The bytes from the cursor to the end. -/
def rest (b : LlarpBuffer) : List UInt8 := slice b.mem b.cur b.sizeLeft

end LlarpBuffer

@[simp] theorem length_slice (mem : ℕ → UInt8) (start len : ℕ) : (slice mem start len).length = len := by
  induction len generalizing start with
  | zero => rfl
  | succ len ih => rw [slice, List.length_cons, ih]

theorem slice_add (mem : ℕ → UInt8) (start m n : ℕ) :
    slice mem start (m + n) = slice mem start m ++ slice mem (start + m) n := by
  induction m generalizing start with
  | zero => rw [Nat.zero_add, slice, List.nil_append, Nat.add_zero]
  | succ m ih =>
    rw [Nat.succ_add, slice, slice, List.cons_append, ih, Nat.add_right_comm, Nat.add_assoc]

theorem slice_congr {mem mem' : ℕ → UInt8} {start len : ℕ}
    (agree : ∀ i, start ≤ i → i < start + len → mem i = mem' i) :
    slice mem start len = slice mem' start len := by
  induction len generalizing start with
  | zero => rfl
  | succ len ih =>
    rw [slice, slice, agree start le_rfl (by omega), ih fun i low high => agree i (by omega) (by omega)]

/-- Memory that holds a list, byte by byte. -/
theorem slice_eq_of_getD {mem : ℕ → UInt8} {start : ℕ} {bytes : List UInt8}
    (holds : ∀ i < bytes.length, mem (start + i) = bytes.getD i 0) :
    slice mem start bytes.length = bytes := by
  induction bytes generalizing start with
  | nil => rfl
  | cons byte bytes ih =>
    have first : mem start = byte := holds 0 (Nat.succ_pos _)
    have rest : ∀ i < bytes.length, mem (start + 1 + i) = bytes.getD i 0 := fun i inside => by
      rw [Nat.add_assoc, Nat.add_comm 1]
      exact holds (i + 1) (Nat.succ_lt_succ inside)
    rw [List.length_cons, slice, first, ih rest]

variable (bytes : List UInt8) {b : LlarpBuffer}

/-- A buffer around some bytes. -/
def LlarpBuffer.ofBytes : LlarpBuffer :=
  ⟨fun i => bytes.getD i 0, bytes.length, 0⟩

theorem rest_ofBytes : (ofBytes bytes).rest = bytes :=
  slice_eq_of_getD fun i _ => congrArg (bytes.getD · 0) (Nat.zero_add i)

section Rest

variable {b b' : LlarpBuffer}

@[simp] theorem length_rest (b : LlarpBuffer) : b.rest.length = b.sizeLeft := length_slice ..

theorem rest_eq_nil (empty : b.sizeLeft = 0) : b.rest = [] := by
  rw [LlarpBuffer.rest, empty, slice]

theorem rest_eq_cons (left : b.sizeLeft ≠ 0) : b.rest = b.peek :: (b.skip 1).rest := by
  obtain ⟨n, size⟩ := Nat.exists_eq_succ_of_ne_zero left
  have tail : (b.skip 1).sizeLeft = n := by
    rw [sizeLeft] at size ⊢
    show b.sz - (b.cur + 1) = n
    omega
  rw [LlarpBuffer.rest, size, LlarpBuffer.rest, tail]
  rfl

theorem skip_one_inside (left : b.sizeLeft ≠ 0) : (b.skip 1).cur ≤ b.sz := by
  rw [sizeLeft] at left
  show b.cur + 1 ≤ b.sz
  omega

theorem cur_eq_sz (inside : b.cur ≤ b.sz) (empty : b.sizeLeft = 0) : b.cur = b.sz := by
  rw [sizeLeft] at empty
  omega

theorem skip_inside {n : ℕ} (inside : b.cur ≤ b.sz) (fits : n ≤ b.sizeLeft) :
    (b.skip n).cur ≤ b.sz := by
  rw [sizeLeft] at fits
  show b.cur + n ≤ b.sz
  omega

theorem slice_eq_take {n : ℕ} (fits : n ≤ b.sizeLeft) :
    slice b.mem b.cur n = b.rest.take n := by
  rw [LlarpBuffer.rest, ← Nat.add_sub_cancel' fits, slice_add, List.take_left' (length_slice ..)]

theorem rest_skip {n : ℕ} (inside : n ≤ b.sizeLeft) : (b.skip n).rest = b.rest.drop n := by
  have size : b.sizeLeft = n + (b.skip n).sizeLeft := by
    rw [sizeLeft] at inside
    show b.sz - b.cur = n + (b.sz - (b.cur + n))
    omega
  rw [LlarpBuffer.rest, LlarpBuffer.rest, size, slice_add, List.drop_left' (length_slice ..)]
  rfl

end Rest

/-! ### Readers that follow the readers of lists -/

section Follows

variable {α σ τ : Type*}

/-- A reader of a buffer ends as the reader of the list says. If the value is cut off and the
byte behind the buffer is the one that is wanted, the cursor leaves the buffer, and otherwise
the reader refuses at the end of the buffer. -/
def Follows (b : LlarpBuffer) (read : Reading σ) : Outcome σ → Prop
  | .ended ending value rest =>
    read.1 = ending ∧ read.2.1 = value ∧ read.2.2.cur ≤ b.sz ∧ read.2.2.rest = rest
  | .cutOff wanted value =>
    (b.mem b.sz = wanted → b.sz < read.2.2.cur) ∧
      (b.mem b.sz ≠ wanted → read.1 = .refused ∧ read.2.1 = value ∧ read.2.2.cur = b.sz)

def Refines (read : α → LlarpBuffer → Reading σ) (scan : α → List UInt8 → Outcome σ) : Prop :=
  ∀ s b, b.cur ≤ b.sz → Follows b (read s b) (scan s b.rest)

variable {b b' : LlarpBuffer} {read : Reading σ} {out : Outcome σ}

/-- To follow from a later cursor is to follow. -/
theorem Follows.of_onward (follows : Follows b' read out) (onward : Onward b b') :
    Follows b read out := by
  cases out with
  | ended ending value rest => rwa [Follows, ← onward.sz]
  | cutOff wanted value => rwa [Follows, ← onward.sz, ← onward.mem]

theorem Follows.map (follows : Follows b read out) (f : σ → τ) :
    Follows b (read.1, f read.2.1, read.2.2) (out.map f) := by
  cases out with
  | ended ending value rest =>
    obtain ⟨ending, value, inside, rest⟩ := follows
    exact ⟨ending, congrArg f value, inside, rest⟩
  | cutOff wanted value =>
    refine ⟨follows.1, fun differ => ?_⟩
    obtain ⟨ending, value, cur⟩ := follows.2 differ
    exact ⟨ending, congrArg f value, cur⟩

end Follows

theorem readUntilLoop_eq (delim : UInt8) (resultsize : ℕ) (inside : b.cur ≤ b.sz) :
    (readUntilLoop delim resultsize b).1 = (splitUntil delim resultsize b.rest).1 ∧
      (readUntilLoop delim resultsize b).2.rest = (splitUntil delim resultsize b.rest).2 ∧
      (readUntilLoop delim resultsize b).2.cur ≤ b.sz := by
  induction resultsize generalizing b with
  | zero => exact ⟨rfl, rfl, inside⟩
  | succ resultsize ih =>
    rw [readUntilLoop]
    by_cases empty : b.cur = b.sz
    · have nothing : b.rest = [] := rest_eq_nil (by rw [sizeLeft, empty, Nat.sub_self])
      rw [if_neg fun more => more.1 empty, nothing]
      exact ⟨rfl, rfl, inside⟩
    · have left : b.sizeLeft ≠ 0 := by
        rw [sizeLeft]
        omega
      rw [rest_eq_cons left]
      by_cases stop : b.peek = delim
      · rw [if_neg fun more => more.2 stop, splitUntil, if_neg (not_not.mpr stop)]
        exact ⟨rfl, rest_eq_cons left, inside⟩
      · rw [if_pos ⟨empty, stop⟩, splitUntil, if_pos stop]
        obtain ⟨chars, rest, bound⟩ := ih (skip_one_inside left)
        exact ⟨congrArg _ chars, rest, bound⟩

theorem sizeLeft_eq_zero_iff : b.sizeLeft = 0 ↔ b.rest = [] := by
  rw [← List.length_eq_zero_iff, length_rest]

/-- The characters that `readUntil` returns, in terms of the list. -/
theorem readUntil_eq (delim : UInt8) (resultsize : ℕ) (inside : b.cur ≤ b.sz) :
    (b.readUntil delim resultsize).1 =
        (if (splitUntil delim resultsize b.rest).2 = [] then []
        else (splitUntil delim resultsize b.rest).1) ∧
      (b.readUntil delim resultsize).2.rest = (splitUntil delim resultsize b.rest).2 ∧
      (b.readUntil delim resultsize).2.cur ≤ b.sz := by
  obtain ⟨chars, rest, bound⟩ := readUntilLoop_eq delim resultsize inside
  refine ⟨?_, rest, bound⟩
  rw [← rest, ← chars]
  exact if_congr sizeLeft_eq_zero_iff rfl rfl

theorem follows_readInteger (inside : b.cur ≤ b.sz) :
    Follows b (.ofBool b.readInteger.1.isSome, b.readInteger) (scanInteger b.rest) := by
  by_cases empty : b.sizeLeft = 0
  -- nothing is left: the reader looks at the byte behind the buffer
  · have atEnd := cur_eq_sz inside empty
    rw [rest_eq_nil empty]
    constructor
    · intro wanted
      have here : b.peek = 'i'.toUInt8 := by rw [peek, atEnd, wanted]
      have read := onward_readUntil (b.skip 1) 'e'.toUInt8 31
      rw [readInteger, if_neg (not_not.mpr here)]
      dsimp only
      split_ifs
      · exact atEnd ▸ read.cur
      · exact lt_of_lt_of_le (atEnd ▸ read.cur) (Nat.le_add_right ..)
    · intro other
      have here : b.peek ≠ 'i'.toUInt8 := by rwa [peek, atEnd]
      rw [readInteger, if_pos here]
      exact ⟨rfl, rfl, atEnd⟩
  · rw [rest_eq_cons empty, scanInteger, readInteger]
    by_cases head : b.peek = 'i'.toUInt8
    · obtain ⟨chars, rest, bound⟩ := readUntil_eq 'e'.toUInt8 31 (skip_one_inside empty)
      rw [if_neg (not_not.mpr head), if_neg (not_not.mpr head)]
      dsimp only
      by_cases ended : (splitUntil 'e'.toUInt8 31 (b.skip 1).rest).2 = []
      · rw [if_pos (Or.inl ended), chars, if_pos ended]
        exact ⟨rfl, rfl, bound, rest⟩
      · rw [chars, if_neg ended]
        by_cases none : (splitUntil 'e'.toUInt8 31 (b.skip 1).rest).1 = []
        · rw [if_pos (Or.inr none), if_pos none]
          exact ⟨rfl, rfl, bound, rest⟩
        · rw [if_neg (not_or.mpr ⟨ended, none⟩), if_neg none]
          have left : ((b.skip 1).readUntil 'e'.toUInt8 31).2.sizeLeft ≠ 0 := by
            rwa [Ne, sizeLeft_eq_zero_iff, rest]
          refine ⟨rfl, rfl, ?_, ?_⟩
          · exact (skip_one_inside left).trans (onward_readUntil (b.skip 1) 'e'.toUInt8 31).sz.le
          · rw [rest_skip (Nat.one_le_iff_ne_zero.mpr left), rest, List.drop_one]
    · rw [if_pos head, if_pos head]
      exact ⟨rfl, rfl, inside, rest_eq_cons empty⟩

/-- Strings are read within the buffer. -/
theorem follows_readString (inside : b.cur ≤ b.sz) :
    Follows b (.ofBool b.readString.1.isSome, b.readString) (scanString b.rest) := by
  obtain ⟨chars, rest, bound⟩ := readUntil_eq ':'.toUInt8 9 inside
  have same := onward_readUntil b ':'.toUInt8 9
  rw [scanString, readString]
  dsimp only
  by_cases ended : (splitUntil ':'.toUInt8 9 b.rest).2 = []
  · rw [if_pos (Or.inl ended), chars, if_pos ended]
    exact ⟨rfl, rfl, bound, rest⟩
  rw [chars, if_neg ended]
  by_cases none : (splitUntil ':'.toUInt8 9 b.rest).1 = []
  · rw [if_pos (Or.inr (Or.inl none)), if_pos none]
    exact ⟨rfl, rfl, bound, rest⟩
  rw [if_neg none]
  by_cases negative : atoi (splitUntil ':'.toUInt8 9 b.rest).1 < 0
  · rw [if_pos (Or.inr (Or.inr negative)), if_pos negative]
    exact ⟨rfl, rfl, bound, rest⟩
  rw [if_neg (not_or.mpr ⟨ended, not_or.mpr ⟨none, negative⟩⟩)]
  have left : (b.readUntil ':'.toUInt8 9).2.sizeLeft ≠ 0 := by rwa [Ne, sizeLeft_eq_zero_iff, rest]
  have tail : ((b.readUntil ':'.toUInt8 9).2.skip 1).rest = (splitUntil ':'.toUInt8 9 b.rest).2.tail := by
    rw [rest_skip (Nat.one_le_iff_ne_zero.mpr left), rest, List.drop_one]
  have next := (skip_one_inside left).trans same.sz.le
  rw [← tail, length_rest]
  split_ifs with short
  · exact ⟨rfl, rfl, next, rfl⟩
  · have fits := Nat.le_of_not_lt short
    refine ⟨rfl, congrArg some (slice_eq_take fits), ?_, rest_skip fits⟩
    exact (skip_inside (skip_one_inside left) fits).trans same.sz.le

theorem scanString_eq_ended : ∃ ending value rest, scanString bytes = .ended ending value rest := by
  rw [scanString]
  dsimp only
  split_ifs
  · exact ⟨_, _, _, rfl⟩
  · exact ⟨_, _, _, rfl⟩
  · exact ⟨_, _, _, rfl⟩

/-! ### Containers -/

section Containers

variable {α σ τ : Type*} {b : LlarpBuffer} {element finish : σ → LlarpBuffer → Reading σ}
  {scanElement scanFinish : σ → List UInt8 → Outcome σ} {start : UInt8}

/-- Two readers in a row follow two readers of lists in a row. -/
theorem Follows.next {read : Reading σ} {out : Outcome σ} {f : σ → LlarpBuffer → Reading σ}
    {g : σ → List UInt8 → Outcome σ} (follows : Follows b read out) (onward : Onward b read.2.2)
    (moves : ∀ s b, Onward b (f s b).2.2)
    (refines : ∀ s b', Onward b b' → b'.cur ≤ b'.sz → Follows b' (f s b') (g s b'.rest)) :
    Follows b (read.next f) (out.next g) := by
  obtain ⟨ending, s, after⟩ := read
  cases out with
  | ended ending' value rest =>
    obtain ⟨rfl, rfl, inside, rfl⟩ := follows
    cases ending with
    | accepted =>
      exact (refines _ after onward (inside.trans onward.sz.ge)).of_onward onward
    | _ => exact ⟨rfl, rfl, inside, rfl⟩
  | cutOff wanted value =>
    constructor
    · intro same
      have left : b.sz < after.cur := follows.1 same
      cases ending with
      | accepted => exact lt_of_lt_of_le left (moves s after).cur
      | _ => exact left
    · intro differ
      obtain ⟨rfl, rfl, atEnd⟩ := follows.2 differ
      exact ⟨rfl, rfl, atEnd⟩

theorem refines_readLoop (consumes : Consumes element) (ends : ∀ s b, Onward b (finish s b).2.2)
    (refines : Refines element scanElement) (refinesEnd : Refines finish scanFinish) (fuel : ℕ) :
    Refines (readLoop element finish fuel) (scanLoop scanElement scanFinish fuel) := by
  induction fuel with
  | zero => exact fun s b inside => ⟨rfl, rfl, inside, rfl⟩
  | succ fuel ih =>
    intro s b inside
    rw [readLoop]
    by_cases empty : b.sizeLeft = 0
    -- nothing is left: the loop looks at the byte behind the buffer
    · have atEnd := cur_eq_sz inside empty
      rw [if_neg fun more => more.1 empty, rest_eq_nil empty, peek, atEnd]
      constructor
      · intro wanted
        rw [if_neg (not_not.mpr wanted)]
        exact lt_of_lt_of_le (atEnd ▸ Nat.lt_succ_self b.cur) (ends s (b.skip 1)).cur
      · intro other
        rw [if_pos other]
        exact ⟨rfl, rfl, atEnd⟩
    · rw [rest_eq_cons empty, scanLoop]
      by_cases stop : b.peek = 'e'.toUInt8
      · rw [if_neg fun more => more.2 stop, if_neg (not_not.mpr stop), if_pos stop]
        exact (refinesEnd s (b.skip 1) (skip_one_inside empty)).of_onward (Onward.skip b 1)
      · rw [if_pos ⟨empty, stop⟩, if_neg stop, ← rest_eq_cons empty]
        exact (refines s b inside).next (consumes.onward s b) (onward_readLoop consumes ends fuel)
          fun s b' _ => ih s b'

theorem refines_readContainer (consumes : Consumes element)
    (ends : ∀ s b, Onward b (finish s b).2.2) (refines : Refines element scanElement)
    (refinesEnd : Refines finish scanFinish) :
    Refines (readContainer start element finish) (scanContainer start scanElement scanFinish) := by
  intro s b inside
  rw [readContainer, scanContainer, length_rest]
  by_cases short : b.sizeLeft < 2
  · rw [if_pos short, if_pos (Or.inl short)]
    exact ⟨rfl, rfl, inside, rfl⟩
  have left : b.sizeLeft ≠ 0 := by omega
  rw [if_neg short, rest_eq_cons left, List.head?_cons]
  by_cases head : b.peek = start
  · rw [if_neg (not_not.mpr head), if_neg (not_or.mpr ⟨short, not_not.mpr (congrArg some head)⟩)]
    exact (refines_readLoop consumes ends refines refinesEnd _ s (b.skip 1)
      (skip_one_inside left)).of_onward (Onward.skip b 1)
  · rw [if_pos head, if_pos (Or.inr fun same => head (Option.some.inj same))]
    exact ⟨rfl, rfl, inside, rest_eq_cons left⟩

theorem refines_readEntry {sink : Option (List UInt8) → σ → LlarpBuffer → Reading σ}
    {scanSink : Option (List UInt8) → σ → List UInt8 → Outcome σ}
    (refines : ∀ key, Refines (sink (some key)) (scanSink (some key))) :
    Refines (readEntry sink) (scanEntry scanSink) := by
  intro s b inside
  have string := follows_readString inside
  have onward := onward_readString b
  obtain ⟨ending, value, rest, scanned⟩ := scanString_eq_ended b.rest
  rw [scanned] at string
  obtain ⟨-, same, bound, remaining⟩ := string
  rw [readEntry, scanEntry, scanned, ← same, ← remaining]
  cases read : b.readString with
  | mk result after =>
    rw [read] at onward bound
    cases result with
    | none => exact ⟨rfl, rfl, bound, rfl⟩
    | some key => exact (refines key s after (bound.trans onward.sz.ge)).of_onward onward

end Containers

/-! ### Skipping -/

theorem refines_discardWithin (depth : ℕ) :
    Refines (fun (_ : Unit) b => discardWithin depth b) fun _ => scanDiscardWithin depth := by
  induction depth with
  | zero => exact fun _ b inside => ⟨rfl, rfl, inside, rfl⟩
  | succ depth ih =>
    have consumes := consumes_discardWithin depth
    have accept : Refines (fun (_ : Unit) b => (Ending.accepted, (), b)) fun _ rest =>
        .ended .accepted () rest := fun _ b inside => ⟨rfl, rfl, inside, rfl⟩
    intro u b inside
    show Follows b (discardWithin (depth + 1) b) (scanDiscardWithin (depth + 1) b.rest)
    rw [discardWithin]
    by_cases empty : b.sizeLeft = 0
    · rw [if_pos empty, rest_eq_nil empty]
      exact ⟨rfl, rfl, inside, rest_eq_nil empty⟩
    rw [rest_eq_cons empty, scanDiscardWithin, ← rest_eq_cons empty]
    split_ifs
    · exact refines_readContainer consumes (fun _ => Onward.refl) ih accept () b inside
    · exact (follows_readInteger inside).map fun _ => ()
    · exact refines_readContainer (consumes_readEntry fun _ => consumes.onward)
        (fun _ => Onward.refl) (refines_readEntry fun _ => ih) accept () b inside
    · exact (follows_readString inside).map fun _ => ()
    · exact ⟨rfl, rfl, inside, rfl⟩

theorem follows_discard (inside : b.cur ≤ b.sz) : Follows b (discard b) (scanDiscard b.rest) := by
  rw [scanDiscard, length_rest]
  exact refines_discardWithin _ () b inside

end Llarp

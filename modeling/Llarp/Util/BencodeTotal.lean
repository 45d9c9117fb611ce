import Llarp.Util.BencodeRead

/-!
# Readers return

A reader leaves the memory alone and moves the cursor on. A value takes at least one byte, so
the loops over dictionaries and lists come to an end, and so does the recursion that skips a
value, whatever the memory holds.
-/

namespace Llarp

open LlarpBuffer Ending

/-- The same buffer with the cursor where it was or further on. -/
structure Onward (b b' : LlarpBuffer) : Prop where
  mem : b'.mem = b.mem
  sz : b'.sz = b.sz
  cur : b.cur ≤ b'.cur

namespace Onward

variable {b b' b'' : LlarpBuffer}

theorem refl (b : LlarpBuffer) : Onward b b := ⟨rfl, rfl, le_rfl⟩

theorem trans (first : Onward b b') (second : Onward b' b'') : Onward b b'' :=
  ⟨second.mem.trans first.mem, second.sz.trans first.sz, first.cur.trans second.cur⟩

theorem skip (b : LlarpBuffer) (n : ℕ) : Onward b (b.skip n) := ⟨rfl, rfl, Nat.le_add_right ..⟩

theorem sizeLeft_le (onward : Onward b b') : b'.sizeLeft ≤ b.sizeLeft := by
  rw [sizeLeft, onward.sz]
  exact Nat.sub_le_sub_left onward.cur _

/-- A cursor that has moved leaves less, if anything was left. -/
theorem sizeLeft_lt (onward : Onward b b') (moved : b.cur < b'.cur) (left : b.sizeLeft ≠ 0) :
    b'.sizeLeft < b.sizeLeft := by
  rw [sizeLeft, sizeLeft, onward.sz]
  rw [sizeLeft] at left
  omega

end Onward

/-! ### Numbers and strings -/

variable (b : LlarpBuffer) (delim : UInt8) (resultsize : ℕ)

theorem readUntilLoop_snd (b : LlarpBuffer) :
    (readUntilLoop delim resultsize b).2 = b.skip (readUntilLoop delim resultsize b).1.length := by
  induction resultsize generalizing b with
  | zero => rfl
  | succ resultsize ih =>
    rw [readUntilLoop]
    split_ifs
    · dsimp only
      rw [ih, LlarpBuffer.skip, LlarpBuffer.skip, LlarpBuffer.skip, List.length_cons,
        Nat.add_right_comm, Nat.add_assoc]
    · rfl

theorem onward_readUntil : Onward b (b.readUntil delim resultsize).2 := by
  have moved : (b.readUntil delim resultsize).2 = _ := readUntilLoop_snd delim resultsize b
  rw [moved]
  exact Onward.skip b _

theorem onward_readInteger : Onward b b.readInteger.2 := by
  rw [readInteger]
  split_ifs
  · exact Onward.refl b
  · have read := (Onward.skip b 1).trans (onward_readUntil (b.skip 1) 'e'.toUInt8 31)
    dsimp only
    split_ifs
    · exact read
    · exact read.trans (Onward.skip _ 1)

theorem readInteger_progress {b : LlarpBuffer} (some : b.readInteger.1.isSome) :
    b.cur < b.readInteger.2.cur := by
  rw [readInteger] at some ⊢
  split_ifs at some ⊢
  · exact absurd some Bool.false_ne_true
  · have read := onward_readUntil (b.skip 1) 'e'.toUInt8 31
    dsimp only at some ⊢
    split_ifs at some ⊢
    · exact absurd some Bool.false_ne_true
    · exact lt_of_lt_of_le (Nat.lt_succ_self _) (read.cur.trans (Nat.le_add_right ..))

theorem onward_readString : Onward b b.readString.2 := by
  have read := onward_readUntil b ':'.toUInt8 9
  rw [readString]
  dsimp only
  split_ifs
  · exact read
  · exact read
  · exact read.trans (Onward.skip _ 1)
  · exact (read.trans (Onward.skip _ 1)).trans (Onward.skip _ _)

theorem readString_progress {b : LlarpBuffer} (some : b.readString.1.isSome) :
    b.cur < b.readString.2.cur := by
  have read := onward_readUntil b ':'.toUInt8 9
  rw [readString] at some ⊢
  dsimp only at some ⊢
  split_ifs at some ⊢
  · exact absurd some Bool.false_ne_true
  · exact absurd some Bool.false_ne_true
  · exact absurd some Bool.false_ne_true
  · exact lt_of_le_of_lt read.cur (lt_of_lt_of_le (Nat.lt_succ_self _) (Nat.le_add_right ..))

/-! ### Containers -/

section Containers

variable {α σ : Type*}

/-- A reader that moves the cursor on and, if it is not at the end of the buffer and accepts,
by at least a byte. -/
structure Consumes (read : α → LlarpBuffer → Reading σ) : Prop where
  onward : ∀ s b, Onward b (read s b).2.2
  progress : ∀ s b, b.sizeLeft ≠ 0 → (read s b).1 = .accepted → b.cur < (read s b).2.2.cur

/-- A reader that returns if at most `left` bytes are left. -/
def ReturnsWithin (left : ℕ) (read : α → LlarpBuffer → Reading σ) : Prop :=
  ∀ s b, b.sizeLeft ≤ left → (read s b).1 ≠ .endless

variable {left fuel : ℕ} {b : LlarpBuffer} {s : σ} {element finish : σ → LlarpBuffer → Reading σ}
  {start : UInt8}

variable {f : σ → LlarpBuffer → Reading σ}

variable {read : Reading σ} {sink : Option (List UInt8) → σ → LlarpBuffer → Reading σ}

theorem Reading.onward_next (onward : Onward b read.2.2) (moves : ∀ s b, Onward b (f s b).2.2) :
    Onward b (read.next f).2.2 := by
  obtain ⟨ending, s, after⟩ := read
  cases ending with
  | accepted => exact onward.trans (moves s after)
  | _ => exact onward

theorem Consumes.next {read : α → LlarpBuffer → Reading σ} (consumes : Consumes read)
    (moves : ∀ s b, Onward b (f s b).2.2) : Consumes fun a b => (read a b).next f := by
  refine ⟨fun a b => Reading.onward_next (consumes.onward a b) moves, fun a b left accepted => ?_⟩
  have progress := consumes.progress a b left
  generalize read a b = here at progress accepted ⊢
  obtain ⟨ending, s, after⟩ := here
  cases ending with
  | accepted => exact lt_of_lt_of_le (progress rfl) (moves s after).cur
  | _ => exact absurd accepted noConfusion

theorem Reading.next_ne_endless (returns : read.1 ≠ .endless) (next : ∀ s b, (f s b).1 ≠ .endless) :
    (read.next f).1 ≠ .endless := by
  obtain ⟨ending, s, after⟩ := read
  cases ending with
  | accepted => exact next s after
  | _ => exact returns

section

variable (consumes : Consumes element)

include consumes

theorem onward_readLoop (ends : ∀ s b, Onward b (finish s b).2.2)
    (fuel : ℕ) (s : σ) (b : LlarpBuffer) : Onward b (readLoop element finish fuel s b).2.2 := by
  induction fuel generalizing s b with
  | zero => exact Onward.refl b
  | succ fuel ih =>
    rw [readLoop]
    split_ifs
    · exact Reading.onward_next (consumes.onward s b) ih
    · exact Onward.refl b
    · exact (Onward.skip b 1).trans (ends s _)

/-- Every element takes at least a byte, so a loop with more fuel than bytes returns. -/
theorem readLoop_ne_endless (returns : ReturnsWithin left element)
    (ends : ReturnsWithin left finish) (bound : b.sizeLeft ≤ left) (enough : b.sizeLeft < fuel) :
    (readLoop element finish fuel s b).1 ≠ .endless := by
  induction fuel generalizing s b with
  | zero => exact absurd enough (Nat.not_lt_zero _)
  | succ fuel ih =>
    rw [readLoop]
    split_ifs with more
    · have here := returns s b bound
      have value := consumes.onward s b
      have progress := consumes.progress s b more.1
      cases read : element s b with
      | mk ending rest =>
        rw [read] at here value progress
        cases ending with
        | accepted =>
          have fewer : rest.2.sizeLeft < b.sizeLeft := value.sizeLeft_lt (progress rfl) more.1
          exact ih (by omega) (by omega)
        | _ => exact here
    · exact noConfusion
    · exact ends s _ ((Onward.skip b 1).sizeLeft_le.trans bound)

theorem consumes_readContainer
    (ends : ∀ s b, Onward b (finish s b).2.2) : Consumes (readContainer start element finish) := by
  constructor
  · intro s b
    rw [readContainer]
    split_ifs
    · exact Onward.refl b
    · exact Onward.refl b
    · exact (Onward.skip b 1).trans (onward_readLoop consumes ends _ s _)
  · intro s b _ accepted
    rw [readContainer] at accepted ⊢
    split_ifs at accepted ⊢
    have inside := (onward_readLoop consumes ends b.sizeLeft s (b.skip 1)).cur
    exact lt_of_lt_of_le (Nat.lt_succ_self b.cur) inside

/-- The elements of a container are shorter than the container. -/
theorem returnsWithin_readContainer
    (returns : ReturnsWithin (left - 1) element) (ends : ReturnsWithin (left - 1) finish) :
    ReturnsWithin left (readContainer start element finish) := by
  intro s b bound
  rw [readContainer]
  split_ifs
  · exact noConfusion
  · exact noConfusion
  · have less := (Onward.skip b 1).sizeLeft_lt (Nat.lt_succ_self _) (by omega)
    exact readLoop_ne_endless consumes returns ends (by omega) less

end

theorem consumes_readEntry (onward : ∀ key s b, Onward b (sink (some key) s b).2.2) :
    Consumes (readEntry sink) := by
  constructor
  · intro s b
    have string := onward_readString b
    rw [readEntry]
    cases read : b.readString with
    | mk result after =>
      rw [read] at string
      cases result with
      | none => exact string
      | some key => exact string.trans (onward key s after)
  · intro s b _ accepted
    have progress : b.readString.1.isSome → _ := readString_progress
    rw [readEntry] at accepted ⊢
    cases read : b.readString with
    | mk result after =>
      rw [read] at accepted progress
      cases result with
      | none => exact absurd accepted noConfusion
      | some key => exact lt_of_lt_of_le (progress rfl) (onward key s after).cur

theorem returnsWithin_readEntry (returns : ∀ key, ReturnsWithin left (sink (some key))) :
    ReturnsWithin left (readEntry sink) := by
  intro s b bound
  have string := onward_readString b
  rw [readEntry]
  cases read : b.readString with
  | mk result after =>
    rw [read] at string
    cases result with
    | none => exact noConfusion
    | some key => exact returns key s after (string.sizeLeft_le.trans bound)

end Containers

/-! ### Skipping -/

theorem consumes_endingOf {α : Type*} {read : LlarpBuffer → Option α × LlarpBuffer}
    (onward : ∀ b, Onward b (read b).2)
    (progress : ∀ b, (read b).1.isSome → b.cur < (read b).2.cur) :
    Consumes fun (_ : Unit) b => endingOf (read b) := by
  refine ⟨fun _ => onward, fun _ b _ accepted => progress b ?_⟩
  dsimp only [endingOf, ofBool] at accepted
  split_ifs at accepted with some
  exact some

theorem endingOf_ne_endless {α : Type*} (read : Option α × LlarpBuffer) :
    (endingOf read).1 ≠ .endless := by
  dsimp only [endingOf, ofBool]
  split_ifs
  · exact noConfusion
  · exact noConfusion

theorem consumes_discardWithin (depth : ℕ) :
    Consumes fun (_ : Unit) b => discardWithin depth b := by
  induction depth with
  | zero =>
    exact ⟨fun _ => Onward.refl, fun _ _ _ accepted => absurd accepted noConfusion⟩
  | succ depth ih =>
    have list : Consumes (readList fun more _ b =>
        if more then discardWithin depth b else (.accepted, (), b)) :=
      consumes_readContainer ih fun _ => Onward.refl
    have dict : Consumes (readDict fun key _ b =>
        if key.isSome then discardWithin depth b else (.accepted, (), b)) :=
      consumes_readContainer (consumes_readEntry fun _ => ih.onward) fun _ => Onward.refl
    have integer := consumes_endingOf onward_readInteger fun _ => readInteger_progress
    have string := consumes_endingOf onward_readString fun _ => readString_progress
    constructor
    · intro u b
      rw [discardWithin]
      split_ifs
      · exact Onward.refl b
      · exact list.onward u b
      · exact integer.onward u b
      · exact dict.onward u b
      · exact string.onward u b
      · exact Onward.refl b
    · intro u b left accepted
      rw [discardWithin, if_neg left] at accepted ⊢
      split_ifs at accepted ⊢
      · exact list.progress u b left accepted
      · exact integer.progress u b left accepted
      · exact dict.progress u b left accepted
      · exact string.progress u b left accepted

/-- The recursion is never deeper than there are bytes. -/
theorem returnsWithin_discardWithin {depth left : ℕ} (enough : left < depth) :
    ReturnsWithin left fun (_ : Unit) b => discardWithin depth b := by
  induction depth generalizing left with
  | zero => exact absurd enough (Nat.not_lt_zero _)
  | succ depth ih =>
    intro u b bound
    show (discardWithin (depth + 1) b).1 ≠ .endless
    rw [discardWithin]
    split_ifs
    · exact noConfusion
    · exact returnsWithin_readContainer (consumes_discardWithin depth) (ih (by omega))
        (fun _ _ _ => noConfusion) u b bound
    · exact endingOf_ne_endless _
    · exact returnsWithin_readContainer (consumes_readEntry fun _ => (consumes_discardWithin depth).onward)
        (returnsWithin_readEntry fun _ => ih (by omega)) (fun _ _ _ => noConfusion) u b bound
    · exact endingOf_ne_endless _
    · exact noConfusion

theorem consumes_discard : Consumes fun (_ : Unit) b => discard b :=
  ⟨fun u b => (consumes_discardWithin _).onward u b,
    fun u b => (consumes_discardWithin _).progress u b⟩

theorem discard_ne_endless : (discard b).1 ≠ .endless :=
  returnsWithin_discardWithin (Nat.lt_succ_self _) () b le_rfl

end Llarp

import Llarp.Util.BencodeDecode

/-!
# Where decoders throw

The readers themselves return true or false, but what an object makes of a string may throw. A
dictionary or a list throws exactly if it comes to a value that throws, that is, if it accepts
all the values before.
-/

namespace Llarp.Decoder

open Ending List

variable {σ τ : Type*}

/-- From one element on, the loop over a container comes to another one, because it accepts all
the elements before. -/
inductive Reaches (element : Decoder σ) : σ → LlarpBuffer → σ → LlarpBuffer → Prop
  | here {s : σ} {b : LlarpBuffer} (more : More b) : Reaches element s b s b
  | next {s s₁ s₂ : σ} {b b₁ b₂ : LlarpBuffer} (more : More b)
      (accepted : element s b = (.accepted, s₁, b₁)) (rest : Reaches element s₁ b₁ s₂ b₂) :
      Reaches element s b s₂ b₂

/-- An element of a container that starts here is read, and throws. -/
def ThrowsIn (start : UInt8) (element : Decoder σ) (s : σ) (b : LlarpBuffer) : Prop :=
  2 ≤ b.sizeLeft ∧ b.peek = start ∧
    ∃ s' b', Reaches element s (b.skip 1) s' b' ∧ (element s' b').1 = .thrown

variable {element finish : Decoder σ} {s : σ} {b : LlarpBuffer}

theorem reaches_of_readLoop {fuel : ℕ} (thrown : (readLoop element finish fuel s b).1 = .thrown)
    (quiet : ∀ s b, (finish s b).1 ≠ .thrown) :
    ∃ s' b', Reaches element s b s' b' ∧ (element s' b').1 = .thrown := by
  induction fuel generalizing s b with
  | zero => exact absurd thrown noConfusion
  | succ fuel ih =>
    rw [readLoop] at thrown
    split_ifs at thrown with more stop
    · cases read : element s b with
      | mk ending rest =>
        rw [read] at thrown
        cases ending with
        | accepted =>
          obtain ⟨s', b', reaches, throws⟩ := ih thrown
          exact ⟨s', b', .next more read reaches, throws⟩
        | thrown => exact ⟨s, b, .here more, by rw [read]⟩
        | _ => exact absurd thrown noConfusion
    · exact absurd thrown (quiet _ _)

theorem readLoop_of_reaches {fuel : ℕ} {s' : σ} {b' : LlarpBuffer} (consumes : Consumes element)
    (reaches : Reaches element s b s' b') (thrown : (element s' b').1 = .thrown)
    (enough : b.sizeLeft < fuel) : (readLoop element finish fuel s b).1 = .thrown := by
  induction reaches generalizing fuel with
  | @here s b more =>
    obtain ⟨fuel, rfl⟩ := Nat.exists_eq_add_one.mpr (Nat.zero_lt_of_lt enough)
    rw [readLoop_more more]
    generalize element s b = read at thrown
    obtain ⟨ending, rest⟩ := read
    obtain rfl : ending = .thrown := thrown
    rfl
  | @next s s₁ s₂ b b₁ b₂ more accepted rest ih =>
    obtain ⟨fuel, rfl⟩ := Nat.exists_eq_add_one.mpr (Nat.zero_lt_of_lt enough)
    have onward := consumes.onward s b
    have progress := consumes.progress s b more.1
    rw [accepted] at onward progress
    have fewer : b₁.sizeLeft < b.sizeLeft := onward.sizeLeft_lt (progress rfl) more.1
    rw [readLoop_more more, accepted]
    exact ih thrown (by omega)

theorem readContainer_thrown_iff {start : UInt8} (consumes : Consumes element)
    (quiet : ∀ s b, (finish s b).1 ≠ .thrown) :
    (readContainer start element finish s b).1 = .thrown ↔ ThrowsIn start element s b := by
  rw [readContainer]
  split_ifs with short other
  · exact iff_of_false not_false fun throws => absurd throws.1 (not_le.mpr short)
  · exact iff_of_false not_false fun throws => other throws.2.1
  · constructor
    · exact fun thrown => ⟨not_lt.mp short, not_not.mp other, reaches_of_readLoop thrown quiet⟩
    · rintro ⟨-, -, s', b', reaches, thrown⟩
      have fewer := (Onward.skip b 1).sizeLeft_lt (Nat.lt_succ_self b.cur) (by omega)
      exact readLoop_of_reaches consumes reaches thrown fewer

/-- Decoding the dictionary at the cursor comes to the value of a key. -/
def EntryReached (decodeKey : List UInt8 → Decoder σ) (s : σ) (b : LlarpBuffer)
    (key : List UInt8) (s' : σ) (b' : LlarpBuffer) : Prop :=
  2 ≤ b.sizeLeft ∧ b.peek = 'd'.toUInt8 ∧
    ∃ entry, Reaches (readEntry (dictSink decodeKey)) s (b.skip 1) s' entry ∧
      entry.readString = (some key, b')

/-- Reading the list at the cursor comes to an element. -/
def ElementReached (element : Decoder σ) (s : σ) (b : LlarpBuffer) (s' : σ) (b' : LlarpBuffer) :
    Prop :=
  2 ≤ b.sizeLeft ∧ b.peek = 'l'.toUInt8 ∧ Reaches element s (b.skip 1) s' b'

theorem readEntry_thrown_iff {sink : Option (List UInt8) → Decoder σ} :
    (readEntry sink s b).1 = .thrown ↔
      ∃ key after, b.readString = (some key, after) ∧ (sink (some key) s after).1 = .thrown := by
  rw [readEntry]
  cases b.readString with
  | mk result after =>
    cases result with
    | none =>
      refine iff_of_false noConfusion ?_
      rintro ⟨_, _, read, _⟩
      cases read
    | some key =>
      constructor
      · exact fun thrown => ⟨key, after, rfl, thrown⟩
      · rintro ⟨key', after', same, thrown⟩
        cases same
        exact thrown

theorem dict_thrown_iff {decodeKey : List UInt8 → Decoder σ}
    (onward : ∀ key s b, Onward b (decodeKey key s b).2.2) :
    (dict decodeKey s b).1 = .thrown ↔
      ∃ key s' b', EntryReached decodeKey s b key s' b' ∧ (decodeKey key s' b').1 = .thrown := by
  have entries : Consumes (readEntry (dictSink decodeKey)) := consumes_readEntry onward
  have thrown : (dict decodeKey s b).1 = .thrown ↔
      ThrowsIn 'd'.toUInt8 (readEntry (dictSink decodeKey)) s b :=
    readContainer_thrown_iff entries fun _ _ => noConfusion
  refine thrown.trans ⟨?_, ?_⟩
  · rintro ⟨long, head, s', entry, reaches, throws⟩
    obtain ⟨key, b', read, throws⟩ := readEntry_thrown_iff.mp throws
    exact ⟨key, s', b', ⟨long, head, entry, reaches, read⟩, throws⟩
  · rintro ⟨key, s', b', ⟨long, head, entry, reaches, read⟩, throws⟩
    exact ⟨long, head, s', entry, reaches, readEntry_thrown_iff.mpr ⟨key, b', read, throws⟩⟩

theorem each_thrown_iff (consumes : Consumes element) :
    (each element s b).1 = .thrown ↔
      ∃ s' b', ElementReached element s b s' b' ∧ (element s' b').1 = .thrown := by
  have thrown : (each element s b).1 = .thrown ↔ ThrowsIn 'l'.toUInt8 element s b :=
    readContainer_thrown_iff consumes fun _ _ => noConfusion
  refine thrown.trans ⟨?_, ?_⟩
  · rintro ⟨long, head, s', b', reaches, throws⟩
    exact ⟨s', b', ⟨long, head, reaches⟩, throws⟩
  · rintro ⟨s', b', ⟨long, head, reaches⟩, throws⟩
    exact ⟨long, head, s', b', reaches, throws⟩

/-! ### Decoders that never throw -/

def Quiet (decode : Decoder σ) : Prop := ∀ s b, (decode s b).1 ≠ .thrown

theorem quiet_refuse : Quiet (refuse : Decoder σ) := fun _ _ => noConfusion

theorem settle_ne_thrown (s : σ) (b : LlarpBuffer) (result : Option σ) :
    (settle s b result).1 ≠ .thrown := by
  cases result <;> exact noConfusion

theorem quiet_string (store : List UInt8 → σ → Option σ) : Quiet (string store) := by
  intro s b
  rw [string]
  split
  next => exact noConfusion
  next => exact settle_ne_thrown _ _ _

theorem quiet_aligned (size : ℕ) : Quiet (aligned size) := quiet_string _

theorem quiet_integer (store : UInt64 → σ → σ) : Quiet (integer store) := by
  intro s b
  rw [integer]
  split <;> exact noConfusion

theorem quiet_readContainer {start : UInt8} (quiet : Quiet element) (quietEnd : Quiet finish) :
    Quiet (readContainer start element finish) := by
  intro s b thrown
  rw [readContainer] at thrown
  split_ifs at thrown
  obtain ⟨s', b', -, throws⟩ := reaches_of_readLoop thrown quietEnd
  exact quiet s' b' throws

theorem endingOf_ne_thrown {α : Type*} (read : Option α × LlarpBuffer) :
    (endingOf read).1 ≠ .thrown := by
  rw [endingOf, ofBool]
  split_ifs <;> exact noConfusion

theorem discardWithin_ne_thrown (depth : ℕ) (b : LlarpBuffer) :
    (discardWithin depth b).1 ≠ .thrown := by
  induction depth generalizing b with
  | zero => exact noConfusion
  | succ depth ih =>
    rw [discardWithin]
    split_ifs
    · exact noConfusion
    · exact quiet_readContainer (fun _ => ih) (fun _ _ => noConfusion) () b
    · exact endingOf_ne_thrown _
    · refine quiet_readContainer (fun s b thrown => ?_) (fun _ _ => noConfusion) () b
      obtain ⟨key, after, -, throws⟩ := readEntry_thrown_iff.mp thrown
      exact ih after throws
    · exact endingOf_ne_thrown _
    · exact noConfusion

theorem discard_ne_thrown (b : LlarpBuffer) : (Llarp.discard b).1 ≠ .thrown :=
  discardWithin_ne_thrown _ b

theorem raw_thrown_iff {use : List UInt8 → σ → Ending × σ} :
    (raw use s b).1 = .thrown ↔
      ∃ after, Llarp.discard b = (.accepted, (), after) ∧
        (use (slice b.mem b.cur (after.cur - b.cur)) s).1 = .thrown := by
  have skipped := discard_ne_thrown b
  rw [raw]
  generalize Llarp.discard b = read at *
  obtain ⟨ending, u, after⟩ := read
  cases ending with
  | accepted =>
    constructor
    · exact fun thrown => ⟨after, rfl, thrown⟩
    · rintro ⟨after', same, thrown⟩
      cases same
      exact thrown
  | _ =>
    refine iff_of_false skipped ?_
    rintro ⟨_, same, _⟩
    cases same

theorem quiet_raw {use : List UInt8 → σ → Ending × σ}
    (quiet : ∀ bytes s, (use bytes s).1 ≠ .thrown) : Quiet (raw use) := by
  intro s b
  have skipped := discard_ne_thrown b
  rw [raw]
  split
  next => exact quiet _ s
  next read => rwa [read] at skipped

theorem quiet_discard : Quiet (discard : Decoder σ) := quiet_raw fun _ _ => noConfusion

variable {key : List UInt8} {decode : Decoder τ}

theorem quiet_into (quiet : Quiet decode) (get : σ → τ) (put : τ → σ → σ) :
    Quiet (into get put decode) :=
  fun s => quiet (get s)

theorem quiet_dict {decodeKey : List UInt8 → Decoder σ} (quiet : ∀ key, Quiet (decodeKey key)) :
    Quiet (dict decodeKey) := by
  refine quiet_readContainer (fun s b thrown => ?_) fun _ _ => noConfusion
  obtain ⟨key, after, -, throws⟩ := readEntry_thrown_iff.mp thrown
  exact quiet key s after throws

theorem quiet_each (quiet : Quiet element) : Quiet (each element) :=
  quiet_readContainer quiet fun _ _ => noConfusion

theorem quiet_list (quiet : Quiet decode) (fresh : τ) : Quiet (list fresh decode) :=
  quiet_each fun _ => quiet fresh

theorem distinctElement_thrown_iff {fresh : τ} {same : τ → τ → Bool} {items : List τ} :
    (distinctElement fresh same decode items b).1 = .thrown ↔ (decode fresh b).1 = .thrown := by
  rw [distinctElement]
  split
  next read =>
    rw [read]
    split <;> exact iff_of_false noConfusion noConfusion
  next read => rw [read]

theorem new_thrown_iff {fresh : τ} {store : τ → σ → Option σ} :
    (new fresh store decode s b).1 = .thrown ↔ (decode fresh b).1 = .thrown := by
  rw [new]
  split
  next read =>
    rw [read]
    exact iff_of_false (settle_ne_thrown _ _ _) noConfusion
  next read => rw [read]

theorem quiet_distinct (quiet : Quiet decode) (fresh : τ) (same : τ → τ → Bool) :
    Quiet (distinct fresh same decode) :=
  quiet_each fun _ b thrown => quiet fresh b (distinctElement_thrown_iff.mp thrown)

theorem quiet_check {decode : Decoder σ} (quiet : Quiet decode) (test : σ → Option σ) :
    Quiet (check decode test) := by
  intro s b thrown
  have here := quiet s b
  rw [check] at thrown
  generalize decode s b = read at *
  obtain ⟨ending, item, after⟩ := read
  cases ending with
  | accepted => exact settle_ne_thrown _ _ _ thrown
  | _ => exact here thrown

/-! ### Members -/

/-- Every text is one letter, and no two are the same. -/
def Letters (texts : List String) : Prop :=
  (texts.map Bencode.ascii).Nodup ∧ ∀ text ∈ texts, (Bencode.ascii text).length = 1

instance (texts : List String) : Decidable (Letters texts) :=
  inferInstanceAs (Decidable (_ ∧ _))

theorem startsWith_unique {text other : String} (letter : (Bencode.ascii text).length = 1)
    (letter' : (Bencode.ascii other).length = 1) (starts : startsWith key text = true)
    (starts' : startsWith key other = true) : Bencode.ascii text = Bencode.ascii other := by
  have first : Bencode.ascii text <+: key := isPrefixOf_iff_prefix.mp starts
  have second : Bencode.ascii other <+: key := isPrefixOf_iff_prefix.mp starts'
  have together := prefix_of_prefix_length_le first second (by rw [letter, letter'])
  exact together.eq_of_length (by rw [letter, letter'])

variable {readers : List (String × Decoder σ)} {otherwise : Decoder σ}

/-- At most one member is meant by a key. -/
theorem find?_startsWith_iff (letters : Letters (readers.map Prod.fst))
    {reader : String × Decoder σ} :
    readers.find? (fun reader => startsWith key reader.1) = some reader ↔
      reader ∈ readers ∧ startsWith key reader.1 = true := by
  constructor
  · intro found
    have starts := find?_some found
    exact ⟨mem_of_find?_eq_some found, starts⟩
  · rintro ⟨member, starts⟩
    obtain ⟨before, behind, rfl⟩ := append_of_mem member
    rw [find?_eq_some_iff_append]
    refine ⟨starts, before, behind, rfl, fun other earlier => ?_⟩
    rw [Bool.not_eq_true']
    by_contra clash
    have same : Bencode.ascii other.1 = Bencode.ascii reader.1 := by
      refine startsWith_unique (letters.2 _ ?_) (letters.2 _ ?_) ((Bool.not_eq_false _).mp clash)
        starts
      · exact mem_map_of_mem (mem_append_left _ earlier)
      · exact mem_map_of_mem member
    have apart := letters.1
    rw [map_map, map_append, nodup_append] at apart
    exact apart.2.2 _ (mem_map_of_mem earlier) _
      (mem_map_of_mem mem_cons_self) same

/-- The member that a key means. -/
theorem members_eq {text : String} {decode : Decoder σ} (letters : Letters (readers.map Prod.fst))
    (member : (text, decode) ∈ readers) (starts : startsWith key text = true) :
    members readers otherwise key = decode := by
  rw [members, (find?_startsWith_iff letters).mpr ⟨member, starts⟩]

theorem startsWith_ascii (text : String) : startsWith (Bencode.ascii text) text = true :=
  isPrefixOf_iff_prefix.mpr (prefix_refl _)

theorem members_thrown_iff (readers : List (String × Decoder σ))
    (letters : Letters (readers.map Prod.fst)) (last : Quiet otherwise) :
    (members readers otherwise key s b).1 = .thrown ↔
      ∃ reader ∈ readers, startsWith key reader.1 = true ∧ (reader.2 s b).1 = .thrown := by
  rw [members]
  cases found : readers.find? fun reader => startsWith key reader.1 with
  | some reader =>
    obtain ⟨member, starts⟩ := (find?_startsWith_iff letters).mp found
    constructor
    · exact fun thrown => ⟨reader, member, starts, thrown⟩
    · rintro ⟨other, member', starts', thrown⟩
      have same := (find?_startsWith_iff letters).mpr ⟨member', starts'⟩
      cases found.symm.trans same
      exact thrown
  | none =>
    refine iff_of_false (last s b) ?_
    rintro ⟨reader, member, starts, _⟩
    exact find?_eq_none.mp found reader member starts

/-- Only members that are not quiet matter. -/
theorem members_thrown_iff_of_quiet (readers loud : List (String × Decoder σ))
    (letters : Letters (readers.map Prod.fst)) (last : Quiet otherwise)
    (members_loud : ∀ reader ∈ loud, reader ∈ readers)
    (others : ∀ reader ∈ readers, reader ∈ loud ∨ Quiet reader.2) :
    (members readers otherwise key s b).1 = .thrown ↔
      ∃ reader ∈ loud, startsWith key reader.1 = true ∧ (reader.2 s b).1 = .thrown := by
  refine (members_thrown_iff readers letters last).trans ⟨?_, ?_⟩
  · rintro ⟨reader, member, starts, thrown⟩
    rcases others reader member with loud | quiet
    · exact ⟨reader, loud, starts, thrown⟩
    · exact absurd thrown (quiet s b)
  · rintro ⟨reader, member, starts, thrown⟩
    exact ⟨reader, members_loud reader member, starts, thrown⟩

theorem quiet_members (quiet : ∀ reader ∈ readers, Quiet reader.2) (last : Quiet otherwise)
    (key : List UInt8) : Quiet (members readers otherwise key) := by
  rw [members]
  split
  next found => exact quiet _ (mem_of_find?_eq_some found)
  next => exact last

end Llarp.Decoder

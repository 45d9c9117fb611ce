import Llarp.Util.Bencode
import Llarp.Util.BencodeTotal

/-!
# Decoding objects

A decoder changes an object while it reads, also where it refuses in the end. Objects are
dictionaries: the first letter of a key says which member the value is decoded into. The
combinators of this module are what the decoders of all objects are made of, so that it is enough
to say once how they move the cursor and that they return.
-/

namespace Llarp

open Foundation

/-- `llarp_buffer_t::startswith`. -/
def startsWith (key : List UInt8) (text : String) : Bool := (Bencode.ascii text).isPrefixOf key

abbrev Decoder (σ : Type*) := σ → LlarpBuffer → Reading σ

namespace Decoder

variable {σ τ : Type*}

def refuse : Decoder σ := fun s b => (.refused, s, b)

/-- Take over a new object, if there is one. -/
def settle (s : σ) (b : LlarpBuffer) : Option σ → Reading σ
  | none => (.refused, s, b)
  | some s => (.accepted, s, b)

/-- Read a string and store it, unless it does not suit. -/
def string (store : List UInt8 → σ → Option σ) : Decoder σ := fun s b =>
  match b.readString with
  | (none, b) => (.refused, s, b)
  | (some bytes, b) => settle s b (store bytes s)

/-- Read an integer and store it, unless it does not suit. -/
def number (store : UInt64 → σ → Option σ) : Decoder σ := fun s b =>
  match b.readInteger with
  | (none, b) => (.refused, s, b)
  | (some n, b) => settle s b (store n s)

def integer (store : UInt64 → σ → σ) : Decoder σ := fun s b =>
  match b.readInteger with
  | (none, b) => (.refused, s, b)
  | (some n, b) => (.accepted, store n s, b)

/-- Skip a value and do something with its bytes. -/
def raw (use : List UInt8 → σ → Ending × σ) : Decoder σ := fun s b =>
  match Llarp.discard b with
  | (.accepted, _, after) =>
    let (ending, s) := use (slice b.mem b.cur (after.cur - b.cur)) s
    (ending, s, after)
  | (ending, _, after) => (ending, s, after)

def discard : Decoder σ := raw fun _ s => (.accepted, s)

/-- Decode a member of an object. -/
def into (get : σ → τ) (put : τ → σ → σ) (decode : Decoder τ) : Decoder σ := fun s b =>
  let (ending, item, b) := decode (get s) b
  (ending, put item s, b)

/-- A value that is checked after it has been decoded. -/
def check (decode : Decoder σ) (test : σ → Option σ) : Decoder σ := fun s b =>
  (decode s b).next fun s b => settle s b (test s)

/-- A buffer of a fixed size. -/
def aligned (size : ℕ) : Decoder (AlignedBuffer size) :=
  string fun bytes _ => if fits : bytes.length = size then some ⟨bytes, fits⟩ else none

def dictSink (decodeKey : List UInt8 → Decoder σ) : Option (List UInt8) → Decoder σ
  | none => fun s b => (.accepted, s, b)
  | some key => decodeKey key

/-- `bencode_decode_dict`. -/
def dict (decodeKey : List UInt8 → Decoder σ) : Decoder σ := readDict (dictSink decodeKey)

/-- A list whose elements all change the same object. -/
def each (element : Decoder σ) : Decoder σ :=
  readList fun more s b => if more then element s b else (.accepted, s, b)

variable (fresh : τ) {decode : Decoder τ}

/-- An element that could not be decoded stays in the list. -/
def listElement (decode : Decoder τ) : Decoder (List τ) := fun items b =>
  let (ending, item, b) := decode fresh b
  (ending, items ++ [item], b)

/-- `BEncodeReadList`. -/
def list (decode : Decoder τ) : Decoder (List τ) := each (listElement fresh decode)

/-- `BEncodeReadSet`: an element that is there already is refused. -/
def distinctElement (same : τ → τ → Bool) (decode : Decoder τ) : Decoder (List τ) :=
  fun items b =>
    match decode fresh b with
    | (.accepted, item, b) =>
      if items.any (same item) then (.refused, items, b) else (.accepted, items ++ [item], b)
    | (ending, _, b) => (ending, items, b)

def distinct (same : τ → τ → Bool) (decode : Decoder τ) : Decoder (List τ) :=
  each (distinctElement fresh same decode)

/-- Decode a new object and store it when it is complete, unless it does not suit. -/
def new (store : τ → σ → Option σ) (decode : Decoder τ) : Decoder σ := fun s b =>
  match decode fresh b with
  | (.accepted, item, b) => settle s b (store item s)
  | (ending, _, b) => (ending, s, b)

/-- The members of an object, of which the key selects one. -/
def members (readers : List (String × Decoder σ)) (otherwise : Decoder σ) (key : List UInt8) :
    Decoder σ :=
  match readers.find? fun reader => startsWith key reader.1 with
  | some reader => reader.2
  | none => otherwise

/-! ### Decoders return -/

/-- A decoder that moves the cursor on and returns. -/
structure Returns (decode : Decoder σ) : Prop extends Consumes decode where
  ends : ∀ s b, (decode s b).1 ≠ .endless

theorem returns_refuse : Returns (refuse : Decoder σ) :=
  ⟨⟨fun _ => Onward.refl, fun _ _ _ accepted => absurd accepted Ending.noConfusion⟩,
    fun _ _ => Ending.noConfusion⟩

/-- A decoder that reads what another one reads, and may refuse what that one accepts. -/
theorem Returns.of_same {decode : Decoder σ} {other : Decoder τ} (returns : Returns other)
    (view : σ → τ)
    (same : ∀ s b, (decode s b).2.2 = (other (view s) b).2.2 ∧
      ((decode s b).1 = (other (view s) b).1 ∨ (decode s b).1 = .refused)) : Returns decode := by
  refine ⟨⟨fun s b => ?_, fun s b left accepted => ?_⟩, fun s b endless => ?_⟩
  · rw [(same s b).1]
    exact returns.onward (view s) b
  · obtain ⟨place, ending | refused⟩ := same s b
    · rw [place]
      exact returns.progress (view s) b left (ending.symm.trans accepted)
    · exact absurd (refused.symm.trans accepted) Ending.noConfusion
  · obtain ⟨-, ending | refused⟩ := same s b
    · exact returns.ends (view s) b (ending.symm.trans endless)
    · exact absurd (refused.symm.trans endless) Ending.noConfusion

theorem settle_same (s : σ) (b : LlarpBuffer) (result : Option σ) :
    (settle s b result).2.2 = b ∧
      ((settle s b result).1 = .accepted ∨ (settle s b result).1 = .refused) := by
  cases result with
  | none => exact ⟨rfl, .inr rfl⟩
  | some s => exact ⟨rfl, .inl rfl⟩

theorem returns_endingOf {α : Type*} {read : LlarpBuffer → Option α × LlarpBuffer}
    (onward : ∀ b, Onward b (read b).2)
    (progress : ∀ b, (read b).1.isSome → b.cur < (read b).2.cur) :
    Returns fun (_ : Unit) b => endingOf (read b) :=
  ⟨consumes_endingOf onward progress, fun _ _ => endingOf_ne_endless _⟩

theorem returns_string (store : List UInt8 → σ → Option σ) : Returns (string store) := by
  have plain := returns_endingOf onward_readString fun _ => readString_progress
  refine plain.of_same (fun _ => ()) fun s b => ?_
  rw [string]
  obtain ⟨value | value, after⟩ := b.readString
  · exact ⟨rfl, .inl rfl⟩
  · exact settle_same s after _

theorem returns_integer (store : UInt64 → σ → σ) : Returns (integer store) := by
  have plain := returns_endingOf onward_readInteger fun _ => readInteger_progress
  refine plain.of_same (fun _ => ()) fun s b => ?_
  rw [integer]
  obtain ⟨value | value, after⟩ := b.readInteger <;> exact ⟨rfl, .inl rfl⟩

theorem returns_raw {use : List UInt8 → σ → Ending × σ}
    (ends : ∀ bytes s, (use bytes s).1 ≠ .endless) : Returns (raw use) := by
  refine ⟨⟨fun s b => ?_, fun s b left accepted => ?_⟩, fun s b => ?_⟩
  · have onward := consumes_discard.onward () b
    rw [raw]
    split
    next read => rwa [read] at onward
    next read => rwa [read] at onward
  · have progress := consumes_discard.progress () b left
    rw [raw] at accepted ⊢
    generalize Llarp.discard b = read at *
    obtain ⟨ending, u, after⟩ := read
    cases ending with
    | accepted => exact progress rfl
    | _ => exact absurd accepted Ending.noConfusion
  · have returned := discard_ne_endless b
    rw [raw]
    split
    next => exact ends _ s
    next read => rwa [read] at returned

theorem returns_discard : Returns (discard : Decoder σ) :=
  returns_raw fun _ _ => Ending.noConfusion

theorem returns_into (returns : Returns decode) (get : σ → τ) (put : τ → σ → σ) :
    Returns (into get put decode) :=
  returns.of_same get fun _ _ => ⟨rfl, .inl rfl⟩

theorem returns_check {decode : Decoder σ} (returns : Returns decode) (test : σ → Option σ) :
    Returns (check decode test) := by
  refine returns.of_same id fun s b => ?_
  rw [check, id]
  obtain ⟨ending, item, after⟩ := decode s b
  cases ending with
  | accepted => exact settle_same item after _
  | _ => exact ⟨rfl, .inl rfl⟩

theorem returns_aligned (size : ℕ) : Returns (aligned size) := returns_string _

theorem returns_dict {decodeKey : List UInt8 → Decoder σ} (returns : ∀ key, Returns (decodeKey key)) :
    Returns (dict decodeKey) := by
  have entries : Consumes (readEntry (dictSink decodeKey)) :=
    consumes_readEntry fun key => (returns key).onward
  refine ⟨consumes_readContainer entries fun _ => Onward.refl, fun s b => ?_⟩
  exact returnsWithin_readContainer entries
    (returnsWithin_readEntry fun key s b _ => (returns key).ends s b)
    (fun _ _ _ => Ending.noConfusion) s b le_rfl

theorem returns_each {element : Decoder σ} (returns : Returns element) : Returns (each element) :=
  ⟨consumes_readContainer returns.toConsumes fun _ => Onward.refl,
    fun s b => returnsWithin_readContainer returns.toConsumes (fun s b _ => returns.ends s b)
      (fun _ _ _ => Ending.noConfusion) s b le_rfl⟩

theorem returns_list (returns : Returns decode) (fresh : τ) : Returns (list fresh decode) :=
  returns_each (returns.of_same (fun _ => fresh) fun _ _ => ⟨rfl, .inl rfl⟩)

theorem returns_distinctElement (returns : Returns decode) (fresh : τ) (same : τ → τ → Bool) :
    Returns (distinctElement fresh same decode) := by
  refine returns.of_same (fun _ => fresh) fun items b => ?_
  rw [distinctElement]
  obtain ⟨ending, item, after⟩ := decode fresh b
  cases ending with
  | accepted =>
    dsimp only
    split_ifs
    · exact ⟨rfl, .inr rfl⟩
    · exact ⟨rfl, .inl rfl⟩
  | _ => exact ⟨rfl, .inl rfl⟩

theorem returns_distinct (returns : Returns decode) (fresh : τ) (same : τ → τ → Bool) :
    Returns (distinct fresh same decode) :=
  returns_each (returns_distinctElement returns fresh same)

theorem returns_new (returns : Returns decode) (fresh : τ) (store : τ → σ → Option σ) :
    Returns (new fresh store decode) := by
  refine returns.of_same (fun _ => fresh) fun s b => ?_
  rw [new]
  obtain ⟨ending, item, after⟩ := decode fresh b
  cases ending with
  | accepted => exact settle_same s after _
  | _ => exact ⟨rfl, .inl rfl⟩

theorem returns_members {readers : List (String × Decoder σ)} {otherwise : Decoder σ}
    (returns : ∀ reader ∈ readers, Returns reader.2) (last : Returns otherwise)
    (key : List UInt8) : Returns (members readers otherwise key) := by
  rw [members]
  split
  next found => exact returns _ (List.mem_of_find?_eq_some found)
  next => exact last

/-- The loop over a container goes on here. -/
def More (b : LlarpBuffer) : Prop := b.sizeLeft ≠ 0 ∧ b.peek ≠ 'e'.toUInt8

theorem readLoop_more {element finish : Decoder σ} {s : σ} {b : LlarpBuffer} (more : More b)
    (fuel : ℕ) :
    readLoop element finish (fuel + 1) s b = (element s b).next (readLoop element finish fuel) :=
  if_pos more

end Decoder

end Llarp

import Llarp.Util.BencodeEntries
import Llarp.Util.BencodeTake

/-!
# Objects with members

An object is decoded member by member. A table says for each member which letter means it and how
its value is decoded. After decoding, a member is what the values of its letter make of it, one
after the other; the values of other letters leave it alone.
-/

namespace Llarp

open Bencode Foundation List

/-- A member of an object, and how it is decoded. -/
structure Member (σ : Type) where
  letter : String
  Value : Type
  get : σ → Value
  put : Value → σ → σ
  decode : Decoder Value

/-- The values of a letter among the entries of a dictionary. -/
def valuesOf (letter : String) (listed : List (List UInt8 × LlarpBuffer)) : List LlarpBuffer :=
  (listed.filter fun entry => startsWith entry.1 letter).map Prod.snd

theorem valuesOf_cons (letter : String) (entry : List UInt8 × LlarpBuffer)
    (listed : List (List UInt8 × LlarpBuffer)) :
    valuesOf letter (entry :: listed) =
      if startsWith entry.1 letter then entry.2 :: valuesOf letter listed
      else valuesOf letter listed := by
  rw [valuesOf, valuesOf, filter_cons]
  split_ifs
  · rw [map_cons]
  · rfl

theorem mem_valuesOf {letter : String} {listed : List (List UInt8 × LlarpBuffer)}
    {v : LlarpBuffer} :
    v ∈ valuesOf letter listed ↔ ∃ key, (key, v) ∈ listed ∧ startsWith key letter = true := by
  simp [valuesOf]

namespace Decoder

variable {τ : Type} {decode : Decoder τ} {values : List LlarpBuffer}

/-- What a value makes of a member. -/
def after (decode : Decoder τ) (x : τ) (v : LlarpBuffer) : τ := (decode x v).2.1

/-- Every value is accepted, whatever the member held. -/
def AcceptsAll (decode : Decoder τ) (values : List LlarpBuffer) : Prop :=
  ∀ v ∈ values, ∀ x, (decode x v).1 = .accepted

theorem AcceptsAll.tail {v : LlarpBuffer} (accepts : AcceptsAll decode (v :: values)) :
    AcceptsAll decode values :=
  fun v member => accepts v (mem_cons_of_mem _ member)

/-- A member that every value overwrites has the last value. -/
theorem foldl_after_last {value : LlarpBuffer → τ} (accepts : AcceptsAll decode values)
    (reads : ∀ x v, (decode x v).1 = .accepted → after decode x v = value v) (x : τ) :
    values.foldl (after decode) x = (values.getLast?.map value).getD x := by
  induction values generalizing x with
  | nil => rfl
  | cons v values ih =>
    rw [foldl_cons, ih accepts.tail, reads x v (accepts v mem_cons_self x),
      getLast?_cons, Option.map_some, Option.getD_some, Option.getD_map]

theorem getD_getLast?_eq_iff {α β : Type*} {values : List α} {value : α → β} {x y : β} :
    (values.getLast?.map value).getD x = (values.getLast?.map value).getD y ↔
      values ≠ [] ∨ x = y := by
  cases last : values.getLast? with
  | none => exact (or_iff_right (not_not.mpr (getLast?_eq_none_iff.mp last))).symm
  | some v =>
    refine iff_of_true rfl (.inl fun none => ?_)
    rw [none] at last
    cases last

/-- After a number of values something has the same value for two members exactly if one of the
values overwrites it, or if it was the same before. -/
theorem get_foldl_after_eq_iff {α : Type*} {get : τ → α} {hits : LlarpBuffer → Prop}
    (accepts : AcceptsAll decode values)
    (overwrites : ∀ x y v, (decode x v).1 = .accepted → hits v →
      get (after decode x v) = get (after decode y v))
    (keeps : ∀ x v, (decode x v).1 = .accepted → ¬hits v → get (after decode x v) = get x)
    (x y : τ) :
    get (values.foldl (after decode) x) = get (values.foldl (after decode) y) ↔
      (∃ v ∈ values, hits v) ∨ get x = get y := by
  induction values generalizing x y with
  | nil => exact ⟨.inr, fun h => h.resolve_left fun ⟨_, member, _⟩ => not_mem_nil member⟩
  | cons v values ih =>
    have accepted := accepts v mem_cons_self
    rw [foldl_cons, foldl_cons, ih accepts.tail, exists_mem_cons_iff]
    by_cases hit : hits v
    · exact iff_of_true (.inr (overwrites x y v (accepted x) hit)) (.inl (.inl hit))
    · rw [keeps x v (accepted x) hit, keeps y v (accepted y) hit]
      exact or_congr_left (or_iff_right hit).symm

/-- A member that every value overwrites. -/
theorem foldl_after_eq_iff {value : LlarpBuffer → τ} (accepts : AcceptsAll decode values)
    (reads : ∀ x v, (decode x v).1 = .accepted → after decode x v = value v) (x y : τ) :
    values.foldl (after decode) x = values.foldl (after decode) y ↔ values ≠ [] ∨ x = y := by
  rw [foldl_after_last accepts reads, foldl_after_last accepts reads, getD_getLast?_eq_iff]

/-- A list that every value adds to. -/
theorem foldl_after_append {decode : Decoder (List τ)} {found : LlarpBuffer → List τ}
    (accepts : AcceptsAll decode values)
    (reads : ∀ x v, (decode x v).1 = .accepted → after decode x v = x ++ found v) (x : List τ) :
    values.foldl (after decode) x = x ++ values.flatMap found := by
  induction values generalizing x with
  | nil => exact (append_nil x).symm
  | cons v values ih =>
    rw [foldl_cons, ih accepts.tail, reads x v (accepts v mem_cons_self x),
      append_assoc, flatMap_cons]

end Decoder

/-- The members of an object do not interfere with each other. -/
structure Table (σ : Type) where
  members : List (Member σ)
  otherwise : Decoder σ
  letters : Decoder.Letters (members.map Member.letter)
  get_put : ∀ m ∈ members, ∀ x s, m.get (m.put x s) = x
  apart : ∀ m ∈ members, ∀ other ∈ members,
    other.letter = m.letter ∨ ∀ x s, m.get (other.put x s) = m.get s
  oblivious : ∀ m ∈ members, Decoder.Oblivious m.decode
  oblivious_otherwise : Decoder.Oblivious otherwise
  /-- a value that no member is meant by changes nothing -/
  otherwise_eq : ∀ s b, (otherwise s b).2.1 = s

namespace Table

open Decoder

variable {σ : Type} (table : Table σ)

def readers : List (String × Decoder σ) :=
  table.members.map fun m => (m.letter, .into m.get m.put m.decode)

def decodeKey : List UInt8 → Decoder σ := .members table.readers table.otherwise

/-- The entries of the dictionary at the cursor. -/
def listed (s : σ) (b : LlarpBuffer) : List (List UInt8 × LlarpBuffer) :=
  entries table.decodeKey s b

theorem letters_readers : Letters (table.readers.map Prod.fst) := by
  rw [readers, map_map]
  exact table.letters

theorem oblivious_decodeKey (key : List UInt8) : Oblivious (table.decodeKey key) := by
  refine oblivious_members (fun reader listed => ?_) table.oblivious_otherwise key
  obtain ⟨m, member, rfl⟩ := mem_map.mp listed
  exact oblivious_into (table.oblivious m member) _ _

section Members

variable {table} {m : Member σ} {key : List UInt8} {s : σ} {b : LlarpBuffer}

theorem decodeKey_eq (member : m ∈ table.members) (starts : startsWith key m.letter = true) :
    table.decodeKey key = .into m.get m.put m.decode :=
  members_eq table.letters_readers (mem_map_of_mem member) starts

/-- A key means a member, or none. -/
theorem decodeKey_cases (key : List UInt8) :
    (∃ m ∈ table.members, startsWith key m.letter = true ∧
      table.decodeKey key = .into m.get m.put m.decode) ∨ table.decodeKey key = table.otherwise := by
  rw [decodeKey, Decoder.members]
  cases found : table.readers.find? fun reader => startsWith key reader.1 with
  | some reader =>
    obtain ⟨m, member, rfl⟩ := mem_map.mp (mem_of_find?_eq_some found)
    have starts := find?_some found
    exact .inl ⟨m, member, starts, rfl⟩
  | none => exact .inr rfl

section

variable (member : m ∈ table.members)

include member

/-- A value of another letter leaves a member alone. -/
theorem get_decodeKey (misses : startsWith key m.letter = false) :
    m.get (table.decodeKey key s b).2.1 = m.get s := by
  rcases table.decodeKey_cases key with ⟨other, another, starts, decodes⟩ | skips
  · rw [decodes]
    refine (table.apart m member other another).resolve_left (fun same => ?_) _ s
    rw [same, misses] at starts
    exact Bool.noConfusion starts
  · rw [skips, table.otherwise_eq]

theorem get_apply (s : σ) (entry : List UInt8 × LlarpBuffer) :
    m.get (apply table.decodeKey s entry) =
      if startsWith entry.1 m.letter then after m.decode (m.get s) entry.2 else m.get s := by
  rw [apply]
  split_ifs with starts
  · rw [decodeKey_eq member starts]
    exact table.get_put m member _ s
  · exact get_decodeKey member ((Bool.not_eq_true _).mp starts)

theorem get_foldl_apply (listed : List (List UInt8 × LlarpBuffer)) (s : σ) :
    m.get (listed.foldl (apply table.decodeKey) s) =
      (valuesOf m.letter listed).foldl (after m.decode) (m.get s) := by
  induction listed generalizing s with
  | nil => rfl
  | cons entry listed ih =>
    rw [foldl_cons, ih, get_apply member, valuesOf_cons]
    split_ifs
    · rw [foldl_cons]
    · rfl

theorem acceptsAll_of_entries {listed : List (List UInt8 × LlarpBuffer)}
    (all : ∀ entry ∈ listed, ∀ s, (table.decodeKey entry.1 s entry.2).1 = .accepted) (s : σ) :
    AcceptsAll m.decode (valuesOf m.letter listed) := by
  intro v listed x
  obtain ⟨key, entry, starts⟩ := mem_valuesOf.mp listed
  have read := all (key, v) entry s
  rw [decodeKey_eq member starts] at read
  exact ((table.oblivious m member).ending x (m.get s) v).trans read

end

/-- What is not a member of the table stays. -/
theorem keeps_foldl_apply {τ : Type*} {get : σ → τ}
    (keeps : ∀ m ∈ table.members, ∀ x s, get (m.put x s) = get s)
    (listed : List (List UInt8 × LlarpBuffer)) (s : σ) :
    get (listed.foldl (apply table.decodeKey) s) = get s := by
  have one : ∀ s entry, get (apply table.decodeKey s entry) = get s := by
    intro s entry
    rw [apply]
    rcases table.decodeKey_cases entry.1 with ⟨m, member, -, decodes⟩ | skips
    · rw [decodes]
      exact keeps m member _ s
    · rw [skips, table.otherwise_eq]
  induction listed generalizing s with
  | nil => rfl
  | cons entry listed ih => rw [foldl_cons, ih, one]

/-- Two objects become the same exactly if each member does. -/
theorem foldl_apply_eq_iff
    (determines : ∀ s t, (∀ m ∈ table.members, m.get s = m.get t) → s = t)
    (listed : List (List UInt8 × LlarpBuffer)) (s t : σ) :
    listed.foldl (apply table.decodeKey) s = listed.foldl (apply table.decodeKey) t ↔
      ∀ m ∈ table.members, (valuesOf m.letter listed).foldl (after m.decode) (m.get s) =
        (valuesOf m.letter listed).foldl (after m.decode) (m.get t) := by
  constructor
  · intro same m member
    rw [← get_foldl_apply member, ← get_foldl_apply member, same]
  · intro same
    refine determines _ _ fun m member => ?_
    rw [get_foldl_apply member, get_foldl_apply member]
    exact same m member

variable (accepted : (dict table.decodeKey s b).1 = .accepted)

include accepted

/-- A decoded member is what the values of its letter make of it. -/
theorem get_dict (member : m ∈ table.members) (fresh : σ) :
    m.get (dict table.decodeKey s b).2.1 =
      (valuesOf m.letter (table.listed fresh b)).foldl (after m.decode) (m.get s) := by
  rw [(changed_dict table.oblivious_decodeKey s fresh b accepted).1, get_foldl_apply member]
  rfl

theorem keeps_dict {τ : Type*} {get : σ → τ}
    (keeps : ∀ m ∈ table.members, ∀ x s, get (m.put x s) = get s) :
    get (dict table.decodeKey s b).2.1 = get s := by
  rw [(changed_dict table.oblivious_decodeKey s s b accepted).1]
  exact keeps_foldl_apply keeps _ s

theorem acceptsAll_valuesOf (member : m ∈ table.members) (fresh : σ) :
    AcceptsAll m.decode (valuesOf m.letter (table.listed fresh b)) :=
  acceptsAll_of_entries member (changed_dict table.oblivious_decodeKey s fresh b accepted).2 s

end Members

/-! ### Members that were written -/

section Written

variable {table} {m : Member σ} {x : m.Value} {written : List UInt8}

theorem takes_decodeKey (member : m ∈ table.members) {s : σ}
    (takes : Takes m.decode (m.get s) written x) :
    Takes (table.decodeKey (ascii m.letter)) s written (m.put x s) := by
  rw [decodeKey_eq member (startsWith_ascii _)]
  exact takes_into takes

theorem refuses_decodeKey (member : m ∈ table.members) {s : σ}
    (refuses : Refuses m.decode (m.get s) written) :
    Refuses (table.decodeKey (ascii m.letter)) s written := by
  rw [decodeKey_eq member (startsWith_ascii _)]
  exact refuses_into refuses

end Written

end Table

end Llarp

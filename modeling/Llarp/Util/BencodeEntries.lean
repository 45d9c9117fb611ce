import Llarp.Util.BencodeThrow

/-!
# The entries of a dictionary

The objects that messages are decoded into are used again and again. Whether a decoder accepts a
dictionary does not depend on what the object held before, and neither do the entries that it
finds. The object that is left is the old one changed by one entry after the other.
-/

namespace Llarp

open Foundation

namespace Decoder

variable {σ σ' τ : Type*}

/-- Two readings that end in the same way at the same place, and with related objects if they
accept. -/
def Paired (R : σ → σ' → Prop) (read : Reading σ) (read' : Reading σ') : Prop :=
  read.1 = read'.1 ∧ read.2.2 = read'.2.2 ∧ (read.1 = .accepted → R read.2.1 read'.2.1)

/-- Related objects are decoded in the same way and stay related. -/
def Simulates (R : σ → σ' → Prop) (decode : Decoder σ) (decode' : Decoder σ') : Prop :=
  ∀ s s' b, R s s' → Paired R (decode s b) (decode' s' b)

section Simulation

variable {R : σ → σ' → Prop} {element finish : Decoder σ} {element' finish' : Decoder σ'}

theorem simulates_readLoop (elements : Simulates R element element')
    (ends : Simulates R finish finish') (fuel : ℕ) :
    Simulates R (readLoop element finish fuel) (readLoop element' finish' fuel) := by
  induction fuel with
  | zero => exact fun s s' b _ => ⟨rfl, rfl, fun accepted => by cases accepted⟩
  | succ fuel ih =>
    intro s s' b related
    rw [readLoop, readLoop]
    split_ifs
    · obtain ⟨ending, place, next⟩ := elements s s' b related
      generalize element s b = read at *
      generalize element' s' b = read' at *
      obtain ⟨e, t, after⟩ := read
      obtain ⟨e', t', after'⟩ := read'
      obtain rfl : e = e' := ending
      obtain rfl : after = after' := place
      cases e with
      | accepted => exact ih t t' after (next rfl)
      | _ => exact ⟨rfl, rfl, fun accepted => by cases accepted⟩
    · exact ⟨rfl, rfl, fun accepted => by cases accepted⟩
    · exact ends s s' _ related

theorem simulates_readContainer {start : UInt8} (elements : Simulates R element element')
    (ends : Simulates R finish finish') :
    Simulates R (readContainer start element finish) (readContainer start element' finish') := by
  intro s s' b related
  rw [readContainer, readContainer]
  split_ifs
  · exact ⟨rfl, rfl, fun accepted => by cases accepted⟩
  · exact ⟨rfl, rfl, fun accepted => by cases accepted⟩
  · exact simulates_readLoop elements ends _ s s' _ related

theorem simulates_readEntry {sink : Option (List UInt8) → Decoder σ}
    {sink' : Option (List UInt8) → Decoder σ'}
    (keys : ∀ key, Simulates R (sink (some key)) (sink' (some key))) :
    Simulates R (readEntry sink) (readEntry sink') := by
  intro s s' b related
  rw [readEntry, readEntry]
  cases b.readString with
  | mk result after =>
    cases result with
    | none => exact ⟨rfl, rfl, fun accepted => by cases accepted⟩
    | some key => exact keys key s s' after related

theorem simulates_dict {decodeKey : List UInt8 → Decoder σ} {decodeKey' : List UInt8 → Decoder σ'}
    (keys : ∀ key, Simulates R (decodeKey key) (decodeKey' key)) :
    Simulates R (dict decodeKey) (dict decodeKey') :=
  simulates_readContainer (simulates_readEntry keys) fun _ _ _ related =>
    ⟨rfl, rfl, fun _ => related⟩

theorem simulates_each (elements : Simulates R element element') :
    Simulates R (each element) (each element') :=
  simulates_readContainer elements fun _ _ _ related => ⟨rfl, rfl, fun _ => related⟩

end Simulation

/-- What is done at the end of a container can as well be done behind it. -/
theorem readLoop_next (element finish : Decoder σ) (fuel : ℕ) (s : σ) (b : LlarpBuffer) :
    readLoop element finish fuel s b =
      (readLoop element (fun s b => (.accepted, s, b)) fuel s b).next finish := by
  induction fuel generalizing s b with
  | zero => rfl
  | succ fuel ih =>
    rw [readLoop, readLoop]
    split_ifs
    · generalize element s b = read
      obtain ⟨ending, t, after⟩ := read
      cases ending with
      | accepted => exact ih t after
      | _ => rfl
    · rfl
    · rfl

theorem readContainer_next (start : UInt8) (element finish : Decoder σ) (s : σ) (b : LlarpBuffer) :
    readContainer start element finish s b =
      (readContainer start element (fun s b => (.accepted, s, b)) s b).next finish := by
  rw [readContainer, readContainer]
  split_ifs
  · rfl
  · rfl
  · exact readLoop_next element finish _ s _

/-- The decoder leaves a part of the object alone, also where it refuses. -/
def Keeps (get : σ → τ) (decode : Decoder σ) : Prop := ∀ s b, get (decode s b).2.1 = get s

theorem keeps_dict {get : σ → τ} {decodeKey : List UInt8 → Decoder σ}
    (keeps : ∀ key, Keeps get (decodeKey key)) : Keeps get (dict decodeKey) := by
  have entry : Keeps get (readEntry (dictSink decodeKey)) := by
    intro s b
    rw [readEntry]
    split
    · rfl
    next key after _ => exact keeps key s after
  have loop : ∀ fuel, Keeps get
      (readLoop (readEntry (dictSink decodeKey)) (dictSink decodeKey none) fuel) := by
    intro fuel
    induction fuel with
    | zero => exact fun _ _ => rfl
    | succ fuel ih =>
      intro s b
      rw [readLoop]
      split_ifs
      · have kept := entry s b
        generalize readEntry (dictSink decodeKey) s b = read at *
        obtain ⟨ending, t, after⟩ := read
        cases ending with
        | accepted => exact (ih t after).trans kept
        | _ => exact kept
      · rfl
      · rfl
  intro s b
  rw [dict, readDict, readContainer]
  split_ifs
  · rfl
  · rfl
  · exact loop _ s _

/-! ### Decoders that do not look at the object -/

/-- How a value is read does not depend on the object. -/
def Oblivious (decode : Decoder σ) : Prop := Simulates (fun _ _ => True) decode decode

theorem Oblivious.ending {decode : Decoder σ} (oblivious : Oblivious decode) (s s' : σ)
    (b : LlarpBuffer) : (decode s b).1 = (decode s' b).1 :=
  (oblivious s s' b trivial).1

theorem Oblivious.place {decode : Decoder σ} (oblivious : Oblivious decode) (s s' : σ)
    (b : LlarpBuffer) : (decode s b).2.2 = (decode s' b).2.2 :=
  (oblivious s s' b trivial).2.1

theorem oblivious_refuse : Oblivious (refuse : Decoder σ) :=
  fun _ _ _ _ => ⟨rfl, rfl, fun _ => trivial⟩

/-- Whether a new object suits does not depend on the old one. -/
def Indifferent {α : Type*} (store : α → σ → Option σ) : Prop :=
  ∀ a s s', (store a s).isSome = (store a s').isSome

theorem paired_settle {store store' : Option σ} (same : store.isSome = store'.isSome) (s s' : σ)
    (b : LlarpBuffer) :
    Paired (fun (_ : σ) (_ : σ) => True) (settle s b store) (settle s' b store') := by
  cases store with
  | none =>
    cases store' with
    | none => exact ⟨rfl, rfl, fun _ => trivial⟩
    | some t' => exact absurd same Bool.noConfusion
  | some t =>
    cases store' with
    | none => exact absurd same Bool.noConfusion
    | some t' => exact ⟨rfl, rfl, fun _ => trivial⟩

theorem oblivious_string {store : List UInt8 → σ → Option σ} (indifferent : Indifferent store) :
    Oblivious (string store) := by
  intro s s' b _
  rw [string, string]
  split
  next => exact ⟨rfl, rfl, fun _ => trivial⟩
  next => exact paired_settle (indifferent _ s s') s s' _

theorem oblivious_number {store : UInt64 → σ → Option σ} (indifferent : Indifferent store) :
    Oblivious (number store) := by
  intro s s' b _
  rw [number, number]
  split
  next => exact ⟨rfl, rfl, fun _ => trivial⟩
  next => exact paired_settle (indifferent _ s s') s s' _

theorem oblivious_integer (store : UInt64 → σ → σ) : Oblivious (integer store) := by
  intro s s' b _
  rw [integer, integer]
  split
  next => exact ⟨rfl, rfl, fun _ => trivial⟩
  next => exact ⟨rfl, rfl, fun _ => trivial⟩

theorem oblivious_raw {use : List UInt8 → σ → Ending × σ}
    (indifferent : ∀ bytes s s', (use bytes s).1 = (use bytes s').1) : Oblivious (raw use) := by
  intro s s' b _
  rw [raw, raw]
  split
  next => exact ⟨indifferent _ s s', rfl, fun _ => trivial⟩
  next => exact ⟨rfl, rfl, fun _ => trivial⟩

theorem oblivious_discard : Oblivious (discard : Decoder σ) := oblivious_raw fun _ _ _ => rfl

theorem discard_eq (s : σ) (b : LlarpBuffer) : (discard s b).2.1 = s := by
  rw [discard, raw]
  split
  · rfl
  · rfl

variable {s : σ} {fresh : τ} {v : LlarpBuffer} {decode : Decoder τ}
  (decodeKey : List UInt8 → Decoder σ)

theorem oblivious_into (oblivious : Oblivious decode) (get : σ → τ) (put : τ → σ → σ) :
    Oblivious (into get put decode) :=
  fun s s' b _ =>
    ⟨oblivious.ending (get s) (get s') b, oblivious.place (get s) (get s') b, fun _ => trivial⟩

theorem oblivious_aligned (size : ℕ) : Oblivious (aligned size) :=
  oblivious_string fun _ _ _ => rfl

theorem oblivious_new {store : τ → σ → Option σ} (indifferent : Indifferent store) :
    Oblivious (new fresh store decode) := by
  intro s s' b _
  rw [new, new]
  split
  next => exact paired_settle (indifferent _ s s') s s' _
  next => exact ⟨rfl, rfl, fun _ => trivial⟩

theorem oblivious_dict {decodeKey : List UInt8 → Decoder σ}
    (oblivious : ∀ key, Oblivious (decodeKey key)) : Oblivious (dict decodeKey) :=
  simulates_dict oblivious

theorem oblivious_each {element : Decoder σ} (oblivious : Oblivious element) :
    Oblivious (each element) :=
  simulates_each oblivious

theorem oblivious_list (fresh : τ) (decode : Decoder τ) : Oblivious (list fresh decode) :=
  oblivious_each fun _ _ _ _ => ⟨rfl, rfl, fun _ => trivial⟩

theorem oblivious_members {readers : List (String × Decoder σ)} {otherwise : Decoder σ}
    (oblivious : ∀ reader ∈ readers, Oblivious reader.2) (last : Oblivious otherwise)
    (key : List UInt8) : Oblivious (members readers otherwise key) := by
  rw [members]
  split
  next found => exact oblivious _ (List.mem_of_find?_eq_some found)
  next => exact last

/-! ### What accepted values hold -/

/-- The number that stands somewhere, if one does. -/
def integerAt (v : LlarpBuffer) : UInt64 := v.readInteger.1.getD 0

/-- The string that stands somewhere, if one does. -/
def stringAt (v : LlarpBuffer) : List UInt8 := v.readString.1.getD []

theorem settle_accepted {b : LlarpBuffer} {store : Option σ}
    (accepted : (settle s b store).1 = .accepted) : store = some (settle s b store).2.1 := by
  cases store with
  | none => cases accepted
  | some t => rfl

theorem string_accepted {store : List UInt8 → σ → Option σ}
    (accepted : (string store s v).1 = .accepted) :
    store (stringAt v) s = some (string store s v).2.1 := by
  rw [string] at accepted ⊢
  rw [stringAt]
  generalize v.readString = read at *
  obtain ⟨result, after⟩ := read
  cases result with
  | none => cases accepted
  | some bytes => exact settle_accepted accepted

theorem number_accepted {store : UInt64 → σ → Option σ}
    (accepted : (number store s v).1 = .accepted) :
    store (integerAt v) s = some (number store s v).2.1 := by
  rw [number] at accepted ⊢
  rw [integerAt]
  generalize v.readInteger = read at *
  obtain ⟨result, after⟩ := read
  cases result with
  | none => cases accepted
  | some i => exact settle_accepted accepted

theorem integer_accepted {store : UInt64 → σ → σ} (accepted : (integer store s v).1 = .accepted) :
    (integer store s v).2.1 = store (integerAt v) s := by
  rw [integer] at accepted ⊢
  rw [integerAt]
  generalize v.readInteger = read at *
  obtain ⟨result, after⟩ := read
  cases result with
  | none => cases accepted
  | some i => rfl

theorem aligned_accepted {size : ℕ} {s : AlignedBuffer size}
    (accepted : (aligned size s v).1 = .accepted) :
    (aligned size s v).2.1 = .copy size (stringAt v) := by
  have stored := string_accepted accepted
  split_ifs at stored with fits
  have whole := AlignedBuffer.copy_append ⟨stringAt v, fits⟩ []
  rw [List.append_nil] at whole
  exact (Option.some.inj stored).symm.trans whole.symm

theorem new_accepted {store : τ → σ → Option σ}
    (accepted : (new fresh store decode s v).1 = .accepted) :
    store (decode fresh v).2.1 s = some (new fresh store decode s v).2.1 := by
  rw [new] at accepted ⊢
  generalize decode fresh v = read at *
  obtain ⟨ending, item, after⟩ := read
  cases ending with
  | accepted => exact settle_accepted accepted
  | _ => cases accepted

/-! ### Entries -/

/-- A decoder that only takes down the keys and where their values stand. -/
def log (fresh : σ) (key : List UInt8) :
    Decoder (List (List UInt8 × LlarpBuffer)) := fun seen b =>
  ((decodeKey key fresh b).1, seen ++ [(key, b)], (decodeKey key fresh b).2.2)

/-- The entries of the dictionary at the cursor, up to the first one that is not accepted. -/
def entries (fresh : σ) (b : LlarpBuffer) : List (List UInt8 × LlarpBuffer) :=
  (dict (log decodeKey fresh) [] b).2.1

/-- What an entry makes of an object. -/
def apply (s : σ) (entry : List UInt8 × LlarpBuffer) : σ :=
  (decodeKey entry.1 s entry.2).2.1

/-- An object is an old one changed by accepted entries. -/
def Changed (before after : σ) (seen : List (List UInt8 × LlarpBuffer)) : Prop :=
  after = seen.foldl (apply decodeKey) before ∧
    ∀ entry ∈ seen, ∀ s, (decodeKey entry.1 s entry.2).1 = .accepted

theorem simulates_log {decodeKey : List UInt8 → Decoder σ}
    (oblivious : ∀ key, Oblivious (decodeKey key)) (before fresh : σ) (key : List UInt8) :
    Simulates (Changed decodeKey before) (decodeKey key) (log decodeKey fresh key) := by
  intro s seen b changed
  have ending := (oblivious key).ending
  refine ⟨ending s fresh b, (oblivious key).place s fresh b, fun accepted => ⟨?_, ?_⟩⟩
  · rw [log, List.foldl_append, ← changed.1]
    rfl
  · intro entry member t
    rcases List.mem_append.mp member with old | new
    · exact changed.2 entry old t
    · rw [List.mem_singleton.mp new]
      exact (ending t s b).trans accepted

/-- A decoded object is the old one changed by the entries of the dictionary, which do not depend
on the object. -/
theorem changed_dict {decodeKey : List UInt8 → Decoder σ}
    (oblivious : ∀ key, Oblivious (decodeKey key)) (s fresh : σ) (b : LlarpBuffer)
    (accepted : (dict decodeKey s b).1 = .accepted) :
    Changed decodeKey s (dict decodeKey s b).2.1 (entries decodeKey fresh b) := by
  have start : Changed decodeKey s s [] := ⟨rfl, fun _ member => absurd member List.not_mem_nil⟩
  exact (simulates_dict (simulates_log oblivious s fresh) s [] b start).2.2 accepted

/-! ### Where the elements of a list stand -/

/-- The places of the elements of the list at the cursor, up to the first that is not accepted. -/
def places (fresh : τ) (decode : Decoder τ) (b : LlarpBuffer) : List LlarpBuffer :=
  (each (fun seen b => ((decode fresh b).1, seen ++ [b], (decode fresh b).2.2)) [] b).2.1

/-- A list is extended by what its elements are decoded to. -/
theorem list_eq_places {items : List τ} {b : LlarpBuffer}
    (accepted : (list fresh decode items b).1 = .accepted) :
    (list fresh decode items b).2.1 =
        items ++ (places fresh decode b).map (fun place => (decode fresh place).2.1) ∧
      ∀ place ∈ places fresh decode b, (decode fresh place).1 = .accepted := by
  let R (made : List τ) (seen : List LlarpBuffer) : Prop :=
    made = items ++ seen.map (fun place => (decode fresh place).2.1) ∧
      ∀ place ∈ seen, (decode fresh place).1 = .accepted
  have elements : Simulates R (listElement fresh decode)
      (fun seen b => ((decode fresh b).1, seen ++ [b], (decode fresh b).2.2)) := by
    rintro made seen b ⟨rfl, all⟩
    refine ⟨rfl, rfl, fun accepted => ⟨?_, ?_⟩⟩
    · rw [List.map_append, ← List.append_assoc]
      rfl
    · intro place member
      rcases List.mem_append.mp member with old | new
      · exact all place old
      · rw [List.mem_singleton.mp new]
        exact accepted
  have start : R items [] := ⟨(List.append_nil _).symm, nofun⟩
  exact (simulates_each elements items [] b start).2.2 accepted

end Decoder

end Llarp

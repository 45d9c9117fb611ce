import Llarp.Util.BencodeSkip
import Llarp.Util.BencodeThrow

/-!
# Decoding what was written

A decoder takes a written value if it accepts it wherever it stands, and stops behind it. What a
decoder takes is put together from its parts as the written value is.
-/

namespace Llarp

open Bencode Foundation LlarpBuffer List

variable {b : LlarpBuffer}

/-- What the readers of single values make of a written value. -/
theorem Follows.read_eq {α : Type*} {read : Option α × LlarpBuffer} {value : α}
    {written tail : List UInt8} (inside : b.cur ≤ b.sz) (holds : b.rest = written ++ tail)
    (onward : Onward b read.2)
    (follows : Follows b (.ofBool read.1.isSome, read) (.ended .accepted (some value) tail)) :
    read = (some value, b.skip written.length) :=
  congrArg Prod.snd (follows.eq_skip inside holds onward)

theorem readString_written {data tail : List UInt8} (inside : b.cur ≤ b.sz)
    (short : data.length < 10 ^ 9) (holds : b.rest = bytestring data ++ tail) :
    b.readString = (some data, b.skip (bytestring data).length) := by
  have follows := follows_readString inside
  rw [holds, scanString_bytestring short] at follows
  exact follows.read_eq inside holds (onward_readString b)

theorem readInteger_written {n : UInt64} {tail : List UInt8} (inside : b.cur ≤ b.sz)
    (holds : b.rest = uint64 n.toNat ++ tail) :
    b.readInteger = (some n, b.skip (uint64 n.toNat).length) := by
  have follows := follows_readInteger inside
  rw [holds, scanInteger_uint64] at follows
  exact follows.read_eq inside holds (onward_readInteger b)

theorem skip_written_inside {written tail : List UInt8} (inside : b.cur ≤ b.sz)
    (holds : b.rest = written ++ tail) : (b.skip written.length).cur ≤ b.sz := by
  refine skip_inside inside ?_
  rw [← length_rest, holds, length_append]
  exact Nat.le_add_right ..

theorem skip_skip (b : LlarpBuffer) (m n : ℕ) : (b.skip m).skip n = b.skip (m + n) := by
  rw [LlarpBuffer.skip, LlarpBuffer.skip, LlarpBuffer.skip, Nat.add_assoc]

theorem head_of_rest_eq {c : UInt8} {tail : List UInt8} (holds : b.rest = c :: tail) :
    b.sizeLeft ≠ 0 ∧ b.peek = c := by
  have left : b.sizeLeft ≠ 0 := by
    rw [Ne, sizeLeft_eq_zero_iff, holds]
    exact cons_ne_nil _ _
  rw [rest_eq_cons left, cons.injEq] at holds
  exact ⟨left, holds.1⟩

namespace Decoder

variable {σ τ : Type*}

/-- The decoder accepts the written value and nothing behind it. -/
def Takes (decode : Decoder σ) (s : σ) (written : List UInt8) (s' : σ) : Prop :=
  ∀ b tail, b.cur ≤ b.sz → b.rest = written ++ tail →
    decode s b = (.accepted, s', b.skip written.length)

variable {start : UInt8} {s s' : σ} {decode : Decoder τ} {written : List UInt8}

theorem takes_string {store : List UInt8 → σ → Option σ} {data : List UInt8}
    (short : data.length < 10 ^ 9) (stored : store data s = some s') :
    Takes (string store) s (bytestring data) s' := by
  intro b tail inside holds
  rw [string, readString_written inside short holds]
  dsimp only
  rw [stored, settle]

theorem takes_integer (store : UInt64 → σ → σ) (s : σ) (n : UInt64) :
    Takes (integer store) s (uint64 n.toNat) (store n s) := by
  intro b tail inside holds
  rw [integer, readInteger_written inside holds]

theorem takes_number {store : UInt64 → σ → Option σ} {n : UInt64} (stored : store n s = some s') :
    Takes (number store) s (uint64 n.toNat) s' := by
  intro b tail inside holds
  rw [number, readInteger_written inside holds]
  dsimp only
  rw [stored, settle]

theorem takes_discard (s : σ) (v : BValue) : Takes discard s v.encode s := by
  intro b tail inside holds
  have follows := follows_discard inside
  rw [holds, scanDiscard,
    v.scanDiscardWithin_encode (by rw [length_append]; omega)] at follows
  rw [discard, raw, follows.eq_skip inside holds (consumes_discard.onward () b)]

theorem takes_new {fresh item : τ} {store : τ → σ → Option σ}
    (takes : Takes decode fresh written item) (stored : store item s = some s') :
    Takes (new fresh store decode) s written s' := by
  intro b tail inside holds
  rw [new, takes b tail inside holds]
  dsimp only
  rw [stored, settle]

theorem takes_aligned {size : ℕ} (short : size < 10 ^ 9) (before buffer : AlignedBuffer size) :
    Takes (aligned size) before (bytestring buffer.bytes) buffer := by
  refine takes_string (by rwa [buffer.length_eq]) ?_
  rw [dif_pos buffer.length_eq]

theorem takes_into {get : σ → τ} {put : τ → σ → σ} {s : σ} {item : τ}
    (takes : Takes decode (get s) written item) :
    Takes (into get put decode) s written (put item s) := by
  intro b tail inside holds
  rw [into, takes b tail inside holds]

theorem takes_check {decode : Decoder σ} {test : σ → Option σ} {s t s' : σ}
    (takes : Takes decode s written t) (passes : test t = some s') :
    Takes (check decode test) s written s' := by
  intro b tail inside holds
  rw [check, takes b tail inside holds, Reading.next, passes, settle]

theorem takes_members {readers : List (String × Decoder σ)} {text : String}
    {decode otherwise : Decoder σ} {key : List UInt8}
    (found : readers.find? (fun reader => startsWith key reader.1) = some (text, decode))
    (takes : Takes decode s written s') : Takes (members readers otherwise key) s written s' := by
  rwa [members, found]

/-- The elements of a container are taken one after the other. -/
def TakesEach (element : Decoder σ) : σ → List (List UInt8) → σ → Prop
  | s, [], s' => s = s'
  | s, written :: rest, s' =>
    Starts written ∧ ∃ next, Takes element s written next ∧ TakesEach element next rest s'

variable {element finish : Decoder σ} {s s' : σ}

variable {bad : List UInt8} {more : List τ} {fresh : τ} {tail : List UInt8}
  {encode : τ → List UInt8}

/-- The loop goes through the elements that are taken and is left with what follows them. -/
theorem readLoop_each {written : List (List UInt8)} (takes : TakesEach element s written s')
    {b : LlarpBuffer} (inside : b.cur ≤ b.sz) (holds : b.rest = written.flatten ++ tail)
    (fuel : ℕ) :
    readLoop element finish (fuel + written.length) s b =
      readLoop element finish fuel s' (b.skip written.flatten.length) := by
  induction written generalizing s b with
  | nil =>
    obtain rfl : s = s' := takes
    rfl
  | cons first written ih =>
    obtain ⟨⟨c, chars, rfl, goesOn⟩, next, taken, takes⟩ := takes
    rw [flatten_cons, append_assoc] at holds
    obtain ⟨left, head⟩ := head_of_rest_eq holds
    have more : More b := ⟨left, head ▸ goesOn⟩
    rw [length_cons, ← Nat.add_assoc, readLoop_more more, taken b _ inside holds, Reading.next,
      ih takes (skip_written_inside inside holds) (rest_skip_append holds), skip_skip,
      flatten_cons, length_append]

theorem length_le_flatten {written : List (List UInt8)} (takes : TakesEach element s written s') :
    written.length ≤ written.flatten.length := by
  induction written generalizing s with
  | nil => exact le_rfl
  | cons first written ih =>
    obtain ⟨⟨c, chars, rfl, -⟩, next, -, rest⟩ := takes
    have bound := ih rest
    rw [flatten_cons, length_append, length_cons, length_cons]
    omega

/-- The container is read up to the end of the elements that are taken. -/
theorem readContainer_each {written : List (List UInt8)} (takes : TakesEach element s written s')
    {b : LlarpBuffer} {c : UInt8} (holds : b.rest = start :: (written.flatten ++ c :: tail)) :
    ∃ fuel, readContainer start element finish s b =
        readLoop element finish (fuel + 1) s' (b.skip (written.flatten.length + 1)) ∧
      (b.skip (written.flatten.length + 1)).rest = c :: tail ∧
      (b.skip (written.flatten.length + 1)).cur ≤ b.sz := by
  obtain ⟨left, head⟩ := head_of_rest_eq holds
  have size : b.sizeLeft = written.flatten.length + tail.length + 2 := by
    rw [← length_rest, holds, length_cons, length_append, length_cons]
    omega
  have inner : (b.skip 1).rest = written.flatten ++ c :: tail := by
    rw [rest_skip (Nat.one_le_iff_ne_zero.mpr left), holds]
    rfl
  have bound := length_le_flatten takes
  obtain ⟨fuel, enough⟩ := Nat.exists_eq_add_of_lt (show written.length < b.sizeLeft by omega)
  have onward : (b.skip 1).skip written.flatten.length = b.skip (written.flatten.length + 1) := by
    rw [skip_skip, Nat.add_comm]
  refine ⟨fuel, ?_, onward ▸ rest_skip_append inner,
    onward ▸ skip_written_inside (skip_one_inside left) inner⟩
  have total : b.sizeLeft = fuel + 1 + written.length := by omega
  rw [readContainer, if_neg (by omega), if_neg (not_not.mpr head), total,
    readLoop_each takes (skip_one_inside left) inner, onward]

theorem takes_readContainer {written : List (List UInt8)} (takes : TakesEach element s written s')
    (ends : ∀ s b, finish s b = (.accepted, s, b)) :
    Takes (readContainer start element finish) s (start :: (written.flatten ++ ascii "e")) s' := by
  intro b tail inside holds
  rw [cons_append, append_assoc] at holds
  obtain ⟨fuel, read, rest, -⟩ := readContainer_each takes holds
  have head : (b.skip (written.flatten.length + 1)).peek = 'e'.toUInt8 := (head_of_rest_eq rest).2
  rw [read, readLoop, if_neg fun more => more.2 head, if_neg (not_not.mpr head), ends,
    length_cons, length_append]
  rfl

section Items

variable {α : Type*} {decode : Decoder τ} {fresh : τ} {encode : α → List UInt8} {value : α → τ}

theorem takesEach_list {more : List α} (starts : ∀ item ∈ more, Starts (encode item))
    (takes : ∀ item ∈ more, Takes decode fresh (encode item) (value item)) (items : List τ) :
    TakesEach (listElement fresh decode) items (more.map encode) (items ++ more.map value) := by
  induction more generalizing items with
  | nil => exact (append_nil items).symm
  | cons item more ih =>
    refine ⟨starts item mem_cons_self, items ++ [value item], ?_, ?_⟩
    · intro b tail inside holds
      rw [listElement, takes item mem_cons_self b tail inside holds]
    · have rest := ih (fun item member => starts item (mem_cons_of_mem _ member))
        (fun item member => takes item (mem_cons_of_mem _ member)) (items ++ [value item])
      rwa [append_assoc] at rest

/-- A list of objects, each of which the decoder takes for a value. -/
theorem takes_listValues {more : List α} (starts : ∀ item ∈ more, Starts (encode item))
    (takes : ∀ item ∈ more, Takes decode fresh (encode item) (value item)) (items : List τ) :
    Takes (list fresh decode) items (Bencode.list (more.map encode)) (items ++ more.map value) :=
  takes_readContainer (takesEach_list starts takes items) fun _ _ => rfl

end Items

/-- A list of objects, each of which the decoder takes. -/
theorem takes_list (starts : ∀ item ∈ more, Starts (encode item))
    (takes : ∀ item ∈ more, Takes decode fresh (encode item) item) (items : List τ) :
    Takes (list fresh decode) items (Bencode.list (more.map encode)) (items ++ more) := by
  have taken := takes_listValues starts takes items
  rwa [map_id'] at taken

/-- The members of an object are taken one after the other. -/
def TakesMembers (decodeKey : List UInt8 → Decoder σ) : σ → List (String × List UInt8) → σ → Prop
  | s, [], s' => s = s'
  | s, (key, written) :: rest, s' =>
    (ascii key).length < 10 ^ 9 ∧
      ∃ next, Takes (decodeKey (ascii key)) s written next ∧ TakesMembers decodeKey next rest s'

section Members

variable {decodeKey : List UInt8 → Decoder σ} {entries : List (String × List UInt8)}

theorem TakesMembers.append {more : List (String × List UInt8)} {s s' s'' : σ}
    (first : TakesMembers decodeKey s entries s') (second : TakesMembers decodeKey s' more s'') :
    TakesMembers decodeKey s (entries ++ more) s'' := by
  induction entries generalizing s with
  | nil =>
    obtain rfl : s = s' := first
    exact second
  | cons entry entries ih =>
    obtain ⟨short, next, taken, rest⟩ := first
    exact ⟨short, next, taken, ih rest⟩

theorem TakesMembers.each {s s' : σ} (takes : TakesMembers decodeKey s entries s') :
    TakesEach (readEntry (dictSink decodeKey)) s
      (entries.map fun entry => bytestring (ascii entry.1) ++ entry.2) s' := by
  induction entries generalizing s with
  | nil => exact takes
  | cons entry entries ih =>
    obtain ⟨short, next, taken, takes⟩ := takes
    refine ⟨(starts_bytestring _).append _, next, ?_, ih takes⟩
    intro b tail inside holds
    rw [append_assoc] at holds
    rw [readEntry, readString_written inside short holds]
    dsimp only [dictSink]
    rw [taken _ tail (skip_written_inside inside holds) (rest_skip_append holds), skip_skip,
      length_append]

theorem takes_dict (takes : TakesMembers decodeKey s entries s') :
    Takes (dict decodeKey) s (Bencode.dict entries) s' :=
  takes_readContainer takes.each fun _ _ => rfl

end Members

/-! ### Refusing what was written -/

/-- The decoder refuses the written value wherever it stands. -/
def Refuses (decode : Decoder σ) (s : σ) (written : List UInt8) : Prop :=
  ∀ b tail, b.cur ≤ b.sz → b.rest = written ++ tail → (decode s b).1 = .refused

theorem Refuses.append {decode : Decoder σ} (refuses : Refuses decode s written)
    (more : List UInt8) : Refuses decode s (written ++ more) := by
  intro b tail inside holds
  rw [append_assoc] at holds
  exact refuses b _ inside holds

theorem refuses_number {store : UInt64 → σ → Option σ} {n : UInt64} (refused : store n s = none) :
    Refuses (number store) s (uint64 n.toNat) := by
  intro b tail inside holds
  rw [number, readInteger_written inside holds]
  dsimp only
  rw [refused, settle]

theorem refuses_into {get : σ → τ} {put : τ → σ → σ} (refuses : Refuses decode (get s) written) :
    Refuses (into get put decode) s written :=
  refuses

/-- A container is refused if one of its elements is, and those before it are taken. -/
theorem refuses_readContainer {taken : List (List UInt8)} (takes : TakesEach element s taken s')
    (starts : Starts bad) (refuses : Refuses element s' bad) :
    Refuses (readContainer start element finish) s (start :: (taken.flatten ++ bad)) := by
  intro b tail inside holds
  obtain ⟨c, chars, rfl, goesOn⟩ := starts
  rw [cons_append, append_assoc] at holds
  obtain ⟨fuel, read, rest, within⟩ := readContainer_each takes holds
  obtain ⟨left, head⟩ := head_of_rest_eq rest
  have refused := refuses _ tail within rest
  rw [read, readLoop_more ⟨left, head ▸ goesOn⟩]
  generalize element s' (b.skip (taken.flatten.length + 1)) = reading at *
  obtain ⟨ending, t, after⟩ := reading
  obtain rfl : ending = .refused := refused
  rfl

theorem refuses_dict {decodeKey : List UInt8 → Decoder σ} {entries : List (String × List UInt8)}
    {key : String} (takes : TakesMembers decodeKey s entries s')
    (short : (ascii key).length < 10 ^ 9) (refuses : Refuses (decodeKey (ascii key)) s' bad)
    (more : List (String × List UInt8)) :
    Refuses (dict decodeKey) s (Bencode.dict (entries ++ (key, bad) :: more)) := by
  have entry : Refuses (readEntry (dictSink decodeKey)) s' (bytestring (ascii key) ++ bad) := by
    intro b tail inside holds
    rw [append_assoc] at holds
    rw [readEntry, readString_written inside short holds]
    exact refuses _ tail (skip_written_inside inside holds) (rest_skip_append holds)
  have container : Refuses (dict decodeKey) s ('d'.toUInt8 ::
      ((entries.map fun entry => bytestring (ascii entry.1) ++ entry.2).flatten ++
        (bytestring (ascii key) ++ bad))) :=
    refuses_readContainer takes.each ((starts_bytestring _).append _) entry
  have written : Bencode.dict (entries ++ (key, bad) :: more) = 'd'.toUInt8 ::
      ((entries.map fun entry => bytestring (ascii entry.1) ++ entry.2).flatten ++
        (bytestring (ascii key) ++ bad)) ++
        (more.flatMap (fun entry => bytestring (ascii entry.1) ++ entry.2) ++ ascii "e") := by
    rw [Bencode.dict, flatMap_append, flatMap_cons, flatMap_def, cons_append]
    simp only [append_assoc]
    rfl
  rw [written]
  exact container.append _

/-- A list is refused if one of its elements is. -/
theorem refuses_list (bad : τ → Bool) (starts : ∀ item, Starts (encode item))
    (takes : ∀ item, bad item = false → Takes decode fresh (encode item) item)
    (refuses : ∀ item, bad item = true → Refuses decode fresh (encode item))
    (some : ∃ item ∈ more, bad item = true) (items : List τ) :
    Refuses (list fresh decode) items (Bencode.list (more.map encode)) := by
  -- the elements before the first bad one are taken
  obtain ⟨item, found⟩ := Option.isSome_iff_exists.mp (find?_isSome.mpr some)
  obtain ⟨isBad, before, behind, rfl, good⟩ := find?_eq_some_iff_append.mp found
  have element : Refuses (listElement fresh decode) (items ++ before) (encode item) :=
    refuses item isBad
  have taken : TakesEach (listElement fresh decode) items (before.map encode) (items ++ before) := by
    have values := takesEach_list (fun item _ => starts item)
      (fun item member => takes item (Bool.not_eq_true' _ ▸ good item member)) items
    rwa [map_id'] at values
  have container : Refuses (list fresh decode) items
      ('l'.toUInt8 :: ((before.map encode).flatten ++ encode item)) :=
    refuses_readContainer taken (starts item) element
  have written : Bencode.list ((before ++ item :: behind).map encode) =
      'l'.toUInt8 :: ((before.map encode).flatten ++ encode item) ++
        ((behind.map encode).flatten ++ ascii "e") := by
    rw [Bencode.list, map_append, flatten_append, map_cons, flatten_cons,
      cons_append]
    simp only [append_assoc]
    rfl
  rw [written]
  exact container.append _

end Decoder

end Llarp

import Llarp.Util.BencodeReader

/-!
# Skipping what was written

Unknown keys of messages are skipped, so a reader must find the end of every value that a writer
can write, whatever follows. A number has at most 20 digits and the length of a string at most
nine, which is what the digit buffers of the readers hold.
-/

namespace Llarp

open Bencode LlarpBuffer List

/-! ### Digits -/

theorem toUInt8_toNat_digitChar {n : ℕ} (small : n < 10) :
    isDigit (UInt8.ofNat n.digitChar.toNat) = true ∧
      (UInt8.ofNat n.digitChar.toNat - '0'.toUInt8).toNat = n := by
  revert n
  decide

theorem decimal_eq (n : ℕ) :
    decimal n =
      if n < 10 then [UInt8.ofNat n.digitChar.toNat]
      else decimal (n / 10) ++ [UInt8.ofNat (n % 10).digitChar.toNat] := by
  rw [decimal, Nat.toDigits_eq_if (by decide)]
  split_ifs
  · rfl
  · rw [map_append]
    rfl

theorem ofDigits_concat (digits : List UInt8) (digit : UInt8) :
    ofDigits (digits ++ [digit]) = ofDigits digits * 10 + (digit - '0'.toUInt8).toNat := by
  rw [ofDigits, foldl_append]
  rfl

theorem ofDigits_decimal (n : ℕ) : ofDigits (decimal n) = n := by
  induction n using Nat.strong_induction_on with
  | _ n ih =>
    rw [decimal_eq]
    split_ifs with small
    · exact (Nat.zero_add _).trans (toUInt8_toNat_digitChar small).2
    · rw [ofDigits_concat, ih (n / 10) (by omega),
        (toUInt8_toNat_digitChar (Nat.mod_lt n (by decide))).2]
      omega

theorem isDigit_of_mem_decimal {n : ℕ} {c : UInt8} (member : c ∈ decimal n) :
    isDigit c = true := by
  induction n using Nat.strong_induction_on with
  | _ n ih =>
    rw [decimal_eq] at member
    split_ifs at member with small
    · rw [mem_singleton.mp member]
      exact (toUInt8_toNat_digitChar small).1
    · rcases mem_append.mp member with high | low
      · exact ih (n / 10) (by omega) high
      · rw [mem_singleton.mp low]
        exact (toUInt8_toNat_digitChar (Nat.mod_lt n (by decide))).1

theorem decimal_ne_nil (n : ℕ) : decimal n ≠ [] := by
  rw [decimal_eq]
  split_ifs
  · exact cons_ne_nil _ _
  · exact append_ne_nil_of_right_ne_nil _ (cons_ne_nil _ _)

theorem length_decimal_le {n k : ℕ} (positive : 0 < k) (small : n < 10 ^ k) :
    (decimal n).length ≤ k := by
  rw [decimal, length_map]
  exact Nat.toDigits_length 10 n k positive small

theorem ne_of_isDigit {c d : UInt8} (digit : isDigit c = true) (other : isDigit d = false) :
    c ≠ d := by
  rintro rfl
  rw [digit] at other
  exact Bool.noConfusion other

theorem isSpace_of_isDigit {c : UInt8} (digit : isDigit c = true) : isSpace c = false := by
  have low : '0'.toUInt8 ≤ c := by
    rw [isDigit, Bool.and_eq_true] at digit
    exact of_decide_eq_true digit.1
  have bound : 48 ≤ c.toNat := UInt8.le_iff_toNat_le.mp low
  rw [isSpace, Bool.or_eq_false_iff, Bool.and_eq_false_iff]
  refine ⟨decide_eq_false fun same => ?_, .inr (decide_eq_false fun high => ?_)⟩
  · rw [same] at bound
    exact absurd bound (by decide)
  · have limit : c.toNat ≤ 13 := UInt8.le_iff_toNat_le.mp high
    omega

/-- A number as the readers scan it. -/
theorem scanNumber_decimal (n : ℕ) : scanNumber (decimal n) = (false, n) := by
  have digits : ∀ c ∈ decimal n, isDigit c = true := fun c => isDigit_of_mem_decimal
  obtain ⟨c, rest, first⟩ := exists_cons_of_ne_nil (decimal_ne_nil n)
  have head : isDigit c = true := digits c (by rw [first]; exact mem_cons_self)
  have whole : (decimal n).takeWhile (· ≠ 0) = decimal n := by
    refine takeWhile_eq_self_iff.mpr fun c member => ?_
    exact decide_eq_true (ne_of_isDigit (digits c member) rfl)
  have unspaced : (decimal n).dropWhile isSpace = decimal n := by
    rw [first, dropWhile_cons_of_neg]
    rw [isSpace_of_isDigit head]
    exact Bool.false_ne_true
  have unsigned : ∀ sign, isDigit sign = false → (decimal n).head? ≠ some sign := by
    intro _ other same
    rw [first] at same
    exact ne_of_isDigit head other (Option.some.inj same)
  rw [scanNumber, whole, unspaced]
  rw [decide_eq_false (unsigned '-'.toUInt8 rfl), decide_eq_false (unsigned '+'.toUInt8 rfl),
    Bool.or_false, if_neg Bool.false_ne_true, takeWhile_eq_self_iff.mpr digits,
    ofDigits_decimal]

theorem strtoull_decimal (n : UInt64) : strtoull (decimal n.toNat) = n := by
  rw [strtoull, scanNumber_decimal]
  dsimp only
  rw [if_neg (not_le.mpr n.toNat_lt), if_neg Bool.false_ne_true, UInt64.ofNat_toNat]

theorem atoi_decimal (n : ℕ) : atoi (decimal n) = n := by
  rw [atoi, scanNumber_decimal]
  rfl

/-! ### Numbers and strings -/

theorem splitUntil_append {delim : UInt8} {chars : List UInt8} (rest : List UInt8)
    (others : ∀ c ∈ chars, c ≠ delim) {resultsize : ℕ} (fits : chars.length ≤ resultsize) :
    splitUntil delim resultsize (chars ++ delim :: rest) = (chars, delim :: rest) := by
  induction chars generalizing resultsize with
  | nil =>
    cases resultsize with
    | zero => rfl
    | succ resultsize => rw [nil_append, splitUntil, if_neg (not_not.mpr rfl)]
  | cons c chars ih =>
    obtain ⟨resultsize, rfl⟩ : ∃ n, resultsize = n + 1 := Nat.exists_eq_add_one.mpr (by
      rw [length_cons] at fits
      omega)
    rw [cons_append, splitUntil, if_pos (others c mem_cons_self),
      ih (fun c member => others c (mem_cons_of_mem _ member)) (Nat.le_of_succ_le_succ fits)]

theorem splitUntil_decimal {delim : UInt8} (other : isDigit delim = false) {n resultsize : ℕ}
    (bound : n < 10 ^ resultsize) (room : 0 < resultsize) (rest : List UInt8) :
    splitUntil delim resultsize (decimal n ++ delim :: rest) = (decimal n, delim :: rest) :=
  splitUntil_append rest (fun _ member => ne_of_isDigit (isDigit_of_mem_decimal member) other)
    (length_decimal_le room bound)

theorem uint64_append (n : ℕ) (tail : List UInt8) :
    uint64 n ++ tail = 'i'.toUInt8 :: (decimal n ++ 'e'.toUInt8 :: tail) := by
  rw [uint64, append_assoc]
  rfl

theorem bytestring_append (data tail : List UInt8) :
    bytestring data ++ tail = decimal data.length ++ ':'.toUInt8 :: (data ++ tail) := by
  rw [bytestring, append_assoc, append_assoc]
  rfl

theorem bytestring_eq_cons (data : List UInt8) :
    ∃ c rest, bytestring data = c :: rest ∧ isDigit c = true := by
  obtain ⟨c, digits, first⟩ := exists_cons_of_ne_nil (decimal_ne_nil data.length)
  refine ⟨c, digits ++ ascii ":" ++ data, ?_, ?_⟩
  · rw [bytestring, first]
    rfl
  · exact isDigit_of_mem_decimal (first ▸ mem_cons_self)

theorem scanInteger_uint64 (n : UInt64) (tail : List UInt8) :
    scanInteger (uint64 n.toNat ++ tail) = .ended .accepted (some n) tail := by
  have bound : n.toNat < 10 ^ 31 := n.toNat_lt.trans (by norm_num)
  rw [uint64_append, scanInteger, if_neg (not_not.mpr rfl),
    splitUntil_decimal rfl bound (by norm_num)]
  dsimp only
  rw [if_neg (not_or.mpr ⟨cons_ne_nil _ _, decimal_ne_nil _⟩), strtoull_decimal, tail_cons]

/-- Nine digits are enough for the length of a string that is read back. -/
theorem scanString_bytestring {data : List UInt8} (short : data.length < 10 ^ 9)
    (tail : List UInt8) :
    scanString (bytestring data ++ tail) = .ended .accepted (some data) tail := by
  have natural : ¬atoi (decimal data.length) < 0 := by
    rw [atoi_decimal]
    exact not_lt.mpr (Int.natCast_nonneg _)
  rw [bytestring_append, scanString, splitUntil_decimal rfl short (by norm_num)]
  dsimp only
  rw [if_neg (not_or.mpr ⟨cons_ne_nil _ _, not_or.mpr ⟨decimal_ne_nil _, natural⟩⟩),
    atoi_decimal, Int.toNat_natCast, tail_cons, length_append,
    if_neg (not_lt.mpr (Nat.le_add_right ..)), take_left, drop_left]

/-! ### Containers -/

section Containers

variable {ι σ : Type*} {element finish : σ → List UInt8 → Outcome σ} {written : ι → List UInt8}
  {step : σ → ι → σ} {items : List ι}

/-- An item starts with a byte that does not end a container. -/
def Starts (bytes : List UInt8) : Prop := ∃ c rest, bytes = c :: rest ∧ c ≠ 'e'.toUInt8

theorem Starts.append {bytes : List UInt8} (starts : Starts bytes) (tail : List UInt8) :
    Starts (bytes ++ tail) := by
  obtain ⟨c, rest, rfl, goesOn⟩ := starts
  exact ⟨c, rest ++ tail, rfl, goesOn⟩

theorem starts_bytestring (data : List UInt8) : Starts (bytestring data) := by
  obtain ⟨c, rest, first, digit⟩ := bytestring_eq_cons data
  exact ⟨c, rest, first, ne_of_isDigit digit rfl⟩

/-- The loop reads the items one by one, up to the end of the container. -/
theorem scanLoop_written (starts : ∀ x ∈ items, Starts (written x))
    (reads : ∀ x ∈ items, ∀ s tail,
      element s (written x ++ tail) = .ended .accepted (step s x) tail)
    (ends : ∀ s tail, finish s tail = .ended .accepted s tail)
    {fuel : ℕ} (enough : items.length < fuel) (s : σ) (tail : List UInt8) :
    scanLoop element finish fuel s (items.flatMap written ++ 'e'.toUInt8 :: tail) =
      .ended .accepted (items.foldl step s) tail := by
  induction items generalizing fuel s with
  | nil =>
    obtain ⟨-, rfl⟩ := Nat.exists_eq_add_one.mpr enough
    rw [flatMap_nil, nil_append, scanLoop, if_pos rfl, ends, foldl_nil]
  | cons x items ih =>
    obtain ⟨fuel, rfl⟩ := Nat.exists_eq_add_one.mpr (Nat.zero_lt_of_lt enough)
    obtain ⟨c, rest, first, goesOn⟩ := starts x mem_cons_self
    have head : written x ++ (items.flatMap written ++ 'e'.toUInt8 :: tail) =
        c :: (rest ++ (items.flatMap written ++ 'e'.toUInt8 :: tail)) := by
      rw [first, cons_append]
    rw [flatMap_cons, append_assoc, head, scanLoop, if_neg goesOn, ← head,
      reads x mem_cons_self]
    exact ih (fun y member => starts y (mem_cons_of_mem _ member))
      (fun y member => reads y (mem_cons_of_mem _ member))
      (Nat.lt_of_succ_lt_succ enough) (step s x)

theorem length_le_flatMap (starts : ∀ x ∈ items, Starts (written x)) :
    items.length ≤ (items.flatMap written).length := by
  induction items with
  | nil => exact le_rfl
  | cons x items ih =>
    obtain ⟨c, rest, first, -⟩ := starts x mem_cons_self
    have bound := ih fun y member => starts y (mem_cons_of_mem _ member)
    rw [flatMap_cons, length_append, first, length_cons, length_cons]
    omega

theorem length_le_length_flatMap {x : ι} (member : x ∈ items) :
    (written x).length ≤ (items.flatMap written).length := by
  rw [length_flatMap]
  exact le_sum_of_mem (mem_map_of_mem member)

theorem scanContainer_written {start : UInt8} (step : σ → ι → σ)
    (starts : ∀ x ∈ items, Starts (written x))
    (reads : ∀ x ∈ items, ∀ s tail,
      element s (written x ++ tail) = .ended .accepted (step s x) tail)
    (ends : ∀ s tail, finish s tail = .ended .accepted s tail) (s : σ) (tail : List UInt8) :
    scanContainer start element finish s
        (start :: (items.flatMap written ++ 'e'.toUInt8 :: tail)) =
      .ended .accepted (items.foldl step s) tail := by
  have enough := length_le_flatMap starts
  have size : (start :: (items.flatMap written ++ 'e'.toUInt8 :: tail)).length =
      (items.flatMap written).length + tail.length + 2 := by
    rw [length_cons, length_append, length_cons]
    omega
  rw [scanContainer, head?_cons,
    if_neg (not_or.mpr ⟨by omega, not_not.mpr rfl⟩)]
  exact scanLoop_written starts reads ends (by omega) s tail

/-- An entry of a dictionary is its key and what the sink reads. -/
theorem scanEntry_bytestring {sink : Option (List UInt8) → σ → List UInt8 → Outcome σ}
    {key : List UInt8} (short : key.length < 10 ^ 9) (s : σ) (bytes : List UInt8) :
    scanEntry sink s (bytestring key ++ bytes) = sink (some key) s bytes := by
  rw [scanEntry, scanString_bytestring short]

end Containers

/-! ### Values -/

/-- A string whose length the readers take in. -/
structure ByteString where
  data : List UInt8
  short : data.length < 10 ^ 9

/-- A bencoded value. The entries of a dictionary stand in the order in which they are written. -/
inductive BValue where
  | integer (n : UInt64)
  | string (bytes : ByteString)
  | list (elements : List BValue)
  | dict (entries : List (ByteString × BValue))

namespace BValue

mutual

def encode : BValue → List UInt8
  | integer n => uint64 n.toNat
  | string bytes => bytestring bytes.data
  | list elements => 'l'.toUInt8 :: (encodeList elements ++ ascii "e")
  | dict entries => 'd'.toUInt8 :: (encodeDict entries ++ ascii "e")

def encodeList : List BValue → List UInt8
  | [] => []
  | v :: elements => encode v ++ encodeList elements

def encodeDict : List (ByteString × BValue) → List UInt8
  | [] => []
  | (key, v) :: entries => bytestring key.data ++ encode v ++ encodeDict entries

end

variable (v : BValue) (elements : List BValue) (entries : List (ByteString × BValue))
  (tail : List UInt8)

theorem encodeList_eq : encodeList elements = elements.flatMap encode := by
  induction elements with
  | nil => rfl
  | cons v elements ih => rw [encodeList, ih, flatMap_cons]

/-- What is written for an entry of a dictionary. -/
def encodeEntry (entry : ByteString × BValue) : List UInt8 :=
  bytestring entry.1.data ++ entry.2.encode

theorem encodeDict_eq : encodeDict entries = entries.flatMap encodeEntry := by
  induction entries with
  | nil => rfl
  | cons entry entries ih => rw [encodeDict, ih, flatMap_cons, encodeEntry]

/-- Induction over the values that a value holds. -/
@[elab_as_elim, induction_eliminator]
theorem induction {motive : BValue → Prop} (integer : ∀ n, motive (.integer n))
    (string : ∀ bytes, motive (.string bytes))
    (list : ∀ elements, (∀ v ∈ elements, motive v) → motive (.list elements))
    (dict : ∀ entries, (∀ entry ∈ entries, motive entry.2) → motive (.dict entries))
    (v : BValue) : motive v :=
  @BValue.rec motive (fun elements => ∀ v ∈ elements, motive v)
    (fun entries => ∀ entry ∈ entries, motive entry.2) (fun entry => motive entry.2)
    integer string list dict
    (fun _ member => absurd member not_mem_nil)
    (fun _ _ head tail => forall_mem_cons.mpr ⟨head, tail⟩)
    (fun _ member => absurd member not_mem_nil)
    (fun _ _ head tail => forall_mem_cons.mpr ⟨head, tail⟩)
    (fun _ _ held => held) v

theorem list_encode_append :
    (list elements).encode ++ tail =
      'l'.toUInt8 :: (elements.flatMap encode ++ 'e'.toUInt8 :: tail) := by
  rw [encode, encodeList_eq, cons_append, append_assoc]
  rfl

theorem dict_encode_append :
    (dict entries).encode ++ tail =
      'd'.toUInt8 :: (entries.flatMap encodeEntry ++ 'e'.toUInt8 :: tail) := by
  rw [encode, encodeDict_eq, cons_append, append_assoc]
  rfl

theorem starts_encode : Starts v.encode := by
  cases v with
  | integer n => exact ⟨_, _, rfl, by decide⟩
  | string bytes => exact starts_bytestring bytes.data
  | list elements => exact ⟨_, _, rfl, by decide⟩
  | dict entries => exact ⟨_, _, rfl, by decide⟩

theorem starts_encodeEntry (entry : ByteString × BValue) : Starts (encodeEntry entry) :=
  (starts_bytestring entry.1.data).append _

/-- Skipping stops behind the value. -/
theorem scanDiscardWithin_encode {depth : ℕ} (enough : v.encode.length < depth)
    (tail : List UInt8) :
    scanDiscardWithin depth (v.encode ++ tail) = .ended .accepted () tail := by
  induction v generalizing depth tail with
  | integer n =>
    obtain ⟨-, rfl⟩ := Nat.exists_eq_add_one.mpr (Nat.zero_lt_of_lt enough)
    rw [encode, uint64_append, scanDiscardWithin, ← uint64_append,
      scanInteger_uint64]
    rfl
  | string bytes =>
    obtain ⟨-, rfl⟩ := Nat.exists_eq_add_one.mpr (Nat.zero_lt_of_lt enough)
    obtain ⟨c, rest, first, digit⟩ := bytestring_eq_cons bytes.data
    rw [encode, first, cons_append, scanDiscardWithin, if_neg (ne_of_isDigit digit rfl),
      if_neg (ne_of_isDigit digit rfl), if_neg (ne_of_isDigit digit rfl), if_pos digit,
      ← cons_append, ← first, scanString_bytestring bytes.short]
    rfl
  | list elements ih =>
    obtain ⟨depth, rfl⟩ := Nat.exists_eq_add_one.mpr (Nat.zero_lt_of_lt enough)
    rw [encode, encodeList_eq, length_cons, length_append] at enough
    rw [list_encode_append]
    refine scanContainer_written (fun u _ => u) (fun v _ => starts_encode v) (fun v member _ tail => ?_)
      (fun _ _ => rfl) () tail
    have part : v.encode.length ≤ (elements.flatMap encode).length := length_le_length_flatMap member
    exact ih v member (by omega) tail
  | dict entries ih =>
    obtain ⟨depth, rfl⟩ := Nat.exists_eq_add_one.mpr (Nat.zero_lt_of_lt enough)
    rw [encode, encodeDict_eq, length_cons, length_append] at enough
    rw [dict_encode_append]
    refine scanContainer_written (fun u _ => u) (fun entry _ => starts_encodeEntry entry)
      (fun entry member _ tail => ?_) (fun _ _ => rfl) () tail
    have part : (encodeEntry entry).length ≤ (entries.flatMap encodeEntry).length :=
      length_le_length_flatMap member
    rw [encodeEntry, length_append] at part
    rw [encodeEntry, append_assoc, scanEntry_bytestring entry.1.short]
    exact ih entry member (by omega) tail

theorem scan_discard_encode :
    Reader.discard.scan (v.encode ++ tail) = .ended .accepted (.skipped v.encode) tail := by
  have enough : v.encode.length < (v.encode ++ tail).length + 1 := by
    rw [length_append]
    omega
  rw [Reader.scan, scanDiscard, scanDiscardWithin_encode v enough]
  dsimp only
  rw [length_append, Nat.add_sub_cancel, take_left]

theorem foldl_concat_map {ι κ : Type*} (f : ι → κ) (items : List ι) :
    items.foldl (fun seen x => seen ++ [f x]) [] = items.map f := by
  rw [foldl_append_eq_append, nil_append, ← flatMap_def, ← map_eq_flatMap]

/-- A sink that skips the elements of a list sees each of them. -/
theorem scan_list_encode :
    (Reader.list fun _ => .discard).scan ((list elements).encode ++ tail) =
      .ended .accepted (.list (elements.map fun v => .skipped v.encode)) tail := by
  have whole : scanList (scanElementSink fun _ => Reader.discard.scan) []
      ((list elements).encode ++ tail) =
        .ended .accepted (elements.map fun v => .skipped v.encode) tail := by
    rw [list_encode_append, ← foldl_concat_map]
    refine scanContainer_written _ (fun v _ => starts_encode v) (fun v _ seen tail => ?_)
      (fun _ _ => rfl) [] tail
    rw [scanElementSink, scan_discard_encode]
    rfl
  exact congrArg (Outcome.map Value.list) whole

/-- A sink that skips the values of a dictionary sees each key. -/
theorem scan_dict_encode :
    (Reader.dict fun _ _ => .discard).scan ((dict entries).encode ++ tail) =
      .ended .accepted
        (.dict (entries.map fun entry => (entry.1.data, .skipped entry.2.encode))) tail := by
  have whole : scanDict (scanEntrySink fun _ _ => Reader.discard.scan) []
      ((dict entries).encode ++ tail) =
        .ended .accepted (entries.map fun entry => (entry.1.data, .skipped entry.2.encode))
          tail := by
    rw [dict_encode_append, ← foldl_concat_map]
    refine scanContainer_written _ (fun entry _ => starts_encodeEntry entry)
      (fun entry _ seen tail => ?_) (fun _ _ => rfl) [] tail
    rw [encodeEntry, append_assoc, scanEntry_bytestring entry.1.short, scanEntrySink,
      scan_discard_encode]
    rfl
  exact congrArg (Outcome.map Value.dict) whole

end BValue

/-- A reading that ends where a reader of the list ends has the cursor there. -/
theorem Follows.eq_skip {σ : Type*} {b : LlarpBuffer} {read : Reading σ} {ending : Ending}
    {value : σ} {written tail : List UInt8} (inside : b.cur ≤ b.sz) (holds : b.rest = written ++ tail)
    (onward : Onward b read.2.2) (follows : Follows b read (.ended ending value tail)) :
    read = (ending, value, b.skip written.length) := by
  obtain ⟨result, delivered, ⟨mem, sz, cur⟩⟩ := read
  obtain ⟨rfl, rfl, bound, remaining⟩ := follows
  obtain ⟨sameMem, sameSize, -⟩ := onward
  have size : b.sizeLeft = written.length + (LlarpBuffer.mk mem sz cur).sizeLeft := by
    rw [← length_rest, ← length_rest, holds, remaining, length_append]
  dsimp only at bound
  subst sameMem sameSize
  have cursor : cur = b.cur + written.length := by
    rw [sizeLeft, sizeLeft] at size
    dsimp only at size
    omega
  rw [cursor]
  rfl

theorem rest_skip_append {b : LlarpBuffer} {written tail : List UInt8}
    (holds : b.rest = written ++ tail) : (b.skip written.length).rest = tail := by
  have fits : written.length ≤ b.sizeLeft := by
    rw [← length_rest, holds, length_append]
    exact Nat.le_add_right ..
  rw [rest_skip fits, holds, drop_left]

/-- A value that stands at the cursor is skipped as a whole: the cursor comes to stand at what
follows it. A sink that skips what it is given sees the elements of a list and the keys of a
dictionary in their order. -/
theorem skips_encoded (v : BValue) (tail : List UInt8) (b : LlarpBuffer) (inside : b.cur ≤ b.sz)
    (holds : b.rest = v.encode ++ tail) :
    discard b = (.accepted, (), b.skip v.encode.length) ∧
      (b.skip v.encode.length).rest = tail ∧
      (∀ elements, v = .list elements →
        (Reader.list fun _ => .discard).read b =
          (.accepted, .list (elements.map fun w => .skipped w.encode), b.skip v.encode.length)) ∧
      ∀ entries, v = .dict entries →
        (Reader.dict fun _ _ => .discard).read b =
          (.accepted, .dict (entries.map fun entry => (entry.1.data, .skipped entry.2.encode)),
            b.skip v.encode.length) := by
  have reads : ∀ (reader : Reader) value,
      reader.scan (v.encode ++ tail) = .ended .accepted value tail →
        reader.read b = (.accepted, value, b.skip v.encode.length) := by
    intro reader _ scanned
    have follows : Follows b (reader.read b) (reader.scan b.rest) := reader.refines_read () b inside
    rw [holds, scanned] at follows
    exact follows.eq_skip inside holds (reader.consumes_read.onward () b)
  refine ⟨?_, rest_skip_append holds, ?_, ?_⟩
  · have follows := follows_discard inside
    rw [holds, scanDiscard, v.scanDiscardWithin_encode (by rw [length_append]; omega)] at follows
    exact follows.eq_skip inside holds (consumes_discard.onward () b)
  · rintro elements rfl
    exact reads _ _ (BValue.scan_list_encode elements tail)
  · rintro entries rfl
    exact reads _ _ (BValue.scan_dict_encode entries tail)

/-- A dictionary with a list in it. -/
def nested : BValue :=
  .dict [(⟨ascii "a", by decide⟩, .list [.integer 5, .string ⟨[], by decide⟩])]

theorem skips_encoded_nested :
    nested.encode = ascii "d1:ali5e0:ee" ∧
      discard ⟨Reader.memory (ascii "d1:ali5e0:eei0e") 0, 15, 0⟩ =
        (.accepted, (), ⟨Reader.memory (ascii "d1:ali5e0:eei0e") 0, 15, nested.encode.length⟩) := by
  have holds : (LlarpBuffer.mk (Reader.memory (ascii "d1:ali5e0:eei0e") 0) 15 0).rest =
      nested.encode ++ ascii "i0e" := by decide
  refine ⟨by decide, (skips_encoded nested _ _ (by decide) holds).1.trans ?_⟩
  rw [LlarpBuffer.skip, Nat.zero_add]

end Llarp

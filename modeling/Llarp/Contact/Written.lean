import Llarp.Contact.Encoded
import Llarp.Util.BencodeStore
import Llarp.Util.BencodeSkip

/-!
# Writing bencoded values to memory

The writers of bencoded values as rows of calls, and the encoder of router contacts. A value is
written as it should be unless its last byte is printed and falls on the end of the buffer, where
a zero takes its place. That can happen to an empty string and to a contact of version 1.
-/

namespace Llarp

open Bencode List

namespace Output

/-! ### The writers -/

theorem printable_decimal (front back : List UInt8) (n : ℕ) (clean : 0 ∉ front)
    (clean' : 0 ∉ back) : front ++ decimal n ++ back ≠ [] ∧ 0 ∉ front ++ decimal n ++ back := by
  constructor
  · intro none
    exact decimal_ne_nil n (append_eq_nil_iff.mp (append_eq_nil_iff.mp none).1).2
  · rw [mem_append, mem_append]
    rintro ((zero | zero) | zero)
    · exact clean zero
    · exact absurd (isDigit_of_mem_decimal zero) (by decide)
    · exact clean' zero

theorem printable_size (n : ℕ) : decimal n ++ ascii ":" ≠ [] ∧ 0 ∉ decimal n ++ ascii ":" :=
  printable_decimal [] (ascii ":") n not_mem_nil (by decide)

theorem printable_number (n : ℕ) : ascii "i" ++ decimal n ≠ [] ∧ 0 ∉ ascii "i" ++ decimal n := by
  have printable := printable_decimal (ascii "i") [] n (by decide) not_mem_nil
  rwa [append_nil] at printable

variable (entries : List (String × List Output)) (items : List (List Output)) (data : List UInt8)

def writeBytestring : List Output :=
  [.writef (decimal data.length ++ ascii ":") (printable_size _), .write data]

def writeUint64 (i : UInt64) : List Output :=
  [.writef (ascii "i" ++ decimal i.toNat) (printable_number _), .write (ascii "e")]

def startList : List Output := [.write (ascii "l")]

def startDict : List Output := [.write (ascii "d")]

def finish : List Output := [.write (ascii "e")]

/-- Keys have one character. -/
def writeDictMsgType (k t : UInt8) : List Output := writeBytestring [k] ++ writeBytestring [t]

def writeDictString (k : UInt8) (str : List UInt8) : List Output :=
  writeBytestring [k] ++ writeBytestring str

/-- An object with an encoder of its own. -/
def writeDictEntry (k : UInt8) (o : List Output) : List Output := writeBytestring [k] ++ o

def writeDictInt (k : UInt8) (i : UInt64) : List Output := writeBytestring [k] ++ writeUint64 i

def writeList : List Output := startList ++ items.flatten ++ finish

/-- A key and a list, as it is written by `BEncodeWriteDictBEncodeList`, `BEncodeWriteDictArray`
and `BEncodeWriteDictList`. -/
def writeDictList (k : UInt8) (items : List (List Output)) : List Output :=
  writeBytestring [k] ++ writeList items

/-- A dictionary with these keys and values. -/
def writeDict : List Output :=
  startDict ++ entries.flatMap (fun entry => writeBytestring (ascii entry.1) ++ entry.2) ++ finish

/-! ### What they append -/

theorem appendAll_append (calls more : List Output) (b : WriteBuffer) :
    appendAll (calls ++ more) b = (appendAll calls b).bind (appendAll more) := by
  induction calls generalizing b with
  | nil => rfl
  | cons call calls ih =>
    rw [cons_append, appendAll, appendAll, Option.bind_assoc]
    exact congrArg _ (funext ih)

theorem appendAll_singleton (call : Output) : appendAll [call] = call.append := by
  ext1 b
  exact Option.bind_fun_some (call.append b)

theorem appendAll_writeBytestring :
    appendAll (writeBytestring data) = WriteBuffer.writeBytestring data := by
  ext1 b
  rw [writeBytestring, appendAll, appendAll_singleton]
  rfl

theorem appendAll_writeUint64 (i : UInt64) :
    appendAll (writeUint64 i) = WriteBuffer.writeUint64 i.toNat := by
  ext1 b
  rw [writeUint64, appendAll, appendAll_singleton]
  rfl

theorem appendAll_writeList :
    appendAll (writeList items) = WriteBuffer.writeList (items.map appendAll) := by
  have elements : appendAll (items.flatten ++ finish) =
      WriteBuffer.writeElements (items.map appendAll) := by
    induction items with
    | nil => exact appendAll_singleton _
    | cons item items ih =>
      ext1 b
      rw [flatten_cons, append_assoc, appendAll_append, ih]
      rfl
  ext1 b
  rw [writeList, append_assoc, appendAll_append, elements, startList, appendAll_singleton]
  rfl

theorem appendAll_writeDict :
    appendAll (writeDict entries) =
      WriteBuffer.writeDict (entries.map fun entry => (entry.1, appendAll entry.2)) := by
  have rest : appendAll (entries.flatMap
      (fun entry => writeBytestring (ascii entry.1) ++ entry.2) ++ finish) =
        WriteBuffer.writeEntries (entries.map fun entry => (entry.1, appendAll entry.2)) := by
    induction entries with
    | nil => exact appendAll_singleton _
    | cons entry entries ih =>
      ext1 b
      rw [flatMap_cons, append_assoc, append_assoc, appendAll_append,
        appendAll_writeBytestring]
      refine congrArg _ (funext fun b => ?_)
      rw [appendAll_append, ih]
  ext1 b
  rw [writeDict, append_assoc, appendAll_append, rest, startDict, appendAll_singleton]
  rfl

/-! ### The bytes they are to write -/

theorem total_writeBytestring : total (writeBytestring data) = bytestring data :=
  congrArg (_ ++ ·) (append_nil data)

theorem total_writeUint64 (i : UInt64) : total (writeUint64 i) = uint64 i.toNat := rfl

theorem total_writeList : total (writeList items) = Bencode.list (items.map total) := by
  have elements : total items.flatten = (items.map total).flatten := by
    induction items with
    | nil => rfl
    | cons item items ih => rw [flatten_cons, total_append, ih, map_cons, flatten_cons]
  rw [writeList, total_append, total_append, elements]
  rfl

theorem total_writeDict :
    total (writeDict entries) =
      Bencode.dict (entries.map fun entry => (entry.1, total entry.2)) := by
  have rest : total (entries.flatMap
      fun entry => writeBytestring (ascii entry.1) ++ entry.2) =
        (entries.map fun entry => (entry.1, total entry.2)).flatMap
          fun entry => bytestring (ascii entry.1) ++ entry.2 := by
    induction entries with
    | nil => rfl
    | cons entry entries ih =>
      rw [flatMap_cons, total_append, total_append, ih, total_writeBytestring, map_cons,
        flatMap_cons]
  rw [writeDict, total_append, total_append, rest]
  rfl

/-! ### How they end -/

theorem endsInText_of_empty {calls : List Output} (none : total calls = []) :
    endsInText calls = false := by
  by_contra ends
  obtain ⟨front, last, eq, -⟩ := last_ne_zero ((Bool.not_eq_false _).mp ends)
  rw [eq] at none
  exact append_ne_nil_of_right_ne_nil _ (cons_ne_nil _ _) none

theorem endsInText_append (calls more : List Output) :
    endsInText (calls ++ more) =
      if total more = [] then endsInText calls else endsInText more := by
  induction calls with
  | nil =>
    split_ifs with none
    · exact endsInText_of_empty none
    · rfl
  | cons call calls ih =>
    rw [cons_append, endsInText, endsInText, total_append, ih]
    by_cases none : total more = []
    · simp only [append_eq_nil_iff, none, and_true, if_true]
    · simp only [append_eq_nil_iff, none, and_false, if_false]

/-- A value that is put in brackets does not end in a text. -/
theorem endsInText_finish (calls : List Output) : endsInText (calls ++ finish) = false :=
  endsInText_append calls finish

theorem endsInText_writeBytestring : endsInText (writeBytestring data) = decide (data = []) := by
  have rest : total [Output.write data] = data := append_nil data
  rw [writeBytestring, endsInText, rest]
  by_cases none : data = []
  · rw [if_pos none, decide_eq_true none]
    rfl
  · rw [if_neg none, decide_eq_false none]
    rfl

theorem endsInText_append_bytestring (calls : List Output) (data : List UInt8) :
    endsInText (calls ++ writeBytestring data) = endsInText (writeBytestring data) := by
  have some : total (writeBytestring data) ≠ [] :=
    append_ne_nil_of_left_ne_nil (printable_size data.length).1 _
  rw [endsInText_append, if_neg some]

end Output

namespace Contact

open Output

variable (r : RouterVersion) (lib : ContactLibraries) (info : AddressInfo)

def AddressInfo.calls : List Output :=
  writeDict
    [("c", writeUint64 info.rank.toUInt64),
      ("d", writeBytestring info.dialect.text),
      ("e", writeBytestring info.pubkey.bytes),
      ("i", writeBytestring (lib.inetNtop6 info.ip).text),
      ("p", writeUint64 info.port.toUInt64),
      ("v", writeUint64 0)]

def RouterVersion.calls : List Output := writeList (r.numbers.map writeUint64)

namespace RouterContact

/-- `BEncodeSignedSection` for a contact of version 0. -/
def signedSectionCalls (lib : ContactLibraries) (rc : RouterContact) : List Output :=
  writeDict <|
    [("a", writeList (rc.addrs.map (·.calls lib))),
      ("i", writeBytestring (textOf rc.netID)),
      ("k", writeBytestring rc.pubkey.bytes)] ++
    (if textOf rc.nickname = [] then [] else [("n", writeBytestring (textOf rc.nickname))]) ++
    [("p", writeBytestring rc.enckey.bytes)] ++
    rc.routerVersion.toList.map (fun r => ("r", r.calls)) ++
    [("u", writeUint64 rc.lastUpdated),
      ("v", writeUint64 rc.version),
      ("x", writeList [])] ++
    [("z", writeBytestring rc.signature.bytes)]

/-- `BEncode`. -/
def calls (lib : ContactLibraries) (rc : RouterContact) : List Output :=
  if rc.version = 0 then rc.signedSectionCalls lib
  else if rc.version = 1 then
    [.writef (ascii "li1e" ++ decimal rc.signature.bytes.length ++ ascii ":")
        (printable_decimal _ _ _ (by decide) (by decide)),
      .write rc.signature.bytes, .write rc.signedBtDict, .writef (ascii "e") (by decide)]
  else [.refuse]

end RouterContact

theorem AddressInfo.appendAll_calls : appendAll (info.calls lib) = info.bEncode lib := by
  rw [calls, appendAll_writeDict]
  simp only [map_cons, map_nil, appendAll_writeUint64, appendAll_writeBytestring,
    UInt16.toNat_toUInt64]
  rfl

theorem AddressInfo.total_calls : total (info.calls lib) = info.encoding lib := by
  rw [calls, total_writeDict]
  simp only [map_cons, map_nil, total_writeUint64, total_writeBytestring,
    UInt16.toNat_toUInt64]
  rfl

theorem RouterVersion.appendAll_calls : appendAll r.calls = r.bEncode := by
  rw [calls, appendAll_writeList, map_map]
  exact congrArg _ (map_congr_left fun i _ => appendAll_writeUint64 i)

theorem RouterVersion.total_calls : total r.calls = r.encoding := by
  rw [calls, total_writeList, map_map]
  exact congrArg _ (map_congr_left fun i _ => total_writeUint64 i)

namespace RouterContact

variable (lib : ContactLibraries) (rc : RouterContact)

/-- The calls are those of the encoder. -/
theorem appendAll_calls : appendAll (rc.calls lib) = rc.bEncode lib := by
  ext1 b
  rw [calls, bEncode]
  split_ifs with old new
  · have none : ¬rc.version > 0 := by rw [old]; exact lt_irrefl 0
    have addrs : rc.addrs.map (appendAll ∘ (·.calls lib)) = rc.addrs.map (·.bEncode lib) :=
      map_congr_left fun info _ => info.appendAll_calls lib
    have version : (rc.routerVersion.toList.map fun r => ("r", r.calls)).map
          (fun entry => (entry.1, appendAll entry.2)) =
        rc.routerVersion.toList.map fun r => ("r", r.bEncode) := by
      rw [map_map]
      exact map_congr_left fun r _ => congrArg _ r.appendAll_calls
    rw [signedSectionCalls, appendAll_writeDict, bEncodeSignedSection, if_neg none, if_pos old,
      append_nil]
    simp only [map_append, version, apply_ite (map _), map_cons, map_nil,
      appendAll_writeList, map_map, addrs, appendAll_writeBytestring, appendAll_writeUint64]
  · simp only [appendAll, Option.bind_fun_some]
    rfl
  · rfl

theorem stores_bEncode (b : LlarpBuffer) : Stores (rc.bEncode lib) (storeAll (rc.calls lib)) b :=
  rc.appendAll_calls lib ▸ Stores.storeAll (rc.calls lib) b

/-- What a contact is encoded to. -/
def bencoding : List UInt8 :=
  if rc.version = 1 then
    Bencode.list [uint64 1, bytestring rc.signature.bytes, rc.signedBtDict]
  else rc.encoding lib

theorem total_signedSectionCalls (old : rc.version = 0) :
    total (rc.signedSectionCalls lib) = rc.encoding lib := by
  have addrs : rc.addrs.map (total ∘ (·.calls lib)) = rc.addrs.map (·.encoding lib) :=
    map_congr_left fun info _ => info.total_calls lib
  have version : (rc.routerVersion.toList.map fun r => ("r", r.calls)).map
        (fun entry => (entry.1, total entry.2)) =
      rc.routerVersion.toList.map fun r => ("r", r.encoding) := by
    rw [map_map]
    exact map_congr_left fun r _ => congrArg _ r.total_calls
  rw [signedSectionCalls, total_writeDict, encoding, signedEntries, old]
  simp only [map_append, version, apply_ite (map _), map_cons, map_nil,
    total_writeList, map_map, addrs, total_writeBytestring, total_writeUint64]
  rfl

theorem total_calls {lib : ContactLibraries} {rc : RouterContact}
    (willing : .refuse ∉ rc.calls lib) : total (rc.calls lib) = rc.bencoding lib := by
  rw [calls] at *
  rw [bencoding]
  split_ifs at * with old new _
  · rw [old] at new
    exact absurd new (by decide)
  · exact total_signedSectionCalls lib rc old
  · simp only [total, flatMap_cons, flatMap_nil, bytes, Bencode.list, bytestring,
      flatten_cons, flatten_nil, append_assoc, append_nil]
    rfl
  · exact absurd (mem_singleton.mpr rfl) willing

end RouterContact

end Contact

/-! ### Calls of the writers -/

open Output Contact

/-- A call of a writer. The elements of lists and entries have encoders of their own. -/
inductive WriterCall where
  | bytestring (data : List UInt8)
  | uint64 (i : UInt64)
  | startList
  | startDict
  | finish
  | dictMsgType (k t : UInt8)
  | dictString (k : UInt8) (str : List UInt8)
  | dictEntry (k : UInt8) (o : List Output)
  | dictInt (k : UInt8) (i : UInt64)
  | dictList (k : UInt8) (items : List (List Output))
  | list (items : List (List Output))
  | contact (lib : ContactLibraries) (rc : Contact.RouterContact)

namespace WriterCall

def calls : WriterCall → List Output
  | .bytestring data => writeBytestring data
  | .uint64 i => writeUint64 i
  | .startList => Output.startList
  | .startDict => Output.startDict
  | .finish => Output.finish
  | .dictMsgType k t => writeDictMsgType k t
  | .dictString k str => writeDictString k str
  | .dictEntry k o => writeDictEntry k o
  | .dictInt k i => writeDictInt k i
  | .dictList k items => writeDictList k items
  | .list items => writeList items
  | .contact lib rc => rc.calls lib

/-- What the call does to a buffer. -/
def store (call : WriterCall) : LlarpBuffer → Bool × LlarpBuffer := storeAll call.calls

/-- The bencoding of what is written. -/
def value : WriterCall → List UInt8
  | .bytestring data => Bencode.bytestring data
  | .uint64 i => Bencode.uint64 i.toNat
  | .startList => ascii "l"
  | .startDict => ascii "d"
  | .finish => ascii "e"
  | .dictMsgType k t => Bencode.bytestring [k] ++ Bencode.bytestring [t]
  | .dictString k str => Bencode.bytestring [k] ++ Bencode.bytestring str
  | .dictEntry k o => Bencode.bytestring [k] ++ total o
  | .dictInt k i => Bencode.bytestring [k] ++ Bencode.uint64 i.toNat
  | .dictList k items => Bencode.bytestring [k] ++ Bencode.list (items.map total)
  | .list items => Bencode.list (items.map total)
  | .contact lib rc => rc.bencoding lib

/-- The last byte is printed. -/
def EndsInText : WriterCall → Prop
  | .bytestring data => data = []
  | .dictString _ str => str = []
  | .dictEntry _ o => .refuse ∉ o ∧ endsInText o = true
  | .contact _ rc => rc.version = 1
  | _ => False

theorem total_calls (call : WriterCall) (willing : .refuse ∉ call.calls) :
    total call.calls = call.value := by
  cases call with
  | bytestring data => exact total_writeBytestring data
  | uint64 i => rfl
  | startList => rfl
  | startDict => rfl
  | finish => rfl
  | dictMsgType k t =>
    rw [calls, writeDictMsgType, total_append, total_writeBytestring, total_writeBytestring, value]
  | dictString k str =>
    rw [calls, writeDictString, total_append, total_writeBytestring, total_writeBytestring, value]
  | dictEntry k o => rw [calls, writeDictEntry, total_append, total_writeBytestring, value]
  | dictInt k i =>
    rw [calls, writeDictInt, total_append, total_writeBytestring, total_writeUint64, value]
  | dictList k items =>
    rw [calls, writeDictList, total_append, total_writeBytestring, total_writeList, value]
  | list items => exact total_writeList items
  | contact lib rc => exact RouterContact.total_calls willing

theorem endsInText_contact_iff (lib : ContactLibraries) (rc : Contact.RouterContact) :
    .refuse ∉ rc.calls lib ∧ endsInText (rc.calls lib) = true ↔ rc.version = 1 := by
  rw [RouterContact.calls]
  split_ifs with old new
  · rw [old, RouterContact.signedSectionCalls, writeDict, endsInText_finish]
    exact iff_of_false (fun both => Bool.false_ne_true both.2) (by decide)
  · refine iff_of_true ⟨?_, ?_⟩ new
    · simp only [mem_cons, not_mem_nil, reduceCtorEq, or_false, not_false_eq_true]
    · exact endsInText_append [_, _, _] [.writef (ascii "e") (by decide)]
  · exact iff_of_false (fun both => both.1 (mem_singleton.mpr rfl)) new

theorem endsInText_iff (call : WriterCall) :
    .refuse ∉ call.calls ∧ endsInText call.calls = true ↔ call.EndsInText := by
  have willing (data : List UInt8) : .refuse ∉ writeBytestring data := by
    simp only [writeBytestring, mem_cons, not_mem_nil, reduceCtorEq, or_false,
      not_false_eq_true]
  have never {row : List Output} (copied : endsInText row = false) :
      ¬(.refuse ∉ row ∧ endsInText row = true) :=
    fun both => Bool.false_ne_true (copied.symm.trans both.2)
  cases call with
  | bytestring data =>
    rw [calls, endsInText_writeBytestring, decide_eq_true_iff]
    exact and_iff_right (willing data)
  | uint64 i => exact iff_of_false (never rfl) id
  | startList => exact iff_of_false (never rfl) id
  | startDict => exact iff_of_false (never rfl) id
  | finish => exact iff_of_false (never rfl) id
  | dictMsgType k t =>
    refine iff_of_false (never ?_) id
    rw [calls, writeDictMsgType, endsInText_append_bytestring]
    rfl
  | dictString k str =>
    rw [calls, writeDictString, endsInText_append_bytestring, endsInText_writeBytestring,
      decide_eq_true_iff, mem_append, not_or]
    exact and_iff_right ⟨willing [k], willing str⟩
  | dictEntry k o =>
    rw [calls, writeDictEntry, endsInText_append, mem_append, not_or,
      and_iff_right (willing [k])]
    split_ifs with none
    · rw [EndsInText, endsInText_of_empty none]
      exact iff_of_eq rfl
    · rfl
  | dictInt k i => exact iff_of_false (never (endsInText_append _ (writeUint64 i))) id
  | dictList k items =>
    exact iff_of_false (never (endsInText_finish _)) id
  | list items => exact iff_of_false (never (endsInText_finish _)) id
  | contact lib rc => exact endsInText_contact_iff lib rc

/-- A value is written as it should be, or not at all, unless its last byte is printed and there
is no room behind it. -/
theorem writesExactly_iff (call : WriterCall) (b : LlarpBuffer) :
    WritesExactly call.store call.value b ↔
      ¬(call.EndsInText ∧ b.sizeLeft = call.value.length) := by
  by_cases refuses : .refuse ∈ call.calls
  · have refines := Stores.storeAll call.calls b
    have refused := refines.refused (appendAll_of_refuse refuses _)
    refine iff_of_true ⟨fun accepted => absurd accepted refused,
      fun i behind => refines.outside i (.inr behind)⟩ ?_
    rintro ⟨ends, -⟩
    exact (call.endsInText_iff.mpr ends).1 refuses
  · rw [← call.endsInText_iff, ← call.total_calls refuses]
    exact writesExactly_storeAll_iff call.calls b

/-- An empty string in a buffer of two bytes loses its colon. -/
theorem empty_bytestring_loses_colon :
    (store (.bytestring []) ⟨fun _ => 1, 2, 0⟩).1 = true ∧
      slice (store (.bytestring []) ⟨fun _ => 1, 2, 0⟩).2.mem 0 2 = [48, 0] ∧
      ¬WritesExactly (store (.bytestring [])) (value (.bytestring [])) ⟨fun _ => 1, 2, 0⟩ := by
  refine ⟨by decide, by decide, fun exactly => ?_⟩
  exact absurd (exactly.1 (by decide)) (by decide)

end WriterCall

end Llarp

import Llarp.Util.BencodeRead

/-!
# Bencoded values as lists of bytes

The readers of bencoded values over a list of bytes, which cannot be left. Where a reader of a
buffer would look at the byte behind the end, the value is cut off: the list ends where a
dictionary or a list goes on, or where an integer is asked for.
-/

namespace Llarp

/-- What reading a list of bytes comes to: a result and the bytes behind the value, or that the
value is cut off, with the byte that would have let the reader go on. -/
inductive Outcome (σ : Type*) where
  | ended (ending : Ending) (value : σ) (rest : List UInt8)
  | cutOff (wanted : UInt8) (value : σ)

namespace Outcome

variable {σ τ : Type*}

def map (f : σ → τ) : Outcome σ → Outcome τ
  | ended ending value rest => ended ending (f value) rest
  | cutOff wanted value => cutOff wanted (f value)

/-- Go on with the value and the rest, if the value was accepted. -/
def next (out : Outcome σ) (f : σ → List UInt8 → Outcome σ) : Outcome σ :=
  match out with
  | ended .accepted value rest => f value rest
  | out => out

end Outcome

/-- The characters before a delimiter, at most `resultsize`, and the bytes from there on. -/
def splitUntil (delim : UInt8) : (resultsize : ℕ) → List UInt8 → List UInt8 × List UInt8
  | 0, bytes => ([], bytes)
  | _ + 1, [] => ([], [])
  | resultsize + 1, c :: bytes =>
    if c ≠ delim then
      let (chars, rest) := splitUntil delim resultsize bytes
      (c :: chars, rest)
    else ([], c :: bytes)

def scanInteger : List UInt8 → Outcome (Option UInt64)
  | [] => .cutOff 'i'.toUInt8 none
  | c :: bytes =>
    if c ≠ 'i'.toUInt8 then .ended .refused none (c :: bytes)
    else
      let (chars, rest) := splitUntil 'e'.toUInt8 31 bytes
      if rest = [] ∨ chars = [] then .ended .refused none rest
      else .ended .accepted (some (strtoull chars)) rest.tail

def scanString (bytes : List UInt8) : Outcome (Option (List UInt8)) :=
  let (chars, rest) := splitUntil ':'.toUInt8 9 bytes
  if rest = [] ∨ chars = [] ∨ atoi chars < 0 then .ended .refused none rest
  else
    let slen := (atoi chars).toNat
    if rest.tail.length < slen then .ended .refused none rest.tail
    else .ended .accepted (some (rest.tail.take slen)) (rest.tail.drop slen)

section Containers

variable {σ : Type*}

def scanLoop (element finish : σ → List UInt8 → Outcome σ) :
    (fuel : ℕ) → σ → List UInt8 → Outcome σ
  | 0, s, bytes => .ended .endless s bytes
  | _ + 1, s, [] => .cutOff 'e'.toUInt8 s
  | fuel + 1, s, c :: bytes =>
    if c = 'e'.toUInt8 then finish s bytes
    else (element s (c :: bytes)).next (scanLoop element finish fuel)

def scanContainer (start : UInt8) (element finish : σ → List UInt8 → Outcome σ) (s : σ)
    (bytes : List UInt8) : Outcome σ :=
  if bytes.length < 2 ∨ bytes.head? ≠ some start then .ended .refused s bytes
  else scanLoop element finish bytes.length s bytes.tail

def scanEntry (sink : Option (List UInt8) → σ → List UInt8 → Outcome σ) (s : σ)
    (bytes : List UInt8) : Outcome σ :=
  match scanString bytes with
  | .ended _ (some key) rest => sink (some key) s rest
  | .ended _ none rest => .ended .refused s rest
  | .cutOff wanted _ => .cutOff wanted s

def scanDict (sink : Option (List UInt8) → σ → List UInt8 → Outcome σ) :
    σ → List UInt8 → Outcome σ :=
  scanContainer 'd'.toUInt8 (scanEntry sink) (sink none)

def scanList (sink : Bool → σ → List UInt8 → Outcome σ) : σ → List UInt8 → Outcome σ :=
  scanContainer 'l'.toUInt8 (sink true) (sink false)

end Containers

def scanDiscardWithin : (depth : ℕ) → List UInt8 → Outcome Unit
  | 0, bytes => .ended .endless () bytes
  | _ + 1, [] => .ended .accepted () []
  | depth + 1, c :: bytes =>
    if c = 'l'.toUInt8 then
      scanList (fun more _ rest =>
        if more then scanDiscardWithin depth rest else .ended .accepted () rest) () (c :: bytes)
    else if c = 'i'.toUInt8 then (scanInteger (c :: bytes)).map fun _ => ()
    else if c = 'd'.toUInt8 then
      scanDict (fun key _ rest =>
        if key.isSome then scanDiscardWithin depth rest else .ended .accepted () rest) ()
        (c :: bytes)
    else if isDigit c then (scanString (c :: bytes)).map fun _ => ()
    else .ended .refused () (c :: bytes)

def scanDiscard (bytes : List UInt8) : Outcome Unit := scanDiscardWithin (bytes.length + 1) bytes

/-! ### Readers -/

/-- What a reader delivers. -/
inductive Value where
  | nothing
  | skipped (raw : List UInt8)
  | integer (n : UInt64)
  | string (bytes : List UInt8)
  | dict (entries : List (List UInt8 × Value))
  | list (elements : List Value)
  | both (first second : Value)

/-- The readers that can be built from the basic ones. The sink of a dictionary or a list is a
reader for each value, which may depend on all that the sink has seen. A value may be refused
after it has been read, and a sink may read several values in a row. -/
inductive Reader where
  | abort
  | integer
  | string
  | discard
  | dict (sink : List (List UInt8 × Value) → List UInt8 → Reader)
  | list (sink : List Value → Reader)
  | check (reader : Reader) (test : Value → Bool)
  | andThen (first : Reader) (next : Value → Reader)

/-- The sink of a dictionary that collects what it reads. -/
def entrySink (value : List (List UInt8 × Value) → List UInt8 → LlarpBuffer → Reading Value) :
    Option (List UInt8) → List (List UInt8 × Value) → LlarpBuffer →
      Reading (List (List UInt8 × Value))
  | none, entries, b => (.accepted, entries, b)
  | some key, entries, b =>
    let (ending, v, after) := value entries key b
    (ending, entries ++ [(key, v)], after)

/-- The sink of a list that collects what it reads. -/
def elementSink (value : List Value → LlarpBuffer → Reading Value) :
    Bool → List Value → LlarpBuffer → Reading (List Value)
  | false, elements, b => (.accepted, elements, b)
  | true, elements, b =>
    let (ending, v, after) := value elements b
    (ending, elements ++ [v], after)

def scanEntrySink (value : List (List UInt8 × Value) → List UInt8 → List UInt8 → Outcome Value) :
    Option (List UInt8) → List (List UInt8 × Value) → List UInt8 →
      Outcome (List (List UInt8 × Value))
  | none, entries, bytes => .ended .accepted entries bytes
  | some key, entries, bytes => (value entries key bytes).map fun v => entries ++ [(key, v)]

def scanElementSink (value : List Value → List UInt8 → Outcome Value) :
    Bool → List Value → List UInt8 → Outcome (List Value)
  | false, elements, bytes => .ended .accepted elements bytes
  | true, elements, bytes => (value elements bytes).map fun v => elements ++ [v]

namespace Reader

/-- A reader applied to a buffer. -/
def read : Reader → LlarpBuffer → Reading Value
  | abort, b => (.refused, .nothing, b)
  | integer, b =>
    let (n, after) := b.readInteger
    (.ofBool n.isSome, n.elim .nothing .integer, after)
  | string, b =>
    let (bytes, after) := b.readString
    (.ofBool bytes.isSome, bytes.elim .nothing .string, after)
  | discard, b =>
    let (ending, _, after) := Llarp.discard b
    (ending, .skipped (slice b.mem b.cur (after.cur - b.cur)), after)
  | dict sink, b =>
    let (ending, entries, after) :=
      readDict (entrySink fun entries key b => (sink entries key).read b) [] b
    (ending, .dict entries, after)
  | list sink, b =>
    let (ending, elements, after) :=
      readList (elementSink fun elements b => (sink elements).read b) [] b
    (ending, .list elements, after)
  | check reader test, b =>
    (reader.read b).next fun value after => (.ofBool (test value), value, after)
  | andThen first next, b =>
    (first.read b).next fun value after =>
      let (ending, second, after) := (next value).read after
      (ending, .both value second, after)

/-- A reader applied to a list of bytes. -/
def scan : Reader → List UInt8 → Outcome Value
  | abort, bytes => .ended .refused .nothing bytes
  | integer, bytes => (scanInteger bytes).map fun n => n.elim .nothing .integer
  | string, bytes => (scanString bytes).map fun string => string.elim .nothing .string
  | discard, bytes =>
    match scanDiscard bytes with
    | .ended ending _ rest => .ended ending (.skipped (bytes.take (bytes.length - rest.length))) rest
    | .cutOff wanted _ => .cutOff wanted (.skipped bytes)
  | dict sink, bytes =>
    (scanDict (scanEntrySink fun entries key bytes => (sink entries key).scan bytes) []
      bytes).map .dict
  | list sink, bytes =>
    (scanList (scanElementSink fun elements bytes => (sink elements).scan bytes) [] bytes).map
      .list
  | check reader test, bytes =>
    (reader.scan bytes).next fun value rest => .ended (.ofBool (test value)) value rest
  | andThen first next, bytes =>
    (first.scan bytes).next fun value rest => ((next value).scan rest).map (.both value)

end Reader

end Llarp

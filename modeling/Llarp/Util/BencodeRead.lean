import Mathlib

/-!
# Reading bencoded values

A buffer is a piece of memory with a cursor. The readers test how much is left of it, but some
of them look at the byte under the cursor without a test, so the memory behind the buffer is
part of the model. Addresses are counted from the start of the buffer.

A reader returns true or false, throws, or never returns. Dictionaries and lists hand what they
find to a sink, which keeps a state and reads the values.
-/

namespace Llarp

/-- How a call of a reader ends: it returns true or false, throws, or does not return. -/
inductive Ending where
  | accepted
  | refused
  | thrown
  | endless
  deriving DecidableEq

def Ending.ofBool (result : Bool) : Ending := if result then .accepted else .refused

/-! ### Numbers -/

def isDigit (c : UInt8) : Bool := '0'.toUInt8 ≤ c && c ≤ '9'.toUInt8

def isSpace (c : UInt8) : Bool := c = ' '.toUInt8 || (9 ≤ c && c ≤ 13)

/-- The number that decimal digits stand for. -/
def ofDigits (digits : List UInt8) : ℕ :=
  digits.foldl (fun n digit => n * 10 + (digit - '0'.toUInt8).toNat) 0

/-- The sign and the digits at the start of a C string, after white space. -/
def scanNumber (chars : List UInt8) : Bool × ℕ :=
  let chars := (chars.takeWhile (· ≠ 0)).dropWhile isSpace
  let negative := chars.head? = some '-'.toUInt8
  let signed := negative || chars.head? = some '+'.toUInt8
  (negative, ofDigits ((if signed then chars.tail else chars).takeWhile isDigit))

def strtoull (chars : List UInt8) : UInt64 :=
  let (negative, n) := scanNumber chars
  if 2 ^ 64 ≤ n then UInt64.ofNat (2 ^ 64 - 1)
  else if negative then -UInt64.ofNat n
  else UInt64.ofNat n

/-- The C function, for texts that are too short to overflow. -/
def atoi (chars : List UInt8) : ℤ :=
  let (negative, n) := scanNumber chars
  if negative then -n else n

/-! ### Buffers -/

/-- The bytes at `len` addresses from `start`. -/
def slice (mem : ℕ → UInt8) : (start len : ℕ) → List UInt8
  | _, 0 => []
  | start, len + 1 => mem start :: slice mem (start + 1) len

structure LlarpBuffer where
  mem : ℕ → UInt8
  sz : ℕ
  cur : ℕ := 0

namespace LlarpBuffer

variable (b : LlarpBuffer)

def sizeLeft : ℕ := b.sz - b.cur

/-- The byte under the cursor. -/
def peek : UInt8 := b.mem b.cur

/-- The buffer with the cursor moved on. -/
def skip (n : ℕ) : LlarpBuffer := { b with cur := b.cur + n }

/-- The loop of `read_until`: the characters that it copies. -/
def readUntilLoop (delim : UInt8) : (resultsize : ℕ) → LlarpBuffer → List UInt8 × LlarpBuffer
  | 0, b => ([], b)
  | resultsize + 1, b =>
    if b.cur ≠ b.sz ∧ b.peek ≠ delim then
      let (chars, after) := readUntilLoop delim resultsize (b.skip 1)
      (b.peek :: chars, after)
    else ([], b)

/-- The characters before a delimiter, or none if nothing is left behind them. -/
def readUntil (delim : UInt8) (resultsize : ℕ) : List UInt8 × LlarpBuffer :=
  let (chars, after) := readUntilLoop delim resultsize b
  (if after.sizeLeft = 0 then [] else chars, after)

/-- Read an integer, unless the reader returns false. -/
def readInteger : Option UInt64 × LlarpBuffer :=
  if b.peek ≠ 'i'.toUInt8 then (none, b)
  else
    let (chars, after) := (b.skip 1).readUntil 'e'.toUInt8 31
    -- the byte behind the number is skipped even if the number was too long
    if chars = [] then (none, after) else (some (strtoull chars), after.skip 1)

/-- Read a byte string, unless the reader returns false. -/
def readString : Option (List UInt8) × LlarpBuffer :=
  let (chars, after) := b.readUntil ':'.toUInt8 9
  if chars = [] then (none, after)
  else if atoi chars < 0 then (none, after)
  else
    let slen := (atoi chars).toNat
    let start := after.skip 1
    if start.sizeLeft < slen then (none, start)
    else (some (slice start.mem start.cur slen), start.skip slen)

end LlarpBuffer

/-! ### Dictionaries and lists -/

section Containers

variable {σ : Type*}

/-- What a reader leaves: how it ended, the state of the sink, and the buffer. -/
abbrev Reading (σ : Type*) := Ending × σ × LlarpBuffer

/-- Go on after an accepted value. -/
def Reading.next (read : Reading σ) (f : σ → LlarpBuffer → Reading σ) : Reading σ :=
  match read with
  | (.accepted, s, b) => f s b
  | ended => ended

/-- The loop over the elements of a container, and its end. -/
def readLoop (element finish : σ → LlarpBuffer → Reading σ) :
    (fuel : ℕ) → σ → LlarpBuffer → Reading σ
  | 0, s, b => (.endless, s, b)
  | fuel + 1, s, b =>
    if b.sizeLeft ≠ 0 ∧ b.peek ≠ 'e'.toUInt8 then
      (element s b).next (readLoop element finish fuel)
    -- the byte under the cursor is looked at even if nothing is left of the buffer
    else if b.peek ≠ 'e'.toUInt8 then (.refused, s, b)
    else finish s (b.skip 1)

/-- A container starts with a letter and has at least two bytes. -/
def readContainer (start : UInt8) (element finish : σ → LlarpBuffer → Reading σ) (s : σ)
    (b : LlarpBuffer) : Reading σ :=
  if b.sizeLeft < 2 then (.refused, s, b)
  else if b.peek ≠ start then (.refused, s, b)
  else readLoop element finish b.sizeLeft s (b.skip 1)

/-- A key, which goes to the sink, and what the sink reads. -/
def readEntry (sink : Option (List UInt8) → σ → LlarpBuffer → Reading σ) (s : σ)
    (b : LlarpBuffer) : Reading σ :=
  match b.readString with
  | (none, b) => (.refused, s, b)
  | (some key, b) => sink (some key) s b

/-- Read a dictionary. The sink gets the keys, and at the end none. -/
def readDict (sink : Option (List UInt8) → σ → LlarpBuffer → Reading σ) :
    σ → LlarpBuffer → Reading σ :=
  readContainer 'd'.toUInt8 (readEntry sink) (sink none)

/-- Read a list. The sink is told whether there is another element. -/
def readList (sink : Bool → σ → LlarpBuffer → Reading σ) : σ → LlarpBuffer → Reading σ :=
  readContainer 'l'.toUInt8 (sink true) (sink false)

end Containers

/-- A reader of one value as a sink without a state. -/
def endingOf {α : Type*} (read : Option α × LlarpBuffer) : Reading Unit :=
  (.ofBool read.1.isSome, (), read.2)

/-- Skip a value, with values nested at most `depth` deep. -/
def discardWithin : (depth : ℕ) → LlarpBuffer → Reading Unit
  | 0, b => (.endless, (), b)
  | depth + 1, b =>
    if b.sizeLeft = 0 then (.accepted, (), b)
    else if b.peek = 'l'.toUInt8 then
      readList (fun more _ b => if more then discardWithin depth b else (.accepted, (), b)) () b
    else if b.peek = 'i'.toUInt8 then endingOf b.readInteger
    else if b.peek = 'd'.toUInt8 then
      readDict (fun key _ b => if key.isSome then discardWithin depth b else (.accepted, (), b))
        () b
    else if isDigit b.peek then endingOf b.readString
    else (.refused, (), b)

/-- Skip a value. Nested values are shorter than the values around them. -/
def discard (b : LlarpBuffer) : Reading Unit := discardWithin (b.sizeLeft + 1) b

end Llarp

import Llarp.Messages.LinkMessages

/-!
# The parser of link messages

The first entry of a message names its kind. The other entries are decoded into the object that
the parser has for this kind, and at the end of the dictionary the object is handled and cleared.
A message that cannot be decoded to its end leaves in the object what it got from it.
-/

namespace Llarp.Messages

open Foundation

variable {Session Msg : Type}

/-- The parser, and what it has passed to `HandleMessage` since it began to read a buffer. -/
structure Parser (Msg : Type) where
  holder : (kind : Kind) → Message Msg kind
  firstkey : Bool
  msg : Option Kind
  handled : Option ((kind : Kind) × Message Msg kind)

def Kind.ofLetter (c : UInt8) : Option Kind :=
  if c = 'i'.toUInt8 then some .intro
  else if c = 'd'.toUInt8 then some .downstream
  else if c = 'u'.toUInt8 then some .upstream
  else if c = 'm'.toUInt8 then some .dht
  else if c = 'c'.toUInt8 then some .commit
  else if c = 's'.toUInt8 then some .status
  else if c = 'x'.toUInt8 then some .discard
  else none

/-- The kind that the first entry names. -/
def readKind (key : List UInt8) (b : LlarpBuffer) : Option Kind × LlarpBuffer :=
  if ¬startsWith key "a" then (none, b)
  else
    match b.readString with
    | (some [c], b) => (Kind.ofLetter c, b)
    | (_, b) => (none, b)

namespace Parser

/-- A new parser. -/
def fresh (env : Environment Session Msg) : Parser Msg :=
  ⟨Messages.fresh Msg env.defaultID, true, none, none⟩

variable (env : Environment Session Msg) (src : Session)
  (handle : (kind : Kind) × Message Msg kind → Bool)

/-- An entry. -/
def onKey (key : List UInt8) :
    Decoder (Parser Msg) := fun p b =>
  if p.firstkey then
    match readKind key b with
    | (some kind, b) =>
      (.accepted, { p with
        msg := some kind
        firstkey := false }, b)
    | (none, b) => (.refused, p, b)
  else
    match p.msg with
    | some kind =>
      Decoder.into (fun p => p.holder kind)
        (fun msg p => { p with holder := Function.update p.holder kind msg })
        ((table env src kind).decodeKey key) p b
    | none => (.refused, p, b)

/-- `MessageDone`, with what the router answers. -/
def messageDone (p : Parser Msg) : Bool × Parser Msg :=
  match p.msg with
  | some kind =>
    (handle ⟨kind, p.holder kind⟩,
      { p with
        holder := Function.update p.holder kind (clear Msg kind (p.holder kind))
        msg := none
        handled := some ⟨kind, p.holder kind⟩ })
  | none => (false, p)

/-- The end of the dictionary. -/
def onEnd : Decoder (Parser Msg) := fun p b =>
  if p.firstkey then (.refused, p, b)
  else
    let (result, p) := messageDone handle p
    (.ofBool result, p, b)

def sink : Option (List UInt8) → Decoder (Parser Msg)
  | some key => onKey env src key
  | none => onEnd handle

def processFrom (p : Parser Msg) (b : LlarpBuffer) : Reading (Parser Msg) :=
  readDict (sink env src handle)
    { p with
      firstkey := true
      handled := none } b

end Parser

/-- A buffer that was processed: its session, its bytes, and what the router answered. -/
structure Call (Session Msg : Type) where
  src : Session
  buf : LlarpBuffer
  handle : (kind : Kind) × Message Msg kind → Bool

namespace Parser

variable (env : Environment Session Msg)

/-- The parser after a number of calls. -/
def afterCalls (calls : List (Call Session Msg)) : Parser Msg :=
  calls.foldl (fun p call => (processFrom env call.src call.handle p call.buf).2.1) (fresh env)

/-- What is passed to `HandleMessage` by a call. -/
def passed (p : Parser Msg) (call : Call Session Msg) : Option ((kind : Kind) × Message Msg kind) :=
  (processFrom env call.src call.handle p call.buf).2.1.handled

/-! ### The entries of a message -/

/-- What can be said about a message without an object: its kind and its entries. -/
structure Script where
  kind : Option Kind
  listed : List (List UInt8 × LlarpBuffer)

def logKey (src : Session) (key : List UInt8) : Decoder Script :=
  fun s b =>
    match s.kind with
    | none =>
      match readKind key b with
      | (some kind, b) => (.accepted, ⟨some kind, []⟩, b)
      | (none, b) => (.refused, s, b)
    | some kind =>
      let (ending, _, after) :=
        (table env src kind).decodeKey key (Messages.fresh Msg env.defaultID kind) b
      (ending, { s with listed := s.listed ++ [(key, b)] }, after)

/-- The message in a buffer, as far as it is accepted. -/
def script (src : Session) (b : LlarpBuffer) : Reading Script :=
  Decoder.dict (logKey env src) ⟨none, []⟩ b

end Parser

end Llarp.Messages

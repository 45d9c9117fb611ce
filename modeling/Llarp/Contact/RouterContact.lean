import Llarp.Contact.AddressInfo

/-!
# Router contacts

A router contact is decoded from a dictionary, or from a list that holds a signature and the
dictionary that was signed. The dictionary names the version, and the version alone decides what
the signature is checked against: for version 0 it is what the object is encoded to, and for
version 1 the dictionary that the object keeps from the last list that it was decoded from.
-/

namespace Llarp.Contact

open Foundation Bencode WriteBuffer

/-- The text in a buffer ends at the first zero. -/
def textOf {size : ℕ} (buffer : AlignedBuffer size) : List UInt8 := buffer.bytes.takeWhile (· ≠ 0)

/-- A buffer around a text, with a zero behind it. -/
def bufferOf (text : List UInt8) : LlarpBuffer := ⟨fun i => text.getD i 0, text.length, 0⟩

/-! ### Router versions -/

structure RouterVersion where
  version : Vector UInt16 3
  protoVersion : UInt64
  deriving DecidableEq

namespace RouterVersion

/-- The protocol version of the empty router version is -1. -/
def empty : RouterVersion := ⟨.replicate 3 0, -1⟩

/-- The next number, of which the first is the protocol version. -/
def decodeElement : Decoder (ℕ × RouterVersion) :=
  .number fun i (idx, r) =>
    if idx = 0 then some (1, { r with protoVersion := i })
    else if idx > 3 then none
    else some (idx + 1, { r with version := r.version.setIfInBounds (idx - 1) i.toUInt16 })

/-- All four numbers or none. -/
def bDecode : Decoder RouterVersion := fun _ b =>
  match Decoder.each decodeElement (0, empty) b with
  | (.accepted, (idx, r), b) => (.ofBool (idx = 4 ∨ idx = 0), r, b)
  | (ending, (_, r), b) => (ending, r, b)

def numbers (r : RouterVersion) : List UInt64 :=
  if r = empty then [] else r.protoVersion :: r.version.toList.map UInt16.toUInt64

def bEncode (r : RouterVersion) : WriteBuffer → Option WriteBuffer :=
  writeList (r.numbers.map fun i => writeUint64 i.toNat)

end RouterVersion

/-! ### SRV records -/

namespace SRVData

def targetMaxSize : ℕ := 200

/-- `std::string::find`. -/
def find (text pattern : List UInt8) : Option ℕ :=
  (List.range (text.length + 1)).find? fun pos => pattern.isPrefixOf (text.drop pos)

def isValid (target : List UInt8) : Bool :=
  if target = ascii "." ∨ target = [] then true
  else if target.length > targetMaxSize then false
  else find target (ascii ".loki") = some (target.length - 5) ||
    find target (ascii ".snode") = some (target.length - 6)

def empty : SRVTuple := ⟨[], 0, 0, 0, []⟩

def bDecode (lib : ContactLibraries) : Decoder SRVTuple :=
  .raw fun srvString srv =>
    match lib.btSRV srvString with
    | none => (.refused, srv)
    | some srv => (.ofBool (isValid srv.target), srv)

def bEncode (lib : ContactLibraries) (srv : SRVTuple) : WriteBuffer → Option WriteBuffer :=
  write (lib.btSerializeSRV srv)

end SRVData

/-! ### Router contacts -/

abbrev NetID := AlignedBuffer 8

@[ext]
structure RouterContact where
  addrs : List AddressInfo
  netID : NetID
  enckey : PubKey
  pubkey : PubKey
  signature : Signature
  nickname : AlignedBuffer 32
  lastUpdated : UInt64
  version : UInt64
  routerVersion : Option RouterVersion
  signedBtDict : List UInt8
  srvRecords : List SRVTuple

namespace RouterContact

/-- `MAX_RC_SIZE`. -/
def maxSize : ℕ := 1024

/-- A new object takes the text of the default network. -/
def fresh (defaultID : NetID) : RouterContact where
  addrs := []
  netID := .copy 8 (textOf defaultID)
  enckey := .zero 32
  pubkey := .zero 32
  signature := .zero 64
  nickname := .zero 32
  lastUpdated := 0
  version := 0
  routerVersion := none
  signedBtDict := []
  srvRecords := []

variable (lib : ContactLibraries) (rc : RouterContact)

/-- The network and the signed dictionary stay. -/
def clear : RouterContact :=
  { rc with
    addrs := []
    signature := .zero 64
    nickname := .zero 32
    enckey := .zero 32
    pubkey := .zero 32
    routerVersion := none
    lastUpdated := 0
    srvRecords := []
    version := 0 }

def addrsMember : Member RouterContact :=
  ⟨"a", List AddressInfo, addrs, fun addrs rc => { rc with addrs },
    .list .empty (AddressInfo.bDecode lib)⟩

def decodeNetID : Decoder NetID :=
  .string fun bytes _ => if bytes.length > 8 then none else some (.copy 8 bytes)

/-- The network is zero where it could not be decoded. -/
def netIDMember : Member RouterContact :=
  ⟨"i", NetID, netID, fun netID rc => { rc with netID }, fun _ => decodeNetID (.zero 8)⟩

def pubkeyMember : Member RouterContact :=
  ⟨"k", PubKey, pubkey, fun pubkey rc => { rc with pubkey }, .aligned 32⟩

def routerVersionMember : Member RouterContact :=
  ⟨"r", Option RouterVersion, routerVersion, fun routerVersion rc => { rc with routerVersion },
    .new .empty (fun r _ => some (some r)) RouterVersion.bDecode⟩

def nicknameMember : Member RouterContact :=
  ⟨"n", AlignedBuffer 32, nickname, fun nickname rc => { rc with nickname },
    .string fun bytes _ => if bytes.length > 32 then none else some (.copy 32 bytes)⟩

def srvRecordsMember : Member RouterContact :=
  ⟨"s", List SRVTuple, srvRecords, fun srvRecords rc => { rc with srvRecords },
    .list SRVData.empty (SRVData.bDecode lib)⟩

def enckeyMember : Member RouterContact :=
  ⟨"p", PubKey, enckey, fun enckey rc => { rc with enckey }, .aligned 32⟩

def lastUpdatedMember : Member RouterContact :=
  ⟨"u", UInt64, lastUpdated, fun lastUpdated rc => { rc with lastUpdated }, .integer fun i _ => i⟩

def versionMember : Member RouterContact :=
  ⟨"v", UInt64, version, fun version rc => { rc with version }, .integer fun i _ => i⟩

/-- Exits are skipped. -/
def exitsMember : Member RouterContact := ⟨"x", Unit, fun _ => (), fun _ rc => rc, .discard⟩

def signatureMember : Member RouterContact :=
  ⟨"z", Signature, signature, fun signature rc => { rc with signature }, .aligned 64⟩

/-- `RouterContact::DecodeKey`. -/
def table : Table RouterContact where
  members :=
    [addrsMember lib, netIDMember, pubkeyMember, routerVersionMember, nicknameMember,
      srvRecordsMember lib, enckeyMember, lastUpdatedMember, versionMember, exitsMember,
      signatureMember]
  otherwise := .discard
  letters := by
    show Decoder.Letters ["a", "i", "k", "r", "n", "s", "p", "u", "v", "x", "z"]
    decide
  get_put := by
    simp only [List.forall_mem_cons]
    exact ⟨fun _ _ => rfl, fun _ _ => rfl, fun _ _ => rfl, fun _ _ => rfl, fun _ _ => rfl,
      fun _ _ => rfl, fun _ _ => rfl, fun _ _ => rfl, fun _ _ => rfl, fun _ _ => rfl,
      fun _ _ => rfl, nofun⟩
  apart := by
    intro m member other another
    simp only [List.mem_cons, List.not_mem_nil, or_false] at member another
    rcases member with rfl | rfl | rfl | rfl | rfl | rfl | rfl | rfl | rfl | rfl | rfl <;>
      rcases another with rfl | rfl | rfl | rfl | rfl | rfl | rfl | rfl | rfl | rfl | rfl <;>
        first | exact .inl rfl | exact .inr fun _ _ => rfl
  oblivious := by
    simp only [List.forall_mem_cons]
    exact ⟨Decoder.oblivious_list _ _,
      fun _ _ b _ => Decoder.oblivious_string (fun _ _ _ => rfl) _ _ b trivial,
      Decoder.oblivious_aligned 32, Decoder.oblivious_new fun _ _ _ => rfl,
      Decoder.oblivious_string fun _ _ _ => rfl, Decoder.oblivious_list _ _,
      Decoder.oblivious_aligned 32, Decoder.oblivious_integer _, Decoder.oblivious_integer _,
      Decoder.oblivious_discard, Decoder.oblivious_aligned 64, nofun⟩
  oblivious_otherwise := Decoder.oblivious_discard
  otherwise_eq := Decoder.discard_eq

/-- What is thrown while a list is decoded is caught. -/
def caught : Ending → Ending
  | .thrown => .refused
  | ending => ending

/-- `DecodeVersion_1`. -/
def decodeVersion1 (btlist : ContactList) (rc : RouterContact) : Ending × RouterContact :=
  match btlist.signature, btlist.dictData with
  | some signature, some dictData =>
    let rc := { rc with signedBtDict := dictData }
    if ¬btlist.isFinished then (.refused, rc)
    else if fits : signature.length = 64 then
      let rc := { rc with signature := ⟨signature, fits⟩ }
      let (ending, rc, _) := Decoder.dict (table lib).decodeKey rc (bufferOf dictData)
      (ending, rc)
    else (.refused, rc)
  | _, _ => (.refused, rc)

def bDecode : Decoder RouterContact := fun rc b =>
  let rc := rc.clear
  if b.peek = 'd'.toUInt8 then Decoder.dict (table lib).decodeKey rc b
  else if b.peek ≠ 'l'.toUInt8 then (.refused, rc, b)
  else
    let btlist := lib.btList b.rest
    if btlist.version = some 1 then
      match decodeVersion1 lib btlist rc with
      | (.accepted, rc) =>
        -- the library does not move the cursor
        let (ending, _, b) := Llarp.discard b
        (caught ending, rc, b)
      | (ending, rc) => (caught ending, rc, b)
    else (.refused, rc, b)

/-- `BEncodeSignedSection`. There are no exits any more, but the list of them is written. -/
def bEncodeSignedSection : WriteBuffer → Option WriteBuffer :=
  writeDict <|
    [("a", writeList (rc.addrs.map (·.bEncode lib))),
      ("i", writeBytestring (textOf rc.netID)),
      ("k", writeBytestring rc.pubkey.bytes)] ++
    (if textOf rc.nickname = [] then [] else [("n", writeBytestring (textOf rc.nickname))]) ++
    [("p", writeBytestring rc.enckey.bytes)] ++
    rc.routerVersion.toList.map (fun r => ("r", r.bEncode)) ++
    (if rc.version > 0 then [("s", writeList (rc.srvRecords.map (SRVData.bEncode lib)))] else []) ++
    [("u", writeUint64 rc.lastUpdated.toNat),
      ("v", writeUint64 rc.version.toNat),
      ("x", writeList [])] ++
    (if rc.version = 0 then [("z", writeBytestring rc.signature.bytes)] else [])

def bEncode (b : WriteBuffer) : Option WriteBuffer :=
  if rc.version = 0 then rc.bEncodeSignedSection lib b
  else if rc.version = 1 then do
    let b ← b.writef (ascii "li1e" ++ decimal rc.signature.bytes.length ++ ascii ":")
    let b ← b.write rc.signature.bytes
    let b ← b.write rc.signedBtDict
    b.writef (ascii "e")
  else none

/-- A signature is checked against the encoding with a signature of zeros, or against the
dictionary that was kept. -/
def verifySignature (verify : PubKey → List UInt8 → Signature → Bool) (rc : RouterContact) : Bool :=
  if rc.version = 0 then
    match bEncode lib { rc with signature := .zero 64 } ⟨maxSize, []⟩ with
    | none => false
    | some buf => verify rc.pubkey buf.written rc.signature
  else if rc.version = 1 then verify rc.pubkey rc.signedBtDict rc.signature
  else false

end RouterContact

end Llarp.Contact

import Llarp.Util.BencodeThrow

/-!
# IP ranges and traffic policies

A range is decoded from a text. The part behind the slash of an IPv4 range is read by
`std::stoi`, which throws where it finds no number, and nothing catches that. The part behind the
slash of an IPv6 range is read by `atoi`, which does not throw.

Addresses are kept in host byte order. Parsing addresses and decoding strings and SRV records is
left to the C library and to a library for bencoded values, which are parameters.
-/

namespace Llarp

open Bencode Decoder

/-- The numbers that `std::stoi` returns; where it throws, none. -/
def stoi (chars : List UInt8) : Option ℤ :=
  let text := (chars.takeWhile (· ≠ 0)).dropWhile isSpace
  let signed := text.head? = some '-'.toUInt8 || text.head? = some '+'.toUInt8
  let digits := (if signed then text.tail else text).takeWhile isDigit
  if digits = [] then none
  else if -2 ^ 31 ≤ atoi chars ∧ atoi chars < 2 ^ 31 then some (atoi chars)
  else none

/-- What `atoi` returns for a text of any length: a number that `strtol` bounds, cut to an
`int`. -/
def atoiInt (chars : List UInt8) : ℤ :=
  (max (-2 ^ 63) (min (2 ^ 63 - 1) (atoi chars))).bmod (2 ^ 32)

/-- A service, the priority, weight and port, and a target. -/
structure SRVTuple where
  service : List UInt8
  priority : UInt16
  weight : UInt16
  port : UInt16
  target : List UInt8

/-- What the decoders use of other libraries. -/
structure Libraries where
  inetPton4 : List UInt8 → Option (BitVec 32)
  inetPton6 : List UInt8 → Option (BitVec 128)
  /-- decode a string that stands alone, or throw -/
  btString : List UInt8 → Option (List UInt8)
  /-- decode a list of SRV records that stands alone, or throw -/
  btSRVs : List UInt8 → Option (List SRVTuple)

structure IPRange where
  addr : BitVec 128 := 0
  netmaskBits : BitVec 128 := 0
  deriving DecidableEq

namespace IPRange

/-- The netmask with this many bits. -/
def netmaskIPv6Bits (bits : ℕ) : BitVec 128 := BitVec.allOnes 128 <<< (128 - bits)

def expandV4 (ip : BitVec 32) : BitVec 128 := 0xffff00000000#128 ||| ip.setWidth 128

variable (lib : Libraries) (text : List UInt8)

/-- The text that a C function sees. -/
def cString : List UInt8 := text.takeWhile (· ≠ 0)

/-- The part of a text before the slash. -/
def beforeSlash : List UInt8 := text.takeWhile (· ≠ '/'.toUInt8)

/-- The part of a text behind the slash, which is empty if there is no slash. -/
def behindSlash : List UInt8 := (text.dropWhile (· ≠ '/'.toUInt8)).tail

def fromString (range : IPRange) : Ending × IPRange :=
  let bitsstr := behindSlash text
  if ':'.toUInt8 ∉ text then
    match lib.inetPton4 (cString (beforeSlash text)) with
    | none => (.refused, range)
    | some ip =>
      let range := { range with addr := expandV4 ip }
      if bitsstr ≠ [] then
        match stoi bitsstr with
        | none => (.thrown, range)
        | some bits =>
          if bits < 0 ∨ bits > 32 then (.refused, range)
          else (.accepted, { range with netmaskBits := netmaskIPv6Bits (96 + bits.toNat) })
      else (.accepted, { range with netmaskBits := netmaskIPv6Bits 128 })
  else
    match lib.inetPton6 (cString (beforeSlash text)) with
    | none => (.refused, range)
    | some addr =>
      let range := { range with addr }
      if bitsstr ≠ [] then
        let bits := atoiInt bitsstr
        if bits < 0 ∨ bits > 128 then (.refused, range)
        else (.accepted, { range with netmaskBits := netmaskIPv6Bits bits.toNat })
      else (.accepted, { range with netmaskBits := netmaskIPv6Bits 128 })

def bDecode : Decoder IPRange :=
  .raw fun data range =>
    match lib.btString data with
    | none => (.refused, range)
    | some text => fromString lib text range

/-- Neither of two ranges is less than the other. -/
def same (range other : IPRange) : Bool :=
  range.addr &&& range.netmaskBits = other.addr &&& other.netmaskBits &&
    range.netmaskBits = other.netmaskBits

/-- An IPv4 range with something behind the slash that is not a number of the size of an
`int`. -/
def Malformed : Prop :=
  ':'.toUInt8 ∉ text ∧ (lib.inetPton4 (cString (beforeSlash text))).isSome ∧
    behindSlash text ≠ [] ∧ stoi (behindSlash text) = none

theorem fromString_thrown_iff {lib : Libraries} {text : List UInt8} {range : IPRange} :
    (fromString lib text range).1 = .thrown ↔ Malformed lib text := by
  rw [fromString, Malformed]
  by_cases colon : ':'.toUInt8 ∈ text
  · rw [if_neg (not_not.mpr colon)]
    refine iff_of_false ?_ fun malformed => malformed.1 colon
    split
    next => exact Ending.noConfusion
    next =>
      dsimp only
      split
      next => split <;> exact Ending.noConfusion
      next => exact Ending.noConfusion
  · rw [if_pos colon]
    cases lib.inetPton4 (cString (beforeSlash text)) with
    | none => exact iff_of_false Ending.noConfusion fun malformed => nomatch malformed.2.1
    | some ip =>
      by_cases bits : behindSlash text = []
      · dsimp only
        rw [if_neg (not_not.mpr bits)]
        exact iff_of_false Ending.noConfusion fun malformed => malformed.2.2.1 bits
      · dsimp only
        rw [if_pos bits]
        cases stoi (behindSlash text) with
        | none => exact iff_of_true rfl ⟨colon, rfl, bits, rfl⟩
        | some n =>
          refine iff_of_false ?_ fun malformed => nomatch malformed.2.2.2
          dsimp only
          split <;> exact Ending.noConfusion

theorem fromString_ne_endless (range : IPRange) : (fromString lib text range).1 ≠ .endless := by
  rw [fromString]
  dsimp only
  repeat' split
  all_goals exact Ending.noConfusion

/-- A malformed range stands at the cursor. -/
def MalformedAt (b : LlarpBuffer) : Prop :=
  ∃ after text, discard b = (.accepted, (), after) ∧
    lib.btString (slice b.mem b.cur (after.cur - b.cur)) = some text ∧ Malformed lib text

theorem bDecode_thrown_iff {lib : Libraries} {range : IPRange} {b : LlarpBuffer} :
    (bDecode lib range b).1 = .thrown ↔ MalformedAt lib b := by
  rw [bDecode, raw_thrown_iff]
  refine exists_congr fun after => ?_
  cases lib.btString (slice b.mem b.cur (after.cur - b.cur)) with
  | none =>
    exact iff_of_false (fun thrown => Ending.noConfusion thrown.2) fun ⟨_, _, same, _⟩ => nomatch same
  | some text =>
    constructor
    · exact fun ⟨skipped, thrown⟩ => ⟨text, skipped, rfl, fromString_thrown_iff.mp thrown⟩
    · rintro ⟨text', skipped, same, malformed⟩
      cases same
      exact ⟨skipped, fromString_thrown_iff.mpr malformed⟩

theorem returns_bDecode : Decoder.Returns (bDecode lib) := by
  refine returns_raw fun data range => ?_
  split
  next => exact Ending.noConfusion
  next => exact fromString_ne_endless _ _ _

/-- Read a set of ranges. -/
def readSet : Decoder (List IPRange) := .distinct {} same (bDecode lib)

/-- The list at the cursor is read up to a malformed range. -/
def MalformedIn (ranges : List IPRange) (b : LlarpBuffer) : Prop :=
  ∃ ranges' b', Decoder.ElementReached (.distinctElement {} same (bDecode lib)) ranges b ranges' b' ∧
    MalformedAt lib b'

theorem returns_readSet : Decoder.Returns (readSet lib) :=
  returns_distinct (returns_bDecode lib) {} same

theorem readSet_thrown_iff {lib : Libraries} {ranges : List IPRange} {b : LlarpBuffer} :
    (readSet lib ranges b).1 = .thrown ↔ MalformedIn lib ranges b := by
  have elements := returns_distinctElement (returns_bDecode lib) {} same
  refine (each_thrown_iff elements.toConsumes).trans ?_
  refine exists_congr fun ranges' => exists_congr fun b' => and_congr_right fun _ => ?_
  exact distinctElement_thrown_iff.trans bDecode_thrown_iff

end IPRange

/-! ### Traffic policies -/

structure ProtocolInfo where
  protocol : UInt8 := 0
  port : Option UInt16 := none
  deriving DecidableEq

namespace ProtocolInfo

/-- The members, of which there are one or two. A port of 65536 passes and becomes 0. -/
def store (vals : List UInt64) (info : ProtocolInfo) : Option ProtocolInfo :=
  match vals with
  | [] => none
  | [protocol] =>
    if protocol.toNat > 255 then none else some { info with protocol := protocol.toUInt8 }
  | protocol :: port :: _ =>
    if protocol.toNat > 255 ∨ port.toNat > 65536 then none
    else some ⟨protocol.toUInt8, some port.toUInt16⟩

def bDecode : Decoder ProtocolInfo := fun info b =>
  Decoder.new [] store (.each (.integer fun n vals => vals ++ [n])) { info with port := none } b

theorem returns_bDecode : Decoder.Returns bDecode := by
  have vals := returns_new
    (returns_each (returns_integer fun n vals => vals ++ [n])) []
    store
  exact ⟨⟨fun info => vals.onward _, fun info => vals.progress _⟩, fun info => vals.ends _⟩

theorem quiet_bDecode : Decoder.Quiet bDecode := fun _ b thrown =>
  quiet_each (quiet_integer _) [] b (new_thrown_iff.mp thrown)

/-- Neither of two protocols is less than the other. No port is port 0. -/
def same (info other : ProtocolInfo) : Bool :=
  info.protocol = other.protocol && info.port.getD 0 = other.port.getD 0

end ProtocolInfo

structure TrafficPolicy where
  ranges : List IPRange := []
  protocols : List ProtocolInfo := []

namespace TrafficPolicy

variable (lib : Libraries)

def readers : List (String × Decoder TrafficPolicy) :=
  [("p", .into protocols (fun protocols policy => { policy with protocols })
      (.distinct {} ProtocolInfo.same ProtocolInfo.bDecode)),
    ("r", .into ranges (fun ranges policy => { policy with ranges }) (IPRange.readSet lib))]

def decodeKey : List UInt8 → Decoder TrafficPolicy :=
  .members (readers lib) .discard

def bDecode : Decoder TrafficPolicy := .dict (decodeKey lib)

theorem returns_decodeKey (key : List UInt8) : Decoder.Returns (decodeKey lib key) := by
  refine returns_members ?_ returns_discard key
  simp only [readers, List.forall_mem_cons]
  exact ⟨returns_into (returns_distinct ProtocolInfo.returns_bDecode _ _) _ _,
    returns_into (IPRange.returns_readSet lib) _ _, nofun⟩

theorem returns_bDecode : Decoder.Returns (bDecode lib) :=
  returns_dict (returns_decodeKey lib)

theorem decodeKey_thrown_iff {lib : Libraries} {key : List UInt8} {policy : TrafficPolicy}
    {b : LlarpBuffer} :
    (decodeKey lib key policy b).1 = .thrown ↔
      startsWith key "r" = true ∧ IPRange.MalformedIn lib policy.ranges b := by
  have letters : Decoder.Letters ["p", "r"] := by decide
  have protocols := quiet_distinct ProtocolInfo.quiet_bDecode {} ProtocolInfo.same
  refine (members_thrown_iff_of_quiet (readers lib)
    [("r", .into ranges (fun ranges policy => { policy with ranges }) (IPRange.readSet lib))]
    letters quiet_discard ?_ ?_).trans ?_
  · exact fun reader => List.mem_cons_of_mem _
  · simp only [readers, List.forall_mem_cons]
    exact ⟨.inr (quiet_into protocols _ _), .inl List.mem_cons_self, nofun⟩
  · simp only [List.mem_singleton, exists_eq_left]
    exact and_congr_right fun _ => IPRange.readSet_thrown_iff

/-- The dictionary at the cursor is decoded up to a malformed range. -/
def MalformedIn (lib : Libraries) (b : LlarpBuffer) : Prop :=
  ∃ key policy b', Decoder.EntryReached (decodeKey lib) {} b key policy b' ∧
    startsWith key "r" = true ∧ IPRange.MalformedIn lib policy.ranges b'

theorem bDecode_thrown_iff {lib : Libraries} {b : LlarpBuffer} :
    (bDecode lib {} b).1 = .thrown ↔ MalformedIn lib b := by
  refine (dict_thrown_iff fun key => (returns_decodeKey lib key).onward).trans ?_
  refine exists_congr fun key => exists_congr fun policy => exists_congr fun b' => ?_
  exact and_congr_right fun _ => decodeKey_thrown_iff

end TrafficPolicy

end Llarp

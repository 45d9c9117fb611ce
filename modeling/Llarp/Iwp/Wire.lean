import Llarp.Crypto.Types

/-!
# The iwp wire format

Every packet of an established session starts with 64 bytes of keyed hash and
nonce. Behind them stand a protocol version, a command byte, the fields of the
command and random padding. The handlers of a session look only at the part
behind the overhead, so a `Packet` here is that part.

`Plaintext` is the meaning of a packet, `createPacket` its bytes, and `parse` is
what the handlers read from arbitrary bytes. What a session writes is read back
unchanged, whatever the padding is.
-/

namespace Llarp.Iwp

open Foundation List

/-- A decrypted packet without its keyed hash and nonce. -/
abbrev Packet := List UInt8

def protoVersion : UInt8 := 0

inductive Command where
  /-- keep alive message -/
  | ping
  /-- begin transmission -/
  | xmit
  /-- fragment data -/
  | data
  /-- acknowledge fragments -/
  | acks
  /-- negative ack -/
  | nack
  /-- multiack -/
  | mack
  /-- close session -/
  | clos
  deriving DecidableEq, Repr

namespace Command

def toByte : Command → UInt8
  | ping => 0
  | xmit => 1
  | data => 2
  | acks => 3
  | nack => 4
  | mack => 5
  | clos => 0xff

/-- The switch over the command byte; other bytes are invalid commands. -/
def ofByte (byte : UInt8) : Option Command :=
  if byte = 0 then some ping
  else if byte = 1 then some xmit
  else if byte = 2 then some data
  else if byte = 3 then some acks
  else if byte = 4 then some nack
  else if byte = 5 then some mack
  else if byte = 0xff then some clos
  else none

@[simp] theorem ofByte_toByte (cmd : Command) : ofByte cmd.toByte = some cmd := by
  cases cmd <;> decide

/-- The padding lengths that `CreatePacket` may choose for a command: between 16
and 31 bytes, except that transmissions and fragments are never padded. -/
def PadLength (cmd : Command) (length : ℕ) : Prop :=
  match cmd with
  | xmit | data => length = 0
  | _ => 16 ≤ length ∧ length < 32

instance decidablePadLength (cmd : Command) (length : ℕ) : Decidable (cmd.PadLength length) := by
  unfold PadLength
  split
  · infer_instance
  · infer_instance
  · infer_instance

end Command

/-- The commands with their fields. -/
inductive Plaintext where
  | ping
  | xmit (size : UInt16) (id : UInt64) (digest : ShortHash) (fragment : List UInt8)
  | data (offset : UInt16) (id : UInt64) (fragment : List UInt8)
  | acks (id : UInt64) (bitmask : UInt8)
  | nack (id : UInt64)
  | mack (ids : List UInt64)
  | clos
  deriving DecidableEq, Repr

/-- The most message ids that one multiack names. -/
def maxACKSInMACK : ℕ := 128

namespace Plaintext

def command : Plaintext → Command
  | ping => .ping
  | xmit .. => .xmit
  | data .. => .data
  | acks .. => .acks
  | nack .. => .nack
  | mack .. => .mack
  | clos => .clos

/-- The bytes of the fields. -/
def fields : Plaintext → List UInt8
  | ping => []
  | xmit size id digest fragment => store16 size ++ store64 id ++ digest.bytes ++ fragment
  | data offset id fragment => store16 offset ++ store64 id ++ fragment
  | acks id bitmask => store64 id ++ [bitmask]
  | nack id => store64 id
  | mack ids => UInt8.ofNat ids.length :: ids.flatMap store64
  | clos => []

/-- The message ids that a packet names. -/
def ids : Plaintext → List UInt64
  | xmit _ id _ _ => [id]
  | data _ id _ => [id]
  | acks id _ => [id]
  | nack id => [id]
  | mack ids => ids
  | ping | clos => []

/-- Multiacks are sent for at most `maxACKSInMACK` messages at once. -/
def WellFormed : Plaintext → Prop
  | mack ids => ids.length ≤ maxACKSInMACK
  | _ => True

/-- The packets of the sending half of a session. -/
def CarriesData : Plaintext → Prop
  | xmit .. | data .. => True
  | _ => False

/-- The packets of the receiving half of a session. -/
def Acknowledges : Plaintext → Prop
  | acks .. | nack .. => True
  | mack ids => ids.length ≤ maxACKSInMACK
  | _ => False

theorem CarriesData.wellFormed {p : Plaintext} (h : p.CarriesData) : p.WellFormed := by
  cases p <;> trivial

theorem Acknowledges.wellFormed {p : Plaintext} (h : p.Acknowledges) : p.WellFormed := by
  cases p <;> trivial

end Plaintext

/-- Version, command, fields, padding. -/
def createPacket (plain : Plaintext) (pad : List UInt8) : Packet :=
  protoVersion :: plain.command.toByte :: plain.fields ++ pad

/-! ### Reading packets

Each reader gets the bytes behind the command byte and makes the size check of
its handler, which drops the packet when the check fails. -/

variable (ids : List UInt64) (body : List UInt8)

def parseXMIT : Option Plaintext :=
  if body.length < 2 + 8 + 32 then none
  else
    some (.xmit (load16 body) (load64 (body.drop 2)) (.copy 32 (body.drop 10)) (body.drop 42))

def parseDATA : Option Plaintext :=
  if body.length < 2 + 8 then none
  else some (.data (load16 body) (load64 (body.drop 2)) (body.drop 10))

def parseACKS : Option Plaintext :=
  if body.length < 9 then none else some (.acks (load64 body) (body.getD 8 0))

def parseNACK : Option Plaintext :=
  if body.length < 8 then none else some (.nack (load64 body))

/-- The `count` ids of a multiack. -/
def loadIds : (count : ℕ) → List UInt8 → List UInt64
  | 0, _ => []
  | count + 1, bytes => load64 bytes :: loadIds count (bytes.drop 8)

def parseMACK : Option Plaintext :=
  match body with
  | [] => none
  | numAcks :: ids =>
    if ids.length < numAcks.toNat * 8 then none else some (.mack (loadIds numAcks.toNat ids))

/-- The dispatch of `HandlePlaintext`. The version byte is not looked at. -/
def parse : Packet → Option Plaintext
  | _ :: byte :: body =>
    match Command.ofByte byte with
    | some .ping => some .ping
    | some .xmit => parseXMIT body
    | some .data => parseDATA body
    | some .acks => parseACKS body
    | some .nack => parseNACK body
    | some .mack => parseMACK body
    | some .clos => some .clos
    | none => none
  | _ => none

theorem loadIds_flatMap_store64 (rest : List UInt8) :
    loadIds ids.length (ids.flatMap store64 ++ rest) = ids := by
  induction ids with
  | nil => rfl
  | cons id ids ih =>
    rw [length_cons, flatMap_cons, append_assoc, loadIds, load64_store64,
      drop_left' (length_store64 id), ih]

theorem length_flatMap_store64 : (ids.flatMap store64).length = ids.length * 8 := by
  induction ids with
  | nil => rfl
  | cons id ids ih =>
    rw [flatMap_cons, length_append, ih, length_store64, length_cons]
    omega

theorem parseXMIT_fields (size : UInt16) (id : UInt64) (digest : ShortHash)
    (fragment : List UInt8) :
    parseXMIT (store16 size ++ store64 id ++ digest.bytes ++ fragment) =
      some (.xmit size id digest fragment) := by
  have hdigest := digest.length_eq
  have long : ¬ (store16 size ++ store64 id ++ digest.bytes ++ fragment).length < 2 + 8 + 32 := by
    simp only [length_append, length_store16, length_store64]
    omega
  have behindAll : (store16 size ++ store64 id ++ digest.bytes ++ fragment).drop 42 = fragment :=
    drop_left' (by simp [hdigest])
  have behindIds : (store16 size ++ store64 id ++ (digest.bytes ++ fragment)).drop 10 =
      digest.bytes ++ fragment := drop_left' (by simp)
  rw [parseXMIT, if_neg long, behindAll, append_assoc, behindIds, append_assoc,
    load16_store16, drop_left' (length_store16 size), load64_store64,
    AlignedBuffer.copy_append]

theorem parseDATA_fields (offset : UInt16) (id : UInt64) (fragment : List UInt8) :
    parseDATA (store16 offset ++ store64 id ++ fragment) = some (.data offset id fragment) := by
  have long : ¬ (store16 offset ++ store64 id ++ fragment).length < 2 + 8 := by
    simp only [length_append, length_store16, length_store64]
    omega
  have behindIds : (store16 offset ++ store64 id ++ fragment).drop 10 = fragment :=
    drop_left' (by simp)
  rw [parseDATA, if_neg long, behindIds, append_assoc, load16_store16,
    drop_left' (length_store16 offset), load64_store64]

theorem parseMACK_fields (pad : List UInt8) (few : ids.length ≤ maxACKSInMACK) :
    parseMACK (UInt8.ofNat ids.length :: ids.flatMap store64 ++ pad) = some (.mack ids) := by
  have count : (UInt8.ofNat ids.length).toNat = ids.length :=
    UInt8.toNat_ofNat_of_lt' (lt_of_le_of_lt few (by decide))
  have long : ¬ (ids.flatMap store64 ++ pad).length < ids.length * 8 := by
    rw [length_append, length_flatMap_store64]
    omega
  rw [cons_append, parseMACK, count, if_neg long, loadIds_flatMap_store64]

/-- What a session sends is what its peer reads. -/
theorem parse_createPacket (plain : Plaintext) (pad : List UInt8) (wf : plain.WellFormed)
    (hpad : plain.command.PadLength pad.length) : parse (createPacket plain pad) = some plain := by
  cases plain with
  | ping => simp [createPacket, parse, Plaintext.command]
  | clos => simp [createPacket, parse, Plaintext.command]
  | nack id =>
    simp [createPacket, parse, Plaintext.command, Plaintext.fields, parseNACK]
  | acks id bitmask =>
    simp [createPacket, parse, Plaintext.command, Plaintext.fields, parseACKS]
    omega
  | data offset id fragment =>
    obtain rfl : pad = [] := length_eq_zero_iff.mp hpad
    simp only [createPacket, parse, Plaintext.command, Plaintext.fields, Command.ofByte_toByte,
      append_nil]
    exact parseDATA_fields offset id fragment
  | xmit size id digest fragment =>
    obtain rfl : pad = [] := length_eq_zero_iff.mp hpad
    simp only [createPacket, parse, Plaintext.command, Plaintext.fields, Command.ofByte_toByte,
      append_nil]
    exact parseXMIT_fields size id digest fragment
  | mack ids =>
    simp only [createPacket, parse, Plaintext.command, Plaintext.fields, Command.ofByte_toByte,
      cons_append]
    exact parseMACK_fields ids pad wf

end Llarp.Iwp

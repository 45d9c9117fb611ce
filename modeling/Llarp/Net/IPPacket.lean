import Llarp.Foundation.OnesComplement
import Llarp.Net.Ranges

/-!
# IP packets

A packet is the bytes that have been received, and its headers are read where they lie. What is
read or written at an offset that is not below the size is outside of the memory of the packet;
some functions check that before and throw an exception. The machine is a little-endian one:
`hostLoad16` and `hostLoad32` read a number as it stands in a field. Addresses are kept as they
stand in memory, in network order, and ports in host order.
-/

namespace Llarp

open Foundation

/-- How a function ends without a result. -/
inductive Fault where
  /-- memory outside of the packet is accessed -/
  | outOfBounds
  /-- an exception is thrown -/
  | rejected
  deriving DecidableEq

abbrev Access := Except Fault

instance decidableEqAccess {α : Type} [DecidableEq α] : DecidableEq (Access α)
  | .ok x, .ok y => decidable_of_iff (x = y) ⟨congrArg _, Except.ok.inj⟩
  | .error x, .error y => decidable_of_iff (x = y) ⟨congrArg _, Except.error.inj⟩
  | .ok _, .error _ => isFalse fun same => by cases same
  | .error _, .ok _ => isFalse fun same => by cases same

structure IPPacket where
  buf : List UInt8
  deriving DecidableEq

abbrev IPv4Addr := AlignedBuffer 4

abbrev IPv6Addr := AlignedBuffer 16

namespace IPPacket

def minSize : ℕ := 20

variable (pkt : IPPacket)

def size : ℕ := pkt.buf.length

/-- A buffer that is too small for a packet makes an empty one. -/
def ofVector (stolen : List UInt8) : IPPacket := if stolen.length < minSize then ⟨[]⟩ else ⟨stolen⟩

/-- A packet of zeros. -/
def ofSize (sz : ℕ) : Access IPPacket :=
  if sz ≠ 0 ∧ sz < minSize then .error .rejected else .ok ⟨List.replicate sz 0⟩

def boundsCheck (startOffset accessSize : ℕ) : Access Unit :=
  if startOffset > pkt.size ∨ accessSize > pkt.size - startOffset then .error .rejected else .ok ()

/-! ### Memory -/

def read (offset count : ℕ) : Access (List UInt8) :=
  if offset + count ≤ pkt.size then .ok (window pkt.buf offset count)
  else .error .outOfBounds

def write (offset : ℕ) (bytes : List UInt8) : Access IPPacket :=
  if offset + bytes.length ≤ pkt.size then .ok ⟨splice pkt.buf offset bytes⟩
  else .error .outOfBounds

def byte (offset : ℕ) : Access UInt8 :=
  match pkt.buf[offset]? with
  | some value => .ok value
  | none => .error .outOfBounds

section Memory

variable {pkt : IPPacket} {offset count : ℕ} {bytes : List UInt8}

theorem read_eq (inside : offset + count ≤ pkt.size) :
    pkt.read offset count = .ok (window pkt.buf offset count) :=
  if_pos inside

theorem write_eq (inside : offset + bytes.length ≤ pkt.size) :
    pkt.write offset bytes = .ok ⟨splice pkt.buf offset bytes⟩ :=
  if_pos inside

theorem ok_bind {α β : Type} (value : α) (rest : α → Access β) :
    (Except.ok value >>= rest) = rest value := rfl

theorem byte_eq (inside : offset < pkt.size) : pkt.byte offset = .ok (pkt.buf.getD offset 0) := by
  rw [byte, List.getElem?_eq_getElem inside, List.getD_eq_getElem _ _ inside]

end Memory

/-! ### Headers -/

/-- `Header()->ihl`, the low half of the first byte. -/
def ihl : Access ℕ := (pkt.byte 0).map fun first => first.toNat % 16

def version : Access ℕ := (pkt.byte 0).map fun first => first.toNat / 16

def isV4 : Access Bool := pkt.version.map fun version => decide (version = 4)

def isV6 : Access Bool := pkt.version.map fun version => decide (version = 6)

def srcv4 : Access IPv4Addr := (pkt.read 12 4).map (.copy 4)

def dstv4 : Access IPv4Addr := (pkt.read 16 4).map (.copy 4)

/-- `ExpandV4` in network order. -/
def expandV4 (addr : IPv4Addr) : IPv6Addr :=
  .copy 16 (List.replicate 10 0 ++ [0xFF, 0xFF] ++ addr.bytes)

def srcv6 : Access IPv6Addr := do
  if ← pkt.isV6 then (pkt.read 8 16).map (.copy 16) else pkt.srcv4.map expandV4

def dstv6 : Access IPv6Addr := do
  if ← pkt.isV6 then (pkt.read 24 16).map (.copy 16) else pkt.dstv4.map expandV4

def dst4to6 : Access IPv6Addr := pkt.dstv4.map expandV4

end IPPacket

namespace IPProtocol

def icmp : UInt8 := 0x01

def tcp : UInt8 := 0x06

def udp : UInt8 := 0x11

def icmp6 : UInt8 := 0x3A

end IPProtocol

namespace IPPacket

variable (pkt : IPPacket)

def protocol : Access UInt8 := do
  if ← pkt.isV4 then pkt.byte 9 else pkt.byte 6

def portAt (offset : ℕ) : Access (Option UInt16) := do
  let protocol ← pkt.byte 9
  if protocol = IPProtocol.tcp ∨ protocol = IPProtocol.udp then
    let ihl ← pkt.ihl
    -- the check is for one byte, the port has two
    pkt.boundsCheck (ihl * 4 + offset) 1
    let bytes ← pkt.read (ihl * 4 + offset) 2
    return some (load16 bytes)
  else return none

def dstPort : Access (Option UInt16) := pkt.portAt 2

def srcPort : Access (Option UInt16) := pkt.portAt 0

def payloadOffset : Access ℕ := do
  let offset ← if ← pkt.isV4 then pkt.ihl.map (· * 4)
    else if ← pkt.isV6 then pure 40
    else pure 0
  pkt.boundsCheck offset 1
  return offset

def icmpType : Access UInt8 := do pkt.byte (← pkt.payloadOffset)

/-! ### Checksums -/

/-- The loop of `ipchksum`. -/
def ipchksumLoop : List UInt8 → UInt32 → UInt32
  | a :: b :: buf, sum => ipchksumLoop buf (sum + (hostLoad16 [a, b]).toUInt32)
  | [a], sum => sum + a.toUInt32
  | [], sum => sum

def ipchksum (buf : List UInt8) (sum : UInt32) : UInt16 :=
  (~~~foldCarries (ipchksumLoop buf sum) &&& (0xFFFF : UInt32)).toUInt16

def add32cs (x : UInt32) : UInt32 := addWords x

def sub32cs (x : UInt32) : UInt32 := addWords (~~~x)

def deltaIPv4Checksum (oldSrcIP oldDstIP newSrcIP newDstIP : IPv4Addr) (oldSum : UInt16) :
    UInt16 :=
  let n (addr : IPv4Addr) : UInt32 := hostLoad32 addr.bytes
  let sum := oldSum.toUInt32 + add32cs (n oldSrcIP) + add32cs (n oldDstIP) +
    sub32cs (n newSrcIP) + sub32cs (n newDstIP)
  (foldCarries sum &&& (0xFFFF : UInt32)).toUInt16

/-- `in6_uint32_ptr`. -/
def in6Uint32 (addr : IPv6Addr) (i : ℕ) : UInt32 := hostLoad32 (addr.bytes.drop (4 * i))

def addn128cs (x : ℕ → UInt32) : UInt32 :=
  add32cs (x 0) + add32cs (x 1) + add32cs (x 2) + add32cs (x 3)

def subn128cs (x : ℕ → UInt32) : UInt32 :=
  sub32cs (x 0) + sub32cs (x 1) + sub32cs (x 2) + sub32cs (x 3)

def deltaIPv6Checksum (oldSrcIP oldDstIP newSrcIP newDstIP : IPv6Addr) (oldSum : UInt16) :
    UInt16 :=
  let sum := oldSum.toUInt32 + addn128cs (in6Uint32 oldSrcIP) + addn128cs (in6Uint32 oldDstIP) +
    subn128cs (in6Uint32 newSrcIP) + subn128cs (in6Uint32 newDstIP)
  (foldCarries sum &&& (0xFFFF : UInt32)).toUInt16

/-- `deltaChecksumIPv4TCP` and `deltaChecksumIPv6TCP`: the field is `chksumoff` bytes behind the
start of the transport header, which is `fragoff` bytes before the payload. -/
def deltaChecksumTCP (delta : UInt16 → UInt16) (pkt : IPPacket) (pld psz fragoff chksumoff : ℕ) :
    Access IPPacket := do
  if fragoff > chksumoff ∨ psz < chksumoff - fragoff + 2 then return pkt
  let check := delta (hostLoad16 (← pkt.read (pld + chksumoff - fragoff) 2))
  pkt.write (pld + chksumoff - fragoff) (hostStore16 (if check = 0xFFFF then 0 else check))

/-- `deltaChecksumIPv4UDP` and `deltaChecksumIPv6UDP`: a checksum of zero is none. -/
def deltaChecksumUDP (delta : UInt16 → UInt16) (pkt : IPPacket) (pld psz fragoff : ℕ) :
    Access IPPacket := do
  if fragoff > 6 ∨ psz < 6 + 2 then return pkt
  let check := hostLoad16 (← pkt.read (pld + 6) 2)
  if check = 0 then return pkt
  pkt.write (pld + 6) (hostStore16 (delta check))

section Members

variable (pkt : IPPacket) (pld psz fragoff : ℕ)

def deltaChecksumIPv4TCP (chksumoff : ℕ) (oSrcIP oDstIP nSrcIP nDstIP : IPv4Addr) :
    Access IPPacket :=
  deltaChecksumTCP (deltaIPv4Checksum oSrcIP oDstIP nSrcIP nDstIP) pkt pld psz fragoff chksumoff

def deltaChecksumIPv6TCP (chksumoff : ℕ) (oSrcIP oDstIP nSrcIP nDstIP : IPv6Addr) :
    Access IPPacket :=
  deltaChecksumTCP (deltaIPv6Checksum oSrcIP oDstIP nSrcIP nDstIP) pkt pld psz fragoff chksumoff

def deltaChecksumIPv4UDP (oSrcIP oDstIP nSrcIP nDstIP : IPv4Addr) : Access IPPacket :=
  deltaChecksumUDP (deltaIPv4Checksum oSrcIP oDstIP nSrcIP nDstIP) pkt pld psz fragoff

def deltaChecksumIPv6UDP (oSrcIP oDstIP nSrcIP nDstIP : IPv6Addr) : Access IPPacket :=
  deltaChecksumUDP (deltaIPv6Checksum oSrcIP oDstIP nSrcIP nDstIP) pkt pld psz fragoff

end Members

/-! ### New addresses -/

/-- The part of `UpdateIPv4Address` for the transport protocol, with 136 for UDP-Lite and 33 for
DCCP. -/
def updateIPv4Transport (ihs : ℕ) (oSrcIP oDstIP nSrcIP nDstIP : IPv4Addr) :
    Access IPPacket := do
  if ihs ≤ pkt.size then
    let psz := pkt.size - ihs
    let fragoff := (load16 (← pkt.read 6 2) &&& 0x1FFF).toNat * 8
    let proto ← pkt.byte 9
    if proto = 6 then
      deltaChecksumIPv4TCP pkt ihs psz fragoff 16 oSrcIP oDstIP nSrcIP nDstIP
    else if proto = 17 ∨ proto = 136 then
      deltaChecksumIPv4UDP pkt ihs psz fragoff oSrcIP oDstIP nSrcIP nDstIP
    else if proto = 33 then
      deltaChecksumIPv4TCP pkt ihs psz fragoff 6 oSrcIP oDstIP nSrcIP nDstIP
    else return pkt
  else return pkt

def updateIPv4Address (nSrcIP nDstIP : IPv4Addr) : Access IPPacket := do
  let oSrcIP ← pkt.srcv4
  let oDstIP ← pkt.dstv4
  let pkt ← pkt.updateIPv4Transport ((← pkt.ihl) * 4) oSrcIP oDstIP nSrcIP nDstIP
  let check ← pkt.read 10 2
  let pkt ← pkt.write 10
    (hostStore16 (deltaIPv4Checksum oSrcIP oDstIP nSrcIP nDstIP (hostLoad16 check)))
  let pkt ← pkt.write 12 nSrcIP.bytes
  pkt.write 16 nDstIP.bytes

/-- `FlowLabel`: the last 20 bits of the first four bytes. -/
def setFlowLabel (label : AlignedBuffer 4) : Access IPPacket := do
  let old ← pkt.read 0 4
  pkt.write 0 ((old.zip label.bytes).zipWith
    (fun (old, new) mask => (mask &&& new) ||| (old &&& ~~~mask)) [0x00, 0x0F, 0xFF, 0xFF])

/-- Set the flow label if desired. -/
def setFlowLabelIf : Option (AlignedBuffer 4) → Access IPPacket
  | some label => pkt.setFlowLabel label
  | none => .ok pkt

/-- What the walk along the extension headers ends with: the protocol, where its payload is and
how long that is, and the fragment offset. -/
structure Transport where
  nextproto : UInt8
  pld : ℕ
  psz : ℕ
  fragoff : ℕ
  deriving DecidableEq

/-- The loop over the extension headers. Without a result the function returns. The loop is gone
through less often than there are bytes. -/
def extensionHeaders (pkt : IPPacket) : (fuel : ℕ) → (nextproto : UInt8) → (pld psz : ℕ) →
    Access (Option Transport)
  | 0, _, _, _ => .ok none
  | fuel + 1, nextproto, pld, psz =>
    if nextproto = 0 ∨ nextproto = 43 ∨ nextproto = 60 then do
      let next ← pkt.byte pld
      let addlen := ((← pkt.byte (pld + 1)).toNat + 1) * 8
      if psz < addlen then return none
      extensionHeaders pkt fuel next (pld + addlen) (psz - addlen)
    else if nextproto = 44 then do
      let next ← pkt.byte pld
      let high ← pkt.byte (pld + 2)
      let low ← pkt.byte (pld + 3)
      let fragoff := high.toNat * 2 ^ 8 + (low &&& 0xFC).toNat
      if psz < 8 then return none
      if fragoff ≠ 0 then return some ⟨next, pld + 8, psz - 8, fragoff⟩
      extensionHeaders pkt fuel next (pld + 8) (psz - 8)
    else .ok (some ⟨nextproto, pld, psz, 0⟩)

/-- The part of `UpdateIPv6Address` for the transport protocol. -/
def updateIPv6Transport (transport : Transport) (oSrcIP oDstIP nSrcIP nDstIP : IPv6Addr) :
    Access IPPacket :=
  let ⟨nextproto, pld, psz, fragoff⟩ := transport
  if nextproto = 6 then
    deltaChecksumIPv6TCP pkt pld psz fragoff 16 oSrcIP oDstIP nSrcIP nDstIP
  else if nextproto = 17 ∨ nextproto = 136 then
    deltaChecksumIPv6UDP pkt pld psz fragoff oSrcIP oDstIP nSrcIP nDstIP
  else if nextproto = 33 then
    deltaChecksumIPv6TCP pkt pld psz fragoff 6 oSrcIP oDstIP nSrcIP nDstIP
  else return pkt

def updateIPv6Address (src dst : IPv6Addr) (flowlabel : Option (AlignedBuffer 4)) :
    Access IPPacket := do
  if pkt.size ≤ 40 then return pkt
  let pkt ← pkt.setFlowLabelIf flowlabel
  let oldSrcIP ← (pkt.read 8 16).map (.copy 16)
  let oldDstIP ← (pkt.read 24 16).map (.copy 16)
  let pkt ← pkt.write 8 src.bytes
  let pkt ← pkt.write 24 dst.bytes
  match ← pkt.extensionHeaders pkt.size (← pkt.byte 6) 40 (pkt.size - 40) with
  | none => return pkt
  | some transport => pkt.updateIPv6Transport transport oldSrcIP oldDstIP src dst

end IPPacket

end Llarp

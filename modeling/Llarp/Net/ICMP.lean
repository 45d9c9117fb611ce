import Llarp.Net.IPPacket

/-!
# Answers to packets

The message that a destination is unreachable, and the reply to an echo request, which the dummy
interface gives for destinations on its link.
-/

namespace Llarp

open Foundation

namespace IPPacket

variable (pkt : IPPacket) (value : UInt8)

def makeICMPUnreachable : Access (Option IPPacket) := do
  if ← pkt.isV4 then
    let icmpHeaderSize := 8
    let ipHeaderSize := (← pkt.ihl) * 4
    let pktSize := (icmpHeaderSize + ipHeaderSize) * 2
    let reply ← ofSize pktSize
    -- version, header length and type of service
    let reply ← reply.write 0 [0x45, 0]
    let reply ← reply.write 10 [0, 0]
    let reply ← reply.write 2 (store16 (UInt16.ofNat pktSize))
    let reply ← reply.write 12 (← pkt.dstv4).bytes
    let reply ← reply.write 16 (← pkt.srcv4).bytes
    let reply ← reply.write 9 [1]
    let reply ← reply.write 8 [← pkt.byte 8]
    let reply ← reply.write 6 [0x40, 0]
    -- type, code, checksum and unused, and a size
    let reply ← reply.write ipHeaderSize [3, 7]
    let reply ← reply.write (ipHeaderSize + 2) [0, 0, 0, 0]
    let reply ← reply.write (ipHeaderSize + 6) (store16 1500)
    let reply ← reply.write (ipHeaderSize + 8) (← pkt.read 0 (ipHeaderSize + icmpHeaderSize))
    let header ← reply.read 0 ipHeaderSize
    let reply ← reply.write 10 (hostStore16 (ipchksum header 0))
    let icmp ← reply.read ipHeaderSize (8 + (ipHeaderSize + icmpHeaderSize))
    let reply ← reply.write (ipHeaderSize + 2) (hostStore16 (ipchksum icmp 0))
    return some reply
  else return none

/-- Assignment through `icmp_type()`. -/
def setIcmpType : Access IPPacket := do
  pkt.write (← pkt.payloadOffset) [value]

/-- Assignment through `icmp_code()`. -/
def setIcmpCode : Access IPPacket := do
  pkt.boundsCheck ((← pkt.payloadOffset) + 1) 1
  pkt.write ((← pkt.payloadOffset) + 1) [value]

/-- Where `icmp_checksum()` points. -/
def icmpChecksum : Access ℕ := do
  let offset ← pkt.payloadOffset
  pkt.boundsCheck (offset + 2) 2
  return offset + 2

/-- `make_icmp_reply`. The length in the pseudo header of IPv6 is copied as four words in place of
four bytes: of each word the low byte is kept, and three words are `stray` ones behind the length in
memory. -/
def makeICMPReply (stray : AlignedBuffer 3) (pkt : IPPacket) : Access IPPacket := do
  let reply ← ofSize pkt.size
  let reply ← reply.write 0 pkt.buf
  if ← pkt.isV4 then
    let reply ← reply.setIcmpType 0
    let reply ← reply.setIcmpCode 0
    let reply ← reply.write 4 (hostStore16 (hostLoad16 (← reply.read 4 2) + 1))
    let reply ← reply.write 8 [(← reply.byte 8) - 1]
    let reply ← reply.write 6 [0, 0]
    let reply ← reply.updateIPv4Address (← pkt.dstv4) (← pkt.srcv4)
    let reply ← reply.write 10 [0, 0]
    let header ← reply.read 0 (min ((← reply.ihl) * 4) pkt.size)
    let reply ← reply.write 10 (hostStore16 (ipchksum header 0))
    let check ← reply.icmpChecksum
    let reply ← reply.write check [0, 0]
    let offset ← reply.payloadOffset
    let icmp ← reply.read offset (reply.size - offset)
    reply.write check (hostStore16 (ipchksum icmp 0))
  else if ← pkt.isV6 then
    let reply ← reply.setIcmpType 129
    let reply ← reply.setIcmpCode 0
    let reply ← reply.updateIPv6Address (← pkt.dstv6) (← pkt.srcv6) none
    let check ← reply.icmpChecksum
    let reply ← reply.write check [0, 0]
    let offset ← reply.payloadOffset
    -- the low byte of a word in network order comes first in memory
    let len := (bigEndian 4 (reply.size - offset)).take 1 ++ stray.bytes
    let psuedoHdr := (← reply.read 8 16) ++ (← reply.read 24 16) ++ len ++ [0, 0, 0, ← reply.byte 6]
    let psuedoCheck := ipchksum psuedoHdr 0
    let icmp ← reply.read offset (reply.size - offset)
    reply.write check (hostStore16 (ipchksum icmp psuedoCheck.toUInt32))
  else return reply

/-- The address of the destination in host order, as ranges have it. -/
def dstaddr : Access (BitVec 128) := do
  return BitVec.ofNat 128 (ofBigEndian (← pkt.dstv6).bytes)

end IPPacket

/-- An interface that answers echo requests for the addresses in its ranges. -/
structure DummyInterface where
  addrs : List IPRange
  gottenPackets : List IPPacket

namespace DummyInterface

def writePacket (netif : DummyInterface) (stray : AlignedBuffer 3) (pkt : IPPacket) :
    Access (Bool × DummyInterface) := do
  let isV4 ← pkt.isV4
  let isV6 ← pkt.isV6
  if !(isV4 || isV6) then return (false, netif)
  if isV4 && (← pkt.protocol) ≠ IPProtocol.icmp then return (true, netif)
  if isV6 && (← pkt.protocol) ≠ IPProtocol.icmp6 then return (true, netif)
  if isV4 && (← pkt.icmpType) ≠ 0x08 then return (true, netif)
  if isV6 && (← pkt.icmpType) ≠ 128 then return (true, netif)
  let dst ← pkt.dstaddr
  if !netif.addrs.any fun range => range.isV4 == isV4 && range.contains dst then
    return (true, netif)
  let reply ← pkt.makeICMPReply stray
  return (true, { netif with gottenPackets := netif.gottenPackets ++ [reply] })

end DummyInterface

end Llarp

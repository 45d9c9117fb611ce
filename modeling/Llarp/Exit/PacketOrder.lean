import Llarp.Foundation.Queues
import Llarp.Net.IPPacket
import Llarp.Service.Protocol

/-!
# The order of numbered packets

An exit hands the packets of a client to its interface, a session hands the packets of an exit to its
writer, and the tun endpoint hands packets of the network to the user. Packets that come between two
flushes wait in a priority queue, with the numbers that the other side gave them. All three queues
have the packet with the greatest number on top.
-/

namespace Llarp.Exit

open Foundation Service

/-- A packet with its number: `UpstreamBuffer`, `DownstreamPkt` and `WritePacket`. -/
structure NumberedPacket where
  counter : UInt64
  pkt : IPPacket
  deriving DecidableEq

abbrev PacketQueue := List NumberedPacket

/-- `std::priority_queue` with the comparison of the counters. Packets with equal ones may leave in
any order. -/
abbrev PacketOrder := Heap fun e : NumberedPacket => OrderDual.toDual e.counter.toNat

/-- `TruncateV6` in network order. -/
def truncateV6 (addr : IPv6Addr) : IPv4Addr := .copy 4 (addr.bytes.drop 12)

/-! ### Exits -/

/-- What an exit knows of itself and of the interface. -/
structure Upstream where
  supportsV6 : Bool
  ifAddr : IPv6Addr
  ip : IPv6Addr
  rewriteSource : Bool

namespace Upstream

def maxUpstreamQueueSize : ℕ := 256

/-- The packet with the address of the client as its source, if the interface takes the version. -/
def readdress (ep : Upstream) (pkt : IPPacket) : Access (Option IPPacket) := do
  if (← pkt.isV6) && ep.supportsV6 then
    let dst ← if ep.rewriteSource then pure ep.ifAddr else pkt.dstv6
    return some (← pkt.updateIPv6Address ep.ip dst none)
  else if (← pkt.isV4) && !ep.supportsV6 then
    let dst ← if ep.rewriteSource then pure (truncateV6 ep.ifAddr) else pkt.dstv4
    return some (← pkt.updateIPv4Address (truncateV6 ep.ip) dst)
  else return none

/-- `Endpoint::QueueOutboundTraffic`. An exception is caught and the packet refused. -/
def queueOutboundTraffic (ep : Upstream) (queue : PacketQueue) (buf : List UInt8) (counter : UInt64)
    (t : ProtocolType) : Access (Bool × PacketQueue) :=
  if t = .quic then .ok (false, queue)
  else if queue.length > maxUpstreamQueueSize then .ok (false, queue)
  else if (IPPacket.ofVector buf).buf = [] then .ok (false, queue)
  else
    match ep.readdress (.ofVector buf) with
    | .ok (some pkt) => .ok (true, ⟨counter, pkt⟩ :: queue)
    | .ok none | .error .rejected => .ok (false, queue)
    | .error .outOfBounds => .error .outOfBounds

/-- The loop of `Endpoint::Flush` over the upstream queue: what the interface gets, and what is left
in the queue. -/
def flush (order : PacketOrder) (queue : PacketQueue) : PacketQueue × PacketQueue :=
  (order.drainAll queue, [])

end Upstream

/-! ### Sessions -/

namespace BaseSession

/-- `BaseSession::HandleTraffic`. Without a writer nothing is queued. -/
def handleTraffic (writePacket : Bool) (queue : PacketQueue) (buf : List UInt8) (counter : UInt64)
    (t : ProtocolType) : Bool × PacketQueue :=
  if t = .quic then (false, queue)
  else if writePacket then
    if (IPPacket.ofVector buf).buf = [] then (false, queue)
    else (true, ⟨counter, .ofVector buf⟩ :: queue)
  else (false, queue)

/-- `BaseSession::FlushDownstream`. -/
def flushDownstream (order : PacketOrder) (writePacket : Bool) (queue : PacketQueue) :
    PacketQueue × PacketQueue :=
  (if writePacket then order.drainAll queue else [], [])

end BaseSession

/-! ### The tun endpoint -/

namespace Tun

def readdress (pkt : IPPacket) (src dst : IPv6Addr) : Access IPPacket := do
  if ← pkt.isV4 then pkt.updateIPv4Address (truncateV6 src) (truncateV6 dst)
  else if ← pkt.isV6 then pkt.updateIPv6Address src dst none
  else return pkt

/-- `TunEndpoint::HandleWriteIPPacket`. -/
def handleWriteIPPacket (queue : PacketQueue) (buf : List UInt8) (src dst : IPv6Addr)
    (seqno : UInt64) : Access (Bool × PacketQueue) :=
  if (IPPacket.ofVector buf).buf = [] then .ok (false, queue)
  else
    match readdress (.ofVector buf) src dst with
    | .ok pkt => .ok (true, ⟨seqno, pkt⟩ :: queue)
    | .error fault => .error fault

/-- The loop of `TunEndpoint::Pump`. -/
def pump (order : PacketOrder) (queue : PacketQueue) : PacketQueue × PacketQueue :=
  (order.drainAll queue, [])

end Tun

/-! ### Batches -/

/-- The calls between two flushes. -/
def queueAll {Call : Type} (enqueue : PacketQueue → Call → Access (Bool × PacketQueue))
    (batch : List Call) : Access PacketQueue :=
  batch.foldlM (fun queue call => (enqueue queue call).map Prod.snd) []

/-- A packet with the number and the protocol type that came with it. -/
structure Traffic where
  buf : List UInt8
  counter : UInt64
  t : ProtocolType

/-- A packet to write to the user. -/
structure Write where
  buf : List UInt8
  src : IPv6Addr
  dst : IPv6Addr
  seqno : UInt64

def Upstream.batch (ep : Upstream) (batch : List Traffic) : Access PacketQueue :=
  queueAll (fun queue call => ep.queueOutboundTraffic queue call.buf call.counter call.t) batch

def BaseSession.batch (writePacket : Bool) (batch : List Traffic) : Access PacketQueue :=
  queueAll (fun queue call => .ok (handleTraffic writePacket queue call.buf call.counter call.t))
    batch

def Tun.batch (batch : List Write) : Access PacketQueue :=
  queueAll (fun queue call => handleWriteIPPacket queue call.buf call.src call.dst call.seqno) batch

/-- Packets are handed over in the order of their numbers. -/
def InOrder (handed : PacketQueue) : Prop :=
  handed.Pairwise fun a b => a.counter.toNat ≤ b.counter.toNat

/-- All queued packets have the same number. -/
def SameNumber (queue : PacketQueue) : Prop := ∀ a ∈ queue, ∀ b ∈ queue, a.counter = b.counter

theorem inOrder_drainAll_iff (order : PacketOrder) (queue : PacketQueue) :
    InOrder (order.drainAll queue) ↔ SameNumber queue := by
  rw [InOrder, order.ascending_drainAll_iff queue]
  simp only [SameNumber, UInt64.toNat_inj]

/-- Without a writer no packet is queued. -/
theorem BaseSession.batch_without_writer (batch : List Traffic) :
    BaseSession.batch false batch = .ok [] := by
  induction batch with
  | nil => rfl
  | cons call batch ih =>
    have refused : handleTraffic false [] call.buf call.counter call.t = (false, []) := by
      rw [handleTraffic, if_neg Bool.false_ne_true, ite_self]
    rw [BaseSession.batch, queueAll, List.foldlM_cons, refused]
    exact ih

/-- What is queued between two flushes leaves in the order of the numbers exactly if all of it has
the same number. -/
theorem flushed_inOrder_iff (order : PacketOrder) :
    (∀ (ep : Upstream) (batch : List Traffic) (queue : PacketQueue), ep.batch batch = .ok queue →
      (InOrder (Upstream.flush order queue).1 ↔ SameNumber queue)) ∧
    (∀ (writePacket : Bool) (batch : List Traffic) (queue : PacketQueue),
      BaseSession.batch writePacket batch = .ok queue →
      (InOrder (BaseSession.flushDownstream order writePacket queue).1 ↔ SameNumber queue)) ∧
    ∀ (batch : List Write) (queue : PacketQueue), Tun.batch batch = .ok queue →
      (InOrder (Tun.pump order queue).1 ↔ SameNumber queue) := by
  refine ⟨fun ep batch queue _ => inOrder_drainAll_iff order queue, ?_,
    fun batch queue _ => inOrder_drainAll_iff order queue⟩
  intro writePacket batch queue queued
  cases writePacket with
  | true => exact inOrder_drainAll_iff order queue
  | false =>
    rw [← Except.ok.inj ((BaseSession.batch_without_writer batch).symm.trans queued)]
    exact iff_of_true .nil nofun

/-- A packet of IPv4 without payload. -/
def examplePacket : List UInt8 :=
  [69, 0, 0, 20, 0, 7, 0, 0, 64, 1, 102, 216, 10, 0, 0, 1, 10, 0, 0, 2]

def exampleAddr (last : UInt8) : IPv6Addr := ⟨List.replicate 12 0 ++ [10, 0, 0, last], rfl⟩

def exampleUpstream : Upstream where
  supportsV6 := false
  ifAddr := exampleAddr 2
  ip := exampleAddr 1
  rewriteSource := false

def exampleOrder : PacketOrder := .oldest _

/-- Two packets, with the numbers 2 and 1. -/
def exampleQueue : PacketQueue := [⟨2, ⟨examplePacket⟩⟩, ⟨1, ⟨examplePacket⟩⟩]

/-- The packet with the number 1 is queued, and then the one with the number 2. They do not leave in
this order. -/
theorem two_packets_reversed :
    (exampleUpstream.batch [⟨examplePacket, 1, .exit⟩, ⟨examplePacket, 2, .exit⟩] =
      .ok exampleQueue ∧ ¬InOrder (Upstream.flush exampleOrder exampleQueue).1) ∧
    (BaseSession.batch true [⟨examplePacket, 1, .exit⟩, ⟨examplePacket, 2, .exit⟩] =
      .ok exampleQueue ∧ ¬InOrder (BaseSession.flushDownstream exampleOrder true exampleQueue).1) ∧
    Tun.batch [⟨examplePacket, exampleAddr 1, exampleAddr 2, 1⟩,
      ⟨examplePacket, exampleAddr 1, exampleAddr 2, 2⟩] = .ok exampleQueue ∧
      ¬InOrder (Tun.pump exampleOrder exampleQueue).1 := by
  have differ : ¬InOrder (exampleOrder.drainAll exampleQueue) := by
    rw [inOrder_drainAll_iff]
    intro same
    have equal : (2 : UInt64) = 1 := same _ (.head _) _ (.tail _ (.head _))
    exact absurd equal (by decide)
  refine ⟨⟨?_, differ⟩, ⟨?_, differ⟩, ?_, differ⟩
  all_goals decide +kernel

end Llarp.Exit

import Llarp.Foundation.Bitset
import Llarp.Iwp.Wire

/-!
# Messages in transit

A link message of at most 8192 bytes travels in fragments of 1024 bytes. The
first fragment rides in the XMIT packet that announces the message, the others in
DATA packets. `OutboundMessage` and `InboundMessage` are the two ends of one
transfer; each keeps a bit for every fragment. Times are milliseconds on the clock
of the event loop.
-/

namespace Llarp.Iwp

open Foundation

def fragmentSize : ℕ := 1024

def maxLinkMsgSize : ℕ := 8192

/-- One bit for each fragment of a message of maximal size. -/
abbrev AckSet := BitVec 8

/-- Time how long we try delivery for. -/
def deliveryTimeout : ℕ := 500

/-- Time how long we wait to receive a message. -/
def receivalTimeout : ℕ := deliveryTimeout * 8 / 5

/-- How long to keep a replay window for. -/
def replayWindow : ℕ := receivalTimeout * 3 / 2

/-- How often to ack received messages. -/
def ackResendInterval : ℕ := deliveryTimeout / 2

/-- How often to retransmit fragments. -/
def txFlushInterval : ℕ := deliveryTimeout / 5 * 4

/-- The fragment bits that cover a message of the given size. -/
def fragmentIndices (size : ℕ) : List ℕ := (offsets fragmentSize size).map (· / fragmentSize)

theorem fragmentIndices_eq_range (size : ℕ) :
    fragmentIndices size = List.range ((size + 1023) / 1024) :=
  map_div_offsets size (by decide)

/-- All fragments of a message are marked when the bit over each byte is set. -/
theorem forall_mem_fragmentIndices {size : ℕ} {p : ℕ → Prop} :
    (∀ k ∈ fragmentIndices size, p k) ↔ ∀ i < size, p (i / 1024) := by
  rw [fragmentIndices_eq_range]
  constructor
  · intro h i hi
    exact h (i / 1024) (List.mem_range.mpr (by omega))
  · intro h k hk
    have := h (k * 1024) (by have := List.mem_range.mp hk; omega)
    rwa [Nat.mul_div_cancel k (by decide)] at this

/-! ### The sending end -/

/-- The bytes of a link message. Every caller of `SendMessageBuffer` builds them
in a buffer of at most `maxLinkMsgSize` bytes. -/
structure Message where
  bytes : List UInt8
  size_le : bytes.length ≤ maxLinkMsgSize
  deriving DecidableEq, Repr

namespace Message

def empty : Message := ⟨[], by decide⟩

def size (msg : Message) : ℕ := msg.bytes.length

end Message

/-- A message that waits for its acknowledgement; `H` is the type of completion handlers. -/
structure OutboundMessage (H : Type) where
  data : Message
  msgID : UInt64
  acks : AckSet
  completed : Option H
  lastFlush : ℕ
  digest : ShortHash
  startedAt : ℕ
  resendPriority : UInt16
  deriving DecidableEq, Repr

namespace OutboundMessage

variable {H : Type}

/-- A new message counts its first fragment as acknowledged: the XMIT packet carries it. -/
def new (msgid : UInt64) (msg : Message) (now : ℕ) (handler : Option H) (priority : UInt16) :
    OutboundMessage H where
  data := msg
  msgID := msgid
  acks := 1
  completed := handler
  lastFlush := now
  digest := .zero 32
  startedAt := now
  resendPriority := priority

/-- The object that the map's index operator creates under a missing key. -/
def blank : OutboundMessage H where
  data := .empty
  msgID := 0
  acks := 0
  completed := none
  lastFlush := 0
  digest := .zero 32
  startedAt := 0
  resendPriority := 0

def xmit (m : OutboundMessage H) : Plaintext :=
  .xmit (UInt16.ofNat m.data.size) m.msgID m.digest (m.data.bytes.take fragmentSize)

variable (m : OutboundMessage H)

def shouldFlush (now : ℕ) : Bool :=
  !m.digest.isZero && decide (txFlushInterval ≤ now - m.lastFlush)

/-- Each ACKS packet replaces what the ones before it acknowledged. -/
def ack (bitmask : UInt8) : OutboundMessage H :=
  { m with acks := bitmask.toBitVec }

/-- The DATA packet with the fragment that starts at `idx`. -/
def dataAt (idx : ℕ) : Plaintext :=
  let fragsz := if idx + fragmentSize < m.data.size then fragmentSize else m.data.size - idx
  .data (UInt16.ofNat idx) m.msgID ((m.data.bytes.drop idx).take fragsz)

/-- The packets that `FlushUnAcked` sends. -/
def unAcked : List Plaintext :=
  ((offsets fragmentSize m.data.size).filter
    fun idx => !m.acks.getLsbD (idx / fragmentSize)).map m.dataAt

/-- The message after `FlushUnAcked`. -/
def flushed (now : ℕ) : OutboundMessage H := { m with lastFlush := now }

def isTransmitted : Option Bool :=
  Bitset.testEach m.acks (fragmentIndices m.data.size)

def isTimedOut (now : ℕ) : Bool :=
  decide (m.startedAt < now ∧ deliveryTimeout < now - m.startedAt)

theorem isTransmitted_eq_some_true {m : OutboundMessage H} :
    m.isTransmitted = some true ↔ ∀ i < m.data.size, m.acks.getLsbD (i / 1024) = true := by
  rw [isTransmitted, Bitset.testEach_eq_some_true, forall_mem_fragmentIndices]

/-- Every DATA packet of a flush carries one fragment behind the first byte of a
stride, and the receiver finds the same bytes at the same place. -/
theorem mem_unAcked {m : OutboundMessage H} {p : Plaintext} (h : p ∈ m.unAcked) :
    ∃ k, k * 1024 < m.data.size ∧ m.acks.getLsbD k = false ∧
      p = .data (UInt16.ofNat (k * 1024)) m.msgID ((m.data.bytes.drop (k * 1024)).take 1024) := by
  obtain ⟨idx, hidx, rfl⟩ := List.mem_map.mp h
  obtain ⟨hoff, hclear⟩ := List.mem_filter.mp hidx
  obtain ⟨⟨k, rfl⟩, hlt⟩ := (mem_offsets (by decide)).mp hoff
  have hsize : m.data.size = m.data.bytes.length := rfl
  simp only [fragmentSize] at hlt hclear ⊢
  refine ⟨k, by omega, ?_, ?_⟩
  · simpa using hclear
  · rw [dataAt, Nat.mul_comm 1024 k]
    split_ifs with full
    · rfl
    · -- the last fragment: both bounds reach behind the end of the message
      simp only [fragmentSize] at full
      congr 1
      rw [List.take_of_length_le, List.take_of_length_le]
      all_goals
        rw [List.length_drop]
        omega

end OutboundMessage

/-! ### The receiving end -/

/-- A message that is being put together from its fragments. -/
structure InboundMessage where
  data : List UInt8
  digset : ShortHash
  msgID : UInt64
  lastACKSent : ℕ
  lastActiveAt : ℕ
  acks : AckSet
  deriving DecidableEq, Repr

namespace InboundMessage

/-- The announced size is taken as it is; the buffer starts with zeros. -/
def new (msgid : UInt64) (sz : UInt16) (h : ShortHash) (now : ℕ) : InboundMessage where
  data := List.replicate sz.toNat 0
  digset := h
  msgID := msgid
  lastACKSent := 0
  lastActiveAt := now
  acks := 0

variable (m : InboundMessage)

/-- Copy a fragment into place. A fragment that reaches behind the end is ignored;
`none` is the exception of the bit set. -/
def handleData (idx : UInt16) (buf : List UInt8) (now : ℕ) : Option InboundMessage :=
  if m.data.length < idx.toNat + buf.length then some m
  else
    (Bitset.set m.acks (idx.toNat / fragmentSize)).map fun acks =>
      { m with data := splice m.data idx.toNat buf, acks := acks, lastActiveAt := now }

def acksPacket : Plaintext := .acks m.msgID (UInt8.ofBitVec m.acks)

def isCompleted : Option Bool :=
  Bitset.testEach m.acks (fragmentIndices m.data.length)

def shouldSendACKS (now : ℕ) : Bool :=
  decide (m.lastACKSent + ackResendInterval < now)

/-- The receiving end uses the sender's timeout. -/
def isTimedOut (now : ℕ) : Bool :=
  decide (m.lastActiveAt < now ∧ deliveryTimeout < now - m.lastActiveAt)

/-- The check that the hasher makes. -/
def verify (shorthash : List UInt8 → ShortHash) (m : InboundMessage) : Bool :=
  shorthash m.data = m.digset

variable {m m' : InboundMessage} {idx : UInt16} {buf : List UInt8} {now : ℕ}

theorem isCompleted_eq_some_true :
    m.isCompleted = some true ↔ ∀ i < m.data.length, m.acks.getLsbD (i / 1024) = true := by
  rw [isCompleted, Bitset.testEach_eq_some_true, forall_mem_fragmentIndices]

/-- The completion test throws only for an oversized message with all eight bits set. -/
theorem isCompleted_isSome :
    m.isCompleted.isSome ↔ m.data.length ≤ maxLinkMsgSize ∨ ∃ k < 8, m.acks.getLsbD k = false := by
  rw [isCompleted, fragmentIndices_eq_range, Bitset.testEach_range_isSome]
  refine or_congr_left ?_
  simp only [maxLinkMsgSize]
  omega

/-- What accepting or ignoring a fragment does to an entry. -/
theorem handleData_cases (h : m.handleData idx buf now = some m') :
    (m.data.length < idx.toNat + buf.length ∧ m' = m) ∨
    (idx.toNat + buf.length ≤ m.data.length ∧ idx.toNat < maxLinkMsgSize ∧
      m'.data = splice m.data idx.toNat buf ∧ m'.digset = m.digset ∧ m'.msgID = m.msgID ∧
      m'.lastACKSent = m.lastACKSent ∧ m'.lastActiveAt = now ∧
      ∀ j, m'.acks.getLsbD j = (m.acks.getLsbD j || decide (idx.toNat / 1024 = j))) := by
  unfold handleData at h
  split_ifs at h with outside
  · exact Or.inl ⟨outside, (Option.some.inj h).symm⟩
  · obtain ⟨acks, hset, rfl⟩ := Option.map_eq_some_iff.mp h
    have inside : idx.toNat / 1024 < 8 := Bitset.set_isSome.mp (Option.isSome_of_eq_some hset)
    refine Or.inr ⟨by omega, ?_, rfl, rfl, rfl, rfl, rfl, fun j => Bitset.getLsbD_of_set hset⟩
    simp only [maxLinkMsgSize]
    omega

/-- A fragment is handled without an exception exactly when it is ignored or
starts below the maximal message size. -/
theorem handleData_isSome :
    (m.handleData idx buf now).isSome ↔
      (idx.toNat + buf.length ≤ m.data.length → idx.toNat < maxLinkMsgSize) := by
  unfold handleData
  split_ifs with outside
  · simp only [Option.isSome_some, true_iff]
    omega
  · rw [Option.isSome_map, Bitset.set_isSome]
    simp only [fragmentSize, maxLinkMsgSize]
    omega

section

variable (h : m.handleData idx buf now = some m')

include h

theorem msgID_handleData : m'.msgID = m.msgID := by
  rcases handleData_cases h with ⟨-, rfl⟩ | ⟨-, -, -, -, same, -⟩
  · rfl
  · exact same

theorem digset_handleData : m'.digset = m.digset := by
  rcases handleData_cases h with ⟨-, rfl⟩ | ⟨-, -, -, same, -⟩
  · rfl
  · exact same

theorem length_handleData :
    m'.data.length = m.data.length := by
  rcases handleData_cases h with ⟨-, rfl⟩ | ⟨fits, -, hdata, -⟩
  · rfl
  · rw [hdata, length_splice fits]

end

end InboundMessage

end Llarp.Iwp

import Llarp.Foundation.Maps
import Llarp.Iwp.MessageBuffer

/-!
# The sending half of a session

The maps of a session that concern messages to the peer, and the functions that
change them. As in the receiving half, what is handed to the rest of the program
is part of the state: packets, the copies given to the hasher, and the calls of
completion handlers.
-/

namespace Llarp.Iwp

open Foundation

/-- The longest queue of unacknowledged messages. -/
def maxSendQueueSize : ℕ := 1024 * 16

inductive DeliveryStatus where
  | success
  | dropped
  deriving DecidableEq, Repr

/-- One call of a completion handler, with the message it was registered for. A
message that was refused never got an id. -/
structure Outcome (H : Type) where
  handler : H
  status : DeliveryStatus
  id : Option UInt64
  message : Message
  deriving DecidableEq, Repr

/-- The counters of a session that its sending half keeps. -/
structure TXStats where
  totalAckedTX : UInt64
  totalDroppedTX : UInt64
  totalInFlightTX : UInt64
  deriving DecidableEq, Repr

structure Transmitter (H : Type) where
  txID : UInt64
  txMsgs : Std.ExtTreeMap UInt64 (OutboundMessage H)
  toHash : Std.ExtTreeSet UInt64
  stats : TXStats
  /-- copies of messages that wait for their digest -/
  hashing : List (OutboundMessage H)
  outcomes : List (Outcome H)
  sent : List Plaintext

namespace OutboundMessage

variable {H : Type}

/-- The call of the completion handler when the message under `id` is done, if it has one. -/
def outcome (m : OutboundMessage H) (id : UInt64) (status : DeliveryStatus) : List (Outcome H) :=
  (m.completed.map fun handler => ⟨handler, status, some id, m.data⟩).toList

/-- The order of the retransmission queue, whose top comes first: higher numbers of
`resendPriority` last, and among equals the newest message first. -/
def ResendsBefore (m m' : OutboundMessage H) : Prop :=
  m.resendPriority < m'.resendPriority ∨
    m.resendPriority = m'.resendPriority ∧ m'.msgID ≤ m.msgID

instance (m m' : OutboundMessage H) : Decidable (m.ResendsBefore m') :=
  inferInstanceAs (Decidable (_ ∨ _))

end OutboundMessage

namespace Transmitter

variable {H : Type}

def empty : Transmitter H where
  txID := 0
  txMsgs := ∅
  toHash := ∅
  stats := ⟨0, 0, 0⟩
  hashing := []
  outcomes := []
  sent := []

/-! ### The functions of the session -/

variable (t : Transmitter H) (txid : UInt64) (now : ℕ)

/-- Accept a message under the next id, or refuse it when the queue is full. -/
def sendMessageBuffer (buf : Message) (completed : Option H) (priority : UInt16) :
    Transmitter H × Bool :=
  if maxSendQueueSize ≤ t.txMsgs.size then
    ({ t with outcomes := t.outcomes ++
        (completed.map fun handler => ⟨handler, .dropped, none, buf⟩).toList }, false)
  else
    ({ t with
      txID := t.txID + 1
      txMsgs := t.txMsgs.insertIfNew t.txID (.new t.txID buf now completed priority)
      toHash := t.toHash.insert t.txID }, true)

/-- Copy the messages that have no digest yet to the hasher. The map is read with
its index operator, which creates an entry for a message that is gone. -/
def triggerHashGen : Transmitter H :=
  let txMsgs := touchAll t.txMsgs .blank t.toHash.toList
  { t with
    txMsgs := txMsgs
    hashing := t.hashing ++ t.toHash.toList.map fun msgid => txMsgs[msgid]?.getD .blank
    toHash := ∅ }

/-- The digest of a message is there. The index operator creates an entry here as well. -/
def handleGeneratedHash (m : OutboundMessage H) : Transmitter H :=
  let msg := { t.txMsgs[m.msgID]?.getD .blank with digest := m.digest }
  let large := fragmentSize < msg.data.size
  { t with
    txMsgs := t.txMsgs.insert m.msgID (if large then msg.flushed now else msg)
    stats := { t.stats with totalInFlightTX := t.stats.totalInFlightTX + 1 }
    sent := t.sent ++ msg.xmit :: if large then msg.unAcked else [] }

/-- The hasher is done with one of its copies. -/
def recvHashed (shorthash : List UInt8 → ShortHash) (t : Transmitter H) (now : ℕ) (job : ℕ) :
    Transmitter H :=
  match t.hashing[job]? with
  | none => t
  | some m =>
    { t with hashing := t.hashing.eraseIdx job }.handleGeneratedHash now
      { m with digest := shorthash m.data.bytes }

/-- The sending part of `Pump`: flush what was not acknowledged for a while. -/
def pump : Transmitter H :=
  let toResend := ((t.txMsgs.toList.map Prod.snd).filter (·.shouldFlush now)).insertionSort
    OutboundMessage.ResendsBefore
  { t with
    txMsgs := t.txMsgs.map fun _ m => if m.shouldFlush now then m.flushed now else m
    sent := t.sent ++ toResend.flatMap (·.unAcked) }

/-- Remove a message and tell its handler. -/
@[simps] def complete (m : OutboundMessage H) : Transmitter H :=
  { t with
    txMsgs := t.txMsgs.erase txid
    outcomes := t.outcomes ++ m.outcome txid .success }

def handleACKS (txid : UInt64) (bitmask : UInt8) : Transmitter H :=
  match t.txMsgs[txid]? with
  | none => t
  | some m =>
    let acked := m.ack bitmask
    if acked.isTransmitted = some true then t.complete txid acked
    else
      { t with
        txMsgs := t.txMsgs.insert txid (acked.flushed now)
        sent := t.sent ++ acked.unAcked }

/-- One id of a multiack. -/
def handleAcked : Transmitter H :=
  match t.txMsgs[txid]? with
  | none => t
  | some m =>
    { t with stats := { t.stats with
        totalAckedTX := t.stats.totalAckedTX + 1
        totalInFlightTX := t.stats.totalInFlightTX - 1 } }.complete txid m

def handleMACK (acked : List UInt64) : Transmitter H :=
  acked.foldl handleAcked t

def handleNACK : Transmitter H :=
  match t.txMsgs[txid]? with
  | none => t
  | some m => { t with sent := t.sent ++ [m.xmit] }

/-- The part of `Tick` that concerns sent messages: remove those that timed out and
inform the waiters. -/
def tick : Transmitter H :=
  let timedOut := t.txMsgs.toList.filter fun e => e.2.isTimedOut now
  { t with
    txMsgs := t.txMsgs.filter fun _ m => !m.isTimedOut now
    stats := { t.stats with
      totalDroppedTX := t.stats.totalDroppedTX + UInt64.ofNat timedOut.length
      totalInFlightTX := t.stats.totalInFlightTX - UInt64.ofNat timedOut.length }
    outcomes := t.outcomes ++ timedOut.flatMap fun e => e.2.outcome e.1 .dropped }

/-- What the sending half does with a decrypted packet. -/
def handle : Plaintext → Transmitter H
  | .acks txid bitmask => t.handleACKS now txid bitmask
  | .nack txid => t.handleNACK txid
  | .mack acked => t.handleMACK acked
  | _ => t

/-! ### The sending half sends announcements and fragments -/

/-- Every packet that was sent announces a message or carries a fragment. -/
def SendsData : Prop := ∀ p ∈ t.sent, p.CarriesData

variable {t : Transmitter H} {now : ℕ}

theorem handle_of_carriesData {p : Plaintext} (data : p.CarriesData) : t.handle now p = t := by
  cases p with
  | xmit | data => rfl
  | _ => cases data

theorem carriesData_of_mem_unAcked {m : OutboundMessage H} {p : Plaintext} (h : p ∈ m.unAcked) :
    p.CarriesData := by
  obtain ⟨k, -, -, rfl⟩ := OutboundMessage.mem_unAcked h
  trivial

theorem SendsData.append (sends : t.SendsData) {packets : List Plaintext}
    (new : ∀ p ∈ packets, p.CarriesData) : ∀ p ∈ t.sent ++ packets, p.CarriesData := by
  intro p hp
  rcases List.mem_append.mp hp with old | fresh
  · exact sends p old
  · exact new p fresh

theorem SendsData.sendMessageBuffer (sends : t.SendsData) (buf : Message) (completed : Option H)
    (priority : UInt16) : (t.sendMessageBuffer now buf completed priority).1.SendsData := by
  unfold Transmitter.sendMessageBuffer
  split_ifs
  · exact sends
  · exact sends

theorem SendsData.recvHashed (sends : t.SendsData) (shorthash : List UInt8 → ShortHash) (job : ℕ) :
    (t.recvHashed shorthash now job).SendsData := by
  unfold Transmitter.recvHashed
  cases t.hashing[job]? with
  | none => exact sends
  | some m =>
    refine sends.append fun p hp => ?_
    rcases List.mem_cons.mp hp with rfl | flushed
    · trivial
    · split_ifs at flushed
      · exact carriesData_of_mem_unAcked flushed
      · cases flushed

theorem SendsData.pump (sends : t.SendsData) : (t.pump now).SendsData := by
  refine sends.append fun p hp => ?_
  obtain ⟨m, -, flushed⟩ := List.mem_flatMap.mp hp
  exact carriesData_of_mem_unAcked flushed

theorem sent_handleMACK (acked : List UInt64) : (t.handleMACK acked).sent = t.sent := by
  induction acked generalizing t with
  | nil => rfl
  | cons txid acked ih =>
    refine ih.trans ?_
    unfold handleAcked
    cases t.txMsgs[txid]? with
    | none => rfl
    | some m => rfl

theorem SendsData.handle (sends : t.SendsData) (p : Plaintext) : (t.handle now p).SendsData := by
  cases p with
  | acks txid bitmask =>
    change (t.handleACKS now txid bitmask).SendsData
    unfold Transmitter.handleACKS
    cases t.txMsgs[txid]? with
    | none => exact sends
    | some m =>
      dsimp only
      split_ifs
      · exact sends
      · exact sends.append fun p hp => carriesData_of_mem_unAcked hp
  | nack txid =>
    change (t.handleNACK txid).SendsData
    unfold Transmitter.handleNACK
    cases t.txMsgs[txid]? with
    | none => exact sends
    | some m =>
      refine sends.append fun p hp => ?_
      rw [List.mem_singleton.mp hp]
      trivial
  | mack acked =>
    rw [SendsData, Transmitter.handle, sent_handleMACK]
    exact sends
  | _ => exact sends

end Transmitter

end Llarp.Iwp

import Llarp.Foundation.Maps
import Llarp.Iwp.MessageBuffer

/-!
# The receiving half of a session

The maps of a session that concern messages from the peer, and the functions
that change them. What a function hands to the rest of the program is part of
the state as well: the packets given to `EncryptAndSend`, the copies given to the
hasher whose verdict is still outstanding, and the messages given to
`HandleMessage`.
-/

namespace Llarp.Iwp

open Foundation Option

/-- One call of `HandleMessage`, with the entry whose bytes it got. -/
structure Delivery where
  message : InboundMessage
  time : ℕ
  deriving DecidableEq, Repr

structure Receiver where
  rxMsgs : Std.ExtTreeMap UInt64 InboundMessage
  /-- maps rxid to time received -/
  replayFilter : Std.ExtTreeMap UInt64 ℕ
  /-- received messages to send in the next round of multiacks, smallest id first -/
  sendMACKs : List UInt64
  pendingHash : Std.ExtTreeSet UInt64
  /-- copies of entries that wait for the verdict of the hasher -/
  verifying : List InboundMessage
  delivered : List Delivery
  sent : List Plaintext

namespace Receiver

def empty : Receiver where
  rxMsgs := ∅
  replayFilter := ∅
  sendMACKs := []
  pendingHash := ∅
  verifying := []
  delivered := []
  sent := []

/-! ### The functions of the session -/

variable {p : Plaintext} (r : Receiver) (rxid : UInt64) (m : InboundMessage) (now : ℕ)

@[simps] def send (p : Plaintext) : Receiver := { r with sent := r.sent ++ [p] }

/-- Push onto the priority queue of multiacks. -/
@[simps] def queueMACK : Receiver :=
  { r with sendMACKs := r.sendMACKs.orderedInsert (· ≤ ·) rxid }

@[simps] def store : Receiver :=
  { r with rxMsgs := r.rxMsgs.insert rxid m }

/-- Give a copy of the entry to the hasher. -/
@[simps] def queueVerify : Receiver :=
  { r with pendingHash := r.pendingHash.insert rxid, verifying := r.verifying ++ [m] }

def maybeQueueVerify : Option Receiver :=
  m.isCompleted.map fun done => if done then r.queueVerify rxid m else r

def handleXMIT (sz : UInt16) (rxid : UInt64) (h : ShortHash) (fragment : List UInt8) :
    Option Receiver :=
  -- check for replay
  if rxid ∈ r.replayFilter then some (r.queueMACK rxid)
  else
    match r.rxMsgs[rxid]? with
    | some _ => some r
    | none =>
      let announced := InboundMessage.new rxid sz h now
      if fragment.length = min sz.toNat fragmentSize then
        (announced.handleData 0 fragment now).bind fun m => (r.store rxid m).maybeQueueVerify rxid m
      else some (r.store rxid announced)

def handleDATA (idx : UInt16) (rxid : UInt64) (fragment : List UInt8) : Option Receiver :=
  match r.rxMsgs[rxid]? with
  | none =>
    if rxid ∈ r.replayFilter then some (r.queueMACK rxid)
    else some (r.send (.nack rxid))
  | some m =>
    (m.handleData idx fragment now).bind fun m => (r.store rxid m).maybeQueueVerify rxid m

/-- Enter a message into the replay filter and give it to `HandleMessage`. -/
@[simps] def deliver (msg : InboundMessage) : Receiver :=
  { r with
    replayFilter := r.replayFilter.insert msg.msgID now
    delivered := r.delivered ++ [⟨msg, now⟩] }

/-- Deliver a message unless its id is in the replay filter, and forget its entry. -/
def handleRecvMsgCompleted (msg : InboundMessage) : Receiver :=
  let r' :=
    if msg.msgID ∈ r.replayFilter then r
    else (r.deliver now msg).queueMACK msg.msgID
  { r' with rxMsgs := r'.rxMsgs.erase msg.msgID }

def verifiedMessage (msgid : UInt64) : Receiver :=
  let r' :=
    match r.rxMsgs[msgid]? with
    | some m => r.handleRecvMsgCompleted now m
    | none => r
  { r' with pendingHash := r'.pendingHash.erase msgid }

@[simps] def dropMessage (msgid : UInt64) : Receiver :=
  { r with rxMsgs := r.rxMsgs.erase msgid, pendingHash := r.pendingHash.erase msgid }

/-- The ids of successive multiacks. -/
def mackIds (ids : List UInt64) : List (List UInt64) :=
  (offsets maxACKSInMACK ids.length).map fun i => (ids.drop i).take maxACKSInMACK

@[simps] def sendMACK : Receiver :=
  { r with sendMACKs := [], sent := r.sent ++ (mackIds r.sendMACKs).map Plaintext.mack }

/-- The part of `Pump` that acknowledges fragments, in the order of the message ids. -/
def pump : Receiver :=
  { r with
    rxMsgs := r.rxMsgs.map fun _ m =>
      if m.shouldSendACKS now then { m with lastACKSent := now } else m
    sent := r.sent ++
      ((r.rxMsgs.toList.filter fun e => e.2.shouldSendACKS now).map fun e => e.2.acksPacket) }

/-- The part of `Tick` that concerns received messages. An entry that timed out is
put into the replay filter, where an earlier time for the same id wins. -/
def tick : Receiver :=
  let timedOut := r.rxMsgs.filter fun _ m => m.isTimedOut now
  let filled := (timedOut.map fun _ _ => now) ∪ r.replayFilter
  { r with
    rxMsgs := r.rxMsgs.filter fun _ m => !m.isTimedOut now
    -- decay replay window
    replayFilter := filled.filter fun _ time => decide (now < time + replayWindow) }

/-- What the receiving half does with a decrypted packet. -/
def handle : Plaintext → Option Receiver
  | .xmit sz rxid h fragment => r.handleXMIT now sz rxid h fragment
  | .data idx rxid fragment => r.handleDATA now idx rxid fragment
  | _ => some r

/-- What the receiving half does with the bytes of a decrypted packet. -/
def receive (data : Packet) : Option Receiver :=
  match parse data with
  | some plain => r.handle now plain
  | none => some r

/-- The verdict of the hasher on the copy `m`. -/
def verdict (shorthash : List UInt8 → ShortHash) (r : Receiver) (now : ℕ) (m : InboundMessage) :
    Receiver :=
  if m.verify shorthash then r.verifiedMessage now m.msgID else r.dropMessage m.msgID

/-! ### What each function does -/

variable {r r' : Receiver} {now : ℕ} {rxid k : UInt64} {m e : InboundMessage}
  {sz idx : UInt16} {h : ShortHash} {fragment : List UInt8}

/-- The entry of `rxid` was replaced by `m`, and `m` was given to the hasher if it is complete. -/
inductive Accepted (r : Receiver) (rxid : UInt64) (m : InboundMessage) : Receiver → Prop
  | stored : Accepted r rxid m (r.store rxid m)
  | queued (complete : m.isCompleted = some true) :
      Accepted r rxid m ((r.store rxid m).queueVerify rxid m)

namespace Accepted

theorem rxMsgs_eq (h : Accepted r rxid m r') : r'.rxMsgs = r.rxMsgs.insert rxid m := by
  cases h <;> rfl

theorem replayFilter_eq (h : Accepted r rxid m r') : r'.replayFilter = r.replayFilter := by
  cases h <;> rfl

theorem delivered_eq (h : Accepted r rxid m r') : r'.delivered = r.delivered := by
  cases h <;> rfl

theorem sendMACKs_eq (h : Accepted r rxid m r') : r'.sendMACKs = r.sendMACKs := by
  cases h <;> rfl

theorem sent_eq (h : Accepted r rxid m r') : r'.sent = r.sent := by
  cases h <;> rfl

theorem mem_verifying (h : Accepted r rxid m r') {q : InboundMessage} (hq : q ∈ r'.verifying) :
    q ∈ r.verifying ∨ (q = m ∧ m.isCompleted = some true) := by
  cases h with
  | stored => exact Or.inl hq
  | queued complete =>
    rw [queueVerify_verifying, List.mem_append, List.mem_singleton] at hq
    exact hq.imp id fun same => ⟨same, complete⟩

end Accepted

theorem accepted_of_maybeQueueVerify
    (hr : (r.store rxid m).maybeQueueVerify rxid m = some r') : Accepted r rxid m r' := by
  obtain ⟨done, hdone, rfl⟩ := map_eq_some_iff.mp hr
  cases done with
  | true => exact .queued hdone
  | false => exact .stored

/-- An XMIT packet is a replay, a duplicate, or the announcement of a new entry. -/
theorem handleXMIT_cases (hr : r.handleXMIT now sz rxid h fragment = some r') :
    (rxid ∈ r.replayFilter ∧ r' = r.queueMACK rxid) ∨
    (rxid ∉ r.replayFilter ∧ rxid ∈ r.rxMsgs ∧ r' = r) ∨
    (rxid ∉ r.replayFilter ∧ r.rxMsgs[rxid]? = none ∧ ∃ m, Accepted r rxid m r' ∧
      ((m = .new rxid sz h now ∧ r' = r.store rxid m) ∨
        fragment.length = min sz.toNat fragmentSize ∧
          (InboundMessage.new rxid sz h now).handleData 0 fragment now = some m)) := by
  unfold handleXMIT at hr
  by_cases replay : rxid ∈ r.replayFilter
  · rw [if_pos replay] at hr
    exact Or.inl ⟨replay, (some.inj hr).symm⟩
  · rw [if_neg replay] at hr
    refine Or.inr ?_
    cases found : r.rxMsgs[rxid]? with
    | some e =>
      rw [found] at hr
      exact Or.inl ⟨replay, mem_iff_exists_getElem?.mpr ⟨e, found⟩, (some.inj hr).symm⟩
    | none =>
      rw [found] at hr
      refine Or.inr ⟨replay, rfl, ?_⟩
      split_ifs at hr with whole
      · obtain ⟨m, hm, hr⟩ := bind_eq_some_iff.mp hr
        exact ⟨m, accepted_of_maybeQueueVerify hr, Or.inr ⟨whole, hm⟩⟩
      · cases hr
        exact ⟨_, .stored, Or.inl ⟨rfl, rfl⟩⟩

/-- A DATA packet is a replay, unknown, or a fragment for an entry. -/
theorem handleDATA_cases (hr : r.handleDATA now idx rxid fragment = some r') :
    (r.rxMsgs[rxid]? = none ∧ rxid ∈ r.replayFilter ∧ r' = r.queueMACK rxid) ∨
    (r.rxMsgs[rxid]? = none ∧ rxid ∉ r.replayFilter ∧ r' = r.send (.nack rxid)) ∨
    (∃ e m, r.rxMsgs[rxid]? = some e ∧ e.handleData idx fragment now = some m ∧
      Accepted r rxid m r') := by
  unfold handleDATA at hr
  cases found : r.rxMsgs[rxid]? with
  | none =>
    rw [found] at hr
    split_ifs at hr with replay
    · exact Or.inl ⟨rfl, replay, (some.inj hr).symm⟩
    · exact Or.inr (Or.inl ⟨rfl, replay, (some.inj hr).symm⟩)
  | some e =>
    rw [found] at hr
    obtain ⟨m, hm, hr⟩ := bind_eq_some_iff.mp hr
    exact Or.inr (Or.inr ⟨e, m, rfl, hm, accepted_of_maybeQueueVerify hr⟩)

theorem getElem?_pump_rxMsgs :
    (r.pump now).rxMsgs[k]? = r.rxMsgs[k]?.map fun m =>
      if m.shouldSendACKS now then { m with lastACKSent := now } else m := by
  simp [pump]

theorem getElem?_tick_rxMsgs :
    (r.tick now).rxMsgs[k]? = r.rxMsgs[k]?.filter fun m => !m.isTimedOut now := by
  simp [tick]

/-- After a tick the filter holds the ids that were in it or timed out, as far as
they are not older than the window. -/
theorem getElem?_tick_replayFilter {time : ℕ} :
    (r.tick now).replayFilter[k]? = some time ↔
      now < time + replayWindow ∧
        (r.replayFilter[k]? = some time ∨
          r.replayFilter[k]? = none ∧ time = now ∧
            ∃ e, r.rxMsgs[k]? = some e ∧ e.isTimedOut now = true) := by
  simp only [tick, Std.ExtTreeMap.getElem?_filter', filter_eq_some_iff,
    Std.ExtTreeMap.getElem?_union, or_eq_some_iff, Std.ExtTreeMap.getElem?_map,
    map_eq_some_iff, decide_eq_true_eq]
  grind

/-! A verdict for an id without an entry only clears the pending mark. For an entry
it depends on the replay filter whether the message is delivered or only forgotten. -/

theorem verifiedMessage_of_none (absent : r.rxMsgs[rxid]? = none) :
    r.verifiedMessage now rxid = { r with pendingHash := r.pendingHash.erase rxid } := by
  simp [verifiedMessage, absent]

theorem verifiedMessage_of_mem (found : r.rxMsgs[rxid]? = some m) (same : m.msgID = rxid)
    (replay : rxid ∈ r.replayFilter) :
    r.verifiedMessage now rxid = r.dropMessage rxid := by
  subst same
  simp [verifiedMessage, found, handleRecvMsgCompleted, replay, dropMessage]

theorem verifiedMessage_of_not_mem (found : r.rxMsgs[rxid]? = some m) (same : m.msgID = rxid)
    (new : rxid ∉ r.replayFilter) :
    r.verifiedMessage now rxid = ((r.deliver now m).queueMACK rxid).dropMessage rxid := by
  subst same
  simp [verifiedMessage, found, handleRecvMsgCompleted, new, dropMessage]

/-! ### Entries are stored under their own id -/

/-- Every entry carries the id under which it is stored. -/
def KeyedById (r : Receiver) : Prop := ∀ (k : UInt64) e, r.rxMsgs[k]? = some e → e.msgID = k

theorem keyedById_empty : KeyedById empty := by
  intro k e found
  simp [empty] at found

theorem KeyedById.insert (keyed : r.KeyedById) (same : m.msgID = rxid)
    (hr : r'.rxMsgs = r.rxMsgs.insert rxid m) : r'.KeyedById := by
  intro k e found
  rw [hr] at found
  rcases getElem?_insert_eq_some.mp found with ⟨rfl, rfl⟩ | ⟨-, old⟩
  · exact same
  · exact keyed k e old

/-- Forgetting entries keeps the others under their ids. -/
theorem KeyedById.of_subset (keyed : r.KeyedById)
    (sub : ∀ (k : UInt64) e, r'.rxMsgs[k]? = some e → r.rxMsgs[k]? = some e) : r'.KeyedById :=
  fun k e found => keyed k e (sub k e found)

theorem getElem?_of_dropMessage (found : (r.dropMessage rxid).rxMsgs[k]? = some e) :
    r.rxMsgs[k]? = some e :=
  (getElem?_erase_eq_some.mp found).2

theorem getElem?_of_verifiedMessage (found : (r.verifiedMessage now rxid).rxMsgs[k]? = some e) :
    r.rxMsgs[k]? = some e := by
  cases stored : r.rxMsgs[rxid]? with
  | none =>
    rw [verifiedMessage_of_none stored] at found
    exact found
  | some m =>
    simp only [verifiedMessage, stored, handleRecvMsgCompleted] at found
    split_ifs at found
    · exact (getElem?_erase_eq_some.mp found).2
    · exact (getElem?_erase_eq_some.mp found).2

theorem getElem?_of_tick (found : (r.tick now).rxMsgs[k]? = some e) : r.rxMsgs[k]? = some e := by
  rw [getElem?_tick_rxMsgs] at found
  exact (filter_eq_some_iff.mp found).1

theorem KeyedById.handleXMIT (keyed : r.KeyedById)
    (hr : r.handleXMIT now sz rxid h fragment = some r') : r'.KeyedById := by
  rcases handleXMIT_cases hr with ⟨-, rfl⟩ | ⟨-, -, rfl⟩ | ⟨-, -, m, accepted, origin⟩
  · exact keyed
  · exact keyed
  · refine keyed.insert ?_ accepted.rxMsgs_eq
    rcases origin with ⟨rfl, -⟩ | ⟨-, hm⟩
    · rfl
    · exact InboundMessage.msgID_handleData hm

theorem KeyedById.handleDATA (keyed : r.KeyedById)
    (hr : r.handleDATA now idx rxid fragment = some r') : r'.KeyedById := by
  rcases handleDATA_cases hr with ⟨-, -, rfl⟩ | ⟨-, -, rfl⟩ | ⟨e, m, found, hm, accepted⟩
  · exact keyed
  · exact keyed
  · refine keyed.insert ?_ accepted.rxMsgs_eq
    rw [InboundMessage.msgID_handleData hm]
    exact keyed rxid e found

theorem KeyedById.handle (keyed : r.KeyedById) (hr : r.handle now p = some r') : r'.KeyedById := by
  cases p with
  | xmit sz rxid h fragment => exact keyed.handleXMIT hr
  | data idx rxid fragment => exact keyed.handleDATA hr
  | _ => exact some.inj hr ▸ keyed

theorem KeyedById.pump (keyed : r.KeyedById) : (r.pump now).KeyedById := by
  intro k e found
  rw [getElem?_pump_rxMsgs] at found
  obtain ⟨m, hm, rfl⟩ := map_eq_some_iff.mp found
  have same := keyed k m hm
  split_ifs
  · exact same
  · exact same

/-! ### The receiving half sends acknowledgements -/

/-- Every packet that was sent is an acknowledgement. -/
def RepliesOnly (r : Receiver) : Prop := ∀ p ∈ r.sent, p.Acknowledges

theorem handle_of_acknowledges (reply : p.Acknowledges) : r.handle now p = some r := by
  cases p with
  | acks | nack | mack => rfl
  | _ => cases reply

theorem RepliesOnly.handle (replies : r.RepliesOnly) (handled : r.handle now p = some r') :
    r'.RepliesOnly := by
  cases p with
  | xmit sz rxid h fragment =>
    rcases handleXMIT_cases handled with ⟨-, rfl⟩ | ⟨-, -, rfl⟩ | ⟨-, -, m, accepted, -⟩
    · exact replies
    · exact replies
    · rw [RepliesOnly, accepted.sent_eq]
      exact replies
  | data idx rxid fragment =>
    rcases handleDATA_cases handled with ⟨-, -, rfl⟩ | ⟨-, -, rfl⟩ | ⟨e, m, -, -, accepted⟩
    · exact replies
    · intro p hp
      rw [send_sent, List.mem_append, List.mem_singleton] at hp
      rcases hp with old | rfl
      · exact replies p old
      · trivial
    · rw [RepliesOnly, accepted.sent_eq]
      exact replies
  | _ =>
    cases handled
    exact replies

theorem sent_verifiedMessage : (r.verifiedMessage now rxid).sent = r.sent := by
  unfold verifiedMessage handleRecvMsgCompleted
  cases r.rxMsgs[rxid]? with
  | none => rfl
  | some m =>
    dsimp only
    split_ifs
    · rfl
    · rfl

theorem RepliesOnly.pump (replies : r.RepliesOnly) : (r.pump now).RepliesOnly := by
  intro p hp
  rcases List.mem_append.mp hp with old | new
  · exact replies p old
  · obtain ⟨entry, -, rfl⟩ := List.mem_map.mp new
    trivial

theorem length_of_mem_mackIds {ids queue : List UInt64} (h : ids ∈ mackIds queue) :
    ids.length ≤ maxACKSInMACK := by
  obtain ⟨i, -, rfl⟩ := List.mem_map.mp h
  exact List.length_take_le _ _

theorem RepliesOnly.sendMACK (replies : r.RepliesOnly) : r.sendMACK.RepliesOnly := by
  intro p hp
  rcases List.mem_append.mp hp with old | new
  · exact replies p old
  · obtain ⟨ids, hids, rfl⟩ := List.mem_map.mp new
    exact length_of_mem_mackIds hids

end Receiver

end Llarp.Iwp

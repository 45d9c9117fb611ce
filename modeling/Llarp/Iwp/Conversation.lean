import Llarp.Iwp.ReceiverTracking
import Llarp.Iwp.Sender.Completion

/-!
# One direction of a connection

The sending half of one session and the receiving half of its peer, joined by a
network that loses, duplicates, reorders and delays packets but does not forge
them: any packet that was ever sent may arrive at any time, any number of times.
-/

namespace Llarp.Iwp

open Foundation Transmitter

structure Conversation (H : Type) where
  now : ℕ
  tx : Transmitter H
  rx : Receiver

namespace Conversation

inductive Event (H : Type) where
  | wait (duration : ℕ)
  | sendMessageBuffer (msg : Message) (completed : Option H) (priority : UInt16)
  | triggerHashGen
  | recvHashed (job : ℕ)
  | pumpTX
  | tickTX
  /-- a packet of the sender arrives -/
  | toReceiver (p : Plaintext)
  /-- a packet of the receiver arrives -/
  | toSender (p : Plaintext)
  | verdict (request : ℕ)
  | pumpRX
  | tickRX
  | sendMACK

variable {H : Type}

def step (shorthash : List UInt8 → ShortHash) (c : Conversation H) :
    Event H → Option (Conversation H)
  | .wait duration => some { c with now := c.now + duration }
  | .sendMessageBuffer msg completed priority =>
    some { c with tx := (c.tx.sendMessageBuffer c.now msg completed priority).1 }
  | .triggerHashGen => some { c with tx := c.tx.triggerHashGen }
  | .recvHashed job => some { c with tx := c.tx.recvHashed shorthash c.now job }
  | .pumpTX => some { c with tx := c.tx.pump c.now }
  | .tickTX => some { c with tx := c.tx.tick c.now }
  | .toReceiver p =>
    if p ∈ c.tx.sent then (c.rx.handle c.now p).map fun rx => { c with rx := rx } else some c
  | .toSender p => if p ∈ c.rx.sent then some { c with tx := c.tx.handle c.now p } else some c
  | .verdict request => some { c with rx := Reception.answer shorthash c.rx c.now request }
  | .pumpRX => some { c with rx := c.rx.pump c.now }
  | .tickRX => some { c with rx := c.rx.tick c.now }
  | .sendMACK => some { c with rx := c.rx.sendMACK }

/-- The condition on one step. The sender does not run out of message ids, and the
receiver does not give up, by a timeout, a message that the sender still waits for. -/
def Careful (c : Conversation H) : Event H → Prop
  | .sendMessageBuffer .. => c.tx.txID.toNat + 1 < 2 ^ 64
  | .tickRX => ∀ entry ∈ c.rx.rxMsgs.toList, entry.2.isTimedOut c.now = true →
    (c.tx.txMsgs[entry.1]?.bind (·.completed)).isNone = true
  | _ => True

/-- What the sender holds of an id: nothing was sent under it, or it waits for a message. -/
def Stands (c : Conversation H) (k : UInt64) : Option Message → Prop
  | none => ¬ c.tx.Touched k
  | some msg => ∃ m, c.tx.Awaited k m ∧ m.data = msg

/-- The invariant: both halves are in order, and the receiver knows about every id what the sender
holds of it. -/
structure Agreed (shorthash : List UInt8 → ShortHash) (c : Conversation H) : Prop where
  sender : c.tx.Sound shorthash c.now
  keyed : c.rx.KeyedById
  tracks : ∀ k x, c.Stands k x → c.rx.Tracks shorthash k x

variable {shorthash : List UInt8 → ShortHash} {c c' : Conversation H} {event : Event H}

theorem agreed_start (now : ℕ) :
    (⟨now, .empty, .empty⟩ : Conversation H).Agreed shorthash where
  sender := sound_empty
  keyed := Receiver.keyedById_empty
  tracks _ _ _ := Receiver.tracks_empty

section

variable (agreed : c.Agreed shorthash)

include agreed

/-- A step of the sender. A new message has an id that the receiver knows nothing about. -/
theorem Agreed.evolves {tx : Transmitter H} {got : Option (OutboundMessage H)}
    (ev : Transmitter.Evolves shorthash c.now c.tx tx got) :
    { c with tx := tx }.Agreed shorthash where
  sender := agreed.sender.evolves ev
  keyed := agreed.keyed
  tracks k x stands := by
    cases x with
    | none =>
      refine agreed.tracks k none fun touched => stands ?_
      obtain ⟨p, hp, named⟩ := touched
      exact ⟨p, ev.sent_mono p hp, named⟩
    | some msg =>
      obtain ⟨m', awaited, rfl⟩ := stands
      cases ev.origin k m' awaited.1 with
      | old m found same digest =>
        exact agreed.tracks k _ ⟨m, ⟨found, same.completed_eq ▸ awaited.2⟩, same.data_eq.symm⟩
      | new fresh =>
        refine (agreed.tracks k none fun touched => ?_).of_none
        exact UInt64.not_lt.mpr fresh (agreed.sender.touched k touched)
      | created _ _ _ unawaited => exact absurd unawaited awaited.2

/-- An arriving reply names only ids that the sender has used. -/
theorem Agreed.touched {p : Plaintext} (arrived : p ∈ c.rx.sent) :
    ∀ k ∈ p.ids, c.tx.Touched k := by
  intro k named
  by_contra untouched
  exact nomatch (agreed.tracks k none untouched).named p arrived named

/-- A step of the receiver. -/
theorem Agreed.receiver_step {rx : Receiver} (keyed : rx.KeyedById)
    (tracks : ∀ k x, c.Stands k x → c.rx.Tracks shorthash k x → rx.Tracks shorthash k x) :
    { c with rx := rx }.Agreed shorthash :=
  ⟨agreed.sender, keyed, fun k x stands => tracks k x stands (agreed.tracks k x stands)⟩

/-- An arriving packet that names an awaited message was made from it. -/
theorem Agreed.toReceiver {p : Plaintext} {rx : Receiver} (arrived : p ∈ c.tx.sent)
    (handled : c.rx.handle c.now p = some rx) : { c with rx := rx }.Agreed shorthash := by
  refine agreed.receiver_step (agreed.keyed.handle handled) fun k x stands tracks =>
    tracks.handle agreed.keyed (fun named => ?_) handled
  cases x with
  | none => exact absurd ⟨p, arrived, named⟩ stands
  | some msg =>
    obtain ⟨m, awaited, rfl⟩ := stands
    exact ⟨m.data, rfl, (agreed.sender.right k m awaited).genuine p arrived named⟩

/-- A timeout removes no copy of an awaited message. -/
theorem Agreed.tickRX
    (careful : ∀ entry ∈ c.rx.rxMsgs.toList, entry.2.isTimedOut c.now = true →
      (c.tx.txMsgs[entry.1]?.bind (·.completed)).isNone = true) :
    { c with rx := c.rx.tick c.now }.Agreed shorthash := by
  refine agreed.receiver_step (agreed.keyed.of_subset fun _ _ => Receiver.getElem?_of_tick)
    fun k x stands tracks => tracks.tick fun e found => ?_
  by_contra late
  have unawaited := careful (k, e) (Std.ExtTreeMap.mem_toList_iff_getElem?_eq_some.mpr found)
    (Bool.eq_true_of_not_eq_false late)
  obtain ⟨msg, ⟨⟩, -⟩ := tracks.entry e found
  obtain ⟨m, awaited, -⟩ := stands
  rw [awaited.1, Option.isNone_iff_eq_none] at unawaited
  exact awaited.2 unawaited

end

/-! ### Runs -/

section

variable (agreed : c.Agreed shorthash)

include agreed

theorem agreed_of_step (careful : c.Careful event)
    (hstep : c.step shorthash event = some c') : c'.Agreed shorthash := by
  cases event with
  | toReceiver p =>
    rw [step] at hstep
    split_ifs at hstep with arrived
    · obtain ⟨rx, handled, rfl⟩ := Option.map_eq_some_iff.mp hstep
      exact agreed.toReceiver arrived handled
    · cases hstep
      exact agreed
  | toSender p =>
    rw [step] at hstep
    split_ifs at hstep with arrived
    · cases hstep
      exact agreed.evolves (evolves_handle agreed.sender (agreed.touched arrived))
    · cases hstep
      exact agreed
  | wait duration =>
    cases hstep
    exact { agreed with sender := agreed.sender.wait (Nat.le_add_right c.now duration) }
  | sendMessageBuffer msg completed priority =>
    cases hstep
    exact agreed.evolves
      (evolves_sendMessageBuffer agreed.sender careful msg completed priority)
  | triggerHashGen =>
    cases hstep
    exact agreed.evolves evolves_triggerHashGen
  | recvHashed job =>
    cases hstep
    cases asked : c.tx.hashing[job]? with
    | none =>
      rw [recvHashed, asked]
      exact agreed
    | some m => exact agreed.evolves (evolves_recvHashed asked)
  | pumpTX =>
    cases hstep
    exact agreed.evolves (evolves_pump agreed.sender)
  | tickTX =>
    cases hstep
    exact agreed.evolves (evolves_tick agreed.sender)
  | verdict request =>
    cases hstep
    exact agreed.receiver_step (Reception.keyedById_answer agreed.keyed) fun _ _ _ tracks =>
      tracks.answer agreed.keyed request
  | pumpRX =>
    cases hstep
    exact agreed.receiver_step agreed.keyed.pump fun _ _ _ tracks => tracks.pump agreed.keyed
  | tickRX =>
    cases hstep
    exact agreed.tickRX careful
  | sendMACK =>
    cases hstep
    exact agreed.receiver_step agreed.keyed fun _ _ _ tracks => tracks.sendMACK

/-! ### Acknowledged messages have arrived -/

/-- A multiack names only messages that were delivered. -/
theorem Agreed.received_of_mack {ids : List UInt64} {k : UInt64} {m : OutboundMessage H}
    (arrived : .mack ids ∈ c.rx.sent) (named : k ∈ ids)
    (awaited : c.tx.Awaited k m) : c.rx.Received k m.data := by
  obtain ⟨_, ⟨⟩, delivered⟩ :=
    (agreed.tracks k (some m.data) ⟨m, awaited, rfl⟩).multiacked ids arrived named
  exact Or.inl delivered

/-- The bits of an acknowledgement are set at the receiver, now as when it was sent. -/
theorem Agreed.received_of_acks {bitmask : UInt8} {k : UInt64} {m : OutboundMessage H}
    (arrived : .acks k bitmask ∈ c.rx.sent)
    (awaited : c.tx.Awaited k m) (transmitted : (m.ack bitmask).isTransmitted = some true) :
    c.rx.Received k m.data := by
  have tracks := agreed.tracks k (some m.data) ⟨m, awaited, rfl⟩
  rcases tracks.acked bitmask arrived with ⟨_, ⟨⟩, delivered⟩ | ⟨e, found, bits⟩
  · exact Or.inl delivered
  · obtain ⟨_, ⟨⟩, holds, -⟩ := tracks.entry e found
    have complete : e.isCompleted = some true := by
      rw [OutboundMessage.isTransmitted_eq_some_true] at transmitted
      rw [InboundMessage.isCompleted_eq_some_true, holds.length_eq]
      exact fun i inside => bits _ (transmitted i inside)
    exact Or.inr ⟨e, found, complete, holds.eq_of_isCompleted complete⟩

/-- In a step from an agreed state, every handler that is told of a success is told so
about a message that the receiver has. -/
theorem reports_of_step (hstep : c.step shorthash event = some c') :
    Transmitter.Reports c'.rx.Received c.tx c'.tx := by
  cases event with
  | toReceiver p =>
    rw [step] at hstep
    split_ifs at hstep
    · obtain ⟨rx, -, rfl⟩ := Option.map_eq_some_iff.mp hstep
      exact .of_eq rfl
    · cases hstep
      exact .of_eq rfl
  | toSender p =>
    rw [step] at hstep
    split_ifs at hstep with arrived
    · cases hstep
      refine reports_handle fun txid m awaited acked => ?_
      cases p with
      | acks id bitmask =>
        obtain ⟨rfl, transmitted⟩ := acked
        exact agreed.received_of_acks arrived awaited transmitted
      | mack ids => exact agreed.received_of_mack arrived acked awaited
      | _ => cases acked
    · cases hstep
      exact .of_eq rfl
  | sendMessageBuffer msg completed priority =>
    cases hstep
    exact reports_sendMessageBuffer msg completed priority
  | recvHashed job =>
    cases hstep
    exact reports_recvHashed job
  | tickTX =>
    cases hstep
    exact reports_tick
  | _ =>
    cases hstep
    exact .of_eq rfl

end

end Conversation

end Llarp.Iwp

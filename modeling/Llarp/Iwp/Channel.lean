import Llarp.Iwp.Conversation
import Llarp.Iwp.DataPlane

/-!
# Two sessions over an unreliable network

Two honest sessions with established keys. The network loses, duplicates, reorders and
delays packets, so any packet that a session ever sent may arrive at its peer at any
time, with any padding that `CreatePacket` may have chosen. Seen from one of the
sessions as the sender, a run is a run of a conversation.
-/

namespace Llarp.Iwp

open Foundation

inductive Side where
  | a
  | b
  deriving DecidableEq, Repr

namespace Side

def other : Side → Side
  | a => b
  | b => a

@[simp] theorem other_ne (side : Side) : side.other ≠ side := by
  cases side <;> decide

@[simp] theorem other_other (side : Side) : side.other.other = side := by
  cases side <;> rfl

theorem eq_or_eq_other (side sender : Side) : side = sender ∨ side = sender.other := by
  cases side <;> cases sender <;> decide

end Side

structure Channel (H : Type) where
  now : ℕ
  peer : Side → DataPlane H

namespace Channel

inductive Event (H : Type) where
  | wait (duration : ℕ)
  /-- a session works on its messages -/
  | act (side : Side) (event : DataPlane.Event H)
  /-- a packet of the other session arrives -/
  | deliver (side : Side) (p : Plaintext) (pad : List UInt8)

variable {H : Type}

def start (now : ℕ) : Channel H := ⟨now, fun _ => .empty⟩

variable (sender : Side) (c : Channel H) (side : Side)

def set (d : DataPlane H) : Channel H :=
  { c with peer := Function.update c.peer side d }

/-- The packet was sent to this session, with this padding. -/
def Sent (p : Plaintext) (pad : List UInt8) : Prop :=
  (p ∈ (c.peer side.other).tx.sent ∨ p ∈ (c.peer side.other).rx.sent) ∧
    p.command.PadLength pad.length

instance (c : Channel H) (side : Side) (p : Plaintext) (pad : List UInt8) :
    Decidable (c.Sent side p pad) :=
  inferInstanceAs (Decidable (_ ∧ _))

def step (shorthash : List UInt8 → ShortHash) (c : Channel H) : Event H → Option (Channel H)
  | .wait duration => some { c with now := c.now + duration }
  | .act side event => some (c.set side ((c.peer side).step shorthash c.now event))
  | .deliver side p pad =>
    if c.Sent side p pad then ((c.peer side).receive c.now (createPacket p pad)).map (c.set side)
    else some c

/-- The condition on one step, for messages from `sender`: it does not run out of
message ids, and its peer does not give up, by a timeout, a message whose sender
still waits for it. -/
def Careful : Event H → Prop
  | .act side (.sendMessageBuffer ..) => side = sender → (c.peer side).tx.txID.toNat + 1 < 2 ^ 64
  | .act side .tick => side = sender.other →
    ∀ entry ∈ (c.peer side).rx.rxMsgs.toList, entry.2.isTimedOut c.now = true →
      ((c.peer sender).tx.txMsgs[entry.1]?.bind (·.completed)).isNone = true
  | _ => True

instance decidableCareful (event : Event H) : Decidable (c.Careful sender event) := by
  unfold Careful
  split
  · infer_instance
  · infer_instance
  · infer_instance

/-! ### Conversations -/

/-- The part of the channel that carries the messages of `sender`. -/
def toward (sender : Side) : Conversation H where
  now := c.now
  tx := (c.peer sender).tx
  rx := (c.peer sender.other).rx

variable {shorthash : List UInt8 → ShortHash} {c c' : Channel H} {event : Event H}
  {side sender : Side} {d : DataPlane H}

theorem toward_set_self : (c.set sender d).toward sender = { c.toward sender with tx := d.tx } := by
  simp [toward, set]

theorem toward_set_other :
    (c.set sender.other d).toward sender = { c.toward sender with rx := d.rx } := by
  simp [toward, set, Function.update_of_ne (Side.other_ne sender).symm]

/-- Both sessions send only packets of the kind that each half is for. -/
def Proper (c : Channel H) : Prop := ∀ side, (c.peer side).Proper

theorem Proper.set (proper : c.Proper) (hd : d.Proper) : (c.set side d).Proper := by
  intro other
  by_cases same : other = side
  · subst same
    simpa [Channel.set] using hd
  · simpa [Channel.set, Function.update_of_ne same] using proper other

theorem proper_of_step (proper : c.Proper) (hstep : c.step shorthash event = some c') :
    c'.Proper := by
  cases event with
  | wait duration =>
    cases hstep
    exact proper
  | act side event =>
    cases hstep
    exact proper.set ((proper side).step event)
  | deliver side p pad =>
    rw [step] at hstep
    split_ifs at hstep with sent
    · rw [(proper side.other).receive_createPacket sent.1 sent.2] at hstep
      obtain ⟨d, handled, rfl⟩ := Option.map_eq_some_iff.mp hstep
      exact proper.set ((proper side).handle handled)
    · cases hstep
      exact proper

/-- The step is nothing to the messages of `sender`, or it is a step of its conversation,
under the same condition. -/
def Simulated (shorthash : List UInt8 → ShortHash) (sender : Side) (c c' : Channel H)
    (event : Event H) : Prop :=
  c'.toward sender = c.toward sender ∨
    ∃ event', (c.toward sender).step shorthash event' = some (c'.toward sender) ∧
      (c.Careful sender event → (c.toward sender).Careful event')

theorem simulated_act_sender (event : DataPlane.Event H) :
    Simulated shorthash sender c (c.set sender ((c.peer sender).step shorthash c.now event))
      (.act sender event) := by
  rw [Simulated, toward_set_self]
  cases event with
  | sendMessageBuffer msg completed priority =>
    exact Or.inr ⟨.sendMessageBuffer msg completed priority, rfl, fun careful => careful rfl⟩
  | triggerHashGen => exact Or.inr ⟨.triggerHashGen, rfl, fun _ => trivial⟩
  | recvHashed job => exact Or.inr ⟨.recvHashed job, rfl, fun _ => trivial⟩
  | pump established => exact Or.inr ⟨.pumpTX, rfl, fun _ => trivial⟩
  | tick => exact Or.inr ⟨.tickTX, rfl, fun _ => trivial⟩
  | verdict request => exact Or.inl rfl
  | sendMACK => exact Or.inl rfl

theorem simulated_act_other (event : DataPlane.Event H) :
    Simulated shorthash sender c
      (c.set sender.other ((c.peer sender.other).step shorthash c.now event))
      (.act sender.other event) := by
  rw [Simulated, toward_set_other]
  cases event with
  | verdict request => exact Or.inr ⟨.verdict request, rfl, fun _ => trivial⟩
  | pump established =>
    cases established with
    | false => exact Or.inl rfl
    | true => exact Or.inr ⟨.pumpRX, rfl, fun _ => trivial⟩
  | tick => exact Or.inr ⟨.tickRX, rfl, fun careful => careful rfl⟩
  | sendMACK => exact Or.inr ⟨.sendMACK, rfl, fun _ => trivial⟩
  | sendMessageBuffer | triggerHashGen | recvHashed => exact Or.inl rfl

-- The sending half does nothing with announcements and fragments, the receiving half
-- nothing with acknowledgements, so only one of the two kinds of packets matters.
theorem simulated_deliver_sender {p : Plaintext} {pad : List UInt8} (proper : c.Proper)
    (sent : c.Sent sender p pad) (handled : (c.peer sender).handle c.now p = some d) :
    Simulated shorthash sender c (c.set sender d) (.deliver sender p pad) := by
  obtain ⟨rx, -, rfl⟩ := Option.map_eq_some_iff.mp handled
  rw [Simulated, toward_set_self]
  by_cases reply : p ∈ (c.peer sender.other).rx.sent
  · exact Or.inr ⟨.toSender p, if_pos reply, fun _ => trivial⟩
  · have data := (proper sender.other).sends p (sent.1.resolve_right reply)
    rw [Transmitter.handle_of_carriesData data]
    exact Or.inl rfl

theorem simulated_deliver_other {p : Plaintext} {pad : List UInt8} (proper : c.Proper)
    (sent : c.Sent sender.other p pad)
    (handled : (c.peer sender.other).handle c.now p = some d) :
    Simulated shorthash sender c (c.set sender.other d) (.deliver sender.other p pad) := by
  obtain ⟨rx, received, rfl⟩ := Option.map_eq_some_iff.mp handled
  rw [Sent, Side.other_other] at sent
  rw [Simulated, toward_set_other]
  by_cases data : p ∈ (c.peer sender).tx.sent
  · refine Or.inr ⟨.toReceiver p, ?_, fun _ => trivial⟩
    refine (if_pos data).trans ?_
    exact Option.map_eq_some_iff.mpr ⟨rx, received, rfl⟩
  · have reply := (proper sender).replies p (sent.1.resolve_left data)
    rw [Receiver.handle_of_acknowledges reply] at received
    cases received
    exact Or.inl rfl

theorem simulated_of_step (proper : c.Proper) (hstep : c.step shorthash event = some c')
    (sender : Side) : Simulated shorthash sender c c' event := by
  cases event with
  | wait duration =>
    cases hstep
    exact Or.inr ⟨.wait duration, rfl, fun _ => trivial⟩
  | act side event =>
    cases hstep
    rcases side.eq_or_eq_other sender with rfl | rfl
    · exact simulated_act_sender event
    · exact simulated_act_other event
  | deliver side p pad =>
    rw [step] at hstep
    split_ifs at hstep with sent
    · rw [(proper side.other).receive_createPacket sent.1 sent.2] at hstep
      obtain ⟨d, handled, rfl⟩ := Option.map_eq_some_iff.mp hstep
      rcases side.eq_or_eq_other sender with rfl | rfl
      · exact simulated_deliver_sender proper sent handled
      · exact simulated_deliver_other proper sent handled
    · cases hstep
      exact Or.inl rfl

/-! ### Runs -/

/-- The invariant of a channel, for the messages of `sender`. -/
structure Agreed (shorthash : List UInt8 → ShortHash) (sender : Side) (c : Channel H) : Prop where
  proper : c.Proper
  toward : (c.toward sender).Agreed shorthash

theorem agreed_start (now : ℕ) : (start now : Channel H).Agreed shorthash sender where
  proper _ := DataPlane.proper_empty
  toward := Conversation.agreed_start now

theorem agreed_of_step (agreed : c.Agreed shorthash sender) (careful : c.Careful sender event)
    (hstep : c.step shorthash event = some c') : c'.Agreed shorthash sender := by
  refine ⟨proper_of_step agreed.proper hstep, ?_⟩
  rcases simulated_of_step agreed.proper hstep sender with same | ⟨event', hstep', careful'⟩
  · rw [same]
    exact agreed.toward
  · exact Conversation.agreed_of_step agreed.toward (careful' careful) hstep'

/-- When a handler of `sender` is told that its message was delivered, the peer has every
byte of the message. -/
theorem success_received (shorthash : List UInt8 → ShortHash) (sender : Side) (now : ℕ)
    (events : List (Event H)) (event : Event H) (c c' : Channel H)
    (careful : Along (step shorthash) (Careful sender) (start now) events)
    (hrun : run (step shorthash) (start now) events = some c)
    (hstep : c.step shorthash event = some c') :
    ∃ called, (c'.peer sender).tx.outcomes = (c.peer sender).tx.outcomes ++ called ∧
      ∀ o ∈ called, o.status = .success →
        ∃ k, o.id = some k ∧ (c'.peer sender.other).rx.Received k o.message := by
  have agreed : c.Agreed shorthash sender :=
    run_invariant (Agreed shorthash sender)
      (fun _ _ _ => agreed_of_step)
      (agreed_start now) careful hrun
  rcases simulated_of_step agreed.proper hstep sender with same | ⟨event', hstep', -⟩
  · refine Transmitter.Reports.of_eq ?_
    exact congrArg (fun conversation => conversation.tx.outcomes) same
  · exact Conversation.reports_of_step agreed.toward hstep'

/-- Whatever both sessions and the network do, the messages of each session are sent and received as
in a run of the conversation in its direction. -/
theorem always_exists_run_toward (shorthash : List UInt8 → ShortHash) (sender : Side) (now : ℕ)
    (events : List (Event H)) :
    Always (step shorthash) (fun c => ∃ conversation,
      run (Conversation.step shorthash) ((start now).toward sender) conversation =
        some (c.toward sender)) (start now) events := by
  intro before c _ reached
  refine (run_invariant_of_forall (fun c => c.Proper ∧ ∃ conversation, run
    (Conversation.step shorthash) ((start now).toward sender) conversation = some (c.toward sender))
    ?_ ⟨fun _ => DataPlane.proper_empty, [], rfl⟩ reached).2
  rintro c event c' ⟨proper, conversation, carried⟩ hstep
  refine ⟨proper_of_step proper hstep, ?_⟩
  -- a step that is nothing to the messages leaves the conversation where it is
  rcases simulated_of_step proper hstep sender with same | ⟨event', hstep', -⟩
  · rw [same]
    exact ⟨conversation, carried⟩
  · exact ⟨conversation ++ [event'], run_concat_eq_some.mpr ⟨_, carried, hstep'⟩⟩

/-- Accept the message of two fragments, hash it and send its packets. -/
def sendTwoFragments : List (Event Unit) :=
  [.act .a (.sendMessageBuffer Receiver.twoFragments (some ()) 0), .act .a .triggerHashGen,
    .act .a (.recvHashed 0)]

/-- The announcement of the message of two fragments, as its first message. -/
def announcement : Plaintext :=
  .xmit 1025 0 (Reception.prefixHash Receiver.twoFragments.bytes) (List.replicate 1024 1)

/-- The fragment that the announcement does not carry. -/
def secondFragment : Plaintext := .data 1024 0 [1]

/-- Everything arrives, the message is verified and acknowledged. -/
def deliveredRun : List (Event Unit) :=
  sendTwoFragments ++ [.deliver .b announcement [], .deliver .b secondFragment [],
    .act .b (.verdict 0), .act .b .sendMACK]

/-- The multiack for the first message arrives. -/
def multiackArrives : Event Unit := .deliver .a (.mack [0]) (List.replicate 16 0)

theorem success_received_deliveredRun :
    ∃ c c', run (step Reception.prefixHash) (start 0) deliveredRun = some c ∧
      c.step Reception.prefixHash multiackArrives = some c' ∧
      (c'.peer .a).tx.outcomes = [⟨(), .success, some 0, Receiver.twoFragments⟩] ∧
      ∃ called, (c'.peer .a).tx.outcomes = (c.peer .a).tx.outcomes ++ called ∧
        ∀ o ∈ called, o.status = .success →
          ∃ k, o.id = some k ∧ (c'.peer .b).rx.Received k o.message := by
  obtain ⟨c', hrun'⟩ := Option.isSome_iff_exists.mp
    (show (run (step Reception.prefixHash) (start 0) (deliveredRun ++ [multiackArrives])).isSome by
      decide +kernel)
  have log : (run (step Reception.prefixHash) (start 0) (deliveredRun ++ [multiackArrives])).map
      (fun c => (c.peer .a).tx.outcomes) =
        some [⟨(), .success, some 0, Receiver.twoFragments⟩] := by
    decide +kernel
  rw [hrun'] at log
  obtain ⟨c, hrun, hstep⟩ := run_concat_eq_some.mp hrun'
  exact ⟨c, c', hrun, hstep, Option.some.inj log,
    success_received Reception.prefixHash .a 0 deliveredRun multiackArrives c c'
      (by decide +kernel) hrun hstep⟩

/-- The fragment is lost and the reception times out, which puts the id into the replay
filter. The repeated fragment is then answered with a multiack. -/
def timedOutRun : List (Event Unit) :=
  sendTwoFragments ++ [.deliver .b announcement [], .wait 501, .act .b .tick,
    .act .a (.pump true), .deliver .b secondFragment [], .act .b .sendMACK, multiackArrives]

theorem timedOut_success_unreceived :
    ((run (step Reception.prefixHash) (start 0) timedOutRun).map fun c =>
      ((c.peer .a).tx.outcomes, (c.peer .b).rx.delivered, (c.peer .b).rx.rxMsgs.toList)) =
      some ([⟨(), .success, some 0, Receiver.twoFragments⟩], [], []) := by
  decide +kernel

end Channel

end Llarp.Iwp

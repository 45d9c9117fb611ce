import Llarp.Foundation.Run
import Llarp.Iwp.Receiver

/-!
# Runs of the receiving half

The receiving half of a session takes packets with arbitrary contents from its
peer, verdicts of the hasher for any of the copies it was given, in any order and
at any time, and the periodic calls of the event loop. The clock is that of the
event loop and never goes back.

A step is `none` when an exception escapes from it.
-/

namespace Llarp.Iwp

open Foundation Receiver

structure Reception where
  now : ℕ
  rx : Receiver

namespace Reception

inductive Event where
  /-- time passes -/
  | wait (duration : ℕ)
  /-- a decrypted packet arrives -/
  | packet (data : Packet)
  /-- the hasher answers one of the outstanding requests -/
  | verdict (request : ℕ)
  | tick
  | pump
  | sendMACK
  deriving DecidableEq, Repr

/-- A session that has received nothing yet. -/
def start (now : ℕ) : Reception := ⟨now, .empty⟩

/-- Replace the receiver. -/
@[simps] def withRx (s : Reception) (rx : Receiver) : Reception := { s with rx := rx }

/-- The verdict on the given request, which is no longer outstanding then. -/
def answer (shorthash : List UInt8 → ShortHash) (rx : Receiver) (now : ℕ) (request : ℕ) :
    Receiver :=
  match rx.verifying[request]? with
  | some m => { rx with verifying := rx.verifying.eraseIdx request }.verdict shorthash now m
  | none => rx

def step (shorthash : List UInt8 → ShortHash) (s : Reception) : Event → Option Reception
  | .wait duration => some { s with now := s.now + duration }
  | .packet data => (s.rx.receive s.now data).map s.withRx
  | .verdict request => some (s.withRx (answer shorthash s.rx s.now request))
  | .tick => some (s.withRx (s.rx.tick s.now))
  | .pump => some (s.withRx (s.rx.pump s.now))
  | .sendMACK => some (s.withRx s.rx.sendMACK)

/-- A hash function for concrete runs: the first bytes of the data. -/
def prefixHash (data : List UInt8) : ShortHash := .copy 32 data

/-- The XMIT packet of a message of one byte. -/
def xmitOf (id : UInt64) (byte : UInt8) : Packet :=
  createPacket (.xmit 1 id (prefixHash [byte]) [byte]) []

variable {shorthash : List UInt8 → ShortHash} {s t : Reception} {event : Event}

/-- The cases of one step, each with what the called function does. -/
inductive Transition (shorthash : List UInt8 → ShortHash) (s : Reception) :
    Event → Reception → Prop
  | wait (duration : ℕ) : Transition shorthash s (.wait duration) { s with now := s.now + duration }
  | ignored (data : Packet) : Transition shorthash s (.packet data) s
  | xmit (data : Packet) {sz : UInt16} {rxid : UInt64} {h : ShortHash} {fragment : List UInt8}
      {rx : Receiver} (parsed : parse data = some (.xmit sz rxid h fragment))
      (handled : s.rx.handleXMIT s.now sz rxid h fragment = some rx) :
      Transition shorthash s (.packet data) (s.withRx rx)
  | data (data : Packet) {idx : UInt16} {rxid : UInt64} {fragment : List UInt8} {rx : Receiver}
      (parsed : parse data = some (.data idx rxid fragment))
      (handled : s.rx.handleDATA s.now idx rxid fragment = some rx) :
      Transition shorthash s (.packet data) (s.withRx rx)
  | noRequest (request : ℕ) : Transition shorthash s (.verdict request) s
  | verified (request : ℕ) {m : InboundMessage} (asked : m ∈ s.rx.verifying)
      (good : m.verify shorthash = true) :
      Transition shorthash s (.verdict request) (s.withRx
        ({ s.rx with verifying := s.rx.verifying.eraseIdx request }.verifiedMessage s.now m.msgID))
  | dropped (request : ℕ) (m : InboundMessage) :
      Transition shorthash s (.verdict request) (s.withRx
        ({ s.rx with verifying := s.rx.verifying.eraseIdx request }.dropMessage m.msgID))
  | tick : Transition shorthash s .tick (s.withRx (s.rx.tick s.now))
  | pump : Transition shorthash s .pump (s.withRx (s.rx.pump s.now))
  | sendMACK : Transition shorthash s .sendMACK (s.withRx s.rx.sendMACK)

theorem transition_of_step (hstep : step shorthash s event = some t) :
    Transition shorthash s event t := by
  cases event with
  | wait duration =>
    cases hstep
    exact .wait duration
  | tick =>
    cases hstep
    exact .tick
  | pump =>
    cases hstep
    exact .pump
  | sendMACK =>
    cases hstep
    exact .sendMACK
  | verdict request =>
    cases hstep
    unfold answer
    cases asked : s.rx.verifying[request]? with
    | none => exact .noRequest request
    | some m =>
      dsimp only [verdict]
      split_ifs with good
      · exact .verified request (List.mem_of_getElem? asked) good
      · exact .dropped request m
  | packet data =>
    obtain ⟨rx, handled, rfl⟩ := Option.map_eq_some_iff.mp hstep
    rw [receive] at handled
    cases parsed : parse data with
    | none =>
      rw [parsed] at handled
      cases handled
      exact .ignored data
    | some plain =>
      rw [parsed] at handled
      cases plain with
      | xmit sz rxid h fragment => exact .xmit data parsed handled
      | data idx rxid fragment => exact .data data parsed handled
      | _ =>
        cases handled
        exact .ignored data

/-- The message that the answer to a request delivers: its entry, if the copy is good, the
entry is still there and its id is new. -/
def due (shorthash : List UInt8 → ShortHash) (rx : Receiver) (request : ℕ) :
    Option InboundMessage :=
  (rx.verifying[request]?).bind fun q =>
    if q.verify shorthash then (rx.rxMsgs[q.msgID]?).filter (·.msgID ∉ rx.replayFilter) else none

variable {now request : ℕ} {rx : Receiver}

theorem delivered_verifiedMessage {now : ℕ} {rxid : UInt64} :
    (rx.verifiedMessage now rxid).delivered = rx.delivered ++
      (((rx.rxMsgs[rxid]?).filter (·.msgID ∉ rx.replayFilter)).map (⟨·, now⟩)).toList := by
  cases found : rx.rxMsgs[rxid]? with
  | none =>
    rw [verifiedMessage_of_none found]
    simp
  | some e =>
    by_cases replay : e.msgID ∈ rx.replayFilter
    · simp [verifiedMessage, found, handleRecvMsgCompleted, replay,
        Option.filter_some]
    · simp [verifiedMessage, found, handleRecvMsgCompleted, replay,
        Option.filter_some]

theorem delivered_answer :
    (answer shorthash rx now request).delivered =
      rx.delivered ++ ((due shorthash rx request).map (⟨·, now⟩)).toList := by
  rw [answer, due]
  cases rx.verifying[request]? with
  | none => simp
  | some q =>
    dsimp only [verdict, Option.bind_some]
    split_ifs
    · exact delivered_verifiedMessage
    · simp

theorem sent_answer : (answer shorthash rx now request).sent = rx.sent := by
  rw [answer]
  cases rx.verifying[request]? with
  | none => rfl
  | some m =>
    dsimp only [verdict]
    split_ifs
    · exact sent_verifiedMessage
    · rfl

theorem keyedById_answer (keyed : rx.KeyedById) : (answer shorthash rx now request).KeyedById := by
  rw [answer]
  cases asked : rx.verifying[request]? with
  | none => exact keyed
  | some m =>
    have fewer : { rx with verifying := rx.verifying.eraseIdx request }.KeyedById := keyed
    dsimp only [verdict]
    split_ifs
    · exact fewer.of_subset fun _ _ => getElem?_of_verifiedMessage
    · exact fewer.of_subset fun _ _ => getElem?_of_dropMessage

/-- In every step entries stay stored under their own id. -/
theorem keyedById_of_transition (keyed : s.rx.KeyedById) (h : Transition shorthash s event t) :
    t.rx.KeyedById := by
  cases h with
  | wait | ignored | noRequest | sendMACK => exact keyed
  | xmit data parsed handled => exact keyed.handleXMIT handled
  | data data parsed handled => exact keyed.handleDATA handled
  | verified request asked good =>
    exact keyed.of_subset fun _ _ => getElem?_of_verifiedMessage
  | dropped request m => exact keyed.of_subset fun _ _ => getElem?_of_dropMessage
  | tick => exact keyed.of_subset fun _ _ => getElem?_of_tick
  | pump => exact keyed.pump

end Reception

end Llarp.Iwp

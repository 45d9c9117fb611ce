import Llarp.Iwp.Reception
import Llarp.Iwp.Transmitter

/-!
# The message transport of a session

A session sends messages and receives messages over one connection. Its two halves
share the stream of packets: announcements and fragments are for the receiving half,
acknowledgements for the sending half.
-/

namespace Llarp.Iwp

open Foundation

structure DataPlane (H : Type) where
  tx : Transmitter H
  rx : Receiver

namespace DataPlane

variable {H : Type}

def empty : DataPlane H := ⟨.empty, .empty⟩

/-- The part of `HandlePlaintext` that concerns messages. -/
def handle (d : DataPlane H) (now : ℕ) (p : Plaintext) : Option (DataPlane H) :=
  (d.rx.handle now p).map fun rx => ⟨d.tx.handle now p, rx⟩

def receive (d : DataPlane H) (now : ℕ) (data : Packet) : Option (DataPlane H) :=
  match parse data with
  | some p => d.handle now p
  | none => some d

/-- Acknowledgements leave only an established session. -/
def pump (d : DataPlane H) (now : ℕ) (established : Bool) : DataPlane H where
  tx := d.tx.pump now
  rx := if established then d.rx.pump now else d.rx

def tick (d : DataPlane H) (now : ℕ) : DataPlane H where
  tx := d.tx.tick now
  rx := d.rx.tick now

/-- What a session does with its messages between two packets. -/
inductive Event (H : Type) where
  | sendMessageBuffer (msg : Message) (completed : Option H) (priority : UInt16)
  | triggerHashGen
  | recvHashed (job : ℕ)
  | verdict (request : ℕ)
  | pump (established : Bool)
  | tick
  | sendMACK

def step (shorthash : List UInt8 → ShortHash) (d : DataPlane H) (now : ℕ) : Event H → DataPlane H
  | .sendMessageBuffer msg completed priority =>
    { d with tx := (d.tx.sendMessageBuffer now msg completed priority).1 }
  | .triggerHashGen => { d with tx := d.tx.triggerHashGen }
  | .recvHashed job => { d with tx := d.tx.recvHashed shorthash now job }
  | .verdict request => { d with rx := Reception.answer shorthash d.rx now request }
  | .pump established => d.pump now established
  | .tick => d.tick now
  | .sendMACK => { d with rx := d.rx.sendMACK }

/-- Each half sends only packets of its own kind. -/
structure Proper (d : DataPlane H) : Prop where
  sends : d.tx.SendsData
  replies : d.rx.RepliesOnly

variable {d d' : DataPlane H} {now : ℕ} {p : Plaintext} {shorthash : List UInt8 → ShortHash}

theorem proper_empty : (empty : DataPlane H).Proper :=
  ⟨fun _ hp => absurd hp List.not_mem_nil, fun _ hp => absurd hp List.not_mem_nil⟩

theorem Proper.handle (proper : d.Proper) (handled : d.handle now p = some d') : d'.Proper := by
  obtain ⟨rx, received, rfl⟩ := Option.map_eq_some_iff.mp handled
  exact ⟨proper.sends.handle p, proper.replies.handle received⟩

theorem Proper.step (proper : d.Proper) (event : Event H) :
    (d.step shorthash now event).Proper := by
  cases event with
  | sendMessageBuffer msg completed priority =>
    exact ⟨proper.sends.sendMessageBuffer msg completed priority, proper.replies⟩
  | triggerHashGen => exact ⟨proper.sends, proper.replies⟩
  | recvHashed job => exact ⟨proper.sends.recvHashed shorthash job, proper.replies⟩
  | verdict request =>
    refine ⟨proper.sends, fun p hp => ?_⟩
    rw [DataPlane.step, Reception.sent_answer] at hp
    exact proper.replies p hp
  | pump established =>
    refine ⟨proper.sends.pump, ?_⟩
    cases established with
    | false => exact proper.replies
    | true => exact proper.replies.pump
  | tick => exact ⟨proper.sends, proper.replies⟩
  | sendMACK => exact ⟨proper.sends, proper.replies.sendMACK⟩

theorem Proper.wellFormed (proper : d.Proper) (sent : p ∈ d.tx.sent ∨ p ∈ d.rx.sent) :
    p.WellFormed := by
  rcases sent with data | reply
  · exact (proper.sends p data).wellFormed
  · exact (proper.replies p reply).wellFormed

/-- A session reads exactly what its peer sent, whatever the padding. -/
theorem Proper.receive_createPacket (proper : d.Proper) {reader : DataPlane H}
    {pad : List UInt8} (sent : p ∈ d.tx.sent ∨ p ∈ d.rx.sent)
    (padded : p.command.PadLength pad.length) :
    reader.receive now (createPacket p pad) = reader.handle now p := by
  rw [receive, parse_createPacket p pad (proper.wellFormed sent) padded]

end DataPlane

end Llarp.Iwp

import Llarp.Foundation.Queues
import Llarp.Iwp.Transmitter

/-!
# The order of retransmissions

`OutboundMessage::operator<` puts important messages first, and older ones before newer ones. `Pump`
collects the messages that are due in a `std::priority_queue`. The top of it is a greatest element, so
that they are flushed in the opposite order.
-/

namespace Llarp.Iwp

open Foundation

namespace OutboundMessage

variable {H : Type} {a b : OutboundMessage H}

/-- What `operator<` compares: the negated priority and the message id. -/
def sortKey (m : OutboundMessage H) : ℤ ×ₗ ℕ := toLex (-(m.resendPriority.toNat : ℤ), m.msgID.toNat)

/-- The order that `operator<` documents: a higher priority comes first, then a smaller id. -/
def FlushesBefore (a b : OutboundMessage H) : Prop :=
  b.resendPriority < a.resendPriority ∨ a.resendPriority = b.resendPriority ∧ a.msgID ≤ b.msgID

theorem sortKey_le_iff : a.sortKey ≤ b.sortKey ↔ a.FlushesBefore b := by
  rw [sortKey, sortKey, Prod.Lex.toLex_le_toLex, neg_lt_neg_iff, neg_inj, Nat.cast_lt, Nat.cast_inj,
    FlushesBefore, UInt16.lt_iff_toNat_lt, UInt64.le_iff_toNat_le, UInt16.toNat_inj]

theorem sortKey_inj : a.sortKey = b.sortKey ↔
    a.resendPriority = b.resendPriority ∧ a.msgID = b.msgID := by
  rw [sortKey, sortKey, toLex_inj, Prod.mk.injEq, neg_inj, Nat.cast_inj, UInt16.toNat_inj,
    UInt64.toNat_inj]

end OutboundMessage

/-- A `std::priority_queue` of pointers to messages, which `ComparePtr` compares by `operator<`. -/
abbrev ResendQueue (H : Type) := Heap fun m : OutboundMessage H => OrderDual.toDual m.sortKey

namespace Transmitter

variable {H : Type} [DecidableEq H] (queue : ResendQueue H) (t : Transmitter H) (now : ℕ)

/-- The messages that `Pump` pushes. -/
def due : List (OutboundMessage H) := (t.txMsgs.toList.map Prod.snd).filter (·.shouldFlush now)

/-- The messages in the order in which `Pump` calls `FlushUnAcked`. Its reference to the top of the
queue is one to the first place of a vector, where every pop puts the next top. -/
def resends : List (OutboundMessage H) := queue.drainAll (t.due now)

/-- Every message that is due is flushed once, in the documented order. -/
structure FlushesInOrder : Prop where
  once : (t.resends queue now).Perm (t.due now)
  order : (t.resends queue now).Pairwise OutboundMessage.FlushesBefore

/-- The documented order is kept exactly if there is nothing to order. -/
theorem flushesInOrder_iff :
    t.FlushesInOrder queue now ↔ ∀ a ∈ t.due now, ∀ b ∈ t.due now,
      a.resendPriority = b.resendPriority ∧ a.msgID = b.msgID := by
  have ascending := queue.ascending_drainAll_iff (t.due now)
  simp only [OutboundMessage.sortKey_le_iff, OutboundMessage.sortKey_inj] at ascending
  rw [← ascending]
  exact ⟨fun right => right.order, fun order => ⟨queue.perm_drainAll _, order⟩⟩

/-- An announced message without bytes. -/
def announced (id : UInt64) (priority : UInt16) : OutboundMessage Unit :=
  { OutboundMessage.new id .empty 0 none priority with digest := .copy 32 [1] }

/-- A message of priority 1 and one of priority 2 that are due at time 400. -/
def twoDue : Transmitter Unit :=
  { empty with txMsgs := (∅ : Std.ExtTreeMap UInt64 (OutboundMessage Unit)).insert 0 (announced 0 1)
      |>.insert 1 (announced 1 2) }

/-- The less important message is flushed first. -/
theorem unimportant_message_flushed_first :
    twoDue.resends (.oldest _) 400 = [announced 0 1, announced 1 2] ∧
      ¬twoDue.FlushesInOrder (.oldest _) 400 := by
  have order : twoDue.resends (.oldest _) 400 = [announced 0 1, announced 1 2] := by decide +kernel
  refine ⟨order, fun right => ?_⟩
  have first := right.order
  rw [order, List.pairwise_pair] at first
  rcases first with lower | ⟨same, -⟩
  · exact absurd lower (by decide)
  · exact absurd same (by decide)

end Transmitter

end Llarp.Iwp

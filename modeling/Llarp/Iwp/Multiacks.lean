import Llarp.Foundation.Queues
import Llarp.Iwp.Receiver

/-!
# Multiacks

`SendMACK` takes the ids off a priority queue, in batches that fit into one packet each. It reads
them through a reference to the top of the queue. That is a reference to the first place of a
vector, where every pop puts the next top.
-/

namespace Llarp.Iwp

open Foundation List

/-- A `util::descending_priority_queue` of message ids: a least one is on top. -/
abbrev MACKQueue := Heap fun id : UInt64 => id

namespace MACKQueue

variable (order : MACKQueue) (queue : List UInt64)

/-- The ids of the next packet. -/
def batch : List UInt64 := order.drain (min queue.length maxACKSInMACK) queue

theorem length_batch : (batch order queue).length = min queue.length maxACKSInMACK := by
  rw [batch, Heap.length_drain, Nat.min_eq_left (Nat.min_le_left ..)]

theorem length_diff_batch :
    (queue.diff (batch order queue)).length = queue.length - maxACKSInMACK := by
  have size := (order.perm_drain_append (min queue.length maxACKSInMACK) queue).length_eq
  rw [length_append, ← batch, length_batch] at size
  omega

/-- The ids in the order in which they leave the queue start with those of the next packet. -/
theorem drainAll_eq_append :
    order.drainAll queue =
      batch order queue ++ order.drainAll (queue.diff (batch order queue)) := by
  have split :=
    order.drain_add (min queue.length maxACKSInMACK) (queue.length - maxACKSInMACK) queue
  rw [show min queue.length maxACKSInMACK + (queue.length - maxACKSInMACK) = queue.length by omega]
    at split
  rw [Heap.drainAll, Heap.drainAll, length_diff_batch]
  exact split

/-- The packets that are sent, and what is left in the queue. -/
def sendMACK (queue : List UInt64) : List Plaintext × List UInt64 :=
  if queue = [] then ([], queue)
  else
    let ids := batch order queue
    let (packets, left) := sendMACK (queue.diff ids)
    (.mack ids :: packets, left)
termination_by queue.length
decreasing_by
  rename_i some
  have size := List.length_pos_iff.mpr some
  rw [length_diff_batch, maxACKSInMACK]
  omega

end MACKQueue

namespace Receiver

variable {ids : List UInt64}

theorem mackIds_of_ne_nil (some : ids ≠ []) :
    mackIds ids = ids.take maxACKSInMACK :: mackIds (ids.drop maxACKSInMACK) := by
  have size := length_pos_iff.mpr some
  have count : (ids.length + maxACKSInMACK - 1) / maxACKSInMACK =
      (ids.length - maxACKSInMACK + maxACKSInMACK - 1) / maxACKSInMACK + 1 := by
    rw [maxACKSInMACK]
    omega
  rw [mackIds, mackIds, offsets, offsets, count, range'_succ, map_cons, drop_zero,
    length_drop, Nat.zero_add, ← Nat.add_zero maxACKSInMACK, ← map_add_range',
    Nat.add_zero, map_map]
  refine congrArg (_ :: ·) (map_congr_left fun i _ => ?_)
  rw [Function.comp_apply, drop_drop]

theorem length_mackIds :
    (mackIds ids).length = (ids.length + maxACKSInMACK - 1) / maxACKSInMACK := by
  rw [mackIds, length_map, offsets, length_range']

theorem flatten_mackIds (ids : List UInt64) : (mackIds ids).flatten = ids := by
  by_cases empty : ids = []
  · rw [empty]
    rfl
  · have size := length_pos_iff.mpr empty
    rw [mackIds_of_ne_nil empty, flatten_cons, flatten_mackIds, take_append_drop]
termination_by ids.length
decreasing_by
  rw [List.length_drop, maxACKSInMACK]
  omega

end Receiver

namespace MACKQueue

variable (order : MACKQueue) (queue : List UInt64)

theorem batch_eq_take : batch order queue = (order.drainAll queue).take maxACKSInMACK ∧
    order.drainAll (queue.diff (batch order queue)) =
      (order.drainAll queue).drop maxACKSInMACK := by
  have size := length_batch order queue
  rw [drainAll_eq_append]
  rcases le_total queue.length maxACKSInMACK with small | large
  · -- the last packet has all that is left
    have left := length_diff_batch order queue
    have none : order.drainAll (queue.diff (batch order queue)) = [] := by
      rw [← length_eq_zero_iff, (order.perm_drainAll _).length_eq]
      omega
    rw [none, append_nil, take_of_length_le (by omega), drop_of_length_le (by omega)]
    exact ⟨rfl, rfl⟩
  · rw [Nat.min_eq_right large] at size
    rw [take_left' size, drop_left' size]
    exact ⟨rfl, rfl⟩

/-- The queue is emptied in ascending order. -/
theorem sendMACK_eq :
    order.sendMACK queue = ((Receiver.mackIds (order.drainAll queue)).map .mack, []) := by
  fun_induction sendMACK order queue with
  | case1 =>
    rw [perm_nil.mp (order.perm_drainAll [])]
    rfl
  | case2 queue some ids packets left sent ih =>
    obtain ⟨rfl, rfl⟩ := Prod.mk.inj (sent.symm.trans ih)
    obtain ⟨first, rest⟩ := batch_eq_take order queue
    have filled : order.drainAll queue ≠ [] := fun empty =>
      some (nil_perm.mp (empty ▸ order.perm_drainAll queue))
    rw [Receiver.mackIds_of_ne_nil filled, ← first, ← rest]
    rfl

/-- Ids that are kept in ascending order leave in this order. -/
theorem drainAll_of_pairwise {queue : List UInt64} (sorted : queue.Pairwise (· ≤ ·)) :
    order.drainAll queue = queue :=
  (order.perm_drainAll queue).eq_of_pairwise (fun _ _ _ _ => UInt64.le_antisymm)
    (order.pairwise_drain _ queue) sorted

/-- The receiving half of a session sends the same packets. -/
theorem sent_sendMACK (r : Receiver) (sorted : r.sendMACKs.Pairwise (· ≤ ·)) :
    r.sendMACK.sent = r.sent ++ (order.sendMACK r.sendMACKs).1 := by
  rw [sendMACK_eq, drainAll_of_pairwise order sorted, Receiver.sendMACK_sent]

/-- What the peer reads. -/
structure Announced (packets : List Plaintext) : Prop where
  count : packets.length = (queue.length + maxACKSInMACK - 1) / maxACKSInMACK
  read : ∀ packet ∈ packets, ∃ ids, packet = .mack ids ∧
    ∀ pad, Command.mack.PadLength pad.length → parse (createPacket packet pad) = some (.mack ids)
  once : (packets.flatMap Plaintext.ids).Perm queue
  ascending : (packets.flatMap Plaintext.ids).Pairwise (· ≤ ·)

/-- All queued ids are sent, each as often as it is queued and in ascending order, in as few packets
as possible, and nothing is left. -/
theorem sendMACK_announces :
    (order.sendMACK queue).2 = [] ∧ Announced queue (order.sendMACK queue).1 := by
  have all := order.perm_drainAll queue
  have ids : ((Receiver.mackIds (order.drainAll queue)).map Plaintext.mack).flatMap Plaintext.ids =
      order.drainAll queue := by
    rw [flatMap_map, flatMap_def]
    exact (congrArg flatten (map_id _)).trans (Receiver.flatten_mackIds _)
  rw [sendMACK_eq]
  refine ⟨rfl, ?_, fun packet sent => ?_, ?_, ?_⟩
  · rw [length_map, Receiver.length_mackIds, all.length_eq]
  · obtain ⟨ids, batch, rfl⟩ := mem_map.mp sent
    exact ⟨ids, rfl, fun pad padded =>
      parse_createPacket _ pad (Receiver.length_of_mem_mackIds batch) padded⟩
  · rw [ids]
    exact all
  · rw [ids]
    exact order.pairwise_drain _ queue

end MACKQueue

end Llarp.Iwp

import Llarp.Router.OutboundMessageHandler

/-!
# The order in which messages are sent

A message of higher priority is more important, but the queues of the handler have the lowest
priority on top. So the order is right only where all messages of a queue have the same one.
-/

namespace Llarp.OutboundMessageHandler

open Foundation

variable (order : MessageOrder) (s : OutboundMessageHandler)

/-- The queue of a path. -/
def queueOf (pathid : PathID) : MessageQueue := s.outboundMessageQueues[pathid]?.getD []

variable {order} {s} {pathid : PathID} {others : List PathID} {consecutiveEmpty : ℕ}

/-- One turn of the loop over the queues of the paths. -/
theorem exists_turn (turn : s.roundRobinOrder = pathid :: others) (consecutiveEmpty : ℕ) :
    ∃ next empty, (∀ numQueues fuel, roundRobin order numQueues (fuel + 1) consecutiveEmpty s =
        if empty = numQueues then (next, empty) else roundRobin order numQueues fuel empty next) ∧
      empty = (if s.queueOf pathid = [] then consecutiveEmpty + 1 else 1) ∧
      next.roundRobinOrder = others ++ [pathid] ∧
      next.handed = s.handed ++ (order.top (s.queueOf pathid)).toList ∧
      ∀ other, next.queueOf other = if pathid = other then
        (s.queueOf pathid).diff (order.top (s.queueOf pathid)).toList else s.queueOf other := by
  simp only [roundRobin, turn]
  cases found : order.top (s.queueOf pathid) with
  | some entry =>
    have some : s.queueOf pathid ≠ [] := List.ne_nil_of_mem (order.top_mem found)
    rw [queueOf] at found
    simp only [found]
    refine ⟨_, _, fun _ _ => rfl, (if_neg some).symm, rfl, rfl, fun other => ?_⟩
    simp only [queueOf, getElem?_insert]
    split_ifs
    · rw [Option.getD_some, Option.toList_some, List.diff_cons, List.diff_nil]
    · rfl
  | none =>
    have empty : s.queueOf pathid = [] := order.eq_nil_of_top found
    rw [queueOf] at found
    simp only [found]
    refine ⟨_, _, fun _ _ => rfl, (if_pos empty).symm, rfl, (List.append_nil _).symm,
      fun other => ?_⟩
    simp only [queueOf, getElem?_insertIfNew]
    split_ifs with same
    · rw [← same]
      rfl
    · rfl

/-! ### Priorities -/

/-- No message of the queue is more important than the entry. -/
def MostImportant (queue : MessageQueue) (entry : MessageQueueEntry) : Prop :=
  ∀ waiting ∈ queue, waiting.priority ≤ entry.priority

def SamePriority (queue : MessageQueue) : Prop :=
  ∀ a ∈ queue, ∀ b ∈ queue, a.priority.toNat = b.priority.toNat

variable (order) in
/-- A queue is sent to its end, and no message is sent while a more important one is waiting. -/
def DrainsByPriority (queue : MessageQueue) : Prop :=
  (order.drainAll queue).Pairwise fun first later => later.priority ≤ first.priority

variable (order s) in
/-- The turn of the next path. -/
def TurnByPriority : Prop :=
  ∀ pathid ∈ s.roundRobinOrder.head?, ∀ entry ∈ order.top (s.queueOf pathid),
    MostImportant (s.queueOf pathid) entry

variable (order s) in
/-- `SendRoundRobin` sends by priority: the queue of the messages without a path, and in every turn
up to the last one. -/
def RoundRobinByPriority : Prop :=
  let t := (s.sendRouting order).dropStale
  let numQueues := t.roundRobinOrder.length
  DrainsByPriority order (s.queueOf zeroID) ∧
    ∀ turns, (roundRobin order numQueues turns 0 t).2 ≠ numQueues →
      TurnByPriority order (roundRobin order numQueues turns 0 t).1

theorem drainsByPriority_iff {queue : MessageQueue} :
    DrainsByPriority order queue ↔ SamePriority queue :=
  (show Heap fun entry : MessageQueueEntry =>
    OrderDual.toDual (OrderDual.toDual entry.priority.toNat) from order).ascending_drainAll_iff queue

theorem turnByPriority_iff : TurnByPriority order s ↔
    ∀ pathid ∈ s.roundRobinOrder.head?, SamePriority (s.queueOf pathid) := by
  refine forall₂_congr fun pathid _ => ⟨fun right a first b second => ?_, ?_⟩
  · cases found : order.top (s.queueOf pathid) with
    | none => exact absurd first (order.eq_nil_of_top found ▸ List.not_mem_nil)
    | some entry =>
      -- every message has at least the priority of the one on top, and at most
      have least := order.top_le found
      have most (e : MessageQueueEntry) (member : e ∈ s.queueOf pathid) :=
        UInt16.le_iff_toNat_le.mp (right entry found e member)
      exact ((most a first).antisymm (least a first)).trans
        ((most b second).antisymm (least b second)).symm
  · intro same entry found waiting member
    exact UInt16.le_iff_toNat_le.mpr (same waiting member entry (order.top_mem found)).le

/-- All queues with a turn. -/
def PathsSamePriority (s : OutboundMessageHandler) : Prop :=
  ∀ pathid ∈ s.roundRobinOrder, SamePriority (s.queueOf pathid)

theorem SamePriority.of_subset {queue rest : MessageQueue} (same : SamePriority queue)
    (subset : rest ⊆ queue) : SamePriority rest :=
  fun a first b second => same a (subset first) b (subset second)

/-- Queues of equal priorities stay so. -/
theorem PathsSamePriority.roundRobin (same : PathsSamePriority s) (numQueues turns : ℕ) :
    PathsSamePriority (roundRobin order numQueues turns consecutiveEmpty s).1 := by
  induction turns generalizing s consecutiveEmpty with
  | zero => exact same
  | succ turns ih =>
    cases turn : s.roundRobinOrder with
    | nil => simpa only [OutboundMessageHandler.roundRobin, turn] using same
    | cons pathid others =>
      obtain ⟨next, empty, result, -, rotated, -, queues⟩ := exists_turn turn consecutiveEmpty
      have kept : PathsSamePriority next := by
        intro other member
        have listed : other ∈ s.roundRobinOrder := by
          rw [turn]
          exact List.perm_append_singleton pathid others |>.mem_iff.mp (rotated ▸ member)
        rw [queues]
        split_ifs with own
        · exact (same pathid (own ▸ listed)).of_subset (List.diff_subset ..)
        · exact same other listed
      rw [result]
      split_ifs
      · exact kept
      · exact ih kept

variable (order) in
/-- In the first round every path has its turn, with the queue that it had. -/
theorem exists_turn_of {numQueues : ℕ} {before behind : List PathID}
    (listed : s.roundRobinOrder = before ++ pathid :: behind) (first : pathid ∉ before)
    (short : consecutiveEmpty + before.length < numQueues) :
    ∃ next empty, roundRobin order numQueues before.length consecutiveEmpty s = (next, empty) ∧
      empty ≠ numQueues ∧ next.roundRobinOrder = pathid :: (behind ++ before) ∧
      next.queueOf pathid = s.queueOf pathid := by
  induction before generalizing s consecutiveEmpty behind with
  | nil => exact ⟨s, consecutiveEmpty, rfl, by omega, by rw [listed, List.append_nil]; rfl, rfl⟩
  | cons other before ih =>
    rw [List.mem_cons, not_or] at first
    rw [List.length_cons] at short
    rw [List.cons_append] at listed
    obtain ⟨next, empty, result, counted, rotated, -, queues⟩ := exists_turn listed consecutiveEmpty
    have count : empty ≤ consecutiveEmpty + 1 := by
      split_ifs at counted
      all_goals omega
    rw [List.append_assoc, List.cons_append] at rotated
    have room : empty + before.length < numQueues := by omega
    obtain ⟨last, final, reached, more, turn, kept⟩ := ih rotated first.2 room
    refine ⟨last, final, ?_, more, ?_, ?_⟩
    · rw [List.length_cons, result, if_neg (by omega), reached]
    · rw [turn, List.append_assoc]
      rfl
    · rw [kept, queues, if_neg (Ne.symm first.1)]

theorem handed_foldl_send (entries : List MessageQueueEntry) :
    entries.foldl send s = { s with handed := s.handed ++ entries } := by
  induction entries generalizing s with
  | nil => rw [List.foldl_nil, List.append_nil]
  | cons entry entries ih =>
    rw [List.foldl_cons, ih, send, List.append_assoc]
    rfl

theorem queueOf_sendRouting :
    (s.sendRouting order).dropStale.queueOf pathid =
      if zeroID = pathid then [] else s.queueOf pathid := by
  rw [sendRouting, handed_foldl_send]
  show ((s.outboundMessageQueues.insert zeroID [])[pathid]?).getD [] = _
  rw [getElem?_insert]
  split_ifs
  · rfl
  · rfl

theorem subset_dropStale :
    (s.sendRouting order).dropStale.roundRobinOrder ⊆ s.roundRobinOrder := by
  rw [sendRouting, handed_foldl_send]
  simp only [dropStale]
  split_ifs
  · exact List.filter_subset_self _
  · exact List.Subset.refl _

variable (order) in
/-- A path without a turn has no queue. -/
theorem mem_dropStale (member : pathid ∈ s.roundRobinOrder) :
    pathid ∈ (s.sendRouting order).dropStale.roundRobinOrder ∨ s.queueOf pathid = [] := by
  rw [sendRouting, handed_foldl_send]
  simp only [dropStale]
  split_ifs
  · rw [List.mem_filter, and_iff_right member, getElem?_insert]
    split_ifs
    · exact .inl rfl
    · rw [queueOf]
      cases s.outboundMessageQueues[pathid]? with
      | none => exact .inr rfl
      | some queue => exact .inl rfl
  · exact .inl member

theorem roundRobinByPriority_iff : RoundRobinByPriority order s ↔
    ∀ pathid ∈ zeroID :: s.roundRobinOrder, SamePriority (s.queueOf pathid) := by
  rw [List.forall_mem_cons, RoundRobinByPriority, drainsByPriority_iff]
  refine and_congr_right fun control => ⟨fun right pathid member => ?_, fun same turns _ => ?_⟩
  · by_cases zero : zeroID = pathid
    · exact zero ▸ control
    rcases mem_dropStale order member with listed | empty
    · obtain ⟨before, behind, split, first⟩ := List.eq_append_cons_of_mem listed
      have short : 0 + before.length < (s.sendRouting order).dropStale.roundRobinOrder.length := by
        rw [split, List.length_append, List.length_cons]
        omega
      obtain ⟨next, empty, result, more, turn, kept⟩ := exists_turn_of order split first short
      have here := right before.length
      rw [result, turnByPriority_iff, turn] at here
      have same := here more pathid rfl
      rwa [kept, queueOf_sendRouting, if_neg zero] at same
    · rw [empty]
      exact nofun
  · have start : PathsSamePriority (s.sendRouting order).dropStale := by
      intro pathid listed
      rw [queueOf_sendRouting]
      split_ifs
      · exact nofun
      · exact same pathid (subset_dropStale listed)
    rw [turnByPriority_iff]
    exact fun pathid head => start.roundRobin _ turns pathid (List.mem_of_mem_head? head)

variable (order s) in
/-- No message is sent while a more important one is waiting in the same queue. -/
def SendsByPriority : HandlerEvent → Prop
  | .pump now => RoundRobinByPriority order (s.decay now).processOutboundQueue
  | .onSessionResult router result => result.toSendStatus = .success →
    DrainsByPriority order (s.pendingSessionMessageQueues[router]?.getD [])
  | _ => True

variable (s) in
/-- The messages of each queue that is sent from have the same priority. -/
def EqualPriorities : HandlerEvent → Prop
  | .pump now =>
    let t := (s.decay now).processOutboundQueue
    ∀ pathid ∈ zeroID :: t.roundRobinOrder, SamePriority (t.queueOf pathid)
  | .onSessionResult router result => result.toSendStatus = .success →
    SamePriority (s.pendingSessionMessageQueues[router]?.getD [])
  | _ => True

/-- Messages are sent by priority exactly if those in the same queue have the same one. -/
theorem sendsByPriority_iff (order : MessageOrder) (s : OutboundMessageHandler)
    (events : List HandlerEvent) :
    Along (step order) (SendsByPriority order) s events ↔
      Along (step order) EqualPriorities s events := by
  have same : SendsByPriority order = EqualPriorities := by
    funext s event
    cases event with
    | pump now => exact propext roundRobinByPriority_iff
    | onSessionResult router result => exact propext (forall_congr' fun _ => drainsByPriority_iff)
    | queueMessage | removePath | delivered => rfl
  rw [same]

/-- A message to a router that there is no session with. -/
def pendingMessage (priority : UInt16) : HandlerEvent :=
  .queueMessage (AlignedBuffer.zero 32) { pathid := zeroID, priority, encoding := some [0] } true
    { sessionIsClient := some false, sessionIsAllowed := true, hasSession := false }

/-- Of two messages to the same router the less important one is sent first. -/
theorem unimportant_message_sent_first :
    ¬Along (step (Heap.oldest _)) (SendsByPriority (Heap.oldest _)) (init 1000)
      [pendingMessage 1, pendingMessage 2, .onSessionResult (AlignedBuffer.zero 32) .establish] := by
  intro right
  have drains := right.2.2.1 rfl
  revert drains
  rw [DrainsByPriority]
  decide +kernel

end Llarp.OutboundMessageHandler

import Llarp.Router.OutboundMessageHandler

/-!
# Accounts of the queued messages

Every operation of the handler moves entries: from one queue to another, to the link manager,
or to their callbacks, and it may lose some. `Moved` is the account of one operation. A message
that was accepted stays accounted for exactly as long as no operation loses an entry with a
callback: a pump that drops the messages of a recently removed path, or the removal of a path
with messages in its queue.
-/

namespace Llarp.OutboundMessageHandler

open Foundation OutboundMessageHandler

variable {informed : Bool} (s : OutboundMessageHandler)

/-- The entries in the three kinds of queues. -/
def waiting : List MessageQueueEntry :=
  s.outboundQueue ++ contents s.outboundMessageQueues ++ contents s.pendingSessionMessageQueues

def callbacks (entries : List MessageQueueEntry) : List ℕ := entries.filterMap (·.inform)

/-- The callbacks that were scheduled. -/
def told : List ℕ := s.scheduled.map Prod.fst

/-- Every accepted message whose callback was not scheduled waits in exactly one place in the
queues or was given to the link manager. -/
def Accounted : Prop :=
  ∀ c ∈ s.accepted, c ∉ s.told →
    ((callbacks s.waiting).count c = 1 ∧ c ∉ callbacks s.handed) ∨
      (c ∉ callbacks s.waiting ∧ (callbacks s.handed).count c = 1)

@[simp] theorem told_doCallback (callback : Option ℕ) (status : SendStatus) :
    (s.doCallback callback status).told = s.told ++ callback.toList := by
  cases callback with
  | none => simp [doCallback, told]
  | some c => simp [doCallback, told]

/-! ### The account of an operation -/

/-- How many of the entries have this callback. -/
def amount (c : ℕ) (entries : List MessageQueueEntry) : ℕ := (callbacks entries).count c

section Amount

variable {c : ℕ} {es fs : List MessageQueueEntry} {e : MessageQueueEntry}

theorem amount_nil : amount c [] = 0 := rfl

theorem amount_append : amount c (es ++ fs) = amount c es + amount c fs := by
  rw [amount, callbacks, List.filterMap_append, List.count_append]
  rfl

theorem amount_perm (same : es.Perm fs) : amount c es = amount c fs :=
  (same.filterMap _).count_eq c

theorem amount_singleton : amount c [e] = e.inform.toList.count c := by
  cases given : e.inform with
  | none => simp [amount, callbacks, given]
  | some c => simp [amount, callbacks, given]

theorem forall_amount_eq_zero : (∀ c, amount c es = 0) ↔ ∀ e ∈ es, e.inform = none := by
  simp only [amount, List.count_eq_zero]
  rw [← List.eq_nil_iff_forall_not_mem, callbacks, List.filterMap_eq_nil_iff]

end Amount

/-- From `s` to `t` the entries in `hand` and those that wait go on waiting, are given to the
link manager, are refused with their callbacks scheduled, or are lost. -/
structure Moved (hand : List MessageQueueEntry) (s t : OutboundMessageHandler)
    (lost : List MessageQueueEntry) : Prop where
  balance : ∀ c, amount c hand + amount c s.waiting + amount c s.handed + s.told.count c =
    amount c t.waiting + amount c t.handed + t.told.count c + amount c lost
  handed : ∀ c, amount c s.handed ≤ amount c t.handed
  told : ∀ c, s.told.count c ≤ t.told.count c
  accepted : t.accepted = s.accepted
  calls : t.calls = s.calls

variable {order : MessageOrder} {s t u : OutboundMessageHandler}
  {hand more lost missing : List MessageQueueEntry} {e : MessageQueueEntry}

/-- An operation that only changes where entries wait. -/
theorem moved_of_waiting
    (waits : ∀ c, amount c hand + amount c s.waiting = amount c t.waiting + amount c lost)
    (handed : t.handed = s.handed) (told : t.told = s.told) (accepted : t.accepted = s.accepted)
    (calls : t.calls = s.calls) : Moved hand s t lost where
  balance c := by
    have here := waits c
    rw [handed, told]
    omega
  handed c := by rw [handed]
  told c := by rw [told]
  accepted := accepted
  calls := calls

theorem Moved.refl : Moved [] s s [] :=
  moved_of_waiting (fun c => Nat.add_comm _ (amount c s.waiting)) rfl rfl rfl rfl

theorem Moved.trans (first : Moved hand s t lost) (second : Moved more t u missing) :
    Moved (hand ++ more) s u (lost ++ missing) where
  balance c := by
    have here := first.balance c
    have there := second.balance c
    rw [amount_append, amount_append]
    omega
  handed c := (first.handed c).trans (second.handed c)
  told c := (first.told c).trans (second.told c)
  accepted := second.accepted.trans first.accepted
  calls := second.calls.trans first.calls

/-- An operation that first takes entries out of the queues. -/
theorem Moved.of_take (moved : Moved hand t u lost)
    (taken : ∀ c, amount c s.waiting = amount c hand + amount c t.waiting)
    (handed : t.handed = s.handed) (told : t.told = s.told) (accepted : t.accepted = s.accepted)
    (calls : t.calls = s.calls) : Moved [] s u lost where
  balance c := by
    have here := moved.balance c
    rw [handed, told] at here
    rw [taken, amount_nil, Nat.zero_add, here]
  handed c := handed ▸ moved.handed c
  told c := told ▸ moved.told c
  accepted := moved.accepted.trans accepted
  calls := moved.calls.trans calls

/-- A loop over entries that loses none. -/
theorem Moved.foldl {f : OutboundMessageHandler → MessageQueueEntry → OutboundMessageHandler}
    (moves : ∀ s e, Moved [e] s (f s e) []) (entries : List MessageQueueEntry)
    (s : OutboundMessageHandler) : Moved entries s (entries.foldl f s) [] := by
  induction entries generalizing s with
  | nil => exact Moved.refl
  | cons e entries ih => exact (moves s e).trans (ih (f s e))

theorem moved_send : Moved [e] s (s.send e) [] := by
  have handed (c : ℕ) : amount c (s.send e).handed = amount c s.handed + amount c [e] :=
    amount_append
  refine ⟨fun c => ?_, fun c => ?_, fun c => le_rfl, rfl, rfl⟩
  · rw [handed]
    show _ = amount c s.waiting + _ + s.told.count c + 0
    omega
  · rw [handed]
    exact Nat.le_add_right ..

variable (pathid : PathID) (now : ℕ) (status : SendStatus) {event : HandlerEvent}

theorem moved_doCallback : Moved [e] s (s.doCallback e.inform status) [] := by
  have told (c : ℕ) : (s.doCallback e.inform status).told.count c =
      s.told.count c + amount c [e] := by
    rw [told_doCallback, List.count_append, amount_singleton]
  refine ⟨fun c => ?_, fun c => le_rfl, fun c => ?_, rfl, rfl⟩
  · rw [told]
    show _ = amount c s.waiting + amount c s.handed + _ + 0
    omega
  · rw [told]
    exact Nat.le_add_right ..

theorem moved_finish : Moved [e] s (s.finish status e) [] := by
  rw [finish]
  split_ifs
  · exact moved_send
  · exact moved_doCallback status

theorem moved_queueOutboundMessage : Moved [e] s (s.queueOutboundMessage e) [] := by
  rw [queueOutboundMessage]
  split_ifs
  · refine moved_of_waiting (fun c => ?_) rfl rfl rfl rfl
    simp only [waiting, amount_append, amount_nil]
    omega
  · exact moved_doCallback .congestion

theorem moved_queuePending : Moved [e] s (s.queuePending e) [] := by
  refine moved_of_waiting (fun c => ?_) rfl rfl rfl rfl
  have pushed := amount_perm (c := c) (contents_push s.pendingSessionMessageQueues e.router e)
  simp only [waiting, queuePending, amount_append, amount_nil] at pushed ⊢
  omega

/-! ### The account of a pump -/

theorem moved_emplaceQueue : Moved [] s (s.emplaceQueue pathid) [] := by
  refine moved_of_waiting (fun c => ?_) rfl rfl rfl rfl
  have same := amount_perm (c := c) (contents_insertIfNew s.outboundMessageQueues pathid)
  simp only [waiting, emplaceQueue, amount_append, amount_nil, same]
  omega

theorem moved_processEntry :
    Moved [e] s (s.processEntry e) (if s.removedRecently e.pathid then [e] else []) := by
  rw [processEntry]
  by_cases removed : s.removedRecently e.pathid
  · rw [if_pos removed, if_pos removed]
    exact moved_of_waiting (fun c => Nat.add_comm ..) rfl rfl rfl rfl
  split_ifs
  · refine moved_of_waiting (fun c => ?_) rfl rfl rfl rfl
    have pushed := amount_perm (c := c) (contents_push s.outboundMessageQueues e.pathid e)
    simp only [waiting, emplaceQueue, amount_append, amount_nil] at pushed ⊢
    omega
  -- the queue of the path is full and the message is refused
  · exact (moved_emplaceQueue e.pathid).trans (moved_doCallback .congestion)

theorem recentlyRemovedPaths_processEntry :
    (s.processEntry e).recentlyRemovedPaths = s.recentlyRemovedPaths := by
  rw [processEntry]
  split_ifs <;> rfl

theorem moved_foldl_processEntry (entries : List MessageQueueEntry) :
    Moved entries s (entries.foldl processEntry s)
      (entries.filter fun e => s.removedRecently e.pathid) := by
  induction entries generalizing s with
  | nil => exact Moved.refl
  | cons e entries ih =>
    have rest : Moved entries (s.processEntry e) _ _ := ih
    have kept : (s.processEntry e).removedRecently = s.removedRecently := by
      funext pathid
      rw [removedRecently, removedRecently, recentlyRemovedPaths_processEntry]
    rw [kept] at rest
    have both := moved_processEntry.trans rest
    rw [List.filter_cons]
    by_cases removed : s.removedRecently e.pathid
    · rwa [if_pos removed] at both ⊢
    · rwa [if_neg removed] at both ⊢

theorem moved_processOutboundQueue :
    Moved [] s s.processOutboundQueue
      (s.outboundQueue.filter fun e => s.removedRecently e.pathid) := by
  have loop : Moved s.outboundQueue { s with outboundQueue := [] } _ _ :=
    moved_foldl_processEntry s.outboundQueue
  refine loop.of_take (fun c => ?_) rfl rfl rfl rfl
  simp only [waiting, amount_append, amount_nil]
  omega

theorem moved_sendRouting : Moved [] s (s.sendRouting order) [] := by
  have loop : Moved _ { s with
      outboundMessageQueues := s.outboundMessageQueues.insert zeroID [] } _ [] :=
    Moved.foldl (fun _ _ => moved_send)
      (order.drainAll (s.outboundMessageQueues[zeroID]?.getD [])) _
  refine loop.of_take (fun c => ?_) rfl rfl rfl rfl
  have split := amount_perm (c := c) (contents_perm_erase s.outboundMessageQueues zeroID)
  have emptied := amount_perm (c := c) (contents_insert s.outboundMessageQueues zeroID [])
  have drained := amount_perm (c := c)
    (order.perm_drainAll (s.outboundMessageQueues[zeroID]?.getD []))
  simp only [waiting, amount_append, amount_nil] at split emptied ⊢
  omega

theorem moved_dropStale : Moved [] s s.dropStale [] :=
  moved_of_waiting (fun c => Nat.add_comm _ (amount c s.waiting)) rfl rfl rfl rfl

/-- One turn of the loop over the queues of the paths. -/
theorem moved_roundRobin (numQueues fuel consecutiveEmpty : ℕ) :
    Moved [] s (roundRobin order numQueues fuel consecutiveEmpty s).1 [] := by
  induction fuel generalizing s consecutiveEmpty with
  | zero => exact Moved.refl
  | succ fuel ih =>
    rw [roundRobin]
    cases s.roundRobinOrder with
    | nil => exact Moved.refl
    | cons pathid others =>
      cases found : order.top (s.outboundMessageQueues[pathid]?.getD []) with
      | none =>
        have touched : Moved [] s { s with
            roundRobinOrder := others ++ [pathid]
            outboundMessageQueues := s.outboundMessageQueues.insertIfNew pathid [] } [] :=
          { moved_emplaceQueue pathid with }
        dsimp only
        rw [found]
        split_ifs
        · exact touched
        · exact touched.trans (ih _)
      | some entry =>
        have taken : Moved [] s { s with
            roundRobinOrder := others ++ [pathid]
            handed := s.handed ++ [entry]
            outboundMessageQueues := s.outboundMessageQueues.insert pathid
              ((s.outboundMessageQueues[pathid]?.getD []).erase entry) } [] := by
          let popped : OutboundMessageHandler := { s with
            roundRobinOrder := others ++ [pathid]
            outboundMessageQueues := s.outboundMessageQueues.insert pathid
              ((s.outboundMessageQueues[pathid]?.getD []).erase entry) }
          refine Moved.of_take (t := popped) moved_send (fun c => ?_) rfl rfl rfl rfl
          have split := amount_perm (c := c)
            (contents_pop s.outboundMessageQueues pathid (order.top_mem found))
          rw [← List.singleton_append, amount_append] at split
          simp only [popped, waiting, amount_append]
          omega
        dsimp only
        rw [found]
        split_ifs
        · exact taken
        · exact taken.trans (ih _)

theorem moved_sendRoundRobin : Moved [] s (s.sendRoundRobin order).1 [] := by
  have start : Moved [] s (s.sendRouting order).dropStale [] :=
    moved_sendRouting.trans moved_dropStale
  rw [sendRoundRobin]
  split_ifs
  · exact start
  · exact start.trans (moved_roundRobin ..)

theorem moved_decay : Moved [] s (s.decay now) [] :=
  moved_of_waiting (fun c => Nat.add_comm _ (amount c s.waiting)) rfl rfl rfl rfl

/-- A pump loses the messages of recently removed paths. -/
theorem moved_pump :
    Moved [] s (s.pump order now)
      (s.outboundQueue.filter fun e => (s.decay now).removedRecently e.pathid) := by
  have sorted : Moved [] s (s.decay now).processOutboundQueue _ :=
    (moved_decay now).trans moved_processOutboundQueue
  have sent : Moved [] s (s.pump order now) _ := sorted.trans moved_sendRoundRobin
  rwa [List.append_nil] at sent

/-- The removal of a path loses the messages in its queue. -/
theorem moved_removePath :
    Moved [] s (s.removePath pathid now) (s.outboundMessageQueues[pathid]?.getD []) := by
  refine moved_of_waiting (fun c => ?_) rfl rfl rfl rfl
  have split := amount_perm (c := c) (contents_perm_erase s.outboundMessageQueues pathid)
  simp only [waiting, removePath, amount_append, amount_nil] at split ⊢
  omega

theorem moved_onSessionResult (router : RouterID) (result : SessionResult) :
    Moved [] s (s.onSessionResult order router result) [] := by
  rw [onSessionResult, finalizeSessionRequest]
  cases found : s.pendingSessionMessageQueues[router]? with
  | none => exact Moved.refl
  | some queue =>
    have loop : Moved _ { s with
        pendingSessionMessageQueues := s.pendingSessionMessageQueues.erase router } _ [] :=
      Moved.foldl (fun _ _ => moved_finish result.toSendStatus) (order.drainAll queue) _
    refine loop.of_take (fun c => ?_) rfl rfl rfl rfl
    have split := amount_perm (c := c) (contents_perm_erase s.pendingSessionMessageQueues router)
    rw [found, Option.getD_some] at split
    simp only [waiting, amount_append, amount_perm (order.perm_drainAll queue)] at split ⊢
    omega

/-! ### Books over runs -/

/-- The books about a callback, with entries in hand: it is in one place at most, and then its
message was accepted; while the message waits it was not scheduled. -/
structure Books (hand : List MessageQueueEntry) (s : OutboundMessageHandler) (c : ℕ) : Prop where
  once : amount c hand + amount c s.waiting + amount c s.handed ≤ 1
  accepted : amount c hand + amount c s.waiting + amount c s.handed ≤ s.accepted.count c
  apart : amount c hand + amount c s.waiting = 0 ∨ s.told.count c = 0
  numbered : s.calls ≤ c → s.accepted.count c = 0 ∧ s.told.count c = 0

/-- If the message was accepted, it is not missing. -/
def Complete (hand : List MessageQueueEntry) (s : OutboundMessageHandler) (c : ℕ) : Prop :=
  0 < s.accepted.count c →
    0 < s.told.count c + (amount c hand + amount c s.waiting + amount c s.handed)

variable {c : ℕ}

theorem accounted_iff (books : ∀ c, Books [] s c) : s.Accounted ↔ ∀ c, Complete [] s c := by
  refine forall_congr' fun c => ?_
  have once := (books c).once
  rw [Complete, amount_nil] at *
  simp only [← List.count_pos_iff, Nat.not_lt, Nat.le_zero]
  rw [← amount, ← amount]
  omega

theorem Moved.books (moved : Moved hand s t lost) (books : Books hand s c) : Books [] t c := by
  have balance := moved.balance c
  have handed := moved.handed c
  have told := moved.told c
  obtain ⟨once, accepted, apart, numbered⟩ := books
  rw [← moved.accepted] at accepted numbered
  rw [← moved.calls] at numbered
  have none : amount c [] = 0 := amount_nil
  exact ⟨by omega, by omega, by omega, by omega⟩

/-- After an operation no message is missing exactly when no entry with a callback was lost. -/
theorem Moved.complete_iff (moved : Moved hand s t lost) (books : ∀ c, Books hand s c)
    (complete : ∀ c, Complete hand s c) :
    (∀ c, Complete [] t c) ↔ ∀ e ∈ lost, e.inform = none := by
  rw [← forall_amount_eq_zero]
  refine forall_congr' fun c => ?_
  have balance := moved.balance c
  have handed := moved.handed c
  have told := moved.told c
  have before := complete c
  obtain ⟨once, accepted, apart, -⟩ := books c
  rw [Complete, moved.accepted, amount_nil]
  rw [Complete] at before
  omega

/-- A call with the result `true`: its message is new in hand. -/
theorem moved_queueMessage {remote : RouterID} {msg : OutboundMessage} {view : RouterView} :
    s.queueMessage remote msg informed view = s.called informed false ∨
      ∃ e, e.inform = s.callback informed ∧
        Moved [e] (s.called informed true) (s.queueMessage remote msg informed view) [] := by
  let entry message : MessageQueueEntry :=
    { priority := msg.priority, message, inform := s.callback informed, pathid := msg.pathid,
      router := remote }
  rw [queueMessage]
  by_cases invalid : view.sessionIsClient.isNone && !view.sessionIsAllowed
  · rw [if_pos invalid]
    -- the message is refused before it is encoded, so any entry with its callback will do
    exact .inr ⟨entry [], rfl, moved_doCallback .invalidRouter⟩
  rw [if_neg invalid]
  cases encodeBuffer msg with
  | none => exact .inl rfl
  | some message =>
    refine .inr ⟨entry message, rfl, ?_⟩
    split_ifs
    · exact moved_queueOutboundMessage
    · exact moved_queuePending

theorem count_callback (c : ℕ) : (s.callback informed).toList.count c = 0 ∨
    (s.callback informed).toList.count c = 1 ∧ c = s.calls := by
  cases informed with
  | false => exact .inl rfl
  | true =>
    by_cases own : c = s.calls
    · exact .inr ⟨by simp [callback, own], own⟩
    · exact .inl (by simp [callback, Ne.symm own])

/-- The callback of a call is in no place yet. -/
theorem Books.called (books : Books [] s c) (inform : e.inform = s.callback informed) :
    Books [e] (s.called informed true) c := by
  have accepted : (s.called informed true).accepted.count c = s.accepted.count c + amount c [e] := by
    rw [amount_singleton, inform]
    exact List.count_append
  have own := @count_callback informed s c
  rw [← inform, ← amount_singleton] at own
  obtain ⟨once, known, apart, numbered⟩ := books
  refine ⟨?_, ?_, ?_, fun beyond => ?_⟩
  · show amount c [e] + amount c s.waiting + amount c s.handed ≤ 1
    omega
  · rw [accepted]
    show amount c [e] + amount c s.waiting + amount c s.handed ≤ _
    omega
  · show amount c [e] + amount c s.waiting = 0 ∨ s.told.count c = 0
    omega
  · rw [accepted]
    have later : s.calls + 1 ≤ c := beyond
    show _ ∧ s.told.count c = 0
    omega

theorem Books.failed (books : Books [] s c) : Books [] (s.called informed false) c := by
  have accepted : (s.called informed false).accepted = s.accepted := List.append_nil _
  refine ⟨books.once, accepted ▸ books.accepted, books.apart, fun beyond => ?_⟩
  rw [accepted]
  exact books.numbered (Nat.le_of_succ_le beyond)

/-- The callback of a message that was given to the link manager waits nowhere. -/
theorem Books.delivered (books : Books [] s c) (given : e ∈ s.handed) (success : Bool) :
    Books [] (s.delivered e success) c := by
  have told : (s.delivered e success).told.count c = s.told.count c + amount c [e] := by
    rw [OutboundMessageHandler.delivered, told_doCallback, List.count_append, amount_singleton]
  have handed : amount c [e] ≤ amount c s.handed :=
    List.Sublist.count_le c ((List.singleton_sublist.mpr given).filterMap _)
  obtain ⟨once, accepted, apart, numbered⟩ := books
  refine ⟨once, accepted, ?_, fun beyond => ?_⟩
  · rw [told]
    show amount c [] + amount c s.waiting = 0 ∨ _
    omega
  · rw [told]
    show s.accepted.count c = 0 ∧ _
    have old := numbered beyond
    omega

/-- An operation that loses no message with a callback: when the queues are pumped, no such
message in the outbound queue is for a path that was removed in the last five seconds, and when
a path is removed, no such message is in its queue. -/
def Keeps (s : OutboundMessageHandler) : HandlerEvent → Prop
  | .pump now =>
    ∀ e ∈ s.outboundQueue, (s.decay now).removedRecently e.pathid = true → e.inform = none
  | .removePath pathid _ => ∀ e ∈ s.outboundMessageQueues[pathid]?.getD [], e.inform = none
  | _ => True

theorem Books.step (books : Books [] s c) (moves : s.step order event = some t) : Books [] t c := by
  cases event with
  | queueMessage remote msg informed view =>
    cases moves
    rcases moved_queueMessage (s := s) with failed | ⟨e, inform, moved⟩
    · rw [failed]
      exact books.failed
    · exact moved.books (books.called inform)
  | pump now =>
    cases moves
    exact (moved_pump now).books books
  | removePath pathid now =>
    cases moves
    exact (moved_removePath pathid now).books books
  | onSessionResult router result =>
    cases moves
    exact (moved_onSessionResult router result).books books
  | delivered entry success =>
    rw [step, Option.ite_none_right_eq_some] at moves
    obtain ⟨given, result⟩ := moves
    cases result
    exact books.delivered given success

/-- In the books' terms: an operation leaves no accepted message missing exactly when it
keeps those with callbacks. -/
theorem complete_step_iff (books : ∀ c, Books [] s c) (complete : ∀ c, Complete [] s c) :
    (∀ t, s.step order event = some t → ∀ c, Complete [] t c) ↔ s.Keeps event := by
  cases event with
  | queueMessage remote msg informed view =>
    refine iff_of_true ?_ trivial
    rintro t moves
    cases moves
    rcases moved_queueMessage with failed | ⟨e, inform, moved⟩
    · rw [failed]
      intro c known
      exact complete c (by rwa [called, if_neg Bool.false_ne_true, List.append_nil] at known)
    · refine (moved.complete_iff (fun c => (books c).called inform) fun c known => ?_).mpr (by simp)
      have before := complete c
      have accepted : (s.called informed true).accepted.count c =
          s.accepted.count c + amount c [e] := by
        rw [amount_singleton, inform]
        exact List.count_append
      rw [Complete, amount_nil] at before
      show 0 < s.told.count c + (amount c [e] + amount c s.waiting + amount c s.handed)
      omega
  | pump now =>
    have moved : Moved [] s (s.pump order now) _ := moved_pump now
    simp only [step, Option.some.injEq, forall_eq']
    rw [moved.complete_iff books complete, Keeps]
    simp only [List.mem_filter, and_imp]
  | removePath pathid now =>
    simp only [step, Option.some.injEq, forall_eq']
    exact (moved_removePath pathid now).complete_iff books complete
  | onSessionResult router result =>
    refine iff_of_true ?_ trivial
    rintro t moves
    cases moves
    exact ((moved_onSessionResult router result).complete_iff books complete).mpr (by simp)
  | delivered entry success =>
    refine iff_of_true ?_ trivial
    rintro t moves
    rw [step, Option.ite_none_right_eq_some] at moves
    cases moves.2
    intro c known
    have held := complete c known
    rw [delivered, told_doCallback, List.count_append]
    show 0 < _ + (amount c [] + amount c s.waiting + amount c s.handed)
    omega

theorem books_init (maxQueueSize : ℕ) (c : ℕ) : Books [] (init maxQueueSize) c := by
  have nothing : (init maxQueueSize).waiting = [] := by
    rfl
  have empty : amount c (init maxQueueSize).waiting = 0 := by rw [nothing, amount_nil]
  refine ⟨?_, ?_, .inr rfl, fun _ => ⟨rfl, rfl⟩⟩
  · rw [empty]
    exact Nat.zero_le 1
  · rw [empty]
    exact le_rfl

/-- In every run a message with a callback is in one place at most, and it does not wait there once
the callback is scheduled. -/
theorem always_books (order : MessageOrder) (maxQueueSize : ℕ) (events : List HandlerEvent) :
    Always (step order) (fun s => ∀ c, Books [] s c) (init maxQueueSize) events :=
  fun _ _ _ => run_invariant_of_forall (fun s => ∀ c, Books [] s c)
    (fun _ _ _ books moves c => (books c).step moves) (books_init maxQueueSize)

/-- In a run of the handler every accepted message stays accounted for exactly when no
operation of the run loses a message with a callback. -/
theorem always_accounted_iff_keeps (order : MessageOrder) (maxQueueSize : ℕ)
    (events : List HandlerEvent) :
    Always (step order) Accounted (init maxQueueSize) events ↔
      Along (step order) Keeps (init maxQueueSize) events := by
  refine always_iff_along (fun s => ∀ c, Books [] s c) ?_ ?_ (books_init maxQueueSize) ?_
  · intro s _ t books _ _ moves c
    exact (books c).step moves
  · intro s _ books accounted
    rw [← complete_step_iff books ((accounted_iff books).mp accounted)]
    refine forall_congr' fun t => forall_congr' fun moves => ?_
    exact accounted_iff fun c => (books c).step moves
  · exact fun c member => absurd member List.not_mem_nil

/-- A message on a path, to a router that there is a session with. -/
def pathMessage (priority : UInt16) : HandlerEvent :=
  .queueMessage (AlignedBuffer.zero 32)
    { pathid := AlignedBuffer.copy 16 [1], priority, encoding := some [0] } true
    { sessionIsClient := some false, sessionIsAllowed := true, hasSession := true }

/-- A path is removed while a message for it is in the outbound queue, and a path is removed
while a message is in its queue, where one pump left it behind. In both runs the message is
gone and its callback was not scheduled. -/
theorem removed_path_loses_callback :
    (∃ s, run (step (Heap.oldest _)) (init 1000)
        [pathMessage 0, .removePath (AlignedBuffer.copy 16 [1]) 1000, .pump 1001] = some s ∧
      0 ∈ s.accepted ∧ 0 ∉ s.told ∧ 0 ∉ callbacks s.waiting ∧ 0 ∉ callbacks s.handed) ∧
    ∃ s, run (step (Heap.oldest _)) (init 1000)
        [pathMessage 0, pathMessage 1, .pump 1000,
          .removePath (AlignedBuffer.copy 16 [1]) 1001] = some s ∧
      1 ∈ s.accepted ∧ 1 ∉ s.told ∧ 1 ∉ callbacks s.waiting ∧ 1 ∉ callbacks s.handed := by
  decide +kernel

end Llarp.OutboundMessageHandler

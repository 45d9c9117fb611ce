import Llarp.Iwp.Sender.Steps

/-!
# Completion handlers

Handlers are told of a success only by `handleACKS` and `handleMACK`, and only for
messages that somebody waits for.
-/

namespace Llarp.Iwp.Transmitter

open Foundation Option

variable {H : Type} {shorthash : List UInt8 → ShortHash} {now : ℕ} {t t' t'' : Transmitter H}
  {txid : UInt64} {m : OutboundMessage H} {p : Plaintext} {P : UInt64 → Message → Prop}

/-- The step calls handlers, and those it tells of a success belong to messages with `P`. -/
def Reports (P : UInt64 → Message → Prop) (t t' : Transmitter H) : Prop :=
  ∃ called, t'.outcomes = t.outcomes ++ called ∧
    ∀ o ∈ called, o.status = .success → ∃ k, o.id = some k ∧ P k o.message

namespace Reports

theorem of_eq (same : t'.outcomes = t.outcomes) : Reports P t t' :=
  ⟨[], by rw [same, List.append_nil], fun _ ho => absurd ho List.not_mem_nil⟩

theorem of_dropped (called : List (Outcome H)) (outcomes : t'.outcomes = t.outcomes ++ called)
    (dropped : ∀ o ∈ called, o.status = .dropped) : Reports P t t' := by
  refine ⟨called, outcomes, fun o ho success => ?_⟩
  rw [dropped o ho] at success
  cases success

end Reports

theorem eq_of_mem_outcome {o : Outcome H} {status : DeliveryStatus}
    (ho : o ∈ m.outcome txid status) :
    m.completed ≠ none ∧ o.status = status ∧ o.id = some txid ∧ o.message = m.data := by
  rw [OutboundMessage.outcome, mem_toList, map_eq_some_iff] at ho
  obtain ⟨handler, waits, rfl⟩ := ho
  refine ⟨?_, rfl, rfl, rfl⟩
  rw [waits]
  exact some_ne_none handler

/-- The packet acknowledges the whole of a message. -/
def Completes : Plaintext → UInt64 → OutboundMessage H → Prop
  | .acks id bitmask, txid, m => txid = id ∧ (m.ack bitmask).isTransmitted = some true
  | .mack ids, txid, _ => txid ∈ ids
  | _, _, _ => False

/-- The handlers of these messages are called, and no others, and told of a success. -/
def Calls (t t' : Transmitter H) (acked : UInt64 → OutboundMessage H → Prop) : Prop :=
  ∃ called, t'.outcomes = t.outcomes ++ called ∧ ∀ o, o ∈ called ↔
    ∃ txid m, t.txMsgs[txid]? = some m ∧ acked txid m ∧ o ∈ m.outcome txid .success

theorem Calls.of_eq {acked : UInt64 → OutboundMessage H → Prop} (same : t'.outcomes = t.outcomes)
    (nothing : ∀ txid m, t.txMsgs[txid]? = some m → ¬ acked txid m) : Calls t t' acked := by
  refine ⟨[], by rw [same, List.append_nil], fun o => iff_of_false List.not_mem_nil ?_⟩
  rintro ⟨txid, m, found, acked, -⟩
  exact nothing txid m found acked

theorem calls_handleACKS {bitmask : UInt8} :
    Calls t (t.handleACKS now txid bitmask) (Completes (.acks txid bitmask)) := by
  unfold handleACKS
  cases found : t.txMsgs[txid]? with
  | none =>
    refine .of_eq rfl ?_
    rintro k m found' ⟨rfl, -⟩
    cases found.symm.trans found'
  | some m =>
    dsimp only
    split_ifs with transmitted
    · refine ⟨m.outcome txid .success, rfl, fun o => ⟨fun ho => ?_, ?_⟩⟩
      · exact ⟨txid, m, found, ⟨rfl, transmitted⟩, ho⟩
      · rintro ⟨k, m', found', ⟨rfl, -⟩, ho⟩
        rwa [some.inj (found.symm.trans found')]
    · refine .of_eq rfl ?_
      rintro k m' found' ⟨rfl, done⟩
      exact transmitted (some.inj (found.symm.trans found') ▸ done)

theorem calls_handleAcked (t : Transmitter H) (txid : UInt64) :
    Calls t (t.handleAcked txid) fun k _ => k = txid := by
  unfold handleAcked
  cases found : t.txMsgs[txid]? with
  | none =>
    refine .of_eq rfl ?_
    rintro k m found' rfl
    cases found.symm.trans found'
  | some m =>
    refine ⟨m.outcome txid .success, rfl, fun o => ⟨fun ho => ⟨txid, m, found, rfl, ho⟩, ?_⟩⟩
    rintro ⟨k, m', found', rfl, ho⟩
    rwa [some.inj (found.symm.trans found')]

-- An id that is named twice is found only once, but its handler is called then.
theorem calls_handleMACK {ids : List UInt64} :
    Calls t (t.handleMACK ids) (Completes (.mack ids)) := by
  induction ids generalizing t with
  | nil => exact .of_eq rfl nofun
  | cons txid ids ih =>
    obtain ⟨called, outcomes, exactly⟩ := calls_handleAcked t txid
    obtain ⟨called', outcomes', exactly'⟩ := ih (t := t.handleAcked txid)
    refine ⟨called ++ called', ?_, fun o => ?_⟩
    · change ((t.handleAcked txid).handleMACK ids).outcomes = _
      rw [outcomes', outcomes, List.append_assoc]
    rw [List.mem_append, exactly, exactly']
    constructor
    · rintro (⟨k, m, found, rfl, ho⟩ | ⟨k, m, found, named, ho⟩)
      · exact ⟨k, m, found, List.mem_cons_self, ho⟩
      · exact ⟨k, m, removes_handleAcked.entries k m found, List.mem_cons_of_mem _ named, ho⟩
    · rintro ⟨k, m, found, named, ho⟩
      by_cases same : k = txid
      · exact .inl ⟨k, m, found, same, ho⟩
      · exact .inr ⟨k, m, (handleAcked_entries_of_ne same).trans found,
          (List.mem_cons.mp named).resolve_left same, ho⟩

theorem calls_handle (t : Transmitter H) (now : ℕ) (p : Plaintext) :
    Calls t (t.handle now p) (Completes p) := by
  cases p with
  | acks txid bitmask => exact calls_handleACKS
  | mack ids => exact calls_handleMACK
  | nack txid =>
    refine .of_eq ?_ fun _ _ _ => id
    change (t.handleNACK txid).outcomes = t.outcomes
    unfold handleNACK
    cases t.txMsgs[txid]? with
    | none => rfl
    | some m => rfl
  | _ => exact .of_eq rfl fun _ _ _ => id

theorem reports_handle (good : ∀ txid m, t.Awaited txid m → Completes p txid m → P txid m.data) :
    Reports P t (t.handle now p) := by
  obtain ⟨called, outcomes, exactly⟩ := calls_handle t now p
  refine ⟨called, outcomes, fun o ho _ => ?_⟩
  obtain ⟨txid, m, found, acked, ho⟩ := (exactly o).mp ho
  obtain ⟨waits, -, id, message⟩ := eq_of_mem_outcome ho
  rw [message]
  exact ⟨txid, id, good txid m ⟨found, waits⟩ acked⟩

/-- A message that is refused is dropped. -/
theorem outcomes_sendMessageBuffer (now : ℕ) (buf : Message) (completed : Option H)
    (priority : UInt16) :
    ∃ called, (t.sendMessageBuffer now buf completed priority).1.outcomes = t.outcomes ++ called ∧
      ∀ o ∈ called, o.status = .dropped ∧ completed = some o.handler ∧
        maxSendQueueSize ≤ t.txMsgs.size := by
  unfold sendMessageBuffer
  split_ifs with full
  · refine ⟨_, rfl, fun o ho => ?_⟩
    rw [mem_toList, map_eq_some_iff] at ho
    obtain ⟨handler, waits, rfl⟩ := ho
    exact ⟨rfl, waits, full⟩
  · exact ⟨[], (List.append_nil _).symm, fun o ho => absurd ho List.not_mem_nil⟩

/-- So is a message that times out. -/
theorem outcomes_tick (now : ℕ) :
    ∃ called, (t.tick now).outcomes = t.outcomes ++ called ∧
      ∀ o ∈ called, o.status = .dropped ∧ ∃ entry ∈ t.txMsgs.toList,
        entry.2.isTimedOut now = true ∧ entry.2.completed = some o.handler := by
  refine ⟨_, rfl, fun o ho => ?_⟩
  obtain ⟨entry, expired, ho⟩ := List.mem_flatMap.mp ho
  obtain ⟨stored, late⟩ := List.mem_filter.mp expired
  rw [OutboundMessage.outcome, mem_toList, map_eq_some_iff] at ho
  obtain ⟨handler, waits, rfl⟩ := ho
  exact ⟨rfl, entry, stored, late, waits⟩

theorem reports_sendMessageBuffer (buf : Message) (completed : Option H) (priority : UInt16) :
    Reports P t (t.sendMessageBuffer now buf completed priority).1 := by
  obtain ⟨called, outcomes, dropped⟩ :=
    outcomes_sendMessageBuffer (t := t) now buf completed priority
  exact .of_dropped called outcomes fun o ho => (dropped o ho).1

theorem reports_recvHashed (job : ℕ) : Reports P t (t.recvHashed shorthash now job) := by
  unfold recvHashed
  cases t.hashing[job]? with
  | none => exact .of_eq rfl
  | some m => exact .of_eq rfl

theorem reports_tick : Reports P t (t.tick now) := by
  obtain ⟨called, outcomes, dropped⟩ := outcomes_tick (t := t) now
  exact .of_dropped called outcomes fun o ho => (dropped o ho).1

/-! ### Which handlers a packet calls -/

/-- The packet acknowledges the whole of a message with this handler. -/
def Answers (t : Transmitter H) (p : Plaintext) (handler : H) : Prop :=
  match p with
  | .acks txid bitmask => ∃ m, t.txMsgs[txid]? = some m ∧ m.completed = some handler ∧
    (m.ack bitmask).isTransmitted = some true
  | .mack ids => ∃ txid ∈ ids, ∃ m, t.txMsgs[txid]? = some m ∧ m.completed = some handler
  | _ => False

instance decidableAnswers [DecidableEq H] (t : Transmitter H) (p : Plaintext) (handler : H) :
    Decidable (t.Answers p handler) := by
  unfold Answers
  split
  · infer_instance
  · infer_instance
  · infer_instance

/-- The step calls the handlers with `Q` and no others, and tells them of a success. -/
def Succeeds (Q : H → Prop) (t t' : Transmitter H) : Prop :=
  ∃ called, t'.outcomes = t.outcomes ++ called ∧ (∀ o ∈ called, o.status = .success) ∧
    ∀ handler, (∃ o ∈ called, o.handler = handler) ↔ Q handler

/-- Every handler that a packet calls is told of a success. -/
theorem succeeds_handle (t : Transmitter H) (now : ℕ) (p : Plaintext) :
    Succeeds (t.Answers p) t (t.handle now p) := by
  obtain ⟨called, outcomes, exactly⟩ := calls_handle t now p
  have handlers (txid : UInt64) (m : OutboundMessage H) (handler : H) :
      (∃ o ∈ m.outcome txid .success, o.handler = handler) ↔ m.completed = some handler := by
    cases waits : m.completed with
    | none => simp [OutboundMessage.outcome, waits]
    | some h => simp [OutboundMessage.outcome, waits]
  refine ⟨called, outcomes, fun o ho => ?_, fun handler => ?_⟩
  · obtain ⟨txid, m, -, -, ho⟩ := (exactly o).mp ho
    exact (eq_of_mem_outcome ho).2.1
  · have all : (∃ o ∈ called, o.handler = handler) ↔
        ∃ txid m, t.txMsgs[txid]? = some m ∧ Completes p txid m ∧ m.completed = some handler := by
      constructor
      · rintro ⟨o, ho, rfl⟩
        obtain ⟨txid, m, found, acked, ho⟩ := (exactly o).mp ho
        exact ⟨txid, m, found, acked, (handlers txid m _).mp ⟨o, ho, rfl⟩⟩
      · rintro ⟨txid, m, found, acked, waits⟩
        obtain ⟨o, ho, same⟩ := (handlers txid m handler).mpr waits
        exact ⟨o, (exactly o).mpr ⟨txid, m, found, acked, ho⟩, same⟩
    rw [all]
    cases p with
    | acks | mack => grind [Answers, Completes]
    | _ => simp [Answers, Completes]

end Llarp.Iwp.Transmitter

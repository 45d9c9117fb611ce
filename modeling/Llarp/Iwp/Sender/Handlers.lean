import Llarp.Iwp.Sender.Outstanding

/-!
# Completion handlers

Every handler is either waiting in the map of sent messages or was called, and never both.
A copy of a message that travels through the hasher takes its handler along, but what comes
back is only used for its id and its digest.
-/

namespace Llarp.Iwp.Sending

open Foundation Transmitter List

variable {H : Type} {shorthash : List UInt8 → ShortHash} {s : Sending H} {now : ℕ}
  {t t' t'' : Transmitter (ℕ × H)} {m m' : OutboundMessage (ℕ × H)} {txid : UInt64} {i : ℕ}

/-- The call that the handler of a message was passed to. -/
def callOf (m : OutboundMessage (ℕ × H)) : Option ℕ := m.completed.map Prod.fst

/-- The calls whose handlers wait in the map. -/
def waiting (t : Transmitter (ℕ × H)) : List ℕ := collect callOf t.txMsgs

/-- The calls whose handlers were called, in order. -/
def called (t : Transmitter (ℕ × H)) : List ℕ := t.outcomes.map (·.handler.1)

/-- The message of this call was put into the map, and its entry is not there any more. -/
def Left (s : Sending H) (i : ℕ) : Prop :=
  i ∈ s.inserted ∧ ∀ (k : UInt64) m, s.tx.txMsgs[k]? = some m → callOf m ≠ some i

/-- No handler was called twice, and those of messages that were refused or whose entry is
gone were called. -/
def CalledOnce (s : Sending H) : Prop :=
  ∀ i, (called s.tx).count i ≤ 1 ∧ (i ∈ s.refused ∨ s.Left i → (called s.tx).count i = 1)

/-- The handlers that are called wait no more, and the others wait on. -/
def Settles (t t' : Transmitter (ℕ × H)) : Prop :=
  ∃ done, called t' = called t ++ done ∧ (done ++ waiting t').Perm (waiting t)

namespace Settles

theorem of_perm (outcomes : t'.outcomes = t.outcomes) (same : (waiting t').Perm (waiting t)) :
    Settles t t' :=
  ⟨[], by rw [called, outcomes, append_nil, called], same⟩

theorem refl (t : Transmitter (ℕ × H)) : Settles t t := of_perm rfl (.refl _)

theorem trans (first : Settles t t') (second : Settles t' t'') : Settles t t'' := by
  obtain ⟨done, calls, waits⟩ := first
  obtain ⟨done', calls', waits'⟩ := second
  refine ⟨done ++ done', by rw [calls', calls, append_assoc], ?_⟩
  rw [append_assoc]
  exact (waits'.append_left done).trans waits

end Settles

/-! ### Steps -/

theorem callOf_outcome (m : OutboundMessage (ℕ × H)) (id : UInt64) (status : DeliveryStatus) :
    (m.outcome id status).map (·.handler.1) = (callOf m).toList := by
  unfold OutboundMessage.outcome callOf
  cases m.completed with
  | none => rfl
  | some handler => rfl

theorem settles_complete (found : t.txMsgs[txid]? = some m) (same : m'.completed = m.completed) :
    Settles t (t.complete txid m') := by
  refine ⟨(callOf m').toList, ?_, ?_⟩
  · rw [called, complete_outcomes, map_append, callOf_outcome]
    rfl
  · have tags : callOf m' = callOf m := by rw [callOf, callOf, same]
    rw [tags]
    exact (collect_erase found).symm

theorem settles_handleACKS (now : ℕ) (txid : UInt64) (bitmask : UInt8) :
    Settles t (t.handleACKS now txid bitmask) := by
  unfold handleACKS
  cases found : t.txMsgs[txid]? with
  | none => exact .refl t
  | some m =>
    dsimp only
    split_ifs
    · exact settles_complete found rfl
    · exact .of_perm rfl (collect_insert_of_eq found rfl)

theorem settles_handleAcked (txid : UInt64) : Settles t (t.handleAcked txid) := by
  unfold handleAcked
  cases found : t.txMsgs[txid]? with
  | none => exact .refl t
  | some m => exact settles_complete found rfl

theorem settles_handleMACK (acked : List UInt64) : Settles t (t.handleMACK acked) := by
  induction acked generalizing t with
  | nil => exact .refl t
  | cons txid acked ih => exact (settles_handleAcked txid).trans ih

theorem settles_handleNACK (txid : UInt64) : Settles t (t.handleNACK txid) := by
  unfold handleNACK
  cases t.txMsgs[txid]? with
  | none => exact .refl t
  | some m => exact .of_perm rfl (.refl _)

theorem settles_pump (now : ℕ) : Settles t (t.pump now) := by
  refine .of_perm rfl (.of_eq ?_)
  rw [waiting, collect, pump, Std.ExtTreeMap.toList_map,
    filterMap_map]
  congr 1
  funext entry
  -- flushing a message leaves its handler alone
  simp only [Function.comp_apply]
  split_ifs <;> rfl

/-- The handlers of messages that time out are called, and no others. -/
theorem settles_tick (now : ℕ) : Settles t (t.tick now) := by
  let late : UInt64 × OutboundMessage (ℕ × H) → Bool := fun entry => entry.2.isTimedOut now
  refine ⟨(t.txMsgs.toList.filter late).filterMap fun entry => callOf entry.2, ?_, ?_⟩
  · rw [called, tick, map_append, map_flatMap, filterMap_eq_flatMap_toList]
    simp only [callOf_outcome]
    rfl
  · rw [waiting, collect, tick, Std.ExtTreeMap.toList_filter, ← filterMap_append]
    exact (filter_append_perm late t.txMsgs.toList).filterMap _

theorem settles_triggerHashGen : Settles t t.triggerHashGen :=
  .of_perm rfl (collect_touchAll rfl _)

theorem settles_recvHashed (job : ℕ) : Settles t (t.recvHashed shorthash now job) := by
  unfold recvHashed
  cases t.hashing[job]? with
  | none => exact .refl t
  | some copy =>
    refine .of_perm rfl ?_
    simp only [handleGeneratedHash, waiting]
    cases found : t.txMsgs[copy.msgID]? with
    | some m =>
      -- the entry keeps its handler
      refine collect_insert_of_eq found ?_
      split_ifs <;> rfl
    | none =>
      -- the entry that is made has none
      refine (collect_insert_of_getElem? found).trans (.of_eq ?_)
      split_ifs <;> rfl

/-! ### Runs -/

/-- The handlers that were called or wait are those of the messages that were refused or put
into the map, each of them once. -/
structure Conserved (s : Sending H) : Prop where
  once : (called s.tx ++ waiting s.tx).Perm (s.refused ++ s.inserted)
  nodup : (s.refused ++ s.inserted).Nodup
  past : ∀ i ∈ s.refused ++ s.inserted, i < s.calls
  told : ∀ i ∈ s.refused, i ∈ called s.tx

theorem conserved_empty : (empty : Sending H).Conserved where
  once := .refl _
  nodup := nodup_nil
  past _ mem := nomatch mem
  told _ mem := nomatch mem

section

variable (conserved : s.Conserved)

include conserved

theorem Conserved.follow (settles : Settles s.tx t) :
    (s.follow t).Conserved := by
  obtain ⟨done, calls, waits⟩ := settles
  refine ⟨?_, conserved.nodup, conserved.past, fun i refused => ?_⟩
  · refine List.Perm.trans ?_ conserved.once
    change (called t ++ waiting t).Perm _
    rw [calls, append_assoc]
    exact waits.append_left _
  · change i ∈ called t
    rw [calls]
    exact mem_append_left _ (conserved.told i refused)

/-- One more call, with a handler or without. -/
theorem Conserved.next {s' : Sending H} {this : Option ℕ}
    (number : ∀ i ∈ this, i = s.calls) (calls : s'.calls = s.calls + 1)
    (moved : (called s'.tx ++ waiting s'.tx).Perm (this.toList ++ (called s.tx ++ waiting s.tx)))
    (settled : (s'.refused ++ s'.inserted).Perm (this.toList ++ (s.refused ++ s.inserted)))
    (told : ∀ i ∈ s'.refused, i ∈ called s'.tx) : s'.Conserved where
  once := (moved.trans (conserved.once.append_left _)).trans settled.symm
  nodup := by
    rw [settled.nodup_iff]
    cases this with
    | none => exact conserved.nodup
    | some j =>
      refine nodup_cons.mpr ⟨fun old => ?_, conserved.nodup⟩
      rw [number j rfl] at old
      exact Nat.lt_irrefl _ (conserved.past _ old)
  past i mem := by
    rw [calls]
    rcases mem_append.mp (settled.mem_iff.mp mem) with new | old
    · rw [number i (Option.mem_toList.mp new)]
      exact Nat.lt_succ_self _
    · exact Nat.lt_succ_of_lt (conserved.past i old)
  told := told

theorem Conserved.sendMessageBuffer (buf : Message)
    (completed : Option H) (priority : UInt16) :
    (s.sendMessageBuffer now buf completed priority).Conserved := by
  let tagged : Option (ℕ × H) := completed.map fun handler => (s.calls, handler)
  have number : ∀ i ∈ tagged.map Prod.fst, i = s.calls := by
    intro i mem
    cases completed with
    | none => cases mem
    | some handler => exact (Option.some.inj mem).symm
  have nothing : ∀ i ∈ (none : Option ℕ), i = s.calls := nofun
  unfold Sending.sendMessageBuffer Transmitter.sendMessageBuffer
  by_cases full : maxSendQueueSize ≤ s.tx.txMsgs.size
  · -- the handler is called at once
    have calls : called { s.tx with outcomes := s.tx.outcomes ++
        (tagged.map fun handler => ⟨handler, .dropped, none, buf⟩).toList } =
        called s.tx ++ (tagged.map Prod.fst).toList := by
      rw [called, map_append]
      cases completed with
      | none => rfl
      | some handler => rfl
    simp only [if_pos full]
    refine conserved.next number rfl ?_ ?_ fun i mem => ?_
    · change (called _ ++ waiting s.tx).Perm _
      rw [calls, append_assoc]
      exact perm_append_comm_assoc _ _ _
    · change ((s.refused ++ _) ++ s.inserted).Perm _
      rw [append_assoc]
      exact perm_append_comm_assoc _ _ _
    · rw [calls]
      exact (mem_append.mp mem).elim (fun old => mem_append_left _ (conserved.told i old))
        (mem_append_right _)
  · simp only [if_neg full]
    by_cases known : s.tx.txID ∈ s.tx.txMsgs
    · -- the counter has come round to a message that is still there
      obtain ⟨old, found⟩ := mem_iff_exists_getElem?.mp known
      simp only [insertIfNew_eq_self found, known, decide_true, Bool.not_true, Bool.and_false,
        Bool.false_eq_true, if_false, if_true]
      exact conserved.next nothing rfl (.refl _) (.refl _) conserved.told
    · have absent := not_mem_iff_getElem?.mp known
      simp only [insertIfNew_eq_insert absent, known, decide_false, Bool.not_false, Bool.and_true,
        if_true]
      refine conserved.next number rfl ?_ ?_ conserved.told
      · exact ((collect_insert_of_getElem? absent).append_left (called s.tx)).trans
          (perm_append_comm_assoc _ _ _)
      · change (s.refused ++ (s.inserted ++ _)).Perm _
        rw [← append_assoc]
        exact perm_append_comm

theorem Conserved.step (at_ : ℕ × Event H) :
    (s.step shorthash at_).Conserved := by
  obtain ⟨now, event⟩ := at_
  cases event with
  | sendMessageBuffer buf completed priority =>
    exact conserved.sendMessageBuffer buf completed priority
  | triggerHashGen => exact conserved.follow settles_triggerHashGen
  | recvHashed job => exact conserved.follow (settles_recvHashed job)
  | handleACKS txid bitmask => exact conserved.follow (settles_handleACKS now txid bitmask)
  | handleMACK acked => exact conserved.follow (settles_handleMACK acked)
  | handleNACK txid => exact conserved.follow (settles_handleNACK txid)
  | pump => exact conserved.follow (settles_pump now)
  | tick => exact conserved.follow (settles_tick now)

theorem Conserved.calledOnce : s.CalledOnce := by
  have nodup : (called s.tx ++ waiting s.tx).Nodup := conserved.once.nodup_iff.mpr conserved.nodup
  intro i
  refine ⟨nodup_iff_count_le_one.mp (List.Nodup.of_append_left nodup) i, ?_⟩
  intro gone
  refine count_eq_one_of_mem (List.Nodup.of_append_left nodup) ?_
  rcases gone with refused | ⟨inserted, left⟩
  · exact conserved.told i refused
  · have somewhere := conserved.once.mem_iff.mpr (mem_append_right s.refused inserted)
    refine (mem_append.mp somewhere).resolve_right fun waits => ?_
    obtain ⟨⟨k, m⟩, stored, tag⟩ := mem_filterMap.mp waits
    exact left k m (Std.ExtTreeMap.mem_toList_iff_getElem?_eq_some.mp stored) tag

end

/-- After any run of the sending half no handler was called twice, and those of messages that
were refused or whose entry is gone were called. -/
theorem calledOnce_run (shorthash : List UInt8 → ShortHash) (events : List (ℕ × Event H)) :
    (events.foldl (Sending.step shorthash) empty).CalledOnce := by
  apply Conserved.calledOnce
  induction events using reverseRecOn with
  | nil => exact conserved_empty
  | append_singleton events at_ ih =>
    rw [foldl_append]
    exact ih.step at_

end Llarp.Iwp.Sending

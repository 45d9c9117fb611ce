import Llarp.Iwp.Sender.Invariant

/-!
# The steps of the sending half

Most steps only send packets of messages again or remove messages. A message that is accepted gets
an id that was never used. Copies of messages travel to the hasher and come back with their digest,
and both ends read the map with an operator that creates entries.
-/

namespace Llarp.Iwp.Transmitter

open Foundation OutboundMessage

variable {H : Type} {shorthash : List UInt8 → ShortHash} {now : ℕ} {t t' t'' : Transmitter H}
  {k txid : UInt64} {m job : OutboundMessage H} {p : Plaintext}

/-! ### Retransmission and removal -/

/-- A step that keeps ids and hash jobs, changes messages only in their acknowledgements, and sends
packets of messages that were sent before or have a digest. -/
theorem Evolves.of_old (sound : t.Sound shorthash now)
    (same : t'.txID = t.txID ∧ t'.toHash = t.toHash ∧ t'.hashing = t.hashing)
    (entries : ∀ (k : UInt64) m', t'.txMsgs[k]? = some m' →
      ∃ m, t.txMsgs[k]? = some m ∧ m'.SameMessage m)
    (present : ∀ first, t'.Awaited 0 first → t.Pristine first.startedAt →
      ∀ k ∈ t.pending, k ∈ t.txMsgs → k ∈ t'.txMsgs)
    {packets : List Plaintext} (sent : t'.sent = t.sent ++ packets)
    (ready : ∀ p ∈ packets, ∃ (k : UInt64) (m' : OutboundMessage H), t'.txMsgs[k]? = some m' ∧
      m'.Sends p ∧ (t.Touched k ∨ m'.digest.isZero = false)) :
    Evolves shorthash now t t' none := by
  obtain ⟨txID_eq, toHash_eq, hashing_eq⟩ := same
  have pending_eq : t'.pending = t.pending := by rw [pending, pending, toHash_eq, hashing_eq]
  have origin (k : UInt64) (m') (found : t'.txMsgs[k]? = some m') :
      Origin shorthash now t t' none k m' := by
    obtain ⟨m, found₀, same⟩ := entries k m' found
    exact .old m found₀ { same with digest_eq := rfl } (.inl same.digest_eq)
  constructor
  case txID_le => exact txID_eq ▸ UInt64.le_refl _
  case origin => exact origin
  case got_mem => rintro _ ⟨⟩
  case toHash => exact fun k queued => .inl (toHash_eq ▸ queued)
  case hashing => exact fun job hjob => .inl (hashing_eq ▸ hjob)
  case present =>
    intro first awaited k waiting known
    have before : t.Pristine first.startedAt := by
      obtain ⟨m, found, same⟩ := entries 0 first awaited.1
      rw [same.startedAt_eq]
      exact sound.pristine m ⟨found, same.completed_eq ▸ awaited.2⟩
    rw [pending_eq] at waiting
    refine present first awaited before k waiting (known.resolve_right fun fresh => ?_)
    exact UInt64.not_lt.mpr fresh.1 (txID_eq ▸ fresh.2)
  case once =>
    intro _ _ once
    rw [pending_eq]
    exact ⟨once, by rintro _ ⟨⟩⟩
  case sent_mono =>
    rw [sent]
    exact fun p => List.mem_append_left _
  case packets =>
    intro p hp
    rw [sent] at hp
    refine (List.mem_append.mp hp).imp_right fun new => ?_
    obtain ⟨k, m', found, sends, ready⟩ := ready p new
    exact ⟨k, m', found, sends, ready.imp_right .inl⟩

/-- The step removes messages and does nothing else to them. -/
structure Removes (t t' : Transmitter H) : Prop where
  same : t'.txID = t.txID ∧ t'.toHash = t.toHash ∧ t'.hashing = t.hashing
  sent_eq : t'.sent = t.sent
  entries : ∀ (k : UInt64) m, t'.txMsgs[k]? = some m → t.txMsgs[k]? = some m

namespace Removes

theorem refl (t : Transmitter H) : Removes t t := ⟨⟨rfl, rfl, rfl⟩, rfl, fun _ _ => id⟩

theorem trans (first : Removes t t') (second : Removes t' t'') : Removes t t'' where
  same := ⟨second.same.1.trans first.same.1, second.same.2.1.trans first.same.2.1,
    second.same.2.2.trans first.same.2.2⟩
  sent_eq := second.sent_eq.trans first.sent_eq
  entries k m found := first.entries k m (second.entries k m found)

theorem evolves (removes : Removes t t') (sound : t.Sound shorthash now)
    (present : ∀ first, t'.Awaited 0 first → t.Pristine first.startedAt →
      ∀ k ∈ t.pending, k ∈ t.txMsgs → k ∈ t'.txMsgs) : Evolves shorthash now t t' none :=
  .of_old sound removes.same (fun k m found => ⟨m, removes.entries k m found, .refl m⟩) present
    (by rw [removes.sent_eq, List.append_nil]) (List.forall_mem_nil _)

end Removes

theorem removes_complete : Removes t (t.complete txid m) :=
  ⟨⟨rfl, rfl, rfl⟩, rfl, fun _ _ found => (getElem?_erase_eq_some.mp found).2⟩

theorem removes_handleAcked : Removes t (t.handleAcked txid) := by
  unfold handleAcked
  cases t.txMsgs[txid]? with
  | none => exact .refl t
  | some m => exact ⟨⟨rfl, rfl, rfl⟩, rfl, fun _ _ found => (getElem?_erase_eq_some.mp found).2⟩

theorem handleAcked_entries_of_ne (other : k ≠ txid) :
    (t.handleAcked txid).txMsgs[k]? = t.txMsgs[k]? := by
  unfold handleAcked
  cases t.txMsgs[txid]? with
  | none => rfl
  | some m => rw [complete_txMsgs, getElem?_erase, if_neg other.symm]

theorem removes_handleMACK (acked : List UInt64) : Removes t (t.handleMACK acked) := by
  induction acked generalizing t with
  | nil => exact .refl t
  | cons txid acked ih => exact removes_handleAcked.trans ih

theorem handleMACK_entries_of_not_mem {acked : List UInt64} (other : k ∉ acked) :
    (t.handleMACK acked).txMsgs[k]? = t.txMsgs[k]? := by
  induction acked generalizing t with
  | nil => rfl
  | cons txid acked ih =>
    rw [List.mem_cons, not_or] at other
    exact (ih other.2).trans (handleAcked_entries_of_ne other.1)

theorem removes_tick : Removes t (t.tick now) := by
  refine ⟨⟨rfl, rfl, rfl⟩, rfl, fun k m found => ?_⟩
  rw [tick, Std.ExtTreeMap.getElem?_filter'] at found
  exact (Option.filter_eq_some_iff.mp found).1

section

variable (sound : t.Sound shorthash now)

include sound

/-- While message 0 waits, a tick that does not drop it drops nothing. -/
theorem evolves_tick : Evolves shorthash now t (t.tick now) none := by
  refine removes_tick.evolves sound fun first awaited before k waiting known => ?_
  have fresh : first.isTimedOut now = false := by
    have found := awaited.1
    rw [tick, Std.ExtTreeMap.getElem?_filter'] at found
    simpa using (Option.filter_eq_some_iff.mp found).2
  obtain ⟨m, found⟩ := mem_iff_exists_getElem?.mp known
  have older := before.oldest k m found
  have kept : m.isTimedOut now = false := by
    simp only [isTimedOut, decide_eq_false_iff_not, not_and] at fresh ⊢
    omega
  refine mem_iff_exists_getElem?.mpr ⟨m, ?_⟩
  rw [tick, Std.ExtTreeMap.getElem?_filter', found]
  simp [kept]

theorem evolves_pump : Evolves shorthash now t (t.pump now) none := by
  have pumped {k : UInt64} {m : OutboundMessage H} (found : t.txMsgs[k]? = some m) :
      ∃ m', (t.pump now).txMsgs[k]? = some m' ∧ m'.SameMessage m := by
    rw [pump, Std.ExtTreeMap.getElem?_map, found]
    refine ⟨_, rfl, ?_⟩
    dsimp only
    split_ifs
    · exact ⟨rfl, rfl, rfl, rfl, rfl⟩
    · exact .refl m
  refine .of_old sound ⟨rfl, rfl, rfl⟩ (fun k m' found => ?_) (fun _ _ _ k _ known => ?_) rfl
    fun p hp => ?_
  · rw [pump, Std.ExtTreeMap.getElem?_map] at found
    obtain ⟨m, found₀, -⟩ := Option.map_eq_some_iff.mp found
    obtain ⟨m₁, found₁, same⟩ := pumped found₀
    rw [pump, Std.ExtTreeMap.getElem?_map] at found₁
    cases found.symm.trans found₁
    exact ⟨m, found₀, same⟩
  · rw [pump]
    simpa using known
  · obtain ⟨m, queued, hp⟩ := List.mem_flatMap.mp hp
    obtain ⟨stored, due⟩ := List.mem_filter.mp ((List.mem_insertionSort _).mp queued)
    obtain ⟨⟨k, m⟩, entry, rfl⟩ := List.mem_map.mp stored
    obtain ⟨m', found, same⟩ := pumped (Std.ExtTreeMap.mem_toList_iff_getElem?_eq_some.mp entry)
    have sends : m.Sends p := sends_of_mem_unAcked hp
    simp only [shouldFlush, Bool.and_eq_true, Bool.not_eq_true'] at due
    refine ⟨k, m', found, ?_, .inr (by rw [same.digest_eq, due.1])⟩
    rwa [OutboundMessage.Sends, same.msgID_eq, same.data_eq, same.digest_eq]

end

/-! ### Packets from the peer -/

section

variable (sound : t.Sound shorthash now)

include sound

theorem evolves_handleACKS (touched : t.Touched txid) (bitmask : UInt8) :
    Evolves shorthash now t (t.handleACKS now txid bitmask) none := by
  unfold handleACKS
  cases found : t.txMsgs[txid]? with
  | none => exact (Removes.refl t).evolves sound fun _ _ _ _ _ => id
  | some m =>
    dsimp only
    split_ifs
    · refine removes_complete.evolves sound fun _ _ before k waiting known => ?_
      have other : k ≠ txid := fun same => (before.waiting k waiting).1 (same ▸ touched)
      obtain ⟨m', found'⟩ := mem_iff_exists_getElem?.mp known
      exact mem_iff_exists_getElem?.mpr ⟨m', getElem?_erase_eq_some.mpr ⟨other, found'⟩⟩
    · refine .of_old sound ⟨rfl, rfl, rfl⟩ (fun k m' found' => ?_)
        (fun _ _ _ _ _ known => Std.ExtTreeMap.mem_insert.mpr (.inr known)) rfl fun p hp => ?_
      · rcases getElem?_insert_eq_some.mp found' with ⟨rfl, rfl⟩ | ⟨-, old⟩
        · exact ⟨m, found, rfl, rfl, rfl, rfl, rfl⟩
        · exact ⟨m', old, .refl m'⟩
      · have sends : (m.ack bitmask).Sends p := sends_of_mem_unAcked hp
        exact ⟨txid, _, getElem?_insert.trans (if_pos rfl), sends, .inl touched⟩

theorem evolves_handleNACK (touched : t.Touched txid) :
    Evolves shorthash now t (t.handleNACK txid) none := by
  unfold handleNACK
  cases found : t.txMsgs[txid]? with
  | none => exact (Removes.refl t).evolves sound fun _ _ _ _ _ => id
  | some m =>
    refine .of_old sound ⟨rfl, rfl, rfl⟩ (fun k m' found' => ⟨m', found', .refl m'⟩)
      (fun _ _ _ _ _ => id) rfl fun p hp => ?_
    obtain rfl := List.mem_singleton.mp hp
    exact ⟨txid, m, found, m.sends_xmit, .inl touched⟩

theorem evolves_handleMACK {acked : List UInt64} (touched : ∀ k ∈ acked, t.Touched k) :
    Evolves shorthash now t (t.handleMACK acked) none := by
  refine (removes_handleMACK acked).evolves sound fun _ _ before k waiting known => ?_
  have other : k ∉ acked := fun named => (before.waiting k waiting).1 (touched k named)
  obtain ⟨m, found⟩ := mem_iff_exists_getElem?.mp known
  exact mem_iff_exists_getElem?.mpr ⟨m, (handleMACK_entries_of_not_mem other).trans found⟩

/-- Packets from the peer, if they name ids that were touched. -/
theorem evolves_handle (touched : ∀ k ∈ p.ids, t.Touched k) :
    Evolves shorthash now t (t.handle now p) none := by
  cases p with
  | acks txid bitmask => exact evolves_handleACKS sound (touched txid List.mem_cons_self) bitmask
  | nack txid => exact evolves_handleNACK sound (touched txid List.mem_cons_self)
  | mack acked => exact evolves_handleMACK sound touched
  | _ => exact (Removes.refl t).evolves sound fun _ _ _ _ _ => id

end

/-! ### New messages -/

theorem nodup_pending_iff : t.pending.Nodup ↔
    (t.hashing.map (·.msgID)).Nodup ∧ ∀ job ∈ t.hashing, job.msgID ∉ t.toHash := by
  have queued : t.toHash.toList.Nodup := t.toHash.distinct_toList.imp fun different same =>
    different (Std.LawfulEqOrd.compare_eq_iff_eq.mpr same)
  simp [pending, List.nodup_append', queued, List.disjoint_left]

/-- A message that is not refused gets the next id. -/
theorem evolves_sendMessageBuffer (sound : t.Sound shorthash now) (room : t.txID.toNat + 1 < 2 ^ 64)
    (buf : Message) (completed : Option H) (priority : UInt16) :
    Evolves shorthash now t (t.sendMessageBuffer now buf completed priority).1 none := by
  have unused : t.txMsgs[t.txID]? = none :=
    not_mem_iff_getElem?.mp fun known => UInt64.lt_irrefl _ (sound.keys _ known)
  have succ : (t.txID + 1).toNat = t.txID.toNat + 1 := by
    rw [UInt64.toNat_add]
    simp only [UInt64.reduceToNat]
    omega
  have next : t.txID < t.txID + 1 := by
    rw [UInt64.lt_iff_toNat_lt, succ]
    omega
  unfold sendMessageBuffer
  split_ifs
  · exact .of_old sound ⟨rfl, rfl, rfl⟩ (fun k m found => ⟨m, found, .refl m⟩)
      (fun _ _ _ _ _ => id) (List.append_nil _).symm (List.forall_mem_nil _)
  rw [insertIfNew_eq_insert unused]
  have queued {k : UInt64} (h : k ∈ t.toHash.insert t.txID) : k = t.txID ∨ k ∈ t.toHash := by
    rw [Std.ExtTreeSet.mem_insert, Std.LawfulEqOrd.compare_eq_iff_eq] at h
    exact h.imp_left Eq.symm
  constructor
  case txID_le => exact UInt64.le_of_lt next
  case origin =>
    intro k m' found
    rcases getElem?_insert_eq_some.mp found with ⟨rfl, rfl⟩ | ⟨-, old⟩
    · exact .new (UInt64.le_refl _) next rfl rfl AlignedBuffer.isZero_zero
    · exact .old m' old (.refl m') (.inl rfl)
  case got_mem => exact nofun
  case toHash =>
    intro k h
    rcases queued h with rfl | old
    · exact .inr ⟨UInt64.le_refl _, next⟩
    · exact .inl old
  case hashing => exact fun job => .inl
  case present =>
    rintro _ _ k _ (known | ⟨fresh, below⟩)
    · exact Std.ExtTreeMap.mem_insert.mpr (.inr known)
    · rw [UInt64.le_iff_toNat_le] at fresh
      rw [UInt64.lt_iff_toNat_lt, succ] at below
      obtain rfl : t.txID = k := UInt64.toNat_inj.mp (by omega)
      exact Std.ExtTreeMap.mem_insert_self
  case once =>
    intro _ unused once
    obtain ⟨jobs, apart⟩ := nodup_pending_iff.mp once
    refine ⟨nodup_pending_iff.mpr ⟨jobs, fun job hjob h => ?_⟩, nofun⟩
    rcases queued h with new | old
    · exact unused (new ▸ List.mem_append_left _ (List.mem_map_of_mem hjob))
    · exact apart job hjob old
  case sent_mono => exact fun _ => id
  case packets => exact fun _ => .inl

/-! ### Hashing -/

theorem getElem?_triggerHashGen :
    t.triggerHashGen.txMsgs[k]? =
      if k ∈ t.toHash then some (t.txMsgs[k]?.getD .blank) else t.txMsgs[k]? := by
  rw [triggerHashGen, getElem?_touchAll]
  simp only [Std.ExtTreeSet.mem_toList]

/-- An entry after the call is an old one or was created for an id without one. -/
theorem entry_of_triggerHashGen (found : t.triggerHashGen.txMsgs[k]? = some m) :
    t.txMsgs[k]? = some m ∨ (t.txMsgs[k]? = none ∧ k ∈ t.toHash ∧ m = .blank) := by
  rw [getElem?_triggerHashGen] at found
  split_ifs at found with queued
  · cases old : t.txMsgs[k]? with
    | none =>
      rw [old] at found
      exact Or.inr ⟨rfl, queued, (Option.some.inj found).symm⟩
    | some m' =>
      rw [old] at found
      exact Or.inl found
  · exact Or.inl found

/-- The jobs that the call adds are the copies of the queued messages. -/
theorem hashing_triggerHashGen : t.triggerHashGen.hashing =
    t.hashing ++ t.toHash.toList.map fun k => t.txMsgs[k]?.getD .blank := by
  refine congrArg (t.hashing ++ ·) (List.map_congr_left fun k queued => ?_)
  rw [getElem?_touchAll, if_pos queued, Option.getD_some]

theorem evolves_triggerHashGen : Evolves shorthash now t t.triggerHashGen none := by
  constructor
  case txID_le => exact UInt64.le_refl _
  case origin =>
    intro k m' found
    rcases entry_of_triggerHashGen found with old | ⟨absent, queued, rfl⟩
    · exact .old m' old (.refl m') (.inl rfl)
    · exact .created absent (mem_pending_of_mem_toHash queued) rfl rfl rfl
  case got_mem => rintro _ ⟨⟩
  case toHash => exact fun k queued => by simp [triggerHashGen] at queued
  case hashing =>
    intro _ hjob
    rw [hashing_triggerHashGen] at hjob
    refine (List.mem_append.mp hjob).imp_right fun new => ?_
    obtain ⟨k, queued, rfl⟩ := List.mem_map.mp new
    exact ⟨k, Std.ExtTreeSet.mem_toList.mp queued, rfl⟩
  case present =>
    rintro _ _ k _ (known | ⟨fresh, below⟩)
    · obtain ⟨m, found⟩ := mem_iff_exists_getElem?.mp known
      refine mem_iff_exists_getElem?.mpr ⟨m, ?_⟩
      rw [getElem?_triggerHashGen, found]
      simp
    · exact absurd below (UInt64.not_lt.mpr fresh)
  case once =>
    intro copied _ once
    have ids : t.triggerHashGen.pending = t.pending := by
      have none : t.triggerHashGen.toHash.toList = [] := by simp [triggerHashGen]
      rw [pending, none, List.append_nil, hashing_triggerHashGen, List.map_append, List.map_map]
      refine congrArg (_ ++ ·) ((List.map_congr_left fun k queued => ?_).trans (List.map_id _))
      obtain ⟨m, found, own⟩ := copied k (Std.ExtTreeSet.mem_toList.mp queued)
      rw [Function.comp_apply, found]
      exact own
    rw [ids]
    exact ⟨once, by rintro _ ⟨⟩⟩
  case sent_mono => exact fun _ => id
  case packets => exact fun _ => .inl

/-- The entry that the digest of `job` goes to, with that digest. -/
def digested (shorthash : List UInt8 → ShortHash) (t : Transmitter H) (job : OutboundMessage H) :
    OutboundMessage H :=
  { t.txMsgs[job.msgID]?.getD .blank with digest := shorthash job.data.bytes }

variable (shorthash now) in
/-- A digest that comes back goes into the entry, which is made if there is none. -/
theorem entries_recvHashed {i : ℕ} (hjob : t.hashing[i]? = some job) :
    ∃ m', (t.recvHashed shorthash now i).txMsgs = t.txMsgs.insert job.msgID m' ∧
      m'.SameMessage (t.digested shorthash job) := by
  rw [recvHashed, hjob]
  refine ⟨_, rfl, ?_⟩
  split_ifs
  · exact ⟨rfl, rfl, rfl, rfl, rfl⟩
  · exact .refl _

variable (shorthash now) in
/-- The entry is announced, and its fragments may follow. -/
theorem sent_recvHashed {i : ℕ} (hjob : t.hashing[i]? = some job) :
    ∃ fragments, (t.recvHashed shorthash now i).sent =
        t.sent ++ (t.digested shorthash job).xmit :: fragments ∧
      ∀ p ∈ fragments, p ∈ (t.digested shorthash job).unAcked := by
  rw [recvHashed, hjob]
  refine ⟨_, rfl, fun p hp => ?_⟩
  split_ifs at hp
  · exact hp
  · cases hp

theorem evolves_recvHashed {i : ℕ} (hjob : t.hashing[i]? = some job) :
    Evolves shorthash now t (t.recvHashed shorthash now i) (some job) := by
  obtain ⟨m', entries, same⟩ := entries_recvHashed shorthash now hjob
  obtain ⟨fragments, sent, unAcked⟩ := sent_recvHashed shorthash now hjob
  have rest : (t.recvHashed shorthash now i).hashing = t.hashing.eraseIdx i ∧
      (t.recvHashed shorthash now i).toHash = t.toHash ∧
      (t.recvHashed shorthash now i).txID = t.txID := by
    rw [recvHashed, hjob]
    exact ⟨rfl, rfl, rfl⟩
  obtain ⟨hashing, toHash, txID⟩ := rest
  have stored := List.mem_of_getElem? hjob
  constructor
  case txID_le => exact txID ▸ UInt64.le_refl _
  case origin =>
    intro k m₁ found
    rw [entries] at found
    rcases getElem?_insert_eq_some.mp found with ⟨rfl, rfl⟩ | ⟨-, old⟩
    · cases before : t.txMsgs[job.msgID]? with
      | none =>
        rw [digested, before] at same
        exact .created before (List.mem_append_left _ (List.mem_map_of_mem stored)) same.msgID_eq
          same.completed_eq same.startedAt_eq
      | some m =>
        rw [digested, before] at same
        exact .old m before { same with digest_eq := rfl } (.inr ⟨job, rfl, rfl, same.digest_eq⟩)
    · exact .old m₁ old (.refl m₁) (.inl rfl)
  case got_mem =>
    rintro _ ⟨⟩
    exact stored
  case toHash => exact fun k queued => .inl (toHash ▸ queued)
  case hashing => exact fun other hother => .inl (List.mem_of_mem_eraseIdx (hashing ▸ hother))
  case present =>
    rintro _ _ k _ (known | ⟨fresh, below⟩)
    · rw [entries]
      exact Std.ExtTreeMap.mem_insert.mpr (.inr known)
    · exact absurd (txID ▸ below) (UInt64.not_lt.mpr fresh)
  case once =>
    intro _ _ once
    obtain ⟨bound, isJob⟩ := List.getElem?_eq_some_iff.mp hjob
    have split := ((List.getElem_cons_eraseIdx_perm bound).map (·.msgID)).append_right t.toHash.toList
    rw [isJob] at split
    rw [pending, hashing, toHash]
    obtain ⟨done, once⟩ := List.nodup_cons.mp (split.nodup_iff.mpr once)
    refine ⟨once, ?_⟩
    rintro _ ⟨⟩
    exact done
  case sent_mono =>
    rw [sent]
    exact fun p => List.mem_append_left _
  case packets =>
    intro p hp
    rw [sent] at hp
    refine (List.mem_append.mp hp).imp_right fun new => ?_
    have sends : (t.digested shorthash job).Sends p := by
      rcases List.mem_cons.mp new with rfl | fragment
      · exact sends_xmit _
      · exact sends_of_mem_unAcked (unAcked p fragment)
    refine ⟨job.msgID, m', by rw [entries, getElem?_insert, if_pos rfl], ?_,
      .inr (.inr ⟨job, rfl, rfl, same.digest_eq⟩)⟩
    rwa [OutboundMessage.Sends, same.msgID_eq, same.data_eq, same.digest_eq]

end Llarp.Iwp.Transmitter

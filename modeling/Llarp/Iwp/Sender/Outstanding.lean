import Llarp.Iwp.Reception
import Llarp.Iwp.Sender.Steps

/-!
# The messages that are outstanding

The sending half of a session as a state machine. Beside the transmitter it keeps what the
session is meant to know: the messages that were put into the map and are still there. The
map agrees with it as long as the index operator finds what it looks for, both when
messages go to the hasher and when they come back.
-/

namespace Llarp.Iwp

open Foundation Transmitter Option

/-- The sending half of a session. Its handlers carry the number of the call that they were
passed to. -/
structure Sending (H : Type) where
  tx : Transmitter (ℕ × H)
  /-- how often `SendMessageBuffer` was called -/
  calls : ℕ
  /-- the messages that it put into the map and that are still there -/
  live : Std.ExtTreeMap UInt64 Message
  /-- the calls with a handler that were refused -/
  refused : List ℕ
  /-- the calls with a handler whose message was put into the map -/
  inserted : List ℕ

namespace Sending

variable {H : Type}

def empty : Sending H := ⟨.empty, 0, ∅, [], []⟩

inductive Event (H : Type) where
  | sendMessageBuffer (buf : Message) (completed : Option H) (priority : UInt16)
  | triggerHashGen
  | recvHashed (job : ℕ)
  | handleACKS (txid : UInt64) (bitmask : UInt8)
  | handleMACK (acked : List UInt64)
  | handleNACK (txid : UInt64)
  | pump
  | tick

variable (shorthash : List UInt8 → ShortHash) (s : Sending H)

/-- Go on with this transmitter; what it removed is not outstanding any more. -/
def follow (tx : Transmitter (ℕ × H)) : Sending H :=
  { s with tx := tx, live := s.live.filter fun k _ => decide (k ∈ tx.txMsgs) }

def sendMessageBuffer (s : Sending H) (now : ℕ) (buf : Message) (completed : Option H)
    (priority : UInt16) : Sending H :=
  let tagged := completed.map fun handler => (s.calls, handler)
  let (tx, accepted) := s.tx.sendMessageBuffer now buf tagged priority
  let inserts := accepted && !decide (s.tx.txID ∈ s.tx.txMsgs)
  let this := (tagged.map Prod.fst).toList
  { tx := tx
    calls := s.calls + 1
    live := if inserts then s.live.insert s.tx.txID buf else s.live
    refused := if accepted then s.refused else s.refused ++ this
    inserted := if inserts then s.inserted ++ this else s.inserted }

/-- One step, at this time. -/
def step : ℕ × Event H → Sending H
  | (now, .sendMessageBuffer buf completed priority) =>
    s.sendMessageBuffer now buf completed priority
  | (_, .triggerHashGen) => s.follow s.tx.triggerHashGen
  | (now, .recvHashed job) => s.follow (s.tx.recvHashed shorthash now job)
  | (now, .handleACKS txid bitmask) => s.follow (s.tx.handleACKS now txid bitmask)
  | (_, .handleMACK acked) => s.follow (s.tx.handleMACK acked)
  | (_, .handleNACK txid) => s.follow (s.tx.handleNACK txid)
  | (now, .pump) => s.follow (s.tx.pump now)
  | (now, .tick) => s.follow (s.tx.tick now)

/-- Every entry is that of an outstanding message, with its own id. -/
structure Faithful (s : Sending H) : Prop where
  entry : ∀ (k : UInt64) m, s.tx.txMsgs[k]? = some m → m.msgID = k ∧ s.live[k]? = some m.data
  present : ∀ k ∈ s.live, k ∈ s.tx.txMsgs

/-- The packet announces an outstanding message, with its id, size, digest and first
fragment. -/
def Announces (p : Plaintext) : Prop :=
  ∃ id msg, s.live[id]? = some msg ∧
    p = .xmit (UInt16.ofNat msg.size) id (shorthash msg.bytes) (msg.bytes.take fragmentSize)

/-- What a step has to do. -/
structure Proper (shorthash : List UInt8 → ShortHash) (s : Sending H) (at_ : ℕ × Event H) :
    Prop where
  faithful : (s.step shorthash at_).Faithful
  /-- a digest that comes too late changes nothing -/
  late : ∀ job copy, at_.2 = .recvHashed job → s.tx.hashing[job]? = some copy →
    copy.msgID ∉ s.live → (s.step shorthash at_).tx = { s.tx with hashing := s.tx.hashing.eraseIdx job }
  /-- what is announced is outstanding -/
  announces : ∀ p ∈ (s.step shorthash at_).tx.sent.drop s.tx.sent.length,
    (∃ size id digest fragment, p = .xmit size id digest fragment) → s.Announces shorthash p

/-- The condition on one step. -/
def Found (at_ : ℕ × Event H) : Prop :=
  match at_.2 with
  | .triggerHashGen => ∀ k ∈ s.tx.toHash.toList, k ∈ s.tx.txMsgs
  | .recvHashed job => ∀ copy, s.tx.hashing[job]? = some copy →
    ∃ m, s.tx.txMsgs[copy.msgID]? = some m ∧ shorthash copy.data.bytes = shorthash m.data.bytes
  | .handleNACK txid => ∀ m, s.tx.txMsgs[txid]? = some m → m.digest = shorthash m.data.bytes
  | _ => True

variable {shorthash : List UInt8 → ShortHash} {s : Sending H} {now : ℕ}
  {tx : Transmitter (ℕ × H)}

theorem faithful_empty : (empty : Sending H).Faithful where
  entry k m found := by simp [empty, Transmitter.empty] at found
  present k known := by simp [empty] at known

/-! ### Steps that look up nothing that is gone -/

theorem getElem?_follow (k : UInt64) :
    (s.follow tx).live[k]? = (s.live[k]?).filter fun _ => decide (k ∈ tx.txMsgs) :=
  Std.ExtTreeMap.getElem?_filter'

/-- A step that changes no id and no bytes, and makes no entry. -/
theorem Faithful.follow (faithful : s.Faithful)
    (stays : ∀ (k : UInt64) m', tx.txMsgs[k]? = some m' →
      ∃ m, s.tx.txMsgs[k]? = some m ∧ m'.msgID = m.msgID ∧ m'.data = m.data) :
    (s.follow tx).Faithful where
  entry k m' found := by
    obtain ⟨m, found₀, sameID, sameData⟩ := stays k m' found
    obtain ⟨own, outstanding⟩ := faithful.entry k m found₀
    have known : k ∈ tx.txMsgs := mem_iff_exists_getElem?.mpr ⟨m', found⟩
    refine ⟨sameID.trans own, ?_⟩
    rw [getElem?_follow, outstanding, sameData, decide_eq_true known]
    rfl
  present k known := by
    obtain ⟨msg, outstanding⟩ := mem_iff_exists_getElem?.mp known
    rw [getElem?_follow, filter_eq_some_iff] at outstanding
    exact of_decide_eq_true outstanding.2

/-- A transmitter goes on by flushing or removing messages. -/
structure Flushes (t t' : Transmitter (ℕ × H)) : Prop where
  entries : ∀ (k : UInt64) m', t'.txMsgs[k]? = some m' →
    ∃ m, t.txMsgs[k]? = some m ∧ m'.msgID = m.msgID ∧ m'.data = m.data
  sent : ∃ packets, t'.sent = t.sent ++ packets ∧
    ∀ p ∈ packets, ∃ m : OutboundMessage (ℕ × H), p ∈ m.unAcked

theorem flushes_of_removes {t t' : Transmitter (ℕ × H)} (removes : t.Removes t') : Flushes t t' where
  entries k m found := ⟨m, removes.entries k m found, rfl, rfl⟩
  sent := ⟨[], by rw [removes.sent_eq, List.append_nil], List.forall_mem_nil _⟩

theorem flushes_handleACKS (t : Transmitter (ℕ × H)) (now : ℕ) (txid : UInt64) (bitmask : UInt8) :
    Flushes t (t.handleACKS now txid bitmask) := by
  unfold handleACKS
  cases found : t.txMsgs[txid]? with
  | none => exact flushes_of_removes (.refl t)
  | some m =>
    dsimp only
    split_ifs
    · exact flushes_of_removes removes_complete
    · refine ⟨fun k m' found' => ?_, (m.ack bitmask).unAcked, rfl, fun p hp => ⟨_, hp⟩⟩
      rcases getElem?_insert_eq_some.mp found' with ⟨rfl, rfl⟩ | ⟨-, old⟩
      · exact ⟨m, found, rfl, rfl⟩
      · exact ⟨m', old, rfl, rfl⟩

theorem flushes_pump (t : Transmitter (ℕ × H)) (now : ℕ) : Flushes t (t.pump now) where
  entries k m' found := by
    rw [pump, Std.ExtTreeMap.getElem?_map] at found
    obtain ⟨m, found₀, rfl⟩ := map_eq_some_iff.mp found
    refine ⟨m, found₀, ?_⟩
    split_ifs
    · exact ⟨rfl, rfl⟩
    · exact ⟨rfl, rfl⟩
  sent := by
    refine ⟨_, rfl, fun p hp => ?_⟩
    obtain ⟨m, -, hp⟩ := List.mem_flatMap.mp hp
    exact ⟨m, hp⟩

/-- Fragments announce nothing. -/
theorem not_xmit_of_mem_unAcked {m : OutboundMessage (ℕ × H)} {p : Plaintext} (h : p ∈ m.unAcked) :
    ¬ ∃ size id digest fragment, p = .xmit size id digest fragment := by
  obtain ⟨-, -, -, rfl⟩ := OutboundMessage.mem_unAcked h
  rintro ⟨size, id, digest, fragment, contradiction⟩
  cases contradiction

/-- Steps that flush or remove are always proper. -/
theorem Faithful.proper_of_flushes {at_ : ℕ × Event H} (faithful : s.Faithful)
    (follows : s.step shorthash at_ = s.follow tx) (flushes : Flushes s.tx tx)
    (other : ∀ job, at_.2 ≠ .recvHashed job) : s.Proper shorthash at_ where
  faithful := by
    rw [follows]
    exact faithful.follow flushes.entries
  late job _ hashed := absurd hashed (other job)
  announces p new isXmit := by
    obtain ⟨packets, sent, data⟩ := flushes.sent
    rw [follows, Sending.follow, sent, List.drop_left] at new
    obtain ⟨m, flushed⟩ := data p new
    exact absurd isXmit (not_xmit_of_mem_unAcked flushed)

/-! ### Steps that look messages up -/

/-- The announcement of an entry is right exactly if its digest is. -/
theorem Faithful.announces_xmit_iff {k : UInt64} {m : OutboundMessage (ℕ × H)}
    (m' : OutboundMessage (ℕ × H)) (faithful : s.Faithful)
    (found : s.tx.txMsgs[k]? = some m) (sameID : m'.msgID = m.msgID)
    (sameData : m'.data = m.data) :
    s.Announces shorthash m'.xmit ↔ m'.digest = shorthash m.data.bytes := by
  obtain ⟨own, outstanding⟩ := faithful.entry k m found
  constructor
  · rintro ⟨id, msg, live, packet⟩
    simp only [OutboundMessage.xmit, Plaintext.xmit.injEq] at packet
    obtain ⟨-, rfl, digest, -⟩ := packet
    rw [sameID, own] at live
    rw [digest, some.inj (live.symm.trans outstanding)]
  · intro digest
    refine ⟨k, m.data, outstanding, ?_⟩
    rw [OutboundMessage.xmit, sameID, own, sameData, digest]

section

variable (faithful : s.Faithful)

include faithful

theorem Faithful.proper_handleNACK_iff (txid : UInt64) :
    s.Proper shorthash (now, .handleNACK txid) ↔ s.Found shorthash (now, .handleNACK txid) := by
  unfold Found
  cases found : s.tx.txMsgs[txid]? with
  | none =>
    have same : s.tx.handleNACK txid = s.tx := by rw [handleNACK, found]
    simp only [found]
    refine iff_of_true ?_ nofun
    exact faithful.proper_of_flushes (congrArg s.follow same) (flushes_of_removes (.refl _))
      nofun
  | some m =>
    have sends : s.tx.handleNACK txid = { s.tx with sent := s.tx.sent ++ [m.xmit] } := by
      rw [handleNACK, found]
    have follows : s.step shorthash (now, .handleNACK txid) =
        s.follow { s.tx with sent := s.tx.sent ++ [m.xmit] } := congrArg s.follow sends
    have new : (s.step shorthash (now, .handleNACK txid)).tx.sent.drop s.tx.sent.length =
        [m.xmit] := by
      rw [follows]
      exact List.drop_left
    simp only [found, some.injEq, forall_eq']
    rw [← faithful.announces_xmit_iff m found rfl rfl]
    constructor
    · intro proper
      exact proper.announces m.xmit (new ▸ List.mem_singleton_self _) ⟨_, _, _, _, rfl⟩
    · intro announces
      refine ⟨?_, nofun, fun p hp _ => ?_⟩
      · rw [follows]
        exact faithful.follow fun k m' found' => ⟨m', found', rfl, rfl⟩
      · rw [new] at hp
        exact List.mem_singleton.mp hp ▸ announces

theorem Faithful.proper_triggerHashGen_iff :
    s.Proper shorthash (now, .triggerHashGen) ↔ s.Found shorthash (now, .triggerHashGen) := by
  unfold Found
  simp only [Std.ExtTreeSet.mem_toList]
  constructor
  · -- an entry that is made for a missing message is not outstanding
    intro proper k queued
    have made : s.tx.triggerHashGen.txMsgs[k]? = some ((s.tx.txMsgs[k]?).getD .blank) := by
      rw [getElem?_triggerHashGen, if_pos queued]
    obtain ⟨-, outstanding⟩ := proper.faithful.entry k _ made
    have live := (filter_eq_some_iff.mp ((getElem?_follow k).symm.trans outstanding)).1
    exact faithful.present k (mem_iff_exists_getElem?.mpr ⟨_, live⟩)
  · intro all
    refine faithful.proper_of_flushes rfl ⟨fun k m' found => ?_, [], (List.append_nil _).symm,
      List.forall_mem_nil _⟩ nofun
    rcases entry_of_triggerHashGen found with old | ⟨absent, queued, -⟩
    · exact ⟨m', old, rfl, rfl⟩
    · exact absurd (all k queued) (not_mem_iff_getElem?.mpr absent)

theorem Faithful.proper_recvHashed_iff (job : ℕ) :
    s.Proper shorthash (now, .recvHashed job) ↔ s.Found shorthash (now, .recvHashed job) := by
  unfold Found
  cases waiting : s.tx.hashing[job]? with
  | none =>
    have same : s.tx.recvHashed shorthash now job = s.tx := by rw [recvHashed, waiting]
    simp only [waiting]
    refine iff_of_true ⟨?_, fun job' copy same' => ?_, fun p hp => ?_⟩
      fun copy contradiction => by cases contradiction
    · rw [step, same]
      exact faithful.follow fun k m found => ⟨m, found, rfl, rfl⟩
    · cases same'
      rw [waiting]
      exact fun contradiction => by cases contradiction
    · rw [step, same, Sending.follow, List.drop_length] at hp
      cases hp
  | some copy =>
    simp only [waiting, some.injEq, forall_eq']
    obtain ⟨stored, entries, sameEntry⟩ := entries_recvHashed shorthash now waiting
    obtain ⟨fragments, sent, data⟩ := sent_recvHashed shorthash now waiting
    have new : (s.step shorthash (now, .recvHashed job)).tx.sent.drop s.tx.sent.length =
        (s.tx.digested shorthash copy).xmit :: fragments := by
      rw [step, Sending.follow, sent]
      exact List.drop_left
    have digested : ∀ {m}, s.tx.txMsgs[copy.msgID]? = some m →
        s.tx.digested shorthash copy = { m with digest := shorthash copy.data.bytes } := by
      intro m found
      rw [digested, found, getD_some]
    have announced_iff : ∀ {m}, s.tx.txMsgs[copy.msgID]? = some m →
        (s.Announces shorthash (s.tx.digested shorthash copy).xmit ↔
          shorthash copy.data.bytes = shorthash m.data.bytes) := by
      intro m found
      apply faithful.announces_xmit_iff (s.tx.digested shorthash copy) found
      · rw [digested found]
      · rw [digested found]
    constructor
    · intro proper
      -- an entry that is made for a missing message is not outstanding
      have made : (s.tx.recvHashed shorthash now job).txMsgs[copy.msgID]? = some stored := by
        rw [entries, getElem?_insert, if_pos rfl]
      obtain ⟨-, outstanding⟩ := proper.faithful.entry copy.msgID stored made
      have live := (filter_eq_some_iff.mp
        ((getElem?_follow copy.msgID).symm.trans outstanding)).1
      obtain ⟨m, found⟩ := mem_iff_exists_getElem?.mp
        (faithful.present copy.msgID (mem_iff_exists_getElem?.mpr ⟨_, live⟩))
      refine ⟨m, found, (announced_iff found).mp ?_⟩
      exact proper.announces _ (new ▸ List.mem_cons_self) ⟨_, _, _, _, rfl⟩
    · rintro ⟨m, found, sameHash⟩
      refine ⟨faithful.follow fun k m' found' => ?_, fun job' copy' same waiting' gone => ?_,
        fun p hp isXmit => ?_⟩
      · rw [entries] at found'
        rcases getElem?_insert_eq_some.mp found' with ⟨rfl, rfl⟩ | ⟨-, old⟩
        · rw [digested found] at sameEntry
          exact ⟨m, found, sameEntry.msgID_eq, sameEntry.data_eq⟩
        · exact ⟨m', old, rfl, rfl⟩
      · cases same
        cases waiting.symm.trans waiting'
        exact absurd (mem_iff_exists_getElem?.mpr ⟨_, (faithful.entry _ m found).2⟩) gone
      · rw [new] at hp
        rcases List.mem_cons.mp hp with rfl | fragment
        · exact (announced_iff found).mpr sameHash
        · exact absurd isXmit (not_xmit_of_mem_unAcked (data p fragment))

/-! ### Runs -/

theorem Faithful.proper_sendMessageBuffer (buf : Message)
    (completed : Option H) (priority : UInt16) :
    s.Proper shorthash (now, .sendMessageBuffer buf completed priority) := by
  have sent : (s.sendMessageBuffer now buf completed priority).tx.sent = s.tx.sent := by
    unfold sendMessageBuffer Transmitter.sendMessageBuffer
    split_ifs <;> rfl
  refine ⟨?_, nofun, fun p hp => ?_⟩
  · change (s.sendMessageBuffer now buf completed priority).Faithful
    unfold sendMessageBuffer Transmitter.sendMessageBuffer
    by_cases full : maxSendQueueSize ≤ s.tx.txMsgs.size
    · simp only [if_pos full]
      exact ⟨faithful.entry, faithful.present⟩
    · simp only [if_neg full]
      by_cases known : s.tx.txID ∈ s.tx.txMsgs
      · -- the counter has come round to a message that is still there
        obtain ⟨old, found⟩ := mem_iff_exists_getElem?.mp known
        simp only [insertIfNew_eq_self found, known, decide_true, Bool.not_true, Bool.and_false,
          Bool.false_eq_true, if_false]
        exact ⟨faithful.entry, faithful.present⟩
      · simp only [insertIfNew_eq_insert (not_mem_iff_getElem?.mp known), known, decide_false,
          Bool.not_false, Bool.and_true, if_true]
        refine ⟨fun k m found => ?_, fun k outstanding => ?_⟩
        · dsimp only
          rcases getElem?_insert_eq_some.mp found with ⟨rfl, rfl⟩ | ⟨other, old⟩
          · exact ⟨rfl, by rw [getElem?_insert, if_pos rfl]; rfl⟩
          · rw [getElem?_insert, if_neg (Ne.symm other)]
            exact faithful.entry k m old
        · dsimp only
          rw [Std.ExtTreeMap.mem_insert] at outstanding ⊢
          exact outstanding.imp_right (faithful.present k)
  · rw [step, sent, List.drop_length] at hp
    cases hp

/-- A step does what it has to do exactly if it finds the messages that it looks up. -/
theorem Faithful.proper_iff (at_ : ℕ × Event H) :
    s.Proper shorthash at_ ↔ s.Found shorthash at_ := by
  obtain ⟨now, event⟩ := at_
  cases event with
  | sendMessageBuffer buf completed priority =>
    exact iff_of_true (faithful.proper_sendMessageBuffer buf completed priority) trivial
  | triggerHashGen => exact faithful.proper_triggerHashGen_iff
  | recvHashed job => exact faithful.proper_recvHashed_iff job
  | handleNACK txid => exact faithful.proper_handleNACK_iff txid
  | handleACKS txid bitmask =>
    refine iff_of_true (faithful.proper_of_flushes rfl (flushes_handleACKS s.tx now txid bitmask) ?_)
      trivial
    exact nofun
  | handleMACK acked =>
    refine iff_of_true (faithful.proper_of_flushes rfl
      (flushes_of_removes (removes_handleMACK acked)) ?_) trivial
    exact nofun
  | pump =>
    refine iff_of_true (faithful.proper_of_flushes rfl (flushes_pump s.tx now) ?_) trivial
    exact nofun
  | tick =>
    refine iff_of_true (faithful.proper_of_flushes rfl
      (flushes_of_removes removes_tick) ?_) trivial
    exact nofun

end

/-- All steps of a run do what they have to do exactly if all of them find the messages that
they look up. -/
theorem proper_iff_found (shorthash : List UInt8 → ShortHash) (events : List (ℕ × Event H)) :
    Along (fun s at_ => some (step shorthash s at_)) (Proper shorthash) empty events ↔
      Along (fun s at_ => some (step shorthash s at_)) (Found shorthash) empty events :=
  along_iff_along Faithful
    (fun _ _ _ _ proper next => some.inj next ▸ proper.faithful)
    (fun _ at_ faithful => faithful.proper_iff at_) faithful_empty

/-- Two messages are dropped while the hasher works on them. -/
def lateDigest : List (ℕ × Event Unit) :=
  [(0, .sendMessageBuffer ⟨[1], by decide⟩ none 0), (0, .sendMessageBuffer ⟨[2], by decide⟩ none 0),
    (0, .triggerHashGen), (deliveryTimeout + 1, .tick), (deliveryTimeout + 1, .recvHashed 1)]

/-- The digest of the second one makes an entry that nobody put there, with the id of the
first one, and announces it. -/
theorem late_digest_makes_entry :
    (∃ s, run (fun s at_ => some (step Reception.prefixHash s at_)) empty lateDigest = some s ∧
      (s.tx.txMsgs[(1 : UInt64)]?).map (·.msgID) = some 0 ∧ s.live[(1 : UInt64)]? = none ∧
      s.tx.sent = [.xmit 0 0 (Reception.prefixHash [2]) []]) ∧
    ¬ Along (fun s at_ => some (step Reception.prefixHash s at_)) (Proper Reception.prefixHash)
      empty lateDigest := by
  refine ⟨by decide +kernel, fun proper => ?_⟩
  obtain ⟨s, reached, m, stored, wrong⟩ :
      ∃ s, run (fun s at_ => some (step Reception.prefixHash s at_)) empty lateDigest = some s ∧
        ∃ m, s.tx.txMsgs[(1 : UInt64)]? = some m ∧ m.msgID ≠ 1 := by
    decide +kernel
  have faithful : s.Faithful :=
    run_invariant Faithful (fun _ _ _ _ proper next => some.inj next ▸ proper.faithful)
      faithful_empty proper reached
  exact wrong (faithful.entry 1 m stored).1

end Sending

end Llarp.Iwp

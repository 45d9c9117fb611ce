import Llarp.Iwp.Reassembly
import Llarp.Iwp.Transmitter

/-!
# What the sending half keeps

The map of sent messages is read with an index operator that creates entries, so
it can hold entries that nobody sent, and packets can go out under the id 0 for
messages that are gone. This module shows that no message with a waiting handler
is ever affected: its packets carry its own bytes and, once its digest is
computed, the right digest.

The delicate message is the one with id 0. While it waits, no entry is missing:
messages are older the smaller their id, so a message whose digest is not there
yet cannot time out before message 0 does. `Pristine` is the invariant of that
phase, and `Sound` the invariant of all phases. `Evolves` says once what a step of
the sending half can do, and every step keeps the invariant for that reason.
-/

namespace Llarp.Iwp

open Foundation

/-- The packets of a message with the given digest. -/
inductive SentFor (id : UInt64) (msg : Message) (digest : ShortHash) : Plaintext → Prop
  | xmit : SentFor id msg digest
      (.xmit (UInt16.ofNat msg.size) id digest (msg.bytes.take 1024))
  | data (k : ℕ) (inside : k * 1024 < msg.size) : SentFor id msg digest
      (.data (UInt16.ofNat (k * 1024)) id ((msg.bytes.drop (k * 1024)).take 1024))

namespace SentFor

variable {id : UInt64} {msg : Message} {digest : ShortHash} {p : Plaintext}

theorem ids_eq (h : SentFor id msg digest p) : p.ids = [id] := by
  cases h <;> rfl

theorem eq_of_mem_ids {k : UInt64} (h : SentFor id msg digest p) (named : k ∈ p.ids) : id = k := by
  rw [h.ids_eq, List.mem_singleton] at named
  exact named.symm

end SentFor

namespace OutboundMessage

variable {H : Type} {m m' : OutboundMessage H} {p : Plaintext}

/-- Two states of one message: only acknowledgements and the time of the last flush differ. -/
structure SameMessage (m' m : OutboundMessage H) : Prop where
  data_eq : m'.data = m.data
  msgID_eq : m'.msgID = m.msgID
  completed_eq : m'.completed = m.completed
  startedAt_eq : m'.startedAt = m.startedAt
  digest_eq : m'.digest = m.digest

theorem SameMessage.refl (m : OutboundMessage H) : m.SameMessage m := ⟨rfl, rfl, rfl, rfl, rfl⟩

/-- The packets that the message can send in its current state. -/
def Sends (m : OutboundMessage H) (p : Plaintext) : Prop := SentFor m.msgID m.data m.digest p

theorem sends_xmit (m : OutboundMessage H) : m.Sends m.xmit := .xmit

theorem sends_of_mem_unAcked (h : p ∈ m.unAcked) : m.Sends p := by
  obtain ⟨k, inside, -, rfl⟩ := mem_unAcked h
  exact .data k inside

end OutboundMessage

namespace Transmitter

variable {H : Type}

/-- A message whose completion handler was not called yet. -/
def Awaited (t : Transmitter H) (k : UInt64) (m : OutboundMessage H) : Prop :=
  t.txMsgs[k]? = some m ∧ m.completed ≠ none

/-- A packet was sent under this id. -/
def Touched (t : Transmitter H) (k : UInt64) : Prop := ∃ p ∈ t.sent, k ∈ p.ids

/-- The ids of the messages that wait for their digest. -/
def pending (t : Transmitter H) : List UInt64 := t.hashing.map (·.msgID) ++ t.toHash.toList

/-- The phase in which message 0 waits, which was accepted at `start`: every entry is a message that
was accepted, and every message that waits for its digest is still there and was never sent. -/
structure Pristine (t : Transmitter H) (start : ℕ) : Prop where
  own : ∀ (k : UInt64) m, t.txMsgs[k]? = some m → m.msgID = k
  oldest : ∀ (k : UInt64) m, t.txMsgs[k]? = some m → start ≤ m.startedAt
  waiting : ∀ k ∈ t.pending, ¬ t.Touched k ∧
    ∃ m, t.txMsgs[k]? = some m ∧ m.digest.isZero = true
  once : t.pending.Nodup

/-- Everything that was done for a message came from its bytes. -/
structure Right (shorthash : List UInt8 → ShortHash) (t : Transmitter H) (k : UInt64)
    (m : OutboundMessage H) : Prop where
  copies : ∀ job ∈ t.hashing, job.msgID = k → job.data = m.data
  genuine : ∀ p ∈ t.sent, k ∈ p.ids → SentFor k m.data (shorthash m.data.bytes) p
  digest : m.digest.isZero = true ∨ m.digest = shorthash m.data.bytes
  hashed : t.Touched k → m.digest = shorthash m.data.bytes

/-- The invariant of the sending half. -/
structure Sound (shorthash : List UInt8 → ShortHash) (now : ℕ) (t : Transmitter H) : Prop where
  keys : ∀ k ∈ t.txMsgs, k < t.txID
  started : ∀ (k : UInt64) m, t.txMsgs[k]? = some m → m.startedAt ≤ now
  shape : ∀ (k : UInt64) m, t.txMsgs[k]? = some m →
    m.msgID = k ∨ (m.msgID = 0 ∧ m.completed = none)
  pending : ∀ k ∈ t.pending, k < t.txID
  touched : ∀ k, t.Touched k → k < t.txID
  right : ∀ k m, t.Awaited k m → t.Right shorthash k m
  pristine : ∀ first, t.Awaited 0 first → t.Pristine first.startedAt

variable {shorthash : List UInt8 → ShortHash} {now later : ℕ} {t t' : Transmitter H}
  {k k' : UInt64} {m m' job : OutboundMessage H} {p : Plaintext}

theorem sound_empty : (empty : Transmitter H).Sound shorthash now := by
  constructor <;> simp [empty, pending, Touched, Awaited]

theorem Sound.wait (sound : t.Sound shorthash now) (hle : now ≤ later) : t.Sound shorthash later :=
  { sound with started := fun k m found => (sound.started k m found).trans hle }

theorem zero_lt_of_lt {k n : UInt64} (h : k < n) : 0 < n := by
  exact Nat.lt_of_le_of_lt (Nat.zero_le _) h

section

variable (shape : ∀ (k : UInt64) m, t.txMsgs[k]? = some m →
  m.msgID = k ∨ (m.msgID = 0 ∧ m.completed = none))

include shape

/-- Packets go out under ids that were given to messages. -/
theorem msgID_lt (keys : ∀ k ∈ t.txMsgs, k < t.txID) (found : t.txMsgs[k]? = some m) :
    m.msgID < t.txID := by
  have known := keys k (mem_iff_exists_getElem?.mpr ⟨m, found⟩)
  rcases shape k m found with own | ⟨zero, -⟩
  · rw [own]
    exact known
  · rw [zero]
    exact zero_lt_of_lt known

/-- No other entry has the id of an awaited message: a created entry exists only when message 0 is
gone. -/
theorem eq_of_msgID (pristine : ∀ first, t.Awaited 0 first → t.Pristine first.startedAt)
    (awaited : t.Awaited k m) (found : t.txMsgs[k']? = some m') (same : m'.msgID = k) :
    k' = k ∧ m' = m := by
  have here : k' = k := by
    rcases shape k' m' found with own | ⟨zero, -⟩
    · exact own.symm.trans same
    · obtain rfl : k = 0 := same.symm.trans zero
      exact ((pristine m awaited).own k' m' found).symm.trans same
  subst here
  exact ⟨rfl, Option.some.inj (found.symm.trans awaited.1)⟩

end

/-! ### What a step can do -/

/-- Where an entry comes from: it is an old one, which may have got the digest of the hash job
`got`, or that of a new message, or was created by an index operator. -/
inductive Origin (shorthash : List UInt8 → ShortHash) (now : ℕ) (t t' : Transmitter H)
    (got : Option (OutboundMessage H)) (k : UInt64) (m' : OutboundMessage H) : Prop
  | old (m : OutboundMessage H) (found : t.txMsgs[k]? = some m)
      (same : m'.SameMessage { m with digest := m'.digest })
      (digest : m'.digest = m.digest ∨
        ∃ job ∈ got, job.msgID = k ∧ m'.digest = shorthash job.data.bytes)
  | new (fresh : t.txID ≤ k) (next : k < t'.txID) (own : m'.msgID = k) (started : m'.startedAt = now)
      (undigested : m'.digest.isZero = true)
  | created (absent : t.txMsgs[k]? = none) (waiting : k ∈ t.pending) (zero : m'.msgID = 0)
      (unawaited : m'.completed = none) (started : m'.startedAt = 0)

/-- What a step of the sending half can do, in which the digest of the hash job `got` may arrive. -/
structure Evolves (shorthash : List UInt8 → ShortHash) (now : ℕ) (t t' : Transmitter H)
    (got : Option (OutboundMessage H)) : Prop where
  txID_le : t.txID ≤ t'.txID
  origin : ∀ (k : UInt64) m', t'.txMsgs[k]? = some m' → Origin shorthash now t t' got k m'
  got_mem : ∀ job ∈ got, job ∈ t.hashing
  toHash : ∀ k ∈ t'.toHash, k ∈ t.toHash ∨ t.txID ≤ k ∧ k < t'.txID
  hashing : ∀ job ∈ t'.hashing, job ∈ t.hashing ∨ ∃ k ∈ t.toHash, job = t.txMsgs[k]?.getD .blank
  /-- while message 0 waits, what waits for its digest is not removed -/
  present : ∀ first, t'.Awaited 0 first → ∀ k ∈ t'.pending,
    k ∈ t.txMsgs ∨ t.txID ≤ k ∧ k < t'.txID → k ∈ t'.txMsgs
  once : (∀ k ∈ t.toHash, ∃ m, t.txMsgs[k]? = some m ∧ m.msgID = k) → t.txID ∉ t.pending →
    t.pending.Nodup → t'.pending.Nodup ∧ ∀ job ∈ got, job.msgID ∉ t'.pending
  sent_mono : ∀ p ∈ t.sent, p ∈ t'.sent
  packets : ∀ p ∈ t'.sent, p ∈ t.sent ∨
    ∃ (k : UInt64) (m' : OutboundMessage H), t'.txMsgs[k]? = some m' ∧ m'.Sends p ∧
      (t.Touched k ∨ m'.digest.isZero = false ∨
        ∃ job ∈ got, job.msgID = k ∧ m'.digest = shorthash job.data.bytes)

section

variable {got : Option (OutboundMessage H)} (ev : Evolves shorthash now t t' got)
  (sound : t.Sound shorthash now)

theorem mem_pending_of_mem_toHash (queued : k ∈ t.toHash) : k ∈ t.pending :=
  List.mem_append_right _ (Std.ExtTreeSet.mem_toList.mpr queued)

include sound in
/-- The id of a copy that is made for the hasher. -/
theorem Sound.copy_lt (queued : k ∈ t.toHash) : (t.txMsgs[k]?.getD .blank).msgID < t.txID := by
  cases found : t.txMsgs[k]? with
  | none => exact zero_lt_of_lt (sound.pending k (mem_pending_of_mem_toHash queued))
  | some m => exact msgID_lt sound.shape sound.keys found

include ev

theorem Evolves.mem_pending (waiting : k ∈ t'.pending) : k ∈ t.pending ∨
    (t.txID ≤ k ∧ k < t'.txID) ∨ ∃ j ∈ t.toHash, k = (t.txMsgs[j]?.getD .blank).msgID := by
  rcases List.mem_append.mp waiting with hashed | queued
  · obtain ⟨job, hjob, rfl⟩ := List.mem_map.mp hashed
    rcases ev.hashing job hjob with old | ⟨j, queued, rfl⟩
    · exact .inl (List.mem_append_left _ (List.mem_map_of_mem old))
    · exact .inr (.inr ⟨j, queued, rfl⟩)
  · rcases ev.toHash k (Std.ExtTreeSet.mem_toList.mp queued) with old | fresh
    · exact .inl (mem_pending_of_mem_toHash old)
    · exact .inr (.inl fresh)

include sound

/-- Message 0 is new, and meets an empty session, or it waited before. -/
theorem Evolves.pristine_before {first : OutboundMessage H} (awaited : t'.Awaited 0 first) :
    t.Pristine first.startedAt := by
  cases ev.origin 0 first awaited.1 with
  | old m found same digest =>
    rw [same.startedAt_eq]
    exact sound.pristine m ⟨found, same.completed_eq ▸ awaited.2⟩
  | created _ _ _ unawaited => exact absurd unawaited awaited.2
  | new fresh =>
    have nothing (k : UInt64) : ¬ k < t.txID := fun below =>
      UInt64.lt_irrefl _ (UInt64.lt_of_lt_of_le (zero_lt_of_lt below) fresh)
    have noEntry (k : UInt64) (m) : t.txMsgs[k]? ≠ some m := fun found =>
      nothing k (sound.keys k (mem_iff_exists_getElem?.mpr ⟨m, found⟩))
    have none : t.pending = [] :=
      List.eq_nil_iff_forall_not_mem.mpr fun k waiting => nothing k (sound.pending k waiting)
    refine ⟨fun k m found => absurd found (noEntry k m), fun k m found => absurd found (noEntry k m),
      ?_, ?_⟩
    · simp [none]
    · simp [none]

theorem Evolves.pristine {first : OutboundMessage H} (awaited : t'.Awaited 0 first)
    (started : first.startedAt ≤ now) : t'.Pristine first.startedAt := by
  have before := ev.pristine_before sound awaited
  have copied (k : UInt64) (queued : k ∈ t.toHash) : ∃ m, t.txMsgs[k]? = some m ∧ m.msgID = k := by
    obtain ⟨-, m, found, -⟩ := before.waiting k (mem_pending_of_mem_toHash queued)
    exact ⟨m, found, before.own k m found⟩
  obtain ⟨once, done⟩ := ev.once copied (fun waiting => UInt64.lt_irrefl _ (sound.pending _ waiting))
    before.once
  have entry (k : UInt64) (m') (found : t'.txMsgs[k]? = some m') :
      m'.msgID = k ∧ first.startedAt ≤ m'.startedAt := by
    cases ev.origin k m' found with
    | old m found₀ same digest =>
      rw [same.msgID_eq, same.startedAt_eq]
      exact ⟨before.own k m found₀, before.oldest k m found₀⟩
    | new fresh next own startedAt => exact ⟨own, startedAt ▸ started⟩
    | created absent waiting =>
      obtain ⟨-, m, found₀, -⟩ := before.waiting k waiting
      cases absent.symm.trans found₀
  refine ⟨fun k m' found => (entry k m' found).1, fun k m' found => (entry k m' found).2,
    fun k waiting => ?_, once⟩
  have known : (¬ t.Touched k ∧ ∃ m, t.txMsgs[k]? = some m ∧ m.digest.isZero = true) ∨
      t.txID ≤ k ∧ k < t'.txID := by
    rcases ev.mem_pending waiting with old | fresh | ⟨j, queued, rfl⟩
    · exact .inl (before.waiting k old)
    · exact .inr fresh
    · obtain ⟨m, found, own⟩ := copied j queued
      rw [found, Option.getD_some, own]
      exact .inl (before.waiting j (mem_pending_of_mem_toHash queued))
  have untouched : ¬ t.Touched k := known.elim And.left fun fresh touched =>
    UInt64.not_lt.mpr fresh.1 (sound.touched k touched)
  obtain ⟨m', found⟩ := mem_iff_exists_getElem?.mp (ev.present first awaited k waiting
    (known.imp_left fun ⟨_, m, found, _⟩ => mem_iff_exists_getElem?.mpr ⟨m, found⟩))
  have zero : m'.digest.isZero = true := by
    cases ev.origin k m' found with
    | old m found₀ same digest =>
      rcases digest with kept | ⟨job, arrived, here, -⟩
      · rcases known with ⟨-, m₁, found₁, zero⟩ | fresh
        · rwa [kept, Option.some.inj (found₀.symm.trans found₁)]
        · exact absurd (sound.keys k (mem_iff_exists_getElem?.mpr ⟨m, found₀⟩))
            (UInt64.not_lt.mpr fresh.1)
      · exact absurd waiting (here ▸ done job arrived)
    | new _ _ _ _ undigested => exact undigested
    | created absent waiting₀ =>
      obtain ⟨-, m, found₀, -⟩ := before.waiting k waiting₀
      cases absent.symm.trans found₀
  refine ⟨?_, m', found, zero⟩
  rintro ⟨p, hp, named⟩
  rcases ev.packets p hp with old | ⟨k', m₁, found₁, sends, ready⟩
  · exact untouched ⟨p, old, named⟩
  · obtain rfl : k' = k := (entry k' m₁ found₁).1.symm.trans (sends.eq_of_mem_ids named)
    cases found.symm.trans found₁
    rcases ready with touched | nonzero | ⟨job, arrived, here, -⟩
    · exact untouched touched
    · cases zero.symm.trans nonzero
    · exact done job arrived (here ▸ waiting)

/-- An awaited message is an old one, with its bytes, or a new one that nobody knows. -/
theorem Evolves.right_before (awaited : t'.Awaited k m') : t.Right shorthash k m' ∧
    ∀ j ∈ t.toHash, (t.txMsgs[j]?.getD .blank).msgID = k →
      (t.txMsgs[j]?.getD .blank).data = m'.data := by
  cases ev.origin k m' awaited.1 with
  | created _ _ _ unawaited => exact absurd unawaited awaited.2
  | new fresh next own started undigested =>
    have unknown {j : UInt64} (below : j < t.txID) : j ≠ k :=
      fun same => UInt64.not_lt.mpr fresh (same ▸ below)
    have untouched : ¬ t.Touched k := fun touched => unknown (sound.touched k touched) rfl
    refine ⟨⟨fun job hjob same => absurd same (unknown ?_),
      fun p hp named => absurd ⟨p, hp, named⟩ untouched, .inl undigested,
      fun touched => absurd touched untouched⟩,
      fun j queued same => absurd same (unknown (sound.copy_lt queued))⟩
    exact sound.pending _ (List.mem_append_left _ (List.mem_map_of_mem hjob))
  | old m found same digest =>
    have waits : t.Awaited k m := ⟨found, same.completed_eq ▸ awaited.2⟩
    have right := sound.right k m waits
    have data_eq : m'.data = m.data := same.data_eq
    have arrived : (∃ job ∈ got, job.msgID = k ∧ m'.digest = shorthash job.data.bytes) →
        m'.digest = shorthash m.data.bytes := by
      rintro ⟨job, arrived, here, digest⟩
      rw [digest, right.copies job (ev.got_mem job arrived) here]
    refine ⟨⟨?_, ?_, ?_, ?_⟩, fun j queued here => ?_⟩
    · rw [data_eq]
      exact right.copies
    · rw [data_eq]
      exact right.genuine
    · rw [data_eq]
      rcases digest with kept | new
      · rw [kept]
        exact right.digest
      · exact .inr (arrived new)
    · intro touched
      rw [data_eq]
      rcases digest with kept | new
      · rw [kept]
        exact right.hashed touched
      · exact arrived new
    · rw [data_eq]
      cases found₁ : t.txMsgs[j]? with
      | none =>
        -- the copy of a created entry has id 0, and then message 0 is gone
        rw [found₁] at here
        obtain rfl : 0 = k := here
        obtain ⟨-, m₁, present, -⟩ := (sound.pristine m waits).waiting j
          (mem_pending_of_mem_toHash queued)
        cases found₁.symm.trans present
      | some m₁ =>
        rw [found₁] at here
        obtain ⟨-, rfl⟩ := eq_of_msgID sound.shape sound.pristine waits found₁ here
        rfl

/-- A step of the sending half keeps the invariant. -/
theorem Sound.evolves : t'.Sound shorthash now := by
  have below {k : UInt64} (h : k < t.txID) : k < t'.txID := UInt64.lt_of_lt_of_le h ev.txID_le
  have started (k : UInt64) (m') (found : t'.txMsgs[k]? = some m') : m'.startedAt ≤ now := by
    cases ev.origin k m' found with
    | old m found₀ same digest => exact same.startedAt_eq.trans_le (sound.started k m found₀)
    | new _ _ _ startedAt => exact startedAt.le
    | created _ _ _ _ startedAt => exact startedAt.trans_le (Nat.zero_le _)
  have keys (k : UInt64) (known : k ∈ t'.txMsgs) : k < t'.txID := by
    obtain ⟨m', found⟩ := mem_iff_exists_getElem?.mp known
    cases ev.origin k m' found with
    | old m found₀ => exact below (sound.keys k (mem_iff_exists_getElem?.mpr ⟨m, found₀⟩))
    | new _ next => exact next
    | created _ waiting => exact below (sound.pending k waiting)
  have shape (k : UInt64) (m') (found : t'.txMsgs[k]? = some m') :
      m'.msgID = k ∨ (m'.msgID = 0 ∧ m'.completed = none) := by
    cases ev.origin k m' found with
    | old m found₀ same digest =>
      rw [same.msgID_eq, same.completed_eq]
      exact sound.shape k m found₀
    | new _ _ own => exact .inl own
    | created _ _ zero unawaited => exact .inr ⟨zero, unawaited⟩
  have pristine (first) (awaited : t'.Awaited 0 first) : t'.Pristine first.startedAt :=
    ev.pristine sound awaited (started 0 first awaited.1)
  refine ⟨keys, started, shape, fun k waiting => ?_, ?_, fun k m' awaited => ?_, pristine⟩
  · rcases ev.mem_pending waiting with old | fresh | ⟨j, queued, rfl⟩
    · exact below (sound.pending k old)
    · exact fresh.2
    · exact below (sound.copy_lt queued)
  · rintro k ⟨p, hp, named⟩
    rcases ev.packets p hp with old | ⟨k', m', found, sends, -⟩
    · exact below (sound.touched k ⟨p, old, named⟩)
    · rw [← sends.eq_of_mem_ids named]
      exact msgID_lt shape keys found
  · obtain ⟨right, copies⟩ := ev.right_before sound awaited
    have own := (shape k m' awaited.1).resolve_right fun blank => awaited.2 blank.2
    -- a packet that was sent just now was sent by the message
    have packet {p : Plaintext} (hp : p ∈ t'.sent) (named : k ∈ p.ids) : p ∈ t.sent ∨
        m'.Sends p ∧ m'.digest = shorthash m'.data.bytes := by
      refine (ev.packets p hp).imp_right fun ⟨k', m₁, found, sends, ready⟩ => ?_
      obtain ⟨rfl, rfl⟩ := eq_of_msgID shape pristine awaited found (sends.eq_of_mem_ids named)
      refine ⟨sends, ?_⟩
      rcases ready with touched | nonzero | ⟨job, arrived, here, digest⟩
      · exact right.hashed touched
      · exact right.digest.resolve_left fun zero => nomatch zero.symm.trans nonzero
      · rw [digest, right.copies job (ev.got_mem job arrived) here]
    refine ⟨fun job hjob here => ?_, fun p hp named => ?_, right.digest, ?_⟩
    · rcases ev.hashing job hjob with old | ⟨j, queued, rfl⟩
      · exact right.copies job old here
      · exact copies j queued here
    · rcases packet hp named with old | ⟨sends, digest⟩
      · exact right.genuine p old named
      · rwa [OutboundMessage.Sends, own, digest] at sends
    · rintro ⟨p, hp, named⟩
      exact (packet hp named).elim (fun old => right.hashed ⟨p, old, named⟩) And.right

end

end Transmitter

end Llarp.Iwp

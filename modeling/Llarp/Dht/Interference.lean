import Llarp.Dht.IntroRelay

/-!
# Lookups of two paths at one relay

The clients of two paths send lookups to the same relay. What the relay sends for one of them
should not depend on the other. But the transactions of both are numbered by one counter, and
they are filed under the number that the client chose, so that lookups with the same number
share their fate.

The module compares the run in which both paths send requests with the run from which the
requests of the other path are taken out. The holder of the second run is the restriction of
the first run's holder to the jobs of the path.
-/

namespace Llarp.Dht

open Foundation Service TXHolder IntroRelay List

/-- What reaches the relay: requests of clients, replies of other relays, the cleaner. -/
inductive LookupEvent where
  | findIntro (path : PathID) (txid : UInt64) (location : Key) (relayOrder : UInt64) (tagged : Bool)
  | gotIntro (peer : Key) (txid : UInt64) (found : List EncryptedIntroSet)
  | cleanupTX
  | tick (ms : ℕ)

/-- Whether an event is a request of a path. -/
def LookupEvent.isFrom (path : PathID) : LookupEvent → Bool
  | .findIntro sender _ _ _ _ => sender = path
  | _ => false

namespace IntroRelay

variable {host : IntroHost} {p q : PathID} {s s' : IntroRelay}

def step (host : IntroHost) (s : IntroRelay) : LookupEvent → Option IntroRelay
  | .findIntro path txid location relayOrder tagged =>
    s.findIntroForPath host path txid location relayOrder tagged
  | .gotIntro peer txid found => some (s.gotIntro host peer txid found)
  | .cleanupTX => some (s.cleanupTX host)
  | .tick ms => some (s.tick ms)

/-- What the relay sent for a path: to other relays, and down the path. -/
def sentFor (path : PathID) (s : IntroRelay) : List IntroOutput :=
  s.sent.filter (·.path = some path)

/-! ### The condition -/

/-- The relay makes no lookup of a request, whatever is pending. -/
def Refuses (host : IntroHost) (location : Key) (relayOrder : UInt64) (tagged : Bool) : Prop :=
  tagged = true ∨ location.isZero = true ∨ introSetStorageRedundancy ≤ relayOrder.toNat ∨
    (host.closestRCs location).length ≤ relayOrder.toNat

/-- No lookup was ever made for a path. -/
def NoneFor (path : PathID) (s : IntroRelay) : Prop :=
  ∀ effect ∈ s.pending.log, (TXHolder.effectJob effect).localPath ≠ path

/-- The requests come from the two paths. One of `p` comes before any lookup was made for `q`,
or is refused anyway and is not taken for a duplicate because of `q`. A reply to a lookup for
`q` does not come while one for `p` is filed under the same number. -/
def Apart (host : IntroHost) (p q : PathID) (s : IntroRelay) : LookupEvent → Prop
  | .findIntro path txid location relayOrder tagged =>
    path = q ∨ path = p ∧
      (s.NoneFor q ∨ Refuses host location relayOrder tagged ∧
        ∀ t, s.pending.tx[(⟨host.ourKey, txid⟩ : TXOwner)]? = some t → t.job.localPath ≠ q)
  | .gotIntro peer txid found =>
    (∀ introset ∈ found, host.verify s.pending.now introset = true) →
      ∀ t, s.pending.tx[(⟨peer, txid⟩ : TXOwner)]? = some t → t.job.localPath = q →
        ∀ (o : TXOwner) u, s.pending.tx[o]? = some u → u.job.localPath = p → u.target ≠ t.target
  | _ => True

/-! ### Outputs -/

/-- What a transaction sends is for the path of its job. -/
theorem path_of_mem_outputs {effect : Effect TXOwner EncryptedIntroSet IntroJob}
    {output : IntroOutput} (member : output ∈ host.outputs effect) :
    output.path = some (effectJob effect).localPath := by
  have reply : ∀ {now : ℕ} {path : PathID} {found : List EncryptedIntroSet} {txid : UInt64},
      output ∈ host.replyTo now path found txid → output.path = some path := by
    intro _ _ _ _ sent
    unfold IntroHost.replyTo at sent
    split_ifs at sent
    · rw [mem_singleton.mp sent]
      rfl
    · exact absurd sent not_mem_nil
  cases effect with
  | created askpeer t => exact absurd member not_mem_nil
  | started askpeer t =>
    simp only [IntroHost.outputs] at member
    cases job : t.job with
    | localServiceAddressLookup localPath relayOrder location =>
      rw [job] at member
      rw [mem_singleton.mp member, effectJob, job]
      rfl
    | localPublishServiceJob localPath txid introset relayOrder =>
      rw [job] at member
      rw [mem_singleton.mp member, effectJob, job]
      rfl
  | replied askpeer t now =>
    simp only [IntroHost.outputs] at member
    cases job : t.job with
    | localServiceAddressLookup localPath relayOrder location =>
      rw [job] at member
      rw [reply member, effectJob, job]
      rfl
    | localPublishServiceJob localPath txid introset relayOrder =>
      rw [job] at member
      rw [reply member, effectJob, job]
      rfl

/-- The outputs for a path are those of the effects for its jobs. -/
theorem filter_flatMap_outputs (effects : List (Effect TXOwner EncryptedIntroSet IntroJob)) :
    (effects.flatMap host.outputs).filter (·.path = some p) =
      (effects.filter fun effect => (effectJob effect).localPath = p).flatMap
        host.outputs := by
  induction effects with
  | nil => rfl
  | cons effect effects ih =>
    rw [flatMap_cons, filter_append, ih, filter_cons]
    by_cases same : (effectJob effect).localPath = p
    · have all : (host.outputs effect).filter (·.path = some p) = host.outputs effect := by
        rw [filter_eq_self]
        intro _ member
        rw [path_of_mem_outputs member, same]
        exact decide_eq_true rfl
      rw [all, if_pos (decide_eq_true same), flatMap_cons]
    · have none : (host.outputs effect).filter (·.path = some p) = [] := by
        rw [filter_eq_nil_iff]
        intro _ member
        rw [path_of_mem_outputs member]
        simpa using same
      rw [none, if_neg (by simpa using same), nil_append]

/-! ### The two runs -/

/-- The jobs of a path. -/
def ofPath (p : PathID) (job : IntroJob) : Bool := job.localPath = p

/-- `s` is the relay with the requests of both paths, `s'` the one without those of `q`. -/
structure Alike (p q : PathID) (s s' : IntroRelay) : Prop where
  pending : s'.pending = s.pending.restrict (ofPath p)
  sent : s'.sentFor p = s.sentFor p
  ids : s.NoneFor q → s'.ids = s.ids
  tidy : s.pending.Tidy
  quiet : s.pending.expiring = []
  paths : ∀ effect ∈ s.pending.log,
    (TXHolder.effectJob effect).localPath = p ∨ (TXHolder.effectJob effect).localPath = q
  made : ∀ (o : TXOwner) t, s.pending.tx[o]? = some t → Effect.created o t ∈ s.pending.log

namespace Alike

section

variable (alike : Alike p q s s')

include alike

theorem now_eq : s'.pending.now = s.pending.now := by
  rw [alike.pending]
  rfl

/-- What is pending in the second run is what is pending for the path. -/
theorem tx_eq (o : TXOwner) :
    s'.pending.tx[o]? = s.pending.tx[o]?.filter fun t => ofPath p t.job := by
  rw [alike.pending, getElem?_tx_restrict]

theorem path_of_pending {o : TXOwner} {t : IntroTX} (pending : s.pending.tx[o]? = some t) :
    t.job.localPath = p ∨ t.job.localPath = q :=
  alike.paths _ (alike.made o t pending)

theorem all_kept (none : s.NoneFor q) :
    ∀ effect ∈ s.pending.log, ofPath p (effectJob effect) = true := by
  intro effect member
  exact decide_eq_true ((alike.paths effect member).resolve_right (none effect member))

/-- As long as no lookup was made for the other path, the relays are the same. -/
theorem pending_eq (none : s.NoneFor q) : s'.pending = s.pending := by
  have kept := alike.all_kept none
  rw [alike.pending]
  refine restrict_eq_self alike.tidy alike.quiet kept fun o t pending => ?_
  exact kept _ (alike.made o t pending)

/-- A reply at once, in the first run and, if it is for the path, in the second. -/
theorem send {outputs outputs' : List IntroOutput}
    (same : outputs'.filter (·.path = some p) = outputs.filter (·.path = some p)) :
    Alike p q (s.send outputs) (s'.send outputs') where
  pending := alike.pending
  sent := by
    show (s'.sent ++ outputs').filter _ = (s.sent ++ outputs).filter _
    rw [filter_append, filter_append, same]
    exact congrArg (· ++ _) alike.sent
  ids := alike.ids
  tidy := alike.tidy
  quiet := alike.quiet
  paths := alike.paths
  made := alike.made

/-- The holders move on to holders that are related in the same way. -/
theorem update {holder holder' : TXHolder TXOwner EncryptedIntroSet IntroJob}
    {effects : List (Effect TXOwner EncryptedIntroSet IntroJob)}
    (logged : holder.log = s.pending.log ++ effects)
    (restricted : holder' = holder.restrict (ofPath p)) (tidy : holder.Tidy)
    (quiet : holder.expiring = [])
    (paths : ∀ effect ∈ effects,
      (effectJob effect).localPath = p ∨ (effectJob effect).localPath = q)
    (made : ∀ (o : TXOwner) t, holder.tx[o]? = some t → Effect.created o t ∈ holder.log)
    {ids ids' : UInt64}
    (sameIds : (∀ effect ∈ holder.log, (effectJob effect).localPath ≠ q) → ids' = ids) :
    Alike p q (update host { s with ids } holder) (update host { s' with ids := ids' } holder') := by
  have logged' : holder'.log = s'.pending.log ++
      effects.filter fun effect => ofPath p (effectJob effect) := by
    rw [restricted, alike.pending]
    show holder.log.filter _ = s.pending.log.filter _ ++ _
    rw [logged, filter_append]
  refine ⟨restricted, ?_, sameIds, tidy, quiet, ?_, made⟩
  · have out : ∀ effects : List (Effect TXOwner EncryptedIntroSet IntroJob),
        ((effects.filter fun effect => ofPath p (effectJob effect)).flatMap
            host.outputs).filter (·.path = some p) =
          (effects.flatMap host.outputs).filter (·.path = some p) := by
      intro effects
      rw [filter_flatMap_outputs, filter_flatMap_outputs, filter_filter]
      simp only [ofPath, Bool.and_self]
    show (s'.sent ++ (holder'.log.drop s'.pending.log.length).flatMap host.outputs).filter _ =
      (s.sent ++ (holder.log.drop s.pending.log.length).flatMap host.outputs).filter _
    rw [logged', logged, drop_left, drop_left, filter_append, filter_append,
      out]
    exact congrArg (· ++ _) alike.sent
  · intro effect member
    rw [show (IntroRelay.update host { s with ids } holder).pending.log = _ from logged] at member
    rcases mem_append.mp member with old | new
    · exact alike.paths effect old
    · exact paths effect new

/-- Rounds of the holder. -/
theorem rounds {holder holder' : TXHolder TXOwner EncryptedIntroSet IntroJob}
    (later : s.pending.Later holder) (restricted : holder' = holder.restrict (ofPath p)) :
    Alike p q (IntroRelay.update host s holder) (IntroRelay.update host s' holder') := by
  obtain ⟨effects, logged, about⟩ := later.logged
  refine alike.update logged restricted later.tidy (later.expiring.trans alike.quiet) ?_ ?_ ?_
  · intro effect member
    obtain ⟨o, t, pending, same⟩ := about effect member
    rw [same]
    exact alike.path_of_pending pending
  · intro o t pending
    rw [logged]
    exact mem_append_left _ (alike.made o t (later.pending o t pending))
  · intro none
    refine alike.ids fun effect member => none effect ?_
    rw [logged]
    exact mem_append_left _ member

theorem cleanupTX : Alike p q (s.cleanupTX host) (s'.cleanupTX host) := by
  refine alike.rounds (later_expireKeys alike.tidy _) ?_
  rw [alike.pending, ← restrict_expireAll alike.tidy]

theorem tick (ms : ℕ) : Alike p q (s.tick ms) (s'.tick ms) where
  pending := by
    show { s'.pending with now := s'.pending.now + ms } = _
    rw [alike.pending]
    rfl
  sent := alike.sent
  ids := alike.ids
  tidy := ⟨alike.tidy.idle, alike.tidy.listed, alike.tidy.once, alike.tidy.timed⟩
  quiet := alike.quiet
  paths := alike.paths
  made := alike.made

end

theorem update_pending (s : IntroRelay) : IntroRelay.update host s s.pending = s := by
  simp [IntroRelay.update]

variable {t : TXOwner → IntroTX} {peer : Key} {r : IntroRelay}

/-- A reply to a lookup for one of the paths. -/
theorem gotIntro (different : p ≠ q) (alike : Alike p q s s') {txid : UInt64}
    {found : List EncryptedIntroSet} (apart : Apart host p q s (.gotIntro peer txid found)) :
    Alike p q (s.gotIntro host peer txid found) (s'.gotIntro host peer txid found) := by
  unfold IntroRelay.gotIntro
  rw [alike.now_eq, alike.tx_eq]
  by_cases verified : found.all (host.verify s.pending.now) = true
  · rw [if_pos verified, if_pos verified]
    cases pending : s.pending.tx[(⟨peer, txid⟩ : TXOwner)]? with
    | none => exact alike
    | some t =>
      rcases alike.path_of_pending pending with mine | other
      · -- both runs have the transaction and inform its target
        have isMine : ofPath p t.job = true := decide_eq_true mine
        rw [Option.filter_some, if_pos isMine]
        refine alike.rounds (later_informAll alike.tidy) ?_
        rw [alike.pending, restrict_informAll alike.tidy]
      · -- only the first run has it, and nobody of the path waits for its target
        have notMine : ofPath p t.job = false :=
          decide_eq_false fun mine => different (mine.symm.trans other)
        rw [Option.filter_some, if_neg (by rw [notMine]; exact Bool.false_ne_true)]
        have nobody : t.target ∉ (s.pending.restrict (ofPath p)).timeouts := by
          rw [mem_timeouts_restrict]
          rintro ⟨-, o, entry, kept⟩
          obtain ⟨u, pending', target⟩ := (alike.tidy.listed _ _).mp entry
          obtain ⟨v, pending'', kept⟩ := keeps_eq_true.mp kept
          cases pending'.symm.trans pending''
          refine apart (all_eq_true.mp verified) t pending other o u pending' ?_ target
          exact of_decide_eq_true kept
        have unchanged : s'.pending =
            (s.pending.informAll host.validate t.target found).restrict (ofPath p) := by
          rw [restrict_informAll alike.tidy,
            informAll_of_not_mem_timeouts alike.tidy.restrict nobody, alike.pending]
        have both : Alike p q
            (IntroRelay.update host s (s.pending.informAll host.validate t.target found))
            (IntroRelay.update host s' s'.pending) :=
          alike.rounds (later_informAll alike.tidy) unchanged
        rwa [update_pending] at both
  · rw [if_neg verified, if_neg verified]
    exact alike

/-- The reply to a refused request of another path does not show. -/
theorem replyTo_other {now : ℕ} {txid : UInt64} (other : q ≠ p) :
    ([] : List IntroOutput).filter (·.path = some p) =
      (host.replyTo now q [] txid).filter (·.path = some p) := by
  unfold IntroHost.replyTo
  split_ifs
  · simp [IntroOutput.path, other]
  · rfl

/-- A transaction is made under the next number, in the first run and, if it is for the path,
in the second. -/
theorem update_newTX (alike : Alike p q s s') {owner : TXOwner} {t : IntroTX}
    {holder' : TXHolder TXOwner EncryptedIntroSet IntroJob} {ids ids' : UInt64}
    (fresh : s.pending.tx[owner]? = none)
    (path : t.job.localPath = p ∨ t.job.localPath = q)
    (restricted : holder' = (s.pending.newTX owner t 15000).restrict (ofPath p))
    (sameIds : s.NoneFor q → t.job.localPath ≠ q → ids' = ids) :
    Alike p q (IntroRelay.update host { s with ids } (s.pending.newTX owner t 15000))
      (IntroRelay.update host { s' with ids := ids' } holder') := by
  obtain ⟨effects, logged, created, about⟩ := log_newTX owner t 15000
  refine alike.update logged restricted (alike.tidy.newTX fresh) alike.quiet ?_ ?_ fun none => ?_
  · intro effect member
    rw [about effect member]
    exact path
  · intro o u pending
    rw [logged]
    rcases tx_newTX fresh pending with ⟨rfl, rfl⟩ | old
    · exact mem_append_right _ created
    · exact mem_append_left _ (alike.made o u old)
  · rw [logged] at none
    refine sameIds (fun effect member => none effect (mem_append_left _ member)) ?_
    exact none _ (mem_append_right _ created)

theorem fresh_of_newTX (made : newTX host s peer t = some r) :
    s.pending.tx[(⟨peer, s.ids + 1⟩ : TXOwner)]? = none ∧
      r = IntroRelay.update host { s with ids := s.ids + 1 }
        (s.pending.newTX ⟨peer, s.ids + 1⟩ (t ⟨peer, s.ids + 1⟩) 15000) := by
  simp only [newTX] at made
  split_ifs at made with used
  refine ⟨?_, (Option.some.inj made).symm⟩
  rw [← not_mem_iff_getElem?]
  exact used

theorem newTX_other (different : p ≠ q) (alike : Alike p q s s')
    (other : ∀ o, (t o).job.localPath = q) (made : newTX host s peer t = some r) :
    Alike p q r s' := by
  obtain ⟨fresh, rfl⟩ := fresh_of_newTX made
  have dropped : ofPath p (t ⟨peer, s.ids + 1⟩).job = false :=
    decide_eq_false fun mine => different (mine.symm.trans (other _))
  have both : Alike p q
      (IntroRelay.update host { s with ids := s.ids + 1 }
        (s.pending.newTX ⟨peer, s.ids + 1⟩ (t ⟨peer, s.ids + 1⟩) 15000))
      (IntroRelay.update host s' s'.pending) := by
    refine alike.update_newTX fresh (.inr (other _)) ?_ fun _ => absurd (other _)
    rw [restrict_newTX_of_dropped alike.tidy fresh dropped, alike.pending]
  rwa [update_pending] at both

theorem newTX_same (alike : Alike p q s s') (mine : ∀ o, (t o).job.localPath = p)
    (none : s.NoneFor q) (made : newTX host s peer t = some r) :
    ∃ r', newTX host s' peer t = some r' ∧ Alike p q r r' := by
  obtain ⟨fresh, rfl⟩ := fresh_of_newTX made
  have samePending := alike.pending_eq none
  have sameIds := alike.ids none
  have unused : ¬ s'.pending.hasPendingLookupFrom ⟨peer, s'.ids + 1⟩ = true := by
    rw [samePending, sameIds]
    intro used
    exact not_mem_iff_getElem?.mpr fresh used
  refine ⟨_, if_neg unused, ?_⟩
  refine alike.update_newTX fresh (.inl (mine _)) ?_ fun _ _ => by rw [sameIds]
  rw [samePending, sameIds]
  -- all that is logged or pending, the new transaction included, is for the path
  have kept := alike.all_kept none
  obtain ⟨effects, logged, -, about⟩ :=
    log_newTX ⟨peer, s.ids + 1⟩ (t ⟨peer, s.ids + 1⟩) 15000
  refine (restrict_eq_self (alike.tidy.newTX fresh) alike.quiet ?_ ?_).symm
  · intro effect member
    rw [logged] at member
    rcases mem_append.mp member with old | new
    · exact kept effect old
    · rw [about effect new]
      exact decide_eq_true (mine _)
  · intro o u pending
    rcases tx_newTX fresh pending with ⟨-, rfl⟩ | old
    · exact decide_eq_true (mine _)
    · exact kept _ (alike.made o u old)

/-- A request of the other path, which the second run does not see. -/
theorem findIntro_other (different : p ≠ q) (alike : Alike p q s s') {txid relayOrder : UInt64}
    {location : Key} {tagged : Bool}
    (handled : s.findIntroForPath host q txid location relayOrder tagged = some r) :
    Alike p q r s' := by
  have refused : Alike p q (s.send (host.replyTo s.pending.now q [] txid)) s' := by
    have both : Alike p q (s.send (host.replyTo s.pending.now q [] txid)) (s'.send []) :=
      alike.send (replyTo_other different.symm)
    simpa [IntroRelay.send] using both
  unfold findIntroForPath at handled
  split_ifs at handled
  · exact Option.some.inj handled ▸ alike
  · exact Option.some.inj handled ▸ alike
  · exact Option.some.inj handled ▸ refused
  · exact Option.some.inj handled ▸ refused
  · split at handled
    · exact Option.some.inj handled ▸ refused
    · rw [lookupIntroSetForPath] at handled
      exact alike.newTX_other different (fun _ => rfl) handled

/-- A request of the path, which both runs see. -/
theorem findIntro_same (alike : Alike p q s s') {txid relayOrder : UInt64} {location : Key}
    {tagged : Bool}
    (apart : s.NoneFor q ∨ Refuses host location relayOrder tagged ∧
      ∀ t, s.pending.tx[(⟨host.ourKey, txid⟩ : TXOwner)]? = some t → t.job.localPath ≠ q)
    (handled : s.findIntroForPath host p txid location relayOrder tagged = some r) :
    ∃ r', s'.findIntroForPath host p txid location relayOrder tagged = some r' ∧
      Alike p q r r' := by
  have duplicate : s'.pending.hasPendingLookupFrom ⟨host.ourKey, txid⟩ =
      s.pending.hasPendingLookupFrom ⟨host.ourKey, txid⟩ := by
    rcases apart with none | ⟨-, notOther⟩
    · rw [alike.pending_eq none]
    · rw [Bool.eq_iff_iff, hasPendingLookupFrom, hasPendingLookupFrom,
        Std.ExtTreeMap.contains_iff_mem, Std.ExtTreeMap.contains_iff_mem,
        mem_iff_exists_getElem?, mem_iff_exists_getElem?, alike.tx_eq]
      cases pending : s.pending.tx[(⟨host.ourKey, txid⟩ : TXOwner)]? with
      | none => rfl
      | some t =>
        have mine : ofPath p t.job = true :=
          decide_eq_true ((alike.path_of_pending pending).resolve_right (notOther t pending))
        rw [Option.filter_some, if_pos mine]
  have refused : Alike p q (s.send (host.replyTo s.pending.now p [] txid))
      (s'.send (host.replyTo s'.pending.now p [] txid)) := by
    rw [alike.now_eq]
    exact alike.send rfl
  unfold findIntroForPath at handled ⊢
  rw [duplicate]
  split_ifs at handled ⊢ with used tag zero order
  · exact ⟨s', rfl, Option.some.inj handled ▸ alike⟩
  · exact ⟨s', rfl, Option.some.inj handled ▸ alike⟩
  · exact ⟨_, rfl, Option.some.inj handled ▸ refused⟩
  · exact ⟨_, rfl, Option.some.inj handled ▸ refused⟩
  · cases closest : (host.closestRCs location)[relayOrder.toNat]? with
    | none =>
      rw [closest] at handled
      exact ⟨_, rfl, Option.some.inj handled ▸ refused⟩
    | some peer =>
      rw [closest] at handled
      rcases apart with none | ⟨refuses, -⟩
      · simp only [lookupIntroSetForPath]
        exact alike.newTX_same (fun _ => rfl) none handled
      · -- a refused request does not come this far
        obtain ⟨inside, -⟩ := List.getElem?_eq_some_iff.mp closest
        rcases refuses with isTagged | isZero | high | few
        · exact absurd isTagged tag
        · exact absurd isZero zero
        · exact absurd high order
        · exact absurd few (Nat.not_le.mpr inside)

end Alike

/-! ### Whole runs -/

theorem alike_start (ids : UInt64) : Alike p q ({ ids } : IntroRelay) { ids } where
  pending := by
    refine (restrict_eq_self TXHolder.Tidy.empty rfl (by simp) ?_).symm
    intro o t pending
    simp at pending
  sent := rfl
  ids _ := rfl
  tidy := TXHolder.Tidy.empty
  quiet := rfl
  paths := by simp
  made o t pending := by simp at pending

/-- One step of the first run, and the step of the second run if there is one. -/
theorem Alike.step (different : p ≠ q) (alike : Alike p q s s') {e : LookupEvent}
    (apart : s.Apart host p q e) {r : IntroRelay} (moved : s.step host e = some r) :
    ∃ r', run (step host) s' ([e].filter fun e => !e.isFrom q) = some r' ∧
      Alike p q r r' := by
  cases e with
  | findIntro path txid location relayOrder tagged =>
    rcases apart with rfl | ⟨rfl, apart⟩
    · refine ⟨s', by simp [LookupEvent.isFrom], alike.findIntro_other different moved⟩
    · obtain ⟨r', moved', alike'⟩ := alike.findIntro_same apart moved
      refine ⟨r', ?_, alike'⟩
      simp [LookupEvent.isFrom, different, run_cons, step, moved']
  | gotIntro peer txid found =>
    cases moved
    exact ⟨_, by simp [LookupEvent.isFrom, run_cons, IntroRelay.step],
      alike.gotIntro different apart⟩
  | cleanupTX =>
    cases moved
    exact ⟨_, by simp [LookupEvent.isFrom, run_cons, IntroRelay.step], alike.cleanupTX⟩
  | tick ms =>
    cases moved
    exact ⟨_, by simp [LookupEvent.isFrom, run_cons, IntroRelay.step], alike.tick ms⟩

/-- What the relay sends for one path is what it sends when the requests of the other path are
taken out of the run, if the lookups of the two are kept apart. -/
theorem sentFor_eq_of_apart (host : IntroHost) (p q : PathID) (different : p ≠ q) (ids : UInt64)
    (events : List LookupEvent) (apart : Along (step host) (Apart host p q) { ids } events)
    (s : IntroRelay) (through : run (step host) { ids } events = some s) :
    ∃ s', run (step host) { ids } (events.filter fun e => !e.isFrom q) = some s' ∧
      s'.sentFor p = s.sentFor p := by
  have together : ∀ events a a', Alike p q a a' →
      Along (step host) (Apart host p q) a events → run (step host) a events = some s →
      ∃ s', run (step host) a' (events.filter fun e => !e.isFrom q) = some s' ∧
        Alike p q s s' := by
    intro events
    induction events with
    | nil =>
      rintro a a' alike - through
      exact ⟨a', rfl, Option.some.inj through ▸ alike⟩
    | cons e events ih =>
      intro a _ alike apart through
      rw [along_cons] at apart
      obtain ⟨b, moved, rest⟩ := Option.bind_eq_some_iff.mp through
      obtain ⟨b', moved', alike'⟩ := alike.step different apart.1 moved
      obtain ⟨s', rest', final⟩ := ih b b' alike' (apart.2 b moved) rest
      refine ⟨s', ?_, final⟩
      rw [← singleton_append, filter_append, run_append, moved']
      exact rest'
  obtain ⟨s', through', alike⟩ := together events _ _ (alike_start ids) apart through
  exact ⟨s', through', alike.sent⟩

instance (host : IntroHost) (location : Key) (relayOrder : UInt64) (tagged : Bool) :
    Decidable (Refuses host location relayOrder tagged) :=
  inferInstanceAs (Decidable (_ ∨ _ ∨ _ ∨ _))

instance (path : PathID) (s : IntroRelay) : Decidable (s.NoneFor path) :=
  inferInstanceAs (Decidable (∀ effect ∈ s.pending.log, _))

instance (host : IntroHost) (p q : PathID) (s : IntroRelay) (e : LookupEvent) :
    Decidable (s.Apart host p q e) := by
  unfold Apart
  split
  · infer_instance
  · infer_instance
  · infer_instance

/-- Path 1 asks for key 1 with number 5, then path 2 asks for key 2 with number 6, and both
get their replies. -/
theorem sentFor_eq_of_apart_two_paths :
    let path := fun byte : UInt8 => (AlignedBuffer.copy 16 [byte])
    let events : List LookupEvent :=
      [.findIntro (path 1) 5 (plainKey 1) 0 false, .findIntro (path 2) 6 (plainKey 2) 0 false,
        .gotIntro (plainKey 2) 2 [], .gotIntro (plainKey 1) 1 []]
    ∃ s, run (step (plainIntroHost 5)) { ids := 0 } events = some s ∧
      ∃ s', run (step (plainIntroHost 5)) { ids := 0 } (events.filter fun e => !e.isFrom (path 2)) =
        some s' ∧ s'.sentFor (path 1) = s.sentFor (path 1) := by
  intro path events
  have defined : (run (step (plainIntroHost 5)) { ids := 0 } events).isSome := by decide +kernel
  obtain ⟨s, through⟩ := Option.isSome_iff_exists.mp defined
  refine ⟨s, through, ?_⟩
  exact sentFor_eq_of_apart _ (path 1) (path 2) (by decide) 0 events (by decide +kernel) s through

/-- Two paths use the same number. Path 2 asks for key 2 first, so the relay never asks anyone
for the key of path 1, and answers path 1 when the reply for key 2 comes. Without path 2 the
relay asks router 1 and does not answer before that router does. -/
theorem same_number_interferes :
    let path := fun byte : UInt8 => (AlignedBuffer.copy 16 [byte])
    let events : List LookupEvent :=
      [.findIntro (path 2) 5 (plainKey 2) 0 false, .findIntro (path 1) 5 (plainKey 1) 0 false,
        .gotIntro (plainKey 2) 1 []]
    ∃ s, run (step (plainIntroHost 5)) { ids := 0 } events = some s ∧
      s.sentFor (path 1) = [.toPath (path 1) [] 5] ∧
      ∃ s', run (step (plainIntroHost 5)) { ids := 0 }
          (events.filter fun e => !e.isFrom (path 2)) = some s' ∧
        s'.sentFor (path 1) = [.toPeer (plainKey 1) (.findIntro 1 (plainKey 1) 0) (some (path 1))] := by
  decide +kernel

end IntroRelay

end Llarp.Dht

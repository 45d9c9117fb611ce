import Llarp.Dht.TXHolder

/-!
# Whole rounds of the holder

When the handlers of the transactions do not call the holder again, a call of `Inform` or
`Expire` can be seen as one step. `informAll` and `expireAll` are these steps, and a run of the
machine that is not interrupted ends where they do.

`restrict` is the holder of a program that has some of the jobs only. A round in the
restricted holder is the restriction of the round.
-/

set_option autoImplicit false
set_option linter.unusedSectionVars false

namespace Llarp.Dht.TXHolder

open Foundation Option

variable {K V J : Type} [Ord K] [Std.TransOrd K] [Std.LawfulEqOrd K] [DecidableEq K]
  {validate : ℕ → J → V → Bool} {s : TXHolder K V J} {key k : K} {values : List V}
  {visited : List TXOwner} {o : TXOwner}

/-! ### Rounds -/

/-- Visit some owners one after the other. -/
def answerAll (validate : ℕ → J → V → Bool) (s : TXHolder K V J) (visited : List TXOwner)
    (values : List V) : TXHolder K V J :=
  visited.foldl (fun s owner => answer validate s owner values) s

/-- `Inform` from its beginning to its end. -/
def informAll (validate : ℕ → J → V → Bool) (s : TXHolder K V J) (key : K) (values : List V) :
    TXHolder K V J :=
  (answerAll validate s (s.owners key) values).finish key

/-- Inform the transactions of some keys that nothing was found. -/
def expireKeys (validate : ℕ → J → V → Bool) (s : TXHolder K V J) (keys : List K) :
    TXHolder K V J :=
  keys.foldl (fun s key => informAll validate s key []) s

/-- `Expire` from its beginning to its end. -/
def expireAll (validate : ℕ → J → V → Bool) (s : TXHolder K V J) : TXHolder K V J :=
  expireKeys validate s s.expire.expiring

theorem answer_informing (informing : Option (Informing K V)) (owner : TXOwner) :
    answer validate { s with informing } owner values =
      { answer validate s owner values with informing } := by
  unfold answer
  cases s.tx[owner]? with
  | none => rfl
  | some t => rfl

/-- The steps of an uninterrupted loop add up to a round. -/
theorem run_informing (rest : List TXOwner) (s : TXHolder K V J) :
    run (step validate) { s with informing := some ⟨key, values, rest⟩ }
        (List.replicate (rest.length + 1) .next) =
      some ((answerAll validate s rest values).finish key) := by
  induction rest generalizing s with
  | nil => rfl
  | cons owner rest ih =>
    have taken : step validate { s with informing := some ⟨key, values, owner :: rest⟩ } .next =
        some { answer validate s owner values with informing := some ⟨key, values, rest⟩ } := by
      rw [← answer_informing]
      rfl
    rw [List.replicate_succ, run_cons, taken]
    exact ih (answer validate s owner values)

theorem answerAll_cons {owner : TXOwner} {rest : List TXOwner} :
    answerAll validate s (owner :: rest) values =
      answerAll validate (answer validate s owner values) rest values := rfl

/-- Visiting changes the transactions and the log only. -/
theorem answerAll_eq :
    answerAll validate s visited values =
      { s with
        tx := (answerAll validate s visited values).tx
        log := (answerAll validate s visited values).log } := by
  induction visited generalizing s with
  | nil => rfl
  | cons owner rest ih =>
    rw [answerAll_cons, ih]
    unfold answer
    cases s.tx[owner]? with
    | none => rfl
    | some t => rfl

theorem tx_answerAll :
    (answerAll validate s visited values).tx[o]? = if o ∈ visited then none else s.tx[o]? := by
  induction visited generalizing s with
  | nil => rfl
  | cons owner rest ih =>
    rw [answerAll_cons, ih, getElem?_tx_answer]
    by_cases later : o ∈ rest
    · simp [later]
    · by_cases same : owner = o
      · simp [same]
      · simp [later, same, Ne.symm same]

/-- The reply of an owner's transaction, if there is one. -/
def replyOf (validate : ℕ → J → V → Bool) (s : TXHolder K V J) (values : List V) (o : TXOwner) :
    Option (Effect K V J) :=
  s.tx[o]?.map fun t => .replied o (onFound validate s.now t values) s.now

theorem log_answerAll (distinct : visited.Nodup) :
    (answerAll validate s visited values).log =
      s.log ++ visited.filterMap (replyOf validate s values) := by
  induction visited generalizing s with
  | nil => simp [answerAll]
  | cons owner rest ih =>
    obtain ⟨fresh, distinct⟩ := List.nodup_cons.mp distinct
    have later : rest.filterMap (replyOf validate (answer validate s owner values) values) =
        rest.filterMap (replyOf validate s values) := by
      apply List.filterMap_congr
      intro o member
      have other : owner ≠ o := fun same => fresh (same ▸ member)
      rw [replyOf, replyOf, getElem?_tx_answer, if_neg other, now_answer]
    have first : (answer validate s owner values).log =
        s.log ++ (replyOf validate s values owner).toList := by
      unfold answer replyOf
      cases s.tx[owner]? with
      | none => simp
      | some t => rfl
    rw [answerAll_cons, ih distinct, later, first, List.append_assoc, List.filterMap_cons]
    cases replyOf validate s values owner with
    | none => rfl
    | some effect => rfl

theorem informAll_eq :
    s.informAll validate key values =
      { s with
        tx := (answerAll validate s (s.owners key) values).tx
        log := (answerAll validate s (s.owners key) values).log
        waiting := s.waiting.filter (·.1 ≠ key)
        timeouts := s.timeouts.erase key
        informing := none } := by
  rw [informAll, finish, answerAll_eq]

@[simp] theorem waiting_informAll :
    (s.informAll validate key values).waiting = s.waiting.filter (·.1 ≠ key) := by
  rw [informAll_eq]

@[simp] theorem timeouts_informAll :
    (s.informAll validate key values).timeouts = s.timeouts.erase key := by
  rw [informAll_eq]

@[simp] theorem now_informAll : (s.informAll validate key values).now = s.now := by
  rw [informAll_eq]

@[simp] theorem informing_informAll :
    (s.informAll validate key values).informing = none := by
  rw [informAll_eq]

@[simp] theorem expiring_informAll :
    (s.informAll validate key values).expiring = s.expiring := by
  rw [informAll_eq]

theorem tx_informAll :
    (s.informAll validate key values).tx[o]? = if o ∈ s.owners key then none else s.tx[o]? := by
  exact tx_answerAll

theorem mem_owners : o ∈ s.owners key ↔ (key, o) ∈ s.waiting := by
  simp [owners]

theorem answerAll_expiring (expiring : List K) :
    answerAll validate { s with expiring } visited values =
      { answerAll validate s visited values with expiring } := by
  induction visited generalizing s with
  | nil => rfl
  | cons owner rest ih =>
    have first : answer validate { s with expiring } owner values =
        { answer validate s owner values with expiring } := by
      unfold answer
      cases s.tx[owner]? with
      | none => rfl
      | some t => rfl
    rw [answerAll_cons, answerAll_cons, first, ih]

/-- The steps of an uninterrupted `Expire` add up to its rounds, one for each key. -/
theorem run_expiring (validate : ℕ → J → V → Bool) (keys : List K) (s : TXHolder K V J) (idle : s.informing = none) :
    ∃ n, run (step validate) { s with expiring := keys } (List.replicate n .next) =
      some { s.expireKeys validate keys with expiring := [] } := by
  induction keys generalizing s with
  | nil => exact ⟨0, rfl⟩
  | cons key keys ih =>
    have entered : step validate { s with expiring := key :: keys } .next =
        some (inform { s with expiring := keys } key []) := by
      simp only [step, next, idle]
    have through : run (step validate) (inform { s with expiring := keys } key [])
        (List.replicate ((s.owners key).length + 1) .next) =
        some { s.informAll validate key [] with expiring := keys } := by
      refine (run_informing (s.owners key) { s with expiring := keys }).trans ?_
      rw [answerAll_expiring]
      rfl
    obtain ⟨n, rest⟩ := ih (s.informAll validate key []) informing_informAll
    refine ⟨1 + ((s.owners key).length + 1 + n), ?_⟩
    rw [List.replicate_add, run_append, List.replicate_one, run_cons, entered,
      bind_some, run_nil, bind_some, List.replicate_add, run_append, through]
    exact rest

/-- Between rounds the containers agree: what is pending is listed once under its target, and
the keys that have a deadline are those that are listed. -/
structure Tidy (s : TXHolder K V J) : Prop where
  idle : s.informing = none
  listed : ∀ k o, (k, o) ∈ s.waiting ↔ ∃ t, s.tx[o]? = some t ∧ t.target = k
  once : (s.waiting.map (·.2)).Nodup
  timed : ∀ k, k ∈ s.timeouts ↔ ∃ o, (k, o) ∈ s.waiting

namespace Tidy

theorem empty {now : ℕ} {log : List (Effect K V J)} :
    Tidy ({ now, log } : TXHolder K V J) where
  idle := rfl
  listed := by simp
  once := List.nodup_nil
  timed := by simp

theorem nodup_owners (tidy : s.Tidy) : (s.owners key).Nodup :=
  tidy.once.sublist (List.filter_sublist.map _)

theorem eq_of_mem_waiting (tidy : s.Tidy) (here : (k, o) ∈ s.waiting)
    (there : (key, o) ∈ s.waiting) : k = key := by
  obtain ⟨t, pending, rfl⟩ := (tidy.listed k o).mp here
  obtain ⟨u, pending', rfl⟩ := (tidy.listed key o).mp there
  rw [some.inj (pending.symm.trans pending')]

theorem newTX (tidy : s.Tidy) {t : TX K V J} {requestTimeout : ℕ+} (fresh : s.tx[o]? = none) :
    Tidy (s.newTX o t requestTimeout) where
  idle := tidy.idle
  listed k owner := by
    show (k, owner) ∈ (t.target, o) :: s.waiting ↔
      ∃ u, (s.tx.insertIfNew o t)[owner]? = some u ∧ u.target = k
    rw [insertIfNew_eq_insert fresh, getElem?_insert, List.mem_cons, tidy.listed]
    by_cases same : o = owner
    · subst same
      simp [fresh, eq_comm]
    · simp [same, Ne.symm same]
  once := by
    refine List.nodup_cons.mpr ⟨fun listed => ?_, tidy.once⟩
    obtain ⟨⟨k, owner⟩, entry, rfl⟩ := List.mem_map.mp listed
    obtain ⟨u, pending, -⟩ := (tidy.listed k owner).mp entry
    cases fresh.symm.trans pending
  timed k := by
    show k ∈ s.timeouts.insertIfNew t.target _ ↔ ∃ owner, (k, owner) ∈ (t.target, o) :: s.waiting
    rw [Std.ExtTreeMap.mem_insertIfNew, Std.LawfulEqOrd.compare_eq_iff_eq, tidy.timed]
    constructor
    · rintro (rfl | ⟨owner, entry⟩)
      · exact ⟨o, List.mem_cons_self ..⟩
      · exact ⟨owner, List.mem_cons_of_mem _ entry⟩
    · rintro ⟨owner, entry⟩
      rcases List.mem_cons.mp entry with same | old
      · exact .inl (Prod.ext_iff.mp same).1.symm
      · exact .inr ⟨owner, old⟩

theorem informAll (tidy : s.Tidy) : Tidy (s.informAll validate key values) := by
  rw [informAll_eq]
  refine ⟨rfl, fun k owner => ?_, ?_, fun k => ?_⟩
  · show (k, owner) ∈ s.waiting.filter _ ↔
      ∃ t, (answerAll validate s (s.owners key) values).tx[owner]? = some t ∧ t.target = k
    rw [List.mem_filter, decide_eq_true_eq, tx_answerAll]
    by_cases gone : owner ∈ s.owners key
    · have others : ¬ ((k, owner) ∈ s.waiting ∧ k ≠ key) := fun ⟨entry, other⟩ =>
        other (tidy.eq_of_mem_waiting entry (mem_owners.mp gone))
      simp [gone, others]
    · rw [if_neg gone, ← tidy.listed]
      exact ⟨fun h => h.1, fun entry => ⟨entry, fun same => gone (mem_owners.mpr (same ▸ entry))⟩⟩
  · exact tidy.once.sublist (List.filter_sublist.map _)
  · show k ∈ s.timeouts.erase key ↔ ∃ owner, (k, owner) ∈ s.waiting.filter _
    rw [Std.ExtTreeMap.mem_erase, tidy.timed]
    simp only [List.mem_filter, decide_eq_true_eq]
    constructor
    · rintro ⟨other, owner, entry⟩
      refine ⟨owner, entry, fun same => other ?_⟩
      rw [same]
      exact Std.ReflCmp.compare_self
    · rintro ⟨owner, entry, other⟩
      exact ⟨fun same => other (Std.LawfulEqOrd.eq_of_compare same).symm, owner, entry⟩

end Tidy

/-! ### The holder of some of the jobs -/

/-- The job of the transaction that an effect is about. -/
def effectJob : Effect K V J → J
  | .created _ t => t.job
  | .started _ t => t.job
  | .replied _ t _ => t.job

/-- Whether the transaction of an owner is one for the given jobs. -/
def keeps (keep : J → Bool) (s : TXHolder K V J) (o : TXOwner) : Bool :=
  s.tx[o]?.any fun t => keep t.job

/-- The part of the holder that is about the given jobs. -/
def restrict (keep : J → Bool) (s : TXHolder K V J) : TXHolder K V J where
  waiting := s.waiting.filter fun entry => s.keeps keep entry.2
  timeouts := s.timeouts.filter fun key _ =>
    s.waiting.any fun entry => entry.1 = key && s.keeps keep entry.2
  tx := s.tx.filter fun _ t => keep t.job
  now := s.now
  log := s.log.filter fun effect => keep (effectJob effect)

variable {keep : J → Bool}

theorem keeps_eq_true : s.keeps keep o = true ↔ ∃ t, s.tx[o]? = some t ∧ keep t.job = true := by
  rw [keeps, any_eq_true]

theorem getElem?_tx_restrict :
    (s.restrict keep).tx[o]? = s.tx[o]?.filter fun t => keep t.job := by
  rw [restrict, Std.ExtTreeMap.getElem?_filter']

theorem getElem?_timeouts_restrict :
    (s.restrict keep).timeouts[k]? = s.timeouts[k]?.filter fun _ =>
      s.waiting.any fun entry => entry.1 = k && s.keeps keep entry.2 := by
  rw [restrict, Std.ExtTreeMap.getElem?_filter']

/-- The owners of a key in the restricted holder, in the order of the holder. -/
theorem owners_restrict : (s.restrict keep).owners key = (s.owners key).filter (s.keeps keep) := by
  rw [owners, owners, restrict, List.filter_comm, List.filter_map]
  rfl

theorem mem_timeouts_restrict :
    key ∈ (s.restrict keep).timeouts ↔
      key ∈ s.timeouts ∧ ∃ o, (key, o) ∈ s.waiting ∧ s.keeps keep o = true := by
  rw [mem_iff_exists_getElem?, getElem?_timeouts_restrict, mem_iff_exists_getElem?]
  cases s.timeouts[key]? with
  | none => simp
  | some deadline => simp [filter_eq_some_iff]

theorem Tidy.restrict (tidy : s.Tidy) : Tidy (s.restrict keep) where
  idle := rfl
  listed k owner := by
    rw [getElem?_tx_restrict, TXHolder.restrict, List.mem_filter, keeps_eq_true, tidy.listed]
    simp only [filter_eq_some_iff]
    constructor
    · rintro ⟨⟨t, pending, target⟩, u, pending', kept⟩
      cases pending.symm.trans pending'
      exact ⟨t, ⟨pending, kept⟩, target⟩
    · rintro ⟨t, ⟨pending, kept⟩, target⟩
      exact ⟨⟨t, pending, target⟩, t, pending, kept⟩
  once := tidy.once.sublist (List.filter_sublist.map _)
  timed k := by
    rw [mem_timeouts_restrict, TXHolder.restrict, tidy.timed]
    simp only [List.mem_filter]
    exact ⟨fun h => h.2, fun ⟨o, entry, kept⟩ => ⟨⟨o, entry⟩, o, entry, kept⟩⟩

/-- A round keeps whose transactions are left. -/
theorem keeps_informAll (tidy : s.Tidy) (listed : (k, o) ∈ s.waiting) (other : k ≠ key) :
    (s.informAll validate key values).keeps keep o = s.keeps keep o := by
  have left : o ∉ s.owners key := fun member =>
    other (tidy.eq_of_mem_waiting listed (mem_owners.mp member))
  rw [keeps, keeps, tx_informAll, if_neg left]

theorem log_informAll (tidy : s.Tidy) :
    (s.informAll validate key values).log =
      s.log ++ (s.owners key).filterMap (replyOf validate s values) := by
  exact log_answerAll tidy.nodup_owners

/-- The replies of the restricted holder are those of the jobs that it keeps. -/
theorem filterMap_replyOf_restrict (visited : List TXOwner) :
    (visited.filter (s.keeps keep)).filterMap (replyOf validate (s.restrict keep) values) =
      (visited.filterMap (replyOf validate s values)).filter fun effect =>
        keep (effectJob effect) := by
  induction visited with
  | nil => rfl
  | cons owner rest ih =>
    cases pending : s.tx[owner]? with
    | none =>
      have dropped : s.keeps keep owner = false := by rw [keeps, pending]; rfl
      have silent : replyOf validate s values owner = none := by rw [replyOf, pending]; rfl
      rw [List.filter_cons, dropped, List.filterMap_cons, silent]
      exact ih
    | some t =>
      have kept : s.keeps keep owner = keep t.job := by rw [keeps, pending]; rfl
      have reply : replyOf validate s values owner =
          some (.replied owner (onFound validate s.now t values) s.now) := by
        rw [replyOf, pending]
        rfl
      rw [List.filter_cons, kept, List.filterMap_cons, reply, List.filter_cons, ← ih]
      cases same : keep t.job with
      | false => simp [effectJob, onFound, same]
      | true =>
        have restricted : replyOf validate (s.restrict keep) values owner =
            some (.replied owner (onFound validate s.now t values) s.now) := by
          rw [replyOf, getElem?_tx_restrict, pending, filter_some, if_pos same]
          rfl
        simp [effectJob, onFound, same, restricted]

/-- A round among some of the jobs is the restriction of the whole round. -/
theorem restrict_informAll (tidy : s.Tidy) :
    (s.informAll validate key values).restrict keep =
      (s.restrict keep).informAll validate key values := by
  have stays : ∀ entry ∈ s.waiting.filter (·.1 ≠ key),
      (s.informAll validate key values).keeps keep entry.2 = s.keeps keep entry.2 := by
    rintro ⟨k, owner⟩ entry
    rw [List.mem_filter, decide_eq_true_eq] at entry
    exact keeps_informAll tidy entry.1 entry.2
  ext1
  case waiting =>
    rw [waiting_informAll, restrict, restrict, waiting_informAll, List.filter_congr stays,
      List.filter_comm]
  case timeouts =>
    ext1 k
    rw [timeouts_informAll, getElem?_timeouts_restrict, timeouts_informAll, getElem?_erase,
      getElem?_erase, getElem?_timeouts_restrict]
    by_cases same : key = k
    · rw [if_pos same, if_pos same, filter_none]
    · have listed : ((s.informAll validate key values).waiting.any fun entry =>
            entry.1 = k && (s.informAll validate key values).keeps keep entry.2) =
          s.waiting.any fun entry => entry.1 = k && s.keeps keep entry.2 := by
        rw [waiting_informAll, List.any_filter]
        rw [Bool.eq_iff_iff, List.any_eq_true, List.any_eq_true]
        refine exists_congr fun entry => and_congr_right fun member => ?_
        by_cases here : entry.1 = k
        · have other : entry.1 ≠ key := fun there => same (there.symm.trans here)
          rw [stays entry (List.mem_filter.mpr ⟨member, decide_eq_true other⟩)]
          simp [other]
        · simp [here]
      rw [if_neg same, if_neg same, listed]
  case tx =>
    ext1 owner
    rw [getElem?_tx_restrict, tx_informAll, tx_informAll, getElem?_tx_restrict, owners_restrict]
    simp only [List.mem_filter]
    by_cases visited : owner ∈ s.owners key
    · cases kept : s.keeps keep owner with
      | true => simp [visited]
      | false =>
        -- a transaction of another job is gone from both
        have dropped : s.tx[owner]?.filter (fun t => keep t.job) = none := by
          rw [filter_eq_none_iff]
          intro t pending kept'
          exact Bool.false_ne_true (kept.symm.trans (keeps_eq_true.mpr ⟨t, pending, kept'⟩))
        simp [visited, dropped]
    · simp [visited]
  case informing => rw [informing_informAll, restrict]
  case expiring => rw [expiring_informAll, restrict, restrict]
  case now => rw [now_informAll, restrict, restrict, now_informAll]
  case log =>
    rw [log_informAll tidy.restrict, owners_restrict, filterMap_replyOf_restrict, restrict,
      log_informAll tidy, List.filter_append]
    rfl

/-- Expiring a key that has no deadline does nothing. -/
theorem informAll_of_not_mem_timeouts (tidy : s.Tidy) (absent : key ∉ s.timeouts) :
    s.informAll validate key values = s := by
  have unlisted : ∀ o, (key, o) ∉ s.waiting := fun o entry =>
    absent ((tidy.timed key).mpr ⟨o, entry⟩)
  have nobody : s.owners key = [] := by
    rw [List.eq_nil_iff_forall_not_mem]
    exact fun o member => unlisted o (mem_owners.mp member)
  ext1
  case waiting =>
    rw [waiting_informAll, List.filter_eq_self]
    rintro ⟨k, o⟩ entry
    refine decide_eq_true fun same => ?_
    subst same
    exact unlisted o entry
  case timeouts => rw [timeouts_informAll, erase_of_getElem? (not_mem_iff_getElem?.mp absent)]
  case tx =>
    ext1 o
    rw [tx_informAll, nobody, if_neg List.not_mem_nil]
  case informing => rw [informing_informAll, tidy.idle]
  case expiring => rw [expiring_informAll]
  case now => rw [now_informAll]
  case log => rw [log_informAll tidy, nobody, List.filterMap_nil, List.append_nil]

theorem expireKeys_cons {keys : List K} :
    s.expireKeys validate (key :: keys) =
      (s.informAll validate key []).expireKeys validate keys := rfl

/-- Keys without a deadline may be left out. -/
theorem expireKeys_filter (tidy : s.Tidy) (due : K → Bool) (keys : List K)
    (others : ∀ k ∈ keys, due k = false → k ∉ s.timeouts) :
    s.expireKeys validate keys = s.expireKeys validate (keys.filter due) := by
  induction keys generalizing s with
  | nil => rfl
  | cons key keys ih =>
    rw [List.filter_cons, expireKeys_cons]
    cases isDue : due key with
    | true =>
      refine ih tidy.informAll fun k member notDue listed => ?_
      rw [timeouts_informAll, Std.ExtTreeMap.mem_erase] at listed
      exact others k (List.mem_cons_of_mem _ member) notDue listed.2
    | false =>
      rw [informAll_of_not_mem_timeouts tidy (others key (List.mem_cons_self ..) isDue)]
      exact ih tidy fun k member => others k (List.mem_cons_of_mem _ member)

theorem restrict_expireKeys (tidy : s.Tidy) (keys : List K) :
    (s.expireKeys validate keys).restrict keep = (s.restrict keep).expireKeys validate keys := by
  induction keys generalizing s with
  | nil => rfl
  | cons key keys ih =>
    rw [expireKeys_cons, expireKeys_cons, ih tidy.informAll, restrict_informAll tidy]

/-- `Expire` among some of the jobs is the restriction of the whole `Expire`. -/
theorem restrict_expireAll (tidy : s.Tidy) :
    (s.expireAll validate).restrict keep = (s.restrict keep).expireAll validate := by
  set due : K → Bool := fun key =>
    s.waiting.any fun entry => entry.1 = key && s.keeps keep entry.2
  have overdue : (s.restrict keep).expire.expiring = s.expire.expiring.filter due := by
    show (((s.timeouts.filter fun key _ => due key).toList.filter _).map _) = _
    rw [Std.ExtTreeMap.toList_filter, expire, List.filter_map, List.filter_comm]
    rfl
  rw [expireAll, expireAll, restrict_expireKeys tidy, overdue]
  refine expireKeys_filter tidy.restrict due _ fun key _ notDue listed => ?_
  obtain ⟨-, o, entry, kept⟩ := mem_timeouts_restrict.mp listed
  have isDue : due key = true :=
    List.any_eq_true.mpr ⟨(key, o), entry, by simp [kept]⟩
  exact Bool.false_ne_true (notDue.symm.trans isDue)

/-- A holder that has no other jobs is its own restriction. -/
theorem restrict_eq_self (tidy : s.Tidy) (started : s.expiring = [])
    (all : ∀ effect ∈ s.log, keep (effectJob effect) = true)
    (pending : ∀ (o : TXOwner) (t : TX K V J), s.tx[o]? = some t → keep t.job = true) :
    s.restrict keep = s := by
  have kept : ∀ k o, (k, o) ∈ s.waiting → s.keeps keep o = true := by
    intro k o entry
    obtain ⟨t, found, -⟩ := (tidy.listed k o).mp entry
    exact keeps_eq_true.mpr ⟨t, found, pending o t found⟩
  ext1
  case waiting => exact List.filter_eq_self.mpr fun entry => kept entry.1 entry.2
  case timeouts =>
    ext1 k
    rw [getElem?_timeouts_restrict]
    cases found : s.timeouts[k]? with
    | none => rfl
    | some deadline =>
      obtain ⟨o, entry⟩ := (tidy.timed k).mp (mem_iff_exists_getElem?.mpr ⟨deadline, found⟩)
      have listed : (s.waiting.any fun entry => entry.1 = k && s.keeps keep entry.2) = true :=
        List.any_eq_true.mpr ⟨(k, o), entry, by simp [kept k o entry]⟩
      rw [listed]
      rfl
  case tx =>
    ext1 o
    rw [getElem?_tx_restrict]
    cases found : s.tx[o]? with
    | none => rfl
    | some t => rw [filter_some, if_pos (pending o t found)]
  case informing => rw [tidy.idle, restrict]
  case expiring => rw [started, restrict]
  case now => rfl
  case log => exact List.filter_eq_self.mpr all

theorem log_newTX (o : TXOwner) (t : TX K V J) (requestTimeout : ℕ+) :
    ∃ effects, (s.newTX o t requestTimeout).log = s.log ++ effects ∧
      Effect.created o t ∈ effects ∧ ∀ effect ∈ effects, effectJob effect = t.job := by
  refine ⟨_, rfl, List.mem_cons_self .., fun effect member => ?_⟩
  rcases List.mem_cons.mp member with rfl | member
  · rfl
  · split_ifs at member
    · rw [List.mem_singleton.mp member]
      rfl
    · exact absurd member List.not_mem_nil

/-- What is pending after a `newTX` was created then or is pending from before. -/
theorem tx_newTX {t u : TX K V J} {requestTimeout : ℕ+} {owner : TXOwner}
    (fresh : s.tx[o]? = none) (pending : (s.newTX o t requestTimeout).tx[owner]? = some u) :
    (owner = o ∧ u = t) ∨ s.tx[owner]? = some u := by
  replace pending : (s.tx.insertIfNew o t)[owner]? = some u := pending
  rw [insertIfNew_eq_insert fresh, getElem?_insert_eq_some] at pending
  exact pending.imp_right fun old => old.2

/-- A transaction for another job does not show. -/
theorem restrict_newTX_of_dropped (tidy : s.Tidy) {t : TX K V J} {requestTimeout : ℕ+}
    (fresh : s.tx[o]? = none) (dropped : keep t.job = false) :
    (s.newTX o t requestTimeout).restrict keep = s.restrict keep := by
  have pendingEq : ∀ owner, (s.newTX o t requestTimeout).tx[owner]? =
      if o = owner then some t else s.tx[owner]? := by
    intro owner
    show (s.tx.insertIfNew o t)[owner]? = _
    rw [insertIfNew_eq_insert fresh, getElem?_insert]
  have newcomer : (s.newTX o t requestTimeout).keeps keep o = false := by
    rw [keeps, pendingEq, if_pos rfl]
    exact dropped
  have stays : ∀ entry ∈ s.waiting,
      (s.newTX o t requestTimeout).keeps keep entry.2 = s.keeps keep entry.2 := by
    rintro ⟨k, owner⟩ entry
    have other : o ≠ owner := by
      rintro rfl
      obtain ⟨u, pending, -⟩ := (tidy.listed k o).mp entry
      cases fresh.symm.trans pending
    rw [keeps, keeps, pendingEq, if_neg other]
  ext1
  case waiting =>
    show ((t.target, o) :: s.waiting).filter
        (fun entry => (s.newTX o t requestTimeout).keeps keep entry.2) = _
    rw [List.filter_cons, newcomer, List.filter_congr stays]
    rfl
  case timeouts =>
    ext1 k
    have listed : ((s.newTX o t requestTimeout).waiting.any fun entry =>
          entry.1 = k && (s.newTX o t requestTimeout).keeps keep entry.2) =
        s.waiting.any fun entry => entry.1 = k && s.keeps keep entry.2 := by
      show ((t.target, o) :: s.waiting).any _ = _
      rw [List.any_cons, newcomer, Bool.and_false, Bool.false_or, Bool.eq_iff_iff,
        List.any_eq_true, List.any_eq_true]
      exact exists_congr fun entry => and_congr_right fun member => by rw [stays entry member]
    rw [getElem?_timeouts_restrict, getElem?_timeouts_restrict, listed]
    show (s.timeouts.insertIfNew t.target _)[k]?.filter _ = _
    rw [getElem?_insertIfNew]
    split_ifs
    · cases found : s.timeouts[k]? with
      | some deadline => rfl
      | none =>
        have nobody : (s.waiting.any fun entry => entry.1 = k && s.keeps keep entry.2) = false := by
          rw [List.any_eq_false]
          rintro ⟨key, owner⟩ entry both
          rw [Bool.and_eq_true, decide_eq_true_eq] at both
          have timed := (tidy.timed key).mpr ⟨owner, entry⟩
          rw [show key = k from both.1] at timed
          exact not_mem_iff_getElem?.mpr found timed
        rw [nobody]
        rfl
    · rfl
  case tx =>
    ext1 owner
    rw [getElem?_tx_restrict, getElem?_tx_restrict, pendingEq]
    split_ifs with same
    · rw [← same, fresh, filter_some, if_neg (by rw [dropped]; exact Bool.false_ne_true)]
      rfl
    · rfl
  case informing => rfl
  case expiring => rfl
  case now => rfl
  case log =>
    obtain ⟨effects, logged, -, about⟩ := log_newTX o t requestTimeout
    have silent : effects.filter (fun effect => keep (effectJob effect)) = [] := by
      rw [List.filter_eq_nil_iff]
      intro effect member
      rw [about effect member, dropped]
      exact Bool.false_ne_true
    rw [restrict, restrict, logged, List.filter_append, silent, List.append_nil]

/-! ### Rounds in a row -/

/-- What any number of rounds can do: transactions reply and are gone. -/
structure Later (s s' : TXHolder K V J) : Prop where
  tidy : s'.Tidy
  expiring : s'.expiring = s.expiring
  pending : ∀ (o : TXOwner) (t : TX K V J), s'.tx[o]? = some t → s.tx[o]? = some t
  logged : ∃ effects, s'.log = s.log ++ effects ∧ ∀ effect ∈ effects,
    ∃ (o : TXOwner) (t : TX K V J), s.tx[o]? = some t ∧ effectJob effect = t.job

theorem later_informAll (tidy : s.Tidy) : s.Later (s.informAll validate key values) where
  tidy := tidy.informAll
  expiring := expiring_informAll
  pending o t found := by
    rw [tx_informAll] at found
    split_ifs at found
    exact found
  logged := by
    refine ⟨_, log_informAll tidy, fun effect member => ?_⟩
    obtain ⟨o, -, replied⟩ := List.mem_filterMap.mp member
    obtain ⟨t, pending, rfl⟩ := map_eq_some_iff.mp replied
    exact ⟨o, t, pending, rfl⟩

theorem later_expireKeys (tidy : s.Tidy) (keys : List K) :
    s.Later (s.expireKeys validate keys) := by
  induction keys generalizing s with
  | nil => exact ⟨tidy, rfl, fun _ _ found => found, [], by simp [expireKeys], by simp⟩
  | cons key keys ih =>
    have first : s.Later (s.informAll validate key []) := later_informAll tidy
    have rest : (s.informAll validate key []).Later _ := ih first.tidy
    obtain ⟨effects, logged, about⟩ := first.logged
    obtain ⟨effects', logged', about'⟩ := rest.logged
    refine ⟨rest.tidy, rest.expiring.trans first.expiring,
      fun o t found => first.pending o t (rest.pending o t found), effects ++ effects', ?_, ?_⟩
    · rw [expireKeys_cons, logged', logged, List.append_assoc]
    · intro effect member
      rcases List.mem_append.mp member with old | new
      · exact about effect old
      · obtain ⟨o, t, pending, same⟩ := about' effect new
        exact ⟨o, t, first.pending o t pending, same⟩

/-! ### A single transaction -/

/-- A transaction that is made when nothing is pending, and then informed. -/
theorem informAll_newTX (now : ℕ) (log : List (Effect K V J)) (o : TXOwner) (t : TX K V J)
    (requestTimeout : ℕ+) :
    (({ now, log } : TXHolder K V J).newTX o t requestTimeout).informAll validate t.target values =
      { now
        log := log ++ [.created o t, .started o t, .replied o (onFound validate now t values) now] } := by
  set made := ({ now, log } : TXHolder K V J).newTX o t requestTimeout
  have fresh : ({ now, log } : TXHolder K V J).tx[o]? = none := Std.ExtTreeMap.getElem?_empty
  have tidy : made.Tidy := Tidy.empty.newTX fresh
  have pending : ∀ owner, made.tx[owner]? = if o = owner then some t else none := by
    intro owner
    show ((∅ : Std.ExtTreeMap TXOwner (TX K V J)).insertIfNew o t)[owner]? = _
    rw [getElem?_insertIfNew]
    rfl
  have alone : made.owners t.target = [o] := by simp [made, newTX, owners]
  ext1
  case waiting =>
    simp [made, newTX]
  case timeouts =>
    rw [timeouts_informAll]
    ext1 k
    rw [getElem?_erase]
    show (if t.target = k then none else
      ((∅ : Std.ExtTreeMap K ℕ).insertIfNew t.target (now + requestTimeout))[k]?) = _
    rw [getElem?_insertIfNew]
    split_ifs <;> simp
  case tx =>
    ext1 owner
    rw [tx_informAll, alone, pending]
    by_cases same : o = owner <;> simp [same, eq_comm]
  case informing => exact informing_informAll
  case expiring => exact expiring_informAll
  case now => exact now_informAll
  case log =>
    rw [log_informAll tidy, alone, List.filterMap_cons, replyOf, pending]
    simp [made, newTX]

end Llarp.Dht.TXHolder

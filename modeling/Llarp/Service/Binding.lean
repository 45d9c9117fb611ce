import Llarp.Service.Outbound

/-!
# Who supplies the keys of a service

An introduction set that answers a lookup is bound to the address of the lookup when
its keys have that address and its signing key is the location derived from it. An
endpoint verifies that a set was signed by the key that it names, and that it can be read
with the address, which everybody knows. Neither binds the set to the address. So the
sets that an endpoint takes are bound exactly as long as the replies are.
-/

namespace Llarp.Service

open Foundation OutboundContext List

/-- The introduction set belongs to the owner of the address. -/
def Found.Bound (dir : Directory) (target : Address) (f : Found) : Prop :=
  f.introset.addressKeys.addr = target ∧ f.source.derivedSigningKey = target.toKey dir

instance (dir : Directory) (target : Address) (f : Found) : Decidable (f.Bound dir target) :=
  inferInstanceAs (Decidable (_ ∧ _))

/-- A context replaces its introduction set by this one. -/
def OutboundContext.Takes (c : OutboundContext) (now : ℕ) (introset : IntroSet) : Prop :=
  c.markedBad = false ∧ introset.timestampSignedAt ≠ 0 ∧
    c.currentIntroSet.timestampSignedAt ≤ introset.timestampSignedAt ∧
    introset.isExpired now = false

theorem OutboundContext.onIntroSetUpdate_of_takes {c : OutboundContext} {now : ℕ}
    {introset : IntroSet} (takes : c.Takes now introset) (relayOrder : ℕ) :
    (c.onIntroSetUpdate now (some introset) relayOrder).2 = true := by
  obtain ⟨good, signed, newer, valid⟩ := takes
  unfold onIntroSetUpdate
  dsimp only
  rw [if_neg (Bool.eq_false_iff.mp good), if_neg signed, if_neg (not_lt.mpr newer),
    if_neg (Bool.eq_false_iff.mp valid)]

/-- A context that keeps its set changes at most its flag. -/
theorem OutboundContext.onIntroSetUpdate_of_not_takes {c : OutboundContext} {now : ℕ}
    {introset : IntroSet} (kept : ¬ c.Takes now introset) (relayOrder : ℕ) :
    ∃ flag, c.onIntroSetUpdate now (some introset) relayOrder =
      ({ c with updatingIntroSet := flag }, false) := by
  unfold onIntroSetUpdate
  by_cases bad : c.markedBad = true
  · exact ⟨c.updatingIntroSet, if_pos bad⟩
  · refine ⟨false, ?_⟩
    dsimp only
    rw [if_neg bad]
    by_cases unsigned : introset.timestampSignedAt = 0
    · exact if_pos unsigned
    · rw [if_neg unsigned]
      by_cases old : introset.timestampSignedAt < c.currentIntroSet.timestampSignedAt
      · exact if_pos old
      · rw [if_neg old]
        by_cases expired : introset.isExpired now = true
        · exact if_pos expired
        · exact absurd ⟨Bool.eq_false_iff.mpr bad, unsigned, not_lt.mp old,
            Bool.eq_false_iff.mpr expired⟩ kept

theorem OutboundContext.create_eq_none_iff {dir : Directory} {introset : IntroSet} {pick : ℕ} :
    create dir introset pick = none ↔ introset.intros = [] := by
  rw [create, Option.map_eq_none_iff, getElem?_eq_none_iff]
  constructor
  · intro _
    by_contra nonempty
    have inside := Nat.mod_lt pick (length_pos_iff.mpr nonempty)
    omega
  · intro none_
    simp [none_]

namespace Outbound

variable {H : Type} {dir : Directory} {s t u : Outbound H} {hasPath : RouterID → Bool}
  {addr target : Address} {f : Found} {a : Adoption}

/-- Every introduction set that was taken is bound to the address that was looked up. -/
def Owned (dir : Directory) (s : Outbound H) : Prop :=
  ∀ a ∈ s.adoptions, a.found.Bound dir a.target

/-- Context `h` would replace its introduction set. -/
def TakesAt (s : Outbound H) (h : ℕ) (introset : IntroSet) : Prop :=
  ∃ c, s.contexts[h]? = some c ∧ c.Takes s.now introset

/-- A context would be made because of a lookup for the address. -/
def Creates (s : Outbound H) (addr : Address) (introset : IntroSet) : Prop :=
  (∀ entry ∈ s.remoteSessions, entry.1 ≠ addr) ∧ introset.isExpired s.now = false ∧
    (∀ entry ∈ s.remoteSessions, entry.1 ≠ introset.addressKeys.addr) ∧ introset.intros ≠ []

/-- The result of the lookup would be used for a context, an old one or a new one. -/
def Uses (s : Outbound H) (job : HiddenServiceAddressLookup) (introset : IntroSet) : Prop :=
  match job.handle with
  | .onLookup =>
    (∃ entry ∈ s.remoteSessions, entry.1 = job.rootkey ∧ s.TakesAt entry.2 introset) ∨
      s.Creates job.rootkey introset
  | .onIntroSetUpdate h => s.TakesAt h introset

/-- The condition on one step: a reply whose result would be used is bound to the address
of its lookup. -/
def Genuine (dir : Directory) (s : Outbound H) : Event H → Prop
  | .gotIntro txid found _ _ =>
    (∀ introset ∈ found, introset.verify dir s.now = true) →
      ∀ lookup, s.pendingLookups[txid]? = some lookup → ∀ job, lookup.kind = .address job →
        ∀ f, job.answer dir (EncryptedIntroSet.collect found) = some f →
          s.Uses job f.introset → f.Bound dir job.rootkey
  | _ => True

/-! ### What a result adds to the record -/

/-- The adoption is recorded from `s` to `t`, maybe for several contexts, exactly if `uses`. -/
def Adopts (s t : Outbound H) (a : Adoption) (uses : Prop) : Prop :=
  ∃ n, t.adoptions = s.adoptions ++ List.replicate n a ∧ (n ≠ 0 ↔ uses)

theorem Adopts.congr {uses uses' : Prop} (h : Adopts s t a uses)
    (same : u.adoptions = t.adoptions) (iff_uses : uses ↔ uses') : Adopts s u a uses' := by
  obtain ⟨n, added, exact_n⟩ := h
  exact ⟨n, same.trans added, exact_n.trans iff_uses⟩

theorem adopts_of_eq {uses : Prop} (same : t.adoptions = s.adoptions) (unused : ¬ uses) :
    Adopts s t a uses :=
  ⟨0, by simpa using same, by simpa using unused⟩

theorem Adopts.trans {uses uses' : Prop} (first : Adopts s t a uses) (second : Adopts t u a uses') :
    Adopts s u a (uses ∨ uses') := by
  obtain ⟨n, added, exact_n⟩ := first
  obtain ⟨m, added', exact_m⟩ := second
  refine ⟨n + m, ?_, ?_⟩
  · rw [added', added, append_assoc, replicate_append_replicate]
  · rw [← exact_n, ← exact_m]
    omega

theorem Adopts.owned_iff {uses : Prop} (h : Adopts s t a uses) (owned : s.Owned dir) :
    t.Owned dir ↔ (uses → a.found.Bound dir a.target) := by
  obtain ⟨n, added, exact_n⟩ := h
  rw [Owned, added]
  constructor
  · intro all used
    apply all a
    rw [mem_append, mem_replicate]
    exact Or.inr ⟨exact_n.mpr used, rfl⟩
  · intro bound b hb
    rcases mem_append.mp hb with old | new
    · exact owned b old
    · obtain ⟨nonzero, rfl⟩ := mem_replicate.mp new
      exact bound (exact_n.mp nonzero)

theorem owned_of_adoptions_eq (same : t.adoptions = s.adoptions) (owned : s.Owned dir) :
    t.Owned dir := by
  rw [Owned, same]
  exact owned

/-! ### Results of lookups -/

theorem adopts_onIntroSetUpdate (s : Outbound H) (h : ℕ) (target : Address) (f : Found)
    (relayOrder : ℕ) :
    Adopts s (s.onIntroSetUpdate h target (some f) relayOrder) ⟨target, f⟩
      (s.TakesAt h f.introset) := by
  unfold Outbound.onIntroSetUpdate
  cases found : s.contexts[h]? with
  | none =>
    apply adopts_of_eq rfl
    rintro ⟨c, present, _⟩
    cases found.symm.trans present
  | some c =>
    by_cases takes : c.Takes s.now f.introset
    · refine ⟨1, ?_, fun _ => ⟨c, found, takes⟩, fun _ => one_ne_zero⟩
      dsimp only [Option.map_some]
      rw [if_pos (onIntroSetUpdate_of_takes takes relayOrder)]
      rfl
    · obtain ⟨flag, kept⟩ := onIntroSetUpdate_of_not_takes takes relayOrder
      have unchanged : ¬ (c.onIntroSetUpdate s.now (some f.introset) relayOrder).2 = true := by
        rw [kept]
        exact Bool.false_ne_true
      apply adopts_of_eq
      · dsimp only [Option.map_some]
        rw [if_neg unchanged]
        exact append_nil _
      · rintro ⟨d, present, takes'⟩
        cases found.symm.trans present
        exact takes takes'

/-- A result that a context does not take changes nothing for later ones. -/
theorem takesAt_onIntroSetUpdate {h : ℕ} (kept : ¬ s.TakesAt h f.introset) (relayOrder j : ℕ)
    (introset : IntroSet) :
    (s.onIntroSetUpdate h target (some f) relayOrder).TakesAt j introset ↔
      s.TakesAt j introset := by
  unfold Outbound.onIntroSetUpdate
  cases found : s.contexts[h]? with
  | none => exact Iff.rfl
  | some c =>
    have refuses : ¬ c.Takes s.now f.introset := fun takes => kept ⟨c, found, takes⟩
    obtain ⟨flag, same⟩ := onIntroSetUpdate_of_not_takes refuses relayOrder
    dsimp only [Option.map_some]
    rw [same]
    unfold TakesAt
    by_cases here : j = h
    · subst here
      have inside : j < s.contexts.length := (List.getElem?_eq_some_iff.mp found).1
      rw [List.getElem?_set_self inside, found]
      simp only [Option.some.injEq, exists_eq_left', OutboundContext.Takes]
    · rw [getElem?_set_ne (Ne.symm here)]

/-- Informing hooks is all that `tell` does besides updating the context. -/
theorem exists_tell_eq (hasPath : RouterID → Bool) (addr : Address) (f : Found) (s : Outbound H)
    (entry : Address × ℕ) :
    ∃ informed waiting, tell hasPath addr f s entry =
      { s.onIntroSetUpdate entry.2 addr (some f) 0 with
        informed := informed, pendingServiceLookups := waiting } := by
  unfold tell
  dsimp only
  split_ifs
  · exact ⟨_, _, rfl⟩
  · exact ⟨_, _, rfl⟩

theorem frame_onIntroSetUpdate (s : Outbound H) (h : ℕ) (target : Address) (found : Option Found)
    (relayOrder : ℕ) :
    (s.onIntroSetUpdate h target found relayOrder).remoteSessions = s.remoteSessions ∧
      (s.onIntroSetUpdate h target found relayOrder).now = s.now := by
  unfold Outbound.onIntroSetUpdate
  cases s.contexts[h]? with
  | none => exact ⟨rfl, rfl⟩
  | some c => exact ⟨rfl, rfl⟩

theorem frame_foldl_tell (hasPath : RouterID → Bool) (addr : Address) (f : Found) (s : Outbound H)
    (entries : List (Address × ℕ)) :
    (entries.foldl (tell hasPath addr f) s).remoteSessions = s.remoteSessions ∧
      (entries.foldl (tell hasPath addr f) s).now = s.now := by
  induction entries generalizing s with
  | nil => exact ⟨rfl, rfl⟩
  | cons entry entries ih =>
    obtain ⟨informed, waiting, same⟩ := exists_tell_eq hasPath addr f s entry
    have frame := frame_onIntroSetUpdate s entry.2 addr (some f) 0
    have rest := ih (tell hasPath addr f s entry)
    rw [foldl_cons, rest.1, rest.2, same]
    exact frame

/-- The contexts of an address are told one after the other. Those that do not take the
set do not change what the others do. -/
theorem adopts_foldl_tell (hasPath : RouterID → Bool) (addr : Address) (f : Found) (s : Outbound H)
    (entries : List (Address × ℕ)) :
    Adopts s (entries.foldl (tell hasPath addr f) s) ⟨addr, f⟩
      (∃ entry ∈ entries, s.TakesAt entry.2 f.introset) := by
  induction entries generalizing s with
  | nil =>
    apply adopts_of_eq rfl
    rintro ⟨entry, listed, _⟩
    cases listed
  | cons entry entries ih =>
    obtain ⟨informed, waiting, same⟩ := exists_tell_eq hasPath addr f s entry
    have first := adopts_onIntroSetUpdate s entry.2 addr f 0
    have later : ∀ j, ¬ s.TakesAt entry.2 f.introset →
        ((tell hasPath addr f s entry).TakesAt j f.introset ↔ s.TakesAt j f.introset) := by
      intro j kept
      rw [same]
      exact takesAt_onIntroSetUpdate kept 0 j f.introset
    have told : Adopts s (tell hasPath addr f s entry) ⟨addr, f⟩ (s.TakesAt entry.2 f.introset) :=
      first.congr (by rw [same]) Iff.rfl
    refine (told.trans (ih _)).congr rfl ?_
    by_cases taken : s.TakesAt entry.2 f.introset
    · exact iff_of_true (Or.inl taken) ⟨entry, mem_cons_self, taken⟩
    · simp only [later _ taken, taken, mem_cons, exists_eq_or_imp]

/-- A loop whose rounds record nothing records nothing. -/
theorem adoptions_foldl {ι : Type} {f : Outbound H → ι → Outbound H}
    (quiet : ∀ s x, (f s x).adoptions = s.adoptions) (items : List ι) (s : Outbound H) :
    (items.foldl f s).adoptions = s.adoptions :=
  foldlRecOn (motive := fun t : Outbound H => t.adoptions = s.adoptions) items f rfl
    fun t same x _ => (quiet t x).trans same

theorem adoptions_addReadyHook (s : Outbound H) (entry : Address × ℕ) :
    (s.addReadyHook hasPath addr entry).adoptions = s.adoptions := by
  unfold addReadyHook
  split_ifs
  · rfl
  · rfl

theorem any_remoteSessions_eq_true :
    s.remoteSessions.any (·.1 = addr) = true ↔ ∃ entry ∈ s.remoteSessions, entry.1 = addr := by
  simp only [any_eq_true, decide_eq_true_eq]

theorem adopts_putNewOutboundContext {pick : ℕ}
    (ht : s.putNewOutboundContext dir hasPath pick target f = some t) :
    Adopts s t ⟨target, f⟩
      ((∀ entry ∈ s.remoteSessions, entry.1 ≠ f.introset.addressKeys.addr) ∧
        f.introset.intros ≠ []) := by
  obtain ⟨u, created, rfl⟩ := Option.map_eq_some_iff.mp ht
  by_cases known : s.remoteSessions.any (·.1 = f.introset.addressKeys.addr) = true
  · rw [if_pos known] at created
    cases created
    apply adopts_of_eq (adoptions_foldl adoptions_addReadyHook _ _)
    rintro ⟨unknown, _⟩
    obtain ⟨entry, listed, same⟩ := any_remoteSessions_eq_true.mp known
    exact unknown entry listed same
  · rw [if_neg known] at created
    obtain ⟨c, made, rfl⟩ := Option.map_eq_some_iff.mp created
    refine ⟨1, adoptions_foldl adoptions_addReadyHook _ _, fun _ => ⟨?_, ?_⟩, fun _ => one_ne_zero⟩
    · intro entry listed same
      exact known (any_remoteSessions_eq_true.mpr ⟨entry, listed, same⟩)
    · intro none_
      cases (create_eq_none_iff.mpr none_).symm.trans made

theorem putNewOutboundContext_eq_none {pick : ℕ}
    (undefined : s.putNewOutboundContext dir hasPath pick target f = none) :
    f.introset.intros = [] := by
  have created := Option.map_eq_none_iff.mp undefined
  by_cases known : s.remoteSessions.any (·.1 = f.introset.addressKeys.addr) = true
  · rw [if_pos known] at created
    cases created
  · rw [if_neg known] at created
    exact create_eq_none_iff.mp (Option.map_eq_none_iff.mp created)

theorem adoptions_lookupFailed : (s.lookupFailed addr).adoptions = s.adoptions := by
  unfold lookupFailed
  split_ifs
  · rfl
  · rfl

theorem exists_mem_filter_iff (p : Address × ℕ → Prop) :
    (∃ entry ∈ s.remoteSessions.filter (·.1 = addr), p entry) ↔
      ∃ entry ∈ s.remoteSessions, entry.1 = addr ∧ p entry := by
  simp only [mem_filter, decide_eq_true_eq, and_assoc]

theorem onLookup_of_expired (expired : f.introset.isExpired s.now = true) (pick : ℕ) :
    s.onLookup dir hasPath pick addr (some f) =
      some (((s.remoteSessions.filter (·.1 = addr)).foldl (tell hasPath addr f) s).lookupFailed
        addr) :=
  if_pos expired

theorem onLookup_of_known (valid : ¬ f.introset.isExpired s.now = true)
    (known : s.remoteSessions.any (·.1 = addr) = true) (pick : ℕ) :
    s.onLookup dir hasPath pick addr (some f) =
      some ((s.remoteSessions.filter (·.1 = addr)).foldl (tell hasPath addr f) s) := by
  have frame := frame_foldl_tell hasPath addr f s (s.remoteSessions.filter (·.1 = addr))
  rw [← frame.1] at known
  exact (if_neg valid).trans (if_pos known)

theorem onLookup_of_unknown (valid : ¬ f.introset.isExpired s.now = true)
    (unknown : ¬ s.remoteSessions.any (·.1 = addr) = true) (pick : ℕ) :
    s.onLookup dir hasPath pick addr (some f) =
      s.putNewOutboundContext dir hasPath pick addr f := by
  have untold : s.remoteSessions.filter (·.1 = addr) = [] := by
    rw [filter_eq_nil_iff]
    intro entry listed same
    exact unknown (any_remoteSessions_eq_true.mpr ⟨entry, listed, of_decide_eq_true same⟩)
  rw [onLookup, untold]
  exact (if_neg valid).trans (if_neg unknown)

/-- The record after a lookup is good exactly if the result is bound whenever it is used. -/
theorem owned_onLookup_iff (owned : s.Owned dir) (pick : ℕ) :
    (∀ t, s.onLookup dir hasPath pick addr (some f) = some t → t.Owned dir) ↔
      ((∃ entry ∈ s.remoteSessions, entry.1 = addr ∧ s.TakesAt entry.2 f.introset) ∨
        s.Creates addr f.introset → f.Bound dir addr) := by
  have told := adopts_foldl_tell hasPath addr f s (s.remoteSessions.filter (·.1 = addr))
  rw [exists_mem_filter_iff] at told
  by_cases expired : f.introset.isExpired s.now = true
  · rw [onLookup_of_expired expired]
    simp only [Option.some.injEq, forall_eq']
    refine (told.congr adoptions_lookupFailed ?_).owned_iff owned
    rw [or_iff_left]
    exact fun creates => Bool.false_ne_true (creates.2.1.symm.trans expired)
  · by_cases known : s.remoteSessions.any (·.1 = addr) = true
    · rw [onLookup_of_known expired known]
      simp only [Option.some.injEq, forall_eq']
      refine (told.congr rfl ?_).owned_iff owned
      rw [or_iff_left]
      intro creates
      obtain ⟨entry, listed, same⟩ := any_remoteSessions_eq_true.mp known
      exact creates.1 entry listed same
    · -- no context is told, and the lookup may make one
      have untaken : ¬ ∃ entry ∈ s.remoteSessions, entry.1 = addr ∧
          s.TakesAt entry.2 f.introset := by
        rintro ⟨entry, listed, same, _⟩
        exact known (any_remoteSessions_eq_true.mpr ⟨entry, listed, same⟩)
      rw [onLookup_of_unknown expired known, or_iff_right untaken]
      cases result : s.putNewOutboundContext dir hasPath pick addr f with
      | none =>
        refine iff_of_true (nofun) fun creates => ?_
        exact absurd (putNewOutboundContext_eq_none result) creates.2.2.2
      | some t =>
        simp only [Option.some.injEq, forall_eq']
        refine ((adopts_putNewOutboundContext result).congr rfl ?_).owned_iff owned
        constructor
        · intro fresh
          refine ⟨fun entry listed same => ?_, Bool.eq_false_iff.mpr expired, fresh⟩
          exact known (any_remoteSessions_eq_true.mpr ⟨entry, listed, same⟩)
        · exact fun creates => creates.2.2

/-! ### Steps -/

theorem owned_handleIntrosetResponse_iff (owned : s.Owned dir) (pick : ℕ) (lookup : ServiceLookup)
    (results : List EncryptedIntroSet) :
    (∀ t, s.handleIntrosetResponse dir hasPath pick lookup results = some t → t.Owned dir) ↔
      ∀ job, lookup.kind = .address job → ∀ f, job.answer dir results = some f →
        s.Uses job f.introset → f.Bound dir job.rootkey := by
  unfold handleIntrosetResponse
  cases lookup.kind with
  | other => simpa using owned
  | address job =>
    simp only [LookupKind.address.injEq, forall_eq']
    cases job.answer dir results with
    | none =>
      refine iff_of_true ?_ nofun
      cases job.handle with
      | onLookup =>
        intro t ht
        cases ht
        exact owned_of_adoptions_eq adoptions_lookupFailed owned
      | onIntroSetUpdate h =>
        intro t ht
        cases ht
        apply owned_of_adoptions_eq _ owned
        unfold Outbound.onIntroSetUpdate
        cases s.contexts[h]? with
        | none => rfl
        | some c => simp
    | some f =>
      simp only [Option.some.injEq, forall_eq', Uses]
      cases job.handle with
      | onLookup => exact owned_onLookup_iff owned pick
      | onIntroSetUpdate h =>
        simp only [Option.some.injEq, forall_eq']
        exact (adopts_onIntroSetUpdate s h job.rootkey f job.relayOrder).owned_iff owned

theorem owned_handleGotIntroMessage_iff (owned : s.Owned dir) (pick : ℕ) (txid : UInt64)
    (found : List EncryptedIntroSet) :
    (∀ t, s.handleGotIntroMessage dir hasPath pick txid found = some t → t.Owned dir) ↔
      s.Genuine dir (.gotIntro txid found hasPath pick) := by
  unfold handleGotIntroMessage Genuine
  by_cases verified : found.all (·.verify dir s.now) = true
  · rw [if_pos verified]
    refine Iff.trans ?_ (forall_prop_of_true (all_eq_true.mp verified)).symm
    cases s.pendingLookups[txid]? with
    | none => simpa using owned
    | some lookup =>
      simp only [Option.some.injEq, forall_eq']
      have erased : { s with pendingLookups := s.pendingLookups.erase txid }.Owned dir := owned
      exact owned_handleIntrosetResponse_iff erased pick lookup _
  · rw [if_neg verified]
    refine iff_of_true ?_ fun all => absurd (all_eq_true.mpr all) verified
    intro t ht
    cases ht
    exact owned

/-- Lookups that time out have no result to use. -/
theorem owned_foldlM_timedOut (entries : List (UInt64 × ServiceLookup)) (owned : s.Owned dir)
    (ht : entries.foldlM (fun s entry => s.handleIntrosetResponse dir hasPath 0 entry.2 []) s =
      some t) : t.Owned dir := by
  induction entries generalizing s with
  | nil =>
    cases ht
    exact owned
  | cons entry entries ih =>
    obtain ⟨u, first, rest⟩ := Option.bind_eq_some_iff.mp ht
    apply ih _ rest
    apply (owned_handleIntrosetResponse_iff owned 0 entry.2 []).mpr _ u first
    intro _ _ f answered
    cases answered

theorem adoptions_putLookups (s : Outbound H) (rootkey : PubKey) (location : Key)
    (handle : LookupHandler) (timeout : ℕ) (requests : List Request) :
    (s.putLookups rootkey location handle timeout requests).adoptions = s.adoptions := by
  refine adoptions_foldl ?_ _ s
  exact fun _ _ => rfl

theorem adoptions_callReadyHooks (s : Outbound H) (h : ℕ) (ctx : Option ℕ) :
    (s.callReadyHooks h ctx).adoptions = s.adoptions := by
  unfold callReadyHooks
  cases s.contexts[h]? with
  | none => rfl
  | some c =>
    refine adoptions_foldl ?_ c.readyHooks _
    exact fun _ _ => rfl

theorem adoptions_ensurePathToService (remote : Address) (hook : H) (timeout : ℕ)
    (requests : List Request) :
    (s.ensurePathToService dir hasPath remote hook timeout requests).adoptions = s.adoptions := by
  unfold ensurePathToService
  by_cases wanted : s.wantsOutboundSession remote = true
  · rw [if_pos wanted]
    split
    · rfl
    · split_ifs
      · rfl
      · exact adoptions_putLookups ..
  · rw [if_neg wanted]

theorem adoptions_updateIntroSet (h : ℕ) (requests : List Request) :
    (s.updateIntroSet h requests).adoptions = s.adoptions := by
  unfold updateIntroSet
  cases s.contexts[h]? with
  | none => rfl
  | some c =>
    dsimp only
    split_ifs
    · rfl
    · exact adoptions_putLookups ..

/-- A step keeps the record good exactly if a reply that would be used is bound. -/
theorem owned_step_iff (owned : s.Owned dir) (event : Event H) :
    (∀ t, s.step dir event = some t → t.Owned dir) ↔ s.Genuine dir event := by
  -- a step that records nothing is always fine
  have quiet {u : Outbound H} (same : u.adoptions = s.adoptions) :
      (∀ t, some u = some t → t.Owned dir) ↔ True := by
    refine iff_true_intro fun t ht => ?_
    cases ht
    exact owned_of_adoptions_eq same owned
  cases event with
  | gotIntro txid found hasPath pick => exact owned_handleGotIntroMessage_iff owned pick txid found
  | tick hasPath =>
    refine iff_of_true (fun t ht => ?_) trivial
    have filtered : { s with
        lookupFilter := s.lookupFilter.filter fun entry => s.now < lookupFilterInterval + entry.2
        pendingLookups := s.pendingLookups.filter fun _ lookup => !lookup.isTimedOut s.now }.Owned
        dir := owned
    exact owned_foldlM_timedOut _ filtered ht
  | ensurePathToService remote hook timeout requests hasPath =>
    exact quiet (adoptions_ensurePathToService remote hook timeout requests)
  | updateIntroSet h requests => exact quiet (adoptions_updateIntroSet h requests)
  | pumpReadyHooks h hasPath =>
    refine quiet ?_
    split_ifs
    · exact adoptions_callReadyHooks s h (some h)
    · rfl
  | readyTimeout h => exact quiet (adoptions_callReadyHooks s h none)
  | _ => exact quiet rfl

/-- In a run of an endpoint, every introduction set that is taken is bound to the address
that was looked up exactly if every reply that would be used is. -/
theorem owned_iff_genuine (dir : Directory) (now : ℕ) (events : List (Event H)) :
    Always (step dir) (Owned dir) (empty now) events ↔
      Along (step dir) (Genuine dir) (empty now) events :=
  always_iff_along (fun _ => True) (fun _ _ _ _ _ _ _ => trivial)
    (fun _ event _ owned => owned_step_iff owned event) trivial nofun

/-! ### A reply from somebody else -/

instance (dir : Directory) (s : Outbound H) : Decidable (s.Owned dir) :=
  inferInstanceAs (Decidable (∀ a ∈ s.adoptions, a.found.Bound dir a.target))

/-- A directory for concrete runs: a signature shows the key that made it, the cipher
changes nothing, and an introduction set is written as the address of its service. -/
def plainDirectory : Directory where
  verify key _ sig := sig = .copy 64 (key.bytes ++ key.bytes)
  xchacha20 data _ _ := data
  deriveSubkey key := .copy 32 (key.bytes.map (· + 1))
  decodeIntroSet data := some
    { addressKeys := ⟨.zero 32, .copy 32 data, .copy 32 data⟩
      intros := [⟨.copy 32 [9], .zero 16, 0, 1000000⟩]
      timestampSignedAt := 1000 }

/-- The introduction set that the owner of a key signs. -/
def plainIntroSet (key : PubKey) : EncryptedIntroSet where
  derivedSigningKey := plainDirectory.deriveSubkey key
  signedAt := 1000
  introsetPayload := key.bytes
  nounce := .zero 32
  sig :=
    .copy 64 ((plainDirectory.deriveSubkey key).bytes ++ (plainDirectory.deriveSubkey key).bytes)

/-- The service with key 1 is looked up with two requests. The first reply is its own
introduction set, the second one is that of the service with key 2. -/
def twoReplies : List (Event Unit) :=
  [.markAddressOutbound (.copy 32 [1]),
    .ensurePathToService (.copy 32 [1]) () 30000 [⟨0, 5⟩, ⟨0, 6⟩] fun _ => false,
    .gotIntro 5 [plainIntroSet (.copy 32 [1])] (fun _ => false) 0,
    .gotIntro 6 [plainIntroSet (.copy 32 [2])] (fun _ => false) 0]

/-- The context for the first service ends with the keys of the second one. -/
theorem foreign_reply_taken :
    ∃ s, run (step plainDirectory) (empty 1000) twoReplies = some s ∧
      s.remoteSessions = [(.copy 32 [1], 0)] ∧
      (s.contexts[0]?).map (fun c => (c.addr, c.currentIntroSet.addressKeys.addr)) =
        some (.copy 32 [1], .copy 32 [2]) ∧
      ¬ s.Owned plainDirectory := by
  decide +kernel

end Outbound

end Llarp.Service

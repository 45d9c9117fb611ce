import Llarp.Dht.RouterLookup

/-!
# What router lookups deliver

A lookup for a router should hand out contacts of that router only. `SendReply` selects the
newest contact of a reply, whatever router it is of. So the property is exactly as good as the
replies: at every transaction that a reply informs, the first of the newest contacts that pass
the checks has to be one of the target.
-/

namespace Llarp.Dht

open Foundation AlignedBuffer RouterContact Option

/-! ### The property -/

/-- The contacts are those of the target. For a callback of `GetRC` this is asked when it is
called with success. -/
def Delivery.Genuine (d : Delivery) : Prop :=
  (∀ id result, d.recipient = .callback id result → result = .success) →
    ∀ rc ∈ d.contacts, rc.pubkey = d.target

namespace RouterHost

variable (host : RouterHost) (now : ℕ) (t : RouterTX) (values : List RouterContact)

/-- What a reply may hold for a transaction that hands out contacts: none verifies, or the first
of the newest among those that pass the checks is one of the target. If all that pass are too
old, a zero key is handed out. A lookup for a path compares the other way round, drops a zero
key, and hands nothing out unless a contact is older than the epoch. -/
def Fits : Prop :=
  match t.job with
  | .recursive resultHandler =>
    resultHandler = true ∨ t.whoasked.node ≠ host.ourKey →
      (∀ rc ∈ values, host.verify rc = false) ∨
      (∃ rc, IsFirstBest (host.checkRC now) RouterContact.lastUpdated .empty values rc ∧
        rc.pubkey = t.target) ∨
      (t.target = AlignedBuffer.zero 32 ∧
        ∀ rc ∈ values, host.checkRC now rc = true → rc.lastUpdated ≤ 0)
  | .forPath localPath =>
    host.hasPath now localPath = true →
      (∀ rc ∈ values, host.verify rc = true → 0 ≤ rc.lastUpdated) ∨
      ∃ rc, IsFirstBest host.verify (fun rc => -rc.lastUpdated) .empty values rc ∧
        (rc.pubkey = t.target ∨ rc.pubkey.isZero = true)

end RouterHost

namespace RouterLookups

variable {host : RouterHost} {s s' : RouterLookups}

/-- Whatever the lookups delivered so far is genuine. -/
def Genuine (s : RouterLookups) : Prop := ∀ d ∈ s.delivered, d.Genuine

/-- A step of the loop finds the values of the reply fit for the transaction that it visits. -/
def Apt (host : RouterHost) (s : RouterLookups) : RouterEvent → Prop
  | .next => ∀ visit, s.pending.visiting = some visit →
    host.Fits s.pending.now visit.2.1 visit.2.2
  | _ => True

/-! ### The selections -/

variable {e : RouterEvent} {target : RouterID} {values : List RouterContact}

theorem mem_newestFound {now : ℕ} :
    (∀ rc ∈ host.newestFound now (values.filter host.verify), rc.pubkey = target) ↔
      (∀ rc ∈ values, host.verify rc = false) ∨
      (∃ rc, IsFirstBest (host.checkRC now) lastUpdated .empty values rc ∧
        rc.pubkey = target) ∨
      (target = zero 32 ∧
        ∀ rc ∈ values, host.checkRC now rc = true → rc.lastUpdated ≤ 0) := by
  have checked : (fun rc => host.verify rc && host.checkRC now rc) = host.checkRC now := by
    funext rc
    rw [RouterHost.checkRC, Bool.and_comm, Bool.and_assoc, Bool.and_self]
  have selected : (values.filter host.verify).foldl (fun found rc =>
        if found.otherIsNewer rc && host.checkRC now rc then rc else found) .empty =
      firstBest (host.checkRC now) lastUpdated .empty values := by
    calc
      _ = firstBest (host.checkRC now) lastUpdated .empty
            (values.filter host.verify) := rfl
      _ = _ := by rw [firstBest_filter, checked]
  rw [RouterHost.newestFound, selected]
  by_cases none : ∀ rc ∈ values, host.verify rc = false
  · have noValues : values.filter host.verify = [] := by
      rw [List.filter_eq_nil_iff]
      exact fun rc member => by simp [none rc member]
    exact iff_of_true (by simp [noValues]) (.inl none)
  · have someValues : (values.filter host.verify).isEmpty = false := by
      rw [List.isEmpty_eq_false_iff, Ne, List.filter_eq_nil_iff]
      exact fun all => none fun rc member => Bool.eq_false_of_not_eq_true (all rc member)
    simp only [someValues, Bool.false_eq_true, if_false, List.mem_singleton, forall_eq, none,
      false_or]
    constructor
    · intro same
      rcases firstBest_cases (host.checkRC now) lastUpdated .empty values with
        ⟨kept, bound⟩ | best
      · exact .inr ⟨by rw [← same, kept]; rfl, bound⟩
      · exact .inl ⟨_, best, same⟩
    · rintro (⟨rc, best, same⟩ | ⟨zero, bound⟩)
      · rw [best.firstBest_eq, same]
      · rw [firstBest_eq_init bound, zero]
        rfl

theorem mem_foundForPath :
    (∀ rc ∈ RouterHost.foundForPath (values.filter host.verify), rc.pubkey = target) ↔
      (∀ rc ∈ values, host.verify rc = true → 0 ≤ rc.lastUpdated) ∨
      ∃ rc, IsFirstBest host.verify (fun rc => -rc.lastUpdated) .empty values rc ∧
        (rc.pubkey = target ∨ rc.pubkey.isZero = true) := by
  have found : RouterHost.foundForPath (values.filter host.verify) =
      let found := firstBest host.verify (fun rc => -rc.lastUpdated) .empty values
      if found.pubkey.isZero then [] else [found] := by
    rw [RouterHost.foundForPath_eq, firstBest_filter]
    simp only [Bool.and_true]
  have dropped : ∀ rc : RouterContact,
      (∀ c ∈ (if rc.pubkey.isZero then [] else [rc]), c.pubkey = target) ↔
        rc.pubkey = target ∨ rc.pubkey.isZero = true := by
    intro rc
    cases rc.pubkey.isZero <;> simp
  rw [found, dropped]
  constructor
  · intro same
    rcases firstBest_cases host.verify (fun rc => -rc.lastUpdated) .empty values with
      ⟨-, bound⟩ | best
    · exact .inl (by simpa [empty] using bound)
    · exact .inr ⟨_, best, same⟩
  · rintro (bound | ⟨rc, best, same⟩)
    · have kept : firstBest host.verify (fun rc => -rc.lastUpdated) .empty values = .empty :=
        firstBest_eq_init fun rc member verified => by
          simpa [empty] using bound rc member verified
      rw [kept]
      exact .inr isZero_zero
    · rw [best.firstBest_eq]
      exact same

/-! ### One reply -/

theorem genuine_deliver {recipient : Recipient} {contacts : List RouterContact} :
    (s.deliver target recipient contacts).Genuine ↔
      s.Genuine ∧ Delivery.Genuine ⟨target, recipient, contacts⟩ := by
  simp [Genuine, deliver, or_imp, forall_and]

theorem genuine_finalizeRequest {router : RouterID} {rc : Option RouterContact}
    {result : RCRequestResult} :
    (s.finalizeRequest router rc result).Genuine ↔
      s.Genuine ∧ ∀ id ∈ s.pendingCallbacks[router]?.getD [],
        Delivery.Genuine ⟨router, .callback id result, rc.toList⟩ := by
  simp [Genuine, finalizeRequest, or_imp, forall_and]

/-- The callbacks get nothing that the result handler does not get. -/
theorem handleDHTLookupResult_eq (host : RouterHost) (s : RouterLookups) (now : ℕ) (remote : RouterID) (found : List RouterContact) :
    ∃ rc result, handleDHTLookupResult host now s remote found =
      s.finalizeRequest remote rc result ∧ ∀ c ∈ rc.toList, c ∈ found := by
  cases found with
  | nil => exact ⟨none, .routerNotFound, rfl, by simp⟩
  | cons rc rest =>
    simp only [handleDHTLookupResult]
    split_ifs
    · exact ⟨some rc, .invalidRouter, rfl, by simp⟩
    · exact ⟨some rc, .badRC, rfl, by simp⟩
    · exact ⟨some rc, .success, rfl, by simp⟩

/-- A reply hands out genuine contacts only, exactly if the values fit the transaction. -/
theorem genuine_sendReply {now : ℕ} {t : RouterTX} (genuine : s.Genuine)
    (unanswered : t.valuesFound = []) :
    (sendReply host now s (TXHolder.onFound host.validate now t values)).Genuine ↔
      host.Fits now t values := by
  have learned : t.valuesFound ++ values.filter (host.validate now t.job) =
      values.filter host.verify := by
    rw [unanswered]
    rfl
  unfold sendReply RouterHost.Fits
  simp only [TXHolder.onFound, learned]
  cases t.job with
  | recursive resultHandler =>
    have direct : ∀ recipient, (∀ id result, recipient ≠ .callback id result) →
        (Delivery.Genuine ⟨t.target, recipient,
            host.newestFound now (values.filter host.verify)⟩ ↔
          ∀ rc ∈ host.newestFound now (values.filter host.verify), rc.pubkey = t.target) :=
      fun recipient other => ⟨fun h => h fun id result same => absurd same (other id result),
        fun h _ => h⟩
    simp only [← mem_newestFound]
    cases resultHandler with
    | true =>
      -- the result handler comes first, and what follows it adds nothing
      have handled : (handleDHTLookupResult host now
            (s.deliver t.target .resultHandler (host.newestFound now (values.filter host.verify)))
            t.target (host.newestFound now (values.filter host.verify))).Genuine ↔
          ∀ rc ∈ host.newestFound now (values.filter host.verify), rc.pubkey = t.target := by
        obtain ⟨rc, result, finalized, fromFound⟩ := handleDHTLookupResult_eq host
          (s.deliver t.target .resultHandler (host.newestFound now (values.filter host.verify)))
          now t.target (host.newestFound now (values.filter host.verify))
        constructor
        · intro all
          rw [finalized, genuine_finalizeRequest, genuine_deliver] at all
          exact (direct .resultHandler (by simp)).mp all.1.2
        · intro same
          rw [finalized, genuine_finalizeRequest, genuine_deliver]
          refine ⟨⟨genuine, (direct .resultHandler (by simp)).mpr same⟩, fun id _ _ c member => ?_⟩
          exact same c (fromFound c member)
      simp only [if_true, true_or, forall_const]
      split_ifs
      · rw [genuine_deliver, handled, direct (.asker t.whoasked) (by simp), and_self]
      · exact handled
    | false =>
      simp only [Bool.false_eq_true, if_false, false_or]
      split_ifs with other
      · rw [genuine_deliver, direct (.asker t.whoasked) (by simp)]
        exact ⟨fun h _ => h.2, fun h => ⟨genuine, h other⟩⟩
      · exact ⟨fun _ outside => absurd outside other, fun _ => genuine⟩
  | forPath localPath =>
    simp only [← mem_foundForPath]
    split_ifs with there
    · rw [genuine_deliver]
      refine ⟨fun h _ => h.2 (by simp), fun h => ⟨genuine, fun _ => h there⟩⟩
    · exact ⟨fun _ is => absurd is there, fun _ => genuine⟩

/-! ### Steps -/

theorem foldl_carryOut_of_no_reply (effects : List (Effect RouterID RouterContact RouterJob))
    (silent : ∀ o t now, Effect.replied o t now ∉ effects) :
    effects.foldl (carryOut host) s = s := by
  induction effects with
  | nil => rfl
  | cons effect effects ih =>
    have first : carryOut host s effect = s := by
      cases effect with
      | created askpeer t => rfl
      | started askpeer t => rfl
      | replied askpeer t now => exact absurd (List.mem_cons_self ..) (silent askpeer t now)
    rw [List.foldl_cons, first]
    exact ih fun o t now later => silent o t now (List.mem_cons_of_mem _ later)

/-- Only the loops make transactions reply. -/
theorem perform_of_ne_next {c : Call RouterID RouterContact RouterJob} (other : c ≠ .next) :
    perform host s c =
      (s.pending.step host.validate c).map fun pending => { s with pending } := by
  unfold perform
  cases moved : s.pending.step host.validate c with
  | none => rfl
  | some pending =>
    obtain ⟨effects, logged, silent⟩ := TXHolder.log_of_ne_next other moved
    rw [map_some, map_some, logged, List.drop_left,
      foldl_carryOut_of_no_reply effects silent]

theorem perform_next :
    perform host s .next =
      let moved := { s with pending := s.pending.next host.validate }
      some (match s.pending.visiting with
        | none => moved
        | some visit => sendReply host s.pending.now moved
            (TXHolder.onFound host.validate s.pending.now visit.2.1 visit.2.2)) := by
  unfold perform
  simp only [TXHolder.step, map_some, TXHolder.log_next, List.drop_left]
  cases s.pending.visiting with
  | none => rfl
  | some visit => rfl

@[simp] theorem pending_sendReply {now : ℕ} {t : RouterTX} :
    (sendReply host now s t).pending = s.pending := by
  unfold sendReply
  cases t.job with
  | recursive resultHandler =>
    obtain ⟨rc, result, finalized, -⟩ := handleDHTLookupResult_eq host
      (s.deliver t.target .resultHandler (host.newestFound now t.valuesFound)) now t.target
      (host.newestFound now t.valuesFound)
    simp only [finalized]
    split_ifs <;> rfl
  | forPath localPath =>
    simp only
    split_ifs <;> rfl

/-- Transactions learn values only when they reply. -/
def Unanswered (s : RouterLookups) : Prop :=
  ∀ (o : TXOwner) (t : RouterTX), s.pending.tx[o]? = some t → t.valuesFound = []

theorem Unanswered.visiting (unanswered : s.Unanswered)
    {visit : TXOwner × RouterTX × List RouterContact} (visits : s.pending.visiting = some visit) : visit.2.1.valuesFound = [] := by
  unfold TXHolder.visiting at visits
  split at visits
  · obtain ⟨t, pending, rfl⟩ := map_eq_some_iff.mp visits
    exact unanswered _ t pending
  · cases visits

/-- What a step other than one of the loops can do: it passes a call on to the holder, after
numbering and queueing, or it leaves the holder alone and at most tells callbacks that there
is no contact. -/
theorem step_cases (other : e ≠ .next) (moved : s.step host e = some s') :
    (∃ base c, perform host base c = some s' ∧ base.pending = s.pending ∧
      base.delivered = s.delivered ∧ c ≠ .next ∧
      ∀ o t timeout rehash inside, c = .newTX o t timeout rehash inside → t.valuesFound = []) ∨
    (s'.pending = s.pending ∧ ∀ d ∈ s'.delivered, d ∈ s.delivered ∨ d.contacts = []) := by
  cases e with
  | getRC router callback known closest rehash inside =>
    simp only [step, getRC] at moved
    cases known with
    | some rc =>
      cases moved
      exact .inr ⟨rfl, fun d => .inl⟩
    | none =>
      split_ifs at moved
      · cases closest with
        | some askpeer =>
          refine .inl ⟨_, _, moved, rfl, rfl, nofun, ?_⟩
          rintro _ _ _ _ _ ⟨⟩
          rfl
        | none =>
          cases moved
          refine .inr ⟨rfl, fun d member => ?_⟩
          rcases List.mem_append.mp member with old | new
          · exact .inl old
          · obtain ⟨-, -, rfl⟩ := List.mem_map.mp new
            exact .inr rfl
      · cases moved
        exact .inr ⟨rfl, fun d => .inl⟩
  | lookupRouterRecursive target whoasked askpeer rehash inside =>
    refine .inl ⟨_, _, moved, rfl, rfl, nofun, ?_⟩
    rintro _ _ _ _ _ ⟨⟩
    rfl
  | lookupRouterForPath target txid path askpeer rehash inside =>
    refine .inl ⟨_, _, moved, rfl, rfl, nofun, ?_⟩
    rintro _ _ _ _ _ ⟨⟩
    rfl
  | gotRouterMessage peer txid foundRCs =>
    simp only [step, gotRouterMessage] at moved
    split_ifs at moved
    · cases foundRCs with
      | nil => exact .inl ⟨s, _, moved, rfl, rfl, nofun, nofun⟩
      | cons rc rest =>
        simp only at moved
        split_ifs at moved
        · cases moved
          exact .inr ⟨rfl, fun d => .inl⟩
        · exact .inl ⟨s, _, moved, rfl, rfl, nofun, nofun⟩
    · cases moved
      exact .inr ⟨rfl, fun d => .inl⟩
  | expire => exact .inl ⟨s, _, moved, rfl, rfl, nofun, nofun⟩
  | next => exact absurd rfl other
  | tick ms => exact .inl ⟨s, _, moved, rfl, rfl, nofun, nofun⟩

theorem Unanswered.step (unanswered : s.Unanswered) (moved : s.step host e = some s') :
    s'.Unanswered := by
  have kept : ∀ {c : Call RouterID RouterContact RouterJob} {pending},
      (∀ o t timeout rehash inside, c = .newTX o t timeout rehash inside → t.valuesFound = []) →
      s.pending.step host.validate c = some pending →
      ∀ (o : TXOwner) t, pending.tx[o]? = some t → t.valuesFound = [] := by
    intro c _ fresh holderStep o t found
    rcases TXHolder.pending_of_step holderStep found with old | ⟨timeout, rehash, inside, new⟩
    · exact unanswered o t old
    · exact fresh o t timeout rehash inside new
  by_cases other : e = .next
  · subst other
    rw [RouterLookups.step, perform_next] at moved
    cases moved
    have after : ∀ (o : TXOwner) t, (s.pending.next host.validate).tx[o]? = some t → t.valuesFound = [] :=
      kept (c := .next) nofun rfl
    cases s.pending.visiting with
    | none => exact after
    | some visit =>
      intro o t found
      rw [pending_sendReply] at found
      exact after o t found
  · rcases step_cases other moved with ⟨base, c, performed, same, -, notNext, fresh⟩ | ⟨same, -⟩
    · rw [perform_of_ne_next notNext, map_eq_some_iff] at performed
      obtain ⟨pending, holderStep, rfl⟩ := performed
      rw [same] at holderStep
      exact kept fresh holderStep
    · intro o t found
      rw [same] at found
      exact unanswered o t found

/-- A step leads to genuine deliveries only, exactly if it is apt. -/
theorem genuine_step_iff (unanswered : s.Unanswered) (genuine : s.Genuine) :
    (∀ s', s.step host e = some s' → s'.Genuine) ↔ s.Apt host e := by
  by_cases other : e = .next
  · subst other
    rw [Apt, step, perform_next]
    cases visits : s.pending.visiting with
    | none => exact iff_of_true (fun s' moved => by rw [← some.inj moved]; exact genuine) nofun
    | some visit =>
      simp only [some.injEq, forall_eq']
      exact genuine_sendReply genuine (unanswered.visiting visits)
  · have apt : s.Apt host e := by
      cases e with
      | next => exact absurd rfl other
      | _ => trivial
    refine iff_of_true (fun s' moved d member => ?_) apt
    rcases step_cases other moved with ⟨base, c, performed, -, same, notNext, -⟩ | ⟨-, few⟩
    · rw [perform_of_ne_next notNext, map_eq_some_iff] at performed
      obtain ⟨pending, -, rfl⟩ := performed
      exact genuine d (same ▸ member)
    · rcases few d member with old | nothing
      · exact genuine d old
      · intro _ _ found
        rw [nothing] at found
        exact absurd found List.not_mem_nil

/-! ### Whole runs -/

/-- Whatever lookups are made and whatever the peers reply: all that is delivered is of the
router that was looked up, exactly if every transaction is informed of values that fit it. -/
theorem genuine_iff_apt (host : RouterHost) (events : List RouterEvent) :
    Always (step host) Genuine {} events ↔ Along (step host) (Apt host) {} events := by
  refine always_iff_along Unanswered ?_ ?_ ?_ ?_
  · exact fun s e s' unanswered _ _ => unanswered.step
  · exact fun s e => genuine_step_iff
  · intro o t pending
    simp at pending
  · intro d member
    simp at member

/-- A router that allows every session and finds all signatures and paths good. -/
def openHost : RouterHost where
  ourKey := AlignedBuffer.copy 32 [9]
  verify _ := true
  sessionIsAllowed _ _ := true
  hasPath _ _ := true

/-- A contact of the router with the given key. -/
def contactOf (key : UInt8) (lastUpdated : ℤ) : RouterContact :=
  ⟨AlignedBuffer.copy 32 [key], lastUpdated, AlignedBuffer.zero 64⟩

/-- `GetRC` is called for router 1, and peer 7 is asked. It replies with a contact of router 1
and, behind it, a newer contact of router 2: the callback is told that this one is the contact
of router 1. -/
theorem foreign_contact_delivered :
    ∃ s, run (step openHost) {}
        [.getRC (AlignedBuffer.copy 32 [1]) 5 none (some (AlignedBuffer.copy 32 [7])) false false,
          .gotRouterMessage (AlignedBuffer.copy 32 [7]) 1 [contactOf 1 10, contactOf 2 20],
          .next] = some s ∧
      ⟨AlignedBuffer.copy 32 [1], .callback 5 .success, [contactOf 2 20]⟩ ∈ s.delivered ∧
      ¬ s.Genuine := by
  have delivered : ∃ s, run (step openHost) {}
        [.getRC (copy 32 [1]) 5 none (some (copy 32 [7])) false false,
          .gotRouterMessage (copy 32 [7]) 1 [contactOf 1 10, contactOf 2 20],
          .next] = some s ∧
      ⟨copy 32 [1], .callback 5 .success, [contactOf 2 20]⟩ ∈ s.delivered := by
    decide +kernel
  obtain ⟨s, through, told⟩ := delivered
  refine ⟨s, through, told, fun genuine => ?_⟩
  have same : (contactOf 2 20).pubkey = copy 32 [1] :=
    genuine _ told (by rintro _ _ ⟨⟩; rfl) _ (List.mem_singleton_self _)
  exact absurd same (by decide)

end RouterLookups

end Llarp.Dht

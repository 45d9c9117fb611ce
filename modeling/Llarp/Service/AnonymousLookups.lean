import Llarp.Dht.RouterLookup
import Llarp.Foundation.Run

/-!
# Contacts from anonymous lookups

A client looks up routers over its paths. The contacts in a reply are verified one by one on worker
threads, and for each of them a call comes back to the event loop with the verdict. Contacts also
come into the node database from `CheckRC`, and when a path could not be built and the routers of its
hops are looked up again.

Whether a contact passes `Verify` does not depend on the time, for expired contacts are allowed.
Calls that have been queued may run in any order. What paths, whitelist and clock have to say is
part of each event.
-/

namespace Llarp.Service

open Foundation Dht

/-- What is known about contacts. -/
structure ContactRules where
  verify : RouterContact → Bool
  isPublicRouter : RouterContact → Bool

/-- What other parts of the client answer: whether sessions to a router are allowed, whether a lookup
could be sent over a path or by the DHT, the number of the job, and the time. -/
structure Answers where
  allowed : RouterID → Bool
  sent : Bool
  looksUp : Bool
  txid : UInt64
  now : ℕ

/-- A callback of `GetRC`: that of `HandlePathBuildTimeout`, or another one. -/
inductive RCCallback where
  | refresh
  | other
  deriving DecidableEq

/-- A lookup over a path; the handler, if there is one, is that of `GetRC`. -/
structure RouterLookupJob where
  txid : UInt64
  handler : Bool
  started : ℕ
  deriving DecidableEq

def RouterLookupJob.isExpired (job : RouterLookupJob) (now : ℕ) : Bool :=
  if now < job.started then false else now - job.started > 30000

/-- Work for a worker thread: verify a contact of a reply. -/
structure Verification where
  rc : RouterContact
  foundRCs : List RouterContact
  deriving DecidableEq

/-- Calls that wait for the event loop. -/
inductive LoopCall where
  | verified (rc : RouterContact) (valid : Bool) (foundRCs : List RouterContact)
  | putIfNewer (rc : RouterContact)
  | refresh (router : RouterID)
  deriving DecidableEq

/-- The client. The last two fields record which contacts have been put into the node database, and
what the handlers of anonymous lookups have been called with. -/
structure Client where
  nodedb : Std.ExtTreeMap RouterID RouterContact := ∅
  pendingRouters : Std.ExtTreeMap RouterID RouterLookupJob := ∅
  pendingCallbacks : Std.ExtTreeMap RouterID (List RCCallback) := ∅
  works : List Verification := []
  calls : List LoopCall := []
  inserted : List RouterContact := []
  handed : List (RouterID × List RouterContact) := []

inductive ClientEvent where
  | gotRouterMessage (txid : UInt64) (foundRCs : List RouterContact) (answers : Answers)
  /-- a worker verifies a contact -/
  | work (job : Verification)
  /-- the event loop makes a call -/
  | call (call : LoopCall) (answers : Answers)
  | getRC (router : RouterID) (callback : Option RCCallback) (forceLookup : Bool)
      (answers : Answers)
  | ensureRouterIsKnown (router : RouterID) (answers : Answers)
  /-- the DHT has a result for `GetRC` -/
  | lookupResult (router : RouterID) (results : List RouterContact) (answers : Answers)
  | checkRC (rc : RouterContact) (answers : Answers)
  | pathBuildTimeout (hops : List RouterID)
  | expire (answers : Answers)
  /-- the node database is changed in some other way -/
  | put (rc : RouterContact)
  | remove (router : RouterID)

namespace Client

def isFresh (s : Client) (rc : RouterContact) : Bool :=
  match s.nodedb[rc.pubkey]? with
  | none => true
  | some known => known.otherIsNewer rc

def putIfNewer (s : Client) (rc : RouterContact) : Client :=
  if s.isFresh rc then
    { s with nodedb := s.nodedb.insert rc.pubkey rc, inserted := rc :: s.inserted }
  else s

/-! ### `RCLookupHandler` -/

def callBack (rc : Option RouterContact) (result : RCRequestResult) (s : Client) :
    RCCallback → Client
  | .refresh =>
    match result, rc with
    | .success, some rc => s.putIfNewer rc
    | _, _ => s
  | .other => s

def finalizeRequest (s : Client) (router : RouterID) (rc : Option RouterContact)
    (result : RCRequestResult) : Client :=
  (s.pendingCallbacks[router]?.getD []).foldl (callBack rc result)
    { s with pendingCallbacks := s.pendingCallbacks.erase router }

variable (rules : ContactRules) (answers : Answers)

variable (s : Client) (router : RouterID)

def checkRC (rc : RouterContact) : Bool × Client :=
  if !answers.allowed rc.pubkey then (false, s)
  else if !rules.verify rc then (false, s)
  else if rules.isPublicRouter rc then (true, { s with calls := s.calls ++ [.putIfNewer rc] })
  else (true, s)

def handleDHTLookupResult (remote : RouterID) : List RouterContact → Client
  | [] => s.finalizeRequest remote none .routerNotFound
  | rc :: _ =>
    if !answers.allowed remote then s.finalizeRequest remote (some rc) .invalidRouter
    else
      let (good, s) := checkRC rules answers s rc
      if !good then s.finalizeRequest remote (some rc) .badRC
      else s.finalizeRequest remote (some rc) .success

/-! ### Anonymous lookups -/

/-- `InformResult`. Nobody has found the router if there are no results. -/
def informResult (job : RouterLookupJob) (results : List RouterContact) : Client :=
  let s := if results = [] then { s with nodedb := s.nodedb.erase router } else s
  if job.handler then
    handleDHTLookupResult rules answers { s with handed := (router, results) :: s.handed } router
      results
  else s

/-- Inform a lookup, and forget it. -/
def finish (job : RouterLookupJob) (results : List RouterContact) : Client :=
  let s := informResult rules answers s router job results
  { s with pendingRouters := s.pendingRouters.erase router }

/-- The loop over the lookups of which some have come to nothing. -/
def dropLookups (doomed : RouterLookupJob → Bool) : Client :=
  (s.pendingRouters.toList.filter fun entry => doomed entry.2).foldl
    (fun s entry => finish rules answers s entry.1 entry.2 []) s

def handleVerifyGotRouter (foundRCs : List RouterContact) (id : RouterID) (valid : Bool) : Client :=
  match s.pendingRouters[id]? with
  | none => s
  | some job => finish rules answers s id job (if valid then foundRCs else [])

def handleGotRouterMessage (txid : UInt64) (foundRCs : List RouterContact) : Client :=
  if foundRCs ≠ [] then { s with works := s.works ++ foundRCs.map fun rc => ⟨rc, foundRCs⟩ }
  else dropLookups rules answers s fun job => job.txid = txid

def lookupRouterAnon (handler : Bool) : Bool × Client :=
  if s.pendingRouters.contains router then (false, s)
  else if answers.sent then
    (true, { s with
      pendingRouters := s.pendingRouters.insert router ⟨answers.txid, handler, answers.now⟩ })
  else (false, s)

def getRC (callback : Option RCCallback) (forceLookup : Bool) : Client :=
  match if forceLookup then none else s.nodedb[router]? with
  | some rc =>
    let s := callback.toList.foldl (callBack (some rc) .success) s
    s.finalizeRequest router (some rc) .success
  | none =>
    let shouldDoLookup := !s.pendingCallbacks.contains router
    let s := { s with
      pendingCallbacks := s.pendingCallbacks.insert router
        (s.pendingCallbacks[router]?.getD [] ++ callback.toList) }
    if shouldDoLookup then
      let (sent, s) := lookupRouterAnon answers s router true
      if sent then s
      else if answers.looksUp then s
      else s.finalizeRequest router none .routerNotFound
    else s

def ensureRouterIsKnown : Client :=
  if router.isZero then s
  else if s.nodedb.contains router then s
  else (lookupRouterAnon answers s router false).2

/-! ### Steps -/

def makeCall : LoopCall → Client
  | .verified rc valid foundRCs =>
    handleVerifyGotRouter rules answers (s.putIfNewer rc) foundRCs rc.pubkey valid
  | .putIfNewer rc => s.putIfNewer rc
  | .refresh router => getRC answers s router (some .refresh) true

def step : ClientEvent → Option Client
  | .gotRouterMessage txid foundRCs answers =>
    some (handleGotRouterMessage rules answers s txid foundRCs)
  | .work job =>
    if job ∈ s.works then
      some { s with
        works := s.works.erase job
        calls := s.calls ++ [.verified job.rc (rules.verify job.rc) job.foundRCs] }
    else some s
  | .call call answers =>
    if call ∈ s.calls then
      some (makeCall rules answers { s with calls := s.calls.erase call } call)
    else some s
  | .getRC router callback forceLookup answers => some (getRC answers s router callback forceLookup)
  | .ensureRouterIsKnown router answers => some (ensureRouterIsKnown answers s router)
  | .lookupResult router results answers =>
    some (handleDHTLookupResult rules answers s router results)
  | .checkRC rc answers => some (checkRC rules answers s rc).2
  | .pathBuildTimeout hops => some { s with calls := s.calls ++ hops.map .refresh }
  | .expire answers => some (dropLookups rules answers s fun job => job.isExpired answers.now)
  | .put rc => some { s with nodedb := s.nodedb.insert rc.pubkey rc }
  | .remove router => some { s with nodedb := s.nodedb.erase router }

/-! ### What a step can do -/

end Client

/-- Entries of the node database have the keys of their contacts. -/
def Keyed (nodedb : Std.ExtTreeMap RouterID RouterContact) : Prop :=
  ∀ (router : RouterID) (rc : RouterContact), nodedb[router]? = some rc → rc.pubkey = router

section Keyed

variable {nodedb : Std.ExtTreeMap RouterID RouterContact} (keyed : Keyed nodedb)

include keyed

theorem Keyed.insert (rc : RouterContact) : Keyed (nodedb.insert rc.pubkey rc) := by
  intro router known isKnown
  rw [getElem?_insert] at isKnown
  split_ifs at isKnown with same
  · rw [← same, Option.some.inj isKnown]
  · exact keyed router known isKnown

theorem Keyed.erase (router : RouterID) : Keyed (nodedb.erase router) := by
  intro other known isKnown
  rw [getElem?_erase] at isKnown
  split_ifs at isKnown
  exact keyed other known isKnown

end Keyed

/-- A queued call has been queued for a reason: a contact that passed, or the verdict on it. -/
def LoopCall.Right (rules : ContactRules) : LoopCall → Prop
  | .verified rc valid _ => valid = rules.verify rc
  | .putIfNewer rc => rules.verify rc = true
  | .refresh _ => True

namespace Client

/-- Only contacts with a property are put into the node database and handed over, and only calls that
are right are queued. -/
structure Steps (rules : ContactRules) (P : RouterContact → Prop) (s t : Client) : Prop where
  inserted : ∃ new, t.inserted = new ++ s.inserted ∧ ∀ rc ∈ new, P rc
  handed : ∃ new, t.handed = new ++ s.handed ∧ ∀ entry ∈ new, ∀ rc ∈ entry.2, P rc
  calls : ∀ call ∈ t.calls, call ∈ s.calls ∨ call.Right rules
  keyed : Keyed s.nodedb → Keyed t.nodedb

section Steps

variable {rules : ContactRules} {answers : Answers} {P : RouterContact → Prop} {s t u : Client}

theorem Steps.refl (s : Client) : Steps rules P s s :=
  ⟨⟨[], rfl, nofun⟩, ⟨[], rfl, nofun⟩, fun _ => .inl, id⟩

theorem Steps.trans (first : Steps rules P s t) (second : Steps rules P t u) :
    Steps rules P s u := by
  obtain ⟨a, isA, allA⟩ := first.inserted
  obtain ⟨b, isB, allB⟩ := second.inserted
  obtain ⟨c, isC, allC⟩ := first.handed
  obtain ⟨d, isD, allD⟩ := second.handed
  refine ⟨⟨b ++ a, by rw [isB, isA, List.append_assoc], ?_⟩,
    ⟨d ++ c, by rw [isD, isC, List.append_assoc], ?_⟩, fun call queued => ?_,
    second.keyed ∘ first.keyed⟩
  · exact List.forall_mem_append.mpr ⟨allB, allA⟩
  · exact List.forall_mem_append.mpr ⟨allD, allC⟩
  · rcases second.calls call queued with earlier | right
    · exact first.calls call earlier
    · exact .inr right

/-- Steps that change nothing but who waits for what. -/
theorem Steps.of_eq (nodedb : t.nodedb = s.nodedb) (inserted : t.inserted = s.inserted)
    (handed : t.handed = s.handed) (calls : t.calls = s.calls) : Steps rules P s t := by
  refine ⟨⟨[], inserted, nofun⟩, ⟨[], handed, nofun⟩, fun call queued => .inl ?_, fun keyed => ?_⟩
  · rwa [← calls]
  · rwa [nodedb]

theorem Steps.foldl {α : Type} {f : Client → α → Client} (each : ∀ s a, Steps rules P s (f s a))
    (as : List α) (s : Client) : Steps rules P s (as.foldl f s) := by
  induction as generalizing s with
  | nil => exact .refl s
  | cons a as ih => exact (each s a).trans (ih (f s a))

theorem steps_putIfNewer {rc : RouterContact} (holds : s.isFresh rc = true → P rc) :
    Steps rules P s (s.putIfNewer rc) := by
  rw [putIfNewer]
  split_ifs with fresh
  · refine ⟨⟨[rc], rfl, ?_⟩, ⟨[], rfl, nofun⟩, fun _ => .inl, fun keyed => keyed.insert rc⟩
    simpa using holds fresh
  · exact .refl s

theorem steps_callBack {rc : Option RouterContact} {result : RCRequestResult}
    (holds : result = .success → ∀ c ∈ rc, P c) (s : Client) (callback : RCCallback) :
    Steps rules P s (callBack rc result s callback) := by
  cases callback with
  | refresh =>
    cases result with
    | success =>
      cases rc with
      | none => exact .refl s
      | some rc => exact steps_putIfNewer fun _ => holds rfl rc rfl
    | _ => exact .refl s
  | other => exact .refl s

theorem steps_finalizeRequest {rc : Option RouterContact} {result : RCRequestResult}
    (holds : result = .success → ∀ c ∈ rc, P c) (s : Client) (router : RouterID) :
    Steps rules P s (s.finalizeRequest router rc result) := by
  have forgotten : Steps rules P s
      { s with pendingCallbacks := s.pendingCallbacks.erase router } := .of_eq rfl rfl rfl rfl
  exact forgotten.trans (.foldl (steps_callBack holds) _ _)

theorem steps_checkRC (s : Client) (rc : RouterContact) :
    Steps rules P s (checkRC rules answers s rc).2 := by
  rw [checkRC]
  split_ifs with refused invalid isPublic
  · exact .refl s
  · exact .refl s
  · refine ⟨⟨[], rfl, nofun⟩, ⟨[], rfl, nofun⟩, fun call queued => ?_, id⟩
    rcases List.mem_append.mp queued with earlier | new
    · exact .inl earlier
    · have passed : rules.verify rc = true := by simpa using invalid
      rw [List.mem_singleton.mp new]
      exact .inr passed
  · exact .refl s

theorem verify_of_checkRC {rc : RouterContact} (good : (checkRC rules answers s rc).1 = true) :
    rules.verify rc = true := by
  rw [checkRC] at good
  split_ifs at good with refused invalid
  · simpa using invalid
  · simpa using invalid

variable (weaker : ∀ rc, rules.verify rc = true → P rc)

include weaker

theorem steps_handleDHTLookupResult (s : Client) (remote : RouterID)
    (results : List RouterContact) :
    Steps rules P s (handleDHTLookupResult rules answers s remote results) := by
  cases results with
  | nil => exact steps_finalizeRequest nofun s remote
  | cons rc results =>
    rw [handleDHTLookupResult]
    split_ifs
    · exact steps_finalizeRequest nofun s remote
    · have checked : Steps rules P s (checkRC rules answers s rc).2 := steps_checkRC s rc
      dsimp only
      split_ifs with bad
      · exact checked.trans (steps_finalizeRequest nofun _ remote)
      · refine checked.trans (steps_finalizeRequest (fun _ c isContact => ?_) _ remote)
        cases isContact
        exact weaker rc (verify_of_checkRC (by simpa using bad))

variable {rc : RouterContact} {router : RouterID} {results : List RouterContact}

theorem steps_informResult (s : Client) (router : RouterID) (job : RouterLookupJob)
    (holds : job.handler = true → ∀ rc ∈ results, P rc) :
    Steps rules P s (informResult rules answers s router job results) := by
  have removed : Steps rules P s
      (if results = [] then { s with nodedb := s.nodedb.erase router } else s) := by
    split_ifs
    · exact ⟨⟨[], rfl, nofun⟩, ⟨[], rfl, nofun⟩, fun _ => .inl, fun keyed => keyed.erase router⟩
    · exact .refl s
  rw [informResult]
  generalize (if results = [] then { s with nodedb := s.nodedb.erase router } else s) = u at *
  split_ifs with handler
  · have recorded : Steps rules P u { u with handed := (router, results) :: u.handed } := by
      refine ⟨⟨[], rfl, nofun⟩, ⟨[(router, results)], rfl, ?_⟩, fun _ => .inl, id⟩
      simpa using holds handler
    exact (removed.trans recorded).trans (steps_handleDHTLookupResult weaker _ _ _)
  · exact removed

theorem steps_finish (s : Client) (router : RouterID) (job : RouterLookupJob)
    (holds : job.handler = true → ∀ rc ∈ results, P rc) :
    Steps rules P s (finish rules answers s router job results) := by
  have informed : Steps rules P s (informResult rules answers s router job results) :=
    steps_informResult weaker s router job holds
  exact informed.trans (.of_eq rfl rfl rfl rfl)

theorem steps_dropLookups (s : Client) (doomed : RouterLookupJob → Bool) :
    Steps rules P s (dropLookups rules answers s doomed) := by
  have each : ∀ s (entry : RouterID × RouterLookupJob),
      Steps rules P s (finish rules answers s entry.1 entry.2 []) := fun s entry =>
    steps_finish weaker s entry.1 entry.2 nofun
  exact .foldl each _ s

omit weaker

theorem steps_lookupRouterAnon (s : Client) (router : RouterID) (handler : Bool) :
    Steps rules P s (lookupRouterAnon answers s router handler).2 := by
  rw [lookupRouterAnon]
  split_ifs
  · exact .refl s
  · exact .of_eq rfl rfl rfl rfl
  · exact .refl s

/-- A contact of the node database is not newer than itself. -/
theorem callBack_known (keyed : Keyed s.nodedb) (known : s.nodedb[router]? = some rc)
    (result : RCRequestResult) (callback : RCCallback) :
    callBack (some rc) result s callback = s := by
  have stale : s.isFresh rc = false := by
    rw [isFresh, keyed router rc known, known]
    simp [RouterContact.otherIsNewer]
  cases callback with
  | refresh =>
    cases result with
    | success => exact if_neg (by rw [stale]; exact Bool.false_ne_true)
    | _ => rfl
  | other => rfl

theorem foldl_callBack_known (keyed : Keyed s.nodedb) (known : s.nodedb[router]? = some rc)
    (result : RCRequestResult) (callbacks : List RCCallback) :
    callbacks.foldl (callBack (some rc) result) s = s := by
  induction callbacks with
  | nil => rfl
  | cons callback callbacks ih => rw [List.foldl_cons, callBack_known keyed known, ih]

theorem steps_getRC (keyed : Keyed s.nodedb) (router : RouterID) (callback : Option RCCallback)
    (forceLookup : Bool) : Steps rules P s (getRC answers s router callback forceLookup) := by
  rw [getRC]
  cases isKnown : if forceLookup = true then none else s.nodedb[router]? with
  | some rc =>
    have known : s.nodedb[router]? = some rc := by
      split_ifs at isKnown
      exact isKnown
    dsimp only
    rw [foldl_callBack_known keyed known, finalizeRequest]
    rw [foldl_callBack_known (s := { s with pendingCallbacks := s.pendingCallbacks.erase router })
      keyed known]
    exact .of_eq rfl rfl rfl rfl
  | none =>
    dsimp only
    set waiting : Client := { s with
      pendingCallbacks := s.pendingCallbacks.insert router
        (s.pendingCallbacks[router]?.getD [] ++ callback.toList) }
    have waits : Steps rules P s waiting := .of_eq rfl rfl rfl rfl
    have looked : Steps rules P s (lookupRouterAnon answers waiting router true).2 :=
      waits.trans (steps_lookupRouterAnon waiting router true)
    split_ifs
    · exact looked
    · exact looked
    · exact looked.trans (steps_finalizeRequest nofun _ router)
    · exact waits

theorem pendingRouters_putIfNewer (s : Client) (rc : RouterContact) :
    (s.putIfNewer rc).pendingRouters = s.pendingRouters := by
  rw [putIfNewer]
  split_ifs
  · rfl
  · rfl

theorem steps_handleVerifyGotRouter (weaker : ∀ rc, rules.verify rc = true → P rc) {id : RouterID}
    {valid : Bool} {foundRCs : List RouterContact}
    (found : valid = true → (∃ job, s.pendingRouters[id]? = some job ∧ job.handler = true) →
      ∀ c ∈ foundRCs, P c) :
    Steps rules P s (handleVerifyGotRouter rules answers s foundRCs id valid) := by
  rw [handleVerifyGotRouter]
  cases pending : s.pendingRouters[id]? with
  | none => exact .refl s
  | some job =>
    refine steps_finish weaker _ _ job fun handler => ?_
    split_ifs with isValid
    · exact found isValid ⟨job, pending, handler⟩
    · exact nofun

/-- What a handler has been called with is recorded. -/
theorem mem_handed_finish (s : Client) (router : RouterID) {job : RouterLookupJob}
    (handler : job.handler = true) (some_found : results ≠ []) :
    (router, results) ∈ (finish rules answers s router job results).handed := by
  have informed : informResult rules answers s router job results =
      handleDHTLookupResult rules answers { s with handed := (router, results) :: s.handed } router
        results := by
    rw [informResult, if_neg some_found, if_pos handler]
  have steps : Steps rules (fun _ => True) { s with handed := (router, results) :: s.handed }
      (handleDHTLookupResult rules answers { s with handed := (router, results) :: s.handed } router
        results) := steps_handleDHTLookupResult (fun _ _ => trivial) _ router results
  obtain ⟨new, isNew, -⟩ := steps.handed
  show (router, results) ∈ (informResult rules answers s router job results).handed
  rw [informed, isNew]
  exact List.mem_append_right _ List.mem_cons_self

end Steps

/-! ### Verified contacts -/

variable (rules : ContactRules)

/-- All that has been put into the node database and handed over passes verification. -/
structure Verified (s : Client) : Prop where
  inserted : ∀ rc ∈ s.inserted, rules.verify rc = true
  handed : ∀ entry ∈ s.handed, ∀ rc ∈ entry.2, rules.verify rc = true

/-- The queued calls are right, and the node database is in order. -/
structure Queued (s : Client) : Prop where
  calls : ∀ call ∈ s.calls, call.Right rules
  keyed : Keyed s.nodedb

/-- When the verdict on a contact comes in, the contact passes or the node database has one that is
not older. And if a handler waits for a router that passes, all the contacts of the reply do. -/
def KeepsVerified (s : Client) : ClientEvent → Prop
  | .call (.verified rc valid foundRCs) _ =>
    .verified rc valid foundRCs ∈ s.calls →
      (s.isFresh rc = true → rules.verify rc = true) ∧
      (valid = true → (∃ job, s.pendingRouters[rc.pubkey]? = some job ∧ job.handler = true) →
        ∀ c ∈ foundRCs, rules.verify c = true)
  | _ => True

variable {rules} {s t : Client}

theorem Steps.verified (steps : Steps rules (fun rc => rules.verify rc = true) s t)
    (verified : s.Verified rules) : t.Verified rules := by
  obtain ⟨new, isNew, all⟩ := steps.inserted
  obtain ⟨lists, isLists, allLists⟩ := steps.handed
  constructor
  · rw [isNew]
    exact List.forall_mem_append.mpr ⟨all, verified.inserted⟩
  · rw [isLists]
    exact List.forall_mem_append.mpr ⟨allLists, verified.handed⟩

theorem Steps.queued {P : RouterContact → Prop} (steps : Steps rules P s t)
    (queued : s.Queued rules) : t.Queued rules := by
  refine ⟨fun call member => ?_, steps.keyed queued.keyed⟩
  exact (steps.calls call member).elim (queued.calls call) id

/-- Every step but a verdict keeps to verified contacts. -/
theorem steps_of_step {P : RouterContact → Prop} (weaker : ∀ rc, rules.verify rc = true → P rc)
    (queued : s.Queued rules) {e : ClientEvent}
    (fine : ∀ rc valid foundRCs answers, e = .call (.verified rc valid foundRCs) answers →
      .verified rc valid foundRCs ∈ s.calls →
      (s.isFresh rc = true → P rc) ∧
      (valid = true → (∃ job, s.pendingRouters[rc.pubkey]? = some job ∧ job.handler = true) →
        ∀ c ∈ foundRCs, P c))
    (moves : step rules s e = some t) : Steps rules P s t := by
  cases e with
  | gotRouterMessage txid foundRCs answers =>
    cases moves
    rw [handleGotRouterMessage]
    split_ifs
    · exact .of_eq rfl rfl rfl rfl
    · exact steps_dropLookups weaker s _
  | work job =>
    rw [step] at moves
    split_ifs at moves
    · cases moves
      refine ⟨⟨[], rfl, nofun⟩, ⟨[], rfl, nofun⟩, fun call member => ?_, id⟩
      rcases List.mem_append.mp member with earlier | new
      · exact .inl earlier
      · rw [List.mem_singleton.mp new]
        exact .inr rfl
    · cases moves
      exact .refl s
  | call call answers =>
    rw [step] at moves
    split_ifs at moves with member
    · cases moves
      have taken : Steps rules P s { s with calls := s.calls.erase call } :=
        ⟨⟨[], rfl, nofun⟩, ⟨[], rfl, nofun⟩, fun c m => .inl (List.mem_of_mem_erase m), id⟩
      refine taken.trans ?_
      cases call with
      | verified rc valid foundRCs =>
        obtain ⟨fresh, found⟩ := fine rc valid foundRCs answers rfl member
        set rest : Client := { s with calls := s.calls.erase (.verified rc valid foundRCs) }
        have put : Steps rules P rest (rest.putIfNewer rc) := steps_putIfNewer fresh
        refine put.trans (steps_handleVerifyGotRouter weaker ?_)
        rw [pendingRouters_putIfNewer]
        exact found
      | putIfNewer rc => exact steps_putIfNewer fun _ => weaker rc (queued.calls _ member)
      | refresh router =>
        exact steps_getRC (s := { s with calls := s.calls.erase (.refresh router) }) queued.keyed
          router (some .refresh) true
    · cases moves
      exact .refl s
  | getRC router callback forceLookup answers =>
    cases moves
    exact steps_getRC queued.keyed router callback forceLookup
  | ensureRouterIsKnown router answers =>
    cases moves
    rw [ensureRouterIsKnown]
    split_ifs
    · exact .refl s
    · exact .refl s
    · exact steps_lookupRouterAnon s router false
  | lookupResult router results answers =>
    cases moves
    exact steps_handleDHTLookupResult weaker s router results
  | checkRC rc answers =>
    cases moves
    exact steps_checkRC s rc
  | pathBuildTimeout hops =>
    cases moves
    refine ⟨⟨[], rfl, nofun⟩, ⟨[], rfl, nofun⟩, fun call member => ?_, id⟩
    rcases List.mem_append.mp member with earlier | new
    · exact .inl earlier
    · obtain ⟨-, -, rfl⟩ := List.mem_map.mp new
      exact .inr trivial
  | expire answers =>
    cases moves
    exact steps_dropLookups weaker s _
  | put rc =>
    cases moves
    exact ⟨⟨[], rfl, nofun⟩, ⟨[], rfl, nofun⟩, fun _ => .inl, fun keyed => keyed.insert rc⟩
  | remove router =>
    cases moves
    exact ⟨⟨[], rfl, nofun⟩, ⟨[], rfl, nofun⟩, fun _ => .inl, fun keyed => keyed.erase router⟩

/-- Whatever a step does, it forgets no contact that has been put into the node database and no list
that has been handed over. -/
theorem grows_of_step (queued : s.Queued rules) {e : ClientEvent} (moves : step rules s e = some t) :
    Steps rules (fun _ => True) s t :=
  steps_of_step (fun _ _ => trivial) queued
    (fun _ _ _ _ _ _ => ⟨fun _ => trivial, fun _ _ _ _ => trivial⟩) moves

theorem verified_of_keepsVerified (queued : s.Queued rules) (verified : s.Verified rules)
    {e : ClientEvent} (keeps : s.KeepsVerified rules e) (moves : step rules s e = some t) :
    t.Verified rules := by
  refine (steps_of_step (fun _ => id) queued ?_ moves).verified verified
  rintro rc valid foundRCs answers rfl member
  exact keeps member

/-- A verdict leaves its trace: the contact in the node database, and the reply in the hands of the
handler. -/
theorem keepsVerified_of_verified {rc : RouterContact} {valid : Bool}
    {foundRCs : List RouterContact} {answers : Answers}
    (verified : (makeCall rules answers s (.verified rc valid foundRCs)).Verified rules) :
    (s.isFresh rc = true → rules.verify rc = true) ∧
      (valid = true → (∃ job, s.pendingRouters[rc.pubkey]? = some job ∧ job.handler = true) →
        ∀ c ∈ foundRCs, rules.verify c = true) := by
  constructor
  · intro fresh
    have steps : Steps rules (fun _ => True) (s.putIfNewer rc)
        (makeCall rules answers s (.verified rc valid foundRCs)) :=
      steps_handleVerifyGotRouter (fun _ _ => trivial) fun _ _ _ _ => trivial
    obtain ⟨new, isNew, -⟩ := steps.inserted
    apply verified.inserted rc
    rw [isNew, putIfNewer, if_pos fresh]
    exact List.mem_append_right _ List.mem_cons_self
  · rintro isValid ⟨job, pending, handler⟩ c member
    refine verified.handed (rc.pubkey, foundRCs) ?_ c member
    rw [makeCall, handleVerifyGotRouter, pendingRouters_putIfNewer, pending, isValid]
    exact mem_handed_finish _ _ handler (List.ne_nil_of_mem member)

theorem always_verified_iff (rules : ContactRules) (events : List ClientEvent) :
    Always (step rules) (Verified rules) {} events ↔
      Along (step rules) (KeepsVerified rules) {} events := by
  refine always_iff_along (Queued rules)
    (fun s e t queued _ _ moves => (grows_of_step queued moves).queued queued)
    (fun s e queued verified => ⟨fun after => ?_, fun keeps t moves =>
      verified_of_keepsVerified queued verified keeps moves⟩)
    ⟨nofun, fun router rc known => ?_⟩ ⟨nofun, nofun⟩
  · match e with
    | .call (.verified rc valid foundRCs) answers =>
      intro member
      exact keepsVerified_of_verified (s := { s with
        calls := s.calls.erase (.verified rc valid foundRCs) }) (after _ (if_pos member))
    | .call (.putIfNewer _) _ => trivial
    | .call (.refresh _) _ => trivial
    | .gotRouterMessage .. => trivial
    | .work _ => trivial
    | .getRC .. => trivial
    | .ensureRouterIsKnown .. => trivial
    | .lookupResult .. => trivial
    | .checkRC .. => trivial
    | .pathBuildTimeout _ => trivial
    | .expire _ => trivial
    | .put _ => trivial
    | .remove _ => trivial
  · rw [Std.ExtTreeMap.getElem?_empty] at known
    cases known

/-- In every run the contacts of the node database stand under their own keys, and the calls that wait
have the verdicts that their contacts deserve. -/
theorem always_queued (rules : ContactRules) (events : List ClientEvent) :
    Always (step rules) (Queued rules) {} events := by
  refine fun _ _ _ => run_invariant_of_forall _
    (fun _ _ _ queued moves => (grows_of_step queued moves).queued queued)
    ⟨nofun, fun router rc known => ?_⟩
  rw [Std.ExtTreeMap.getElem?_empty] at known
  cases known

/-! ### Replies with forged contacts -/

/-- A contact passes if its time is not 0. -/
def exampleRules : ContactRules := ⟨fun rc => rc.lastUpdated ≠ 0, fun _ => true⟩

def exampleAnswers : Answers := ⟨fun _ => true, true, false, 1, 0⟩

def exampleRouter (n : UInt8) : RouterID := ⟨List.replicate 32 n, List.length_replicate⟩

def genuineContact : RouterContact := ⟨exampleRouter 1, 1, AlignedBuffer.zero 64⟩

def forgedContact : RouterContact := ⟨exampleRouter 2, 0, AlignedBuffer.zero 64⟩

theorem not_always_of_recorded {events : List ClientEvent}
    (forged : (run (step rules) {} events).any (fun t =>
      (t.inserted ++ t.handed.flatMap Prod.snd).any fun rc => !rules.verify rc) = true) :
    ¬Always (step rules) (Verified rules) {} events := by
  intro always
  obtain ⟨t, runs, forged⟩ := (Option.any_eq_true _ _).mp forged
  have verified : t.Verified rules := always events t List.prefix_rfl runs
  obtain ⟨rc, member, bad⟩ := List.any_eq_true.mp forged
  have passed : rules.verify rc = true := by
    rcases List.mem_append.mp member with isInserted | isHanded
    · exact verified.inserted rc isInserted
    · obtain ⟨entry, isEntry, inEntry⟩ := List.mem_flatMap.mp isHanded
      exact verified.handed entry isEntry rc inEntry
  rw [passed] at bad
  exact Bool.false_ne_true bad

/-- A forged contact is put into the node database although its verdict is bad. And the handler that
waits for a router receives a forged contact that comes along with the genuine one. -/
theorem forged_contacts_kept_and_handed_over :
    ¬Always (step exampleRules) (Verified exampleRules) {}
        [.gotRouterMessage 1 [forgedContact] exampleAnswers,
          .work ⟨forgedContact, [forgedContact]⟩,
          .call (.verified forgedContact false [forgedContact]) exampleAnswers] ∧
      ¬Always (step exampleRules) (Verified exampleRules) {}
        [.getRC genuineContact.pubkey (some .other) false exampleAnswers,
          .gotRouterMessage 1 [genuineContact, forgedContact] exampleAnswers,
          .work ⟨genuineContact, [genuineContact, forgedContact]⟩,
          .call (.verified genuineContact true [genuineContact, forgedContact]) exampleAnswers] := by
  constructor
  · exact not_always_of_recorded (by decide +kernel)
  · exact not_always_of_recorded (by decide +kernel)

/-! ### The numbers of requests -/

/-- `LookupRouterAnon` with the numbers that stand in the requests. The number of a request is drawn
before that of its job. -/
def requestRouter (sent : RouterID → UInt64) (number : UInt64) (answers : Answers) (s : Client)
    (router : RouterID) (handler : Bool) : (RouterID → UInt64) × Client :=
  let (isSent, s) := lookupRouterAnon answers s router handler
  (if isSent then Function.update sent router number else sent, s)

/-- A reply without contacts ends just the lookup whose request has its number. -/
def EndsSent (rules : ContactRules) (sent : RouterID → UInt64) (s : Client) : Prop :=
  ∀ router job, s.pendingRouters[router]? = some job → ∀ answers txid,
    let after := handleGotRouterMessage rules answers s txid []
    if txid = sent router then
      after.pendingRouters = s.pendingRouters.erase router ∧
        after.handed = (if job.handler then [(router, [])] else []) ++ s.handed
    else after.pendingRouters[router]? = some job

section Requests

variable {answers : Answers}

theorem finish_nil (s : Client) (router : RouterID) (job : RouterLookupJob) :
    (finish rules answers s router job []).pendingRouters = s.pendingRouters.erase router ∧
      (finish rules answers s router job []).handed =
        (if job.handler then [(router, [])] else []) ++ s.handed := by
  have unchanged : ∀ (callbacks : List RCCallback) (s : Client),
      callbacks.foldl (callBack none .routerNotFound) s = s := by
    intro callbacks s
    exact List.foldl_fixed' (by rintro (_ | _) <;> rfl) callbacks
  rw [finish, informResult]
  cases job.handler with
  | false => exact ⟨rfl, rfl⟩
  | true =>
    simp only [if_true, handleDHTLookupResult, finalizeRequest, unchanged]
    exact ⟨trivial, rfl⟩

theorem pendingRouters_dropLookups (doomed : RouterLookupJob → Bool) (router : RouterID) :
    (dropLookups rules answers s doomed).pendingRouters[router]? =
      if s.pendingRouters[router]?.any doomed then none else s.pendingRouters[router]? := by
  have erased : ∀ (entries : List (RouterID × RouterLookupJob)) (s : Client),
      (entries.foldl (fun s e => finish rules answers s e.1 e.2 []) s).pendingRouters[router]? =
        if router ∈ entries.map Prod.fst then none else s.pendingRouters[router]? := by
    intro entries
    induction entries with
    | nil => exact fun s => rfl
    | cons entry entries ih =>
      intro s
      rw [List.foldl_cons, ih, (finish_nil s _ _).1, getElem?_erase]
      grind
  rw [dropLookups, erased]
  refine if_congr ?_ rfl rfl
  simp [Std.ExtTreeMap.mem_toList_iff_getElem?_eq_some, Option.any_eq_true]

/-- The lookups end as they should just if every job has the number of its request, and no other
job has that number. -/
theorem endsSent_iff (rules : ContactRules) (sent : RouterID → UInt64) (s : Client) :
    EndsSent rules sent s ↔ ∀ router job, s.pendingRouters[router]? = some job →
      job.txid = sent router ∧ ∀ other job', s.pendingRouters[other]? = some job' →
        job'.txid = sent router → other = router := by
  constructor
  · intro ends router job pending
    have after : (dropLookups rules ⟨fun _ => true, true, true, 0, 0⟩ s
        (·.txid = sent router)).pendingRouters = s.pendingRouters.erase router :=
      ((if_pos rfl).mp (ends router job pending _ (sent router))).1
    have kept : ∀ other, _ = if router = other then none else s.pendingRouters[other]? :=
      fun other => by rw [← getElem?_erase, ← after, pendingRouters_dropLookups]
    have here := kept router
    refine ⟨by grind, fun other job' isOther same => ?_⟩
    have there := kept other
    grind
  · intro numbered router job pending answers txid
    obtain ⟨same, unique⟩ := numbered router job pending
    have drops : handleGotRouterMessage rules answers s txid [] =
        dropLookups rules answers s (·.txid = txid) := if_neg (by simp)
    dsimp only
    rw [drops]
    split
    · have only : (s.pendingRouters.toList.filter fun e => e.2.txid = txid) = [(router, job)] := by
        rw [← List.perm_singleton, List.perm_ext_iff_of_nodup (nodup_toList.filter _)
          (List.nodup_singleton _)]
        rintro ⟨other, job'⟩
        rw [List.mem_filter, Std.ExtTreeMap.mem_toList_iff_getElem?_eq_some]
        grind
      rw [dropLookups, only]
      exact finish_nil s router job
    · rw [pendingRouters_dropLookups, pending]
      grind

/-- A request with number 5 whose job has number 1: the reply with number 5 ends nothing. -/
theorem sent_number_ends_nothing :
    ¬EndsSent exampleRules
      (requestRouter (fun _ => 0) 5 exampleAnswers {} (exampleRouter 1) true).1
      (requestRouter (fun _ => 0) 5 exampleAnswers {} (exampleRouter 1) true).2 := by
  intro ends
  have found := ends (exampleRouter 1) ⟨1, true, 0⟩ (by decide +kernel) exampleAnswers 5
  exact absurd ((if_pos (by decide)).mp found).2 (by decide +kernel)

end Requests

end Client

end Llarp.Service

import Llarp.Router.OutboundSessionMaker

/-!
# No callback is left without a pending session

Finishing an attempt takes two critical sections: the first takes the callbacks of the router,
the second erases the pending session, and the callbacks run in between. A request for the same
router that looks in between finds a session that is about to disappear. If no request looks
then, callbacks only ever wait for a pending session, or for a request that is about to make
one.
-/

namespace Llarp

open Foundation AlignedBuffer SessionFrame

namespace SessionFrame

/-- The router that a frame is about. -/
def router : SessionFrame → RouterID
  | .store router _ _ | .check router _ | .createPending router _ | .shortCircuit router _
  | .contactResult router _ _ | .gotContact router _ | .shouldConnect router
  | .doEstablish router | .sessionEstablished router | .verify router | .finalize router _
  | .callBack router _ _ | .erase router => router

variable (frame : SessionFrame) (router : RouterID)

/-- A request that is about to look for a pending session. -/
def checks : Bool :=
  match frame with
  | .check r _ => r = router
  | _ => false

/-- A request that is about to look for a pending session, or that found none. -/
def opens : Bool :=
  match frame with
  | .check r _ => r = router
  | .createPending r _ => r = router
  | _ => false

/-- An attempt whose callbacks were taken and whose session is still pending. -/
def finalizing : Bool :=
  match frame with
  | .callBack r _ _ => r = router
  | .erase r => r = router
  | _ => false

theorem opens_of_checks {frame : SessionFrame} {router : RouterID}
    (checks : frame.checks router = true) : frame.opens router = true := by
  cases frame with
  | check r rc => exact checks
  | _ => exact absurd checks Bool.false_ne_true

end SessionFrame

namespace OutboundSessionMaker

variable {s t : OutboundSessionMaker} {frame : SessionFrame} {next rest fs gs : List SessionFrame}

/-- What holds for the maps and the frames of all threads. -/
structure Backed (s : OutboundSessionMaker) (fs : List SessionFrame) : Prop where
  opened : ∀ router : RouterID, s.pendingCallbacks[router]? ≠ none →
    s.pendingSessions[router]? ≠ none ∨ ∃ f ∈ fs, f.opens router
  late : ∀ router : RouterID, (∃ f ∈ fs, f.finalizing router) → s.pendingCallbacks[router]? ≠ none →
    ∃ f ∈ fs, f.checks router

theorem Backed.of_perm (backed : Backed s fs) (same : fs.Perm gs) : Backed s gs := by
  have holds : ∀ p : SessionFrame → Bool, (∃ f ∈ fs, p f) ↔ ∃ f ∈ gs, p f :=
    fun p => exists_congr fun f => and_congr_left' same.mem_iff
  constructor
  · intro router waits
    rw [← holds]
    exact backed.opened router waits
  · intro router
    rw [← holds, ← holds]
    exact backed.late router

/-- How a frame runs that may change the maps for some routers. A router that has callbacks
afterwards has a new request that will look, or it had callbacks before, kept its session, and
the frame was not about to look itself. -/
theorem Backed.after (backed : Backed s (frame :: rest))
    (each : ∀ router : RouterID, t.pendingCallbacks[router]? ≠ none →
      (∃ f ∈ next, f.checks router) ∨
        s.pendingCallbacks[router]? ≠ none ∧
        (s.pendingSessions[router]? ≠ none ∨ frame.opens router →
          t.pendingSessions[router]? ≠ none) ∧
        frame.checks router = false ∧
        ∀ f ∈ next, f.finalizing router → frame.finalizing router) :
    Backed t (next ++ rest) := by
  constructor
  · intro router waits
    rcases each router waits with ⟨f, new, checks⟩ | ⟨before, sessions, -, -⟩
    · exact .inr ⟨f, List.mem_append_left _ new, opens_of_checks checks⟩
    rcases backed.opened router before with pending | ⟨f, member, open'⟩
    · exact .inl (sessions (.inl pending))
    rcases List.mem_cons.mp member with rfl | other
    · exact .inl (sessions (.inr open'))
    · exact .inr ⟨f, List.mem_append_right _ other, open'⟩
  · rintro router ⟨f, member, half⟩ waits
    rcases each router waits with ⟨g, new, checks⟩ | ⟨before, -, looks, finalizing⟩
    · exact ⟨g, List.mem_append_left _ new, checks⟩
    have halfBefore : ∃ f ∈ frame :: rest, f.finalizing router := by
      rcases List.mem_append.mp member with new | old
      · exact ⟨frame, List.mem_cons_self, finalizing f new half⟩
      · exact ⟨f, List.mem_cons_of_mem _ old, half⟩
    obtain ⟨g, found, checks⟩ := backed.late router halfBefore before
    rcases List.mem_cons.mp found with rfl | other
    · rw [looks] at checks
      exact absurd checks Bool.false_ne_true
    · exact ⟨g, List.mem_append_right _ other, checks⟩

/-- A frame that makes no session and takes no callbacks. -/
theorem Backed.quiet (backed : Backed s (frame :: rest))
    (callbacks : t.pendingCallbacks = s.pendingCallbacks)
    (sessions : ∀ router : RouterID, s.pendingSessions[router]? ≠ none →
      t.pendingSessions[router]? ≠ none)
    (opens : ∀ router, frame.opens router = false)
    (finalizing : ∀ f ∈ next, ∀ router, f.finalizing router → frame.finalizing router) :
    Backed t (next ++ rest) := by
  refine backed.after fun router waits => .inr ⟨callbacks ▸ waits, ?_, ?_, ?_⟩
  · rintro (pending | open')
    · exact sessions router pending
    · rw [opens router] at open'
      exact absurd open' Bool.false_ne_true
  · refine Bool.eq_false_iff.mpr fun checks => ?_
    have open' := opens_of_checks checks
    rw [opens router] at open'
    exact absurd open' Bool.false_ne_true
  · exact fun f new => finalizing f new router

/-! ### The frames that change the maps -/

variable {router : RouterID} {rc : Option Iwp.RouterContact} {onLoop answer : Bool}

/-- A callback is stored and the request goes on to look for a pending session. -/
theorem Backed.store {callback : ℕ}
    (backed : Backed s (.store router rc (some callback) :: rest)) :
    Backed (s.advance onLoop answer (.store router rc (some callback))).1
      ([.check router rc] ++ rest) := by
  refine backed.after fun r waits => ?_
  by_cases same : router = r
  · exact .inl ⟨_, List.mem_singleton_self _, decide_eq_true same⟩
  · rw [advance, getElem?_insert, if_neg same] at waits
    refine .inr ⟨waits, fun pending => ?_, rfl, fun f new half => ?_⟩
    · exact pending.resolve_right Bool.false_ne_true
    · rw [List.mem_singleton.mp new] at half
      exact absurd half Bool.false_ne_true

/-- A request makes a pending session. -/
theorem Backed.createPending (backed : Backed s (.createPending router rc :: rest)) :
    Backed (s.advance onLoop answer (.createPending router rc)).1
      ([.shortCircuit router rc] ++ rest) := by
  refine backed.after fun r waits => .inr ⟨waits, fun before => ?_, rfl, fun f new half => ?_⟩
  · rw [advance, getElem?_insertIfNew]
    by_cases same : router = r
    · rw [if_pos same]
      exact Option.some_ne_none _
    · rw [if_neg same]
      exact before.resolve_right fun open' => same (of_decide_eq_true open')
  · rw [List.mem_singleton.mp new] at half
    exact absurd half Bool.false_ne_true

/-- The callbacks of a finished attempt are taken: none is left for this router. -/
theorem Backed.finalize {type : SessionResult}
    (backed : Backed s (.finalize router type :: rest)) :
    Backed (s.advance onLoop answer (.finalize router type)).1
      ([.callBack router type (s.pendingCallbacks[router]?.getD [])] ++ rest) := by
  refine backed.after fun r waits => ?_
  rw [advance, getElem?_erase] at waits
  by_cases same : router = r
  · rw [if_pos same] at waits
    exact absurd rfl waits
  · rw [if_neg same] at waits
    refine .inr ⟨waits, fun pending => ?_, rfl, fun f new half => ?_⟩
    · exact pending.resolve_right Bool.false_ne_true
    · rw [List.mem_singleton.mp new] at half
      exact absurd (of_decide_eq_true half) same

/-- A request looks for a pending session while no attempt for the router is half finished. -/
theorem Backed.check (backed : Backed s (.check router rc :: rest))
    (orderly : (∃ f ∈ check router rc :: rest, f.finalizing router) →
      s.pendingCallbacks[router]? = none) :
    Backed s ((s.advance onLoop answer (.check router rc)).2 ++ rest) := by
  have finalizing : ∀ f ∈ (s.advance onLoop answer (.check router rc)).2, ∀ r,
      f.finalizing r = false := by
    intro f member r
    rw [advance] at member
    dsimp only at member
    split_ifs at member
    · rw [List.mem_singleton.mp member]
      rfl
    · exact absurd member List.not_mem_nil
    · rw [List.mem_singleton.mp member]
      rfl
  constructor
  · intro r waits
    rcases backed.opened r waits with pending | ⟨f, member, open'⟩
    · exact .inl pending
    rcases List.mem_cons.mp member with rfl | other
    -- the request itself: it found a session, or it is about to make one
    · obtain rfl : router = r := of_decide_eq_true open'
      by_cases absent : s.pendingSessions[router]? = none
      · refine .inr ⟨.createPending router rc, List.mem_append_left _ ?_, open'⟩
        rw [advance, absent]
        exact List.mem_singleton_self _
      · exact .inl absent
    · exact .inr ⟨f, List.mem_append_right _ other, open'⟩
  · rintro r ⟨f, member, half⟩ waits
    have before : ∃ f ∈ SessionFrame.check router rc :: rest, f.finalizing r := by
      rcases List.mem_append.mp member with new | old
      · rw [finalizing f new r] at half
        exact absurd half Bool.false_ne_true
      · exact ⟨f, List.mem_cons_of_mem _ old, half⟩
    obtain ⟨g, found, checks⟩ := backed.late r before waits
    rcases List.mem_cons.mp found with rfl | other
    · obtain rfl : router = r := of_decide_eq_true checks
      exact absurd (orderly before) waits
    · exact ⟨g, List.mem_append_right _ other, checks⟩

/-- The pending session is erased. Callbacks that were stored since they were taken belong to a
request that has not looked yet. -/
theorem Backed.erase (backed : Backed s (.erase router :: rest)) :
    Backed { s with pendingSessions := s.pendingSessions.erase router } rest := by
  have late : ∀ r, (∃ f ∈ SessionFrame.erase router :: rest, f.finalizing r) →
      s.pendingCallbacks[r]? ≠ none → ∃ f ∈ rest, f.checks r := by
    intro r half waits
    obtain ⟨g, found, checks⟩ := backed.late r half waits
    rcases List.mem_cons.mp found with rfl | other
    · exact absurd checks Bool.false_ne_true
    · exact ⟨g, other, checks⟩
  constructor
  · intro r waits
    by_cases same : router = r
    · obtain ⟨g, found, checks⟩ := late r ⟨_, List.mem_cons_self, decide_eq_true same⟩ waits
      exact .inr ⟨g, found, opens_of_checks checks⟩
    · rw [getElem?_erase, if_neg same]
      rcases backed.opened r waits with pending | ⟨f, member, open'⟩
      · exact .inl pending
      · rcases List.mem_cons.mp member with rfl | other
        · exact absurd open' Bool.false_ne_true
        · exact .inr ⟨f, other, open'⟩
  · rintro r ⟨f, member, half⟩ waits
    exact late r ⟨f, List.mem_cons_of_mem _ member, half⟩ waits

/-! ### Runs -/

/-- The router whose pending session a thread is about to look for. -/
def looksFor (s : OutboundSessionMaker) (thread : ℕ) : Option RouterID :=
  match s.threads[thread]? with
  | some (.check router _ :: _) => some router
  | _ => none

/-- No request looks for a pending session to a router while an attempt for that router is half
finished, unless no callback waits for the router. -/
def Orderly (s : OutboundSessionMaker) : SessionEvent → Prop
  | .call _ _ => True
  | .resume thread _ =>
    ∀ router, s.looksFor thread = some router →
      (∃ f ∈ frames s.threads, f.finalizing router) → s.pendingCallbacks[router]? = none

instance (s : OutboundSessionMaker) : (event : SessionEvent) → Decidable (s.Orderly event)
  | .call _ _ => isTrue trivial
  | .resume thread _ => decidableForallEqSome (s.looksFor thread)

/-- Only a finished attempt leaves a half finished one behind. -/
theorem finalizing_of_advance {f : SessionFrame}
    (new : f ∈ (s.advance onLoop answer frame).2) (half : f.finalizing router = true) :
    frame.finalizing router = true ∨ ∃ type, frame = .finalize router type := by
  cases frame with
  | finalize r type =>
    rw [advance, List.mem_singleton] at new
    rw [new] at half
    exact .inr ⟨type, by rw [of_decide_eq_true half]⟩
  | callBack r type callbacks =>
    left
    cases callbacks with
    | nil =>
      rw [advance, List.mem_singleton] at new
      rwa [new] at half
    | cons callback callbacks =>
      rw [advance, List.mem_singleton] at new
      rwa [new] at half
  -- the frames that follow the others are not half finished attempts
  | store r rc callback => cases callback <;> grind [advance, finalizing]
  | shortCircuit r rc => cases rc <;> grind [advance, finalizing]
  | contactResult r rc result =>
    cases result <;> cases rc <;> grind [advance, finalizing]
  | _ => grind [advance, finalizing]

/-- What any frame does, if it is not a request that looks at a bad moment. -/
theorem Backed.advance (backed : Backed s (frame :: rest))
    (orderly : ∀ router rc, frame = .check router rc →
      (∃ f ∈ frame :: rest, f.finalizing router) → s.pendingCallbacks[router]? = none) :
    Backed (s.advance onLoop answer frame).1 ((s.advance onLoop answer frame).2 ++ rest) := by
  have same (opens : ∀ r, frame.opens r = false) (taken : ∀ r type, frame ≠ .finalize r type)
      (callbacks : (s.advance onLoop answer frame).1.pendingCallbacks = s.pendingCallbacks)
      (sessions : (s.advance onLoop answer frame).1.pendingSessions = s.pendingSessions) :
      Backed (s.advance onLoop answer frame).1 ((s.advance onLoop answer frame).2 ++ rest) := by
    refine backed.quiet callbacks (fun r pending => sessions ▸ pending) opens fun f new r half => ?_
    refine (finalizing_of_advance new half).resolve_right ?_
    rintro ⟨type, here⟩
    exact taken r type here
  cases frame with
  | store router rc callback =>
    cases callback with
    | none => exact same (fun _ => rfl) (fun _ _ => nofun) rfl rfl
    | some callback => exact backed.store
  | check router rc => exact backed.check (orderly router rc rfl)
  | createPending router rc => exact backed.createPending
  | finalize router type => exact backed.finalize
  | erase router => exact backed.erase
  | gotContact router rc =>
    refine backed.quiet ?_ (fun r pending => ?_) (fun _ => rfl) fun f new r half =>
      (finalizing_of_advance new half).resolve_right nofun
    · rw [OutboundSessionMaker.advance]
      split_ifs <;> rfl
    · rw [OutboundSessionMaker.advance]
      split_ifs
      · exact pending
      · rw [getElem?_insert]
        split_ifs
        · exact Option.some_ne_none _
        · exact pending
      · exact pending
  | callBack router type callbacks =>
    cases callbacks with
    | nil => exact same (fun _ => rfl) (fun _ _ => nofun) rfl rfl
    | cons callback callbacks => exact same (fun _ => rfl) (fun _ _ => nofun) rfl rfl
  | _ => exact same (fun _ => rfl) (fun _ _ => nofun) rfl rfl

/-- An operation is entered. -/
theorem Backed.call (backed : Backed s fs) (operation : SessionCall) :
    Backed s (operation.enter :: fs) := by
  have whole : ∀ r, operation.enter.finalizing r = false := by
    intro r
    cases operation <;> rfl
  constructor
  · intro r waits
    refine (backed.opened r waits).imp_right ?_
    rintro ⟨f, member, open'⟩
    exact ⟨f, List.mem_cons_of_mem _ member, open'⟩
  · rintro r ⟨f, member, half⟩ waits
    rcases List.mem_cons.mp member with rfl | old
    · rw [whole r] at half
      exact absurd half Bool.false_ne_true
    · obtain ⟨g, found, checks⟩ := backed.late r ⟨f, old, half⟩ waits
      exact ⟨g, List.mem_cons_of_mem _ found, checks⟩

theorem Backed.step {event : SessionEvent} (backed : Backed s (frames s.threads))
    (orderly : s.Orderly event) (moves : s.step event = some t) :
    Backed t (frames t.threads) := by
  cases event with
  | call thread operation =>
    rw [OutboundSessionMaker.step] at moves
    cases found : s.threads[thread]? with
    | none => simp [found] at moves
    | some stack =>
      simp only [found, Option.ite_none_right_eq_some, Option.some.injEq] at moves
      obtain ⟨-, rfl⟩ := moves
      have entered := (backed.call operation).of_perm (frames_call found).symm
      exact ⟨entered.opened, entered.late⟩
  | resume thread answer =>
    rw [OutboundSessionMaker.step] at moves
    cases found : s.threads[thread]? with
    | none => simp [found] at moves
    | some stack =>
      cases stack with
      | nil => simp [found] at moves
      | cons frame below =>
        simp only [found, Option.some.injEq] at moves
        subst moves
        obtain ⟨rest, before, after⟩ := frames_resume found
        have ran : Backed (s.advance (thread = 0) answer frame).1
            ((s.advance (thread = 0) answer frame).2 ++ rest) := by
          refine (backed.of_perm before).advance fun router rc here half => ?_
          refine orderly router ?_ ?_
          · rw [looksFor, found, here]
          · obtain ⟨f, member, half⟩ := half
            exact ⟨f, before.mem_iff.mpr member, half⟩
        have placed := ran.of_perm (after _).symm
        exact ⟨placed.opened, placed.late⟩

theorem backed_init (workers : ℕ) : Backed (init workers) (frames (init workers).threads) := by
  have empty : ∀ r, (init workers).pendingCallbacks[r]? = none :=
    fun _ => Std.ExtTreeMap.getElem?_empty
  constructor
  · intro r waits
    exact absurd (empty r) waits
  · intro r _ waits
    exact absurd (empty r) waits

/-- In a run in which no request looks at a bad moment, a router with callbacks that wait has a
pending session whenever no operation for the router is running. -/
theorem pending_of_orderly (workers : ℕ) (events : List SessionEvent) (t : OutboundSessionMaker)
    (orderly : Along step Orderly (init workers) events)
    (reached : run step (init workers) events = some t) (router : RouterID)
    (idle : ∀ f ∈ frames t.threads, f.router ≠ router)
    (waits : t.pendingCallbacks[router]? ≠ none) : t.pendingSessions[router]? ≠ none := by
  have backed : Backed t (frames t.threads) :=
    run_invariant (fun s => Backed s (frames s.threads))
      (fun _ _ _ holds => holds.step) (backed_init workers) orderly reached
  refine (backed.opened router waits).resolve_right ?_
  rintro ⟨f, member, open'⟩
  refine idle f member ?_
  cases f with
  | check r rc => exact of_decide_eq_true open'
  | createPending r rc => exact of_decide_eq_true open'
  | _ => exact absurd open' Bool.false_ne_true

/-- A request for a session that goes on to look up the contact of the router. -/
def firstRequest (router : RouterID) (callback : ℕ) : List SessionEvent :=
  [.call 0 (.createSessionTo router (some callback)), .resume 0 false, .resume 0 false,
    .resume 0 false, .resume 0 false]

theorem pending_of_orderly_first_request :
    ∃ t, run step (init 1) (firstRequest (AlignedBuffer.zero 32) 0) = some t ∧
      t.pendingCallbacks[AlignedBuffer.zero 32]? ≠ none ∧
      t.pendingSessions[AlignedBuffer.zero 32]? ≠ none := by
  have idle : ∃ t, run step (init 1) (firstRequest (zero 32) 0) = some t ∧
      (∀ f ∈ frames t.threads, f.router ≠ zero 32) ∧
      t.pendingCallbacks[zero 32]? ≠ none := by decide +kernel
  obtain ⟨t, reached, idle, waits⟩ := idle
  exact ⟨t, reached, waits,
    pending_of_orderly 1 _ t (by decide +kernel) reached (zero 32) idle waits⟩

/-- The contact of a router is not found. The callback of the failed request asks for a session
to the same router again, and finds the old one still pending. When the attempt has been
finished, nothing runs, the second callback waits, and there is no pending session. -/
theorem second_request_stranded :
    ∃ t, run step (init 0)
        (firstRequest (AlignedBuffer.zero 32) 0 ++
          [.call 0 (.onRouterContactResult (AlignedBuffer.zero 32) none .routerNotFound),
            .resume 0 false, .resume 0 false,
            .call 0 (.createSessionTo (AlignedBuffer.zero 32) (some 1)),
            .resume 0 false, .resume 0 false,
            .resume 0 false, .resume 0 false, .resume 0 false]) = some t ∧
      frames t.threads = [] ∧ t.pendingCallbacks[AlignedBuffer.zero 32]? = some [1] ∧
      t.pendingSessions[AlignedBuffer.zero 32]? = none := by
  decide +kernel

end OutboundSessionMaker

end Llarp

import Llarp.Link.Reachable

/-!
# Sessions that are announced

When a handshake is complete the session asks for its router to be mapped and then calls
the handler, whatever the answer was. The link layer promotes the session that is pending
at the address, which need not be the one that asks, and it refuses a router that has an
authed session, which closes the one that asks.
-/

namespace Llarp.Link

open Foundation Iwp

/-- The session is open and it is the one that is stored for its router. -/
def Announcement.Sound (a : Announcement) : Prop := a.stored = [a.session] ∧ a.state ≠ .closed

instance (a : Announcement) : Decidable a.Sound := inferInstanceAs (Decidable (_ ∧ _))

namespace LinkLayer

variable {H : Type} {host : Host} {l k : LinkLayer H} {h : ℕ} {s s' : Session H}
  {addr : SockAddr} {pk : PubKey} {m : Moment} {called : List LinkCall}

/-- Every announcement so far was sound. -/
def Announced (l : LinkLayer H) : Prop := ∀ a ∈ l.announcements, a.Sound

/-- The session is the one that would be mapped for this router, or it was mapped already. -/
def Fit (l : LinkLayer H) (h : ℕ) (addr : SockAddr) (pk : PubKey) : Prop :=
  l.pending[addr]? = some h ∧ l.hasSessionTo pk = false ∨
    l.pending[addr]? = none ∧ l.sessionsTo pk = [h]

instance (l : LinkLayer H) (h : ℕ) (addr : SockAddr) (pk : PubKey) : Decidable (l.Fit h addr pk) :=
  inferInstanceAs (Decidable (_ ∨ _))

/-- The condition on one step: a session that becomes ready fits. -/
def Fitting (host : Host) (l : LinkLayer H) : Event H → Prop
  | .session h event => ∀ s, l.sessions[h]? = some s →
    ∀ pk, s.Establishes host (l.moment s.remoteAddr, event) pk → l.Fit h s.remoteAddr pk
  | _ => True

instance decidableFitting [DecidableEq H] (host : Host) (l : LinkLayer H) :
    (event : Event H) → Decidable (l.Fitting host event)
  | .session _ _ => @decidableForallEqSome _ _ (fun s => decidable_of_iff
      (∀ pk ∈ [s.expectedIdent, s.remoteRC.pubkey], _ → _)
      ⟨fun fits pk here => fits pk here.mem here, fun fits pk _ => fits pk⟩) _
  | .wait _ | .recvFrom .. | .tryEstablishTo .. | .pump | .closeSessionTo _ | .stop =>
    isTrue trivial

/-! ### Calls of a session -/

theorem sessionsTo_of_hasSessionTo (none_ : l.hasSessionTo pk = false) : l.sessionsTo pk = [] := by
  simp only [hasSessionTo, List.any_eq_false, decide_eq_true_eq] at none_
  rw [sessionsTo, List.filter_eq_nil_iff.mpr, List.map_nil]
  simpa using none_

/-- The session that fits is mapped, if it is not yet. -/
theorem Fit.mapAddr (fit : l.Fit h addr pk) :
    (l.mapAddr addr pk).pending[addr]? = none ∧ (l.mapAddr addr pk).sessionsTo pk = [h] := by
  unfold LinkLayer.mapAddr
  rcases fit with ⟨pending, unauthed⟩ | ⟨unpending, stored⟩
  · rw [pending]
    dsimp only
    rw [if_neg (Bool.eq_false_iff.mp unauthed)]
    have before := sessionsTo_of_hasSessionTo unauthed
    rw [sessionsTo] at before ⊢
    simp [List.filter_append, List.map_append, before]
  · rw [unpending]
    exact ⟨unpending, stored⟩

theorem Fit.not_refuses (fit : l.Fit h addr pk) : (l.moment addr).refuses pk = false := by
  rcases fit with ⟨-, unauthed⟩ | ⟨unpending, -⟩
  · simp [moment, unauthed]
  · have absent : addr ∉ l.pending := not_mem_iff_getElem?.mpr unpending
    simp [moment, absent]

@[simp] theorem announcements_mapAddr :
    (l.mapAddr addr pk).announcements = l.announcements := by
  unfold mapAddr
  split
  · rfl
  · split_ifs <;> rfl

/-- Calls in order that map only one router, if any, for a session that fits. -/
theorem Announced.foldl_call (pk : PubKey) (ordered : Session.Ordered m called)
    (announced : l.Announced)
    (fits : ∀ pk', .mapAddr pk' ∈ called → pk' = pk ∧ m.refuses pk = false ∧ l.Fit h addr pk) :
    (called.foldl (call h addr) l).Announced := by
  induction ordered generalizing l with
  | nil => exact announced
  | unmap _ ih =>
    exact ih announced fun pk' hpk' => fits pk' (List.mem_cons_of_mem _ hpk')
  | renegotiate rc _ ih =>
    exact ih announced fun pk' hpk' => fits pk' (List.mem_cons_of_mem _ hpk')
  | ready pk' inbound _ _ ih =>
    obtain ⟨rfl, taken, fit⟩ := fits pk' List.mem_cons_self
    obtain ⟨unpending, stored⟩ := fit.mapAddr
    apply ih
    · -- the handler finds the session that was just mapped
      intro a ha
      rcases List.mem_append.mp ha with old | new
      · rw [call, announcements_mapAddr] at old
        exact announced a old
      · rw [List.mem_singleton.mp new]
        exact ⟨stored, State.noConfusion⟩
    · intro pk'' hpk''
      have same := (fits pk'' (List.mem_cons_of_mem _ (List.mem_cons_of_mem _ hpk''))).1
      exact ⟨same, taken, Or.inr ⟨unpending, stored⟩⟩
  | refused pk' inbound refused _ _ =>
    obtain ⟨rfl, taken, -⟩ := fits pk' List.mem_cons_self
    rw [taken] at refused
    cases refused

/-- A session goes on with all its calls. -/
theorem Announced.update {establishes : PubKey → Prop} {closes : Prop} (announced : l.Announced)
    (found : l.sessions[h]? = some s)
    (effect : Session.Effect (l.moment s.remoteAddr) s s' establishes closes)
    (orderly : Session.Orderly (l.moment s.remoteAddr) s s')
    (unique : ∀ pk pk', establishes pk → establishes pk' → pk = pk')
    (fits : ∀ pk, establishes pk → l.Fit h s.remoteAddr pk) : (l.update h s').Announced := by
  obtain ⟨-, called, calls, maps, -⟩ := effect
  obtain ⟨called', calls', ordered⟩ := orderly
  obtain rfl : called = called' := List.append_cancel_left (calls.symm.trans calls')
  rw [LinkLayer.update, found]
  dsimp only
  rw [calls, List.drop_left]
  by_cases becomes : ∃ pk, .mapAddr pk ∈ called
  · obtain ⟨pk, mapped⟩ := becomes
    have fit : l.Fit h s.remoteAddr pk := fits pk (maps pk mapped)
    refine Announced.foldl_call pk ordered announced fun pk' mapped' => ?_
    exact ⟨unique pk' pk (maps pk' mapped') (maps pk mapped), fit.not_refuses, fit⟩
  · refine Announced.foldl_call (.zero 32) ordered announced fun pk' mapped' => ?_
    exact absurd ⟨pk', mapped'⟩ becomes

/-! ### Sweeps and packets -/

theorem announcements_foldl {α : Type} {f : LinkLayer H → α → LinkLayer H}
    (each : ∀ l x, (f l x).announcements = l.announcements) (xs : List α) (l : LinkLayer H) :
    (xs.foldl f l).announcements = l.announcements := by
  induction xs generalizing l with
  | nil => rfl
  | cons x xs ih => exact (ih (f l x)).trans (each l x)

@[simp] theorem announcements_close : (l.close h).announcements = l.announcements := by
  cases found : l.sessions[h]? with
  | none => rw [close_of_none found]
  | some s => rw [close_eq found]

@[simp] theorem announcements_pumpSession :
    (l.pumpSession h).announcements = l.announcements := by
  cases found : l.sessions[h]? with
  | none => rw [pumpSession_of_none found]
  | some s => rw [pumpSession_eq found]

@[simp] theorem announcements_unmapAddrOf :
    (l.unmapAddrOf h).announcements = l.announcements := by
  unfold unmapAddrOf
  cases l.addrOf h with
  | none => rfl
  | some addr => rfl

theorem announcements_pump : l.pump.announcements = l.announcements := by
  unfold pump
  rw [announcements_foldl, announcements_foldl, announcements_foldl]
  · intro l entry
    unfold pumpAuthed
    split_ifs <;> simp
  · intro l entry
    unfold pumpPending
    split_ifs <;> simp
  · intro l entry
    unfold closePending
    split_ifs <;> simp

theorem announcements_closeSessionTo {remote : PubKey} :
    (l.closeSessionTo remote).announcements = l.announcements := by
  unfold closeSessionTo
  rw [announcements_foldl]
  intro l entry
  exact announcements_close

theorem announcements_stop : l.stop.announcements = l.announcements := by
  unfold stop
  rw [announcements_foldl fun _ _ => announcements_close,
    announcements_foldl fun _ _ => announcements_close]

/-- A packet that arrives announces nothing. -/
theorem Announced.recvLL {pkt : List UInt8} {ourLIM : Option Message} (announced : l.Announced) :
    (l.recvLL host h pkt ourLIM).1.Announced := by
  rw [LinkLayer.recvLL]
  cases found : l.sessions[h]? with
  | none => exact announced
  | some s =>
    exact announced.update found Session.effect_recvLL Session.orderly_recvLL
      (fun _ _ => False.elim) (fun _ => False.elim)

theorem Announced.recvFrom {pkt : List UInt8} {token : SessionToken} {ourLIM : Option Message}
    (announced : l.Announced) : (l.recvFrom host addr pkt token ourLIM).Announced := by
  rw [LinkLayer.recvFrom]
  split
  · split
    · exact announced.recvLL
    · exact announced
  · split
    · exact announced.recvLL
    · have fresh : (l.putSession
          (Session.inboundFrom host l.now l.ourKey addr token)).Announced := announced
      dsimp only
      split_ifs
      · exact fresh.recvLL
      · exact fresh.recvLL
      · exact announced

theorem Announced.tryEstablishTo {contact : Contact} {nonce : TunnelNonce}
    (announced : l.Announced) (hstep : l.tryEstablishTo host contact nonce = some k) :
    k.Announced := by
  obtain rfl | ⟨s, rfl⟩ := tryEstablishTo_cases hstep
  · exact announced
  · exact announced

/-! ### Runs -/

/-- A step establishes a session with one router at most. -/
theorem establishes_unique {at_ : Moment × Session.Event H} {pk pk' : PubKey}
    (here : s.Establishes host at_ pk) (here' : s.Establishes host at_ pk') : pk = pk' := by
  obtain ⟨m, event⟩ := at_
  cases event with
  | verdict request ourLIM => exact here.2.1.trans here'.2.1.symm
  | plaintext index => exact here.1.trans here'.1.symm
  | _ => exact here.elim

theorem Announced.sessionStep {event : Session.Event H} (announced : l.Announced)
    (fits : ∀ s, l.sessions[h]? = some s → ∀ pk,
      s.Establishes host (l.moment s.remoteAddr, event) pk → l.Fit h s.remoteAddr pk)
    (hstep : l.sessionStep host h event = some k) : k.Announced := by
  rw [LinkLayer.sessionStep] at hstep
  cases found : l.sessions[h]? with
  | none =>
    rw [found] at hstep
    cases hstep
    exact announced
  | some s =>
    rw [found] at hstep
    obtain ⟨s', went, rfl⟩ := Option.map_eq_some_iff.mp hstep
    exact announced.update found (Session.step_effect went) (Session.step_orderly went)
      (fun _ _ => establishes_unique) (fits s found)

theorem announced_empty (now : ℕ) (inbound : Bool) (ourKey : PubKey) :
    (empty now inbound ourKey : LinkLayer H).Announced := by
  intro a ha
  exact absurd ha List.not_mem_nil

theorem Announced.step {event : Event H} (announced : l.Announced) (fits : l.Fitting host event)
    (hstep : l.step host event = some k) : k.Announced := by
  cases event with
  | wait duration =>
    cases hstep
    exact announced
  | session h event =>
    cases event with
    | recvLL data ourLIM =>
      cases hstep
      exact announced
    | _ => exact announced.sessionStep fits hstep
  | recvFrom addr pkt token ourLIM =>
    cases hstep
    exact announced.recvFrom
  | tryEstablishTo contact nonce => exact announced.tryEstablishTo hstep
  | pump =>
    cases hstep
    rw [Announced, announcements_pump]
    exact announced
  | closeSessionTo remote =>
    cases hstep
    rw [Announced, announcements_closeSessionTo]
    exact announced
  | stop =>
    cases hstep
    rw [Announced, announcements_stop]
    exact announced

/-- In every run of a link layer in which every session that becomes ready fits, the handler
is called only for open sessions that are stored for their router at that moment. -/
theorem announced_of_fitting (host : Host) (now : ℕ) (inbound : Bool) (ourKey : PubKey)
    (events : List (Event H)) (l : LinkLayer H)
    (fits : Along (step host) (Fitting host) (empty now inbound ourKey) events)
    (hrun : run (step host) (empty now inbound ourKey) events = some l) : l.Announced :=
  run_invariant Announced (fun _ _ _ announced => announced.step)
    (announced_empty now inbound ourKey) fits hrun

theorem announced_of_fitting_handshake :
    ∃ l, run (step Session.plainHost) (empty 0 false (.zero 32)) handshake = some l ∧
      l.announcements = [⟨0, .zero 32, .ready, [0]⟩] ∧ l.Announced := by
  obtain ⟨l, hrun, once⟩ : ∃ l, run (step Session.plainHost) (empty 0 false (.zero 32)) handshake =
      some l ∧ l.announcements = [⟨0, .zero 32, .ready, [0]⟩] := by
    decide +kernel
  refine ⟨l, hrun, once, ?_⟩
  exact announced_of_fitting Session.plainHost 0 false (.zero 32) handshake l (by decide +kernel)
    hrun

/-- Two sessions with one router, at two of its addresses, complete their handshakes one
after the other. The second one is refused and closed, and announced all the same. -/
theorem refused_session_announced :
    ∃ l, run (step Session.plainHost) (empty 0 false (.zero 32))
        (.tryEstablishTo (plainContact (.zero 32) 7) (.zero 32) ::
          .tryEstablishTo (plainContact (.zero 32) 8) (.zero 32) ::
            completes 0 7 ++ completes 1 8) = some l ∧
      l.announcements =
        [⟨0, .zero 32, .ready, [0]⟩, ⟨1, .zero 32, .closed, [0]⟩] ∧
      ¬ l.Announced := by
  have reached : ∃ l, run (step Session.plainHost) (empty 0 false (.zero 32))
      (.tryEstablishTo (plainContact (.zero 32) 7) (.zero 32) ::
        .tryEstablishTo (plainContact (.zero 32) 8) (.zero 32) ::
          completes 0 7 ++ completes 1 8) = some l ∧
      l.announcements =
        [⟨0, .zero 32, .ready, [0]⟩, ⟨1, .zero 32, .closed, [0]⟩] := by
    decide +kernel
  obtain ⟨l, hrun, twice⟩ := reached
  refine ⟨l, hrun, twice, ?_⟩
  rw [Announced, twice]
  decide

end LinkLayer

end Llarp.Link

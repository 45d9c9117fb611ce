import Llarp.Exit.ExitEndpoint

/-!
# Null sessions

A session is made only for a key that is not yet known as that of a service node. The keys stay
known when their sessions expire, and a key becomes known without a session when the service node
itself obtains an exit, or because it is our own. Asking for a session with such a key dereferences
a null pointer.

`GetBestConvoTagFor` is meant to prefer the path of an exit over that of a session, but
`VisitEndpointsFor` says that it has found something only if the visitor returns false, which this
one never does: only the session is used.
-/

namespace Llarp.Exit

open Foundation

namespace ExitEndpoint

variable {cfg : Config} {s t : ExitEndpoint} {e : Event}

/-- There is a session with the router, or one will be made. -/
def Obtainable (s : ExitEndpoint) (router : RouterID) : Prop :=
  router ∉ s.snodeKeys ∨ ∃ session, s.snodeSessions[router]? = some (some session)

/-- A session is asked for only if there is one or if it is made. -/
def AsksObtainable (cfg : Config) (s : ExitEndpoint) (e : Event) : Prop :=
  ∀ router, s.asks cfg e = some router → s.Obtainable router

/-- No session is a null pointer, and our own key is known. -/
structure Held (cfg : Config) (s : ExitEndpoint) : Prop where
  sessions : ∀ rid : RouterID, s.snodeSessions[rid]? ≠ some none
  own : cfg.us ∈ s.snodeKeys

theorem held_start (cfg : Config) : Held cfg (start cfg) where
  sessions rid found := by
    cases found
  own := Finset.mem_singleton_self _

section

variable (held : Held cfg s)

include held

theorem Held.getIPForIdent (pk : PubKey) (now : ℕ) :
    Held cfg (s.getIPForIdent cfg pk now).2 := by
  obtain ⟨sessions, keys⟩ := getIPForIdent_frame cfg s pk now
  exact ⟨sessions ▸ held.sessions, keys ▸ held.own⟩

theorem Held.insert (router : RouterID) (session : SNodeSession)
    (rid : RouterID) : (s.snodeSessions.insert router (some session))[rid]? ≠ some none := by
  intro found
  rcases getElem?_insert_eq_some.mp found with ⟨-, made⟩ | ⟨-, old⟩
  · cases made
  · exact held.sessions rid old

/-- A session can be asked for exactly if there is one or if it is made. -/
theorem obtainSNodeSession_isSome_iff (router : RouterID) (now : ℕ) :
    (s.obtainSNodeSession cfg router true now).isSome ↔ s.Obtainable router := by
  rw [obtainSNodeSession, Obtainable]
  dsimp only
  by_cases known : router ∈ s.snodeKeys
  · rw [obtainServiceNodeIP_sessions_known known, or_iff_right (not_not.mpr known)]
    cases s.snodeSessions[router]? with
    | none => exact iff_of_false Bool.false_ne_true (by rintro ⟨_, ⟨⟩⟩)
    | some session =>
      cases session with
      | none => exact iff_of_false Bool.false_ne_true (by rintro ⟨_, ⟨⟩⟩)
      | some session => exact iff_of_true rfl ⟨session, rfl⟩
  · have foreign : router ≠ cfg.us := fun own => known (own ▸ held.own)
    rw [obtainServiceNodeIP_new foreign known]
    rw [getElem?_insert, if_pos rfl]
    exact iff_of_true rfl (.inl known)

/-! ### Dereferencing -/

theorem Held.deref (rid : RouterID) : s.deref rid = some () := by
  rw [ExitEndpoint.deref]
  split
  · exact absurd ‹_› (held.sessions rid)
  · rfl

theorem Held.sessionsHeld : s.sessionsHeld = true := by
  rw [ExitEndpoint.sessionsHeld, List.all_eq_true]
  rintro ⟨rid, session⟩ member
  have found := Std.ExtTreeMap.mem_toList_iff_getElem?_eq_some.mp member
  cases session with
  | none => exact absurd found (held.sessions rid)
  | some session => rfl

theorem Held.flush (dsts : List IPv6) : s.flush dsts = some () := by
  induction dsts with
  | nil => exact if_pos held.sessionsHeld
  | cons dst dsts ih =>
    have packet : s.flushPacket dst = some () := by
      rw [flushPacket]
      split
      · rfl
      · split_ifs
        · exact held.deref _
        · rfl
    rw [ExitEndpoint.flush, packet, Option.bind_some, ih]

/-- Asking the sessions for a path finds no null pointer. -/
theorem Held.getEndpointWithConvoTag (tag : PathID)
    (hasPath : RouterID → Bool) (visit : Visit (RouterID × Option SNodeSession)) :
    s.getEndpointWithConvoTag tag hasPath visit = some (s.convoRouter tag hasPath visit) := by
  have asks (entries : List (RouterID × Option SNodeSession))
      (all : ∀ entry ∈ entries, entry.2 ≠ none) :
      (getEndpointWithConvoTag.ask hasPath entries).isSome := by
    induction entries with
    | nil => rfl
    | cons entry entries ih =>
      obtain ⟨rid, session⟩ := entry
      cases session with
      | none => exact absurd rfl (all _ List.mem_cons_self)
      | some session =>
        rw [getEndpointWithConvoTag.ask]
        split_ifs
        · rfl
        · exact ih fun entry member => all entry (List.mem_cons_of_mem _ member)
  have found : (s.getEndpointWithConvoTag tag hasPath visit).isSome := by
    rw [ExitEndpoint.getEndpointWithConvoTag]
    split
    · rfl
    · refine asks _ fun entry member none => ?_
      have listed := (visit.perm _).mem_iff.mp member
      have stored := Std.ExtTreeMap.mem_toList_iff_getElem?_eq_some.mp listed
      exact held.sessions entry.1 (none ▸ stored)
  rw [convoRouter]
  cases result : s.getEndpointWithConvoTag tag hasPath visit with
  | none => rw [result] at found; cases found
  | some router => cases router <;> rfl

/-! ### Steps and runs -/

/-- A session that may be asked for or not. -/
theorem obtainSNodeSession_isSome_iff_of (router : RouterID) (allowed : Bool)
    (now : ℕ) : (s.obtainSNodeSession cfg router allowed now).isSome ↔
      (allowed = true → s.Obtainable router) := by
  cases allowed with
  | false => exact iff_of_true rfl fun asked => absurd asked Bool.false_ne_true
  | true => rw [obtainSNodeSession_isSome_iff held, forall_prop_of_true rfl]

end

theorem asks_if_iff {c : Prop} [Decidable c] {router : RouterID} :
    (∀ r, (if c then some router else none) = some r → s.Obtainable r) ↔
      (c → s.Obtainable router) := by
  constructor
  · exact fun all asked => all router (if_pos asked)
  · intro obtainable r found
    split_ifs at found with asked
    exact Option.some.inj found ▸ obtainable asked

theorem sendToOrQueue_isSome_iff (held : Held cfg s) (tag : PathID) (hasPath : RouterID → Bool)
    (visit : Visit (RouterID × Option SNodeSession)) (queued : Endpoint → Bool)
    (pathAllowed allowed : Bool) (now : ℕ) :
    (s.sendToOrQueue cfg tag hasPath visit queued pathAllowed allowed now).isSome ↔
      AsksObtainable cfg s (.sendToOrQueue tag hasPath visit queued pathAllowed allowed now) := by
  rw [sendToOrQueue, held.getEndpointWithConvoTag, Option.bind_some, AsksObtainable, asks]
  cases s.convoRouter tag hasPath visit with
  | none => exact iff_of_true rfl fun router asked => by cases asked
  | some rid =>
    rw [Option.filter_some, asks_if_iff]
    simp only [Bool.and_eq_true]
    split_ifs with taken forbidden
    · exact iff_of_true rfl fun asked => absurd asked.1.1 (by rw [taken]; decide)
    · exact iff_of_true rfl fun asked => absurd forbidden (by rw [asked.1.2]; decide)
    · rw [obtainSNodeSession_isSome_iff_of held]
      rw [Bool.not_eq_true, ← Bool.not_eq_true'] at taken
      rw [Bool.not_eq_true', Bool.not_eq_false] at forbidden
      exact ⟨fun obtainable asked => obtainable asked.2,
        fun obtainable asked => obtainable ⟨⟨taken, forbidden⟩, asked⟩⟩

theorem handleHookedDNSMessage_isSome_iff (held : Held cfg s) (query : Query) (allowed : Bool)
    (now : ℕ) : (s.handleHookedDNSMessage cfg query allowed now).isSome ↔
      AsksObtainable cfg s (.hookedDNSMessage query allowed now) := by
  cases query with
  | random router =>
    cases router with
    | none => exact iff_of_true rfl fun router asked => by cases asked
    | some router => exact iff_of_true rfl fun router asked => by cases asked
  | snode router isV4 =>
    rw [handleHookedDNSMessage, AsksObtainable, asks, asks_if_iff]
    split_ifs with old known
    · exact iff_of_true rfl fun asked => absurd old asked.1
    · exact iff_of_true rfl fun asked => absurd known asked.2.1
    · rw [obtainSNodeSession_isSome_iff_of held]
      exact ⟨fun obtainable asked => obtainable asked.2.2,
        fun obtainable asked => obtainable ⟨old, known, asked⟩⟩
  | other => exact iff_of_true rfl fun router asked => by cases asked

/-- A step dereferences no null pointer exactly if it asks only for sessions that are there or
that are made. -/
theorem step_isSome_iff (held : Held cfg s) (e : Event) :
    (step cfg s e).isSome ↔ AsksObtainable cfg s e := by
  have quiet {e : Event} (silent : s.asks cfg e = none) : AsksObtainable cfg s e :=
    fun router asked => absurd (silent.symm.trans asked) nofun
  cases e with
  | allocateNewExit request now => exact iff_of_true rfl (quiet rfl)
  | obtainServiceNodeIP other now => exact iff_of_true rfl (quiet rfl)
  | obtainSNodeSession router allowed now =>
    rw [step, obtainSNodeSession_isSome_iff_of held, AsksObtainable, asks, asks_if_iff]
  | ensurePathTo rid pathAllowed allowed now =>
    rw [step, ensurePathTo, AsksObtainable, asks, asks_if_iff]
    split_ifs with here
    · rw [obtainSNodeSession_isSome_iff_of held, and_imp, forall_prop_of_true here]
    · rw [getBestConvoTagFor, held.deref]
      exact iff_of_true rfl fun asked => absurd asked.1 here
  | sendToOrQueue tag hasPath visit queued pathAllowed allowed now =>
    exact sendToOrQueue_isSome_iff held tag hasPath visit queued pathAllowed allowed now
  | hookedDNSMessage query allowed now =>
    exact handleHookedDNSMessage_isSome_iff held query allowed now
  | handleTraffic router now => exact iff_of_true rfl (quiet rfl)
  | flush dsts =>
    rw [step, held.flush]
    exact iff_of_true rfl (quiet rfl)
  | tick now expired =>
    rw [step, tick, if_pos held.sessionsHeld]
    exact iff_of_true rfl (quiet rfl)
  | closeExit rxID verified replied => exact iff_of_true rfl (quiet rfl)
  | updateExit path verified rxID handler => exact iff_of_true rfl (quiet rfl)

theorem Held.step (held : Held cfg s) (steps : step cfg s e = some t) : Held cfg t := by
  cases moved_of_step steps with
  | stays quiet => exact held
  | marks now asked => exact held.getIPForIdent _ now
  | connects now asked => exact ⟨held.insert _ _, Finset.mem_insert_of_mem held.own⟩
  | @allocates request handler now grants asked =>
    obtain ⟨sessions, own⟩ := held.getIPForIdent request.pk now
    refine ⟨sessions, ?_⟩
    rw [addExit]
    dsimp only
    split_ifs
    · exact Finset.mem_insert_of_mem own
    · exact own
  | hears now found => exact ⟨held.insert _ _, held.own⟩
  | ticks now expired =>
    exact ⟨fun rid found => held.sessions rid (getElem?_of_filter found), held.own⟩
  | closes rxID verified replied found alike => exact ⟨held.sessions, held.own⟩
  | updates handler found unused => exact ⟨held.sessions, held.own⟩

/-- In a run no null session is dereferenced exactly if sessions are asked for only with routers
that have one, or whose key is not yet known. -/
theorem no_null_session_iff (cfg : Config) (events : List Event) :
    (run (step cfg) (start cfg) events).isSome ↔
      Along (step cfg) (AsksObtainable cfg) (start cfg) events :=
  run_isSome_iff_along (Held cfg) (fun _ _ _ held => held.step)
    (fun _ e held => step_isSome_iff held e) (held_start cfg)

/-- A session that has expired is not made again, and neither is one with ourselves. -/
theorem expired_session_is_null :
    (run (step exampleConfig) (start exampleConfig)
        [.obtainSNodeSession examplePeer true 0, .tick lifeSpan fun _ => false,
          .obtainSNodeSession examplePeer true lifeSpan]).isSome = false ∧
      (run (step exampleConfig) (start exampleConfig)
        [.obtainSNodeSession exampleConfig.us true 0]).isSome = false := by
  decide +kernel

/-! ### The best conversation with a router -/

/-- The visit succeeds only if the visitor ends it, by returning false. -/
def visitEndpointsFor {σ : Type} (visit : σ → Endpoint → Bool × σ) (pk : PubKey) :
    List (PubKey × Endpoint) → σ → Bool × σ
  | [], found => (false, found)
  | (key, ep) :: exits, found =>
    if key = pk then
      let (goesOn, found) := visit found ep
      if goesOn then visitEndpointsFor visit pk exits found else (true, found)
    else visitEndpointsFor visit pk exits found

/-- `GetBestConvoTagFor`, with the answer of `GetPathByRouter`. It fails at a null session. -/
def bestConvoTagFor (s : ExitEndpoint) (rid : RouterID) (pathByRouter : Option PathID) :
    Option (Option PathID) :=
  let visit (tag : PathID) (ep : Endpoint) := (true, (ep.currentPath.map Hop.rxID).getD tag)
  let (visited, tag) := visitEndpointsFor visit rid s.activeExits (.zero 16)
  if visited && !tag.isZero then some (some tag)
  else
    match s.snodeSessions[rid]? with
    | none => some none
    | some none => none
    | some (some _) => some pathByRouter

/-- A path of an exit of the identity. -/
def ServedBy (s : ExitEndpoint) (rid : RouterID) (tag : PathID) : Prop :=
  ∃ ep hop, (rid, ep) ∈ s.activeExits ∧ ep.currentPath = some hop ∧ hop.rxID = tag

theorem visitEndpointsFor_of_goesOn {σ : Type} {visit : σ → Endpoint → Bool × σ}
    (goesOn : ∀ found ep, (visit found ep).1 = true) (pk : PubKey)
    (exits : List (PubKey × Endpoint)) (found : σ) :
    (visitEndpointsFor visit pk exits found).1 = false := by
  induction exits generalizing found with
  | nil => rfl
  | cons entry exits ih =>
    rw [visitEndpointsFor]
    dsimp only
    rw [if_pos (goesOn found entry.2)]
    split_ifs
    · exact ih _
    · exact ih _

/-- The exits are never used. -/
theorem bestConvoTagFor_eq (rid : RouterID) (pathByRouter : Option PathID) :
    s.bestConvoTagFor rid pathByRouter =
      match s.snodeSessions[rid]? with
      | none => some none
      | some none => none
      | some (some _) => some pathByRouter := by
  rw [bestConvoTagFor]
  dsimp only
  rw [visitEndpointsFor_of_goesOn fun _ _ => rfl]
  rfl

/-- The tag is that of an exit with a path only if the session with the router has such a path. -/
theorem bestConvoTagFor_servedBy_iff (s : ExitEndpoint) (rid : RouterID)
    (pathByRouter : Option PathID) :
    ((∃ tag, s.ServedBy rid tag) →
        ∃ tag, s.ServedBy rid tag ∧ s.bestConvoTagFor rid pathByRouter = some (some tag)) ↔
      ((∃ tag, s.ServedBy rid tag) → ∃ tag, s.ServedBy rid tag ∧
        (∃ session, s.snodeSessions[rid]? = some (some session)) ∧ pathByRouter = some tag) := by
  rw [bestConvoTagFor_eq]
  rcases s.snodeSessions[rid]? with _ | _ | session <;> simp

theorem exit_without_session_has_no_tag :
    ∃ s : ExitEndpoint, s.ServedBy examplePeer (.copy 16 [1]) ∧
      s.bestConvoTagFor examplePeer none = some none :=
  ⟨{ start exampleConfig with
      activeExits := [(examplePeer, ⟨examplePeer, some ⟨0, .copy 16 [1]⟩, 0, false⟩)] },
    ⟨_, _, List.mem_singleton_self _, rfl, rfl⟩, by decide +kernel⟩

end ExitEndpoint

end Llarp.Exit

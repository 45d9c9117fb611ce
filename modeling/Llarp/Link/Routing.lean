import Llarp.Link.LinkLayer

/-!
# Packets reach their sessions

Packets from an address go to the session of the router that the address is mapped to.
An open authed session is reachable when its address is mapped to its router. What can
break this is that two sessions have the same address: one of them is closed or times
out and takes the mapping of the other with it, or it becomes ready and finds the
mapping of the other.
-/

namespace Llarp.Link.LinkLayer

open Foundation Iwp List

variable {H : Type} {host : Host} {l k : LinkLayer H} {h : ℕ} {s s' : Session H}
  {addr : SockAddr} {pk : PubKey}

/-- The address of every open authed session is mapped to its router. -/
def Routed (l : LinkLayer H) : Prop :=
  ∀ entry ∈ l.authedLinks, ∀ s, l.sessions[entry.2]? = some s → s.state ≠ .closed →
    l.authedAddrs[s.remoteAddr]? = some entry.1

/-- The invariant: sessions that the maps name exist, and pending ones have the address
under which they are stored. -/
structure Inv (l : LinkLayer H) : Prop where
  routed : l.Routed
  valid : ∀ entry ∈ l.authedLinks, entry.2 < l.sessions.length
  keyed : ∀ addr h, l.pending[addr]? = some h →
    ∃ s : Session H, l.sessions[h]? = some s ∧ s.remoteAddr = addr

/-- No open authed session other than `h` has the address. -/
def Alone (l : LinkLayer H) (h : ℕ) (addr : SockAddr) : Prop :=
  ∀ entry ∈ l.authedLinks, ∀ s, l.sessions[entry.2]? = some s → s.state ≠ .closed →
    s.remoteAddr = addr → entry.2 = h

/-! ### Calls of a session -/

theorem getElem?_set_session (found : l.sessions[h]? = some s) (j : ℕ) :
    (l.sessions.set h s')[j]? = if j = h then some s' else l.sessions[j]? := by
  rw [List.getElem?_set]
  have inside : h < l.sessions.length := (List.getElem?_eq_some_iff.mp found).1
  by_cases same : j = h
  · simp [same, inside]
  · rw [if_neg same, if_neg (Ne.symm same)]

/-- A session goes on without any call. An authed session must not reopen. -/
theorem Inv.set (inv : l.Inv) (found : l.sessions[h]? = some s)
    (sameAddr : s'.remoteAddr = s.remoteAddr)
    (shut : h ∈ l.authedLinks.map Prod.snd → s.state = .closed → s'.state = .closed) :
    { l with sessions := l.sessions.set h s' }.Inv where
  routed := by
    intro entry hentry t ht opened
    rw [getElem?_set_session found] at ht
    by_cases same : entry.2 = h
    · rw [if_pos same] at ht
      cases ht
      rw [sameAddr]
      have wasOpen : s.state ≠ .closed := fun closed =>
        opened (shut (mem_map.mpr ⟨entry, hentry, same⟩) closed)
      exact inv.routed entry hentry s (same ▸ found) wasOpen
    · rw [if_neg same] at ht
      exact inv.routed entry hentry t ht opened
  valid entry hentry := by
    rw [length_set]
    exact inv.valid entry hentry
  keyed addr j hj := by
    obtain ⟨t, ht, named⟩ := inv.keyed addr j hj
    rw [getElem?_set_session found]
    by_cases same : j = h
    · subst same
      cases ht.symm.trans found
      exact ⟨s', if_pos rfl, sameAddr.trans named⟩
    · exact ⟨t, by rw [if_neg same, ht], named⟩

theorem mapAddr_of_unpending (absent : addr ∉ l.pending) : l.mapAddr addr pk = l := by
  rw [mapAddr, not_mem_iff_getElem?.mp absent]

theorem mapAddr_of_authed (authed : l.hasSessionTo pk = true) : l.mapAddr addr pk = l := by
  rw [mapAddr]
  cases l.pending[addr]? with
  | none => rfl
  | some h => exact if_pos authed

/-- A promotion keeps the invariant if the address is not mapped to another router. -/
theorem Inv.promote (inv : l.Inv) (found : l.pending[addr]? = some h)
    (fresh : l.authedAddrs[addr]? = none ∨ l.authedAddrs[addr]? = some pk) :
    { l with
      authedAddrs := l.authedAddrs.insertIfNew addr pk
      authedLinks := l.authedLinks ++ [(pk, h)]
      pending := l.pending.erase addr }.Inv where
  routed := by
    intro entry hentry t ht opened
    rw [getElem?_insertIfNew]
    rcases mem_append.mp hentry with old | new
    · rw [inv.routed entry old t ht opened]
      split_ifs
      · rfl
      · rfl
    · obtain rfl := mem_singleton.mp new
      obtain ⟨t', ht', named⟩ := inv.keyed addr h found
      cases ht'.symm.trans ht
      rw [if_pos named.symm, named]
      rcases fresh with absent | mapped
      · rw [absent]
        rfl
      · rw [mapped]
        rfl
  valid := by
    intro entry hentry
    rcases mem_append.mp hentry with old | new
    · exact inv.valid entry old
    · obtain rfl := mem_singleton.mp new
      obtain ⟨t, ht, -⟩ := inv.keyed addr h found
      exact (List.getElem?_eq_some_iff.mp ht).1
  keyed := by
    intro a j hj
    exact inv.keyed a j (getElem?_erase_eq_some.mp hj).2

theorem Inv.mapAddr (inv : l.Inv)
    (fresh : addr ∈ l.pending → l.hasSessionTo pk = false →
      l.authedAddrs[addr]? = none ∨ l.authedAddrs[addr]? = some pk) :
    (l.mapAddr addr pk).Inv ∧ (l.mapAddr addr pk = l ∨ addr ∉ (l.mapAddr addr pk).pending) := by
  cases found : l.pending[addr]? with
  | none =>
    rw [mapAddr_of_unpending (not_mem_iff_getElem?.mpr found)]
    exact ⟨inv, Or.inl rfl⟩
  | some h =>
    by_cases authed : l.hasSessionTo pk = true
    · rw [mapAddr_of_authed authed]
      exact ⟨inv, Or.inl rfl⟩
    · rw [LinkLayer.mapAddr, found]
      dsimp only
      rw [if_neg authed]
      have pending : addr ∈ l.pending := mem_iff_exists_getElem?.mpr ⟨h, found⟩
      refine ⟨inv.promote found (fresh pending (Bool.eq_false_of_not_eq_true authed)), Or.inr ?_⟩
      simp

variable {nonce : TunnelNonce} {contact : Contact} {ourLIM : Option Message} {pkt : List UInt8}
  {called : List LinkCall}

/-- Calls without an unmapping. Once the address was promoted it is not pending any more. -/
theorem Inv.foldl_call (inv : l.Inv) (quiet : .unmapAddr ∉ called)
    (fresh : ∀ pk, .mapAddr pk ∈ called → addr ∈ l.pending → l.hasSessionTo pk = false →
      l.authedAddrs[addr]? = none ∨ l.authedAddrs[addr]? = some pk) :
    (called.foldl (call h addr) l).Inv := by
  induction called generalizing l with
  | nil => exact inv
  | cons c called ih =>
    have rest : .unmapAddr ∉ called := fun hun => quiet (mem_cons_of_mem c hun)
    cases c with
    | unmapAddr => exact absurd mem_cons_self quiet
    | mapAddr pk =>
      obtain ⟨inv', same | absent⟩ := inv.mapAddr (fresh pk mem_cons_self)
      · refine ih inv' rest fun pk' hpk' => ?_
        dsimp only [call]
        rw [same]
        exact fresh pk' (mem_cons_of_mem _ hpk')
      · exact ih inv' rest fun pk' _ pending => absurd pending absent
    | sessionEstablished pk state inbound =>
      have kept : (call h addr l (.sessionEstablished pk state inbound)).Inv :=
        ⟨inv.routed, inv.valid, inv.keyed⟩
      exact ih kept rest fun pk' hpk' => fresh pk' (mem_cons_of_mem _ hpk')
    | sessionRenegotiate rc =>
      exact ih inv rest fun pk' hpk' => fresh pk' (mem_cons_of_mem _ hpk')

/-- The same link layer, up to the mapping of one address. -/
structure Unmapped (addr : SockAddr) (l k : LinkLayer H) : Prop where
  sessions_eq : k.sessions = l.sessions
  authedLinks_eq : k.authedLinks = l.authedLinks
  pending_eq : k.pending = l.pending
  others : ∀ a, a ≠ addr → k.authedAddrs[a]? = l.authedAddrs[a]?

theorem Unmapped.refl (addr : SockAddr) (l : LinkLayer H) : Unmapped addr l l :=
  ⟨rfl, rfl, rfl, fun _ _ => rfl⟩

theorem unmapped_unmapAddr : Unmapped addr l (l.unmapAddr addr) :=
  ⟨rfl, rfl, rfl, fun a other => by rw [unmapAddr, getElem?_erase, if_neg (Ne.symm other)]⟩

theorem Unmapped.trans {m : LinkLayer H} (first : Unmapped addr l k) (second : Unmapped addr k m) :
    Unmapped addr l m where
  sessions_eq := second.sessions_eq.trans first.sessions_eq
  authedLinks_eq := second.authedLinks_eq.trans first.authedLinks_eq
  pending_eq := second.pending_eq.trans first.pending_eq
  others a other := (second.others a other).trans (first.others a other)

/-- Calls that map only routers that have an authed session already. -/
theorem unmapped_foldl_call (refused : ∀ pk, .mapAddr pk ∈ called → l.hasSessionTo pk = true) :
    Unmapped addr l (called.foldl (call h addr) l) := by
  induction called generalizing l with
  | nil => exact .refl addr l
  | cons c called ih =>
    have head : Unmapped addr l (call h addr l c) := by
      cases c with
      | unmapAddr => exact unmapped_unmapAddr
      | mapAddr pk =>
        dsimp only [call]
        rw [mapAddr_of_authed (refused pk mem_cons_self)]
        exact .refl addr l
      | sessionEstablished pk state inbound => exact ⟨rfl, rfl, rfl, fun _ _ => rfl⟩
      | sessionRenegotiate rc => exact .refl addr l
    refine head.trans (ih fun pk hpk => ?_)
    rw [hasSessionTo, head.authedLinks_eq]
    exact refused pk (mem_cons_of_mem c hpk)

/-- Losing the mapping of an address that no open authed session has. -/
theorem Inv.unmapped (inv : l.Inv) (same : Unmapped addr l k)
    (unused : ∀ entry ∈ l.authedLinks, ∀ s, l.sessions[entry.2]? = some s →
      s.state ≠ .closed → s.remoteAddr ≠ addr) : k.Inv where
  routed := by
    intro entry hentry t ht opened
    rw [same.authedLinks_eq] at hentry
    rw [same.sessions_eq] at ht
    rw [same.others _ (unused entry hentry t ht opened)]
    exact inv.routed entry hentry t ht opened
  valid := by
    rw [same.authedLinks_eq, same.sessions_eq]
    exact inv.valid
  keyed := by
    rw [same.pending_eq, same.sessions_eq]
    exact inv.keyed

/-- A session goes on with all its calls. -/
theorem Inv.update {establishes : PubKey → Prop} {closes : Prop} (inv : l.Inv)
    (found : l.sessions[h]? = some s)
    (effect : Session.Effect (l.moment s.remoteAddr) s s' establishes closes)
    (alone : closes → l.Alone h s.remoteAddr)
    (fresh : ∀ pk, establishes pk → s.remoteAddr ∈ l.pending → l.hasSessionTo pk = false →
      l.authedAddrs[s.remoteAddr]? = none ∨ l.authedAddrs[s.remoteAddr]? = some pk)
    (shut : h ∈ l.authedLinks.map Prod.snd → s.state = .closed → s'.state = .closed) :
    (l.update h s').Inv := by
  obtain ⟨sameAddr, called, calls, maps, unmaps, both⟩ := effect
  have base : { l with sessions := l.sessions.set h s' }.Inv := inv.set found sameAddr shut
  rw [LinkLayer.update, found]
  dsimp only
  rw [calls, drop_left]
  by_cases hun : .unmapAddr ∈ called
  · obtain ⟨hcloses, closed⟩ := unmaps hun
    have same : Unmapped s.remoteAddr { l with sessions := l.sessions.set h s' }
        (called.foldl (call h s.remoteAddr) { l with sessions := l.sessions.set h s' }) := by
      apply unmapped_foldl_call
      intro pk hpk
      have refused := both hun pk hpk
      simp only [moment, Bool.and_eq_true] at refused
      exact refused.2
    apply base.unmapped same
    intro entry hentry t ht opened named
    rw [getElem?_set_session found] at ht
    by_cases mine : entry.2 = h
    · rw [if_pos mine] at ht
      cases ht
      exact opened closed
    · rw [if_neg mine] at ht
      exact mine (alone hcloses entry hentry t ht opened named)
  · exact base.foldl_call hun fun pk hpk => fresh pk (maps pk hpk)

/-! ### The condition -/

/-- No other open authed session is in the way of what happens to session `h`. -/
structure Undisturbing (host : Host) (l : LinkLayer H) (h : ℕ) (s : Session H)
    (event : Session.Event H) : Prop where
  /-- when the session closes, it is the only one that needs the mapping of its address -/
  alone : s.Closes host (l.moment s.remoteAddr, event) ∨
    s.Refused host (l.moment s.remoteAddr, event) → l.Alone h s.remoteAddr
  /-- when it becomes ready, the address is not mapped to another router -/
  fresh : ∀ pk, s.Establishes host (l.moment s.remoteAddr, event) pk →
    s.remoteAddr ∈ l.pending → l.hasSessionTo pk = false →
      l.authedAddrs[s.remoteAddr]? = none ∨ l.authedAddrs[s.remoteAddr]? = some pk
  /-- an authed session that is closed does not reopen -/
  shut : h ∈ l.authedLinks.map Prod.snd → s.state = .closed →
    ¬ s.Reopens host (l.moment s.remoteAddr, event)

/-- Whether a session is open. -/
def isOpen (l : LinkLayer H) (h : ℕ) : Bool := (l.sessions[h]?).any (·.state ≠ .closed)

/-- Every open authed session at the address of `h` satisfies `P`. -/
def Sharers (l : LinkLayer H) (h : ℕ) (P : PubKey × ℕ → Prop) : Prop :=
  ∀ addr, l.addrOf h = some addr → ∀ entry ∈ l.authedLinks, ∀ s,
    l.sessions[entry.2]? = some s → s.state ≠ .closed → s.remoteAddr = addr → P entry

/-- The condition on one step of the link layer. -/
def Undisturbed (host : Host) (l : LinkLayer H) : Event H → Prop
  | .session h event => ∀ s, l.sessions[h]? = some s → l.Undisturbing host h s event
  | .pump => ∀ h ∈ l.authedLinks.map Prod.snd ++ l.pending.toList.map Prod.snd,
    l.timedOut h = true → l.Sharers h fun entry => l.timedOut entry.2 = true
  | .closeSessionTo remote => ∀ entry ∈ l.authedLinks, entry.1 = remote →
    l.isOpen entry.2 = true → l.Sharers entry.2 fun entry' => entry'.1 = remote
  | _ => True

instance (l : LinkLayer H) (h : ℕ) (addr : SockAddr) : Decidable (l.Alone h addr) := by
  unfold Alone
  infer_instance

instance (l : LinkLayer H) (h : ℕ) (P : PubKey × ℕ → Prop) [DecidablePred P] :
    Decidable (l.Sharers h P) := by
  unfold Sharers
  infer_instance

instance decidableUndisturbing [DecidableEq H] (host : Host) (l : LinkLayer H) (h : ℕ)
    (s : Session H) (event : Session.Event H) : Decidable (l.Undisturbing host h s event) :=
  -- only the routers that the session knows can become ready
  decidable_of_iff (_ ∧ (∀ pk ∈ [s.expectedIdent, s.remoteRC.pubkey], _) ∧ _)
    ⟨fun ⟨alone, fresh, shut⟩ => ⟨alone, fun pk here => fresh pk here.mem here, shut⟩,
      fun quiet => ⟨quiet.alone, fun pk _ => quiet.fresh pk, quiet.shut⟩⟩

instance decidableUndisturbed [DecidableEq H] (host : Host) (l : LinkLayer H) (event : Event H) :
    Decidable (l.Undisturbed host event) := by
  unfold Undisturbed
  split
  · infer_instance
  · infer_instance
  · infer_instance
  · infer_instance

theorem Inv.sessionStep {event : Session.Event H} (inv : l.Inv)
    (quiet : ∀ s, l.sessions[h]? = some s → l.Undisturbing host h s event)
    (hstep : l.sessionStep host h event = some k) : k.Inv := by
  rw [LinkLayer.sessionStep] at hstep
  cases found : l.sessions[h]? with
  | none =>
    rw [found] at hstep
    cases hstep
    exact inv
  | some s =>
    rw [found] at hstep
    obtain ⟨s', went, rfl⟩ := Option.map_eq_some_iff.mp hstep
    have quiet := quiet s found
    refine inv.update found (Session.step_effect went) quiet.alone quiet.fresh ?_
    intro authed closed
    exact (Session.closed_step_iff closed _).mpr (quiet.shut authed closed) s' went

/-! ### Packets and new sessions -/

theorem Inv.putSession (inv : l.Inv) (s : Session H) : (l.putSession s).Inv where
  routed := by
    intro entry hentry t ht opened
    have inside := inv.valid entry hentry
    rw [LinkLayer.putSession, getElem?_append_left inside] at ht
    exact inv.routed entry hentry t ht opened
  valid := by
    intro entry hentry
    rw [LinkLayer.putSession, length_append]
    exact Nat.lt_add_right _ (inv.valid entry hentry)
  keyed := by
    intro addr j hj
    rcases getElem?_insert_eq_some.mp hj with ⟨rfl, rfl⟩ | ⟨-, old⟩
    · exact ⟨s, by simp [LinkLayer.putSession], rfl⟩
    · obtain ⟨t, ht, named⟩ := inv.keyed addr j old
      have inside := (List.getElem?_eq_some_iff.mp ht).1
      exact ⟨t, by rw [LinkLayer.putSession, List.getElem?_append_left inside, ht], named⟩

/-- A packet that arrives changes no map. -/
theorem Inv.recvLL (inv : l.Inv) : (l.recvLL host h pkt ourLIM).1.Inv := by
  rw [LinkLayer.recvLL]
  cases found : l.sessions[h]? with
  | none => exact inv
  | some s =>
    refine inv.update found Session.effect_recvLL False.elim (fun _ => False.elim) ?_
    intro _ closed
    have quiet : ¬ s.Reopens host (l.moment s.remoteAddr, .recvLL pkt ourLIM) := id
    exact (Session.closed_step_iff closed _).mpr quiet _ rfl

theorem Inv.erase_pending (inv : l.Inv) (addr : SockAddr) :
    { l with pending := l.pending.erase addr }.Inv :=
  { inv with keyed := fun a j hj => inv.keyed a j (getElem?_erase_eq_some.mp hj).2 }

theorem Inv.recvFrom {token : SessionToken} (inv : l.Inv) :
    (l.recvFrom host addr pkt token ourLIM).Inv := by
  rw [LinkLayer.recvFrom]
  cases l.authedAddrs[addr]? with
  | some pk =>
    dsimp only
    cases l.authedLinks.find? (·.1 = pk) with
    | some entry => exact inv.recvLL
    | none => exact inv
  | none =>
    dsimp only
    cases l.pending[addr]? with
    | some h => exact inv.recvLL
    | none =>
      let fresh := l.putSession (Session.inboundFrom host l.now l.ourKey addr token)
      have received : (fresh.recvLL host l.sessions.length pkt ourLIM).1.Inv :=
        (inv.putSession _).recvLL
      split_ifs
      · exact received
      · exact received.erase_pending addr
      · exact inv

/-- At most one session is made. -/
theorem tryEstablishTo_cases (hstep : l.tryEstablishTo host contact nonce = some k) :
    k = l ∨ ∃ s, k = l.putSession s := by
  rw [LinkLayer.tryEstablishTo] at hstep
  by_cases authed : l.hasSessionTo contact.rc.pubkey = true
  · rw [if_pos authed] at hstep
    exact Or.inl (Option.some.inj hstep).symm
  · rw [if_neg authed] at hstep
    cases picked : pickAddress contact.addrs with
    | none =>
      rw [picked] at hstep
      exact Or.inl (Option.some.inj hstep).symm
    | some picked' =>
      rw [picked] at hstep
      dsimp only at hstep
      split_ifs at hstep
      · exact Or.inl (Option.some.inj hstep).symm
      · exact Or.inr ⟨_, (Option.some.inj hstep).symm⟩

theorem Inv.tryEstablishTo (inv : l.Inv) (hstep : l.tryEstablishTo host contact nonce = some k) :
    k.Inv := by
  obtain rfl | ⟨s, rfl⟩ := tryEstablishTo_cases hstep
  · exact inv
  · exact inv.putSession s

end Llarp.Link.LinkLayer

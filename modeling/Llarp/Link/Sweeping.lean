import Llarp.Link.Routing

/-!
# Sweeps over the sessions

`Pump`, `CloseSessionTo` and `Stop` go over the maps and close sessions. During a
sweep the maps only shrink, and a session is as it was or was closed by the sweep.
-/

namespace Llarp.Link.LinkLayer

open Foundation Iwp Option

variable {H : Type} {l k m : LinkLayer H} {h : ℕ} {s t : Session H} {addr : SockAddr}
  {Q : ℕ → Prop}

/-- A sweep from `l` to `k`, which closes only sessions with `Q` and unmaps only their addresses. -/
structure Wanes (Q : ℕ → Prop) (l k : LinkLayer H) : Prop where
  now_eq : k.now = l.now
  length_eq : k.sessions.length = l.sessions.length
  links : ∀ entry ∈ k.authedLinks, entry ∈ l.authedLinks
  pend : ∀ (addr : SockAddr) (h : ℕ), k.pending[addr]? = some h → l.pending[addr]? = some h
  sess : ∀ (h : ℕ) (s : Session H), l.sessions[h]? = some s →
    ∃ t : Session H, k.sessions[h]? = some t ∧ t.remoteAddr = s.remoteAddr ∧
      (t.state = s.state ∧ t.timedOut l.now = s.timedOut l.now ∨ t.state = .closed ∧ Q h)
  addrs : ∀ addr, (∀ h, Q h → l.addrOf h ≠ some addr) → k.authedAddrs[addr]? = l.authedAddrs[addr]?

/-- The session is closed. -/
def Shut (k : LinkLayer H) (h : ℕ) : Prop := ∀ t, k.sessions[h]? = some t → t.state = .closed

theorem Wanes.refl (Q : ℕ → Prop) (l : LinkLayer H) : Wanes Q l l where
  now_eq := rfl
  length_eq := rfl
  links _ := id
  pend _ _ := id
  sess _ s found := ⟨s, found, rfl, Or.inl ⟨rfl, rfl⟩⟩
  addrs _ _ := rfl

/-- Where a session of the sweep comes from. -/
theorem Wanes.origin (wanes : Wanes Q l k) (found : k.sessions[h]? = some t) :
    ∃ s, l.sessions[h]? = some s ∧ t.remoteAddr = s.remoteAddr ∧
      (t.state = s.state ∧ t.timedOut l.now = s.timedOut l.now ∨ t.state = .closed ∧ Q h) := by
  have inside : h < l.sessions.length := by
    rw [← wanes.length_eq]
    exact (List.getElem?_eq_some_iff.mp found).1
  obtain ⟨s, hs⟩ : ∃ s, l.sessions[h]? = some s := ⟨_, List.getElem?_eq_getElem inside⟩
  obtain ⟨t', ht', rest⟩ := wanes.sess h s hs
  cases ht'.symm.trans found
  exact ⟨s, hs, rest⟩

theorem Wanes.addrOf_eq (wanes : Wanes Q l k) (h : ℕ) : k.addrOf h = l.addrOf h := by
  rw [addrOf, addrOf]
  cases found : k.sessions[h]? with
  | none =>
    rw [List.getElem?_eq_none_iff, wanes.length_eq] at found
    rw [List.getElem?_eq_none_iff.mpr found]
  | some t =>
    obtain ⟨s, hs, sameAddr, -⟩ := wanes.origin found
    rw [hs, map_some, map_some, sameAddr]

theorem Wanes.trans (first : Wanes Q l k) (second : Wanes Q k m) : Wanes Q l m where
  now_eq := second.now_eq.trans first.now_eq
  length_eq := second.length_eq.trans first.length_eq
  links entry listed := first.links entry (second.links entry listed)
  pend addr h stored := first.pend addr h (second.pend addr h stored)
  sess h s found := by
    obtain ⟨t, ht, sameAddr, before⟩ := first.sess h s found
    obtain ⟨u, hu, sameAddr', after⟩ := second.sess h t ht
    refine ⟨u, hu, sameAddr'.trans sameAddr, ?_⟩
    rcases after with ⟨sameState, sameTimes⟩ | closed
    · rw [first.now_eq] at sameTimes
      rw [sameState, sameTimes]
      exact before
    · exact Or.inr closed
  addrs addr other := by
    refine (second.addrs addr fun h doomed => ?_).trans (first.addrs addr other)
    rw [first.addrOf_eq]
    exact other h doomed

theorem Shut.of_wanes (shut : l.Shut h) (wanes : Wanes Q l k) : k.Shut h := by
  intro t found
  obtain ⟨s, hs, -, ⟨same, -⟩ | ⟨closed, -⟩⟩ := wanes.origin found
  · rw [same, shut s hs]
  · exact closed

/-- What is left to prove after a sweep: no open session has lost its address. -/
theorem Inv.of_wanes (inv : l.Inv) (wanes : Wanes Q l k)
    (apart : ∀ entry ∈ l.authedLinks, ∀ s, l.sessions[entry.2]? = some s → s.state ≠ .closed →
      ¬ k.Shut entry.2 → ∀ h, Q h → l.addrOf h ≠ some s.remoteAddr) : k.Inv where
  routed entry hentry t ht opened := by
    have listed := wanes.links entry hentry
    obtain ⟨s, hs, sameAddr, ⟨sameState, -⟩ | ⟨closed, -⟩⟩ := wanes.origin ht
    · have wasOpen := sameState ▸ opened
      rw [sameAddr, wanes.addrs _ (apart entry listed s hs wasOpen fun shut => opened (shut t ht))]
      exact inv.routed entry listed s hs wasOpen
    · exact absurd closed opened
  valid entry hentry := by
    rw [wanes.length_eq]
    exact inv.valid entry (wanes.links entry hentry)
  keyed addr h hj := by
    obtain ⟨s, hs, named⟩ := inv.keyed addr h (wanes.pend addr h hj)
    obtain ⟨t, ht, sameAddr, -⟩ := wanes.sess h s hs
    exact ⟨t, ht, sameAddr.trans named⟩

/-! ### One session -/

/-- Closing a session takes the mapping of its address away, if it was open. -/
theorem close_eq (found : l.sessions[h]? = some s) :
    l.close h = { l with
      sessions := l.sessions.set h s.close
      authedAddrs := if s.state = .closed then l.authedAddrs
        else l.authedAddrs.erase s.remoteAddr } := by
  rw [close, found]
  dsimp only
  rw [update, found]
  by_cases closed : s.state = .closed
  · simp [Session.close_of_closed closed, closed]
  · simp [Session.close, closed, call, unmapAddr]

theorem pumpSession_eq (found : l.sessions[h]? = some s) :
    l.pumpSession h = { l with sessions := l.sessions.set h (s.pump l.now) } := by
  rw [pumpSession, found]
  dsimp only
  rw [update, found]
  simp [Session.pump]

theorem close_of_none (absent : l.sessions[h]? = none) : l.close h = l := by
  rw [close, absent]

theorem pumpSession_of_none (absent : l.sessions[h]? = none) : l.pumpSession h = l := by
  rw [pumpSession, absent]

/-- One session is replaced, and its address may be unmapped. -/
theorem wanes_set (found : l.sessions[h]? = some s) (sameAddr : t.remoteAddr = s.remoteAddr)
    (closes : t.state = s.state ∧ t.timedOut l.now = s.timedOut l.now ∨ t.state = .closed ∧ Q h)
    {map : Std.ExtTreeMap SockAddr PubKey}
    (addrs : ∀ a, (Q h → s.remoteAddr ≠ a) → map[a]? = l.authedAddrs[a]?) :
    Wanes Q l { l with sessions := l.sessions.set h t, authedAddrs := map } where
  now_eq := rfl
  length_eq := List.length_set
  links _ := id
  pend _ _ := id
  sess j s' found' := by
    dsimp only
    rw [getElem?_set_session found]
    by_cases same : j = h
    · subst same
      cases found.symm.trans found'
      exact ⟨t, if_pos rfl, sameAddr, closes⟩
    · exact ⟨s', by rw [if_neg same, found'], rfl, Or.inl ⟨rfl, rfl⟩⟩
  addrs a other := by
    refine addrs a fun doomed same => other h doomed ?_
    rw [addrOf, found, map_some, same]

theorem wanes_close (doomed : l.isOpen h = true → Q h) : Wanes Q l (l.close h) := by
  cases found : l.sessions[h]? with
  | none =>
    rw [close_of_none found]
    exact .refl Q l
  | some s =>
    rw [close_eq found]
    by_cases closed : s.state = .closed
    · rw [if_pos closed, Session.close_of_closed closed]
      exact wanes_set found rfl (Or.inl ⟨rfl, rfl⟩) fun _ _ => rfl
    · have isDoomed : Q h := doomed (by simp [isOpen, found, closed])
      rw [if_neg closed]
      refine wanes_set found Session.remoteAddr_close (Or.inr ⟨Session.state_close, isDoomed⟩) ?_
      exact fun a other => by rw [getElem?_erase, if_neg (other isDoomed)]

theorem shut_close : (l.close h).Shut h := by
  intro t ht
  cases found : l.sessions[h]? with
  | none =>
    rw [close_of_none found, found] at ht
    cases ht
  | some s =>
    rw [close_eq found] at ht
    rw [getElem?_set_session found, if_pos rfl] at ht
    cases ht
    exact Session.state_close

theorem wanes_pumpSession : Wanes Q l (l.pumpSession h) := by
  cases found : l.sessions[h]? with
  | none =>
    rw [pumpSession_of_none found]
    exact .refl Q l
  | some s =>
    rw [pumpSession_eq found]
    exact wanes_set (t := s.pump l.now) found rfl (Or.inl ⟨rfl, rfl⟩) fun _ _ => rfl

theorem wanes_unmapAddrOf (doomed : Q h) : Wanes Q l (l.unmapAddrOf h) := by
  unfold LinkLayer.unmapAddrOf
  cases named : l.addrOf h with
  | none => exact .refl Q l
  | some addr =>
    refine { Wanes.refl Q l with addrs := fun a other => ?_ }
    have distinct : addr ≠ a := fun same => other h doomed (same ▸ named)
    exact getElem?_erase.trans (if_neg distinct)

theorem wanes_erase_link (entry : PubKey × ℕ) :
    Wanes Q l { l with authedLinks := l.authedLinks.erase entry } :=
  { Wanes.refl Q l with links := fun _ => List.mem_of_mem_erase }

theorem wanes_erase_pending : Wanes Q l { l with pending := l.pending.erase addr } :=
  { Wanes.refl Q l with pend := fun _ _ stored => (getElem?_erase_eq_some.mp stored).2 }

/-! ### Loops -/

/-- A loop whose steps each deal with one entry, and close it if it has `D`. -/
theorem Wanes.foldl {K : Type} {f : LinkLayer H → K × ℕ → LinkLayer H} {D : K × ℕ → Prop}
    (wanes : Wanes Q l k) (entries : List (K × ℕ))
    (advance : ∀ k, ∀ entry ∈ entries, Wanes Q l k →
      Wanes Q k (f k entry) ∧ (D entry → (f k entry).Shut entry.2)) :
    Wanes Q k (entries.foldl f k) ∧
      ∀ entry ∈ entries, D entry → (entries.foldl f k).Shut entry.2 := by
  induction entries generalizing k with
  | nil => exact ⟨.refl Q k, nofun⟩
  | cons entry entries ih =>
    obtain ⟨first, shut⟩ := advance k entry List.mem_cons_self wanes
    obtain ⟨rest, shuts⟩ := ih (wanes.trans first) fun k e listed =>
      advance k e (List.mem_cons_of_mem entry listed)
    refine ⟨first.trans rest, List.forall_mem_cons.mpr ⟨fun doomed => ?_, shuts⟩⟩
    exact (shut doomed).of_wanes rest

theorem Wanes.isOpen (wanes : Wanes Q l k) (opened : k.isOpen h = true) : l.isOpen h = true := by
  unfold LinkLayer.isOpen at opened ⊢
  obtain ⟨t, found, isOpen⟩ := (any_eq_true _ _).mp opened
  obtain ⟨s, hs, -, ⟨same, -⟩ | ⟨closed, -⟩⟩ := wanes.origin found
  · rw [hs, any_some, ← same]
    exact isOpen
  · simp [closed] at isOpen

theorem Inv.closeSessionTo {remote : PubKey} (inv : l.Inv)
    (sharers : ∀ entry ∈ l.authedLinks, entry.1 = remote → l.isOpen entry.2 = true →
      l.Sharers entry.2 fun entry' => entry'.1 = remote) : (l.closeSessionTo remote).Inv := by
  let doomed (h : ℕ) : Prop := ∃ entry ∈ l.authedLinks, entry.1 = remote ∧ entry.2 = h ∧ l.isOpen h
  obtain ⟨wanes, shut⟩ := (Wanes.refl doomed l).foldl
    (l.authedLinks.filter (·.1 = remote)) fun k entry listed wanes => by
      obtain ⟨listed, named⟩ := List.mem_filter.mp listed
      refine ⟨(wanes_close fun opened => ?_).trans (wanes_erase_link entry), fun _ => shut_close⟩
      exact ⟨entry, listed, of_decide_eq_true named, rfl, wanes.isOpen opened⟩
  refine inv.of_wanes wanes fun entry listed s hs opened open' h hdoomed shared => open' ?_
  obtain ⟨other, listed', named, rfl, wasOpen⟩ := hdoomed
  have here := sharers other listed' named wasOpen s.remoteAddr shared entry listed s hs opened rfl
  exact shut entry (List.mem_filter.mpr ⟨listed, decide_eq_true here⟩) here

/-- After `Stop` no authed session is open, so there is nothing to route. -/
theorem Inv.stop (inv : l.Inv) : l.stop.Inv := by
  have closes {K : Type} {k : LinkLayer H} (wanes : Wanes (fun _ => True) l k)
      (entries : List (K × ℕ)) := wanes.foldl (D := fun _ => True)
    entries fun k entry _ _ =>
      ⟨wanes_close fun _ => trivial, fun _ => shut_close⟩
  obtain ⟨authed, shut⟩ := closes (.refl _ l) l.authedLinks
  obtain ⟨pending, -⟩ := closes authed
    (l.authedLinks.foldl (fun l entry => l.close entry.2) l).pending.toList
  refine inv.of_wanes (authed.trans pending) fun entry listed s hs opened open' => ?_
  exact absurd ((shut entry listed trivial).of_wanes pending) open'

/-! ### `Pump` -/

/-- A session that times out now did so at the start. -/
theorem Wanes.late (wanes : Wanes Q l k) (late : ∀ h, Q h → l.timedOut h = true)
    (now : k.timedOut h = true) : l.timedOut h = true := by
  obtain ⟨t, found, times⟩ := (any_eq_true _ _).mp now
  obtain ⟨s, hs, -, ⟨-, sameTimes⟩ | ⟨-, doomed⟩⟩ := wanes.origin found
  · rw [timedOut, hs, any_some, ← sameTimes, ← wanes.now_eq]
    exact times
  · exact late h doomed

/-- A session that timed out at the start and does not time out now was closed. -/
theorem Wanes.shut (wanes : Wanes Q l k) (late : l.timedOut h = true)
    (inTime : ¬ k.timedOut h = true) : k.Shut h := by
  intro t found
  obtain ⟨s, hs, -, ⟨-, sameTimes⟩ | ⟨closed, -⟩⟩ := wanes.origin found
  · rw [timedOut, hs, any_some, ← sameTimes] at late
    rw [timedOut, found, wanes.now_eq] at inTime
    exact absurd late inTime
  · exact closed

theorem Inv.pump (inv : l.Inv)
    (sharers : ∀ h ∈ l.authedLinks.map Prod.snd ++ l.pending.toList.map Prod.snd,
      l.timedOut h = true → l.Sharers h fun entry => l.timedOut entry.2 = true) :
    l.pump.Inv := by
  let doomed (h : ℕ) : Prop :=
    h ∈ l.authedLinks.map Prod.snd ++ l.pending.toList.map Prod.snd ∧ l.timedOut h = true
  have late {k : LinkLayer H} {h : ℕ} (wanes : Wanes doomed l k) (now : k.timedOut h = true) :
      l.timedOut h = true := wanes.late (fun _ => And.right) now
  obtain ⟨authed, shut⟩ := (Wanes.refl doomed l).foldl (f := pumpAuthed)
    l.authedLinks
    fun k entry listed wanes => by
      unfold pumpAuthed
      split_ifs with now
      · have isDoomed : doomed entry.2 :=
          ⟨List.mem_append_left _ (List.mem_map_of_mem listed), late wanes now⟩
        have rest := (wanes_unmapAddrOf (l := k.close entry.2) isDoomed).trans
          (wanes_erase_link entry)
        exact ⟨(wanes_close fun _ => isDoomed).trans rest, fun _ => shut_close.of_wanes rest⟩
      · exact ⟨wanes_pumpSession, fun late => (wanes.shut late now).of_wanes
          (wanes_pumpSession (Q := doomed))⟩
  let swept : LinkLayer H := l.authedLinks.foldl pumpAuthed l
  have listed {entry : SockAddr × ℕ} (stored : entry ∈ swept.pending.toList) :
      entry.2 ∈ l.authedLinks.map Prod.snd ++ l.pending.toList.map Prod.snd := by
    have here := authed.pend entry.1 entry.2
      (Std.ExtTreeMap.mem_toList_iff_getElem?_eq_some.mp stored)
    have there := Std.ExtTreeMap.mem_toList_iff_getElem?_eq_some.mpr here
    exact List.mem_append_right _ (List.mem_map.mpr ⟨_, there, rfl⟩)
  obtain ⟨pending, -⟩ := authed.foldl (f := pumpPending)
    swept.pending.toList fun k entry stored wanes => by
      unfold pumpPending
      refine ⟨?_, False.elim⟩
      split_ifs with now
      · exact (wanes_unmapAddrOf ⟨listed stored, late wanes now⟩).trans wanes_erase_pending
      · exact wanes_pumpSession
  obtain ⟨closed, -⟩ := (authed.trans pending).foldl (f := closePending)
    (swept.pending.toList.filter fun entry => swept.timedOut entry.2)
    fun k entry stored wanes => by
      obtain ⟨stored, now⟩ := List.mem_filter.mp stored
      unfold closePending
      refine ⟨?_, False.elim⟩
      split_ifs
      · exact (wanes_close fun _ => ⟨listed stored, late authed now⟩).trans wanes_pumpSession
      · exact .refl _ k
  refine inv.of_wanes (authed.trans (pending.trans closed)) fun entry stored s hs opened open' h
    hdoomed shared => open' ?_
  have isLate := sharers h hdoomed.1 hdoomed.2 s.remoteAddr shared entry stored s hs opened rfl
  exact (shut entry stored isLate).of_wanes (pending.trans closed)

end Llarp.Link.LinkLayer

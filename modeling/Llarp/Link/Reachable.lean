import Llarp.Link.Sweeping

/-!
# Open sessions stay reachable

The steps keep the invariant as long as no session is in the way of another one at the
same address. Two identities that advertise one address are enough to break it: when the
attempt with the second one times out, the mapping of the first one is gone.
-/

namespace Llarp.Link.LinkLayer

open Foundation Iwp

variable {H : Type} {host : Host} {l k : LinkLayer H}

theorem inv_empty (now : ℕ) (inbound : Bool) (ourKey : PubKey) :
    (empty now inbound ourKey : LinkLayer H).Inv where
  routed _ listed := nomatch listed
  valid _ listed := nomatch listed
  keyed addr h stored := by
    have absent : (empty now inbound ourKey : LinkLayer H).pending[addr]? = none :=
      Std.ExtTreeMap.getElem?_empty
    cases absent.symm.trans stored

/-- A link step that meets the condition keeps the invariant. -/
theorem Inv.step {event : Event H} (inv : l.Inv) (quiet : l.Undisturbed host event)
    (hstep : l.step host event = some k) : k.Inv := by
  cases event with
  | wait duration =>
    cases hstep
    exact ⟨inv.routed, inv.valid, inv.keyed⟩
  | session h event =>
    -- packets come in through `recvFrom` only
    cases event with
    | recvLL data ourLIM =>
      cases hstep
      exact inv
    | _ => exact inv.sessionStep quiet hstep
  | recvFrom addr pkt token ourLIM =>
    cases hstep
    exact inv.recvFrom
  | tryEstablishTo contact nonce => exact inv.tryEstablishTo hstep
  | pump =>
    cases hstep
    exact inv.pump quiet
  | closeSessionTo remote =>
    cases hstep
    exact inv.closeSessionTo quiet
  | stop =>
    cases hstep
    exact inv.stop

/-- In every run of a link layer whose steps all meet the condition, the addresses of open
authed sessions are mapped to their routers. -/
theorem routed_of_undisturbed (host : Host) (now : ℕ) (inbound : Bool) (ourKey : PubKey)
    (events : List (Event H)) (l : LinkLayer H)
    (quiet : Along (step host) (Undisturbed host) (empty now inbound ourKey) events)
    (hrun : run (step host) (empty now inbound ourKey) events = some l) : l.Routed :=
  (run_invariant Inv (fun _ _ _ inv quiet hstep => inv.step quiet hstep)
    (inv_empty now inbound ourKey) quiet hrun).routed

/-! ### Two identities at one address -/

/-- A router that advertises an address. -/
def plainContact (key : PubKey) (addr : SockAddr) : Contact where
  rc := ⟨key, true⟩
  addrs := [⟨"iwp", addr, key⟩]

/-- A packet from an address. -/
def fromPeer (addr : SockAddr) (pkt : List UInt8) : Event Unit :=
  .recvFrom addr (Session.plainPacket pkt) (.zero 24) none

/-- A session handles the packet that it received. -/
def handled (h : ℕ) : List (Event Unit) :=
  [.session h .pump, .session h (.decrypt 0), .session h (.plaintext 0)]

/-- What follows when outbound session `h` was made: the intro acknowledgement of the peer,
its link introduction, ours, and the acknowledgement of ours. -/
def completes (h : ℕ) (addr : SockAddr) : List (Event Unit) :=
  [fromPeer addr (List.replicate 24 0),
    fromPeer addr (createPacket (.xmit 1 0 (Reception.prefixHash [0]) [0]) [])] ++ handled h ++
  [.session h (.verdict 0 (some ⟨[0], by decide⟩)), .session h .triggerHashGen,
    .session h (.recvHashed 0),
    fromPeer addr (createPacket (.mack [0]) (List.replicate 16 0))] ++ handled h

/-- The handshake of an outbound session. -/
def handshake : List (Event Unit) :=
  .tryEstablishTo (plainContact (.zero 32) 7) (.zero 32) :: completes 0 7

theorem routed_of_undisturbed_handshake :
    ∃ l, run (step Session.plainHost) (empty 0 false (.zero 32)) (handshake ++ [.wait 5000, .pump]) =
      some l ∧ l.authedLinks = [(.zero 32, 0)] ∧ l.Routed := by
  obtain ⟨l, hrun, authed⟩ : ∃ l, run (step Session.plainHost) (empty 0 false (.zero 32))
      (handshake ++ [.wait 5000, .pump]) = some l ∧ l.authedLinks = [(.zero 32, 0)] := by
    decide +kernel
  refine ⟨l, hrun, authed, ?_⟩
  exact routed_of_undisturbed Session.plainHost 0 false (.zero 32) _ l (by decide +kernel) hrun

instance decidableRouted (l : LinkLayer H) : Decidable l.Routed := by
  unfold Routed
  infer_instance

/-- The attempt with a second identity at the address times out. The session with the first
one is still ready, and its address is not mapped any more. -/
theorem second_identity_unmaps :
    ∃ l, run (step Session.plainHost) (empty 0 false (.zero 32)) (handshake ++
        [.tryEstablishTo (plainContact (.copy 32 [1]) 7) (.zero 32), .wait 5000, .pump]) = some l ∧
      l.authedLinks = [(.zero 32, 0)] ∧
      (l.sessions[0]?).map (fun s => (s.state, s.remoteAddr)) = some (.ready, 7) ∧
      l.authedAddrs[(7 : SockAddr)]? = none ∧ ¬ l.Routed := by
  decide +kernel

end Llarp.Link.LinkLayer

import Llarp.Iwp.LinkCalls

/-!
# Closed sessions

Two steps lead out of the closed state: the verdict on a link introduction that is
still with the hasher when the session closes, and the acknowledgement of our own
link introduction. Every other step of a closed session leaves it closed.
-/

namespace Llarp.Iwp.Session

open Foundation

variable {H : Type} {host : Host} {s : Session H} {m : Moment}

/-- What opens a closed session: the verdict that delivers the link introduction which an
inbound session waits for, or the acknowledgement of the link introduction of an outbound
session, unless the link layer has another session with the router. -/
def Reopens (host : Host) (s : Session H) (at_ : Moment × Event H) : Prop :=
  match at_.2 with
  | .verdict request _ => s.gotLIM = .inbound ∧
    ∃ e, Reception.due host.shorthash s.plane.rx request = some e ∧
      ∃ rc, host.linkIntro at_.1.now e.data = some rc ∧ rc.pubkey = s.expectedIdent ∧
        at_.1.refuses rc.pubkey = false
  | .plaintext index => at_.1.refuses s.remoteRC.pubkey = false ∧
    ∃ data, s.plaintextRecv[index]? = some data ∧
      ∃ p, parse data = some p ∧ s.plane.tx.Answers p .lim
  | _ => False

instance decidableReopens [DecidableEq H] (host : Host) (s : Session H) (at_ : Moment × Event H) :
    Decidable (s.Reopens host at_) := by
  obtain ⟨m, event⟩ := at_
  unfold Reopens
  cases event with
  | verdict => infer_instance
  | plaintext => infer_instance
  | _ => infer_instance

theorem reopens_iff {at_ : Moment × Event H} :
    s.Reopens host at_ ↔ ∃ pk, s.Establishes host at_ pk ∧ at_.1.refuses pk = false := by
  obtain ⟨m, event⟩ := at_
  cases event with
  | verdict request ourLIM =>
    constructor
    · rintro ⟨inbound, e, delivered, rc, intro, expected, accepted⟩
      exact ⟨_, ⟨inbound, rfl, e, delivered, rc, intro, expected⟩, expected ▸ accepted⟩
    · rintro ⟨_, ⟨inbound, rfl, e, delivered, rc, intro, expected⟩, accepted⟩
      exact ⟨inbound, e, delivered, rc, intro, expected, expected ▸ accepted⟩
  | plaintext index =>
    constructor
    · rintro ⟨accepted, answers⟩
      exact ⟨_, ⟨rfl, answers⟩, accepted⟩
    · rintro ⟨_, ⟨rfl, answers⟩, accepted⟩
      exact ⟨accepted, answers⟩
  | _ => simp [Reopens, Establishes]

/-- Acknowledgements never throw. -/
theorem exists_step_of_establishes {at_ : Moment × Event H} {pk : PubKey}
    (maps : s.Establishes host at_ pk) : ∃ t, s.step host at_ = some t := by
  obtain ⟨m, event⟩ := at_
  cases event with
  | plaintext index =>
    obtain ⟨-, data, found, p, parsed, answers⟩ := maps
    show ∃ t, s.plaintext m index = some t
    unfold plaintext
    rw [found]
    cases p with
    | acks txid bitmask => exact ⟨_, handlePlaintext_of_parse parsed nofun⟩
    | mack ids => exact ⟨_, handlePlaintext_of_parse parsed nofun⟩
    | _ => exact answers.elim
  | verdict request ourLIM => exact ⟨_, rfl⟩
  | _ => exact maps.elim

/-- A step leaves a closed session closed exactly when it is none of the two. -/
theorem closed_step_iff (closed : s.state = .closed) (at_ : Moment × Event H) :
    (∀ t, s.step host at_ = some t → t.state = .closed) ↔ ¬ s.Reopens host at_ := by
  rw [reopens_iff]
  constructor
  · rintro stays ⟨pk, maps, accepted⟩
    obtain ⟨t, steps⟩ := exists_step_of_establishes maps
    have refused := ((step_trace steps).closed_iff closed).mp (stays t steps) pk maps
    exact Bool.false_ne_true (accepted.symm.trans refused)
  · intro quiet t steps
    refine ((step_trace steps).closed_iff closed).mpr fun pk maps => ?_
    exact Bool.not_eq_false _ ▸ fun accepted => quiet ⟨pk, maps, accepted⟩

/-- A closed session stays closed through a run exactly when no step of the run reopens it. -/
theorem stays_closed_iff (host : Host) (s : Session H) (closed : s.state = .closed)
    (events : List (Moment × Event H)) :
    Always (step host) (fun t => t.state = .closed) s events ↔
      Along (step host) (fun t at_ => ¬ t.Reopens host at_) s events :=
  always_iff_along (fun _ => True) (fun _ _ _ _ _ _ _ => trivial)
    (fun _ at_ _ closed => closed_step_iff closed at_) trivial closed

/-- A host for concrete runs: the keyed hash and the keys are constant, the cipher changes
nothing, and every message is a valid link introduction of the key that it starts with. -/
def plainHost : Host where
  shorthash := Reception.prefixHash
  hmac _ _ := some (.zero 32)
  xchacha20 data _ _ := some data
  verify _ _ _ := true
  transportDHClient _ _ := some (.zero 32)
  transportDHServer _ _ := some (.zero 32)
  linkIntro _ data := some ⟨.copy 32 data, true⟩

/-- A packet of the plain host. -/
def plainPacket (payload : List UInt8) : List UInt8 := List.replicate 64 0 ++ payload

/-- Time stands still and the link layer refuses nobody. -/
def calm (event : Event Unit) : Moment × Event Unit := (⟨0, fun _ => false⟩, event)

/-- Receive a packet of the established session and handle it. -/
def receiveCalmly (p : Plaintext) (pad : List UInt8) : List (Moment × Event Unit) :=
  [calm (.recvLL (plainPacket (createPacket p pad)) none), calm .pump, calm (.decrypt 0),
    calm (.plaintext 0)]

/-- The handshake of an inbound session, up to the link introduction, which goes to the
hasher; then the peer closes. -/
def closingRun : List (Moment × Event Unit) :=
  [calm (.recvLL (plainPacket (List.replicate 160 0)) none),
    calm (.recvLL (plainPacket (List.replicate 24 0)) none)] ++
  receiveCalmly (.xmit 1 0 (Reception.prefixHash [0]) [0]) [] ++
  receiveCalmly .clos (List.replicate 16 0)

/-- An inbound session of the plain host. -/
def plainSession : Session Unit := inboundFrom plainHost 0 (.zero 32) 7 (.zero 24)

theorem stays_closed_iff_quiet :
    ∃ s, run (step plainHost) plainSession closingRun = some s ∧ s.state = .closed ∧
      Always (step plainHost) (fun t => t.state = .closed) s [calm .tick, calm .sendMACK] := by
  obtain ⟨s, hrun⟩ := Option.isSome_iff_exists.mp
    (show (run (step plainHost) plainSession closingRun).isSome by decide +kernel)
  have state : (run (step plainHost) plainSession closingRun).map (·.state) = some .closed := by
    decide +kernel
  rw [hrun] at state
  have closed : s.state = .closed := Option.some.inj state
  refine ⟨s, hrun, closed, (stays_closed_iff plainHost s closed _).mpr ?_⟩
  simp [along_cons, calm, Reopens]

/-- The verdict on the link introduction arrives when the session is closed, and the
session is ready again. -/
theorem late_verdict_reopens :
    (run (step plainHost) plainSession closingRun).map (·.state) = some .closed ∧
    (run (step plainHost) plainSession (closingRun ++ [calm (.verdict 0 none)])).map (·.state) =
      some .ready := by
  decide +kernel

end Llarp.Iwp.Session

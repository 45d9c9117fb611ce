import Llarp.Path.Status
import Llarp.Path.Commit

/-!
# The life of a path

A path is built, established, and dies: it fails, expires, or is ignored from some time on. The
handlers of latency replies and of exit traffic make it established without a look at its status.
-/

namespace Llarp

open Foundation

inductive PathStatus where
  | building
  | established
  | timeout
  | failed
  | ignore
  | expired
  deriving DecidableEq

/-- The path is given up. -/
def PathStatus.Dead (status : PathStatus) : Prop :=
  status = .failed ∨ status = .expired ∨ status = .ignore

/-- A set of roles, one bit each. -/
abbrev PathRole := BitVec 32

namespace PathRole

def any : PathRole := 0
def exit : PathRole := 1 <<< 2
def svc : PathRole := 1 <<< 3

end PathRole

/-- A path with what changes while it is used. The lifetime is the one of its first hop. -/
structure PathState where
  path : Path
  lifetime : ℕ
  role : PathRole
  status : PathStatus := .building
  buildStarted : ℕ
  lastRecvMessage : ℕ := 0
  lastLatencyTestID : UInt64 := 0
  lastLatencyTestTime : ℕ := 0
  latencySamples : List ℕ := []
  latency : ℕ := 0
  expiresAt : ℕ := 0
  deriving DecidableEq

/-- What happens to a path. The numbers are the random ones of latency tests. -/
inductive PathEvent where
  | queued (effect : StatusEffect) (T : UInt64)
  | confirm (T : UInt64)
  | latency
  | traffic (handler : Option (List UInt8 → UInt64 → Bool)) (X : List (List UInt8))
  | tick (T : UInt64)
  | testAgain (T : UInt64)
  | ignore
  | notSent
  | active
  | handled
  | grantExit
  | closeExit

namespace PathState

variable (p : PathState) (now : ℕ)

def buildTimeout : ℕ := 10000
def latencyInterval : ℕ := 5000
def aliveTimeout : ℕ := 10000
def reanimationTimeout : ℕ := 45000
def maxLatencySamples : ℕ := 8

def endpoint : RouterID := p.path.last.rc

def supportsAnyRoles (roles : PathRole) : Bool :=
  roles = .any || (p.role ||| roles) ≠ 0

/-- `EnterState`, whose branches differ in what they log and tell the path set. -/
def enterState (st : PathStatus) : PathState :=
  { p with status := st, buildStarted := if st = .building then now else p.buildStarted }

def expireTime : ℕ := p.buildStarted + p.lifetime

def expired : Bool :=
  match p.status with
  | .failed => true
  | .building => false
  | .timeout => p.lastRecvMessage + reanimationTimeout ≤ now
  | .established | .ignore => p.expireTime ≤ now
  | .expired => true

def isReady : Bool := !p.expired now && 0 < p.latency && p.status = .established

def markActive : PathState := { p with lastRecvMessage := max now p.lastRecvMessage }

def sendLatencyMessage (T : UInt64) : PathState :=
  { p with lastLatencyTestID := T, lastLatencyTestTime := now }

def tick (T : UInt64) : PathState :=
  if p.expired now then p
  else
    match p.status with
    | .building =>
      if p.buildStarted ≠ 0 ∧ p.buildStarted + buildTimeout ≤ now then p.enterState now .expired
      else p
    | .established =>
      if latencyInterval < now - p.lastLatencyTestTime ∧ p.lastLatencyTestID = 0 then
        p.sendLatencyMessage now T
      else if aliveTimeout ≤ now - p.lastRecvMessage then p.enterState now .timeout
      else p
    | .ignore => if aliveTimeout ≤ now - p.lastRecvMessage then p.enterState now .expired else p
    | _ => p

def handlePathConfirmMessage (T : UInt64) : PathState :=
  if p.status = .building then
    ({ p with expiresAt := p.expireTime }.markActive now).sendLatencyMessage now T
  else p

def handlePathLatencyMessage : PathState :=
  let p := p.markActive now
  if p.lastLatencyTestID ≠ 0 then
    let samples := p.latencySamples ++ [now - p.lastLatencyTestTime]
    let samples := samples.drop (samples.length - maxLatencySamples)
    { p with
      latencySamples := samples
      latency := samples.sum / samples.length
      lastLatencyTestID := 0 }.enterState now .established
  else p

/-- The handler takes the packet, which follows a counter. -/
def accepts (handler : List UInt8 → UInt64 → Bool) (pkt : List UInt8) : Bool :=
  8 < pkt.length && handler (pkt.drop 8) (load64 pkt)

def handleTransferTrafficMessage (handler : Option (List UInt8 → UInt64 → Bool))
    (X : List (List UInt8)) : PathState :=
  if p.supportsAnyRoles (.exit ||| .svc) then
    match handler with
    | none => p
    | some handler => X.foldl (fun p pkt =>
        if accepts handler pkt then (p.markActive now).enterState now .established else p) p
  else p

/-- The path at the time of an event, and after it. -/
def step : ℕ × PathEvent → PathState
  | (now, .queued .confirm T) => p.handlePathConfirmMessage now T
  | (now, .queued (.failed _) _) => p.enterState now .failed
  | (_, .queued _ _) => p
  | (now, .confirm T) => p.handlePathConfirmMessage now T
  | (now, .latency) => p.handlePathLatencyMessage now
  | (now, .traffic handler X) => p.handleTransferTrafficMessage now handler X
  | (now, .tick T) => p.tick now T
  | (now, .testAgain T) => if p.lastLatencyTestID ≠ 0 then p.sendLatencyMessage now T else p
  | (now, .ignore) => p.enterState now .ignore
  | (now, .notSent) => p.enterState now .failed
  | (now, .active) => p.markActive now
  | (now, .handled) => { p with lastRecvMessage := now }
  | (now, .grantExit) => { p.markActive now with role := p.role ||| .exit }
  | (_, .closeExit) => { p with role := p.role &&& ~~~PathRole.exit }

def after (events : List (ℕ × PathEvent)) : PathState := events.foldl step p

/-- A path that is dead at some time of the run is not established at a later time. -/
def StaysDead (events : List (ℕ × PathEvent)) : Prop :=
  ∀ before between, before ++ between <+: events → (p.after before).status.Dead →
    (p.after (before ++ between)).status ≠ .established

/-- The event makes the path established: a reply while a latency test is under way, or a packet
that the handler takes. -/
def Establishes : PathEvent → Prop
  | .latency => p.lastLatencyTestID ≠ 0
  | .traffic handler X => ∃ accept ∈ handler, ∃ pkt ∈ X, accepts accept pkt = true
  | _ => False

variable {p now}

/-- The role does not matter: the union with the roles asked for is not empty. -/
theorem supportsAnyRoles_eq_true (p : PathState) (roles : PathRole) :
    p.supportsAnyRoles roles = true := by
  rw [supportsAnyRoles, Bool.or_eq_true, decide_eq_true_eq, decide_eq_true_eq, or_iff_not_imp_left]
  intro some none
  exact some (BitVec.or_eq_zero_iff.mp none).2

theorem status_handleTransferTrafficMessage {accept : List UInt8 → UInt64 → Bool}
    {X : List (List UInt8)} :
    (p.handleTransferTrafficMessage now (some accept) X).status =
      if X.any (accepts accept) then .established else p.status := by
  rw [handleTransferTrafficMessage, if_pos (supportsAnyRoles_eq_true p _)]
  induction X generalizing p with
  | nil => rfl
  | cons pkt X ih =>
    rw [List.foldl_cons, ih, List.any_cons]
    cases accepts accept pkt with
    | false => rfl
    | true => exact ite_self _

theorem status_step_of_establishes {e : ℕ × PathEvent} (establishes : p.Establishes e.2) :
    (p.step e).status = .established := by
  obtain ⟨now, e⟩ := e
  cases e with
  | latency =>
    have tested : (p.markActive now).lastLatencyTestID ≠ 0 := establishes
    rw [step, handlePathLatencyMessage, if_pos tested]
    rfl
  | traffic handler X =>
    obtain ⟨accept, ⟨⟩, pkt, member, taken⟩ := establishes
    rw [step, status_handleTransferTrafficMessage, if_pos (List.any_eq_true.mpr ⟨pkt, member, taken⟩)]
  | _ => exact establishes.elim

theorem dead_tick (dead : p.status.Dead) (T : UInt64) : (p.tick now T).status.Dead := by
  rw [tick]
  by_cases gone : p.expired now = true
  · rwa [if_pos gone]
  · rw [if_neg gone]
    rcases dead with same | same | same
    · rw [same]
      exact .inl same
    · rw [same]
      exact .inr (.inl same)
    · rw [same]
      dsimp only
      split_ifs
      · exact .inr (.inl rfl)
      · exact .inr (.inr same)

/-- Any other event leaves a dead path dead. -/
theorem dead_step {e : ℕ × PathEvent} (dead : p.status.Dead) (none : ¬p.Establishes e.2) :
    (p.step e).status.Dead := by
  have noConfirm (now : ℕ) (T : UInt64) : (p.handlePathConfirmMessage now T).status.Dead := by
    have built : p.status ≠ .building := by rcases dead with same | same | same <;> rw [same] <;> nofun
    rwa [handlePathConfirmMessage, if_neg built]
  obtain ⟨now, e⟩ := e
  cases e with
  | queued effect T =>
    cases effect with
    | confirm => exact noConfirm now T
    | failed edge => exact .inl rfl
    | _ => exact dead
  | confirm T => exact noConfirm now T
  | latency =>
    have untested : ¬(p.markActive now).lastLatencyTestID ≠ 0 := none
    rwa [step, handlePathLatencyMessage, if_neg untested]
  | traffic handler X =>
    cases handler with
    | none =>
      rw [step, handleTransferTrafficMessage]
      split_ifs <;> exact dead
    | some accept =>
      have refused : ¬X.any (accepts accept) = true := fun taken =>
        none ⟨accept, rfl, List.any_eq_true.mp taken⟩
      rwa [step, status_handleTransferTrafficMessage, if_neg refused]
  | tick T => exact dead_tick dead T
  | testAgain T =>
    rw [step]
    split_ifs <;> exact dead
  | ignore => exact .inr (.inr rfl)
  | notSent => exact .inl rfl
  | _ => exact dead

/-- The hops of a path stay. -/
theorem path_step (p : PathState) (e : ℕ × PathEvent) : (p.step e).path = p.path := by
  have confirm (now : ℕ) (T : UInt64) : (p.handlePathConfirmMessage now T).path = p.path := by
    rw [handlePathConfirmMessage]
    split_ifs <;> rfl
  obtain ⟨now, e⟩ := e
  cases e with
  | queued effect T =>
    cases effect with
    | confirm => exact confirm now T
    | _ => rfl
  | confirm T => exact confirm now T
  | latency =>
    rw [step, handlePathLatencyMessage]
    split_ifs <;> rfl
  | traffic handler X =>
    cases handler with
    | none =>
      rw [step, handleTransferTrafficMessage]
      split_ifs <;> rfl
    | some accept =>
      rw [step, handleTransferTrafficMessage, if_pos (supportsAnyRoles_eq_true p _)]
      refine List.foldlRecOn (motive := fun q : PathState => q.path = p.path) X _ rfl fun q same pkt _ => ?_
      split_ifs <;> exact same
  | tick T =>
    rw [step, tick]
    by_cases gone : p.expired now = true
    · rw [if_pos gone]
    · rw [if_neg gone]
      split
      case h_4 => rfl
      all_goals split_ifs <;> rfl
  | testAgain T =>
    rw [step]
    split_ifs <;> rfl
  | _ => rfl

theorem after_concat (p : PathState) (events : List (ℕ × PathEvent)) (e : ℕ × PathEvent) :
    p.after (events ++ [e]) = (p.after events).step e := List.foldl_concat ..

/-- A path stays dead exactly if no latency reply that is awaited and no exit packet that is taken
comes to a dead path. -/
theorem staysDead_iff (p : PathState) (events : List (ℕ × PathEvent)) :
    p.StaysDead events ↔ ∀ before e, before ++ [e] <+: events →
      (p.after before).status.Dead → ¬(p.after before).Establishes e.2 := by
  constructor
  · intro stays before e first dead establishes
    refine stays before [e] first dead ?_
    rw [after_concat]
    exact status_step_of_establishes establishes
  · intro none before between first dead
    have still : (p.after (before ++ between)).status.Dead := by
      induction between using List.reverseRecOn with
      | nil => rwa [List.append_nil]
      | append_singleton between e ih =>
        rw [← List.append_assoc] at first ⊢
        have dead' := ih ((List.prefix_append _ _).trans first)
        rw [after_concat]
        exact dead_step dead' (none _ e first dead')
    intro same
    rw [same] at still
    rcases still with other | other | other <;> cases other

/-- The path is confirmed, which starts a latency test, and ignored then. The reply to the test
makes it established. -/
theorem ignored_path_established_again :
    ¬StaysDead { path := .shortPath, lifetime := 1200000, role := .any, buildStarted := 1 }
      [(2, .confirm 7), (3, .ignore), (4, .latency)] := by
  intro stays
  exact stays [(2, .confirm 7), (3, .ignore)] [(4, .latency)] List.prefix_rfl (.inr (.inr rfl)) rfl

end PathState

end Llarp

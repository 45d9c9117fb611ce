import Llarp.Path.Committed

/-!
# Status messages of path builds

The hop at which a path build ends sends a status message down. Every relay on the way adds a
frame of its own in front. The client decrypts the frames in the order of its hops, up to the
first one that reports a failure, and blames the hop after that one.
-/

namespace Llarp

open Foundation LRStatusRecord List

/-- A frame with a status record, or with bytes that do not decode to one. -/
abbrev StatusFrame := EncryptedFrame SharedSecret (Option UInt64)

structure LRStatusMessage where
  frames : List StatusFrame
  length_frames : frames.length = Path.maxLen
  pathid : PathID
  status : UInt64
  deriving DecidableEq

namespace LRStatusMessage

def setDummyFrames (msg : LRStatusMessage) : LRStatusMessage :=
  { msg with frames := List.replicate Path.maxLen .random, length_frames := by simp }

/-- All frames move back by one, and the last one is lost. -/
def addFrame (msg : LRStatusMessage) (pathKey : SharedSecret) (newStatus : UInt64) :
    LRStatusMessage :=
  { msg with
    frames := .encrypted pathKey (some newStatus) :: msg.frames.dropLast
    length_frames := by rw [List.length_cons, List.length_dropLast, msg.length_frames]; rfl }

def createAndSend (pathid : PathID) (pathKey : SharedSecret) (status : UInt64) :
    LRStatusMessage :=
  let message : LRStatusMessage :=
    { frames := List.replicate Path.maxLen .random, length_frames := by simp, pathid, status }
  message.setDummyFrames.addFrame pathKey status

end LRStatusMessage

/-- What a relay sends to the node before it when a status message comes. -/
def TransitHop.handleLRSM (hop : TransitHop) (msg : LRStatusMessage) : LRStatusMessage :=
  { msg with pathid := hop.info.rxID }.addFrame hop.pathKey LRStatusRecord.success

/-- What a client does when a status message comes. -/
inductive StatusEffect where
  | confirm
  | markHopFail (router : RouterID)
  | markPathFail
  | removeRouter (router : RouterID)
  | failed (edge : Option RouterID)
  deriving DecidableEq

structure StatusOutcome where
  currentStatus : UInt64
  failedAt : Option RouterID
  deriving DecidableEq

namespace Path

/-- The loop of `HandleLRSM`, from the given index on. -/
def readFrames (index : ℕ) (currentStatus : UInt64) : List PathHopConfig → List StatusFrame →
    StatusOutcome
  | [], _ => ⟨currentStatus, none⟩
  | _ :: _, [] => ⟨currentStatus, none⟩
  | hop :: rest, frame :: frames =>
    match frame.doDecrypt hop.shared with
    | none => ⟨LRStatusRecord.failDecryptError, some hop.rc⟩
    | some none => ⟨LRStatusRecord.failMalformedRecord, some hop.rc⟩
    | some (some status) =>
      if status &&& LRStatusRecord.success ≠ LRStatusRecord.success then
        if status &&& LRStatusRecord.failCongestion ≠ 0 ∧ index = 0 then ⟨status, some hop.rc⟩
        else ⟨status, rest.head?.map (·.rc)⟩
      else readFrames (index + 1) status rest frames

/-- Whether a failed build makes the client forget the router: the status says that the
destination is invalid, and nothing that is looked at before. -/
def forgets (status : UInt64) : Bool :=
  status &&& LRStatusRecord.failTimeout = 0 && status &&& LRStatusRecord.failCongestion = 0 &&
    status &&& LRStatusRecord.failDestUnknown = 0 && status &&& LRStatusRecord.failDestInvalid ≠ 0

def statusOutcome (path : Path) (msg : LRStatusMessage) : StatusOutcome :=
  readFrames 0 msg.status path.hops msg.frames

def handleLRSM (path : Path) (msg : LRStatusMessage) : List StatusEffect :=
  let ⟨currentStatus, failedAt⟩ := path.statusOutcome msg
  if currentStatus &&& LRStatusRecord.success = LRStatusRecord.success then [.confirm]
  else
    match failedAt with
    | some router =>
      .markHopFail router :: (if forgets currentStatus then [.removeRouter router] else []) ++
        [.failed router]
    | none => [.markPathFail, .failed none]

end Path

/-- A hop originates a status message, and the relays before it pass it on. -/
def statusFrom (earlier : List TransitHop) (hop : TransitHop) (status : UInt64) :
    LRStatusMessage :=
  earlier.foldr (fun relay msg => relay.handleLRSM msg)
    (.createAndSend hop.info.rxID hop.pathKey status)

/-! ### The frames on the way back -/

theorem dropLast_append_of_lt {α : Type} {front back : List α} {n : ℕ}
    (length : (front ++ back).length = n) (room : front.length < n) :
    (front ++ back).dropLast = front ++ back.dropLast := by
  refine dropLast_append_of_ne_nil fun none => ?_
  rw [none, append_nil] at length
  omega

/-- As long as there is room, no frame of a hop is lost. -/
theorem frames_statusFrom {earlier : List TransitHop} (hop : TransitHop) (status : UInt64)
    (room : earlier.length < Path.maxLen) :
    ∃ dummies, (statusFrom earlier hop status).frames =
      earlier.map (fun relay => .encrypted relay.pathKey (some success)) ++
        .encrypted hop.pathKey (some status) :: dummies := by
  induction earlier with
  | nil => exact ⟨_, rfl⟩
  | cons relay earlier ih =>
    rw [length_cons] at room
    obtain ⟨dummies, frames⟩ := ih (by omega)
    set front := earlier.map (fun relay : TransitHop =>
      (EncryptedFrame.encrypted relay.pathKey (some success) : StatusFrame)) ++
        [.encrypted hop.pathKey (some status)]
    have split : (statusFrom earlier hop status).frames = front ++ dummies := by
      rw [frames]
      simp [front]
    have length := (statusFrom earlier hop status).length_frames
    rw [split] at length
    have added : (statusFrom (relay :: earlier) hop status).frames =
        .encrypted relay.pathKey (some success) ::
          (statusFrom earlier hop status).frames.dropLast := rfl
    rw [added, split, dropLast_append_of_lt length (by simpa [front] using room)]
    simp [front]

theorem map_pathKey_stops (downstream : RouterID) (hops : List PathHopConfig) :
    (stops downstream hops).map (·.2.pathKey) = hops.map (·.shared) := by
  induction hops generalizing downstream with
  | nil => rfl
  | cons hop rest ih =>
    rw [stops_cons, map_cons, ih]
    rfl

/-! ### What the client reads -/

namespace Path

/-- The frames of relays that only passed the message on do not stop the loop. -/
theorem readFrames_success (relays rest : List PathHopConfig) (frames : List StatusFrame)
    (index : ℕ) (status : UInt64) :
    ∃ status', readFrames index status (relays ++ rest)
        (relays.map (fun hop => .encrypted hop.shared (some success)) ++ frames) =
      readFrames (index + relays.length) status' rest frames := by
  induction relays generalizing index status with
  | nil => exact ⟨status, rfl⟩
  | cons hop relays ih =>
    obtain ⟨status', reads⟩ := ih (index + 1) success
    refine ⟨status', ?_⟩
    rw [cons_append, map_cons, cons_append, readFrames,
      EncryptedFrame.doDecrypt, if_pos rfl]
    simp only [UInt64.and_self, ne_eq, not_true_eq_false, if_false]
    rw [reads, length_cons, Nat.add_assoc, Nat.add_comm 1]

/-- The frame of the hop that originated the message decides. -/
theorem readFrames_origin (hop : PathHopConfig) (rest : List PathHopConfig)
    (frames : List StatusFrame) (index : ℕ) (current status : UInt64)
    (onlyLast : status &&& success = success → rest = []) :
    readFrames index current (hop :: rest) (.encrypted hop.shared (some status) :: frames) =
      ⟨status,
        if status &&& success = success then none
        else if status &&& failCongestion ≠ 0 ∧ index = 0 then some hop.rc
        else rest.head?.map (·.rc)⟩ := by
  rw [readFrames, EncryptedFrame.doDecrypt, if_pos rfl]
  simp only
  by_cases success : status &&& success = success
  · rw [if_neg (not_not.mpr success), if_pos success, onlyLast success, readFrames]
  · rw [if_neg success]
    split_ifs <;> rfl

/-- The client reads the status that the hop sent, and blames the next hop, or the first hop
itself for congestion at the first hop. -/
theorem statusOutcome_statusFrom (path : Path) (client : RouterID) {k : ℕ}
    {origin : RouterID × TransitHop} (here : (stops client path.hops)[k]? = some origin)
    {status : UInt64}
    (onlyLast : status &&& success = success →
      k + 1 = path.hops.length) :
    path.statusOutcome
        (statusFrom (((stops client path.hops).take k).map (·.2)) origin.2 status) =
      ⟨status,
        if status &&& success = success then none
        else if status &&& failCongestion ≠ 0 ∧ k = 0 then some origin.1
        else path.hops[k + 1]?.map (·.rc)⟩ := by
  obtain ⟨hop, previous, at_k, -, rfl⟩ := List.getElem?_zipWith_eq_some.mp here
  obtain ⟨inside, rfl⟩ := List.getElem?_eq_some_iff.mp at_k
  have length : (((stops client path.hops).take k).map (·.2)).length = k := by
    rw [length_map, length_take, length_stops]
    omega
  have room : (((stops client path.hops).take k).map (·.2)).length < maxLen := by
    rw [length]
    exact lt_of_lt_of_le inside path.length_le
  obtain ⟨dummies, frames⟩ := frames_statusFrom (path.hops[k].record.transitHop previous) status
    room
  have relays : (((stops client path.hops).take k).map (·.2)).map (fun relay =>
      (EncryptedFrame.encrypted relay.pathKey (some success) : StatusFrame)) =
      (path.hops.take k).map fun hop =>
        .encrypted hop.shared (some success) := by
    have keys := congrArg (fun keys => (keys.take k).map fun key =>
      (EncryptedFrame.encrypted key (some success) : StatusFrame))
      (map_pathKey_stops client path.hops)
    simpa only [map_take, map_map, Function.comp_def] using keys
  have split : path.hops = path.hops.take k ++ path.hops[k] :: path.hops.drop (k + 1) := by
    rw [getElem_cons_drop, take_append_drop]
  obtain ⟨current, reads⟩ := readFrames_success (path.hops.take k)
    (path.hops[k] :: path.hops.drop (k + 1))
    (.encrypted path.hops[k].shared (some status) :: dummies) 0
    (statusFrom (((stops client path.hops).take k).map (·.2))
      (path.hops[k].record.transitHop previous) status).status
  rw [← split] at reads
  rw [statusOutcome, frames, relays]
  refine reads.trans ?_
  rw [readFrames_origin _ _ _ _ _ _ fun success => drop_eq_nil_of_le (onlyLast success).ge,
    head?_drop, Nat.zero_add, length_take, Nat.min_eq_left inside.le]

/-- The client confirms a path exactly if the status says so, and otherwise marks the hop that
it blames, or the path if it blames none. -/
theorem handleLRSM_statusFrom (path : Path) (client : RouterID) {k : ℕ}
    {origin : RouterID × TransitHop} (here : (stops client path.hops)[k]? = some origin)
    {status : UInt64}
    (onlyLast : status &&& LRStatusRecord.success = LRStatusRecord.success →
      k + 1 = path.hops.length) :
    let msg := statusFrom (((stops client path.hops).take k).map (·.2)) origin.2 status
    let blamed := if status &&& LRStatusRecord.failCongestion ≠ 0 ∧ k = 0 then some origin.1
      else path.hops[k + 1]?.map (·.rc)
    (path.statusOutcome msg).currentStatus = status ∧
      (.confirm ∈ path.handleLRSM msg ↔
        status &&& LRStatusRecord.success = LRStatusRecord.success) ∧
      (status &&& LRStatusRecord.success ≠ LRStatusRecord.success →
        (∀ router, .markHopFail router ∈ path.handleLRSM msg ↔ blamed = some router) ∧
        (.markPathFail ∈ path.handleLRSM msg ↔ blamed = none) ∧
        .failed blamed ∈ path.handleLRSM msg) := by
  intro msg blamed
  have outcome := statusOutcome_statusFrom path client here onlyLast
  by_cases success : status &&& success = success
  · have handled : path.handleLRSM msg = [.confirm] := by
      simp only [handleLRSM, msg, outcome, success, if_true]
    refine ⟨congrArg StatusOutcome.currentStatus outcome, ?_, absurd success⟩
    rw [handled]
    simp [success]
  · have handled : path.handleLRSM msg =
        match blamed with
        | some router =>
          .markHopFail router :: (if forgets status then [.removeRouter router] else []) ++
            [.failed router]
        | none => [.markPathFail, .failed none] := by
      simp only [handleLRSM, msg, outcome, success, if_false, blamed]
    refine ⟨congrArg StatusOutcome.currentStatus outcome, ?_, fun _ => ?_⟩
    · rw [handled]
      cases blamed <;> simp [success]
    · rw [handled]
      cases blamed with
      | none => simp
      | some router => split_ifs <;> simp [eq_comm]

/-- The second of three hops cannot connect to the third one, which is blamed. -/
theorem handleLRSM_statusFrom_second_hop :
    ∃ origin, (stops (.copy 32 [9]) shortPath.hops)[1]? = some origin ∧
      .markHopFail (.copy 32 [3]) ∈ shortPath.handleLRSM
        (statusFrom (((stops (.copy 32 [9]) shortPath.hops).take 1).map (·.2)) origin.2
          LRStatusRecord.failCannotConnect) :=
  ⟨_, rfl, (((handleLRSM_statusFrom shortPath (.copy 32 [9]) rfl (by decide)).2.2
    (by decide)).1 _).mpr (by decide)⟩

end Path

end Llarp

import Llarp.Crypto.Types
import Llarp.Foundation.Maps
import Llarp.Foundation.Run
import Llarp.Net.Ranges

/-!
# The exit endpoint

An exit endpoint gives every identity an address of its range. Clients obtain exits over paths, and
the endpoint has sessions of its own to other service nodes. It remembers which keys are those of
service nodes and never forgets them, but sessions expire.

What the rest of the router answers is part of each event: which hop a path id belongs to, whether
a session to a router is allowed, which paths have expired. Addresses are in host byte order. A
step without a result is one in which a null pointer is dereferenced.
-/

namespace Llarp.Exit

open Foundation

abbrev IPv6 := BitVec 128

instance : Std.TransOrd IPv6 := inferInstance

/-- A hop of a path that ends here, as a shared pointer. -/
structure Hop where
  id : ℕ
  rxID : PathID
  deriving DecidableEq

/-- `exit::Endpoint`: an exit that an identity has obtained. -/
structure Endpoint where
  pubKey : PubKey
  currentPath : Option Hop
  ip : IPv6
  rewriteSource : Bool
  deriving DecidableEq

def Endpoint.isExpired (expired : Hop → Bool) (ep : Endpoint) : Bool :=
  match ep.currentPath with
  | some path => expired path
  | none => true

/-- `exit::SNodeSession`, with the address that its writer has captured. -/
structure SNodeSession where
  ip : IPv6
  lastUse : ℕ
  deriving DecidableEq

/-- `LifeSpan`, in milliseconds. -/
def lifeSpan : ℕ := 20 * 60 * 1000

def SNodeSession.isExpired (session : SNodeSession) (now : ℕ) : Bool :=
  now > session.lastUse ∧ now - session.lastUse ≥ lifeSpan

/-- How a hash table is visited: in some order of its entries. -/
structure Visit (α : Type) where
  order : List α → List α
  perm : ∀ entries, (order entries).Perm entries

/-- What does not change. The netmask of the range has `bits` leading ones. -/
structure Config where
  us : PubKey
  permitExit : Bool
  addr : IPv6
  bits : ℕ
  bits_le : bits ≤ 128

namespace Config

/-- `m_OurRange`. -/
def range (cfg : Config) : IPRange := ⟨cfg.addr, IPRange.netmaskIPv6Bits cfg.bits⟩

def ifAddr (cfg : Config) : IPv6 := cfg.range.addr

def highestAddr (cfg : Config) : IPv6 := cfg.range.highestAddr

def useV6 (cfg : Config) : Bool := !cfg.range.isV4

end Config

structure ExitEndpoint where
  nextAddr : IPv6
  keyToIP : Std.ExtTreeMap PubKey IPv6
  ipToKey : Std.ExtTreeMap IPv6 PubKey
  ipActivity : Std.ExtTreeMap IPv6 ℕ
  snodeKeys : Finset PubKey
  /-- null pointers are entries without a session -/
  snodeSessions : Std.ExtTreeMap RouterID (Option SNodeSession)
  /-- the entries in the order of the hash table -/
  activeExits : List (PubKey × Endpoint)
  paths : Std.ExtTreeMap PathID PubKey

/-- `std::numeric_limits` is not specialised for durations, and what is not specialised has a
maximum of zero. -/
def numericLimitsMax : ℕ := 0

namespace ExitEndpoint

variable (cfg : Config) (s : ExitEndpoint)

/-- The endpoint after `Configure` and `Start`. -/
def start : ExitEndpoint where
  nextAddr := cfg.ifAddr
  keyToIP := (∅ : Std.ExtTreeMap _ _).insert cfg.us cfg.ifAddr
  ipToKey := (∅ : Std.ExtTreeMap _ _).insert cfg.ifAddr cfg.us
  ipActivity := (∅ : Std.ExtTreeMap _ _).insert cfg.ifAddr numericLimitsMax
  snodeKeys := {cfg.us}
  snodeSessions := ∅
  activeExits := []
  paths := ∅

/-! ### Exits -/

/-- The destructor of an exit forgets the path that the exit has then. -/
def delEndpointInfo (paths : Std.ExtTreeMap PathID PubKey) (ep : Endpoint) :
    Std.ExtTreeMap PathID PubKey :=
  match ep.currentPath with
  | some path => paths.erase path.rxID
  | none => paths

/-- Exits are erased one after the other. -/
def eraseExits (doomed : PubKey × Endpoint → Bool) : ExitEndpoint :=
  { s with
    activeExits := s.activeExits.filter fun entry => !doomed entry
    paths := (s.activeExits.filter doomed).foldl
      (fun paths entry => delEndpointInfo paths entry.2) s.paths }

def removeExit (ep : Endpoint) : ExitEndpoint :=
  let same (entry : PubKey × Endpoint) : Bool :=
    entry.1 = ep.pubKey ∧ entry.2.currentPath = ep.currentPath
  match s.activeExits.find? same with
  | some entry =>
    { s with
      activeExits := s.activeExits.eraseP same
      paths := delEndpointInfo s.paths entry.2 }
  | none => s

def findEndpointByPath (path : PathID) : Option Endpoint :=
  match s.paths[path]? with
  | none => none
  | some pk =>
    match s.activeExits.find? (·.1 = pk) with
    | none => none
    | some (_, ep) => if ep.pubKey = pk then some ep else none

/-! ### Addresses -/

/-- The loop that looks for the address without traffic for the longest time. -/
def oldest (activity : List (IPv6 × ℕ)) : IPv6 :=
  (activity.foldl
    (fun best entry => if entry.2 < best.2 then entry else best) (0, numericLimitsMax)).1

def kickIdentOffExit (pk : PubKey) : ExitEndpoint :=
  let ip := s.keyToIP[pk]?.getD 0
  eraseExits
    { s with
      keyToIP := s.keyToIP.erase pk
      ipToKey := s.ipToKey.erase ip }
    (·.1 = pk)

def allocateNewAddress : IPv6 × ExitEndpoint :=
  if s.nextAddr < cfg.highestAddr then
    (s.nextAddr + 1, { s with nextAddr := s.nextAddr + 1 })
  else
    let found := oldest s.ipActivity.toList
    -- the operator creates an entry if there is none
    let pk := s.ipToKey[found]?.getD (.zero 32)
    (found, kickIdentOffExit { s with ipToKey := s.ipToKey.insertIfNew found (.zero 32) } pk)

def markIPActive (ip : IPv6) (now : ℕ) : ExitEndpoint :=
  { s with ipActivity := s.ipActivity.insert ip now }

def getIPForIdent (pk : PubKey) (now : ℕ) : IPv6 × ExitEndpoint :=
  match s.keyToIP[pk]? with
  | some ip => (ip, s.markIPActive ip now)
  | none =>
    let (found, s) := s.allocateNewAddress cfg
    if s.keyToIP.contains pk then (found, s)
    else
      let s := { s with keyToIP := s.keyToIP.insert pk found }
      if s.ipToKey.contains found then (found, s)
      else (found, { s with ipToKey := s.ipToKey.insert found pk }.markIPActive found now)

/-! ### Sessions to service nodes -/

def obtainServiceNodeIP (other : RouterID) (now : ℕ) : IPv6 × ExitEndpoint :=
  if other = cfg.us then (cfg.ifAddr, s)
  else
    let (ip, s) := s.getIPForIdent cfg other now
    if other ∈ s.snodeKeys then (ip, s)
    else
      (ip, { s with
        snodeKeys := insert other s.snodeKeys
        snodeSessions := s.snodeSessions.insert other (some ⟨ip, now⟩) })

/-- The hook is added to the session under the key, which may be a new null pointer. -/
def obtainSNodeSession (router : RouterID) (allowed : Bool) (now : ℕ) : Option ExitEndpoint :=
  if !allowed then some s
  else
    let (_, s) := s.obtainServiceNodeIP cfg router now
    match s.snodeSessions[router]? with
    | some (some _) => some s
    | _ => none

/-- Dereference the session under a key, if the key is there. -/
def deref (rid : RouterID) : Option Unit :=
  match s.snodeSessions[rid]? with
  | some none => none
  | _ => some ()

/-- The router that a conversation is with. The sessions are asked whether they have the path, in
the order of the hash table. -/
def getEndpointWithConvoTag (tag : PathID) (hasPath : RouterID → Bool)
    (visit : Visit (RouterID × Option SNodeSession)) : Option (Option RouterID) :=
  match s.paths[tag]? with
  | some pk => some (some pk)
  | none => ask (visit.order s.snodeSessions.toList)
where
  ask : List (RouterID × Option SNodeSession) → Option (Option RouterID)
    | [] => some none
    | (_, none) :: _ => none
    | (rid, some _) :: entries => if hasPath rid then some (some rid) else ask entries

/-- Every exit of the key is visited and none ends the visit, so that only the session counts. -/
def getBestConvoTagFor (rid : RouterID) : Option Unit := s.deref rid

/-- All sessions are there. -/
def sessionsHeld : Bool := s.snodeSessions.toList.all (·.2.isSome)

/-- A packet for an address is handed to the session with the service node, or to an exit. -/
def flushPacket (dst : IPv6) : Option Unit :=
  match s.ipToKey[dst]? with
  | none => some ()
  | some pk => if pk ∈ s.snodeKeys then s.deref pk else some ()

def flush (s : ExitEndpoint) (dsts : List IPv6) : Option Unit :=
  match dsts with
  | [] => if s.sessionsHeld then some () else none
  | dst :: dsts => (s.flushPacket dst).bind fun _ => s.flush dsts

def tick (now : ℕ) (expired : Hop → Bool) : Option ExitEndpoint :=
  if s.sessionsHeld then
    some <| eraseExits
      { s with
        snodeSessions := s.snodeSessions.filter fun _ session =>
          !(session.any (·.isExpired now)) }
      fun entry => entry.2.isExpired expired
  else none

end ExitEndpoint

/-! ### Events -/

/-- What is asked for in a request for an exit, with what the router knows about the path, and the
place of a new exit in the hash table. -/
structure ExitRequest where
  pk : PubKey
  path : PathID
  wantInternet : Bool
  handler : Option Hop
  previousIsRouter : Bool
  place : ℕ

/-- A question for an address. -/
inductive Query where
  | random (router : Option RouterID)
  | snode (router : RouterID) (isV4 : Bool)
  | other

inductive Event where
  | allocateNewExit (request : ExitRequest) (now : ℕ)
  | obtainServiceNodeIP (other : RouterID) (now : ℕ)
  | obtainSNodeSession (router : RouterID) (allowed : Bool) (now : ℕ)
  | ensurePathTo (rid : RouterID) (pathAllowed allowed : Bool) (now : ℕ)
  | sendToOrQueue (tag : PathID) (hasPath : RouterID → Bool)
      (visit : Visit (RouterID × Option SNodeSession)) (queued : Endpoint → Bool)
      (pathAllowed allowed : Bool) (now : ℕ)
  | hookedDNSMessage (query : Query) (allowed : Bool) (now : ℕ)
  | handleTraffic (router : RouterID) (now : ℕ)
  | flush (dsts : List IPv6)
  | tick (now : ℕ) (expired : Hop → Bool)
  | closeExit (rxID : PathID) (verified replied : Bool)
  | updateExit (path : PathID) (verified : Bool) (rxID : PathID) (handler : Option Hop)

namespace ExitEndpoint

variable {other : RouterID} (cfg : Config) (s : ExitEndpoint) (request : ExitRequest)

/-- A new exit, with the address of the identity. -/
def addExit (handler : Hop) (ip : IPv6) : ExitEndpoint :=
  let ep : Endpoint := ⟨request.pk, some handler, ip, !request.wantInternet⟩
  { s with
    snodeKeys := if request.previousIsRouter then insert request.pk s.snodeKeys else s.snodeKeys
    activeExits := s.activeExits.take request.place ++
      (request.pk, ep) :: s.activeExits.drop request.place
    paths := s.paths.insert request.path request.pk }

def allocateNewExit (now : ℕ) : Bool × ExitEndpoint :=
  if request.wantInternet && !cfg.permitExit then (false, s)
  else
    match request.handler with
    | none => (false, s)
    | some handler =>
      let (ip, s) := s.getIPForIdent cfg request.pk now
      let s := s.addExit request handler ip
      (s.keyToIP.contains request.pk, s)

def ensurePathTo (rid : RouterID) (pathAllowed allowed : Bool) (now : ℕ) : Option ExitEndpoint :=
  if rid ∈ s.snodeKeys ∨ pathAllowed then s.obtainSNodeSession cfg rid allowed now
  else (s.getBestConvoTagFor rid).map fun _ => s

def sendToOrQueue (tag : PathID) (hasPath : RouterID → Bool)
    (visit : Visit (RouterID × Option SNodeSession)) (queued : Endpoint → Bool)
    (pathAllowed allowed : Bool) (now : ℕ) : Option ExitEndpoint :=
  (s.getEndpointWithConvoTag tag hasPath visit).bind fun
    | none => some s
    | some rid =>
      if s.activeExits.any (fun entry => entry.1 = rid ∧ queued entry.2) then some s
      else if !pathAllowed then some s
      else s.obtainSNodeSession cfg rid allowed now

def handleHookedDNSMessage (query : Query) (allowed : Bool) (now : ℕ) : Option ExitEndpoint :=
  match query with
  | .random (some router) => some (s.obtainServiceNodeIP cfg router now).2
  | .snode router isV4 =>
    if isV4 && cfg.useV6 then some s
    else if router ∉ s.snodeKeys then s.obtainSNodeSession cfg router allowed now
    else some s
  | _ => some s

/-- Traffic from a service node keeps the session with it alive. -/
def handleTraffic (router : RouterID) (now : ℕ) : ExitEndpoint :=
  match s.snodeSessions[router]? with
  | some (some session) =>
    { s with snodeSessions :=
        s.snodeSessions.insert router (some { session with lastUse := now }) }
  | _ => s

/-- `HandleCloseExitMessage` on the hop with this id. -/
def handleCloseExitMessage (rxID : PathID) (verified replied : Bool) : ExitEndpoint :=
  match s.findEndpointByPath rxID with
  | some ep => if verified && replied then s.removeExit ep else s
  | none => s

/-- An exit of this key with another path. -/
def setPath (pk : PubKey) (handler : Option Hop) (entry : PubKey × Endpoint) :
    Option (PubKey × Endpoint) :=
  if entry.1 = pk then some (entry.1, { entry.2 with currentPath := handler }) else none

/-- The path of the first exit of the key changes. The old path is not forgotten. -/
def updateLocalPath (pk : PubKey) (nextPath : PathID) (handler : Option Hop) : ExitEndpoint :=
  if s.paths.contains nextPath then s
  else
    { s with
      paths := s.paths.insert nextPath pk
      activeExits := s.activeExits.replaceF (setPath pk handler) }

/-- `HandleUpdateExitMessage` on the hop with the id `rxID`. -/
def handleUpdateExitMessage (path : PathID) (verified : Bool) (rxID : PathID)
    (handler : Option Hop) : ExitEndpoint :=
  match s.findEndpointByPath path with
  | some ep => if !verified then s else s.updateLocalPath ep.pubKey rxID handler
  | none => s

def step : Event → Option ExitEndpoint
  | .allocateNewExit request now => some (s.allocateNewExit cfg request now).2
  | .obtainServiceNodeIP other now => some (s.obtainServiceNodeIP cfg other now).2
  | .obtainSNodeSession router allowed now => s.obtainSNodeSession cfg router allowed now
  | .ensurePathTo rid pathAllowed allowed now => s.ensurePathTo cfg rid pathAllowed allowed now
  | .sendToOrQueue tag hasPath visit queued pathAllowed allowed now =>
    s.sendToOrQueue cfg tag hasPath visit queued pathAllowed allowed now
  | .hookedDNSMessage query allowed now => s.handleHookedDNSMessage cfg query allowed now
  | .handleTraffic router now => some (s.handleTraffic router now)
  | .flush dsts => (s.flush dsts).map fun _ => s
  | .tick now expired => s.tick now expired
  | .closeExit rxID verified replied => some (s.handleCloseExitMessage rxID verified replied)
  | .updateExit path verified rxID handler =>
    some (s.handleUpdateExitMessage path verified rxID handler)

/-! ### What a step can do -/

/-- The router that a conversation is with, if no null pointer is in the way. -/
def convoRouter (tag : PathID) (hasPath : RouterID → Bool)
    (visit : Visit (RouterID × Option SNodeSession)) : Option RouterID :=
  (s.getEndpointWithConvoTag tag hasPath visit).join

/-- The router that an event asks for a session with. -/
def asks : Event → Option RouterID
  | .obtainSNodeSession router allowed _ => if allowed then some router else none
  | .ensurePathTo rid pathAllowed allowed _ =>
    if (rid ∈ s.snodeKeys ∨ pathAllowed) ∧ allowed then some rid else none
  | .sendToOrQueue tag hasPath visit queued pathAllowed allowed _ =>
    (s.convoRouter tag hasPath visit).filter fun rid =>
      !s.activeExits.any (fun entry => entry.1 = rid ∧ queued entry.2) && pathAllowed && allowed
  | .hookedDNSMessage (.snode router isV4) allowed _ =>
    if ¬(isV4 && cfg.useV6) ∧ router ∉ s.snodeKeys ∧ allowed then some router else none
  | _ => none

/-- The router that an event obtains an address for. -/
def obtains : Event → Option RouterID
  | .obtainServiceNodeIP other _ => some other
  | .hookedDNSMessage (.random (some router)) _ _ => some router
  | e => s.asks cfg e

/-- The hop of a request that is granted. -/
def granted : Option Hop :=
  if request.wantInternet && !cfg.permitExit then none else request.handler

/-- The identity that an event requests an address for. -/
def requests : Event → Option PubKey
  | .allocateNewExit request _ =>
    if (granted cfg request).isSome then some request.pk else none
  | e => (s.obtains cfg e).filter (· ≠ cfg.us)

variable {cfg : Config} {s t : ExitEndpoint} {e : Event}

/-- Addresses have nothing to do with sessions. -/
theorem getIPForIdent_frame (cfg : Config) (s : ExitEndpoint) (pk : PubKey) (now : ℕ) :
    (s.getIPForIdent cfg pk now).2.snodeSessions = s.snodeSessions ∧
      (s.getIPForIdent cfg pk now).2.snodeKeys = s.snodeKeys := by
  have allocates : (s.allocateNewAddress cfg).2.snodeSessions = s.snodeSessions ∧
      (s.allocateNewAddress cfg).2.snodeKeys = s.snodeKeys := by
    rw [allocateNewAddress]
    split_ifs
    · exact ⟨rfl, rfl⟩
    · exact ⟨rfl, rfl⟩
  rw [getIPForIdent]
  split
  · exact ⟨rfl, rfl⟩
  · dsimp only
    split_ifs
    · exact allocates
    · exact allocates
    · exact allocates

theorem obtainServiceNodeIP_own (now : ℕ) :
    s.obtainServiceNodeIP cfg cfg.us now = (cfg.ifAddr, s) :=
  if_pos rfl

theorem obtainServiceNodeIP_known (foreign : other ≠ cfg.us) (known : other ∈ s.snodeKeys)
    (now : ℕ) : s.obtainServiceNodeIP cfg other now = s.getIPForIdent cfg other now := by
  obtain ⟨-, keys⟩ := getIPForIdent_frame cfg s other now
  rw [obtainServiceNodeIP, if_neg foreign]
  dsimp only
  rw [if_pos (keys ▸ known)]

/-- A session is made for a key that is not known. -/
theorem obtainServiceNodeIP_new (foreign : other ≠ cfg.us) (unknown : other ∉ s.snodeKeys)
    (now : ℕ) :
    s.obtainServiceNodeIP cfg other now =
      ((s.getIPForIdent cfg other now).1,
        { (s.getIPForIdent cfg other now).2 with
          snodeKeys := insert other s.snodeKeys
          snodeSessions := s.snodeSessions.insert other
            (some ⟨(s.getIPForIdent cfg other now).1, now⟩) }) := by
  obtain ⟨sessions, keys⟩ := getIPForIdent_frame cfg s other now
  rw [obtainServiceNodeIP, if_neg foreign]
  dsimp only
  rw [if_neg (keys ▸ unknown), sessions, keys]

theorem obtainServiceNodeIP_sessions_known (known : other ∈ s.snodeKeys) (now : ℕ) :
    (s.obtainServiceNodeIP cfg other now).2.snodeSessions = s.snodeSessions := by
  by_cases own : other = cfg.us
  · rw [own, obtainServiceNodeIP_own]
  · rw [obtainServiceNodeIP_known own known]
    exact (getIPForIdent_frame cfg s other now).1

theorem mem_addExit {request : ExitRequest} {handler : Hop} {ip : IPv6}
    {entry : PubKey × Endpoint} :
    entry ∈ (s.addExit request handler ip).activeExits ↔
      entry = (request.pk, ⟨request.pk, some handler, ip, !request.wantInternet⟩) ∨
        entry ∈ s.activeExits := by
  show entry ∈ s.activeExits.take request.place ++ _ :: s.activeExits.drop request.place ↔ _
  rw [List.mem_append, List.mem_cons, or_left_comm, ← List.mem_append, List.take_append_drop]

/-- Nothing but the path of an exit is set. -/
theorem mem_replaceF_setPath {exits : List (PubKey × Endpoint)} {pk : PubKey}
    {handler : Option Hop} {entry : PubKey × Endpoint}
    (member : entry ∈ exits.replaceF (setPath pk handler)) :
    ∃ old ∈ exits, ∃ path, entry = (old.1, { old.2 with currentPath := path }) := by
  induction exits with
  | nil => cases member
  | cons first exits ih =>
    by_cases here : first.1 = pk
    · rw [List.replaceF_cons, setPath, if_pos here] at member
      rcases List.mem_cons.mp member with rfl | later
      · exact ⟨first, List.mem_cons_self, handler, rfl⟩
      · exact ⟨entry, List.mem_cons_of_mem _ later, entry.2.currentPath, rfl⟩
    · rw [List.replaceF_cons, setPath, if_neg here] at member
      rcases List.mem_cons.mp member with rfl | later
      · exact ⟨entry, List.mem_cons_self, entry.2.currentPath, rfl⟩
      · obtain ⟨old, present, same⟩ := ih later
        exact ⟨old, List.mem_cons_of_mem _ present, same⟩

theorem allocateNewExit_eq (s : ExitEndpoint) (request : ExitRequest) (now : ℕ) :
    (s.allocateNewExit cfg request now).2 =
      match granted cfg request with
      | none => s
      | some handler =>
        (s.getIPForIdent cfg request.pk now).2.addExit request handler
          (s.getIPForIdent cfg request.pk now).1 := by
  rw [allocateNewExit, granted]
  by_cases refused : (request.wantInternet && !cfg.permitExit) = true
  · rw [if_pos refused, if_pos refused]
  · rw [if_neg refused, if_neg refused]
    cases request.handler with
    | none => rfl
    | some handler => rfl

theorem requests_eq_filter (obtained : s.obtains cfg e = some other) :
    s.requests cfg e = (some other).filter (· ≠ cfg.us) := by
  have filtered : (s.obtains cfg e).filter (· ≠ cfg.us) = (some other).filter (· ≠ cfg.us) := by
    rw [obtained]
  cases e with
  | allocateNewExit request now => cases obtained
  | _ => exact filtered

/-- What a step can do. -/
inductive Moved (cfg : Config) (s : ExitEndpoint) : Event → ExitEndpoint → Prop
  | stays {e : Event} (quiet : s.requests cfg e = none) : Moved cfg s e s
  | marks {e : Event} {pk : PubKey} (now : ℕ) (asked : s.requests cfg e = some pk) :
      Moved cfg s e (s.getIPForIdent cfg pk now).2
  | connects {e : Event} {pk : PubKey} (now : ℕ) (asked : s.requests cfg e = some pk) :
      Moved cfg s e
        { (s.getIPForIdent cfg pk now).2 with
          snodeKeys := insert pk s.snodeKeys
          snodeSessions := s.snodeSessions.insert pk
            (some ⟨(s.getIPForIdent cfg pk now).1, now⟩) }
  | allocates {request : ExitRequest} {handler : Hop} (now : ℕ)
      (grants : granted cfg request = some handler)
      (asked : s.requests cfg (.allocateNewExit request now) = some request.pk) :
      Moved cfg s (.allocateNewExit request now)
        ((s.getIPForIdent cfg request.pk now).2.addExit request handler
          (s.getIPForIdent cfg request.pk now).1)
  | hears {router : RouterID} {session : SNodeSession} (now : ℕ)
      (found : s.snodeSessions[router]? = some (some session)) :
      Moved cfg s (.handleTraffic router now)
        { s with snodeSessions :=
            s.snodeSessions.insert router (some { session with lastUse := now }) }
  | ticks (now : ℕ) (expired : Hop → Bool) :
      Moved cfg s (.tick now expired)
        (eraseExits
          { s with
            snodeSessions := s.snodeSessions.filter fun _ session =>
              !(session.any (·.isExpired now)) }
          fun entry => entry.2.isExpired expired)
  | closes (rxID : PathID) (verified replied : Bool) {same : PubKey × Endpoint → Bool}
      {entry : PubKey × Endpoint} (found : s.activeExits.find? same = some entry)
      (alike : ∀ x, same x = true → x.2.currentPath = entry.2.currentPath) :
      Moved cfg s (.closeExit rxID verified replied)
        { s with
          activeExits := s.activeExits.eraseP same
          paths := delEndpointInfo s.paths entry.2 }
  | updates {path rxID : PathID} {ep : Endpoint} (handler : Option Hop)
      (found : s.findEndpointByPath path = some ep) (unused : rxID ∉ s.paths) :
      Moved cfg s (.updateExit path true rxID handler)
        { s with
          paths := s.paths.insert rxID ep.pubKey
          activeExits := s.activeExits.replaceF (setPath ep.pubKey handler) }

theorem moved_of_obtains (obtained : s.obtains cfg e = some other) (now : ℕ) :
    Moved cfg s e (s.obtainServiceNodeIP cfg other now).2 := by
  have requested := requests_eq_filter obtained
  rw [Option.filter_some] at requested
  by_cases own : other = cfg.us
  · rw [if_neg (by simp [own])] at requested
    rw [own, obtainServiceNodeIP_own]
    exact .stays requested
  · rw [if_pos (decide_eq_true own)] at requested
    by_cases known : other ∈ s.snodeKeys
    · rw [obtainServiceNodeIP_known own known]
      exact .marks now requested
    · rw [obtainServiceNodeIP_new own known]
      exact .connects now requested

theorem moved_of_obtainSNodeSession {router : RouterID} {allowed : Bool} {now : ℕ}
    (obtained : s.obtainSNodeSession cfg router allowed now = some t)
    (asked : allowed = true → s.obtains cfg e = some router)
    (silent : allowed = false → s.requests cfg e = none) : Moved cfg s e t := by
  rw [obtainSNodeSession] at obtained
  split_ifs at obtained with forbidden
  · cases obtained
    rw [Bool.not_eq_true'] at forbidden
    exact .stays (silent forbidden)
  · rw [Bool.not_eq_true', Bool.not_eq_false] at forbidden
    dsimp only at obtained
    split at obtained
    · cases obtained
      exact moved_of_obtains (asked forbidden) now
    · cases obtained

theorem moved_of_step (steps : step cfg s e = some t) : Moved cfg s e t := by
  -- an event that asks for nothing requests nothing
  have unasked {c : Prop} [Decidable c] {router : RouterID} (not : ¬c) :
      (if c then some router else none).filter (· ≠ cfg.us) = none := by
    rw [if_neg not]
    rfl
  cases e with
  | allocateNewExit request now =>
    cases steps
    rw [allocateNewExit_eq]
    cases grants : granted cfg request with
    | none => exact .stays (if_neg (by rw [grants]; exact Bool.false_ne_true))
    | some handler => exact .allocates now grants (if_pos (by rw [grants]; rfl))
  | obtainServiceNodeIP other now =>
    cases steps
    exact moved_of_obtains rfl now
  | obtainSNodeSession router allowed now =>
    exact moved_of_obtainSNodeSession steps (fun asked => if_pos asked)
      fun refused => unasked (refused ▸ Bool.false_ne_true)
  | ensurePathTo rid pathAllowed allowed now =>
    rw [step, ensurePathTo] at steps
    split_ifs at steps with here
    · exact moved_of_obtainSNodeSession steps (fun asked => if_pos ⟨here, asked⟩)
        fun refused => unasked fun both => Bool.false_ne_true (refused.symm.trans both.2)
    · obtain ⟨-, -, rfl⟩ := Option.map_eq_some_iff.mp steps
      exact .stays (unasked fun both => here both.1)
  | sendToOrQueue tag hasPath visit queued pathAllowed allowed now =>
    obtain ⟨router, found, sent⟩ := Option.bind_eq_some_iff.mp steps
    have convo : s.convoRouter tag hasPath visit = router := by rw [convoRouter, found]; rfl
    have asks : s.asks cfg (.sendToOrQueue tag hasPath visit queued pathAllowed allowed now) =
        router.filter fun rid =>
          !s.activeExits.any (fun entry => entry.1 = rid ∧ queued entry.2) && pathAllowed &&
            allowed := by
      rw [ExitEndpoint.asks, convo]
    cases router with
    | none =>
      cases sent
      exact .stays (congrArg (Option.filter _) asks)
    | some rid =>
      rw [Option.filter_some] at asks
      dsimp only at sent
      split_ifs at sent with taken forbidden
      · cases sent
        rw [taken] at asks
        exact .stays (congrArg (Option.filter _) asks)
      · cases sent
        obtain rfl := (Bool.not_eq_true' _).mp forbidden
        rw [Bool.and_false] at asks
        exact .stays (congrArg (Option.filter _) asks)
      · rw [Bool.not_eq_true', Bool.not_eq_false] at forbidden
        rw [Bool.not_eq_true] at taken
        obtain rfl := forbidden
        rw [taken] at asks
        refine moved_of_obtainSNodeSession sent (fun asked => ?_) fun refused => ?_
        · obtain rfl := asked
          exact asks
        · obtain rfl := refused
          exact congrArg (Option.filter _) asks
  | hookedDNSMessage query allowed now =>
    cases query with
    | random router =>
      cases router with
      | none =>
        cases steps
        exact .stays rfl
      | some router =>
        cases steps
        exact moved_of_obtains rfl now
    | snode router isV4 =>
      rw [step, handleHookedDNSMessage] at steps
      split_ifs at steps with old known
      · cases steps
        exact .stays (unasked fun all => all.1 old)
      · cases steps
        exact .stays (unasked fun all => all.2.1 known)
      · exact moved_of_obtainSNodeSession steps (fun asked => if_pos ⟨old, known, asked⟩)
          fun refused => unasked fun all => Bool.false_ne_true (refused.symm.trans all.2.2)
    | other =>
      cases steps
      exact .stays rfl
  | handleTraffic router now =>
    cases steps
    rw [handleTraffic]
    split
    · exact .hears now ‹_›
    · exact .stays rfl
  | flush dsts =>
    obtain ⟨-, -, rfl⟩ := Option.map_eq_some_iff.mp steps
    exact .stays rfl
  | tick now expired =>
    rw [step, tick] at steps
    split_ifs at steps
    cases steps
    exact .ticks now expired
  | closeExit rxID verified replied =>
    cases steps
    rw [handleCloseExitMessage]
    split
    · split_ifs
      · rw [removeExit]
        split
        · rename_i entry found
          have closed := List.find?_some found
          refine .closes rxID verified replied found fun x same => ?_
          exact (of_decide_eq_true same).2.trans (of_decide_eq_true closed).2.symm
        · exact .stays rfl
      · exact .stays rfl
    · exact .stays rfl
  | updateExit path verified rxID handler =>
    cases steps
    rw [handleUpdateExitMessage]
    split
    · cases verified with
      | false => exact .stays rfl
      | true =>
        rw [if_neg (by decide), updateLocalPath]
        split_ifs with used
        · exact .stays rfl
        · exact .updates handler ‹_› used
    · exact .stays rfl

/-- An exit endpoint with the range 10.0.0.1/8. -/
def exampleConfig : Config where
  us := ⟨List.replicate 32 1, List.length_replicate⟩
  permitExit := true
  addr := 0xffff0a000001#128
  bits := 104
  bits_le := by decide

def examplePeer : RouterID := ⟨List.replicate 32 2, List.length_replicate⟩

end ExitEndpoint

end Llarp.Exit

import Llarp.Foundation.Maps
import Llarp.Foundation.Run
import Llarp.Service.Info

/-!
# Lookups and outbound contexts

To reach a hidden service an endpoint asks relays for its introduction set. The answer
to a lookup makes an outbound context, or it replaces the introduction set of a context
that exists. Contexts are objects that the map of remote sessions and the pending
lookups share, so a context has a number here.

Which paths exist is a question to the path builder; an event brings the answer along.
Hooks that wait for a path are values of a type `H`; calls of hooks are recorded.
-/

namespace Llarp.Service

open Foundation

/-! ### Outbound contexts -/

structure OutboundContext where
  addr : Address
  location : Key
  currentIntroSet : IntroSet
  remoteIntro : Introduction
  nextIntro : Introduction
  markedBad : Bool
  updatingIntroSet : Bool
  sentIntro : Bool
  lookupFails : UInt16
  lastIntrosetUpdateAt : ℕ
  /-- the addresses whose hooks are informed when the context is ready -/
  readyHooks : List Address
  deriving DecidableEq, Repr

namespace OutboundContext

/-- A context starts with a random introduction of a set that must not be empty. -/
def create (dir : Directory) (introset : IntroSet) (pick : ℕ) : Option OutboundContext :=
  introset.intros[pick % introset.intros.length]?.map fun first =>
    { addr := introset.addressKeys.addr
      location := introset.addressKeys.addr.toKey dir
      currentIntroSet := introset
      remoteIntro := .empty
      nextIntro := first
      markedBad := false
      updatingIntroSet := false
      sentIntro := false
      lookupFails := 0
      lastIntrosetUpdateAt := 0
      readyHooks := [] }

variable (c : OutboundContext) (now : ℕ)

def readyToSend (hasPath : RouterID → Bool) : Bool :=
  !c.markedBad && !c.remoteIntro.router.isZero && c.sentIntro && hasPath c.remoteIntro.router

/-- Pick the introduction that expires last and is not at router `r`. -/
def shiftIntroRouter (r : RouterID) : OutboundContext :=
  let selected := c.currentIntroSet.intros.foldl
    (fun selected intro =>
      if selected.expiresAt < intro.expiresAt ∧ intro.router ≠ r then intro else selected)
    Introduction.empty
  if selected.router.isZero || selected.expiresSoon now then c
  else { c with nextIntro := selected }

def swapIntros : OutboundContext :=
  if c.remoteIntro = c.nextIntro then c
  else { c with remoteIntro := c.nextIntro }.shiftIntroRouter now c.nextIntro.router

/-- The result of a lookup arrives. The truth value says whether the introduction set was
replaced. -/
def onIntroSetUpdate (foundIntro : Option IntroSet) (relayOrder : ℕ) : OutboundContext × Bool :=
  if c.markedBad then (c, false)
  else
    let updated := { c with updatingIntroSet := false }
    match foundIntro with
    | some introset =>
      if introset.timestampSignedAt = 0 then (updated, false)
      else if introset.timestampSignedAt < c.currentIntroSet.timestampSignedAt then (updated, false)
      else if introset.isExpired now then (updated, false)
      else ({ updated with currentIntroSet := introset }.shiftIntroRouter now (.zero 32), true)
    | none =>
      if 0 < relayOrder then ({ updated with lookupFails := c.lookupFails + 1 }, false)
      else (updated, false)

end OutboundContext

/-! ### Lookups -/

/-- Who gets the result of a lookup. -/
inductive LookupHandler where
  | onLookup
  /-- the context with this number -/
  | onIntroSetUpdate (h : ℕ)
  deriving DecidableEq, Repr

structure HiddenServiceAddressLookup where
  rootkey : PubKey
  location : Key
  relayOrder : ℕ
  handle : LookupHandler
  deriving DecidableEq, Repr

inductive LookupKind where
  | address (job : HiddenServiceAddressLookup)
  /-- a publication or a name lookup, which share the transaction ids -/
  | other
  deriving DecidableEq, Repr

structure ServiceLookup where
  kind : LookupKind
  created : ℕ
  timeout : ℕ
  deriving DecidableEq, Repr

def ServiceLookup.isTimedOut (lookup : ServiceLookup) (now : ℕ) : Bool :=
  lookup.created + lookup.timeout ≤ now

def ServiceLookup.isFor (lookup : ServiceLookup) (addr : Address) : Bool :=
  match lookup.kind with
  | .address job => job.rootkey = addr
  | .other => false

/-- An introduction set together with the encrypted one that it was read from. -/
structure Found where
  introset : IntroSet
  source : EncryptedIntroSet
  deriving DecidableEq, Repr

/-- What a lookup makes of the introduction sets of a reply: the newest one counts, if it
can be read. -/
def HiddenServiceAddressLookup.answer (dir : Directory) (job : HiddenServiceAddressLookup)
    (results : List EncryptedIntroSet) : Option Found :=
  if results.isEmpty then none
  else
    let selected := EncryptedIntroSet.newest results
    (selected.maybeDecrypt dir job.rootkey).map fun introset => ⟨introset, selected⟩

/-- A lookup for address `target` made an endpoint use an introduction set. -/
structure Adoption where
  target : Address
  found : Found
  deriving DecidableEq, Repr

/-! ### The outbound side of an endpoint -/

structure Outbound (H : Type) where
  now : ℕ
  outboundSessions : List Address
  pendingLookups : Std.ExtTreeMap UInt64 ServiceLookup
  /-- when each address was last looked up -/
  lookupFilter : List (Address × ℕ)
  /-- every context that was ever made, by its number -/
  contexts : List OutboundContext
  remoteSessions : List (Address × ℕ)
  pendingServiceLookups : List (Address × H)
  /-- the calls of hooks, with the context they got -/
  informed : List (H × Address × Option ℕ)
  /-- which introduction sets were taken, in order -/
  adoptions : List Adoption

namespace Outbound

variable {H : Type}

def empty (now : ℕ) : Outbound H where
  now := now
  outboundSessions := []
  pendingLookups := ∅
  lookupFilter := []
  contexts := []
  remoteSessions := []
  pendingServiceLookups := []
  informed := []
  adoptions := []

variable (dir : Directory) (s : Outbound H) (hasPath : RouterID → Bool) (pick : ℕ) (addr : Address)

def markAddressOutbound : Outbound H :=
  { s with outboundSessions := addr :: s.outboundSessions }

def wantsOutboundSession : Bool := s.outboundSessions.contains addr

/-- Call every hook that waits for a path to the service. -/
def informPathToService (remote : Address) (ctx : Option ℕ) : Outbound H :=
  { s with
    informed := s.informed ++
      (s.pendingServiceLookups.filter (·.1 = remote)).map fun hook => (hook.2, remote, ctx)
    pendingServiceLookups := s.pendingServiceLookups.filter (·.1 ≠ remote) }

/-- Change one context. -/
def modify (s : Outbound H) (h : ℕ) (f : OutboundContext → OutboundContext) : Outbound H :=
  { s with contexts := s.contexts.modify h f }

/-- Whether a context exists and can send. -/
def isReady (h : ℕ) : Bool :=
  (s.contexts[h]?).any (·.readyToSend hasPath)

/-! ### Starting lookups -/

/-- Count up from a random number to one that no pending lookup has. There is one among
the first `fuel` numbers if there are fewer pending lookups. -/
def freeTXID (s : Outbound H) : (fuel : ℕ) → UInt64 → UInt64
  | 0, txid => txid
  | fuel + 1, txid => if txid ∈ s.pendingLookups then s.freeTXID fuel (txid + 1) else txid

def genTXID (random : UInt64) : UInt64 :=
  s.freeTXID (s.pendingLookups.size + 1) random

def putLookup (random : UInt64) (kind : LookupKind) (timeout : ℕ) : Outbound H :=
  { s with
    pendingLookups := s.pendingLookups.insertIfNew (s.genTXID random) ⟨kind, s.now, timeout⟩ }

/-- A request to a relay: the latency of the path to it, and the random number for its
transaction id. -/
structure Request where
  latency : ℕ
  random : UInt64
  deriving DecidableEq, Repr

def introsetLookupGraceInterval : ℕ := 20000
def introsetUpdateInterval : ℕ := 10000

/-- Send requests with increasing relay order. -/
def putLookups (rootkey : PubKey) (location : Key) (handle : LookupHandler) (timeout : ℕ)
    (requests : List Request) : Outbound H :=
  requests.zipIdx.foldl
    (fun s request =>
      s.putLookup request.1.random (.address ⟨rootkey, location, request.2, handle⟩)
        (timeout + 2 * request.1.latency + introsetLookupGraceInterval)) s

/-- Look a service up, unless it is ready or was looked up a moment ago. -/
def ensurePathToService (remote : Address) (hook : H) (timeout : ℕ) (requests : List Request) :
    Outbound H :=
  if s.wantsOutboundSession remote then
    let waiting := { s with pendingServiceLookups := s.pendingServiceLookups ++ [(remote, hook)] }
    match s.remoteSessions.find? fun entry => entry.1 = remote ∧ s.isReady hasPath entry.2 with
    | some entry => waiting.informPathToService remote (some entry.2)
    | none =>
      if s.lookupFilter.any (·.1 = remote) then waiting
      else
        { waiting with lookupFilter := s.lookupFilter ++ [(remote, s.now)] }.putLookups remote
          (remote.toKey dir) .onLookup timeout requests
  else { s with informed := s.informed ++ [(hook, remote, none)] }

/-- Look up the introduction set of a context again. -/
def updateIntroSet (h : ℕ) (requests : List Request) : Outbound H :=
  match s.contexts[h]? with
  | none => s
  | some c =>
    if c.updatingIntroSet || c.markedBad || s.now < c.lastIntrosetUpdateAt + introsetUpdateInterval
    then s
    else
      (s.modify h fun c =>
        { c with
          lastIntrosetUpdateAt := s.now
          updatingIntroSet := !requests.isEmpty }).putLookups c.addr c.location
        (.onIntroSetUpdate h) (introsetUpdateInterval / 2) requests

/-! ### Results of lookups -/

/-- Give the result of a lookup for `target` to a context. -/
def onIntroSetUpdate (s : Outbound H) (h : ℕ) (target : Address) (found : Option Found)
    (relayOrder : ℕ) : Outbound H :=
  match s.contexts[h]? with
  | none => s
  | some c =>
    let updated := c.onIntroSetUpdate s.now (found.map (·.introset)) relayOrder
    { s with
      contexts := s.contexts.set h updated.1
      adoptions := s.adoptions ++
        if updated.2 then (found.map fun f => ⟨target, f⟩).toList else [] }

/-- One context of those that `OnLookup` tells about an introduction set. -/
def tell (f : Found) (s : Outbound H) (entry : Address × ℕ) : Outbound H :=
  let told := s.onIntroSetUpdate entry.2 addr (some f) 0
  if told.isReady hasPath entry.2 && !f.introset.isExpired s.now then
    told.informPathToService addr (some entry.2)
  else told

def addReadyHook (s : Outbound H) (entry : Address × ℕ) : Outbound H :=
  if s.isReady hasPath entry.2 then s.informPathToService addr (some entry.2)
  else s.modify entry.2 fun c => { c with readyHooks := c.readyHooks ++ [addr] }

/-- Call the ready hooks of a context and forget them. -/
def callReadyHooks (h : ℕ) (ctx : Option ℕ) : Outbound H :=
  match s.contexts[h]? with
  | none => s
  | some c =>
    c.readyHooks.foldl (fun s addr => s.informPathToService addr ctx)
      (s.modify h fun c => { c with readyHooks := [] })

/-- At most one context is made for each address. -/
def putNewOutboundContext (target : Address) (f : Found) : Option (Outbound H) :=
  let addr := f.introset.addressKeys.addr
  let created :=
    if s.remoteSessions.any (·.1 = addr) then some s
    else
      (OutboundContext.create dir f.introset pick).map fun c =>
        { s with
          contexts := s.contexts ++ [c]
          remoteSessions := s.remoteSessions ++ [(addr, s.contexts.length)]
          adoptions := s.adoptions ++ [⟨target, f⟩] }
  created.map fun t => (t.remoteSessions.filter (·.1 = addr)).foldl (addReadyHook hasPath addr) t

/-- When no other lookup for the address is pending, its hooks learn that it failed. -/
def lookupFailed : Outbound H :=
  if s.pendingLookups.toList.any (·.2.isFor addr) then s else s.informPathToService addr none

def onLookup (found : Option Found) : Option (Outbound H) :=
  match found with
  | none => some (s.lookupFailed addr)
  | some f =>
    let told := (s.remoteSessions.filter (·.1 = addr)).foldl (tell hasPath addr f) s
    if f.introset.isExpired s.now then some (told.lookupFailed addr)
    else if told.remoteSessions.any (·.1 = addr) then some told
    else told.putNewOutboundContext dir hasPath pick addr f

def handleIntrosetResponse (s : Outbound H) (lookup : ServiceLookup)
    (results : List EncryptedIntroSet) : Option (Outbound H) :=
  match lookup.kind with
  | .other => some s
  | .address job =>
    match job.handle with
    | .onLookup => s.onLookup dir hasPath pick job.rootkey (job.answer dir results)
    | .onIntroSetUpdate h =>
      some (s.onIntroSetUpdate h job.rootkey (job.answer dir results) job.relayOrder)

/-- A reply with one introduction set that does not verify is dropped as a whole. -/
def handleGotIntroMessage (txid : UInt64) (found : List EncryptedIntroSet) : Option (Outbound H) :=
  if found.all (·.verify dir s.now) then
    match s.pendingLookups[txid]? with
    | none => some s
    | some lookup =>
      { s with pendingLookups := s.pendingLookups.erase txid }.handleIntrosetResponse dir hasPath
        pick lookup (EncryptedIntroSet.collect found)
  else some s

/-- Lookups that time out get an empty result, after all of them were removed. -/
def expirePendingTx : Option (Outbound H) :=
  let timedOut := s.pendingLookups.toList.filter (·.2.isTimedOut s.now)
  timedOut.foldlM (fun s entry => s.handleIntrosetResponse dir hasPath 0 entry.2 [])
    { s with pendingLookups := s.pendingLookups.filter fun _ lookup => !lookup.isTimedOut s.now }

/-! ### Steps -/

inductive Event (H : Type) where
  | wait (duration : ℕ)
  | markAddressOutbound (addr : Address)
  | ensurePathToService (remote : Address) (hook : H) (timeout : ℕ) (requests : List Request)
    (hasPath : RouterID → Bool)
  | updateIntroSet (h : ℕ) (requests : List Request)
  /-- a publication or a name lookup starts -/
  | putOther (random : UInt64) (timeout : ℕ)
  | gotIntro (txid : UInt64) (found : List EncryptedIntroSet) (hasPath : RouterID → Bool) (pick : ℕ)
  | tick (hasPath : RouterID → Bool)
  | swapIntros (h : ℕ)
  /-- the context picks another introduction of its set -/
  | shiftIntroduction (h index : ℕ)
  | sentIntro (h : ℕ)
  | markBad (h : ℕ)
  /-- a pump calls the ready hooks of a context that is ready -/
  | pumpReadyHooks (h : ℕ) (hasPath : RouterID → Bool)
  /-- the ready hooks of a context waited too long -/
  | readyTimeout (h : ℕ)
  /-- a context is removed from the remote sessions -/
  | remove (h : ℕ)

def lookupFilterInterval : ℕ := 5000

def step : Event H → Option (Outbound H)
  | .wait duration => some { s with now := s.now + duration }
  | .markAddressOutbound addr => some (s.markAddressOutbound addr)
  | .ensurePathToService remote hook timeout requests hasPath =>
    some (s.ensurePathToService dir hasPath remote hook timeout requests)
  | .updateIntroSet h requests => some (s.updateIntroSet h requests)
  | .putOther random timeout => some (s.putLookup random .other timeout)
  | .gotIntro txid found hasPath pick => s.handleGotIntroMessage dir hasPath pick txid found
  | .tick hasPath =>
    { s with
      lookupFilter := s.lookupFilter.filter fun entry =>
        s.now < lookupFilterInterval + entry.2 }.expirePendingTx dir hasPath
  | .swapIntros h => some (s.modify h (·.swapIntros s.now))
  | .shiftIntroduction h index =>
    some (s.modify h fun c =>
      { c with nextIntro := c.currentIntroSet.intros[index]?.getD c.nextIntro })
  | .sentIntro h => some (s.modify h fun c => { c with sentIntro := true })
  | .markBad h => some (s.modify h fun c => { c with markedBad := true })
  | .pumpReadyHooks h hasPath =>
    some (if s.isReady hasPath h then s.callReadyHooks h (some h) else s)
  | .readyTimeout h => some (s.callReadyHooks h none)
  | .remove h => some { s with remoteSessions := s.remoteSessions.filter (·.2 ≠ h) }

end Outbound

end Llarp.Service

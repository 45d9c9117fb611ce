import Llarp.Dht.TXHolder
import Llarp.Foundation.Selection

/-!
# Looking up routers

A router is looked up for three kinds of askers: a local handler (`LookupRouter`, on behalf of
`GetRC`), another router (`LookupRouterRecursive`) and the client of a path
(`LookupRouterForPath`). The replies come as `GotRouterMessage`s, and the contacts in them go
through `TXHolder` to all the transactions that wait for the key of the first contact.

The contacts that a lookup hands out are collected in `delivered`. A lookup hands out what its
`SendReply` selects among the contacts of the reply that verify. `SendReply` does not look at
the keys of the contacts, so it may select a contact of another router than the target.
-/

namespace Llarp

open Foundation

/-- The part of a router contact that lookups read. -/
structure RouterContact where
  pubkey : PubKey
  lastUpdated : ℤ
  signature : Signature
  deriving DecidableEq, Repr

namespace RouterContact

/-- A default-constructed contact. -/
def empty : RouterContact := ⟨AlignedBuffer.zero 32, 0, AlignedBuffer.zero 64⟩

def otherIsNewer (rc other : RouterContact) : Bool := rc.lastUpdated < other.lastUpdated

end RouterContact

namespace Dht

/-- The two classes of router lookups. A recursive lookup may have a result handler, which is
then the one that `GetRC` made for the target. -/
inductive RouterJob where
  | recursive (resultHandler : Bool)
  | forPath (localPath : PathID)
  deriving DecidableEq, Repr

abbrev RouterTX := TX RouterID RouterContact RouterJob

/-- What lookups ask of the router around them: whether a contact verifies (with expired
contacts allowed, so whatever the time), whether sessions to a router are allowed, and whether
a local path is there. -/
structure RouterHost where
  ourKey : Key
  verify : RouterContact → Bool
  sessionIsAllowed : ℕ → RouterID → Bool
  hasPath : ℕ → PathID → Bool

namespace RouterHost

variable (host : RouterHost)

variable (now : ℕ) (valuesFound : List RouterContact)

def checkRC (rc : RouterContact) : Bool :=
  host.sessionIsAllowed now rc.pubkey && host.verify rc

def validate (_ : ℕ) (_ : RouterJob) (rc : RouterContact) : Bool := host.verify rc

/-- The reply of a recursive lookup: the newest contact that passes, or a default-constructed
one if none does. -/
def newestFound : List RouterContact :=
  if valuesFound.isEmpty then []
  else
    [valuesFound.foldl
      (fun found rc => if found.otherIsNewer rc && host.checkRC now rc then rc else found) .empty]

/-- The reply of a lookup for a path. It compares the other way round. -/
def foundForPath : List RouterContact :=
  if valuesFound.isEmpty then []
  else
    let found := valuesFound.foldl
      (fun found rc => if rc.otherIsNewer found then rc else found) RouterContact.empty
    if found.pubkey.isZero then [] else [found]

/-- It selects the first of the oldest contacts, if that is older than a default-constructed one. -/
theorem foundForPath_eq :
    foundForPath valuesFound =
      let found := firstBest (fun _ => true) (fun rc => -rc.lastUpdated) .empty valuesFound
      if found.pubkey.isZero then [] else [found] := by
  have compares : (fun found rc : RouterContact => if rc.otherIsNewer found then rc else found) =
      fun found rc => if -found.lastUpdated < -rc.lastUpdated && true then rc else found := by
    funext found rc
    simp [RouterContact.otherIsNewer]
  rw [foundForPath, compares]
  cases valuesFound with
  | nil => rfl
  | cons rc rest => rfl

end RouterHost

inductive RCRequestResult where
  | success
  | invalidRouter
  | routerNotFound
  | badRC
  deriving DecidableEq, Repr

/-- Who is handed the contacts that a lookup found. -/
inductive Recipient where
  | resultHandler
  | asker (whoasked : TXOwner)
  | path (localPath : PathID) (txid : UInt64)
  | callback (id : ℕ) (result : RCRequestResult)
  deriving DecidableEq, Repr

structure Delivery where
  target : RouterID
  recipient : Recipient
  contacts : List RouterContact
  deriving DecidableEq, Repr

/-- The router lookups and the callbacks of `GetRC` that wait for one. -/
structure RouterLookups where
  pending : TXHolder RouterID RouterContact RouterJob := {}
  ids : UInt64 := 0
  pendingCallbacks : Std.ExtTreeMap RouterID (List ℕ) := ∅
  delivered : List Delivery := []

/-- The calls and messages that reach the lookups. A lookup may be made by a handler while a
loop runs; `rehash` and `inside` are as in `Call.newTX`. For `GetRC`, `known` is the entry of
the node database, if it may be used, and `closest` the peer to ask. -/
inductive RouterEvent where
  | getRC (router : RouterID) (callback : ℕ) (known : Option RouterContact)
      (closest : Option Key) (rehash inside : Bool)
  | lookupRouterRecursive (target : RouterID) (whoasked : TXOwner) (askpeer : Key)
      (rehash inside : Bool)
  | lookupRouterForPath (target : RouterID) (txid : UInt64) (path : PathID) (askpeer : Key)
      (rehash inside : Bool)
  | gotRouterMessage (peer : Key) (txid : UInt64) (foundRCs : List RouterContact)
  | expire
  | next
  | tick (ms : ℕ)

namespace RouterLookups

variable (host : RouterHost)

variable (s : RouterLookups) (target : RouterID)

def deliver (recipient : Recipient) (contacts : List RouterContact) : RouterLookups :=
  { s with delivered := s.delivered ++ [⟨target, recipient, contacts⟩] }

/-- Call the callbacks that wait for a router. -/
def finalizeRequest (router : RouterID) (rc : Option RouterContact) (result : RCRequestResult) :
    RouterLookups :=
  { s with
    pendingCallbacks := s.pendingCallbacks.erase router
    delivered := s.delivered ++ (s.pendingCallbacks[router]?.getD []).map fun id =>
      ⟨router, .callback id result, rc.toList⟩ }

def handleDHTLookupResult (now : ℕ) (s : RouterLookups) (remote : RouterID) :
    List RouterContact → RouterLookups
  | [] => s.finalizeRequest remote none .routerNotFound
  | rc :: _ =>
    if !host.sessionIsAllowed now remote then s.finalizeRequest remote (some rc) .invalidRouter
    else if !host.checkRC now rc then s.finalizeRequest remote (some rc) .badRC
    else s.finalizeRequest remote (some rc) .success

def sendReply (now : ℕ) (s : RouterLookups) (t : RouterTX) : RouterLookups :=
  match t.job with
  | .recursive resultHandler =>
    let found := host.newestFound now t.valuesFound
    let handled :=
      if resultHandler then
        handleDHTLookupResult host now (s.deliver t.target .resultHandler found) t.target found
      else s
    if t.whoasked.node ≠ host.ourKey then handled.deliver t.target (.asker t.whoasked) found
    else handled
  | .forPath localPath =>
    if host.hasPath now localPath then
      s.deliver t.target (.path localPath t.whoasked.txid)
        (RouterHost.foundForPath t.valuesFound)
    else s

/-- What the holder does to the world. Starting a transaction only sends a `FindRouterMessage`. -/
def carryOut : Effect RouterID RouterContact RouterJob → RouterLookups
  | .replied _ t now => sendReply host now s t
  | _ => s

/-- Pass a call to the holder and carry out what it does. -/
def perform (c : Call RouterID RouterContact RouterJob) : Option RouterLookups :=
  (s.pending.step host.validate c).map fun pending =>
    (pending.log.drop s.pending.log.length).foldl (carryOut host) { s with pending }

def lookupRouterRecursive (whoasked : TXOwner) (askpeer : Key)
    (resultHandler rehash inside : Bool) : Option RouterLookups :=
  let ids := s.ids + 1
  perform host { s with ids }
    (.newTX ⟨askpeer, ids⟩ ⟨target, whoasked, .recursive resultHandler, []⟩ 15000 rehash inside)

def lookupRouterForPath (txid : UInt64) (path : PathID) (askpeer : Key) (rehash inside : Bool) :
    Option RouterLookups :=
  let ids := s.ids + 1
  perform host { s with ids }
    (.newTX ⟨askpeer, ids⟩ ⟨target, ⟨host.ourKey, txid⟩, .forPath path, []⟩ 15000 rehash inside)

/-- Only the first request for a router starts a lookup. An entry of the node database answers
all the requests for the router at once. -/
def getRC (router : RouterID) (callback : ℕ) (known : Option RouterContact) (closest : Option Key)
    (rehash inside : Bool) : Option RouterLookups :=
  match known with
  | some _ => some { s with pendingCallbacks := s.pendingCallbacks.erase router }
  | none =>
    let shouldDoLookup := !s.pendingCallbacks.contains router
    let queued : RouterLookups :=
      { s with
        pendingCallbacks :=
          s.pendingCallbacks.insert router (s.pendingCallbacks[router]?.getD [] ++ [callback]) }
    if shouldDoLookup then
      match closest with
      | some askpeer =>
        queued.lookupRouterRecursive host router ⟨host.ourKey, 0⟩ askpeer true rehash inside
      | none => some (queued.finalizeRequest router none .routerNotFound)
    else some queued

/-- A reply is matched by its sender and number. Whom it informs depends on the key of its
first contact. -/
def gotRouterMessage (peer : Key) (txid : UInt64) (foundRCs : List RouterContact) :
    Option RouterLookups :=
  if s.pending.hasPendingLookupFrom ⟨peer, txid⟩ then
    match foundRCs with
    | [] => perform host s (.notFound ⟨peer, txid⟩)
    | rc :: _ => if rc.pubkey.isZero then some s else perform host s (.found rc.pubkey foundRCs)
  else some s

def step : RouterEvent → Option RouterLookups
  | .getRC router callback known closest rehash inside =>
    s.getRC host router callback known closest rehash inside
  | .lookupRouterRecursive target whoasked askpeer rehash inside =>
    s.lookupRouterRecursive host target whoasked askpeer false rehash inside
  | .lookupRouterForPath target txid path askpeer rehash inside =>
    s.lookupRouterForPath host target txid path askpeer rehash inside
  | .gotRouterMessage peer txid foundRCs => s.gotRouterMessage host peer txid foundRCs
  | .expire => perform host s .expire
  | .next => perform host s .next
  | .tick ms => perform host s (.tick ms)

end RouterLookups

end Dht

end Llarp

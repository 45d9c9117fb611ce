import Llarp.Dht.Rounds
import Llarp.Service.Info

/-!
# Introsets at a relay

A relay handles four kinds of messages about introsets. `FindIntroMessage` and
`PublishIntroMessage` come either down a path, from a client (they are *relayed*), or from
another relay. The relay passes a relayed request on to the storage router of the given order,
as a transaction of its own, and answers the client when the `GotIntroMessage` of that router
comes or when the transaction times out.

None of the jobs of these transactions calls the holder again, so that `Inform` and `Expire`
are taken as whole rounds.
-/

namespace Llarp.Dht

open Foundation Service

/-- How many routers store an introset. -/
def introSetStorageRedundancy : ℕ := 4

/-- The jobs of the transactions that a relay makes for its clients. -/
inductive IntroJob where
  | localServiceAddressLookup (localPath : PathID) (relayOrder : UInt64) (location : Key)
  | localPublishServiceJob (localPath : PathID) (txid : UInt64) (introset : EncryptedIntroSet)
      (relayOrder : UInt64)
  deriving DecidableEq, Repr

/-- The path whose client asked. -/
def IntroJob.localPath : IntroJob → PathID
  | .localServiceAddressLookup localPath _ _ => localPath
  | .localPublishServiceJob localPath _ _ _ => localPath

abbrev IntroTX := TX TXOwner EncryptedIntroSet IntroJob

/-- The messages between relays. -/
inductive IntroMessage where
  | findIntro (txid : UInt64) (location : Key) (relayOrder : UInt64)
  | publishIntro (introset : EncryptedIntroSet) (txid relayOrder : UInt64)
  | gotIntro (found : List EncryptedIntroSet) (txid : UInt64)
  deriving DecidableEq, Repr

/-- What a relay sends: a message to another relay, on behalf of a path or in reply to one,
or a `GotIntroMessage` down a path. -/
inductive IntroOutput where
  | toPeer (peer : Key) (message : IntroMessage) (behalf : Option PathID)
  | toPath (path : PathID) (found : List EncryptedIntroSet) (txid : UInt64)
  deriving DecidableEq, Repr

/-- The path that an output is for. -/
def IntroOutput.path : IntroOutput → Option PathID
  | .toPeer _ _ behalf => behalf
  | .toPath path _ _ => some path

/-- The surroundings of a relay: its key, the routers that it knows, the crypto library, and
whether a path is there. -/
structure IntroHost where
  ourKey : Key
  entries : List Key
  dir : Directory
  hasPath : ℕ → PathID → Bool

namespace IntroHost

variable (host : IntroHost)

/-- Whether an introset verifies at a time. -/
def verify (now : ℕ) (introset : EncryptedIntroSet) : Bool := introset.verify host.dir now

/-- The routers that store an introset, the closest first. -/
def closestRCs (location : Key) : List Key :=
  findManyClosestTo host.entries location introSetStorageRedundancy

def validate (now : ℕ) : IntroJob → EncryptedIntroSet → Bool
  | .localServiceAddressLookup _ _ location, value =>
    host.verify now value && value.derivedSigningKey = location
  | .localPublishServiceJob _ _ introset _, value =>
    value.derivedSigningKey = introset.derivedSigningKey && host.verify now value

/-- The reply of a lookup has the newest introset, if one was found. -/
def newestIntroSet (valuesFound : List EncryptedIntroSet) : List EncryptedIntroSet :=
  if valuesFound.isEmpty then [] else [EncryptedIntroSet.newest valuesFound]

/-- Send a reply down a path, if the path is still there. -/
def replyTo (now : ℕ) (path : PathID) (found : List EncryptedIntroSet) (txid : UInt64) :
    List IntroOutput :=
  if host.hasPath now path then [.toPath path found txid] else []

/-- What the relay sends when a transaction is started, and when it replies. -/
def outputs : Effect TXOwner EncryptedIntroSet IntroJob → List IntroOutput
  | .created _ _ => []
  | .started askpeer t =>
    match t.job with
    | .localServiceAddressLookup localPath relayOrder location =>
      [.toPeer askpeer.node (.findIntro askpeer.txid location relayOrder) (some localPath)]
    | .localPublishServiceJob localPath _ introset relayOrder =>
      [.toPeer askpeer.node (.publishIntro introset askpeer.txid relayOrder) (some localPath)]
  | .replied _ t now =>
    match t.job with
    | .localServiceAddressLookup localPath _ _ =>
      host.replyTo now localPath (newestIntroSet t.valuesFound) t.whoasked.txid
    | .localPublishServiceJob localPath txid introset _ =>
      host.replyTo now localPath [introset] txid

end IntroHost

/-- A relay: its transactions, its counter for them, and the introsets that it stores. -/
structure IntroRelay where
  pending : TXHolder TXOwner EncryptedIntroSet IntroJob := {}
  ids : UInt64
  services : Std.ExtTreeMap Key EncryptedIntroSet := ∅
  sent : List IntroOutput := []

namespace IntroRelay

variable (host : IntroHost)

variable (s : IntroRelay) (peer : Key) (path : PathID) (txid : UInt64)
  (introset : EncryptedIntroSet)

def send (outputs : List IntroOutput) : IntroRelay :=
  { s with sent := s.sent ++ outputs }

/-- Let the holder do something, and send what it makes the transactions send. -/
def update (pending : TXHolder TXOwner EncryptedIntroSet IntroJob) : IntroRelay :=
  { s with
    pending
    sent := s.sent ++ (pending.log.drop s.pending.log.length).flatMap host.outputs }

/-- Make a transaction under the next number. If its owner is still pending, the new
transaction is destroyed and then used. -/
def newTX (s : IntroRelay) (peer : Key) (t : TXOwner → IntroTX) : Option IntroRelay :=
  let ids := s.ids + 1
  let owner : TXOwner := ⟨peer, ids⟩
  if s.pending.hasPendingLookupFrom owner then none
  else some (update host { s with ids } (s.pending.newTX owner (t owner) 15000))

def lookupIntroSetForPath (addr : Key) (txid : UInt64) (path : PathID) (askpeer : Key)
    (relayOrder : UInt64) : Option IntroRelay :=
  let asker : TXOwner := ⟨host.ourKey, txid⟩
  newTX host s askpeer fun _ =>
    ⟨asker, asker, .localServiceAddressLookup path relayOrder addr, []⟩

def propagateLocalIntroSet (tellpeer : Key) (relayOrder : UInt64) : Option IntroRelay :=
  newTX host s tellpeer fun peer =>
    ⟨peer, peer, .localPublishServiceJob path txid introset relayOrder, []⟩

/-- An introset replaces an older one of the same service. -/
def putNode : IntroRelay :=
  match s.services[introset.derivedSigningKey]? with
  | none => { s with services := s.services.insert introset.derivedSigningKey introset }
  | some old =>
    if old.signedAt < introset.signedAt then
      { s with services := s.services.insert introset.derivedSigningKey introset }
    else s

/-! ### Messages of clients -/

/-- A `FindIntroMessage` of the client of a path. Its sender counts as the relay itself. -/
def findIntroForPath (location : Key) (relayOrder : UInt64) (tagged : Bool) : Option IntroRelay :=
  if s.pending.hasPendingLookupFrom ⟨host.ourKey, txid⟩ then some s
  else if tagged then some s
  else if location.isZero then some (s.send (host.replyTo s.pending.now path [] txid))
  else if introSetStorageRedundancy ≤ relayOrder.toNat then
    some (s.send (host.replyTo s.pending.now path [] txid))
  else
    match (host.closestRCs location)[relayOrder.toNat]? with
    | none => some (s.send (host.replyTo s.pending.now path [] txid))
    | some peer => lookupIntroSetForPath host s location txid path peer 0

/-- A `PublishIntroMessage` of the client of a path. -/
def publishIntroForPath (relayOrder : UInt64) : Option IntroRelay :=
  let refused := some (s.send (host.replyTo s.pending.now path [] txid))
  if !host.verify s.pending.now introset then refused
  else if introset.isExpired (s.pending.now + 10000) then refused
  else if (host.closestRCs introset.derivedSigningKey).length ≠ introSetStorageRedundancy then
    refused
  else if introSetStorageRedundancy ≤ relayOrder.toNat then refused
  else
    match (host.closestRCs introset.derivedSigningKey)[relayOrder.toNat]? with
    | none => refused
    | some peer =>
      if peer = host.ourKey then
        some ((s.putNode introset).send (host.replyTo s.pending.now path [introset] txid))
      else propagateLocalIntroSet host s path txid introset peer 0

/-! ### Messages of other relays -/

def findIntro (location : Key) : IntroRelay :=
  if s.pending.hasPendingLookupFrom ⟨peer, txid⟩ then s
  else if location.isZero then s.send [.toPeer peer (.gotIntro [] txid) none]
  else s.send [.toPeer peer (.gotIntro s.services[location]?.toList txid) none]

def publishIntro (txid : UInt64) : IntroRelay :=
  let refused := s.send [.toPeer peer (.gotIntro [] txid) none]
  if !host.verify s.pending.now introset then refused
  else if introset.isExpired (s.pending.now + 10000) then refused
  else if (host.closestRCs introset.derivedSigningKey).length ≠ introSetStorageRedundancy then
    refused
  else if host.ourKey ∈ host.closestRCs introset.derivedSigningKey then
    (s.putNode introset).send [.toPeer peer (.gotIntro [introset] txid) none]
  else s

/-- A reply informs all the transactions with the target of the one that it belongs to. -/
def gotIntro (found : List EncryptedIntroSet) : IntroRelay :=
  if found.all (host.verify s.pending.now) then
    match s.pending.tx[(⟨peer, txid⟩ : TXOwner)]? with
    | none => s
    | some t => update host s (s.pending.informAll host.validate t.target found)
  else s

def handle : IntroMessage → IntroRelay
  | .findIntro txid location _ => s.findIntro peer txid location
  | .publishIntro introset txid _ => s.publishIntro host peer introset txid
  | .gotIntro found txid => s.gotIntro host peer txid found

/-- Retire the transactions whose time is over. -/
def cleanupTX : IntroRelay :=
  update host s (s.pending.expireAll host.validate)

def tick (ms : ℕ) : IntroRelay :=
  { s with pending := { s.pending with now := s.pending.now + ms } }

end IntroRelay

/-- The key with the given first byte. -/
def plainKey (byte : UInt8) : Key := .copy 32 [byte]

/-- A relay for concrete runs: it knows the routers 1 to 5, all signatures are good, and all
paths are there. -/
def plainIntroHost (ourKey : UInt8) : IntroHost where
  ourKey := plainKey ourKey
  entries := [plainKey 1, plainKey 2, plainKey 3, plainKey 4, plainKey 5]
  dir := ⟨fun _ _ _ => true, fun data _ _ => data, fun key => key, fun _ => none⟩
  hasPath _ _ := true

end Llarp.Dht

import Llarp.Dht.IntroRelay

/-!
# Publishing and finding introsets in a network of relays

Relays that know the same routers pick the same router for an introset and an order. An
introset that a client publishes through one relay should be found through any other. A relay
that is itself the router for the order stores a published introset at once, but on a lookup it
asks itself over the network, and no relay connects to itself.
-/

namespace Llarp.Dht

open Foundation Service IntroRelay IntroHost Option

/-- The relays of a network, and the messages under way: sender, receiver, message. -/
structure Network where
  relays : Key → IntroRelay
  flight : List (Key × Key × IntroMessage) := []

/-- What happens in the network. A message is delivered in the order in which it was sent. -/
inductive NetworkEvent where
  | publish (relay : Key) (path : PathID) (txid : UInt64) (introset : EncryptedIntroSet)
      (relayOrder : UInt64)
  | find (relay : Key) (path : PathID) (txid : UInt64) (location : Key) (relayOrder : UInt64)
  | deliver
  | tick (ms : ℕ)

namespace Network

/-- The messages that a relay gives to the network. It makes no session to itself, so that a
message to itself is dropped. -/
def messages (relay : Key) (outputs : List IntroOutput) : List (Key × Key × IntroMessage) :=
  outputs.filterMap fun
    | .toPeer peer message _ => if peer = relay then none else some (relay, peer, message)
    | .toPath .. => none

/-- A relay has moved on, and what it sent is under way. -/
def dispatch (net : Network) (relay : Key) (moved : IntroRelay) : Network where
  relays := Function.update net.relays relay moved
  flight := net.flight ++ messages relay (moved.sent.drop (net.relays relay).sent.length)

def step (hosts : Key → IntroHost) (net : Network) : NetworkEvent → Option Network
  | .publish relay path txid introset relayOrder =>
    ((net.relays relay).publishIntroForPath (hosts relay) path txid introset relayOrder).map
      (net.dispatch relay)
  | .find relay path txid location relayOrder =>
    ((net.relays relay).findIntroForPath (hosts relay) path txid location relayOrder false).map
      (net.dispatch relay)
  | .deliver =>
    match net.flight with
    | [] => some net
    | (sender, receiver, message) :: flight =>
      some ({ net with flight }.dispatch receiver
        ((net.relays receiver).handle (hosts receiver) sender message))
  | .tick ms => some { net with relays := fun relay => (net.relays relay).tick ms }

/-- What a relay sent between two states of the network. -/
def sentSince (before after : Network) (relay : Key) : List IntroOutput :=
  (after.relays relay).sent.drop (before.relays relay).sent.length

/-- No transaction is pending, and no message is under way. -/
structure AtRest (now : ℕ) (net : Network) : Prop where
  relays : ∀ relay, ∃ log, (net.relays relay).pending = { now, log }
  flight : net.flight = []

/-- The relays know the same routers, at least four of them, and themselves. -/
structure Agree (routers : List Key) (dir : Directory) (hosts : Key → IntroHost) : Prop where
  ourKey : ∀ relay, (hosts relay).ourKey = relay
  entries : ∀ relay ∈ routers, (hosts relay).entries.Perm routers
  dir : ∀ relay, (hosts relay).dir = dir
  enough : introSetStorageRedundancy ≤ routers.length

/-- The router that stores the introset of a location in the given order. -/
def storage (routers : List Key) (location : Key) (relayOrder : UInt64) : Option Key :=
  (findManyClosestTo routers location introSetStorageRedundancy)[relayOrder.toNat]?

end Network

/-! ### A single exchange of a relay -/

namespace IntroRelay

variable {host : IntroHost} {s : IntroRelay} {now : ℕ} {peer : Key} {txid : UInt64}
  {log : List (Effect TXOwner EncryptedIntroSet IntroJob)}

theorem hasPendingLookupFrom_of_rest (rest : s.pending = { now, log }) (o : TXOwner) :
    s.pending.hasPendingLookupFrom o = false := by
  rw [rest, TXHolder.hasPendingLookupFrom]
  simp

/-- A relay at rest starts every transaction that it makes. -/
theorem newTX_of_rest (rest : s.pending = { now, log }) (peer : Key) (t : TXOwner → IntroTX) :
    newTX host s peer t = some
      { s with
        ids := s.ids + 1
        pending := TXHolder.newTX { now, log } ⟨peer, s.ids + 1⟩ (t ⟨peer, s.ids + 1⟩) 15000
        sent := s.sent ++ host.outputs (.started ⟨peer, s.ids + 1⟩ (t ⟨peer, s.ids + 1⟩)) } := by
  refine (if_neg (Bool.eq_false_iff.mp (hasPendingLookupFrom_of_rest rest _))).trans ?_
  rw [update, rest]
  simp [TXHolder.newTX, outputs]

/-- The reply to the only transaction brings the relay back to rest. -/
theorem gotIntro_of_newTX {t : IntroTX} {found : List EncryptedIntroSet}
    (waits : s.pending = TXHolder.newTX { now, log } ⟨peer, txid⟩ t 15000)
    (verified : found.all (host.verify now) = true) :
    s.gotIntro host peer txid found =
      { s with
        pending :=
          { now
            log := log ++ [.created ⟨peer, txid⟩ t, .started ⟨peer, txid⟩ t,
              .replied ⟨peer, txid⟩ (TXHolder.onFound host.validate now t found) now] }
        sent := s.sent ++
          host.outputs (.replied ⟨peer, txid⟩ (TXHolder.onFound host.validate now t found) now) } := by
  have pending : s.pending.tx[(⟨peer, txid⟩ : TXOwner)]? = some t := by
    rw [waits]
    show ((∅ : Std.ExtTreeMap TXOwner IntroTX).insertIfNew _ t)[_]? = _
    rw [getElem?_insertIfNew]
    simp
  have clock : s.pending.now = now := by rw [waits]; rfl
  rw [gotIntro, clock, if_pos verified, pending]
  simp only [update]
  rw [waits, TXHolder.informAll_newTX]
  simp [TXHolder.newTX]

/-- The stored introsets of the service, if any, are older or this one. -/
def NoNewer (introset : EncryptedIntroSet) (s : IntroRelay) : Prop :=
  ∀ old, s.services[introset.derivedSigningKey]? = some old →
    old.signedAt < introset.signedAt ∨ old = introset

theorem services_putNode {introset : EncryptedIntroSet} (noNewer : s.NoNewer introset) :
    (s.putNode introset).services[introset.derivedSigningKey]? = some introset := by
  unfold putNode
  cases stored : s.services[introset.derivedSigningKey]? with
  | none => simp only [getElem?_insert, if_true]
  | some old =>
    simp only
    rcases noNewer old stored with older | rfl
    · rw [if_pos older]
      simp only [getElem?_insert, if_true]
    · rw [if_neg (lt_irrefl _), stored]

@[simp] theorem pending_putNode {introset : EncryptedIntroSet} :
    (s.putNode introset).pending = s.pending := by
  unfold putNode
  split
  · rfl
  · split_ifs <;> rfl

@[simp] theorem sent_putNode {introset : EncryptedIntroSet} :
    (s.putNode introset).sent = s.sent := by
  unfold putNode
  split
  · rfl
  · split_ifs <;> rfl

end IntroRelay

namespace Network

variable {routers : List Key} {dir : Directory} {hosts : Key → IntroHost} {net : Network} {now : ℕ}
  {introset : EncryptedIntroSet} {relay store : Key} {relayOrder : UInt64}

/-- What a relay accepts for publication. -/
structure Publishable (dir : Directory) (now : ℕ) (introset : EncryptedIntroSet) : Prop where
  verified : introset.verify dir now = true
  lasting : introset.isExpired (now + 10000) = false

variable {host : IntroHost} {found : List EncryptedIntroSet}
  {log : List (Effect TXOwner EncryptedIntroSet IntroJob)} {s : IntroRelay}

/-! ### The routers for an introset -/

section Agreement

variable (agree : Agree routers dir hosts)

include agree

theorem Agree.closestRCs (member : relay ∈ routers) (location : Key) :
    (hosts relay).closestRCs location =
      findManyClosestTo routers location introSetStorageRedundancy :=
  findManyClosestTo_perm (agree.entries relay member) location _

theorem Agree.length_closest (location : Key) :
    (findManyClosestTo routers location introSetStorageRedundancy).length =
      introSetStorageRedundancy := by
  rw [length_findManyClosestTo]
  exact Nat.min_eq_left agree.enough

/-- There is a storage router for each of the orders. -/
theorem Agree.exists_storage (location : Key)
    (low : relayOrder.toNat < introSetStorageRedundancy) :
    ∃ store, storage routers location relayOrder = some store := by
  have inside : relayOrder.toNat <
      (findManyClosestTo routers location introSetStorageRedundancy).length := by
    rw [agree.length_closest]
    exact low
  exact ⟨_, List.getElem?_eq_getElem inside⟩

theorem Agree.verify (relay : Key) (verified : introset.verify dir now = true) :
    (hosts relay).verify now introset = true := by
  rw [IntroHost.verify, agree.dir]
  exact verified

theorem Agree.all_verify (relay : Key) (verified : introset.verify dir now = true) :
    [introset].all ((hosts relay).verify now) = true := by
  rw [List.all_cons, List.all_nil, Bool.and_true, agree.verify relay verified]

variable (stores : storage routers introset.derivedSigningKey relayOrder = some store)

include stores

/-- A storage router stores what another relay passes on to it. -/
theorem publishIntro_eq (clock : s.pending.now = now)
    (publishable : Publishable dir now introset) (sender : Key) (txid : UInt64) :
    s.publishIntro (hosts store) sender introset txid =
      (s.putNode introset).send [.toPeer sender (.gotIntro [introset] txid) none] := by
  have closest : store ∈ findManyClosestTo routers introset.derivedSigningKey
      introSetStorageRedundancy := List.mem_of_getElem? stores
  simp only [publishIntro, clock, agree.verify store publishable.verified,
    publishable.lasting, agree.closestRCs (mem_of_mem_findManyClosestTo closest),
    agree.length_closest, agree.ourKey, closest, Bool.not_true, Bool.false_eq_true, if_false, ne_eq,
    not_true_eq_false, if_true]

variable (member : relay ∈ routers) (low : relayOrder.toNat < introSetStorageRedundancy)

include member low

/-- An accepted introset is stored, or passed on to the storage router. -/
theorem publishIntroForPath_eq (clock : s.pending.now = now)
    (publishable : Publishable dir now introset) (path : PathID) (txid : UInt64) :
    s.publishIntroForPath (hosts relay) path txid introset relayOrder =
      if store = relay then
        some ((s.putNode introset).send ((hosts relay).replyTo now path [introset] txid))
      else s.propagateLocalIntroSet (hosts relay) path txid introset store 0 := by
  rw [storage] at stores
  simp only [publishIntroForPath, clock, agree.verify relay publishable.verified,
    publishable.lasting, agree.closestRCs member, agree.length_closest, stores, agree.ourKey,
    Bool.not_true, Bool.false_eq_true, if_false, ne_eq, not_true_eq_false, Nat.not_le.mpr low]

/-- A lookup of a relay at rest asks the storage router. -/
theorem findIntroForPath_eq (resting : s.pending = { now, log })
    (real : introset.derivedSigningKey.isZero = false) (path : PathID) (txid : UInt64) :
    s.findIntroForPath (hosts relay) path txid introset.derivedSigningKey relayOrder false =
      s.lookupIntroSetForPath (hosts relay) introset.derivedSigningKey txid path store 0 := by
  rw [storage] at stores
  simp only [findIntroForPath, hasPendingLookupFrom_of_rest resting, real,
    agree.closestRCs member, stores, Bool.false_eq_true, if_false, Nat.not_le.mpr low]

end Agreement

/-! ### Exchanges -/

theorem messages_replyTo {path : PathID} {txid : UInt64} :
    messages relay (host.replyTo now path found txid) = [] := by
  unfold replyTo
  split_ifs <;> rfl

theorem step_deliver_of_nil (empty : net.flight = []) : step hosts net .deliver = some net := by
  simp only [step, empty]

theorem step_deliver_of_cons {sender receiver : Key} {message : IntroMessage}
    (only : net.flight = [(sender, receiver, message)]) :
    step hosts net .deliver = some ({ net with flight := [] }.dispatch receiver
      ((net.relays receiver).handle (hosts receiver) sender message)) := by
  simp only [step, only]

theorem messages_outputs_replied {o : TXOwner} {t : IntroTX} :
    messages relay (host.outputs (.replied o t now)) = [] := by
  simp only [outputs]
  cases t.job with
  | localServiceAddressLookup localPath relayOrder location => exact messages_replyTo
  | localPublishServiceJob localPath txid introset relayOrder => exact messages_replyTo

/-- A relay at rest makes a transaction with another one, which answers it: after the two
messages the network is at rest again. -/
theorem run_exchange (rest : net.AtRest now) (other : store ≠ relay) {t : TXOwner → IntroTX}
    {message : UInt64 → IntroMessage} {behalf : Option PathID} {e : NetworkEvent}
    {moved : IntroRelay}
    (makes : step hosts net e =
      ((net.relays relay).newTX (hosts relay) store t).map (net.dispatch relay))
    (asks : ∀ txid, (hosts relay).outputs (.started ⟨store, txid⟩ (t ⟨store, txid⟩)) =
      [.toPeer store (message txid) behalf])
    (answers : ∀ txid, (net.relays store).handle (hosts store) relay (message txid) =
      moved.send [.toPeer relay (.gotIntro found txid) none])
    (calm : moved.pending = (net.relays store).pending)
    (silent : moved.sent = (net.relays store).sent)
    (verified : found.all ((hosts relay).verify now) = true) :
    ∃ net' o, run (step hosts) net [e, .deliver, .deliver] = some net' ∧ net'.AtRest now ∧
      (net'.relays store).services = moved.services ∧
      sentSince net net' relay = .toPeer store (message o.txid) behalf ::
        (hosts relay).outputs
          (.replied o (TXHolder.onFound (hosts relay).validate now (t o) found) now) := by
  obtain ⟨log, resting⟩ := rest.relays relay
  set id := (net.relays relay).ids + 1
  set asking : IntroRelay :=
    { net.relays relay with
      ids := id
      pending := TXHolder.newTX { now, log } ⟨store, id⟩ (t ⟨store, id⟩) 15000
      sent := (net.relays relay).sent ++ [.toPeer store (message id) behalf] }
  -- the relay asks
  have asked : step hosts net e = some (net.dispatch relay asking) := by
    rw [makes, newTX_of_rest resting, asks]
    rfl
  have underWay : (net.dispatch relay asking).flight = [(relay, store, message id)] := by
    simp [dispatch, asking, rest.flight, messages, other]
  -- the other one answers
  set net₂ : Network := { net.dispatch relay asking with flight := [] }.dispatch store
    (moved.send [.toPeer relay (.gotIntro found id) none])
  have answered : step hosts (net.dispatch relay asking) .deliver = some net₂ := by
    have there : (net.dispatch relay asking).relays store = net.relays store :=
      Function.update_of_ne other ..
    rw [step_deliver_of_cons underWay, there, answers]
  have returning : net₂.flight = [(store, relay, .gotIntro found id)] := by
    simp [net₂, dispatch, send, silent, Function.update_of_ne other, messages,
      other.symm]
  -- and the answer brings the relay to rest
  set served : IntroRelay := asking.gotIntro (hosts relay) store id found
  have isServed : served = _ := gotIntro_of_newTX rfl verified
  set net₃ : Network := { net₂ with flight := [] }.dispatch relay served
  have back : net₂.relays relay = asking := by
    simp [net₂, dispatch, Function.update_of_ne other.symm]
  have received : step hosts net₂ .deliver = some net₃ := by
    rw [step_deliver_of_cons returning, back]
    rfl
  refine ⟨net₃, ⟨store, id⟩, ?_, ⟨fun k => ?_, ?_⟩, ?_, ?_⟩
  · rw [run_cons, asked, bind_some, run_cons, answered, bind_some, run_cons,
      received]
    rfl
  · by_cases sameRelay : k = relay
    · subst sameRelay
      have last : net₃.relays k = served := Function.update_self ..
      exact ⟨_, congrArg pending (last.trans isServed)⟩
    · by_cases sameStore : k = store
      · subst sameStore
        obtain ⟨log', resting'⟩ := rest.relays k
        exact ⟨log', by simp [net₃, net₂, dispatch, sameRelay, send, calm, resting']⟩
      · obtain ⟨log', resting'⟩ := rest.relays k
        exact ⟨log', by simp [net₃, net₂, dispatch, sameRelay, sameStore, resting']⟩
  · simp only [net₃, dispatch, back, List.nil_append]
    rw [isServed]
    simp [messages_outputs_replied]
  · simp [net₃, net₂, dispatch, other, send]
  · simp only [sentSince, net₃, dispatch, Function.update_self]
    rw [isServed]
    simp [asking]

/-! ### Publications and lookups -/

/-- A storage router at rest answers with what it stores. -/
theorem findIntro_eq {location : Key} (resting : s.pending = { now, log })
    (real : location.isZero = false) (stored : s.services[location]? = some introset) (sender : Key)
    (txid : UInt64) :
    s.findIntro sender txid location =
      s.send [.toPeer sender (.gotIntro [introset] txid) none] := by
  simp only [findIntro, hasPendingLookupFrom_of_rest resting, real, stored,
    Bool.false_eq_true, if_false]
  rfl

section Runs

variable (agree : Agree routers dir hosts)
  (stores : storage routers introset.derivedSigningKey relayOrder = some store)
  (member : relay ∈ routers) (low : relayOrder.toNat < introSetStorageRedundancy)
  (rest : net.AtRest now)

include agree stores member low rest

/-- A published introset reaches its storage router, and the network comes to rest again. -/
theorem run_publish (publishable : Publishable dir now introset)
    (noNewer : (net.relays store).NoNewer introset) (path : PathID) (txid : UInt64) :
    ∃ net', run (step hosts) net
        [.publish relay path txid introset relayOrder, .deliver, .deliver] = some net' ∧
      net'.AtRest now ∧
      (net'.relays store).services[introset.derivedSigningKey]? = some introset := by
  obtain ⟨log, resting⟩ := rest.relays relay
  have clock : (net.relays relay).pending.now = now := by rw [resting]
  have published : step hosts net (.publish relay path txid introset relayOrder) = _ :=
    congrArg (Option.map (net.dispatch relay))
      (publishIntroForPath_eq agree stores member low clock publishable path txid)
  by_cases here : store = relay
  · subst here
    rw [if_pos rfl, map_some] at published
    set stored := ((net.relays store).putNode introset).send
      ((hosts store).replyTo now path [introset] txid)
    have quiet : (net.dispatch store stored).flight = [] := by
      simp [dispatch, stored, send, rest.flight, messages_replyTo]
    refine ⟨net.dispatch store stored, ?_, ⟨fun k => ?_, quiet⟩, ?_⟩
    · rw [run_cons, published, bind_some, run_cons, step_deliver_of_nil quiet,
        bind_some, run_cons, step_deliver_of_nil quiet]
      rfl
    · by_cases same : k = store
      · subst same
        exact ⟨log, by simp [dispatch, stored, send, resting]⟩
      · obtain ⟨log', resting'⟩ := rest.relays k
        exact ⟨log', by simp [dispatch, same, resting']⟩
    · simp only [dispatch, Function.update_self]
      exact services_putNode noNewer
  · rw [if_neg here] at published
    obtain ⟨log', resting'⟩ := rest.relays store
    have answers : ∀ id, (net.relays store).handle (hosts store) relay
        (.publishIntro introset id 0) = _ := fun id =>
      publishIntro_eq agree stores (by rw [resting']) publishable relay id
    have asks : ∀ id, (hosts relay).outputs (.started ⟨store, id⟩ ⟨⟨store, id⟩, ⟨store, id⟩,
        .localPublishServiceJob path txid introset 0, []⟩) =
        [.toPeer store (.publishIntro introset id 0) (some path)] := fun id => rfl
    obtain ⟨net', -, through, rest', services, -⟩ := run_exchange rest here published asks answers
      pending_putNode sent_putNode
      (agree.all_verify relay publishable.verified)
    refine ⟨net', through, rest', ?_⟩
    rw [services]
    exact services_putNode noNewer

/-- A relay that is not the storage router itself finds what is stored there. -/
theorem run_find_of_ne (real : introset.derivedSigningKey.isZero = false)
    (other : store ≠ relay) (verified : introset.verify dir now = true)
    (signed : 0 < introset.signedAt)
    (stored : (net.relays store).services[introset.derivedSigningKey]? = some introset)
    (path : PathID) (txid : UInt64) :
    ∃ net' message, run (step hosts) net
        [.find relay path txid introset.derivedSigningKey relayOrder, .deliver, .deliver] =
        some net' ∧
      sentSince net net' relay = .toPeer store message (some path) ::
        (hosts relay).replyTo now path [introset] txid := by
  obtain ⟨log, resting⟩ := rest.relays relay
  obtain ⟨log', resting'⟩ := rest.relays store
  have makes : step hosts net (.find relay path txid introset.derivedSigningKey relayOrder) =
      ((net.relays relay).newTX (hosts relay) store fun _ =>
        ⟨⟨(hosts relay).ourKey, txid⟩, ⟨(hosts relay).ourKey, txid⟩,
          .localServiceAddressLookup path 0 introset.derivedSigningKey, []⟩).map
        (net.dispatch relay) :=
    congrArg (Option.map (net.dispatch relay))
      (findIntroForPath_eq agree stores member low resting real path txid)
  have asks : ∀ id, (hosts relay).outputs (.started ⟨store, id⟩
      ⟨⟨(hosts relay).ourKey, txid⟩, ⟨(hosts relay).ourKey, txid⟩,
        .localServiceAddressLookup path 0 introset.derivedSigningKey, []⟩) =
      [.toPeer store (.findIntro id introset.derivedSigningKey 0) (some path)] := fun id => rfl
  have answers : ∀ id, (net.relays store).handle (hosts store) relay
      (.findIntro id introset.derivedSigningKey 0) = _ := fun id =>
    findIntro_eq resting' real stored relay id
  obtain ⟨net', o, through, -, -, sent⟩ := run_exchange rest other makes asks answers rfl rfl
    (agree.all_verify relay verified)
  refine ⟨net', .findIntro o.txid introset.derivedSigningKey 0, through, sent.trans ?_⟩
  have kept : (hosts relay).validate now
      (.localServiceAddressLookup path 0 introset.derivedSigningKey) introset = true := by
    simp [validate, agree.verify relay verified]
  have newest : EncryptedIntroSet.newest [introset] = introset := by
    simp [EncryptedIntroSet.newest, EncryptedIntroSet.otherIsNewer, EncryptedIntroSet.empty, signed]
  simp [outputs, TXHolder.onFound, kept, newestIntroSet, newest]

/-- A relay that is the storage router itself asks itself, and nothing comes of it. -/
theorem run_find_self (real : introset.derivedSigningKey.isZero = false) (self : relay = store)
    (path : PathID) (txid : UInt64) :
    ∃ net' message, run (step hosts) net
        [.find relay path txid introset.derivedSigningKey relayOrder, .deliver, .deliver] =
        some net' ∧
      sentSince net net' relay = [.toPeer relay message (some path)] := by
  obtain ⟨log, resting⟩ := rest.relays relay
  subst self
  have found := findIntroForPath_eq agree stores member low resting real path txid
  rw [lookupIntroSetForPath, newTX_of_rest resting] at found
  have moved : step hosts net (.find relay path txid introset.derivedSigningKey relayOrder) = _ :=
    congrArg (Option.map (net.dispatch relay)) found
  rw [Option.map_some] at moved
  set asking := net.dispatch relay _
  have quiet : asking.flight = [] := by
    simp [asking, dispatch, rest.flight, outputs, messages]
  refine ⟨asking, .findIntro ((net.relays relay).ids + 1) introset.derivedSigningKey 0, ?_, ?_⟩
  · rw [run_cons, moved, bind_some, run_cons, step_deliver_of_nil quiet, bind_some,
      run_cons, step_deliver_of_nil quiet]
    rfl
  · simp [sentSince, asking, dispatch, outputs]

end Runs

theorem AtRest.tick (rest : net.AtRest now) (ms : ℕ) :
    AtRest (now + ms) { net with relays := fun relay => (net.relays relay).tick ms } where
  relays relay := by
    obtain ⟨log, resting⟩ := rest.relays relay
    exact ⟨log, by simp [IntroRelay.tick, resting]⟩
  flight := rest.flight

/-! ### Publishing and finding -/

/-- The relays 1 to 5, which know each other. -/
def plainHosts (key : Key) : IntroHost := { plainIntroHost 1 with ourKey := key }

/-- A network in which nothing has happened yet. -/
def plainNetwork : Network where
  relays _ := { ids := 0 }

/-- The introset of the service with key 3. -/
def introsetOfThree : EncryptedIntroSet := ⟨plainKey 3, 5, [], .zero 32, .zero 64⟩

theorem agree_plainHosts : Agree (plainIntroHost 1).entries (plainIntroHost 1).dir plainHosts where
  ourKey _ := rfl
  entries _ _ := .refl _
  dir _ := rfl
  enough := by decide

theorem atRest_plainNetwork : plainNetwork.AtRest 0 where
  relays _ := ⟨[], rfl⟩
  flight := rfl

end Network

end Llarp.Dht

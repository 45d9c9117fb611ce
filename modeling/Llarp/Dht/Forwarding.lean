import Llarp.Dht.Key
import Llarp.Dht.Deliveries
import Llarp.Foundation.Run

/-!
# Forwarding router lookups

A relay that gets a `FindRouterMessage` answers it from its node database, or asks the router
closest to the target that it knows. Relays may know different routers. The distance to the
target is a potential that drops with every step of a lookup, whatever the relays know, so that
a lookup never comes back to a relay that has forwarded it.
-/

namespace Llarp

open Foundation

namespace RouterContact

/-- The lifetime of a contact, in milliseconds. -/
def lifetime : ℤ := 24 * 60 * 60 * 1000

def timeUntilExpires (rc : RouterContact) (now : ℤ) : ℤ :=
  let expiresAt := rc.lastUpdated + lifetime
  if now < expiresAt then expiresAt - now else 0

def expiresSoon (rc : RouterContact) (now : ℤ) (dlt : ℤ := 60 * 1000) : Bool :=
  rc.timeUntilExpires now ≤ dlt

end RouterContact

namespace Dht

/-- The contact closest to a location, in a database that is visited in the given order. The
search starts from a default-constructed contact, which any contact replaces. -/
def findClosestTo (nodedb : List RouterContact) (location : Key) : RouterContact :=
  nodedb.foldl (fun rc otherRC =>
    if rc.pubkey.isZero then otherRC
    else if xorMetric location otherRC.pubkey rc.pubkey then otherRC
    else rc) .empty

structure FindRouterMessage where
  sender : Key
  targetKey : RouterID
  iterative : Bool := false
  exploritory : Bool := false
  txid : UInt64
  deriving DecidableEq, Repr

/-- A `GotRouterMessage` to the sender of a request. -/
structure GotRouterMessage where
  txid : UInt64
  foundRCs : List RouterContact := []
  closerTarget : Option Key := none
  nearKeys : List RouterID := []
  deriving DecidableEq, Repr

/-- The surroundings of a relay. `explore` has the routers that it tells to a requester who
explores, if it has enough of them. -/
structure RelayHost extends RouterHost where
  rc : RouterContact
  allowTransit : Bool
  explore : Key → RouterID → Option (List RouterID)

namespace RouterLookups

variable (host : RelayHost) (nodedb : List RouterContact)

/-- A lookup for another router: a reply, or a transaction that asks the next router. -/
def lookupRouterRelayed (s : RouterLookups) (requester : Key) (txid : UInt64) (target : Key)
    (recursive : Bool) : Option (RouterLookups × List GotRouterMessage) :=
  if target = host.ourKey then some (s, [{ txid, foundRCs := [host.rc] }])
  else if !host.sessionIsAllowed s.pending.now target then some (s, [{ txid }])
  else
    let rc := findClosestTo nodedb target
    let next : Key := rc.pubkey
    -- no loop of the holder is running when a message is handled
    let ask := (s.lookupRouterRecursive host.toRouterHost target ⟨requester, txid⟩ next false
      false false).map (·, [])
    if next = target then
      if rc.expiresSoon s.pending.now then ask
      else some (s, [{ txid, foundRCs := [rc] }])
    else if recursive then
      if compare (next.xor target) (host.ourKey.xor target) == .lt then ask
      else some (s, [{ txid }])
    else some (s, [{ txid, closerTarget := next }])

/-- A `FindRouterMessage` is handled. Messages that are refused change nothing. -/
def findRouter (s : RouterLookups) (message : FindRouterMessage) :
    Option (RouterLookups × List GotRouterMessage) :=
  if !host.allowTransit then some (s, [])
  else if s.pending.hasPendingLookupFrom ⟨message.sender, message.txid⟩ then some (s, [])
  else if message.targetKey.isZero then some (s, [])
  else if message.exploritory then
    match host.explore message.sender message.targetKey with
    | none => some (s, [])
    | some nearKeys => some (s, [{ txid := message.txid, nearKeys }])
  else
    s.lookupRouterRelayed host nodedb message.sender message.txid message.targetKey
      (!message.iterative)

/-- The transactions that were started between two states. -/
def started (before after : RouterLookups) : List (TXOwner × RouterTX) :=
  (after.pending.log.drop before.pending.log.length).filterMap fun
    | .started askpeer t => some (askpeer, t)
    | _ => none

end RouterLookups

/-! ### The network -/

/-- A `FindRouterMessage` under way, with the relays that have forwarded the lookup, the latest
one first. -/
structure Forwarded where
  receiver : Key
  message : FindRouterMessage
  trail : List Key
  deriving DecidableEq

structure LookupNetwork where
  relays : Key → RouterLookups
  flight : List Forwarded := []

/-- What happens in the network: someone asks a relay; a message arrives at a relay, which has
the given contacts at this time; a message is lost; or something else happens to the lookups of
a relay, which may start lookups of its own and gets replies, honest or not. -/
inductive LookupNetworkEvent where
  | request (receiver : Key) (message : FindRouterMessage)
  | deliver (index : ℕ) (nodedb : List RouterContact)
  | lose (index : ℕ)
  | lookups (relay : Key) (event : RouterEvent)

namespace LookupNetwork

/-- A relay has moved on, and the transactions that it started ask their peers. -/
def dispatch (net : LookupNetwork) (relay : Key) (trail : List Key) (moved : RouterLookups) :
    LookupNetwork where
  relays := Function.update net.relays relay moved
  flight := net.flight ++ ((net.relays relay).started moved).map fun (askpeer, t) =>
    { receiver := askpeer.node
      message := { sender := relay, targetKey := t.target, txid := askpeer.txid }
      trail }

/-- A message waits while a loop runs in the relay that it has reached. -/
def step (hosts : Key → RelayHost) (net : LookupNetwork) :
    LookupNetworkEvent → Option LookupNetwork
  | .request receiver message =>
    some { net with flight := net.flight ++ [⟨receiver, message, []⟩] }
  | .deliver index nodedb =>
    match net.flight[index]? with
    | none => some net
    | some ⟨receiver, message, trail⟩ =>
      if (net.relays receiver).pending.busy then some net
      else
        ((net.relays receiver).findRouter { hosts receiver with ourKey := receiver } nodedb
            message).map fun (moved, _) =>
          { net with flight := net.flight.eraseIdx index }.dispatch receiver (receiver :: trail)
            moved
  | .lose index => some { net with flight := net.flight.eraseIdx index }
  | .lookups relay event =>
    ((net.relays relay).step { (hosts relay).toRouterHost with ourKey := relay } event).map
      (net.dispatch relay [])

end LookupNetwork

/-! ### One step of a lookup -/

namespace RouterLookups

variable {host : RelayHost} {nodedb : List RouterContact} {s s' : RouterLookups}

@[simp] theorem started_self : s.started s = [] := by
  simp [started]

variable {replies : List GotRouterMessage} {asked : TXOwner × RouterTX}

/-- A lookup that is passed on asks the given peer or, if the target is being looked up
already, nobody. -/
theorem eq_of_mem_started_lookupRouterRecursive {routerHost : RouterHost} {target : RouterID}
    {whoasked : TXOwner} {askpeer : Key} {resultHandler rehash inside : Bool}
    (moved : s.lookupRouterRecursive routerHost target whoasked askpeer resultHandler rehash
      inside = some s')
    (member : asked ∈ s.started s') : asked.1.node = askpeer ∧ asked.2.target = target := by
  rw [lookupRouterRecursive, perform_of_ne_next (by rintro ⟨⟩)] at moved
  obtain ⟨pending, newTX, rfl⟩ := Option.map_eq_some_iff.mp moved
  obtain ⟨informing, rfl⟩ := TXHolder.newTX_of_step newTX
  simp only [started, TXHolder.newTX, List.drop_left] at member
  split_ifs at member
  · simp only [List.filterMap_cons, List.filterMap_nil, List.mem_singleton] at member
    rw [member]
    exact ⟨rfl, rfl⟩
  · simp at member

/-- A relay asks only routers that are closer to the target than it is. The target itself is
one of them, as the relay is not the target. -/
theorem closer_of_mem_started_lookupRouterRelayed {requester : Key} {txid : UInt64} {target : Key}
    {recursive : Bool}
    (moved : s.lookupRouterRelayed host nodedb requester txid target recursive = some (s', replies))
    (member : asked ∈ s.started s') :
    asked.2.target = target ∧ distance asked.1.node target < distance host.ourKey target := by
  -- every branch that only replies leaves the lookups as they were
  have silent : ∀ {reply}, some (s, reply) = some (s', replies) → False := by
    rintro reply ⟨⟩
    simp at member
  unfold lookupRouterRelayed at moved
  by_cases us : target = host.ourKey
  · rw [if_pos us] at moved
    exact (silent moved).elim
  rw [if_neg us] at moved
  by_cases allowed : (!host.sessionIsAllowed s.pending.now target) = true
  · rw [if_pos allowed] at moved
    exact (silent moved).elim
  have forwards : ∀ {peer : Key}, (s.lookupRouterRecursive host.toRouterHost target
      ⟨requester, txid⟩ peer false false false).map (·, ([] : List GotRouterMessage)) =
        some (s', replies) → asked.1.node = peer ∧ asked.2.target = target := by
    intro peer passed
    obtain ⟨_, asks, same⟩ := Option.map_eq_some_iff.mp passed
    obtain ⟨rfl, -⟩ := Prod.mk.inj same
    exact eq_of_mem_started_lookupRouterRecursive asks member
  simp only at moved
  split_ifs at moved with found expires recursively closer
  · obtain ⟨node, same⟩ := forwards moved
    refine ⟨same, ?_⟩
    rw [node, found, distance_self]
    exact distance_pos (Ne.symm us)
  · exact (silent moved).elim
  · obtain ⟨node, same⟩ := forwards moved
    refine ⟨same, ?_⟩
    rw [node]
    exact AlignedBuffer.compare_eq_lt_iff.mp (beq_iff_eq.mp closer)
  · exact (silent moved).elim
  · exact (silent moved).elim

theorem closer_of_mem_started_findRouter {message : FindRouterMessage}
    (moved : s.findRouter host nodedb message = some (s', replies))
    (member : asked ∈ s.started s') :
    asked.2.target = message.targetKey ∧
      distance asked.1.node message.targetKey < distance host.ourKey message.targetKey := by
  have silent : ∀ {reply}, some (s, reply) = some (s', replies) → False := by
    rintro reply ⟨⟩
    simp at member
  unfold findRouter at moved
  split_ifs at moved
  · exact (silent moved).elim
  · exact (silent moved).elim
  · exact (silent moved).elim
  · split at moved <;> exact (silent moved).elim
  · exact closer_of_mem_started_lookupRouterRelayed moved member

end RouterLookups

/-! ### Whole lookups -/

/-- Along a list of decreasing measure, the measure bounds the length. -/
theorem length_le_of_isChain {α : Type} (measure : α → ℕ) {last : α} {items : List α} :
    ∀ {first : α}, (first :: items).IsChain (fun a b => measure a < measure b) →
      items.getLast? = some last → measure first + items.length ≤ measure last := by
  induction items with
  | nil => simp
  | cons item items ih =>
    intro first chain ends
    rw [List.isChain_cons_cons] at chain
    cases items with
    | nil =>
      obtain rfl : item = last := by simpa using ends
      simpa using chain.1
    | cons next items =>
      have drop := chain.1
      have shorter := ih chain.2 (by simpa using ends)
      simp only [List.length_cons] at shorter ⊢
      omega

namespace Forwarded

/-- Every relay that forwarded the lookup asked a router that is closer to the target. -/
def Descends (f : Forwarded) : Prop :=
  (f.receiver :: f.trail).IsChain fun next relay =>
    distance next f.message.targetKey < distance relay f.message.targetKey

variable {f : Forwarded}

theorem descends_start {receiver : Key} {message : FindRouterMessage} :
    Descends ⟨receiver, message, []⟩ := List.isChain_singleton _

/-- A relay is left behind for good. -/
theorem Descends.nodup (descends : f.Descends) : f.trail.Nodup := by
  have pairs := List.isChain_iff_pairwise.mp descends.tail
  refine pairs.imp fun less same => ?_
  rw [same] at less
  exact lt_irrefl _ less

end Forwarded

namespace LookupNetwork

variable {hosts : Key → RelayHost} {net net' : LookupNetwork}

/-- All the lookups under way have come closer to their targets with every step. -/
def Descending (net : LookupNetwork) : Prop := ∀ f ∈ net.flight, f.Descends

/-- What a relay sends joins the messages under way. -/
theorem descending_dispatch {relay : Key} {trail : List Key} {moved : RouterLookups}
    (descending : net.Descending)
    (closer : ∀ asked ∈ (net.relays relay).started moved, Forwarded.Descends
      ⟨asked.1.node, { sender := relay, targetKey := asked.2.target, txid := asked.1.txid },
        trail⟩) :
    (net.dispatch relay trail moved).Descending := by
  intro f member
  rcases List.mem_append.mp member with before | sent
  · exact descending f before
  · obtain ⟨asked, starts, rfl⟩ := List.mem_map.mp sent
    exact closer asked starts

theorem Descending.eraseIdx (descending : net.Descending) (index : ℕ) :
    Descending { net with flight := net.flight.eraseIdx index } :=
  fun f member => descending f (List.mem_of_mem_eraseIdx member)

theorem Descending.step {event : LookupNetworkEvent} (descending : net.Descending)
    (moved : net.step hosts event = some net') : net'.Descending := by
  cases event with
  | request receiver message =>
    cases moved
    intro f member
    rcases List.mem_append.mp member with before | new
    · exact descending f before
    · obtain rfl := List.mem_singleton.mp new
      exact Forwarded.descends_start
  | deliver index nodedb =>
    cases arrives : net.flight[index]? with
    | none =>
      simp only [LookupNetwork.step, arrives, Option.some.injEq] at moved
      exact moved ▸ descending
    | some f =>
      obtain ⟨receiver, message, trail⟩ := f
      simp only [LookupNetwork.step, arrives] at moved
      split_ifs at moved
      · exact Option.some.inj moved ▸ descending
      · obtain ⟨⟨after, replies⟩, handled, rfl⟩ := Option.map_eq_some_iff.mp moved
        refine descending_dispatch (descending.eraseIdx index) fun asked starts => ?_
        -- the relay that has just forwarded the lookup is the new head of the trail
        obtain ⟨same, less⟩ := RouterLookups.closer_of_mem_started_findRouter handled starts
        have through : Forwarded.Descends ⟨receiver, message, trail⟩ :=
          descending _ (List.mem_of_getElem? arrives)
        unfold Forwarded.Descends
        rw [same, List.isChain_cons_cons]
        exact ⟨less, through⟩
  | lose index =>
    cases moved
    exact descending.eraseIdx index
  | lookups relay event =>
    obtain ⟨after, handled, rfl⟩ := Option.map_eq_some_iff.mp moved
    exact descending_dispatch descending fun asked starts => Forwarded.descends_start

/-- In every run of a network of relays, whatever contacts they have, every step of a lookup
goes to a router closer to the target than the relay that forwards it. So no relay forwards a
lookup twice, and the distance of the first relay bounds the number of steps. -/
theorem lookups_descend (hosts : Key → RelayHost) (relays : Key → RouterLookups)
    (events : List LookupNetworkEvent) :
    Always (step hosts)
      (fun net => ∀ f ∈ net.flight,
        (f.receiver :: f.trail).IsChain (fun next relay =>
          distance next f.message.targetKey < distance relay f.message.targetKey) ∧
        f.trail.Nodup ∧
        ∀ first, f.trail.getLast? = some first →
          f.trail.length ≤ distance first f.message.targetKey)
      { relays } events := by
  intro before net _ reaches f member
  have descending : net.Descending :=
    run_invariant_of_forall Descending (fun _ _ _ descending => descending.step)
      (by intro f member; simp at member) reaches
  have descends := descending f member
  refine ⟨descends, descends.nodup, fun first starts => ?_⟩
  have bound := length_le_of_isChain (distance · f.message.targetKey) descends starts
  omega

-- Router 7 is looked up through the relays 1, 5 and 6, which know one router each.
example :
    let key (byte : UInt8) : Key := AlignedBuffer.copy 32 [byte]
    let host (relay : Key) : RelayHost :=
      { RouterLookups.openHost with ourKey := relay, rc := .empty, allowTransit := true, explore _ _ := none }
    (run (step host) { relays _ := {} }
      [.request (key 1) { sender := key 9, targetKey := key 7, txid := 3 },
        .deliver 0 [RouterLookups.contactOf 5 0], .deliver 0 [RouterLookups.contactOf 6 0],
        .deliver 0 [RouterLookups.contactOf 7 (-86400000)]]).map (·.flight) =
      some [⟨key 7, { sender := key 6, targetKey := key 7, txid := 1 }, [key 6, key 5, key 1]⟩] := by
  decide +kernel

end LookupNetwork

end Dht

end Llarp

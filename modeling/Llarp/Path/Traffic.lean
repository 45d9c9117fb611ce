import Llarp.Path.Committed
import Mathlib.Logic.Function.Iterate

/-!
# Relayed traffic

A message up a path loses one layer of encryption at every hop, and a message down gets one.
The client adds all the layers at once, or takes them off. Every node looks up the path under
the identifier that the node before it has written into the message.
-/

namespace Llarp

open Foundation AlignedBuffer PathContext List

inductive LinkMessage where
  | upstream (msg : RelayMessage)
  | downstream (msg : RelayMessage)
  deriving DecidableEq

/-- The contexts of all routers, and the messages under way: sender, receiver, message.
`handlers` are the paths and hops that were found for the messages so far, and `parsed` is what
has gone to the routing parsers, with the identifier of the path. -/
structure PathNetwork where
  contexts : RouterID → PathContext
  flight : List (RouterID × RouterID × LinkMessage) := []
  handlers : List (RouterID × HopHandler) := []
  parsed : List (RouterID × PathID × Payload) := []

namespace PathNetwork

variable (cipher : XChaCha20)

variable (net : PathNetwork)

/-- A client sends a payload up one of its paths, unless the nonce was used before. -/
def submitUpstream (client : RouterID) (path : Path) (ev : TrafficEvent) : PathNetwork :=
  let ctx := net.contexts client
  if (path, ev.2) ∈ ctx.upstreamReplay then net
  else
    { net with
      contexts := Function.update net.contexts client
        { ctx with upstreamReplay := (path, ev.2) :: ctx.upstreamReplay }
      flight := net.flight ++ [(client, path.upstream, .upstream (path.upstreamWork cipher ev))] }

/-- The endpoint of a path sends a payload down. -/
def submitDownstream (us : RouterID) (hop : TransitHop) (ev : TrafficEvent) : PathNetwork :=
  if hop.isEndpoint us then
    { net with
      flight := net.flight ++ [(us, hop.info.downstream, .downstream (hop.runDownstream cipher ev))] }
  else net

/-- A `RelayUpstreamMessage` is handled. -/
def handleUpstream (us sender : RouterID) (msg : RelayMessage) : PathNetwork :=
  match (net.contexts us).getByDownstream sender msg.pathid with
  | none => net
  | some hop =>
    let out := hop.runUpstream cipher (msg.X, msg.Y)
    let handlers := net.handlers ++ [(us, .transit hop)]
    if hop.isEndpoint us then
      { net with handlers, parsed := net.parsed ++ [(us, hop.info.rxID, out.X)] }
    else { net with handlers, flight := net.flight ++ [(us, hop.info.upstream, .upstream out)] }

/-- A `RelayDownstreamMessage` is handled. The client drops a message with an old nonce. -/
def handleDownstream (us sender : RouterID) (msg : RelayMessage) : PathNetwork :=
  let ctx := net.contexts us
  match ctx.getByUpstream sender msg.pathid with
  | none => net
  | some (.transit hop) =>
    let out := hop.runDownstream cipher (msg.X, msg.Y)
    { net with
      handlers := net.handlers ++ [(us, .transit hop)]
      flight := net.flight ++ [(us, hop.info.downstream, .downstream out)] }
  | some (.own path) =>
    let handlers := net.handlers ++ [(us, .own path)]
    if (path, msg.Y) ∈ ctx.downstreamReplay then { net with handlers }
    else
      { net with
        handlers
        contexts := Function.update net.contexts us
          { ctx with downstreamReplay := (path, msg.Y) :: ctx.downstreamReplay }
        parsed := net.parsed ++ [(us, path.rxID, (path.downstreamWork cipher (msg.X, msg.Y)).X)] }

/-- The next message arrives. -/
def deliver : PathNetwork :=
  match net.flight with
  | [] => net
  | (sender, us, .upstream msg) :: flight => handleUpstream cipher { net with flight } us sender msg
  | (sender, us, .downstream msg) :: flight =>
    handleDownstream cipher { net with flight } us sender msg

end PathNetwork

/-! ### The layers of the client -/

/-- The keys of the hops, as the client has them. -/
def Path.keys (path : Path) : List (SharedSecret × ShortHash) :=
  path.hops.map fun hop => (hop.shared, hop.nonceXOR)

namespace Path

variable (cipher : XChaCha20) (path : Path) (payload : Payload) (nonce : TunnelNonce)

theorem upstreamWork_eq :
    path.upstreamWork cipher (payload, nonce) =
      ⟨path.txID, cipher.applyAll (layersBefore xor nonce path.keys) payload,
        nonce⟩ := by
  have fold : ∀ (hops : List PathHopConfig) (buf : Payload) n,
      (hops.foldl (fun ev hop =>
        (cipher.apply ev.1 hop.shared ev.2, ev.2.xor hop.nonceXOR)) (buf, n)).1 =
      cipher.applyAll (layersBefore xor n
        (hops.map fun hop => (hop.shared, hop.nonceXOR))) buf := by
    intro hops
    induction hops with
    | nil => exact fun _ _ => rfl
    | cons hop hops ih => exact fun buf n => ih _ _
  rw [RelayMessage.mk.injEq]
  exact ⟨rfl, fold path.hops payload nonce, rfl⟩

theorem X_downstreamWork :
    (path.downstreamWork cipher (payload, nonce)).X =
      cipher.applyAll (layersAfter xor nonce path.keys) payload := by
  have fold : ∀ (hops : List PathHopConfig) (buf : Payload) n,
      (hops.foldl (fun ev hop =>
        (cipher.apply ev.1 hop.shared (ev.2.xor hop.nonceXOR), ev.2.xor hop.nonceXOR)) (buf, n)).1 =
      cipher.applyAll (layersAfter xor n
        (hops.map fun hop => (hop.shared, hop.nonceXOR))) buf := by
    intro hops
    induction hops with
    | nil => exact fun _ _ => rfl
    | cons hop hops ih => exact fun buf n => ih _ _
  exact fold path.hops payload nonce

end Path

/-- The keys of the hops, as their routers have them. -/
def stopKeys (stops : List (RouterID × TransitHop)) : List (SharedSecret × ShortHash) :=
  stops.map fun stop => (stop.2.pathKey, stop.2.nonceXOR)

theorem stopKeys_stops (downstream : RouterID) (hops : List PathHopConfig) :
    stopKeys (stops downstream hops) = hops.map fun hop => (hop.shared, hop.nonceXOR) := by
  induction hops generalizing downstream with
  | nil => rfl
  | cons hop rest ih =>
    have rest' := ih hop.rc
    rw [map_cons, ← rest']
    rfl

/-! ### Relays -/

/-- The hops that a message passes. A place of the message is the node that has sent it, the one that
gets it, and the identifier in it. -/
inductive Relays (passes : RouterID → RouterID → PathID → TransitHop → Prop)
    (next : TransitHop → RouterID × PathID) : RouterID × RouterID × PathID →
      List (RouterID × TransitHop) → RouterID × RouterID × PathID → Prop where
  | nil (there : RouterID × RouterID × PathID) : Relays passes next there [] there
  | cons {sender router : RouterID} {id : PathID} {hop : TransitHop}
      {rest : List (RouterID × TransitHop)} {there : RouterID × RouterID × PathID}
      (passing : passes sender router id hop) (others : Relays passes next (router, next hop) rest there) :
      Relays passes next (sender, router, id) ((router, hop) :: rest) there

/-- The hop is found for a message up, and is not the endpoint. -/
def PassesUp (contexts : RouterID → PathContext) (sender router : RouterID) (id : PathID)
    (hop : TransitHop) : Prop :=
  (contexts router).getByDownstream sender id = some hop ∧ hop.isEndpoint router = false

/-- The hop is found for a message down. -/
def PassesDown (contexts : RouterID → PathContext) (sender router : RouterID) (id : PathID)
    (hop : TransitHop) : Prop :=
  (contexts router).getByUpstream sender id = some (.transit hop)

def TransitHop.up (hop : TransitHop) : RouterID × PathID := (hop.info.upstream, hop.info.txID)

def TransitHop.down (hop : TransitHop) : RouterID × PathID := (hop.info.downstream, hop.info.rxID)

namespace PathNetwork

variable (cipher : XChaCha20) (net : PathNetwork)

/-- The log entries of relays. -/
def transits (stops : List (RouterID × TransitHop)) : List (RouterID × HopHandler) :=
  stops.map fun stop => (stop.1, .transit stop.2)

/-- One message is under way, and some hops have been found for it. -/
def carrying (wrap : RelayMessage → LinkMessage) (place : RouterID × RouterID × PathID)
    (X : Payload) (Y : TunnelNonce) (route : List (RouterID × TransitHop)) : PathNetwork :=
  { net with
    flight := [(place.1, place.2.1, wrap ⟨place.2.2, X, Y⟩)]
    handlers := net.handlers ++ transits route }

variable {wrap : RelayMessage → LinkMessage}
  {passes : RouterID → RouterID → PathID → TransitHop → Prop}
  {next : TransitHop → RouterID × PathID}

/-- Every relay applies its layer and gives the message on. -/
theorem iterate_deliver_of_relays {here there : RouterID × RouterID × PathID}
    (once : ∀ {sender router id hop X Y passed}, passes sender router id hop →
      deliver cipher (net.carrying wrap (sender, router, id) X Y passed) =
        net.carrying wrap (router, next hop) (cipher.apply X hop.pathKey Y) (Y.xor hop.nonceXOR)
          (passed ++ [(router, hop)]))
    {route : List (RouterID × TransitHop)} (relays : Relays passes next here route there)
    (X : Payload) (Y : TunnelNonce) (passed : List (RouterID × TransitHop)) :
    (deliver cipher)^[route.length] (net.carrying wrap here X Y passed) =
      net.carrying wrap there
        (cipher.applyAll (layersBefore xor Y (stopKeys route)) X)
        (nonceAfter xor Y (stopKeys route)) (passed ++ route) := by
  induction relays generalizing X Y passed with
  | nil there => rw [append_nil]; rfl
  | cons passing others ih =>
    rw [length_cons, Function.iterate_succ_apply, once passing, ih, append_assoc]
    rfl

theorem deliver_of_passesUp {sender router : RouterID} {id : PathID} {hop : TransitHop} {X : Payload}
    {Y : TunnelNonce} {passed : List (RouterID × TransitHop)}
    (passing : PassesUp net.contexts sender router id hop) :
    deliver cipher (net.carrying .upstream (sender, router, id) X Y passed) =
      net.carrying .upstream (router, hop.up) (cipher.apply X hop.pathKey Y) (Y.xor hop.nonceXOR)
        (passed ++ [(router, hop)]) := by
  simp only [deliver, carrying, handleUpstream, passing.1, passing.2, Bool.false_eq_true, if_false,
    nil_append, transits, map_append, append_assoc]
  rfl

theorem deliver_of_passesDown {sender router : RouterID} {id : PathID} {hop : TransitHop}
    {X : Payload} {Y : TunnelNonce} {passed : List (RouterID × TransitHop)}
    (passing : PassesDown net.contexts sender router id hop) :
    deliver cipher (net.carrying .downstream (sender, router, id) X Y passed) =
      net.carrying .downstream (router, hop.down) (cipher.apply X hop.pathKey Y)
        (Y.xor hop.nonceXOR) (passed ++ [(router, hop)]) := by
  have found : (net.contexts router).getByUpstream sender id = some (.transit hop) := passing
  simp only [deliver, carrying, handleDownstream, found, nil_append, transits, map_append,
    append_assoc]
  rfl

end PathNetwork

/-! ### The way through a committed path -/

/-- Every router in the list finds its hop under both identifiers. -/
def Findable (contexts : RouterID → PathContext) (route : List (RouterID × TransitHop)) : Prop :=
  ∀ stop ∈ route, ∀ id, id = stop.2.info.txID ∨ id = stop.2.info.rxID →
    ∀ check : TransitHop → Bool, check stop.2 = true →
      (contexts stop.1).mapGet id check = some stop.2

section Ways

variable {contexts : RouterID → PathContext} (hops : List PathHopConfig) (last : PathHopConfig)

/-- On the way up, a hop is looked up under its own identifier for receiving, except that the
client writes the one for sending to the first hop. -/
theorem relays_up : ∀ {downstream router : RouterID} {id : PathID},
    Findable contexts (stops downstream (hops ++ [last])) →
    (hops ++ [last]).IsChain (fun hop next => hop.txID = next.rxID ∧ hop.upstream = next.rc) →
    (downstream :: (hops ++ [last]).map (·.rc)).IsChain (· ≠ ·) →
    (∀ hop ∈ (hops ++ [last]).head?, hop.rc = router ∧ (id = hop.txID ∨ id = hop.rxID)) →
    ∃ id', (id' = last.txID ∨ id' = last.rxID) ∧
      Relays (PassesUp contexts) TransitHop.up (downstream, router, id) (stops downstream hops)
        ((hops.getLast?.map (·.rc)).getD downstream, last.rc, id') := by
  induction hops with
  | nil =>
    intro _ _ id _ _ _ known
    obtain ⟨rfl, mine⟩ := known last rfl
    exact ⟨id, mine, .nil _⟩
  | cons hop rest ih =>
    intro downstream _ id findable linked apart known
    obtain ⟨rfl, mine⟩ := known hop rfl
    obtain ⟨joined, linked⟩ := isChain_cons.mp linked
    obtain ⟨-, apart⟩ := isChain_cons_cons.mp apart
    obtain ⟨next, following⟩ : ∃ next, next ∈ (rest ++ [last]).head? := by
      cases rest
      all_goals exact ⟨_, rfl⟩
    have differ : hop.upstream ≠ hop.rc := by
      rw [(joined next following).2]
      refine ((isChain_cons.mp apart).1 next.rc ?_).symm
      rw [head?_map]
      exact Option.mem_map_of_mem _ following
    have found := findable _ (.head _) id mine (·.info.downstream = downstream) (decide_eq_true rfl)
    obtain ⟨id', mine', others⟩ := ih (fun stop member => findable stop (.tail _ member)) linked apart
      fun next member => ⟨(joined next member).2.symm, .inr (joined next member).1⟩
    have back : (rest.getLast?.map (·.rc)).getD hop.rc =
        ((hop :: rest).getLast?.map (·.rc)).getD downstream := by
      rw [getLast?_cons]
      cases rest.getLast?
      all_goals rfl
    rw [back] at others
    exact ⟨id', mine', .cons ⟨found, decide_eq_false differ⟩ others⟩

/-- On the way down, a hop is looked up under its identifier for sending, which the next hop
has written. The router must not take it for one of its own paths. -/
theorem relays_down {client : RouterID} (findable : Findable contexts (stops client hops))
    (foreign : ∀ hop ∈ hops, (contexts hop.rc).ourPaths[hop.txID]? = none)
    (linked : hops.IsChain fun hop next => hop.txID = next.rxID ∧ hop.upstream = next.rc) :
    ∀ {sender : RouterID} {id : PathID},
      (∀ hop ∈ hops.getLast?, hop.txID = id ∧ hop.upstream = sender) →
      ∃ sender', Relays (PassesDown contexts) TransitHop.down
        (sender, (hops.getLast?.map (·.rc)).getD client, id) (stops client hops).reverse
        (sender', client, (hops.head?.map (·.rxID)).getD id) := by
  induction hops using reverseRecOn with
  | nil => exact fun _ => ⟨_, .nil _⟩
  | append_singleton hops hop ih =>
    intro _ _ ends
    obtain ⟨rfl, rfl⟩ := ends hop (by simp)
    rw [stops_concat] at findable ⊢
    rw [forall_mem_append, forall_mem_singleton] at foreign
    obtain ⟨linked, -, joined⟩ := isChain_append.mp linked
    have found := findable _ (mem_append_right _ (mem_singleton_self _)) hop.txID
      (.inl rfl) (·.info.upstream = hop.upstream) (decide_eq_true rfl)
    obtain ⟨sender', others⟩ := ih (fun stop member => findable stop (mem_append_left _ member))
      foreign.1 linked fun before last => joined before last hop rfl
    have first : (hops.head?.map (·.rxID)).getD hop.rxID =
        ((hops ++ [hop]).head?.map (·.rxID)).getD hop.txID := by
      cases hops
      all_goals rfl
    rw [first] at others
    refine ⟨sender', ?_⟩
    rw [reverse_concat, getLast?_concat]
    have passing : (contexts hop.rc).getByUpstream hop.upstream hop.txID =
        some (.transit (hop.record.transitHop ((hops.getLast?.map (·.rc)).getD client))) := by
      rw [getByUpstream, foreign.2, found]
      rfl
    exact .cons passing others

end Ways

namespace Committed

variable {contexts contexts' : RouterID → PathContext} {client : RouterID} {path : Path}

theorem findable (committed : Committed contexts contexts' client path.hops)
    (linked : Path.Linked path.hops) (distinct : path.ids.Nodup)
    (unused : ∀ hop ∈ path.hops, ∀ id ∈ path.ids, ∀ entry ∈ (contexts hop.rc).transitPaths,
      entry.1 ≠ id) :
    Findable contexts' (stops client path.hops) := by
  rintro ⟨router, hop⟩ member id mine check passes
  refine committed.mapGet_eq linked distinct ?_ member mine passes
  obtain ⟨i, here⟩ := mem_iff_getElem?.mp member
  obtain ⟨config, at_i, rfl, -⟩ := of_getElem?_stops here
  exact unused config (mem_of_getElem? at_i)

end Committed

namespace Path

variable {contexts : RouterID → PathContext} {client : RouterID} {path : Path}

theorem getElem?_zero_hops (path : Path) : path.hops[0]? = some path.first := by
  rw [first, ← head?_eq_getElem?, head?_eq_some_head]

/-- A new path is found under the identifier that the first hop writes. -/
theorem getElem?_ourPaths_addOwnPath {ctx : PathContext} (linked : Linked path.hops)
    (distinct : path.ids.Nodup) (unused : ∀ id ∈ path.ids, ctx.Unused id) :
    (ctx.addOwnPath path).ourPaths[path.rxID]? = some path := by
  obtain ⟨receives, sends⟩ := linked.getElem?_ids path.getElem?_zero_hops
  have free := (unused _ (mem_of_getElem? receives)).2
  have differ : path.txID ≠ path.rxID := by
    intro same
    have index := (List.getElem?_inj (List.getElem?_eq_some_iff.mp sends).1 distinct).mp
      (sends.trans ((congrArg some same).trans receives.symm))
    omega
  rw [addOwnPath, getElem?_insertIfNew, if_pos rfl, getElem?_insertIfNew,
    if_neg differ]
  exact congrArg some (by rw [rxID, free, Option.getD_none])

/-- A router does not take an identifier of the path for one of its own paths. The client may
be one of the hops, but not the first one. -/
theorem getElem?_ourPaths_of_apart (linked : Linked path.hops) (distinct : path.ids.Nodup)
    (apart : (client :: path.hops.map (·.rc)).IsChain (· ≠ ·))
    (unused : ∀ router ∈ client :: path.hops.map (·.rc), ∀ id ∈ path.ids,
      (contexts router).Unused id)
    {hop : PathHopConfig} (member : hop ∈ path.hops) :
    (Function.update contexts client ((contexts client).addOwnPath path) hop.rc).ourPaths[
      hop.txID]? = none := by
  obtain ⟨i, here⟩ := mem_iff_getElem?.mp member
  obtain ⟨-, sends⟩ := linked.getElem?_ids here
  have free : (contexts hop.rc).ourPaths[hop.txID]? = none :=
    (unused _ (.tail _ (mem_map_of_mem member)) _ (mem_of_getElem? sends)).2
  by_cases ours : hop.rc = client
  · obtain ⟨receives₀, sends₀⟩ := linked.getElem?_ids path.getElem?_zero_hops
    have inner : i ≠ 0 := by
      rintro rfl
      obtain rfl : path.first = hop := Option.some.inj (path.getElem?_zero_hops.symm.trans here)
      have differ := (isChain_cons.mp apart).1 path.first.rc
        (by rw [head?_map, head?_eq_getElem?, path.getElem?_zero_hops]; rfl)
      exact differ ours.symm
    have other : ∀ {k id}, path.ids[k]? = some id → k ≠ i + 1 → id ≠ hop.txID := by
      rintro k - at_k different rfl
      exact different ((List.getElem?_inj (List.getElem?_eq_some_iff.mp at_k).1 distinct).mp
        (at_k.trans sends.symm))
    have receives : path.rxID ≠ hop.txID := other receives₀ (by omega)
    have differ : path.txID ≠ hop.txID := other sends₀ (by omega)
    rw [ours, Function.update_self, addOwnPath, getElem?_insertIfNew,
      if_neg receives, getElem?_insertIfNew, if_neg differ, ← ours, free]
  · rw [Function.update_of_ne ours, free]

end Path

namespace PathNetwork

variable {cipher : XChaCha20} {contexts contexts' : RouterID → PathContext} {client : RouterID}
  {path : Path}

theorem hops_eq_concat (path : Path) : path.hops = path.hops.dropLast ++ [path.last] :=
  (dropLast_append_getLast path.nonempty).symm

/-- The keys of the relays before the endpoint, and those of the endpoint. -/
theorem keys_eq_concat (client : RouterID) (path : Path) :
    path.keys = stopKeys (stops client path.hops.dropLast) ++
      [(path.last.shared, path.last.nonceXOR)] := by
  rw [stopKeys_stops, Path.keys]
  nth_rewrite 1 [hops_eq_concat path]
  exact map_append

theorem length_hops (client : RouterID) (path : Path) :
    path.hops.length = (stops client path.hops.dropLast).length + 1 := by
  rw [hops_eq_concat path, length_append, length_stops, ← hops_eq_concat]
  rfl

/-- The node before the endpoint, and the hop of the endpoint. -/
def beforeLast (client : RouterID) (path : Path) : RouterID :=
  (path.hops.dropLast.getLast?.map (·.rc)).getD client

def lastHop (client : RouterID) (path : Path) : TransitHop :=
  path.last.record.transitHop (beforeLast client path)

theorem isEndpoint_lastHop (linked : Path.Linked path.hops) :
    (lastHop client path).isEndpoint path.last.rc = true :=
  decide_eq_true (linked.last path.last (getLast?_eq_getLast_of_ne_nil path.nonempty))

theorem stops_eq_concat (client : RouterID) (path : Path) : stops client path.hops =
    stops client path.hops.dropLast ++ [(path.last.rc, lastHop client path)] := by
  nth_rewrite 1 [hops_eq_concat path]
  exact stops_concat ..

/-- The replay filters do not matter to the lookups. -/
theorem findable_update {route : List (RouterID × TransitHop)} (findable : Findable contexts route)
    {ctx : PathContext} (same : ctx.transitPaths = (contexts client).transitPaths) :
    Findable (Function.update contexts client ctx) route := by
  intro stop member id mine check passes
  rw [← findable stop member id mine check passes, Function.update_apply]
  split_ifs with ours
  · rw [mapGet, mapGet, same, ours]
  · rfl

/-- What a client sends up a path arrives at the parser of the endpoint. -/
theorem upstream_arrives (findable : Findable contexts (stops client path.hops))
    (linked : Path.Linked path.hops) (apart : (client :: path.hops.map (·.rc)).IsChain (· ≠ ·))
    (payload : Payload) (nonce : TunnelNonce)
    (fresh : (path, nonce) ∉ (contexts client).upstreamReplay) :
    ∃ net', (deliver cipher)^[path.hops.length]
        (submitUpstream cipher { contexts } client path (payload, nonce)) = net' ∧
      net'.flight = [] ∧ net'.handlers = transits (stops client path.hops) ∧
      net'.parsed = [(path.last.rc, path.last.rxID, payload)] := by
  let sealed := cipher.applyAll (layersBefore xor nonce path.keys) payload
  let net₁ : PathNetwork :=
    { contexts := Function.update contexts client
        { contexts client with upstreamReplay := (path, nonce) :: (contexts client).upstreamReplay } }
  have submitted : submitUpstream cipher { contexts } client path (payload, nonce) =
      net₁.carrying .upstream (client, path.upstream, path.txID) sealed nonce [] := by
    rw [submitUpstream, if_neg fresh, Path.upstreamWork_eq]
    rfl
  have findable₁ : Findable net₁.contexts _ := findable_update findable rfl
  have chain := linked.next
  have first (hop : PathHopConfig) (head : hop ∈ path.hops.head?) :
      hop.rc = path.upstream ∧ (path.txID = hop.txID ∨ path.txID = hop.rxID) := by
    rw [head?_eq_some_head path.nonempty, Option.mem_some_iff] at head
    exact head ▸ ⟨rfl, .inl rfl⟩
  rw [hops_eq_concat path] at findable₁ chain apart first
  obtain ⟨id', mine, relays⟩ := relays_up path.hops.dropLast path.last findable₁ chain apart first
  rw [← beforeLast] at relays
  have relayed := iterate_deliver_of_relays cipher net₁ (deliver_of_passesUp cipher net₁) relays sealed
  -- the endpoint
  have found : (net₁.contexts path.last.rc).getByDownstream (beforeLast client path) id' =
      some (lastHop client path) :=
    findable₁ (path.last.rc, lastHop client path)
      (by rw [stops_concat]; exact mem_concat_self) id' mine _ (decide_eq_true rfl)
  have opened : cipher.apply (cipher.applyAll (layersBefore xor nonce
      (stopKeys (stops client path.hops.dropLast))) sealed) path.last.shared
        (nonceAfter xor nonce (stopKeys (stops client path.hops.dropLast))) = payload := by
    rw [← applyAll_layersBefore_concat, ← keys_eq_concat]
    exact cipher.applyAll_applyAll_self _ payload
  refine ⟨_, rfl, ?_⟩
  rw [submitted, length_hops client, Function.iterate_succ_apply', relayed, stops_eq_concat]
  simp only [deliver, carrying, handleUpstream, found, isEndpoint_lastHop linked, if_true]
  exact ⟨trivial, by simp [transits, net₁], congrArg (fun X => [(path.last.rc, path.last.rxID, X)]) opened⟩

/-- The relays between the endpoint and the client, in the order of the way down. -/
def wayDown (client : RouterID) (path : Path) : List (RouterID × TransitHop) :=
  (stops client path.hops).dropLast.reverse

theorem wayDown_eq (client : RouterID) (path : Path) :
    wayDown client path = (stops client path.hops.dropLast).reverse := by
  rw [wayDown]
  nth_rewrite 1 [hops_eq_concat path]
  rw [stops_concat, dropLast_concat]

/-- What the endpoint of a path sends down arrives at the parser of the client. -/
theorem downstream_arrives (findable : Findable contexts (stops client path.hops))
    (linked : Path.Linked path.hops)
    (foreign : ∀ hop ∈ path.hops, (contexts hop.rc).ourPaths[hop.txID]? = none)
    (ours : (contexts client).ourPaths[path.rxID]? = some path)
    (fresh : ∀ nonce, (path, nonce) ∉ (contexts client).downstreamReplay)
    {last : RouterID × TransitHop} (ends : (stops client path.hops).getLast? = some last)
    (payload : Payload) (nonce : TunnelNonce) :
    ∃ net', (deliver cipher)^[path.hops.length]
        (submitDownstream cipher { contexts } last.1 last.2 (payload, nonce)) = net' ∧
      net'.flight = [] ∧
      net'.handlers = transits (wayDown client path) ++ [(client, .own path)] ∧
      net'.parsed = [(client, path.rxID, payload)] := by
  rw [stops_eq_concat, getLast?_concat] at ends
  cases ends
  let net₁ : PathNetwork := { contexts }
  have submitted : submitDownstream cipher { contexts } path.last.rc (lastHop client path)
      (payload, nonce) =
        net₁.carrying .downstream (path.last.rc, beforeLast client path, path.last.rxID)
          (cipher.apply payload path.last.shared nonce) (nonce.xor path.last.nonceXOR) [] :=
    if_pos (isEndpoint_lastHop linked)
  have chain := linked.next
  rw [hops_eq_concat path] at chain
  obtain ⟨chain, -, joined⟩ := isChain_append.mp chain
  obtain ⟨sender, relays⟩ := relays_down path.hops.dropLast
    (fun stop member => findable stop (by rw [stops_eq_concat]; exact mem_append_left _ member))
    (fun hop member => foreign hop (mem_of_mem_dropLast member)) chain
    fun hop member => joined hop member path.last rfl
  rw [← beforeLast] at relays
  have relayed := iterate_deliver_of_relays cipher net₁ (deliver_of_passesDown cipher net₁) relays
  -- the nonce that arrives leads the client back through the layers of the relays
  have layers := layersAfter_nonceAfter_reverse AlignedBuffer.xor
    AlignedBuffer.xor_xor_cancel nonce path.keys
  have reversed : path.keys.reverse = (path.last.shared, path.last.nonceXOR) ::
      stopKeys (stops client path.hops.dropLast).reverse := by
    rw [keys_eq_concat client, reverse_concat, stopKeys, stopKeys, map_reverse]
  have opened (X : Payload) (Y : TunnelNonce)
      (sealed : X = cipher.applyAll (layersBefore AlignedBuffer.xor nonce path.keys.reverse) payload)
      (mixed : Y = nonceAfter AlignedBuffer.xor nonce path.keys.reverse) :
      (path.downstreamWork cipher (X, Y)).X = payload := by
    rw [Path.X_downstreamWork, sealed, mixed, layers, cipher.applyAll_perm (reverse_perm _)]
    exact cipher.applyAll_applyAll_self _ payload
  rw [reversed] at opened
  have rxID : (path.hops.dropLast.head?.map (·.rxID)).getD path.last.rxID = path.rxID := by
    obtain ⟨first, rest, hops⟩ := exists_cons_of_ne_nil path.nonempty
    cases rest
    all_goals simp [Path.rxID, Path.first, Path.last, hops]
  refine ⟨_, rfl, ?_⟩
  rw [submitted, length_hops client, Function.iterate_succ_apply', ← length_reverse, relayed,
    rxID, wayDown_eq]
  simp only [deliver, carrying, handleDownstream, getByUpstream, net₁, ours, fresh,
    if_false, nil_append, true_and]
  exact congrArg (fun X => [(client, path.rxID, X)]) (opened _ _ rfl rfl)

/-- A path that the client has built and that every hop has committed carries payloads
unchanged in both directions, and every node on the way finds its part of the path under the
identifier in the message. The identifiers were drawn at random: they are different, and not in
use at the routers of the path. -/
theorem payload_unchanged (cipher : XChaCha20) (policies : RouterID → TransitPolicy)
    (contexts : RouterID → PathContext) (client : RouterID) (routers : List RouterID)
    (nonempty : routers ≠ []) (short : routers.length ≤ Path.maxLen)
    (draws : ℕ → PathID × PathID) (keys : ℕ → SharedSecret × ShortHash) (path : Path)
    (built : path = Path.build routers nonempty short draws keys) (distinct : path.ids.Nodup)
    (unused : ∀ router ∈ client :: path.hops.map (·.rc), ∀ id ∈ path.ids,
      (contexts router).Unused id)
    (contexts' : RouterID → PathContext)
    (commits : path.commit policies contexts client = some contexts') (payload : Payload)
    (nonce : TunnelNonce) :
    (∃ net, (deliver cipher)^[path.hops.length]
        (submitUpstream cipher { contexts := contexts' } client path (payload, nonce)) = net ∧
      net.flight = [] ∧ net.handlers = transits (stops client path.hops) ∧
      net.parsed = [(path.last.rc, path.last.rxID, payload)]) ∧
    ∀ last, (stops client path.hops).getLast? = some last →
      ∃ net, (deliver cipher)^[path.hops.length]
          (submitDownstream cipher { contexts := contexts' } last.1 last.2 (payload, nonce)) =
            net ∧
        net.flight = [] ∧
        net.handlers = transits (wayDown client path) ++ [(client, .own path)] ∧
        net.parsed = [(client, path.rxID, payload)] := by
  have linked : Path.Linked path.hops := by
    rw [built]
    exact Path.linked_build ..
  have committed := committed_of_commitAlong commits
  have free : ∀ id ∈ path.ids, (contexts client).Unused id := unused client (.head _)
  have findable : Findable contexts' (stops client path.hops) := by
    refine committed.findable linked distinct fun hop member id known entry filed => ?_
    refine (unused hop.rc (.tail _ (mem_map_of_mem member)) id known).1 entry ?_
    rw [Function.update_apply] at filed
    split_ifs at filed with ours
    · rw [ours]
      exact filed
    · exact filed
  refine ⟨upstream_arrives findable linked committed.apart payload nonce ?_, fun last ends =>
    downstream_arrives findable linked ?_ ?_ ?_ ends payload nonce⟩
  · rw [committed.upstreamReplay]
    simp [addOwnPath]
  · intro _ member
    rw [committed.ourPaths]
    exact Path.getElem?_ourPaths_of_apart linked distinct committed.apart unused member
  · rw [committed.ourPaths, Function.update_self]
    exact Path.getElem?_ourPaths_addOwnPath linked distinct free
  · intro _
    rw [committed.downstreamReplay]
    simp [addOwnPath]

/-- The routers take part in every path. -/
theorem payload_unchanged_three_hops :
    ∃ contexts', Path.shortPath.commit (fun _ => ⟨true, false, fun _ => true⟩) (fun _ => {})
        (.copy 32 [9]) = some contexts' ∧
      ∃ net, (deliver ⟨fun _ _ _ => 7⟩)^[3]
          (submitUpstream ⟨fun _ _ _ => 7⟩ { contexts := contexts' } (.copy 32 [9]) Path.shortPath
            (⟨[1, 2, 3], by decide⟩, .zero 32)) = net ∧
        net.flight = [] ∧ net.handlers = transits (stops (.copy 32 [9]) Path.shortPath.hops) ∧
        net.parsed = [(.copy 32 [3], Path.shortPath.last.rxID, ⟨[1, 2, 3], by decide⟩)] := by
  obtain ⟨contexts', commits⟩ := Option.isSome_iff_exists.mp
    (show (Path.shortPath.commit (fun _ => ⟨true, false, fun _ => true⟩) (fun _ => {})
      (.copy 32 [9])).isSome = true by decide +kernel)
  exact ⟨contexts', commits, (payload_unchanged _ _ _ _ _ _ _ _ _ Path.shortPath rfl
    (by decide +kernel) (fun _ _ _ _ => ⟨by simp, by simp⟩) contexts' commits _ _).1⟩

end PathNetwork

end Llarp

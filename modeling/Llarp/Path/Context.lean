import Llarp.Crypto.Types
import Llarp.Foundation.Maps
import Llarp.Foundation.StreamCipher
import Llarp.Foundation.Xor

/-!
# Paths, transit hops and the path context

A client keeps a `Path` with the keys of all its hops. Every hop keeps a `TransitHop` with its
own key. Both are filed under two identifiers in the `PathContext` of their router, one for
each direction, and both change the nonce of a message by their `nonceXOR`. A relay strips or
adds one layer of encryption, the client all of them.
-/

namespace Llarp

open Foundation

/-- The longest path. -/
def Path.maxLen : ℕ := 8

/-- What fits into a relayed message: the largest link message without its frame. -/
def maxPayload : ℕ := 8192 - 128

abbrev Payload := BoundedBytes maxPayload

/-- The stream of `xchacha20` depends on the key and the nonce. (The library only reads the
first 24 bytes of the nonce.) -/
abbrev XChaCha20 := StreamCipher SharedSecret TunnelNonce

/-- What is submitted to a worker. -/
abbrev TrafficEvent := Payload × TunnelNonce

/-- A `RelayUpstreamMessage` or a `RelayDownstreamMessage`. -/
structure RelayMessage where
  pathid : PathID
  X : Payload
  Y : TunnelNonce
  deriving DecidableEq, Repr

structure TransitHopInfo where
  txID : PathID
  rxID : PathID
  upstream : RouterID
  downstream : RouterID
  deriving DecidableEq, Repr

structure TransitHop where
  info : TransitHopInfo
  pathKey : SharedSecret
  nonceXOR : ShortHash
  deriving DecidableEq, Repr

namespace TransitHop

def isEndpoint (hop : TransitHop) (us : RouterID) : Bool := hop.info.upstream = us

/-- The body of the loop of `TransitWorker::RunUpstream`. -/
def runUpstream (cipher : XChaCha20) (hop : TransitHop) (ev : TrafficEvent) : RelayMessage where
  pathid := hop.info.txID
  X := cipher.apply ev.1 hop.pathKey ev.2
  Y := ev.2.xor hop.nonceXOR

/-- The body of the loop of `TransitWorker::RunDownstream`. -/
def runDownstream (cipher : XChaCha20) (hop : TransitHop) (ev : TrafficEvent) :
    RelayMessage where
  pathid := hop.info.rxID
  X := cipher.apply ev.1 hop.pathKey ev.2
  Y := ev.2.xor hop.nonceXOR

end TransitHop

/-- The client's side of a hop. -/
structure PathHopConfig where
  rc : RouterID
  txID : PathID
  rxID : PathID
  shared : SharedSecret
  nonceXOR : ShortHash
  upstream : RouterID
  deriving DecidableEq, Repr

/-- A path that we made. -/
structure Path where
  hops : List PathHopConfig
  nonempty : hops ≠ []
  length_le : hops.length ≤ Path.maxLen
  deriving DecidableEq, Repr

namespace Path

variable (cipher : XChaCha20) (path : Path) (ev : TrafficEvent)

def first : PathHopConfig := path.hops.head path.nonempty

def last : PathHopConfig := path.hops.getLast path.nonempty

def upstream : RouterID := path.first.rc

def txID (path : Path) : PathID := path.first.txID

def rxID (path : Path) : PathID := path.first.rxID

/-- The body of the loop of `PathWorker::UpstreamWork`: the nonce changes after each layer. -/
def upstreamWork : RelayMessage where
  pathid := path.txID
  X := (path.hops.foldl (fun (buf, n) hop =>
    (cipher.apply buf hop.shared n, n.xor hop.nonceXOR)) ev).1
  Y := ev.2

/-- The body of the loop of `PathWorker::DownstreamWork`: the nonce changes before each layer.
The message goes to the parser, and its path identifier is not set. -/
def downstreamWork : RelayMessage :=
  let done := path.hops.foldl (fun (buf, n) hop =>
    let Y := n.xor hop.nonceXOR
    (cipher.apply buf hop.shared Y, Y)) ev
  ⟨.zero 16, done.1, done.2⟩

end Path

inductive HopHandler where
  | own (path : Path)
  | transit (hop : TransitHop)
  deriving DecidableEq

/-- The paths of a router: its own ones, and those that it is a hop of, each under both of its
identifiers. `upstreamReplay` and `downstreamReplay` are the nonces in the replay filters of
its own paths. -/
structure PathContext where
  ourPaths : Std.ExtTreeMap PathID Path := ∅
  transitPaths : List (PathID × TransitHop) := []
  upstreamReplay : List (Path × TunnelNonce) := []
  downstreamReplay : List (Path × TunnelNonce) := []

namespace PathContext

variable (ctx : PathContext)

/-- The first hop under an identifier that passes the check. -/
def mapGet (id : PathID) (check : TransitHop → Bool) : Option TransitHop :=
  (ctx.transitPaths.find? fun entry => entry.1 = id ∧ check entry.2).map (·.2)

/-- File a path of our own. It is new, so that its replay filters are empty. -/
def addOwnPath (path : Path) : PathContext :=
  { ctx with
    ourPaths := (ctx.ourPaths.insertIfNew path.txID path).insertIfNew path.rxID path
    upstreamReplay := ctx.upstreamReplay.filter (·.1 ≠ path)
    downstreamReplay := ctx.downstreamReplay.filter (·.1 ≠ path) }

def hasTransitHop (info : TransitHopInfo) : Bool := (ctx.mapGet info.txID (·.info = info)).isSome

def putTransitHop (hop : TransitHop) : PathContext :=
  { ctx with
    transitPaths := (hop.info.rxID, hop) :: (hop.info.txID, hop) :: ctx.transitPaths }

def getByUpstream (remote : RouterID) (id : PathID) : Option HopHandler :=
  match ctx.ourPaths[id]? with
  | some path => some (.own path)
  | none => (ctx.mapGet id (·.info.upstream = remote)).map .transit

def getByDownstream (remote : RouterID) (id : PathID) : Option TransitHop :=
  ctx.mapGet id (·.info.downstream = remote)

/-- If all the hops under an identifier that pass are the same, this one is found. -/
theorem mapGet_eq_of_unique {ctx : PathContext} {id : PathID} {check : TransitHop → Bool}
    {hop : TransitHop} (filed : (id, hop) ∈ ctx.transitPaths) (passes : check hop = true)
    (unique : ∀ other, (id, other) ∈ ctx.transitPaths → other = hop) :
    ctx.mapGet id check = some hop := by
  unfold mapGet
  cases found : ctx.transitPaths.find? fun entry => entry.1 = id ∧ check entry.2 with
  | none =>
    have refused := List.find?_eq_none.mp found (id, hop) filed
    simp [passes] at refused
  | some entry =>
    have under : entry.1 = id := by
      have passed := List.find?_some found
      simp only [decide_eq_true_eq] at passed
      exact passed.1
    have member : (id, entry.2) ∈ ctx.transitPaths := under ▸ List.mem_of_find?_eq_some found
    rw [Option.map_some, unique entry.2 member]

/-- Nothing is filed under an identifier. -/
def Unused (ctx : PathContext) (id : PathID) : Prop :=
  (∀ entry ∈ ctx.transitPaths, entry.1 ≠ id) ∧ ctx.ourPaths[id]? = none

end PathContext

end Llarp

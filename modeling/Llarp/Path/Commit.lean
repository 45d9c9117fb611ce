import Llarp.Path.Records
import Mathlib.Data.List.Nodup

/-!
# Building a path

The client draws the identifiers of a path and exchanges keys with its hops. Its commit message
then goes from hop to hop: each one decrypts the first frame, files the hop that the record
asks for and passes the other frames on, until it has reached the farthest one.
-/

namespace Llarp

open Foundation

/-! ### The client -/

namespace Path

/-- The first loop of the constructor: the identifiers are drawn, those for sending and those
for receiving. -/
def randomHops (draws : ℕ → PathID × PathID) (routers : List RouterID) : List PathHopConfig :=
  routers.mapIdx fun idx rc =>
    { rc, txID := (draws idx).1, rxID := (draws idx).2, shared := .zero 32, nonceXOR := .zero 32,
      upstream := .zero 32 }

/-- The second loop: a hop sends under the identifier under which the next one receives. -/
def linkHops : List PathHopConfig → List PathHopConfig
  | hop :: next :: rest => { hop with txID := next.rxID } :: linkHops (next :: rest)
  | hops => hops

/-- `GenerateNextKey`, for one hop after the other. -/
def generateKeys (keys : ℕ → SharedSecret × ShortHash) : ℕ → List PathHopConfig →
    List PathHopConfig
  | idx, hop :: next :: rest =>
    { hop with shared := (keys idx).1, nonceXOR := (keys idx).2, upstream := next.rc } ::
      generateKeys keys (idx + 1) (next :: rest)
  | idx, [hop] => [{ hop with shared := (keys idx).1, nonceXOR := (keys idx).2, upstream := hop.rc }]
  | _, [] => []

@[simp] theorem length_linkHops (hops : List PathHopConfig) :
    (linkHops hops).length = hops.length := by
  fun_induction linkHops hops with
  | case1 hop next rest ih => simpa using ih
  | case2 hops => rfl

@[simp] theorem length_generateKeys (keys : ℕ → SharedSecret × ShortHash) (idx : ℕ)
    (hops : List PathHopConfig) : (generateKeys keys idx hops).length = hops.length := by
  fun_induction generateKeys keys idx hops with
  | case1 idx hop next rest ih => simpa using ih
  | case2 idx hop => rfl
  | case3 idx => rfl

/-- A path through the given routers. -/
def build (routers : List RouterID) (nonempty : routers ≠ []) (short : routers.length ≤ maxLen)
    (draws : ℕ → PathID × PathID) (keys : ℕ → SharedSecret × ShortHash) : Path where
  hops := generateKeys keys 0 (linkHops (randomHops draws routers))
  nonempty := by
    rw [← List.length_pos_iff] at nonempty ⊢
    simpa [randomHops] using nonempty
  length_le := by simpa [randomHops] using short

/-- The frames of the commit message. -/
def frames (path : Path) : List CommitFrame :=
  path.hops.map (fun hop => .encrypted hop.rc hop.record) ++
    List.replicate (maxLen - path.hops.length) .random

end Path

/-! ### The relays -/

/-- What a relay asks of its router: whether it takes part in paths, whether the address of the
client has made too many, and whether paths to a router are allowed. -/
structure TransitPolicy where
  allowingTransit : Bool
  pathLimitHit : Bool
  pathToRouterAllowed : RouterID → Bool

inductive CommitOutcome where
  | dropped
  | refused (status : UInt64)
  | confirmed
  | forwarded (nextHop : RouterID) (frames : List CommitFrame)
  deriving DecidableEq

namespace PathContext

variable (policy : TransitPolicy) (us : RouterID) (ctx : PathContext)

def sendLRCM (hop : TransitHop) (frames : List CommitFrame) : PathContext × CommitOutcome :=
  if ctx.hasTransitHop hop.info then (ctx, .refused LRStatusRecord.failDuplicateHop)
  else if policy.pathLimitHit then (ctx, .refused LRStatusRecord.failCongestion)
  else if !policy.pathToRouterAllowed hop.info.upstream then
    (ctx, .refused LRStatusRecord.failDestInvalid)
  else (ctx.putTransitHop hop, .forwarded hop.info.upstream frames)

def sendPathConfirm (hop : TransitHop) : PathContext × CommitOutcome :=
  if ctx.hasTransitHop hop.info then (ctx, .refused LRStatusRecord.failDuplicateHop)
  else (ctx.putTransitHop hop, .confirmed)

/-- A commit message is handled. The frames move up by one, with random bytes at the end. -/
def handleLRCM (downstream : RouterID) (frames : List CommitFrame) :
    PathContext × CommitOutcome :=
  if frames.length ≠ Path.maxLen then (ctx, .dropped)
  else if !policy.allowingTransit then (ctx, .dropped)
  else
    match frames with
    | [] => (ctx, .dropped)
    | frame :: rest =>
      match frame.doDecrypt us with
      | none => (ctx, .dropped)
      | some record =>
        if record.txid.isZero || record.rxid.isZero then (ctx, .dropped)
        else if record.nextHop = us then ctx.sendPathConfirm (record.transitHop downstream)
        else ctx.sendLRCM policy (record.transitHop downstream) (rest ++ [.random])

end PathContext

/-- Every hop commits, one after the other: the last one is the farthest, and each other one
passes the message on to the next. No router connects to itself. -/
def commitAlong (policies : RouterID → TransitPolicy) : List PathHopConfig →
    (RouterID → PathContext) → RouterID → List CommitFrame → Option (RouterID → PathContext)
  | [], contexts, _, _ => some contexts
  | hop :: rest, contexts, downstream, frames =>
    if hop.rc = downstream then none
    else
      match (contexts hop.rc).handleLRCM (policies hop.rc) hop.rc downstream frames with
      | (ctx, .confirmed) =>
        if rest.isEmpty then some (Function.update contexts hop.rc ctx) else none
      | (ctx, .forwarded nextHop frames) =>
        if rest.head?.map (·.rc) = some nextHop then
          commitAlong policies rest (Function.update contexts hop.rc ctx) hop.rc frames
        else none
      | _ => none

/-- The client files a path and has it committed at each hop. -/
def Path.commit (policies : RouterID → TransitPolicy) (contexts : RouterID → PathContext)
    (client : RouterID) (path : Path) : Option (RouterID → PathContext) :=
  commitAlong policies path.hops
    (Function.update contexts client ((contexts client).addOwnPath path)) client path.frames

/-- A path through the routers 1, 2 and 3. -/
def Path.shortPath : Path :=
  .build [.copy 32 [1], .copy 32 [2], .copy 32 [3]] (by simp) (by decide)
    (fun i => (.copy 16 [100 + UInt8.ofNat i], .copy 16 [200 + UInt8.ofNat i]))
    (fun i => (.copy 32 [10 + UInt8.ofNat i], .copy 32 [20 + UInt8.ofNat i]))

end Llarp

import Llarp.Foundation.Queues
import Llarp.Foundation.Run
import Llarp.Crypto.Types
import Llarp.Util.Bencode

/-!
# The outbound message handler

A message that is queued for a router waits in one of three places: with the others for a
router that has no session yet, in the shared outbound queue, or in the queue of its path,
where a pump sorts it. From there it goes to the link layer. Every message may come with a
callback, which is to be told what became of the message.

The callback of a message is named by the number of the call that queued the message.
-/

namespace Llarp

open Foundation

inductive SendStatus where
  | success
  | timeout
  | noLink
  | invalidRouter
  | routerNotFound
  | congestion
  deriving DecidableEq

inductive SessionResult where
  | establish
  | timeout
  | routerNotFound
  | invalidRouter
  | noLink
  | establishFail
  deriving DecidableEq

def SessionResult.toSendStatus : SessionResult → SendStatus
  | .establish => .success
  | .timeout => .timeout
  | .establishFail => .timeout
  | .routerNotFound => .routerNotFound
  | .invalidRouter => .invalidRouter
  | .noLink => .noLink

/-- A link message as the handler sees it. `encoding` are the bytes that it is to be written
as, unless it cannot be encoded. -/
structure OutboundMessage where
  pathid : PathID
  priority : UInt16
  encoding : Option (List UInt8)

structure MessageQueueEntry where
  priority : UInt16
  message : List UInt8
  inform : Option ℕ
  pathid : PathID
  router : RouterID
  deriving DecidableEq

abbrev MessageQueue := List MessageQueueEntry

/-- The order in which the priority queues of the handler hand out their entries. -/
abbrev MessageOrder := Heap fun entry : MessageQueueEntry => entry.priority.toNat

/-- What the link manager and the lookup handler answer about a router. -/
structure RouterView where
  sessionIsClient : Option Bool
  sessionIsAllowed : Bool
  hasSession : Bool

/-- The handler. `calls` counts the calls of `queueMessage`. The last four fields record what
the handler does outwards: the callbacks whose messages it accepted, the entries that it gave
to the link manager, the callbacks that it scheduled, and the sessions that it asked for. -/
structure OutboundMessageHandler where
  maxQueueSize : ℕ := 1000
  outboundQueue : List MessageQueueEntry := []
  recentlyRemovedPaths : Std.ExtTreeMap PathID ℕ := ∅
  removedSomePaths : Bool := false
  pendingSessionMessageQueues : Std.ExtTreeMap RouterID MessageQueue := ∅
  outboundMessageQueues : Std.ExtTreeMap PathID MessageQueue := ∅
  roundRobinOrder : List PathID := []
  calls : ℕ := 0
  accepted : List ℕ := []
  handed : List MessageQueueEntry := []
  scheduled : List (ℕ × SendStatus) := []
  requested : List RouterID := []

namespace OutboundMessageHandler

def maxLinkMsgSize : ℕ := 8192

def maxPathQueueSize : ℕ := 100

/-- How long a removed path is remembered, in milliseconds. -/
def removedPathInterval : ℕ := 5000

/-- The path id of messages that belong to no path. -/
def zeroID : PathID := AlignedBuffer.zero 16

def init (maxQueueSize : ℕ) : OutboundMessageHandler :=
  { maxQueueSize, outboundMessageQueues := (∅ : Std.ExtTreeMap PathID MessageQueue).insert zeroID [] }

variable (order : MessageOrder) (s : OutboundMessageHandler)

def doCallback (callback : Option ℕ) (status : SendStatus) : OutboundMessageHandler :=
  { s with scheduled := s.scheduled ++ (callback.map fun c => (c, status)).toList }

variable (pathid : PathID) (status : SendStatus) (entry : MessageQueueEntry)

/-- Give an entry to the link manager, with its callback. -/
def send : OutboundMessageHandler :=
  { s with handed := s.handed ++ [entry] }

def encodeBuffer (msg : OutboundMessage) : Option (List UInt8) :=
  msg.encoding.bind (Bencode.fit maxLinkMsgSize)

def queueOutboundMessage : OutboundMessageHandler :=
  if s.outboundQueue.length < s.maxQueueSize then
    { s with outboundQueue := s.outboundQueue ++ [entry] }
  else s.doCallback entry.inform .congestion

/-- Queue an entry for a router that has no session, and ask for one if this is the first. -/
def queuePending : OutboundMessageHandler :=
  let queue := s.pendingSessionMessageQueues[entry.router]?
  { s with
    pendingSessionMessageQueues :=
      s.pendingSessionMessageQueues.insert entry.router (queue.getD [] ++ [entry])
    requested := s.requested ++ if queue.isNone then [entry.router] else [] }

/-- The callback of the next call, if the caller has one. -/
def callback (informed : Bool) : Option ℕ := if informed then some s.calls else none

/-- The call was made, and with `true` as its result the message counts as accepted. -/
def called (informed result : Bool) : OutboundMessageHandler :=
  { s with
    calls := s.calls + 1
    accepted := s.accepted ++ if result then (s.callback informed).toList else [] }

def queueMessage (remote : RouterID) (msg : OutboundMessage) (informed : Bool)
    (view : RouterView) : OutboundMessageHandler :=
  let callback := s.callback informed
  -- the source negates an optional, so a session that is known not to be a client's counts too
  if view.sessionIsClient.isNone && !view.sessionIsAllowed then
    (s.called informed true).doCallback callback .invalidRouter
  else
    match encodeBuffer msg with
    | none => s.called informed false
    | some message =>
      let entry : MessageQueueEntry :=
        { priority := msg.priority, message, inform := callback, pathid := msg.pathid,
          router := remote }
      if view.hasSession then (s.called informed true).queueOutboundMessage entry
      else (s.called informed true).queuePending entry

/-! ### Pumping -/

/-- Forget the paths that were removed long enough ago. -/
def decay (now : ℕ) : OutboundMessageHandler :=
  { s with recentlyRemovedPaths :=
      s.recentlyRemovedPaths.filter fun _ removed => now < removedPathInterval + removed }

def removedRecently : Bool := s.recentlyRemovedPaths[pathid]?.isSome

/-- Make a queue for a path, and give it a turn, unless it has one. -/
def emplaceQueue : OutboundMessageHandler :=
  { s with
    outboundMessageQueues := s.outboundMessageQueues.insertIfNew pathid []
    roundRobinOrder := s.roundRobinOrder ++
      if s.outboundMessageQueues[pathid]?.isNone && pathid ≠ zeroID then [pathid] else [] }

/-- Sort an entry of the outbound queue into the queue of its path. -/
def processEntry : OutboundMessageHandler :=
  if s.removedRecently entry.pathid then s
  else if (s.outboundMessageQueues[entry.pathid]?.getD []).length < maxPathQueueSize ||
      entry.pathid = zeroID then
    { s.emplaceQueue entry.pathid with
      outboundMessageQueues :=
        s.outboundMessageQueues.insert entry.pathid
          (s.outboundMessageQueues[entry.pathid]?.getD [] ++ [entry]) }
  else (s.emplaceQueue entry.pathid).doCallback entry.inform .congestion

def processOutboundQueue : OutboundMessageHandler :=
  s.outboundQueue.foldl processEntry { s with outboundQueue := [] }

/-- Send the messages that belong to no path. -/
def sendRouting : OutboundMessageHandler :=
  (order.drainAll (s.outboundMessageQueues[zeroID]?.getD [])).foldl send
    { s with outboundMessageQueues := s.outboundMessageQueues.insert zeroID [] }

/-- Take removed paths out of the round-robin order. -/
def dropStale : OutboundMessageHandler :=
  { s with
    removedSomePaths := false
    roundRobinOrder :=
      if s.removedSomePaths then
        s.roundRobinOrder.filter fun pathid => s.outboundMessageQueues[pathid]?.isSome
      else s.roundRobinOrder }

/-- The loop over the queues of the paths, with the number of queues in a row that were empty.
It ends when they are as many as there are queues. The source's limit on the messages of one
tick is compared with a counter that nothing increases. -/
def roundRobin (numQueues : ℕ) : (fuel consecutiveEmpty : ℕ) → OutboundMessageHandler →
    OutboundMessageHandler × ℕ
  | 0, consecutiveEmpty, s => (s, consecutiveEmpty)
  | fuel + 1, consecutiveEmpty, s =>
    match s.roundRobinOrder with
    | [] => (s, consecutiveEmpty)
    | pathid :: others =>
      let queue := s.outboundMessageQueues[pathid]?.getD []
      let rotated := { s with roundRobinOrder := others ++ [pathid] }
      let (next, empty) :=
        match order.top queue with
        | some entry =>
          -- the counter restarts at one although the queue was not empty
          ({ rotated.send entry with outboundMessageQueues :=
              s.outboundMessageQueues.insert pathid (queue.erase entry) }, 1)
        | none =>
          ({ rotated with outboundMessageQueues :=
              s.outboundMessageQueues.insertIfNew pathid [] }, consecutiveEmpty + 1)
      if empty = numQueues then (next, empty) else roundRobin numQueues fuel empty next

/-- Enough rounds to empty all queues and to find them empty. -/
def rounds : ℕ := s.roundRobinOrder.length * ((contents s.outboundMessageQueues).length + 1)

/-- Send what is queued. The result says whether there is more to send. -/
def sendRoundRobin : OutboundMessageHandler × Bool :=
  let s := (s.sendRouting order).dropStale
  let numQueues := s.roundRobinOrder.length
  if numQueues = 0 then (s, false)
  else
    let (s, consecutiveEmpty) := roundRobin order numQueues s.rounds 0 s
    (s, consecutiveEmpty ≠ numQueues)

def pump (now : ℕ) : OutboundMessageHandler :=
  (((s.decay now).processOutboundQueue).sendRoundRobin order).1

/-! ### Paths and sessions -/

def removePath (now : ℕ) : OutboundMessageHandler :=
  { s with
    recentlyRemovedPaths := s.recentlyRemovedPaths.insertIfNew pathid now
    outboundMessageQueues := s.outboundMessageQueues.erase pathid
    removedSomePaths := true }

/-- What becomes of a message for a router when the attempt at a session is over. -/
def finish : OutboundMessageHandler :=
  if status = .success then s.send entry else s.doCallback entry.inform status

def finalizeSessionRequest (router : RouterID) (status : SendStatus) : OutboundMessageHandler :=
  match s.pendingSessionMessageQueues[router]? with
  | none => s
  | some queue =>
    (order.drainAll queue).foldl (fun s entry => s.finish status entry)
      { s with pendingSessionMessageQueues := s.pendingSessionMessageQueues.erase router }

def onSessionResult (router : RouterID) (result : SessionResult) : OutboundMessageHandler :=
  s.finalizeSessionRequest order router result.toSendStatus

/-- The link layer reports what became of a message that it was given. -/
def delivered (success : Bool) : OutboundMessageHandler :=
  s.doCallback entry.inform (if success then .success else .congestion)

end OutboundMessageHandler

inductive HandlerEvent where
  | queueMessage (remote : RouterID) (msg : OutboundMessage) (informed : Bool) (view : RouterView)
  | pump (now : ℕ)
  | removePath (pathid : PathID) (now : ℕ)
  | onSessionResult (router : RouterID) (result : SessionResult)
  | delivered (entry : MessageQueueEntry) (success : Bool)

/-- One operation of the handler. The link layer reports on messages that it was given. -/
def OutboundMessageHandler.step (order : MessageOrder) (s : OutboundMessageHandler) :
    HandlerEvent → Option OutboundMessageHandler
  | .queueMessage remote msg informed view => some (s.queueMessage remote msg informed view)
  | .pump now => some (s.pump order now)
  | .removePath pathid now => some (s.removePath pathid now)
  | .onSessionResult router result => some (s.onSessionResult order router result)
  | .delivered entry success => if entry ∈ s.handed then some (s.delivered entry success) else none

end Llarp

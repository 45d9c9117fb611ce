import Llarp.Foundation.Threads
import Llarp.Iwp.Session
import Llarp.Router.OutboundMessageHandler

/-!
# The outbound session maker

Sessions to routers are made in the background. A caller leaves a callback, and all callbacks
of a router are told when the attempt is over. Two maps are shared by all threads under one
mutex: which routers have an attempt pending, and the callbacks that wait.

An operation is a chain of frames, one for each critical section. The event loop is thread
zero: while it runs the callbacks of a finished attempt, a callback may call further
operations, whose frames go on top of the stack. The other threads are workers, which leave
callbacks to the event loop.
-/

namespace Llarp

open Foundation

inductive RCRequestResult where
  | success
  | invalidRouter
  | routerNotFound
  | badRC
  deriving DecidableEq

/-- Where an operation stands. Those for a session with a known contact have the contact. -/
inductive SessionFrame where
  | store (router : RouterID) (rc : Option Iwp.RouterContact) (callback : Option ℕ)
  | check (router : RouterID) (rc : Option Iwp.RouterContact)
  | createPending (router : RouterID) (rc : Option Iwp.RouterContact)
  | shortCircuit (router : RouterID) (rc : Option Iwp.RouterContact)
  | contactResult (router : RouterID) (rc : Option Iwp.RouterContact) (result : RCRequestResult)
  | gotContact (router : RouterID) (rc : Iwp.RouterContact)
  | shouldConnect (router : RouterID)
  | doEstablish (router : RouterID)
  | sessionEstablished (router : RouterID)
  | verify (router : RouterID)
  | finalize (router : RouterID) (type : SessionResult)
  | callBack (router : RouterID) (type : SessionResult) (callbacks : List ℕ)
  | erase (router : RouterID)
  deriving DecidableEq

/-- An operation that is called from outside. -/
inductive SessionCall where
  | createSessionTo (router : RouterID) (onResult : Option ℕ)
  | createSessionToContact (rc : Iwp.RouterContact) (onResult : Option ℕ)
  | onRouterContactResult (router : RouterID) (rc : Option Iwp.RouterContact)
      (result : RCRequestResult)
  | onSessionEstablished (router : RouterID)
  | verifyRC (router : RouterID)
  | onConnectTimeout (router : RouterID)
  | doEstablish (router : RouterID)

/-- The shared maps, where a pending session is a null pointer until its contact is known, and
the stacks of the threads. -/
structure OutboundSessionMaker where
  pendingSessions : Std.ExtTreeMap RouterID (Option Iwp.RouterContact) := ∅
  pendingCallbacks : Std.ExtTreeMap RouterID (List ℕ) := ∅
  threads : List (List SessionFrame) := []

/-- A thread enters an operation, or its top frame goes on, with the answer of what it asks
the link manager or the lookup handler. -/
inductive SessionEvent where
  | call (thread : ℕ) (operation : SessionCall)
  | resume (thread : ℕ) (answer : Bool)

def SessionCall.enter : SessionCall → SessionFrame
  | .createSessionTo router onResult => .store router none onResult
  | .createSessionToContact rc onResult => .store rc.pubkey (some rc) onResult
  | .onRouterContactResult router rc result => .contactResult router rc result
  | .onSessionEstablished router => .sessionEstablished router
  | .verifyRC router => .verify router
  | .onConnectTimeout router => .finalize router .timeout
  | .doEstablish router => .doEstablish router

namespace OutboundSessionMaker

/-- What a frame does in its critical section, and the frame that follows, if any. -/
def advance (s : OutboundSessionMaker) (onLoop answer : Bool) :
    SessionFrame → OutboundSessionMaker × List SessionFrame
  | .store router rc none => (s, [.check router rc])
  | .store router rc (some callback) =>
    ({ s with
        pendingCallbacks :=
          s.pendingCallbacks.insert router (s.pendingCallbacks[router]?.getD [] ++ [callback]) },
      [.check router rc])
  | .check router rc =>
    (s,
      if s.pendingSessions[router]?.isNone then [.createPending router rc]
      -- without a contact the operation ends here, with one it goes on
      else if rc.isNone then [] else [.shortCircuit router rc])
  | .createPending router rc =>
    ({ s with pendingSessions := s.pendingSessions.insertIfNew router none },
      [.shortCircuit router rc])
  | .shortCircuit router rc =>
    (s,
      if answer then [.finalize router .establish]
      else
        match rc with
        | none => []
        | some rc => [.gotContact router rc])
  | .contactResult router rc result =>
    (s,
      if s.pendingSessions[router]?.isNone then []
      else
        match result, rc with
        | .success, some rc => [.gotContact router rc]
        | .success, none => [.finalize router .invalidRouter]
        | .invalidRouter, _ => [.finalize router .invalidRouter]
        | .routerNotFound, _ => [.finalize router .routerNotFound]
        | .badRC, _ => [.finalize router .routerNotFound])
  | .gotContact router rc =>
    if s.pendingSessions[router]?.isNone then (s, [])
    else if answer then
      ({ s with pendingSessions := s.pendingSessions.insert router (some rc) },
        [.shouldConnect router])
    else (s, [.finalize router .noLink])
  | .shouldConnect router =>
    (s,
      if answer then (if onLoop then [.doEstablish router] else [])
      else [.finalize router .noLink])
  | .doEstablish router =>
    (s,
      if s.pendingSessions[router]?.isNone || answer then []
      else [.finalize router .establishFail])
  | .sessionEstablished router => (s, if answer then [] else [.finalize router .invalidRouter])
  | .verify router => (s, [.finalize router (if answer then .establish else .invalidRouter)])
  | .finalize router type =>
    ({ s with pendingCallbacks := s.pendingCallbacks.erase router },
      [.callBack router type (s.pendingCallbacks[router]?.getD [])])
  | .callBack router type (_ :: callbacks) => (s, [.callBack router type callbacks])
  | .callBack router _ [] => (s, [.erase router])
  | .erase router => ({ s with pendingSessions := s.pendingSessions.erase router }, [])

/-- An idle thread may enter an operation, and so may a callback that the event loop runs. -/
def mayCall (thread : ℕ) : List SessionFrame → Bool
  | [] => true
  | .callBack _ _ (_ :: _) :: _ => thread = 0
  | _ => false

def step (s : OutboundSessionMaker) : SessionEvent → Option OutboundSessionMaker
  | .call thread operation =>
    match s.threads[thread]? with
    | some stack =>
      if mayCall thread stack then
        some { s with threads := s.threads.set thread (operation.enter :: stack) }
      else none
    | none => none
  | .resume thread answer =>
    match s.threads[thread]? with
    | some (frame :: below) =>
      let (t, next) := s.advance (thread = 0) answer frame
      some { t with threads := s.threads.set thread (next ++ below) }
    | _ => none

/-- An event loop and some workers, all idle. -/
def init (workers : ℕ) : OutboundSessionMaker :=
  { threads := List.replicate (workers + 1) [] }

end OutboundSessionMaker

end Llarp

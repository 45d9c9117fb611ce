import Llarp.Foundation.Maps
import Llarp.Foundation.Run
import Llarp.Service.Protocol

/-!
# Conversations

An endpoint keeps one session entry for each conversation tag. Entries are written by
the callbacks of handshakes, by data messages and by outbound contexts. A handshake is
split: a worker decrypts and verifies the frame and looks for the tag, the messages wait
for their authentication, and the entries are written later on the event loop. A frame
of a session is verified by a worker against what the entry held when the frame came in.

A message that waits carries along who signed its frame, and the messages that arrive and
the changes that frames make are recorded with their signer. The program does not keep
these; they are what the results speak about.
-/

namespace Llarp.Service

open Foundation

/-! ### Session entries -/

structure Session where
  /-- the intro we have -/
  replyIntro : Introduction
  sharedKey : SharedSecret
  remote : ServiceInfo
  /-- the intro they have -/
  intro : Introduction
  seqno : UInt64
  messagesSend : UInt64
  messagesRecv : UInt64
  inbound : Bool
  forever : Bool
  lastSend : ℕ
  lastRecv : ℕ
  deriving DecidableEq, Repr

namespace Session

/-- A default-constructed entry. -/
def empty : Session where
  replyIntro := .empty
  sharedKey := .zero 32
  remote := .empty
  intro := .empty
  seqno := 0
  messagesSend := 0
  messagesRecv := 0
  inbound := false
  forever := false
  lastSend := 0
  lastRecv := 0

def sessionLifetime : ℕ := defaultLifetime * 2

def isExpired (s : Session) (now : ℕ) : Bool :=
  let lastUsed := max s.lastSend s.lastRecv
  if s.forever then false
  else if lastUsed = 0 then s.intro.isExpired now
  else lastUsed ≤ now && sessionLifetime < now - lastUsed

def tx (now : ℕ) (s : Session) : Session :=
  { s with messagesSend := s.messagesSend + 1, lastSend := now }

def rx (now : ℕ) (s : Session) : Session :=
  { s with messagesRecv := s.messagesRecv + 1, lastRecv := now }

end Session

abbrev ConvoMap := Std.ExtTreeMap ConvoTag Session

/-! ### Work in progress -/

/-- What is read of the path that a frame came over. -/
structure Path where
  endpoint : RouterID
  deriving DecidableEq, Repr

/-- A message of a handshake that waits for its authentication. -/
structure PendingAuth where
  msg : ProtocolMessage
  path : Path
  replyPath : PathID
  handshake : Handshake
  deriving DecidableEq, Repr

/-- A frame of a session at a worker, with what its entry held. -/
structure AsyncDecrypt where
  si : ServiceInfo
  shared : SharedSecret
  frame : ProtocolFrame
  path : Path
  deriving DecidableEq, Repr

/-- A message of a session that waits for the event loop. -/
structure RecvDataEvent where
  fromPath : Path
  pathid : PathID
  msg : ProtocolMessage
  /-- the key that verified the frame -/
  signer : PubKey
  deriving DecidableEq, Repr

/-- A tag that is to be reset because of a frame, with the key that verified the frame. -/
structure Reset where
  tag : ConvoTag
  signer : Option PubKey
  deriving DecidableEq, Repr

structure AsyncKeyExchange where
  remote : ServiceInfo
  tag : ConvoTag
  remoteIntro : Introduction
  introReply : Introduction
  deriving DecidableEq, Repr

/-- The entries before and after something that happens because of a frame. -/
structure Change where
  signer : Option PubKey
  before : ConvoMap
  after : ConvoMap

structure Conversations where
  now : ℕ
  identity : ServiceInfo
  /-- whether there is an authentication policy -/
  authPolicy : Bool
  exitEnabled : Bool
  exitMap : List Address
  outboundSessions : List Address
  sessions : ConvoMap
  /-- handshake frames at the workers -/
  decrypting : List (Path × ProtocolFrame)
  /-- the tags whose authentication the policy is busy with -/
  authPending : List ConvoTag
  auths : List PendingAuth
  verifying : List AsyncDecrypt
  recvQueue : List RecvDataEvent
  resets : List Reset
  /-- outbound handshakes before and after their encryption -/
  exchanges : List AsyncKeyExchange
  results : List (AsyncKeyExchange × Handshake)
  /-- the messages for the next pump, with the key that verified their frames -/
  inboundTraffic : List (ProtocolMessage × PubKey)
  /-- the messages that were handled, with the key that verified their frames -/
  handled : List (ProtocolMessage × PubKey)
  changes : List Change
  /-- the handshakes whose keys were derived -/
  handshakes : List Handshake

namespace Conversations

def start (now : ℕ) (identity : ServiceInfo) (authPolicy exitEnabled : Bool)
    (exitMap : List Address) : Conversations where
  now := now
  identity := identity
  authPolicy := authPolicy
  exitEnabled := exitEnabled
  exitMap := exitMap
  outboundSessions := []
  sessions := ∅
  decrypting := []
  authPending := []
  auths := []
  verifying := []
  recvQueue := []
  resets := []
  exchanges := []
  results := []
  inboundTraffic := []
  handled := []
  changes := []
  handshakes := []

def recvQueueSize : ℕ := 512
def inboundTrafficQueueSize : ℕ := 512

variable (host : Host) (c : Conversations) (path : Path) (index : ℕ) (auth : PendingAuth)
  (tag : ConvoTag)

variable (v : AsyncDecrypt) (verdict : Bool) (frame : ProtocolFrame) (replyPath : PathID)
  (msg : ProtocolMessage) (signer : PubKey) (addr : Address) (addressKeys : ServiceInfo)
  (intro : Introduction)

def wantsOutboundSession : Bool :=
  c.outboundSessions.contains addr

/-! ### The setters of an entry

Each one writes the entry of one tag, so each one is a function from the entry that was
there to the one that is there afterwards. -/

def alter (c : Conversations) (tag : ConvoTag) (f : Option Session → Option Session) :
    Conversations :=
  { c with sessions := c.sessions.alter tag f }

/-- An entry that exists keeps its remote. -/
def putSenderFor (info : ServiceInfo) (inbound : Bool) : Conversations :=
  if info.addr.isZero then c
  else
    c.alter tag fun
      | some s => some s
      | none =>
        if c.wantsOutboundSession info.addr && inbound then none
        else some { Session.empty with inbound := inbound, remote := info }

/-- An entry is made if there is none. -/
def putIntroFor : Conversations :=
  c.alter tag fun s => some { s.getD .empty with intro := intro }

def putReplyIntroFor : Conversations :=
  c.alter tag fun s => s.map fun s => { s with replyIntro := intro }

/-- An entry is made if there is none. -/
def putCachedSessionKeyFor (k : SharedSecret) : Conversations :=
  c.alter tag fun s => some { s.getD .empty with sharedKey := k }

def convoTagTX : Conversations :=
  c.alter tag fun s => s.map (Session.tx c.now)

def convoTagRX : Conversations :=
  c.alter tag fun s => s.map (Session.rx c.now)

def removeConvoTag : Conversations :=
  c.alter tag fun _ => none

def hasInboundConvo : Bool :=
  c.sessions.toList.any fun entry => entry.2.remote.addr = addr && entry.2.inbound

/-! ### Data messages -/

def processDataMessage : Conversations :=
  let exits := msg.proto = .exit ∧ (c.exitEnabled = true ∨ msg.sender.addr ∈ c.exitMap)
  if (exits ∨ msg.proto = .trafficV4 ∨ msg.proto = .trafficV6) ∧
      c.inboundTraffic.length < inboundTrafficQueueSize then
    { c with inboundTraffic := c.inboundTraffic ++ [(msg, signer)] }
  else c

def handleDataMessage : Conversations :=
  let put := c.putSenderFor msg.tag msg.sender true
  let intro :=
    if put.hasInboundConvo msg.sender.addr then
      { msg.introReply with pathID := replyPath, router := path.endpoint }
    else msg.introReply
  let received := (put.putReplyIntroFor msg.tag intro).convoTagRX msg.tag
  { received.processDataMessage msg signer with handled := c.handled ++ [(msg, signer)] }

/-- Record what a frame did to the entries. -/
def because (signer : Option PubKey) (before after : Conversations) : Conversations :=
  { after with changes := after.changes ++ [⟨signer, before.sessions, after.sessions⟩] }

/-! ### Handshake frames -/

/-- With a policy there is one authentication at a time for each tag. -/
def asyncProcessAuthMessage (handshake : Handshake) (c : Conversations) (msg : ProtocolMessage) :
    Conversations :=
  if c.authPolicy then
    if msg.tag ∈ c.authPending then c
    else
      { c with
        authPending := msg.tag :: c.authPending
        auths := c.auths ++ [⟨msg, path, replyPath, handshake⟩] }
  else { c with auths := c.auths ++ [⟨msg, path, replyPath, handshake⟩] }

/-- `AsyncFrameDecrypt::Work` on a frame. The signature is checked under the sender of the
first message; there has to be one. -/
def work : Option Conversations :=
  match host.pqeDecrypt frame.C with
  | none => some c
  | some K =>
    match frame.decryptPayload host K with
    | none => some c
    | some [] => none
    | some (first :: others) =>
      let handshake : Handshake := ⟨first.sender, false, K, frame.N⟩
      if !frame.verify host first.sender then some c
      else if first.tag ∈ c.sessions then some c
      else if (host.dhServer first.sender.enckey frame.N).isNone then some c
      else
        some ((first :: others).foldl (asyncProcessAuthMessage path frame.F handshake)
          { c with handshakes := c.handshakes ++ [handshake] })

/-- The callback of an authentication that was accepted. -/
def acceptAuth : Conversations :=
  let msg := auth.msg
  let put := c.putSenderFor msg.tag msg.sender (!c.wantsOutboundSession msg.sender.addr)
  let keyed := (put.putReplyIntroFor msg.tag msg.introReply).putCachedSessionKeyFor msg.tag
    (auth.handshake.sharedKey host)
  keyed.handleDataMessage auth.path auth.replyPath msg auth.handshake.remote.signkey

/-- Without a policy everybody is accepted. A policy rejects what is no authentication. -/
def isAccepted : Bool :=
  !c.authPolicy || (auth.msg.proto = .auth && verdict)

/-- The authentication is over. -/
def authDone : Conversations :=
  { c with
    auths := c.auths.eraseIdx index
    authPending := if c.authPolicy then c.authPending.erase auth.msg.tag else c.authPending }

def authResult : Conversations :=
  match c.auths[index]? with
  | none => c
  | some auth =>
    let done := c.authDone index auth
    if c.isAccepted auth verdict then
      because (some auth.handshake.remote.signkey) c (done.acceptAuth host auth)
    else done

/-! ### Session frames -/

/-- `HandleHiddenServiceFrame`. A frame that discards a session has to be signed by its
remote; a frame without a usable entry resets its tag. -/
def receive : Conversations :=
  if frame.R ≠ 0 then
    match c.sessions[frame.T]? with
    | none => c
    | some s =>
      if frame.verify host s.remote then
        because (some s.remote.signkey) c (c.removeConvoTag frame.T)
      else c
  else if frame.T.isZero then { c with decrypting := c.decrypting ++ [(path, frame)] }
  else
    match c.sessions[frame.T]? with
    | none => because none c (c.removeConvoTag frame.T)
    | some s =>
      if s.sharedKey.isZero || s.remote.addr.isZero then
        because none c (c.removeConvoTag frame.T)
      else
        { c with verifying := c.verifying ++ [⟨s.remote.updateAddr, s.sharedKey, frame, path⟩] }

def queueRecvData (c : Conversations) (msg : ProtocolMessage) : Conversations :=
  if c.recvQueue.length < recvQueueSize then
    { c with
      recvQueue := c.recvQueue ++
        [⟨v.path, v.frame.F, { msg with tag := v.frame.T }, v.si.signkey⟩] }
  else c

/-- A worker verifies a frame and decrypts its messages. -/
def verifyFrame : Conversations :=
  if v.frame.verify host v.si then
    match v.frame.decryptPayload host v.shared with
    | none => { c with resets := c.resets ++ [⟨v.frame.T, some v.si.signkey⟩] }
    | some msgs => msgs.foldl (queueRecvData v) c
  else { c with resets := c.resets ++ [⟨v.frame.T, none⟩] }

def resetConvoTag : Conversations :=
  match c.resets[index]? with
  | none => c
  | some reset =>
    because reset.signer c
      ({ c with resets := c.resets.eraseIdx index }.removeConvoTag reset.tag)

/-- One message of `FlushRecvData`. -/
def flushRecvData : Conversations :=
  match c.recvQueue with
  | [] => c
  | ev :: rest =>
    because (some ev.signer) c
      ({ c with recvQueue := rest }.handleDataMessage ev.fromPath ev.pathid ev.msg ev.signer)

/-- One message of a pump. It counts for its session if it can be delivered. -/
def handleInboundPacket (delivered : Bool) : Conversations :=
  match c.inboundTraffic[index]? with
  | none => c
  | some (msg, signer) =>
    let rest := { c with inboundTraffic := c.inboundTraffic.eraseIdx index }
    if delivered then because (some signer) c (rest.convoTagRX msg.tag) else rest

/-! ### Outbound contexts -/

/-- A context begins a handshake. `addressKeys` are those of its current introduction set,
`exchange.remote` is the identity that it was made for. -/
def asyncGenIntro (exchange : AsyncKeyExchange) : Conversations :=
  let put := c.putSenderFor exchange.tag addressKeys false
  { put with exchanges := put.exchanges ++ [exchange] }

/-- A worker derives the key. The handshake ends here if the frame does not fit. -/
def encrypt (pqKey : SharedSecret) (nonce : KeyExchangeNonce) (fits : Bool) : Conversations :=
  match c.exchanges[index]? with
  | none => c
  | some exchange =>
    let handshake : Handshake := ⟨exchange.remote, true, pqKey, nonce⟩
    let rest := { c with exchanges := c.exchanges.eraseIdx index }
    if fits then
      { rest with
        results := c.results ++ [(exchange, handshake)]
        handshakes := c.handshakes ++ [handshake] }
    else rest

/-- `AsyncKeyExchange::Result`. -/
def exchangeResult : Conversations :=
  match c.results[index]? with
  | none => c
  | some (exchange, handshake) =>
    let rest := { c with results := c.results.eraseIdx index }
    let keyed := (rest.putSenderFor exchange.tag exchange.remote false).putCachedSessionKeyFor
      exchange.tag (handshake.sharedKey host)
    (keyed.putIntroFor exchange.tag exchange.remoteIntro).putReplyIntroFor exchange.tag
      exchange.introReply

def swapIntros : Conversations :=
  (c.putSenderFor tag addressKeys false).putIntroFor tag intro

/-- `EncryptAndSendTo` with this many messages. -/
def encryptAndSendTo (remoteIntro introReply : Introduction) (count : UInt64) : Conversations :=
  if tag ∈ c.sessions then
    ((c.putIntroFor tag remoteIntro).putReplyIntroFor tag introReply).alter tag fun s =>
      s.map fun s => { s with seqno := s.seqno + count }
  else c

/-- `EnsurePathTo` for our own address. -/
def ensurePathToSelf : Conversations :=
  ((c.putSenderFor tag c.identity true).convoTagTX tag).alter tag fun s =>
    some { s.getD .empty with forever := true }

/-! ### Steps -/

inductive Event where
  | wait (duration : ℕ)
  | markAddressOutbound (addr : Address)
  | receive (path : Path) (frame : ProtocolFrame)
  /-- a worker takes a handshake frame -/
  | work (job : ℕ)
  | authResult (index : ℕ) (verdict : Bool)
  /-- a worker takes a session frame -/
  | verifyFrame (job : ℕ)
  | resetConvoTag (index : ℕ)
  | flushRecvData
  | handleInboundPacket (index : ℕ) (delivered : Bool)
  | asyncGenIntro (addressKeys : ServiceInfo) (exchange : AsyncKeyExchange)
  | encrypt (index : ℕ) (pqKey : SharedSecret) (nonce : KeyExchangeNonce) (fits : Bool)
  | exchangeResult (index : ℕ)
  | swapIntros (tag : ConvoTag) (addressKeys : ServiceInfo) (intro : Introduction)
  | encryptAndSendTo (tag : ConvoTag) (remoteIntro introReply : Introduction) (count : UInt64)
  | ensurePathToSelf (tag : ConvoTag)
  | convoTagTX (tag : ConvoTag)
  | convoTagRX (tag : ConvoTag)
  | removeConvoTag (tag : ConvoTag)
  | expireConvoSessions

def step : Event → Option Conversations
  | .wait duration => some { c with now := c.now + duration }
  | .markAddressOutbound addr => some { c with outboundSessions := addr :: c.outboundSessions }
  | .receive path frame => some (c.receive host path frame)
  | .work job =>
    match c.decrypting[job]? with
    | none => some c
    | some (path, frame) =>
      { c with decrypting := c.decrypting.eraseIdx job }.work host path frame
  | .authResult index verdict => some (c.authResult host index verdict)
  | .verifyFrame job =>
    match c.verifying[job]? with
    | none => some c
    | some v => some ({ c with verifying := c.verifying.eraseIdx job }.verifyFrame host v)
  | .resetConvoTag index => some (c.resetConvoTag index)
  | .flushRecvData => some c.flushRecvData
  | .handleInboundPacket index delivered => some (c.handleInboundPacket index delivered)
  | .asyncGenIntro addressKeys exchange => some (c.asyncGenIntro addressKeys exchange)
  | .encrypt index pqKey nonce fits => some (c.encrypt index pqKey nonce fits)
  | .exchangeResult index => some (c.exchangeResult host index)
  | .swapIntros tag addressKeys intro => some (c.swapIntros tag addressKeys intro)
  | .encryptAndSendTo tag remoteIntro introReply count =>
    some (c.encryptAndSendTo tag remoteIntro introReply count)
  | .ensurePathToSelf tag => some (c.ensurePathToSelf tag)
  | .convoTagTX tag => some (c.convoTagTX tag)
  | .convoTagRX tag => some (c.convoTagRX tag)
  | .removeConvoTag tag => some (c.removeConvoTag tag)
  | .expireConvoSessions =>
    some { c with sessions := c.sessions.filter fun _ s => !s.isExpired c.now }

end Conversations

end Llarp.Service

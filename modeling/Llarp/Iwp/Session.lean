import Llarp.Iwp.DataPlane

/-!
# Sessions

A session with a router: the handshake, the pipeline that decrypts packets, the
message transport, and the states it goes through. What it uses of the crypto library
and of the message parser is a parameter. Calls of its link layer are recorded in
order, because the link layer and its sessions share the maps of addresses.
-/

namespace Llarp.Iwp

open Foundation

abbrev SessionToken := AlignedBuffer 24

/-- An address with its port, as one number: it is only compared. -/
abbrev SockAddr := ℕ

/-- The overhead of every packet: keyed hash and nonce. -/
def packetOverhead : ℕ := 64

/-- Two keys, a nonce and a signature. -/
def introSize : ℕ := 32 + 32 + 32 + 64

def plaintextQueueSize : ℕ := 512

def pingInterval : ℕ := 5000
def sessionAliveTimeout : ℕ := pingInterval * 5
def defaultLinkSessionLifetime : ℕ := 5 * 60 * 1000
def linkLayerConnectTimeout : ℕ := 5000

/-- What a session reads of a router contact. -/
structure RouterContact where
  pubkey : PubKey
  isPublicRouter : Bool
  deriving DecidableEq, Repr

/-- The crypto library with the keys of this router, and its message parser. -/
structure Host where
  shorthash : List UInt8 → ShortHash
  hmac : List UInt8 → SharedSecret → Option ShortHash
  xchacha20 : List UInt8 → SharedSecret → TunnelNonce → Option (List UInt8)
  verify : PubKey → List UInt8 → Signature → Bool
  transportDHClient : PubKey → TunnelNonce → Option SharedSecret
  transportDHServer : PubKey → TunnelNonce → Option SharedSecret
  /-- the router contact of a message that is a link introduction and verifies at that time -/
  linkIntro : ℕ → List UInt8 → Option RouterContact

inductive State where
  /-- we have no data received -/
  | initial
  /-- we are in introduction phase -/
  | introduction
  /-- we sent our LIM -/
  | linkIntro
  /-- handshake done and LIM has been obtained -/
  | ready
  /-- we are closed now -/
  | closed
  deriving DecidableEq, Repr

/-- The function that `GotLIM` points to. -/
inductive LIMHandler where
  | inbound
  | outbound
  | reneg
  deriving DecidableEq, Repr

/-- A completion handler: one of a user of the session, or the one that an outbound
session passes along with its link introduction. -/
inductive Handler (H : Type) where
  | user (handler : H)
  | lim
  deriving DecidableEq, Repr

/-- A call of the link layer. -/
inductive LinkCall where
  | mapAddr (pk : PubKey)
  | unmapAddr
  /-- the handler is called, and finds the session with this router in this state -/
  | sessionEstablished (pk : PubKey) (state : State) (inbound : Bool)
  | sessionRenegotiate (rc : RouterContact)
  deriving DecidableEq, Repr

/-- A packet that does not belong to a message. -/
inductive ControlPacket where
  | intro (nonce : TunnelNonce)
  | introAck (token : SessionToken)
  | sessionRequest (token : SessionToken)
  | ping
  | clos
  deriving DecidableEq, Repr

structure Session (H : Type) where
  state : State
  inbound : Bool
  createdAt : ℕ
  remoteAddr : SockAddr
  /-- the transport key of the address that an outbound session was made for -/
  chosenAI : PubKey
  remoteRC : RouterContact
  sessionKey : SharedSecret
  token : SessionToken
  expectedIdent : PubKey
  remoteOnionKey : PubKey
  lastTX : ℕ
  lastRX : ℕ
  gotLIM : LIMHandler
  sentClosed : Bool
  plane : DataPlane (Handler H)
  /-- received packets for the next pump -/
  decryptNext : List (List UInt8)
  /-- packets at the decryption workers -/
  decrypting : List (List UInt8)
  plaintextRecv : List Packet
  calls : List LinkCall
  control : List ControlPacket

/-- What the session finds at its link layer: the time, and whether `MapAddr` would refuse
a router because the session is pending and the router has an authed session. -/
structure Moment where
  now : ℕ
  refuses : PubKey → Bool

namespace Session

variable {H : Type}

variable (host : Host) (s : Session H) (now : ℕ) (m : Moment) (pkt : List UInt8)
  (rc : RouterContact) (ourLIM : Option Message)

/-- A session that we start. -/
def outboundTo (addr : SockAddr) (key : PubKey) : Session H where
  state := .initial
  inbound := false
  createdAt := now
  remoteAddr := addr
  chosenAI := key
  remoteRC := rc
  sessionKey := host.shorthash rc.pubkey.bytes
  token := .zero 24
  expectedIdent := .zero 32
  remoteOnionKey := .zero 32
  lastTX := 0
  lastRX := 0
  gotLIM := .outbound
  sentClosed := false
  plane := .empty
  decryptNext := []
  decrypting := []
  plaintextRecv := []
  calls := []
  control := []

/-- A session for packets from a new address, with a random token. -/
def inboundFrom (ourKey : PubKey) (from_ : SockAddr) (token : SessionToken) : Session H where
  state := .initial
  inbound := true
  createdAt := now
  remoteAddr := from_
  chosenAI := .zero 32
  remoteRC := ⟨.zero 32, false⟩
  sessionKey := host.shorthash ourKey.bytes
  token := token
  expectedIdent := .zero 32
  remoteOnionKey := .zero 32
  lastTX := 0
  lastRX := 0
  gotLIM := .inbound
  sentClosed := false
  plane := .empty
  decryptNext := []
  decrypting := []
  plaintextRecv := []
  calls := []
  control := []

def isEstablished : Bool := s.state = .ready || s.state = .linkIntro

def timedOut : Bool :=
  if s.state = .ready then
    decide (s.lastRX < now ∧
      (if s.inbound && !s.remoteRC.isPublicRouter then defaultLinkSessionLifetime
        else sessionAliveTimeout) < now - s.lastRX)
  else decide (linkLayerConnectTimeout ≤ now - s.createdAt)

def shouldPing : Bool :=
  s.state = .ready && decide (pingInterval < now - s.lastTX)

/-! ### Closing and opening -/

def close : Session H :=
  if s.state = .closed then s
  else
    { s with
      state := .closed
      sentClosed := true
      calls := s.calls ++ [.unmapAddr]
      control := if s.sentClosed then s.control else s.control ++ [.clos] }

/-- Become ready and tell the link layer, which closes the session when it refuses the router. -/
def establish (inbound : Bool) : Session H :=
  let ready : Session H :=
    { s with state := .ready, calls := s.calls ++ [.mapAddr s.remoteRC.pubkey] }
  let mapped : Session H := if m.refuses s.remoteRC.pubkey then ready.close else ready
  { mapped with
    calls := mapped.calls ++ [.sessionEstablished mapped.remoteRC.pubkey mapped.state inbound] }

/-- The handlers of the session's own messages. -/
def completed (s : Session H) (outcome : Outcome (Handler H)) : Session H :=
  match outcome.handler, outcome.status with
  | .user _, _ => s
  | .lim, .success => s.establish m false
  | .lim, .dropped => s.close

/-- Go on with a new state of the transport, and run the handlers that it called. -/
def withPlane (plane : DataPlane (Handler H)) : Session H :=
  (plane.tx.outcomes.drop s.plane.tx.outcomes.length).foldl (completed m) { s with plane := plane }

def sendMessageBuffer (s : Session H) (m : Moment) (buf : Message)
    (handler : Option (Handler H)) (priority : UInt16) : Session H :=
  s.withPlane m
    { s.plane with tx := (s.plane.tx.sendMessageBuffer m.now buf handler priority).1 }

/-- Send our link introduction, if it could be signed and encoded. -/
def sendOurLIM (handler : Option (Handler H)) : Session H :=
  match ourLIM with
  | none => s
  | some buf => s.sendMessageBuffer m buf handler 0

/-! ### Link introductions -/

def gotInboundLIM : Session H :=
  if rc.pubkey ≠ s.expectedIdent then s
  else { s with gotLIM := .reneg, remoteRC := rc }.establish m true

def gotOutboundLIM : Session H :=
  if rc.pubkey ≠ s.remoteRC.pubkey then s
  else { s with gotLIM := .reneg, remoteRC := rc }.sendOurLIM m ourLIM (some .lim)

def gotRenegLIM : Session H :=
  { s with calls := s.calls ++ [.sessionRenegotiate rc] }

/-- A complete message. Only link introductions concern the session itself. -/
def handleMessage (s : Session H) (data : List UInt8) : Session H :=
  match host.linkIntro m.now data with
  | none => s
  | some rc =>
    match s.gotLIM with
    | .inbound => s.gotInboundLIM m rc
    | .outbound => s.gotOutboundLIM m rc ourLIM
    | .reneg => s.gotRenegLIM rc

/-- The hasher answers a request; a verified message is handled. -/
def verdict (request : ℕ) (ourLIM : Option Message) : Session H :=
  let rx := Reception.answer host.shorthash s.plane.rx m.now request
  (rx.delivered.drop s.plane.rx.delivered.length).foldl
    (fun s d => s.handleMessage host m ourLIM d.message.data)
    { s with plane := { s.plane with rx := rx } }

/-! ### The handshake -/

/-- The payload of a packet whose keyed hash is right. -/
def decryptMessageInPlace : Option Packet :=
  if pkt.length ≤ packetOverhead then none
  else
    (host.hmac (pkt.drop 32) s.sessionKey).bind fun h =>
      if h = .copy 32 pkt then
        host.xchacha20 (pkt.drop packetOverhead) s.sessionKey (.copy 32 (pkt.drop 32))
      else none

/-- `GenerateAndSendIntro`, for an outbound session. -/
def start (nonce : TunnelNonce) : Session H :=
  if s.inbound then s
  else
    { s with
      state := .introduction
      control := s.control ++ [.intro nonce]
      sessionKey := (host.transportDHClient s.chosenAI nonce).getD s.sessionKey }

/-- The keys of an introduction are stored before its signature is checked. -/
def handleGotIntro (size : ℕ) (pkt : Packet) : Session H :=
  if size < introSize + packetOverhead then s
  else
    let ident : PubKey := .copy 32 pkt
    let onionKey : PubKey := .copy 32 (pkt.drop 32)
    let named : Session H := { s with expectedIdent := ident, remoteOnionKey := onionKey }
    if host.verify ident (pkt.take 96) (.copy 64 (pkt.drop 96)) then
      match host.transportDHServer onionKey (.copy 32 (pkt.drop 64)) with
      | none => named
      | some key =>
        { named with
          sessionKey := key
          lastRX := m.now
          control := s.control ++ [.introAck s.token]
          state := .introduction }
    else named

def handleCreateSessionRequest : Session H :=
  match s.decryptMessageInPlace host pkt with
  | none => s
  | some payload =>
    if pkt.length < 24 + packetOverhead then s
    else if payload.take 24 ≠ s.token.bytes then s
    else { s with lastRX := m.now, state := .linkIntro }.sendOurLIM m ourLIM none

def handleGotIntroAck : Session H :=
  if pkt.length < 24 + packetOverhead then s
  else
    match s.decryptMessageInPlace host pkt with
    | none => s
    | some payload =>
      { s with
        lastRX := m.now
        token := .copy 24 payload
        control := s.control ++ [.sessionRequest (.copy 24 payload)]
        state := .linkIntro }

/-- `Recv_LL`, with the value that it returns. -/
def recvLL (data : List UInt8) (ourLIM : Option Message) : Session H × Bool :=
  match s.state with
  | .initial =>
    if s.inbound then
      match s.decryptMessageInPlace host data with
      | some payload => (s.handleGotIntro host m data.length payload, true)
      | none => (s, false)
    else (s, true)
  | .introduction =>
    if s.inbound then (s.handleCreateSessionRequest host m data ourLIM, true)
    else (s.handleGotIntroAck host m data, true)
  | .linkIntro | .ready | .closed => ({ s with decryptNext := s.decryptNext ++ [data] }, true)

/-! ### Packets of an established session -/

def pump (s : Session H) (now : ℕ) : Session H :=
  { s with
    control := if s.shouldPing now then s.control ++ [.ping] else s.control
    plane := s.plane.pump now s.isEstablished
    decrypting := s.decrypting ++ s.decryptNext
    decryptNext := [] }

/-- A worker is done with a packet. A full queue drops it. -/
def decrypt (job : ℕ) : Session H :=
  match s.decrypting[job]? with
  | none => s
  | some pkt =>
    let rest : Session H := { s with decrypting := s.decrypting.eraseIdx job }
    match s.decryptMessageInPlace host pkt with
    | none => rest
    | some payload =>
      if payload.head? = some protoVersion ∧ s.plaintextRecv.length < plaintextQueueSize then
        { rest with plaintextRecv := s.plaintextRecv ++ [payload] }
      else rest

/-- Every packet with a known command counts as a sign of life. -/
def heard (data : Packet) : Session H :=
  if (data[1]?.bind Command.ofByte).isSome then { s with lastRX := now } else s

/-- One packet of `HandlePlaintext`. -/
def handlePlaintext (data : Packet) : Option (Session H) :=
  match parse data with
  | none => some (s.heard m.now data)
  | some .clos => some (s.close.heard m.now data)
  | some p => (s.plane.handle m.now p).map fun plane => (s.withPlane m plane).heard m.now data

def plaintext (index : ℕ) : Option (Session H) :=
  match s.plaintextRecv[index]? with
  | none => some s
  | some data =>
    { s with plaintextRecv := s.plaintextRecv.eraseIdx index }.handlePlaintext m data

def tick (s : Session H) (m : Moment) : Session H := s.withPlane m (s.plane.tick m.now)

/-! ### Steps -/

inductive Event (H : Type) where
  | recvLL (data : List UInt8) (ourLIM : Option Message)
  | pump
  /-- a worker has sent a packet -/
  | sendLL
  | decrypt (job : ℕ)
  | plaintext (index : ℕ)
  | sendMACK
  | sendMessageBuffer (buf : Message) (handler : Option H) (priority : UInt16)
  | renegotiateSession (ourLIM : Option Message)
  | triggerHashGen
  | recvHashed (job : ℕ)
  | verdict (request : ℕ) (ourLIM : Option Message)
  | tick
  | close

def step (at_ : Moment × Event H) : Option (Session H) :=
  let m := at_.1
  match at_.2 with
  | .recvLL data ourLIM => some (s.recvLL host m data ourLIM).1
  | .pump => some (s.pump m.now)
  | .sendLL => some { s with lastTX := m.now }
  | .decrypt job => some (s.decrypt host job)
  | .plaintext index => s.plaintext m index
  | .sendMACK => some { s with plane := { s.plane with rx := s.plane.rx.sendMACK } }
  | .sendMessageBuffer buf handler priority =>
    some (s.sendMessageBuffer m buf (handler.map .user) priority)
  | .renegotiateSession ourLIM => some (s.sendOurLIM m ourLIM none)
  | .triggerHashGen => some { s with plane := { s.plane with tx := s.plane.tx.triggerHashGen } }
  | .recvHashed job =>
    some { s with plane :=
      { s.plane with tx := s.plane.tx.recvHashed host.shorthash m.now job } }
  | .verdict request ourLIM => some (s.verdict host m request ourLIM)
  | .tick => some (s.tick m)
  | .close => some s.close

end Session

end Llarp.Iwp

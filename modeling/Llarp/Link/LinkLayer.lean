import Llarp.Iwp.Closed

/-!
# Link layers

A link layer keeps its sessions in three maps: pending sessions by address, authed
sessions by router, and the router of each authed address. Sessions are objects that
the maps share, so a session has a number here and the maps hold numbers.
-/

namespace Llarp.Link

open Foundation Iwp

structure AddressInfo where
  dialect : String
  addr : SockAddr
  pubkey : PubKey
  deriving DecidableEq, Repr

/-- A router contact with the addresses that it advertises. -/
structure Contact where
  rc : Iwp.RouterContact
  addrs : List AddressInfo
  deriving DecidableEq, Repr

/-- A call of the `SessionEstablished` handler: the session that it is called for, and what
it finds. -/
structure Announcement where
  session : ℕ
  pk : PubKey
  state : State
  /-- the authed sessions of the router -/
  stored : List ℕ
  deriving DecidableEq, Repr

structure LinkLayer (H : Type) where
  now : ℕ
  /-- whether this link makes sessions for packets from new addresses -/
  inbound : Bool
  ourKey : PubKey
  /-- every session that was ever made, by its number -/
  sessions : List (Session H)
  authedLinks : List (PubKey × ℕ)
  pending : Std.ExtTreeMap SockAddr ℕ
  authedAddrs : Std.ExtTreeMap SockAddr PubKey
  announcements : List Announcement

namespace LinkLayer

variable {H : Type}

def empty (now : ℕ) (inbound : Bool) (ourKey : PubKey) : LinkLayer H where
  now := now
  inbound := inbound
  ourKey := ourKey
  sessions := []
  authedLinks := []
  pending := ∅
  authedAddrs := ∅
  announcements := []

variable (host : Host) (l : LinkLayer H) (h : ℕ) (addr : SockAddr) (pk : PubKey)

/-- `m_AuthedLinks.count`, as a truth value. -/
def hasSessionTo : Bool := l.authedLinks.any (·.1 = pk)

/-- The authed sessions of a router. -/
def sessionsTo : List ℕ :=
  (l.authedLinks.filter (·.1 = pk)).map Prod.snd

def unmapAddr : LinkLayer H :=
  { l with authedAddrs := l.authedAddrs.erase addr }

/-- Promote the session that is pending at the address. A router that has an authed
session is refused; the session that asked closes itself then. -/
def mapAddr : LinkLayer H :=
  match l.pending[addr]? with
  | none => l
  | some h =>
    if l.hasSessionTo pk then l
    else
      { l with
        authedAddrs := l.authedAddrs.insertIfNew addr pk
        authedLinks := l.authedLinks ++ [(pk, h)]
        pending := l.pending.erase addr }

/-- What a session at this address finds when it asks for its router to be mapped. -/
def moment : Moment where
  now := l.now
  refuses pk := decide (addr ∈ l.pending) && l.hasSessionTo pk

/-- A call of session `h` at this address. -/
def call (l : LinkLayer H) : LinkCall → LinkLayer H
  | .mapAddr pk => l.mapAddr addr pk
  | .unmapAddr => l.unmapAddr addr
  | .sessionEstablished pk state _ =>
    { l with announcements := l.announcements ++ [⟨h, pk, state, l.sessionsTo pk⟩] }
  | .sessionRenegotiate _ => l

/-- A session goes on, and the calls that it made take effect. -/
def update (s' : Session H) : LinkLayer H :=
  match l.sessions[h]? with
  | none => l
  | some s =>
    (s'.calls.drop s.calls.length).foldl (call h s.remoteAddr)
      { l with sessions := l.sessions.set h s' }

/-! ### New sessions -/

def pickAddress (addrs : List AddressInfo) : Option AddressInfo :=
  addrs.find? (·.dialect = "iwp")

/-- A new session, pending at its address. -/
def putSession (s : Session H) : LinkLayer H :=
  { l with
    sessions := l.sessions ++ [s]
    pending := l.pending.insert s.remoteAddr l.sessions.length }

/-- An inbound link throws when it should make an outbound session. -/
def tryEstablishTo (contact : Contact) (nonce : TunnelNonce) : Option (LinkLayer H) :=
  if l.hasSessionTo contact.rc.pubkey then some l
  else
    match pickAddress contact.addrs with
    | none => some l
    | some picked =>
      if picked.addr ∈ l.pending then some l
      else if l.inbound then none
      else
        some (l.putSession
          ((Session.outboundTo host l.now contact.rc picked.addr picked.pubkey).start host nonce))

/-! ### Packets -/

/-- Give a packet to a session. -/
def recvLL (host : Host) (l : LinkLayer H) (h : ℕ) (pkt : List UInt8) (ourLIM : Option Message) :
    LinkLayer H × Bool :=
  match l.sessions[h]? with
  | none => (l, true)
  | some s =>
    let received := s.recvLL host (l.moment s.remoteAddr) pkt ourLIM
    (l.update h received.1, received.2)

/-- A packet from an unknown address makes a session, which is kept only if it accepts
the packet. -/
def recvFrom (pkt : List UInt8) (token : SessionToken) (ourLIM : Option Message) : LinkLayer H :=
  match l.authedAddrs[addr]? with
  | some pk =>
    match l.authedLinks.find? (·.1 = pk) with
    | some entry => (l.recvLL host entry.2 pkt ourLIM).1
    | none => l
  | none =>
    match l.pending[addr]? with
    | some h => (l.recvLL host h pkt ourLIM).1
    | none =>
      if l.inbound then
        let fresh := l.putSession (Session.inboundFrom host l.now l.ourKey addr token)
        let received := fresh.recvLL host l.sessions.length pkt ourLIM
        if received.2 then received.1
        else { received.1 with pending := received.1.pending.erase addr }
      else l

/-! ### Closing -/

/-- Close a session. -/
def close (l : LinkLayer H) (h : ℕ) : LinkLayer H :=
  match l.sessions[h]? with
  | none => l
  | some s => l.update h s.close

def pumpSession : LinkLayer H :=
  match l.sessions[h]? with
  | none => l
  | some s => l.update h (s.pump l.now)

def timedOut (l : LinkLayer H) (h : ℕ) : Bool := (l.sessions[h]?).any (·.timedOut l.now)

/-- The address of a session, if there is one. -/
def addrOf : Option SockAddr := (l.sessions[h]?).map (·.remoteAddr)

def unmapAddrOf : LinkLayer H := (l.addrOf h).elim l l.unmapAddr

/-- One authed session of the sweep. -/
def pumpAuthed (entry : PubKey × ℕ) : LinkLayer H :=
  if l.timedOut entry.2 then
    let closed := (l.close entry.2).unmapAddrOf entry.2
    { closed with authedLinks := closed.authedLinks.erase entry }
  else l.pumpSession entry.2

/-- One pending session of the sweep. -/
def pumpPending (entry : SockAddr × ℕ) : LinkLayer H :=
  if l.timedOut entry.2 then
    let unmapped := l.unmapAddrOf entry.2
    { unmapped with pending := unmapped.pending.erase entry.1 }
  else l.pumpSession entry.2

/-- A pending session that timed out. For an outbound one only a handler is called. -/
def closePending (entry : SockAddr × ℕ) : LinkLayer H :=
  if (l.sessions[entry.2]?).any (·.inbound) then (l.close entry.2).pumpSession entry.2 else l

def pump : LinkLayer H :=
  let authed := l.authedLinks.foldl pumpAuthed l
  let closedPending := authed.pending.toList.filter fun entry => authed.timedOut entry.2
  closedPending.foldl closePending (authed.pending.toList.foldl pumpPending authed)

def closeSessionTo (remote : PubKey) : LinkLayer H :=
  (l.authedLinks.filter (·.1 = remote)).foldl
    (fun l entry =>
      let closed := l.close entry.2
      { closed with authedLinks := closed.authedLinks.erase entry }) l

def stop : LinkLayer H :=
  let authed := l.authedLinks.foldl (fun l entry => l.close entry.2) l
  authed.pending.toList.foldl (fun l entry => l.close entry.2) authed

/-! ### Steps -/

inductive Event (H : Type) where
  | wait (duration : ℕ)
  /-- something happens to a session, other than that it receives a packet -/
  | session (h : ℕ) (event : Session.Event H)
  | recvFrom (addr : SockAddr) (pkt : List UInt8) (token : SessionToken) (ourLIM : Option Message)
  | tryEstablishTo (contact : Contact) (nonce : TunnelNonce)
  | pump
  | closeSessionTo (remote : PubKey)
  | stop

def sessionStep (event : Session.Event H) : Option (LinkLayer H) :=
  match l.sessions[h]? with
  | none => some l
  | some s => (s.step host (l.moment s.remoteAddr, event)).map (l.update h)

def step : Event H → Option (LinkLayer H)
  | .wait duration => some { l with now := l.now + duration }
  | .session _ (.recvLL ..) => some l
  | .session h event => l.sessionStep host h event
  | .recvFrom addr pkt token ourLIM => some (l.recvFrom host addr pkt token ourLIM)
  | .tryEstablishTo contact nonce => l.tryEstablishTo host contact nonce
  | .pump => some l.pump
  | .closeSessionTo remote => some (l.closeSessionTo remote)
  | .stop => some l.stop

end LinkLayer

end Llarp.Link

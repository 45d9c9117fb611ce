import Llarp.Service.Info

/-!
# Protocol frames

Endpoints exchange frames over paths. A frame of a handshake carries the ciphertext of a
post-quantum key exchange and no tag; a frame of a session carries the tag of the
session. The encrypted payload of a frame is one message or a list of messages, and the
frame as a whole is signed. What is used of the crypto library, with the keys of this
endpoint, and the decoder of messages are parameters.
-/

namespace Llarp.Service

open Foundation

inductive ProtocolType where
  | control
  | trafficV4
  | trafficV6
  | exit
  | auth
  | quic
  /-- a number that no type has -/
  | other (value : UInt64)
  deriving DecidableEq, Repr

/-- The inner message. -/
structure ProtocolMessage where
  proto : ProtocolType
  payload : List UInt8
  introReply : Introduction
  sender : ServiceInfo
  tag : ConvoTag
  seqno : UInt64
  deriving DecidableEq, Repr

/-- The outer message. -/
structure ProtocolFrame where
  C : PQCipherBlock
  D : List UInt8
  F : PathID
  N : KeyExchangeNonce
  R : UInt64
  T : ConvoTag
  version : UInt64
  Z : Signature
  deriving DecidableEq, Repr

structure Host where
  shorthash : List UInt8 → ShortHash
  verify : PubKey → List UInt8 → Signature → Bool
  xchacha20 : List UInt8 → SharedSecret → TunnelNonce → List UInt8
  pqeDecrypt : PQCipherBlock → Option SharedSecret
  dhServer : PubKey → KeyExchangeNonce → Option SharedSecret
  dhClient : PubKey → KeyExchangeNonce → Option SharedSecret
  decodeMessage : List UInt8 → Option ProtocolMessage
  decodeMessages : List UInt8 → Option (List ProtocolMessage)

def serviceProtoFrameMaxSize : ℕ := 4096

namespace ProtocolFrame

def bencode (frame : ProtocolFrame) : List UInt8 :=
  Bencode.dict
    ([("A", Bencode.bytestring (Bencode.ascii "H"))] ++
      (if frame.C.isZero then [] else [("C", Bencode.bytestring frame.C.bytes)]) ++
      (if frame.D.isEmpty then [] else [("D", Bencode.bytestring frame.D)]) ++
      [("F", Bencode.bytestring frame.F.bytes)] ++
      (if frame.N.isZero then [] else [("N", Bencode.bytestring frame.N.bytes)]) ++
      (if frame.R = 0 then [] else [("R", Bencode.uint64 frame.R.toNat)]) ++
      (if frame.T.isZero then [] else [("T", Bencode.bytestring frame.T.bytes)]) ++
      [("V", Bencode.uint64 frame.version.toNat), ("Z", Bencode.bytestring frame.Z.bytes)])

/-- The signature is checked under the signing key of the identity. -/
def verify (host : Host) (frame : ProtocolFrame) (svc : ServiceInfo) : Bool :=
  (Bencode.fit serviceProtoFrameMaxSize { frame with Z := .zero 64 }.bencode).any
    fun buf => host.verify svc.signkey buf frame.Z

/-- The first byte tells a message from a list of messages. -/
def decodePayload (host : Host) (buf : List UInt8) : Option (List ProtocolMessage) :=
  if buf.head? = some 100 then (host.decodeMessage buf).map fun msg => [msg]
  else if buf.head? = some 108 then host.decodeMessages buf
  else none

def decryptPayload (host : Host) (frame : ProtocolFrame) (sharedkey : SharedSecret) :
    Option (List ProtocolMessage) :=
  decodePayload host (host.xchacha20 frame.D sharedkey frame.N)

end ProtocolFrame

/-- What a session key is made from. -/
structure Handshake where
  remote : ServiceInfo
  outbound : Bool
  /-- the key of the post-quantum key exchange -/
  pqKey : SharedSecret
  nonce : KeyExchangeNonce
  deriving DecidableEq, Repr

/-- The session key. When the key exchange of an outbound handshake fails, its part of the
key stays zero. -/
def Handshake.sharedKey (host : Host) (h : Handshake) : SharedSecret :=
  let exchanged :=
    if h.outbound then host.dhClient h.remote.enckey h.nonce
    else host.dhServer h.remote.enckey h.nonce
  host.shorthash (h.pqKey.bytes ++ (exchanged.getD (.zero 32)).bytes)

/-! ### A host for concrete runs -/

/-- The identity with this key. -/
def plainService (key : PubKey) : ServiceInfo := ⟨key, key, key⟩

/-- A message that names this sender and this tag. -/
def plainMessage (sender : ServiceInfo) (tag : ConvoTag) : ProtocolMessage :=
  ⟨.control, [], .empty, sender, tag, 0⟩

/-- Two bytes for each message: the key of its sender and its tag. -/
def plainMessages : List UInt8 → List ProtocolMessage
  | sender :: tag :: rest =>
    plainMessage (plainService (.copy 32 [sender])) (.copy 16 [tag]) :: plainMessages rest
  | _ => []

/-- A signature shows the key that made it, the cipher changes nothing, and the key of a
session is the encryption key of its peer. -/
def plainHost : Host where
  shorthash bytes := .copy 32 (bytes.drop 32)
  verify key _ sig := sig = .copy 64 (key.bytes ++ key.bytes)
  xchacha20 data _ _ := data
  pqeDecrypt _ := some (.zero 32)
  dhServer key _ := some key
  dhClient key _ := some key
  decodeMessage _ := none
  decodeMessages data := some (plainMessages data.tail)

/-- A handshake frame that the service with this key signs. -/
def plainHandshake (signer : PubKey) (messages : List UInt8) : ProtocolFrame where
  C := .zero _
  D := 108 :: messages
  F := .zero 16
  N := .zero 32
  R := 0
  T := .zero 16
  version := 0
  Z := .copy 64 (signer.bytes ++ signer.bytes)

end Llarp.Service

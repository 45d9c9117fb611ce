import Llarp.Crypto.Types
import Llarp.Path.Context

/-!
# The records of path builds

The messages that build a path carry eight frames. A frame holds a record that is encrypted for
one hop, or random bytes.
-/

namespace Llarp

open Foundation

/-- An encrypted frame. The encryption is taken to be correct: a frame can be decrypted with
the key that it was encrypted with, and with no other. -/
inductive EncryptedFrame (K R : Type) where
  | encrypted (key : K) (record : R)
  | random
  deriving DecidableEq, Repr

def EncryptedFrame.doDecrypt {K R : Type} [DecidableEq K] (shared : K) :
    EncryptedFrame K R → Option R
  | .encrypted key record => if key = shared then some record else none
  | .random => none

namespace LRStatusRecord

def success : UInt64 := (1 : UInt64) <<< 0
def failTimeout : UInt64 := (1 : UInt64) <<< 1
def failCongestion : UInt64 := (1 : UInt64) <<< 2
def failDestUnknown : UInt64 := (1 : UInt64) <<< 3
def failDecryptError : UInt64 := (1 : UInt64) <<< 4
def failMalformedRecord : UInt64 := (1 : UInt64) <<< 5
def failDestInvalid : UInt64 := (1 : UInt64) <<< 6
def failCannotConnect : UInt64 := (1 : UInt64) <<< 7
def failDuplicateHop : UInt64 := (1 : UInt64) <<< 8

end LRStatusRecord

/-- What the client tells a hop. The hop derives the key from the record by a key exchange,
and the nonce mask from the key; the record here has both as they come out. -/
structure LRCommitRecord where
  txid : PathID
  rxid : PathID
  nextHop : RouterID
  pathKey : SharedSecret
  nonceXOR : ShortHash
  deriving DecidableEq, Repr

/-- A frame for a router is encrypted with the key in its contact. -/
abbrev CommitFrame := EncryptedFrame RouterID LRCommitRecord

/-- The record for a hop, and the hop that the record asks a router to make. -/
def PathHopConfig.record (hop : PathHopConfig) : LRCommitRecord :=
  ⟨hop.txID, hop.rxID, hop.upstream, hop.shared, hop.nonceXOR⟩

def LRCommitRecord.transitHop (record : LRCommitRecord) (downstream : RouterID) : TransitHop :=
  ⟨⟨record.txid, record.rxid, record.nextHop, downstream⟩, record.pathKey, record.nonceXOR⟩

end Llarp

import Llarp.Crypto.Types
import Llarp.Util.Bencode

/-!
# Service identities and introduction sets

A hidden service is known by its address, which is its public signing key. It publishes
an introduction set with its keys and with the paths over which it can be reached. The
set is encrypted under the address and signed with a key derived from the signing key,
and it is stored at the location of that derived key.
-/

namespace Llarp.Service

open Foundation

/-- The address of a hidden service. -/
abbrev Address := AlignedBuffer 32

/-- A location in the distributed hash table. -/
abbrev Key := AlignedBuffer 32

/-- The tag of a conversation. -/
abbrev ConvoTag := AlignedBuffer 16

/-- `default_lifetime` of paths. -/
def defaultLifetime : ℕ := 20 * 60 * 1000

def maxIntrosetSize : ℕ := 4096

structure ServiceInfo where
  enckey : PubKey
  signkey : PubKey
  /-- the address, once it was calculated -/
  cachedAddr : Address
  deriving DecidableEq, Repr

namespace ServiceInfo

/-- A default-constructed identity. -/
def empty : ServiceInfo := ⟨.zero 32, .zero 32, .zero 32⟩

/-- The address is calculated from the signing key only when none is cached yet. -/
def addr (info : ServiceInfo) : Address :=
  if info.cachedAddr.isZero then info.signkey else info.cachedAddr

def updateAddr (info : ServiceInfo) : ServiceInfo := { info with cachedAddr := info.addr }

end ServiceInfo

structure Introduction where
  router : RouterID
  pathID : PathID
  latency : ℕ
  expiresAt : ℕ
  deriving DecidableEq, Repr

namespace Introduction

def empty : Introduction := ⟨.zero 32, .zero 16, 0, 0⟩

def isExpired (intro : Introduction) (now : ℕ) : Bool := intro.expiresAt ≤ now

/-- Thirty seconds are the default for `delta`. -/
def expiresSoon (intro : Introduction) (now : ℕ) (delta : ℕ := 30000) : Bool :=
  intro.isExpired (now + delta)

end Introduction

/-- What an endpoint reads of the introduction set of another one. -/
structure IntroSet where
  addressKeys : ServiceInfo
  intros : List Introduction
  timestampSignedAt : ℕ
  deriving DecidableEq, Repr

namespace IntroSet

def newestIntroExpiration (introset : IntroSet) : ℕ :=
  introset.intros.foldl (fun maxTime intro => max intro.expiresAt maxTime) 0

def isExpired (introset : IntroSet) (now : ℕ) : Bool := introset.newestIntroExpiration < now

end IntroSet

structure EncryptedIntroSet where
  derivedSigningKey : PubKey
  signedAt : ℕ
  introsetPayload : List UInt8
  nounce : TunnelNonce
  sig : Signature
  deriving DecidableEq, Repr

/-- What an endpoint uses of the crypto library, and the decoder of introduction sets. -/
structure Directory where
  verify : PubKey → List UInt8 → Signature → Bool
  xchacha20 : List UInt8 → SharedSecret → TunnelNonce → List UInt8
  /-- the first derived public key of a public key -/
  deriveSubkey : PubKey → PubKey
  decodeIntroSet : List UInt8 → Option IntroSet

/-- `Address::ToKey`. -/
def Address.toKey (dir : Directory) (addr : Address) : Key := dir.deriveSubkey addr

namespace EncryptedIntroSet

def empty : EncryptedIntroSet := ⟨.zero 32, 0, [], .zero 32, .zero 64⟩

def bencode (introset : EncryptedIntroSet) : List UInt8 :=
  Bencode.dict
    [("d", Bencode.bytestring introset.derivedSigningKey.bytes),
      ("n", Bencode.bytestring introset.nounce.bytes),
      ("s", Bencode.uint64 introset.signedAt),
      ("x", Bencode.bytestring introset.introsetPayload),
      ("z", Bencode.bytestring introset.sig.bytes)]

def isExpired (introset : EncryptedIntroSet) (now : ℕ) : Bool :=
  introset.signedAt + defaultLifetime ≤ now

/-- Verify signature and timestamp. -/
def verify (dir : Directory) (introset : EncryptedIntroSet) (now : ℕ) : Bool :=
  !introset.isExpired now &&
    (Bencode.fit (maxIntrosetSize + 128) { introset with sig := .zero 64 }.bencode).any
      fun buf => dir.verify introset.derivedSigningKey buf introset.sig

def otherIsNewer (introset other : EncryptedIntroSet) : Bool := introset.signedAt < other.signedAt

/-- The key of the encryption is the public root key itself. -/
def maybeDecrypt (dir : Directory) (introset : EncryptedIntroSet) (root : PubKey) :
    Option IntroSet :=
  dir.decodeIntroSet (dir.xchacha20 introset.introsetPayload root introset.nounce)

/-- Insert into a set that is ordered by the signing key and has one element for each. -/
def insert (introset : EncryptedIntroSet) : List EncryptedIntroSet → List EncryptedIntroSet
  | [] => [introset]
  | first :: rest =>
    match compare introset.derivedSigningKey first.derivedSigningKey with
    | .lt => introset :: first :: rest
    | .eq => first :: rest
    | .gt => first :: introset.insert rest

/-- The set of the introduction sets of a reply. -/
def collect (found : List EncryptedIntroSet) : List EncryptedIntroSet :=
  found.foldl (fun remote introset => introset.insert remote) []

/-- The newest element, or the default one if none is newer than that. -/
def newest (results : List EncryptedIntroSet) : EncryptedIntroSet :=
  results.foldl (fun selected introset => if selected.otherIsNewer introset then introset else selected)
    empty

end EncryptedIntroSet

end Llarp.Service

import Llarp.Service.Info
import Llarp.Util.BencodeTake
import Llarp.Util.BencodeWrite

/-!
# Signing encrypted introduction sets

The encoding of an encrypted introduction set is written into a scratch buffer to be signed, and
again to be verified. The scratch buffers have 128 bytes more than the largest payload, but the
other members and their keys take more than that, so the largest payloads cannot be signed.
-/

namespace Llarp.Service

open Foundation Bencode WriteBuffer EncryptedIntroSet Decoder

/-- What signing uses of the crypto library. -/
structure Signer (PrivateKey : Type*) where
  toPublic : PrivateKey → Option PubKey
  sign : PrivateKey → List UInt8 → Option Signature

namespace EncryptedIntroSet

variable {PrivateKey : Type*}

variable {clock : ℕ} (introset : EncryptedIntroSet)

/-- `EncryptedIntroSet::BEncode`. -/
def write : WriteBuffer → Option WriteBuffer :=
  writeDict
    [("d", writeBytestring introset.derivedSigningKey.bytes),
      ("n", writeBytestring introset.nounce.bytes),
      ("s", writeUint64 introset.signedAt),
      ("x", writeBytestring introset.introsetPayload),
      ("z", writeBytestring introset.sig.bytes)]

theorem write_eq_fit (capacity : ℕ) :
    introset.write ⟨capacity, []⟩ =
      (fit capacity introset.bencode).map (WriteBuffer.mk capacity) := by
  refine (writesAll_writeDict ?_).eq_fit capacity
  refine .cons ⟨rfl, writes_writeBytestring _⟩ <| .cons ⟨rfl, writes_writeBytestring _⟩ <|
    .cons ⟨rfl, writes_writeUint64 _⟩ <| .cons ⟨rfl, writes_writeBytestring _⟩ <|
    .cons ⟨rfl, writes_writeBytestring _⟩ .nil

/-- What is signed. -/
def unsigned (clock : ℕ) (key : PubKey) : EncryptedIntroSet :=
  { introset with
    signedAt := clock
    derivedSigningKey := key
    sig := .zero 64 }

/-- Sign with the given time as the time of the signature. -/
def sign (signer : Signer PrivateKey) (k : PrivateKey) (clock : ℕ) (introset : EncryptedIntroSet) :
    Option EncryptedIntroSet := do
  let key ← signer.toPublic k
  let buf ← (introset.unsigned clock key).write ⟨maxIntrosetSize + 128, []⟩
  let sig ← signer.sign k buf.written
  return { introset.unsigned clock key with sig }

/-- `EncryptedIntroSet::DecodeKey`. -/
def decodeKey : List UInt8 → Decoder EncryptedIntroSet :=
  .members
    [("x", .string fun payload introset =>
        if payload.length > maxIntrosetSize then none
        else some { introset with introsetPayload := payload }),
      ("d", .into derivedSigningKey
        (fun key introset => { introset with derivedSigningKey := key }) (.aligned 32)),
      ("n", .into nounce (fun nounce introset => { introset with nounce }) (.aligned 32)),
      ("s", .integer fun n introset => { introset with signedAt := n.toNat }),
      ("z", .into sig (fun sig introset => { introset with sig }) (.aligned 64))]
    .refuse

def bDecode : Decoder EncryptedIntroSet := .dict decodeKey

/-! ### The size of the encoding -/

/-- All that is not payload, its size or the time takes 157 bytes. -/
theorem length_bencode :
    introset.bencode.length =
      157 + (decimal introset.signedAt).length + (decimal introset.introsetPayload.length).length +
        introset.introsetPayload.length := by
  have keys : ∀ key ∈ ["d", "n", "s", "x", "z"], (bytestring (ascii key)).length = 3 := by decide
  have two : (decimal 32).length = 2 ∧ (decimal 64).length = 2 := by decide
  have letters : (ascii "d").length = 1 ∧ (ascii "e").length = 1 := by decide
  simp only [bencode, Bencode.dict, List.flatMap_cons, List.flatMap_nil, List.length_append,
    List.length_nil, length_bytestring_aligned, length_uint64, two.1, two.2, letters.1, letters.2,
    keys "d" (by decide), keys "n" (by decide), keys "s" (by decide), keys "x" (by decide),
    keys "z" (by decide), length_bytestring introset.introsetPayload]
  omega

/-! ### Signing, decoding, verifying -/

/-- The decoder takes its own encoding back, whatever the object held before. -/
theorem takes_bDecode (prior introset : EncryptedIntroSet)
    (small : introset.introsetPayload.length ≤ maxIntrosetSize)
    (timely : introset.signedAt < 2 ^ 64) :
    Decoder.Takes bDecode prior introset.bencode introset := by
  have time : (UInt64.ofNat introset.signedAt).toNat = introset.signedAt :=
    UInt64.toNat_ofNat_of_lt' timely
  have short : introset.introsetPayload.length < 10 ^ 9 := lt_of_le_of_lt small (by decide)
  have d : ∀ s, Decoder.Takes (decodeKey (ascii "d")) s
      (bytestring introset.derivedSigningKey.bytes)
      { s with derivedSigningKey := introset.derivedSigningKey } := fun s =>
    takes_members rfl
      (takes_into (takes_aligned (by decide) _ introset.derivedSigningKey))
  have n : ∀ s, Decoder.Takes (decodeKey (ascii "n")) s (bytestring introset.nounce.bytes)
      { s with nounce := introset.nounce } := fun s =>
    takes_members rfl
      (takes_into (takes_aligned (by decide) _ introset.nounce))
  have t : ∀ s, Decoder.Takes (decodeKey (ascii "s")) s (uint64 introset.signedAt)
      { s with signedAt := introset.signedAt } := by
    intro s
    have taken := takes_integer
      (fun n s => { s with signedAt := n.toNat }) s
      (UInt64.ofNat introset.signedAt)
    rw [time] at taken
    exact takes_members rfl taken
  have x : ∀ s, Decoder.Takes (decodeKey (ascii "x")) s (bytestring introset.introsetPayload)
      { s with introsetPayload := introset.introsetPayload } := fun s =>
    takes_members rfl (takes_string short (if_neg (not_lt.mpr small)))
  have z : ∀ s, Decoder.Takes (decodeKey (ascii "z")) s (bytestring introset.sig.bytes)
      { s with sig := introset.sig } := fun s =>
    takes_members rfl
      (takes_into (takes_aligned (by decide) _ introset.sig))
  apply takes_dict
  exact ⟨by decide, _, d _, by decide, _, n _, by decide, _, t _, by decide, _, x _,
    by decide, _, z _, rfl⟩

/-- There is room for the encoding in the scratch buffers. -/
def Room (payloadSize clock : ℕ) : Prop :=
  157 + (decimal clock).length + (decimal payloadSize).length + payloadSize ≤ maxIntrosetSize + 128

instance (payloadSize clock : ℕ) : Decidable (Room payloadSize clock) :=
  inferInstanceAs (Decidable (_ ≤ _))

theorem fit_bencode :
    fit (maxIntrosetSize + 128) introset.bencode =
      if Room introset.introsetPayload.length introset.signedAt then some introset.bencode
      else none := by
  rw [fit, length_bencode]
  rfl

/-- The value was signed, and a copy of it that is decoded from its encoding verifies until it
expires. -/
def Publishable (dir : Directory) (result : Option EncryptedIntroSet) : Prop :=
  ∃ signed, result = some signed ∧ ∀ prior b tail, b.cur ≤ b.sz → b.rest = signed.bencode ++ tail →
    ∃ decoded, bDecode prior b = (.accepted, decoded, b.skip signed.bencode.length) ∧
      ∀ now, decoded.isExpired now = false → decoded.verify dir now = true

/-- The crypto library is correct for this private key, and its cipher keeps the length. -/
structure Sound (dir : Directory) (signer : Signer PrivateKey) (k : PrivateKey) : Prop where
  signs : ∃ key, signer.toPublic k = some key ∧
    ∀ message, ∃ sig, signer.sign k message = some sig ∧ dir.verify key message sig = true
  length_xchacha20 : ∀ data secret nonce, (dir.xchacha20 data secret nonce).length = data.length

variable {dir : Directory} {signer : Signer PrivateKey} {k : PrivateKey}

theorem sign_eq_none (clock : ℕ) (full : ¬Room introset.introsetPayload.length clock) :
    introset.sign signer k clock = none := by
  rw [sign]
  cases signer.toPublic k with
  | none => rfl
  | some key =>
    have missing : fit (maxIntrosetSize + 128) (introset.unsigned clock key).bencode = none :=
      (fit_bencode _).trans (if_neg full)
    show ((introset.unsigned clock key).write _).bind _ = none
    rw [write_eq_fit, missing]
    rfl

theorem fit_unsigned {introset : EncryptedIntroSet} {key : PubKey}
    (room : Room introset.introsetPayload.length clock) :
    fit (maxIntrosetSize + 128) (introset.unsigned clock key).bencode =
      some (introset.unsigned clock key).bencode :=
  (fit_bencode _).trans (if_pos room)

/-- What is signed is what is verified: the encoding with a signature of zeros. -/
theorem verify_of_sign {key : PubKey} {sig : Signature} {clock now : ℕ}
    (room : Room introset.introsetPayload.length clock)
    (valid : dir.verify key (introset.unsigned clock key).bencode sig = true)
    (fresh : isExpired { introset.unsigned clock key with sig } now = false) :
    verify dir { introset.unsigned clock key with sig } now = true := by
  rw [verify, fresh]
  show (fit _ (introset.unsigned clock key).bencode).any _ = true
  rw [fit_unsigned room]
  exact valid

theorem publishable_of_room (sound : Sound dir signer k) (introset : EncryptedIntroSet)
    (timely : clock < 2 ^ 63) (small : introset.introsetPayload.length ≤ maxIntrosetSize)
    (room : Room introset.introsetPayload.length clock) :
    Publishable dir (introset.sign signer k clock) := by
  obtain ⟨key, keyed, signs⟩ := sound.signs
  obtain ⟨sig, signed, valid⟩ := signs (introset.unsigned clock key).bencode
  have written : (introset.unsigned clock key).write ⟨maxIntrosetSize + 128, []⟩ =
      some ⟨maxIntrosetSize + 128, (introset.unsigned clock key).bencode⟩ := by
    rw [write_eq_fit, fit_unsigned room]
    rfl
  refine ⟨{ introset.unsigned clock key with sig }, ?_, fun prior b tail inside holds => ?_⟩
  · show (signer.toPublic k).bind _ = _
    rw [keyed]
    show ((introset.unsigned clock key).write _).bind _ = _
    rw [written]
    show (signer.sign k _).bind _ = _
    rw [signed]
    rfl
  · have taken := takes_bDecode prior { introset.unsigned clock key with sig } small
      (timely.trans (by norm_num)) b tail inside holds
    exact ⟨_, taken, fun now => verify_of_sign introset room valid⟩

theorem publishable_sign_iff (sound : Sound dir signer k) (introset : EncryptedIntroSet)
    (timely : clock < 2 ^ 63) (small : introset.introsetPayload.length ≤ maxIntrosetSize) :
    Publishable dir (introset.sign signer k clock) ↔
      Room introset.introsetPayload.length clock := by
  refine ⟨fun ⟨signed, success, _⟩ => ?_, publishable_of_room sound introset timely small⟩
  by_contra full
  rw [sign_eq_none introset clock full] at success
  cases success

end EncryptedIntroSet

/-- What signing uses of the keys of a service. -/
structure Identity (PrivateKey : Type*) where
  pub : ServiceInfo
  derivedSignKey : PrivateKey

section Identity

variable {PrivateKey : Type*}

variable (dir : Directory) (signer : Signer PrivateKey) (encode : IntroSet → List UInt8)
  (id : Identity PrivateKey) (introset : IntroSet)

/-- The introduction set of a service as it is encrypted. -/
def Identity.stamp (now : ℕ) : IntroSet :=
  { introset with
    timestampSignedAt := now
    addressKeys := id.pub }

/-- Publish an introduction set. The encoder of introduction sets is a parameter, as the decoder
is. Signing takes the time from the clock again. -/
def Identity.encryptAndSignIntroSet (now clock : ℕ) (nounce : TunnelNonce) :
    Option EncryptedIntroSet :=
  if introset.intros = [] then none
  else do
    let buf ← fit maxIntrosetSize (encode (id.stamp introset now))
    EncryptedIntroSet.sign signer id.derivedSignKey clock
      { EncryptedIntroSet.empty with
        nounce
        signedAt := now
        introsetPayload := dir.xchacha20 buf id.pub.addr nounce }

/-- What `encryptAndSignIntroSet` signs. -/
def Identity.encrypted (now : ℕ) (nounce : TunnelNonce) : EncryptedIntroSet :=
  { EncryptedIntroSet.empty with
    nounce
    signedAt := now
    introsetPayload := dir.xchacha20 (encode (id.stamp introset now)) id.pub.addr nounce }

theorem Identity.encryptAndSignIntroSet_eq (now clock : ℕ) (nounce : TunnelNonce)
    (some : introset.intros ≠ [])
    (small : (encode (id.stamp introset now)).length ≤ maxIntrosetSize) :
    id.encryptAndSignIntroSet dir signer encode introset now clock nounce =
      (id.encrypted dir encode introset now nounce).sign signer id.derivedSignKey clock := by
  rw [Identity.encryptAndSignIntroSet, if_neg some, fit, if_pos small]
  rfl

open EncryptedIntroSet in
/-- An introduction set can be signed, and verifies after it was decoded, exactly if its payload
leaves enough room in the scratch buffers for the keys, the nonce, the time and the signature.
This holds for every payload that the decoder accepts, and for every introduction set whose
encoding fits in the buffer that it is encrypted in. -/
theorem publishable_iff_room {PrivateKey : Type*} (dir : Directory) (signer : Signer PrivateKey)
    (id : Identity PrivateKey) (sound : Sound dir signer id.derivedSignKey) (clock : ℕ)
    (timely : clock < 2 ^ 63) :
    (∀ encrypted : EncryptedIntroSet, encrypted.introsetPayload.length ≤ maxIntrosetSize →
      (Publishable dir (encrypted.sign signer id.derivedSignKey clock) ↔
        Room encrypted.introsetPayload.length clock)) ∧
      ∀ (encode : IntroSet → List UInt8) (introset : IntroSet) (now : ℕ) (nounce : TunnelNonce),
        introset.intros ≠ [] → (encode (id.stamp introset now)).length ≤ maxIntrosetSize →
          (Publishable dir
              (id.encryptAndSignIntroSet dir signer encode introset now clock nounce) ↔
            Room (encode (id.stamp introset now)).length clock) := by
  refine ⟨fun encrypted => publishable_sign_iff sound encrypted timely, ?_⟩
  intro encode introset now nounce some small
  have size := sound.length_xchacha20 (encode (id.stamp introset now)) id.pub.addr nounce
  have signed := publishable_sign_iff sound (id.encrypted dir encode introset now nounce) timely
    (size.trans_le small)
  rw [id.encryptAndSignIntroSet_eq dir signer encode introset now clock nounce some small, signed,
    Identity.encrypted, size]

/-- A crypto library without secrets. -/
def openDirectory : Directory where
  verify _ _ _ := true
  xchacha20 data _ _ := data
  deriveSubkey key := key
  decodeIntroSet _ := none

def openSigner : Signer Unit where
  toPublic _ := some (.zero 32)
  sign _ _ := some (.zero 64)

theorem sound_open : EncryptedIntroSet.Sound openDirectory openSigner () :=
  ⟨⟨_, rfl, fun _ => ⟨_, rfl, rfl⟩⟩, fun _ _ _ => rfl⟩

/-- A payload of 4050 bytes is the largest that can be signed today. -/
theorem publishable_iff_room_4050 :
    EncryptedIntroSet.Publishable openDirectory
      (EncryptedIntroSet.sign openSigner () 1700000000000
        { EncryptedIntroSet.empty with introsetPayload := List.replicate 4050 0 }) := by
  have size : (List.replicate 4050 (0 : UInt8)).length = 4050 := List.length_replicate
  refine ((publishable_iff_room openDirectory openSigner ⟨.empty, ()⟩ sound_open 1700000000000
    (by norm_num)).1 _ ?_).mpr ?_
  · exact size.trans_le (by decide)
  · dsimp only
    rw [size]
    decide

/-- A payload of 4096 bytes, which the decoder accepts, cannot be signed, and so an introduction
set whose encoding fills the buffer cannot be published. -/
theorem large_payload_not_signed :
    EncryptedIntroSet.sign openSigner () 1700000000000
        { EncryptedIntroSet.empty with introsetPayload := List.replicate maxIntrosetSize 0 } =
      none ∧
    Identity.encryptAndSignIntroSet openDirectory openSigner
        (fun _ => List.replicate maxIntrosetSize 0) ⟨.empty, ()⟩ ⟨.empty, [.empty], 0⟩
        1700000000000 1700000000000 (.zero 32) = none := by
  have unsigned : ∀ payload : List UInt8, payload.length = maxIntrosetSize →
      sign openSigner () 1700000000000
        { empty with introsetPayload := payload } = none ∧
      Identity.encryptAndSignIntroSet openDirectory openSigner (fun _ => payload) ⟨.empty, ()⟩
        ⟨.empty, [.empty], 0⟩ 1700000000000 1700000000000 (.zero 32) = none := by
    intro payload size
    have full : ¬EncryptedIntroSet.Room payload.length 1700000000000 := by
      rw [size]
      decide
    refine ⟨sign_eq_none _ _ full, ?_⟩
    rw [Identity.encryptAndSignIntroSet_eq _ _ _ _ _ _ _ _ (List.cons_ne_nil _ _) size.le]
    exact sign_eq_none _ _ full
  exact unsigned _ List.length_replicate

end Identity

end Llarp.Service

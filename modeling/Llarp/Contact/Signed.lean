import Llarp.Contact.Stated

/-!
# What the signature of a router contact covers

The owner of a key signs a message, and a router contact is taken for what they signed if the
signature verifies. That is right where the message is decoded to the same members. It is wrong
where the object keeps something that the message does not hold: the dictionary of an earlier
contact, the network of an earlier contact, SRV records of a contact of version 0, bytes behind a
zero, or an address without a rank or a port.
-/

namespace Llarp.Contact

open Foundation Decoder AlignedBuffer List

theorem rest_bufferOf (text : List UInt8) : (bufferOf text).rest = text := rest_ofBytes text

variable {size : ℕ} (bytes : List UInt8)

/-- Nothing but zeros stands behind the first zero. -/
def Padded : Prop := ∀ c ∈ bytes.dropWhile (· ≠ 0), c = 0

instance (bytes : List UInt8) : Decidable (Padded bytes) :=
  inferInstanceAs (Decidable (∀ c ∈ _, c = 0))

theorem takeD_eq_append (short : bytes.length ≤ size) :
    bytes.takeD size 0 = bytes ++ replicate (size - bytes.length) 0 := by
  induction bytes generalizing size with
  | nil => exact takeD_nil size 0
  | cons c bytes ih =>
    obtain ⟨size, rfl⟩ := Nat.exists_eq_add_one.mpr (Nat.zero_lt_of_lt short)
    rw [takeD_succ, head?_cons, Option.getD_some, tail_cons,
      ih (Nat.le_of_succ_le_succ short), length_cons, Nat.add_sub_add_right,
      cons_append]

theorem bytes_copy {bytes : List UInt8} (short : bytes.length ≤ size) :
    (copy size bytes).bytes = bytes ++ replicate (size - bytes.length) 0 :=
  takeD_eq_append bytes short

theorem takeWhile_append_zeros_eq_iff :
    bytes.takeWhile (· ≠ 0) ++
        replicate (bytes.length - (bytes.takeWhile (· ≠ 0)).length) 0 = bytes ↔
      Padded bytes := by
  have split : bytes.takeWhile (· ≠ 0) ++ bytes.dropWhile (· ≠ 0) = bytes :=
    takeWhile_append_dropWhile
  have size := congrArg length split
  rw [length_append] at size
  have behind : bytes.length - (bytes.takeWhile (· ≠ 0)).length =
      (bytes.dropWhile (· ≠ 0)).length := by omega
  rw [behind]
  constructor
  · intro same
    have zeros := append_cancel_left (same.trans split.symm)
    exact (eq_replicate_iff.mp zeros.symm).2
  · intro padded
    rw [← eq_replicate_iff.mpr ⟨rfl, padded⟩, split]

/-- The text of a buffer is all of it exactly if zeros follow. -/
theorem copy_textOf_eq_iff (buffer : AlignedBuffer size) :
    copy size (textOf buffer) = buffer ↔ Padded buffer.bytes := by
  obtain ⟨bytes, rfl⟩ := buffer
  have short := RouterContact.length_textOf ⟨bytes, rfl⟩
  rw [← takeWhile_append_zeros_eq_iff, copy, mk.injEq,
    takeD_eq_append _ short]
  rfl

theorem padded_append_zeros (n : ℕ) : Padded (bytes ++ replicate n 0) ↔ Padded bytes := by
  rw [Padded, Padded, dropWhile_append]
  split_ifs with empty
  · rw [List.isEmpty_iff] at empty
    rw [empty]
    refine iff_of_true (fun c member => ?_) nofun
    exact eq_of_mem_replicate ((dropWhile_sublist _).subset member)
  · refine ⟨fun all c member => all c (mem_append_left _ member), fun all c member => ?_⟩
    rcases mem_append.mp member with old | zero
    · exact all c old
    · exact eq_of_mem_replicate zero

theorem padded_copy_iff {bytes : List UInt8} (short : bytes.length ≤ size) :
    Padded (copy size bytes).bytes ↔ Padded bytes := by
  rw [bytes_copy short, padded_append_zeros]

namespace RouterContact

/-- The members that a signature should cover. -/
def unsigned (rc : RouterContact) : RouterContact :=
  { rc with
    signature := .zero 64
    signedBtDict := [] }

/-- A new object that decodes the message holds the same as this one, except for the signature
and the dictionary that is kept. -/
def DecodesTo (lib : ContactLibraries) (defaultID : NetID) (message : List UInt8)
    (rc : RouterContact) : Prop :=
  ∃ made b', bDecode lib (fresh defaultID) (bufferOf message) = (.accepted, made, b') ∧
    made.unsigned = rc.unsigned

section Decoded

variable {lib : ContactLibraries} {defaultID : NetID} {prior rc : RouterContact}
  {b b' : LlarpBuffer}

theorem dict_peek {s : RouterContact} (accepted : (dict (table lib).decodeKey s b).1 = .accepted) :
    b.peek = 'd'.toUInt8 := by
  rw [dict, readDict, readContainer] at accepted
  split_ifs at accepted with short other
  exact not_not.mp other

theorem decodeVersion1_accepted {btlist : ContactList}
    (accepted : (decodeVersion1 lib btlist prior).1 = .accepted) :
    ∃ dictData, ∃ signature : Signature, ∃ after, btlist.dictData = some dictData ∧
      btlist.signature = some signature.bytes ∧
        dict (table lib).decodeKey
          { prior with
            signature
            signedBtDict := dictData } (bufferOf dictData) =
          (.accepted, (decodeVersion1 lib btlist prior).2, after) := by
  obtain ⟨version, signature, dictData, isFinished⟩ := btlist
  rw [decodeVersion1] at accepted ⊢
  cases signature with
  | none => cases accepted
  | some signature =>
    cases dictData with
    | none => cases accepted
    | some dictData =>
      dsimp only at accepted ⊢
      by_cases unfinished : ¬isFinished
      · rw [if_pos unfinished] at accepted
        cases accepted
      · rw [if_neg unfinished] at accepted ⊢
        by_cases size : signature.length = 64
        · rw [dif_pos size] at accepted ⊢
          exact ⟨dictData, ⟨signature, size⟩, _, rfl, rfl, Prod.ext accepted rfl⟩
        · rw [dif_neg size] at accepted
          cases accepted

/-- The two formats. -/
theorem bDecode_accepted (accepted : bDecode lib prior b = (.accepted, rc, b')) :
    (b.peek = 'd'.toUInt8 ∧ dict (table lib).decodeKey prior.clear b = (.accepted, rc, b')) ∨
      b.peek ≠ 'd'.toUInt8 ∧ ∃ dictData, ∃ signature : Signature, ∃ after,
        (lib.btList b.rest).dictData = some dictData ∧
          (lib.btList b.rest).signature = some signature.bytes ∧
          dict (table lib).decodeKey
            { prior.clear with
              signature
              signedBtDict := dictData } (bufferOf dictData) = (.accepted, rc, after) := by
  rw [bDecode] at accepted
  by_cases isDict : b.peek = 'd'.toUInt8
  · dsimp only at accepted
    rw [if_pos isDict] at accepted
    exact .inl ⟨isDict, accepted⟩
  · dsimp only at accepted
    refine .inr ⟨isDict, ?_⟩
    split_ifs at accepted
    · cases congrArg Prod.fst accepted
    · have made : (decodeVersion1 lib (lib.btList b.rest) prior.clear).1 = .accepted → _ :=
        decodeVersion1_accepted
      generalize decodeVersion1 lib (lib.btList b.rest) prior.clear = result at *
      obtain ⟨ending, result⟩ := result
      cases ending with
      | accepted =>
        obtain rfl : result = rc := congrArg (fun read => read.2.1) accepted
        exact made rfl
      | _ => cases congrArg Prod.fst accepted
    · cases congrArg Prod.fst accepted

/-! ### What is checked -/

/-- The message that is checked decodes to the object. The predicate that holds for no other
message shows that this is needed. -/
theorem covered_iff_decodesTo :
    (∀ verify : PubKey → List UInt8 → Signature → Bool, rc.verifySignature lib verify = true →
        ∃ m, verify rc.pubkey m rc.signature = true ∧ DecodesTo lib defaultID m rc) ↔
      (rc.version = 0 → (rc.unsigned.encoding lib).length ≤ maxSize →
          DecodesTo lib defaultID (rc.unsigned.encoding lib) rc) ∧
        (rc.version = 1 → DecodesTo lib defaultID rc.signedBtDict rc) := by
  have encoded : rc.version = 0 → bEncode lib { rc with signature := .zero 64 } ⟨maxSize, []⟩ =
      (Bencode.fit maxSize (rc.unsigned.encoding lib)).map (WriteBuffer.mk maxSize) :=
    fun old => bEncode_eq_fit lib { rc with signature := .zero 64 } old maxSize
  constructor
  · intro covered
    refine ⟨fun old fits => ?_, fun new => ?_⟩
    · obtain ⟨m, checked, decodes⟩ := covered
        (fun _ m _ => m = rc.unsigned.encoding lib) (by
          rw [verifySignature, if_pos old, encoded old, Bencode.fit, if_pos fits]
          exact decide_eq_true rfl)
      exact of_decide_eq_true checked ▸ decodes
    · obtain ⟨m, checked, decodes⟩ := covered (fun _ m _ => m = rc.signedBtDict) (by
        rw [verifySignature, if_neg (by rw [new]; decide), if_pos new]
        exact decide_eq_true rfl)
      exact of_decide_eq_true checked ▸ decodes
  · rintro ⟨old, new⟩ verify checked
    rw [verifySignature] at checked
    split_ifs at checked with zero one
    · rw [encoded zero, Bencode.fit] at checked
      split_ifs at checked with fits
      · exact ⟨_, checked, old zero fits⟩
      · cases checked
    · exact ⟨_, checked, new one⟩

/-- An encoding decodes to the object exactly if it holds all of it and its addresses are
complete. -/
theorem decodesTo_encoding_iff (old : rc.version = 0) :
    DecodesTo lib defaultID (rc.unsigned.encoding lib) rc ↔
      rc.srvRecords = [] ∧ (∀ info ∈ rc.addrs, info.Unnumbered = false) ∧
        Padded rc.nickname.bytes ∧ Padded rc.netID.bytes := by
  have holds : (bufferOf (rc.unsigned.encoding lib)).rest = rc.unsigned.encoding lib ++ [] := by
    rw [rest_bufferOf, append_nil]
  have head : (bufferOf (rc.unsigned.encoding lib)).peek = 'd'.toUInt8 := rfl
  have decodes : bDecode lib (fresh defaultID) (bufferOf (rc.unsigned.encoding lib)) =
      dict (table lib).decodeKey (fresh defaultID).clear
        (bufferOf (rc.unsigned.encoding lib)) := by
    rw [bDecode]
    exact if_pos head
  by_cases numbered : ∀ info ∈ rc.addrs, info.Unnumbered = false
  · have taken := takes_encoding lib rc.unsigned (fresh defaultID) numbered
      (bufferOf (rc.unsigned.encoding lib)) [] (Nat.zero_le _) holds
    rw [DecodesTo, decodes, taken, ← copy_textOf_eq_iff, ← copy_textOf_eq_iff]
    constructor
    · rintro ⟨made, b', accepted, same⟩
      obtain rfl : reencoded (fresh defaultID) rc.unsigned = made :=
        congrArg (fun read => read.2.1) accepted
      exact ⟨(congrArg srvRecords same).symm, numbered, congrArg nickname same,
        congrArg netID same⟩
    · rintro ⟨records, -, nickname, netID⟩
      refine ⟨_, _, rfl, ?_⟩
      ext1
      · rfl
      · exact netID
      · rfl
      · rfl
      · rfl
      · exact nickname
      · rfl
      · exact old.symm
      · rfl
      · rfl
      · exact records.symm
  · have refused := refuses_encoding lib rc.unsigned (fresh defaultID).clear (by
      by_contra none
      refine numbered fun info member => ?_
      exact (Bool.not_eq_true _).mp fun bad => none ⟨info, member, bad⟩)
      (bufferOf (rc.unsigned.encoding lib)) [] (Nat.zero_le _) holds
    refine iff_of_false ?_ fun whole => numbered whole.2.1
    rintro ⟨made, b', accepted, -⟩
    rw [decodes] at accepted
    rw [accepted] at refused
    cases refused

/-! ### What the input says about it -/

/-- The dictionary that a router contact is decoded from. -/
def dictionary (lib : ContactLibraries) (b : LlarpBuffer) : LlarpBuffer :=
  if b.peek = 'd'.toUInt8 then b else bufferOf ((lib.btList b.rest).dictData.getD [])

/-- What the buffer says, for an object of an earlier network. -/
def said (lib : ContactLibraries) (prior : RouterContact) (b : LlarpBuffer) : RouterContact :=
  stated lib prior.clear (listedIn lib (dictionary lib b))

/-- The entries hold nothing that an encoding of version 0 does not hold: no SRV records, no
address without a rank or a port, and nothing behind a zero in a nickname or a network. -/
def Plain (lib : ContactLibraries) (network : NetID)
    (listed : List (List UInt8 × LlarpBuffer)) : Prop :=
  (∀ v ∈ valuesOf "s" listed, srvPlaces lib v = []) ∧
    (∀ v ∈ valuesOf "a" listed, ∀ place ∈ addrPlaces lib v,
      AddressInfo.Names lib "c" place ∧ AddressInfo.Names lib "p" place) ∧
    Padded (lastOf "n" listed stringAt []) ∧ Padded (lastOf "i" listed stringAt network.bytes)

/-- A signature covers what the buffer says. A contact of version 0 must be plain, unless it is
too large to be verified at all. For a contact of version 1 in a list the network must be named,
or the object must be one of the default network. For a contact of version 1 in a dictionary the
dictionary that the object keeps must say the same. -/
def Covered (lib : ContactLibraries) (defaultID : NetID) (prior : RouterContact)
    (b : LlarpBuffer) : Prop :=
  ((said lib prior b).version = 0 → ((said lib prior b).unsigned.encoding lib).length ≤ maxSize →
      Plain lib prior.netID (listedIn lib (dictionary lib b))) ∧
    ((said lib prior b).version = 1 →
      if b.peek = 'd'.toUInt8 then DecodesTo lib defaultID prior.signedBtDict (said lib prior b)
      else valuesOf "i" (listedIn lib (dictionary lib b)) ≠ [] ∨
        prior.netID = (fresh defaultID).netID)

section Entries

variable {before : RouterContact}

theorem acceptsAll_listedIn (accepted : (dict (table lib).decodeKey before b).1 = .accepted)
    {m : Member RouterContact} (member : m ∈ (table lib).members) :
    AcceptsAll m.decode (valuesOf m.letter (listedIn lib b)) :=
  Table.acceptsAll_valuesOf accepted member _

theorem padded_lastOf_iff {size : ℕ} {letter : String}
    {listed : List (List UInt8 × LlarpBuffer)} {buffer : AlignedBuffer size} {bytes : List UInt8}
    (short : ∀ v ∈ valuesOf letter listed, (stringAt v).length ≤ size)
    (same : Padded buffer.bytes ↔ Padded bytes) :
    Padded (lastOf letter listed (fun v => copy size (stringAt v)) buffer).bytes ↔
      Padded (lastOf letter listed stringAt bytes) := by
  rw [lastOf, lastOf]
  cases last : (valuesOf letter listed).getLast? with
  | none => exact same
  | some v => exact padded_copy_iff (short v (mem_of_getLast? last))

/-- What is stated can be encoded without loss exactly if the entries are plain. -/
theorem stated_whole_iff (accepted : (dict (table lib).decodeKey prior.clear b).1 = .accepted) :
    ((stated lib prior.clear (listedIn lib b)).srvRecords = [] ∧
        (∀ info ∈ (stated lib prior.clear (listedIn lib b)).addrs, info.Unnumbered = false) ∧
        Padded (stated lib prior.clear (listedIn lib b)).nickname.bytes ∧
        Padded (stated lib prior.clear (listedIn lib b)).netID.bytes) ↔
      Plain lib prior.netID (listedIn lib b) := by
  have records : (stated lib prior.clear (listedIn lib b)).srvRecords = [] ↔
      ∀ v ∈ valuesOf "s" (listedIn lib b), srvPlaces lib v = [] := by
    show [] ++ flatMap _ _ = [] ↔ _
    simp only [nil_append, flatMap_eq_nil_iff, map_eq_nil_iff]
  have addrs : (∀ info ∈ (stated lib prior.clear (listedIn lib b)).addrs,
      info.Unnumbered = false) ↔ ∀ v ∈ valuesOf "a" (listedIn lib b), ∀ place ∈ addrPlaces lib v,
        AddressInfo.Names lib "c" place ∧ AddressInfo.Names lib "p" place := by
    have lists := acceptsAll_listedIn accepted
      (show addrsMember lib ∈ (table lib).members by simp [table])
    show (∀ info ∈ [] ++ flatMap _ _, _) ↔ _
    rw [nil_append]
    simp only [forall_mem_flatMap, forall_mem_map]
    refine forall₂_congr fun v listed => forall₂_congr fun place member => ?_
    exact AddressInfo.unnumbered_eq_false_iff lib ((list_eq_places (lists v listed [])).2 place member)
  have nickname : Padded (stated lib prior.clear (listedIn lib b)).nickname.bytes ↔
      Padded (lastOf "n" (listedIn lib b) stringAt []) := by
    have texts := acceptsAll_listedIn accepted
      (show nicknameMember ∈ (table lib).members by simp [table])
    refine padded_lastOf_iff (fun v listed => ?_) (padded_append_zeros [] 32)
    exact (nickname_accepted (texts v listed (.zero 32))).2
  have netID : Padded (stated lib prior.clear (listedIn lib b)).netID.bytes ↔
      Padded (lastOf "i" (listedIn lib b) stringAt prior.netID.bytes) := by
    have texts := acceptsAll_listedIn accepted
      (show netIDMember ∈ (table lib).members by simp [table])
    refine padded_lastOf_iff (fun v listed => ?_) Iff.rfl
    exact (decodeNetID_accepted (texts v listed (.zero 8))).2
  rw [records, addrs, nickname, netID, Plain]

/-- A signed dictionary decodes to what it says, except for a network that it does not name. -/
theorem decodesTo_dictData_iff {dictData : List UInt8}
    (accepted : (dict (table lib).decodeKey prior.clear (bufferOf dictData)).1 = .accepted) :
    DecodesTo lib defaultID dictData (stated lib prior.clear (listedIn lib (bufferOf dictData))) ↔
      valuesOf "i" (listedIn lib (bufferOf dictData)) ≠ [] ∨
        prior.netID = (fresh defaultID).netID := by
  have accepted' : (dict (table lib).decodeKey (fresh defaultID).clear (bufferOf dictData)).1 =
      .accepted :=
    ((oblivious_dict (table lib).oblivious_decodeKey).ending _ _ _).trans accepted
  have decodes : bDecode lib (fresh defaultID) (bufferOf dictData) =
      dict (table lib).decodeKey (fresh defaultID).clear (bufferOf dictData) := by
    exact if_pos (dict_peek accepted)
  have made := dict_eq_stated accepted'
  have named : lastOf "i" (listedIn lib (bufferOf dictData))
      (fun v => copy 8 (stringAt v)) (fresh defaultID).netID =
      lastOf "i" (listedIn lib (bufferOf dictData)) (fun v => .copy 8 (stringAt v)) prior.netID ↔
      valuesOf "i" (listedIn lib (bufferOf dictData)) ≠ [] ∨
        (fresh defaultID).netID = prior.netID := getD_getLast?_eq_iff
  rw [eq_comm, ← named]
  constructor
  · rintro ⟨other, b', decoded, same⟩
    rw [decodes] at decoded
    rw [decoded] at made
    obtain rfl : other = stated lib (fresh defaultID).clear (listedIn lib (bufferOf dictData)) := made
    exact congrArg netID same
  · intro same
    refine ⟨_, _, decodes.trans (Prod.ext accepted' (Prod.ext made rfl)), ?_⟩
    ext1
    · rfl
    · exact same
    · rfl
    · rfl
    · rfl
    · rfl
    · rfl
    · rfl
    · rfl
    · rfl
    · rfl

end Entries

/-- The part of a contact of version 0, in either format. -/
theorem plain_iff_decodesTo {signature : Signature} {kept : List UInt8}
    (accepted : (dict (table lib).decodeKey prior.clear b).1 = .accepted)
    (made : rc = { stated lib prior.clear (listedIn lib b) with
      signature
      signedBtDict := kept })
    (old : rc.version = 0) :
    DecodesTo lib defaultID (rc.unsigned.encoding lib) rc ↔
      Plain lib prior.netID (listedIn lib b) := by
  subst made
  exact (decodesTo_encoding_iff old).trans (stated_whole_iff accepted)

end Decoded

/-! ### A contact that is covered and one that is not -/

theorem toNat_ofNat_succ_digit {n d : ℕ} (digit : d ∈ Nat.digits 16 n) :
    (UInt8.ofNat (d + 1)).toNat = d + 1 := by
  have small : d < 16 := Nat.digits_lt_base (by decide) digit
  exact UInt8.toNat_ofNat_of_lt' (by rw [UInt8.size]; omega)

/-- An address in hexadecimal digits, of which none is written as zero. -/
def hexText (ip : BitVec 128) : ShortText where
  text := (Nat.digits 16 ip.toNat).map fun d => UInt8.ofNat (d + 1)
  short := by
    have size : (Nat.digits 16 ip.toNat).length ≤ 32 := by
      rw [Nat.digits_length_le_iff (by decide)]
      exact ip.isLt
    rw [List.length_map]
    omega
  zero_notMem := by
    intro member
    obtain ⟨d, digit, zero⟩ := List.mem_map.mp member
    have value := toNat_ofNat_succ_digit digit
    rw [zero] at value
    exact absurd value (Nat.succ_ne_zero d).symm

/-- A library that writes addresses in hexadecimal digits, and that finds no SRV records and no
lists. -/
def hexLibraries : ContactLibraries where
  inetPton6 text := some (BitVec.ofNat 128 (Nat.ofDigits 16 (text.map fun c => c.toNat - 1)))
  inetNtop6 := hexText
  inetPton6_inetNtop6 ip := by
    have digits : (hexText ip).text.map (fun c => c.toNat - 1) = Nat.digits 16 ip.toNat := by
      rw [hexText, List.map_map]
      refine (List.map_congr_left fun d digit => ?_).trans (List.map_id _)
      show (UInt8.ofNat (d + 1)).toNat - 1 = d
      rw [toNat_ofNat_succ_digit digit, Nat.add_sub_cancel]
    rw [digits, Nat.ofDigits_digits, BitVec.ofNat_toNat, BitVec.setWidth_eq]
  btSRV _ := none
  btSerializeSRV _ := []
  btList _ := ⟨none, none, none, false⟩

/-- The object after a buffer with this text has been decoded. -/
def decodedFrom (prior : RouterContact) (text : String) : RouterContact :=
  (bDecode hexLibraries prior (bufferOf (Bencode.ascii text))).2.1

/-- An object that was decoded from a list before, and that keeps its signed dictionary. -/
def keeping : RouterContact :=
  { fresh (.zero 8) with signedBtDict := Bencode.ascii "d1:vi1ee" }

end RouterContact

end Llarp.Contact

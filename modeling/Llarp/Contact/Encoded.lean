import Llarp.Contact.RouterContact

/-!
# Decoding encoded router contacts

What a router contact of version 0 is encoded to does not hold all of it: the SRV records are
left out, and so is what stands behind a zero in the nickname and in the name of the network. An
address without a rank or a port is written, but refused where it is read.
-/

namespace Llarp.Contact

open Foundation Bencode WriteBuffer Decoder

namespace RouterVersion

def encoding (r : RouterVersion) : List UInt8 :=
  Bencode.list (r.numbers.map fun i => uint64 i.toNat)

theorem writesAll_bEncode (r : RouterVersion) : WritesAll r.bEncode r.encoding := by
  apply writesAll_writeList
  rw [List.forall₂_map_left_iff, List.forall₂_map_right_iff, List.forall₂_same]
  exact fun i _ => writes_writeUint64 i.toNat

theorem starts_uint64 (n : ℕ) : Starts (uint64 n) := ⟨_, _, rfl, by decide⟩

theorem takesEach_numbers (r : RouterVersion) :
    ∃ idx, (idx = 4 ∨ idx = 0) ∧ Decoder.TakesEach decodeElement (0, empty)
      (r.numbers.map fun i => uint64 i.toNat) (idx, r) := by
  by_cases isEmpty : r = empty
  · rw [isEmpty]
    exact ⟨0, .inr rfl, rfl⟩
  · rw [numbers, if_neg isEmpty]
    obtain ⟨⟨⟨version⟩, size⟩, protoVersion⟩ := r
    obtain ⟨x, y, z, rfl⟩ := List.length_eq_three.mp size
    refine ⟨4, .inl rfl, starts_uint64 _, _, takes_number rfl, starts_uint64 _, _,
      takes_number rfl, starts_uint64 _, _, takes_number rfl, starts_uint64 _, _,
      takes_number rfl, ?_⟩
    rw [UInt16.toUInt16_toUInt64, UInt16.toUInt16_toUInt64, UInt16.toUInt16_toUInt64]
    rfl

/-- The decoder takes its own encoding back, whatever the object held before. -/
theorem takes_bDecode (before r : RouterVersion) :
    Decoder.Takes bDecode before r.encoding r := by
  obtain ⟨idx, complete, each⟩ := takesEach_numbers r
  intro b tail inside holds
  have taken : Decoder.Takes (Decoder.each decodeElement) (0, empty) r.encoding (idx, r) :=
    Decoder.takes_readContainer each fun _ _ => rfl
  rw [bDecode, taken b tail inside holds]
  dsimp only
  rw [decide_eq_true complete]
  rfl

end RouterVersion

namespace RouterContact

variable (lib : ContactLibraries) (rc : RouterContact)

/-- The entries of the encoding of a router contact of version 0. -/
def signedEntries : List (String × List UInt8) :=
  [("a", Bencode.list (rc.addrs.map (·.encoding lib))),
    ("i", bytestring (textOf rc.netID)),
    ("k", bytestring rc.pubkey.bytes)] ++
  (if textOf rc.nickname = [] then [] else [("n", bytestring (textOf rc.nickname))]) ++
  [("p", bytestring rc.enckey.bytes)] ++
  rc.routerVersion.toList.map (fun r => ("r", r.encoding)) ++
  [("u", uint64 rc.lastUpdated.toNat),
    ("v", uint64 0),
    ("x", Bencode.list [])] ++
  [("z", bytestring rc.signature.bytes)]

/-- What a router contact of version 0 is encoded to. -/
def encoding : List UInt8 :=
  Bencode.dict (rc.signedEntries lib)

theorem bEncode_eq_fit (old : rc.version = 0) (capacity : ℕ) :
    rc.bEncode lib ⟨capacity, []⟩ =
      (fit capacity (rc.encoding lib)).map (WriteBuffer.mk capacity) := by
  rw [bEncode, if_pos old]
  refine (writesAll_writeDict ?_).eq_fit capacity
  have noRecords : ¬rc.version > 0 := by rw [old]; exact lt_irrefl 0
  rw [if_neg noRecords, List.append_nil, old]
  have addrs : List.Forall₂ Writes (rc.addrs.map (·.bEncode lib))
      (rc.addrs.map (·.encoding lib)) := by
    rw [List.forall₂_map_left_iff, List.forall₂_map_right_iff, List.forall₂_same]
    exact fun info _ => (info.writesAll_bEncode lib).writes
  have empty : WritesAll (writeList []) (Bencode.list []) := writesAll_writeList .nil
  refine List.rel_append (List.rel_append (List.rel_append (List.rel_append (List.rel_append
    ?_ ?_) ?_) ?_) ?_) ?_
  · exact .cons ⟨rfl, (writesAll_writeList addrs).writes⟩ <|
      .cons ⟨rfl, writes_writeBytestring _⟩ <| .cons ⟨rfl, writes_writeBytestring _⟩ .nil
  · split_ifs
    · exact .nil
    · exact .cons ⟨rfl, writes_writeBytestring _⟩ .nil
  · exact .cons ⟨rfl, writes_writeBytestring _⟩ .nil
  · cases rc.routerVersion with
    | none => exact .nil
    | some r => exact .cons ⟨rfl, r.writesAll_bEncode.writes⟩ .nil
  · exact .cons ⟨rfl, writes_writeUint64 _⟩ <| .cons ⟨rfl, writes_writeUint64 _⟩ <|
      .cons ⟨rfl, empty.writes⟩ .nil
  · exact .cons ⟨rfl, writes_writeBytestring _⟩ .nil

/-! ### Taking an encoding back -/

theorem length_textOf {size : ℕ} (buffer : AlignedBuffer size) : (textOf buffer).length ≤ size := by
  have bound := (buffer.bytes.takeWhile_sublist (· ≠ 0)).length_le
  rwa [buffer.length_eq] at bound

section Takes

variable (lib : ContactLibraries) (rc s : RouterContact)

theorem takes_names (numbered : ∀ info ∈ rc.addrs, info.Unnumbered = false) :
    Decoder.TakesMembers (table lib).decodeKey s
      [("a", Bencode.list (rc.addrs.map (·.encoding lib))), ("i", bytestring (textOf rc.netID)),
        ("k", bytestring rc.pubkey.bytes)]
      { s with
        addrs := s.addrs ++ rc.addrs
        netID := .copy 8 (textOf rc.netID)
        pubkey := rc.pubkey } := by
  have addrs : ∀ x : List AddressInfo, Decoder.Takes (addrsMember lib).decode x
      (Bencode.list (rc.addrs.map (·.encoding lib))) (x ++ rc.addrs) :=
    takes_list (fun info _ => info.starts_encoding lib)
      (fun info member => info.takes_bDecode lib (numbered info member))
  have netID : ∀ x, Decoder.Takes netIDMember.decode x (bytestring (textOf rc.netID))
      (.copy 8 (textOf rc.netID)) := by
    have bound := length_textOf rc.netID
    have taken : Decoder.Takes decodeNetID (.zero 8) (bytestring (textOf rc.netID))
        (.copy 8 (textOf rc.netID)) :=
      takes_string (bound.trans_lt (by decide)) (if_neg (not_lt.mpr bound))
    exact fun _ => taken
  have pubkey : ∀ x, Decoder.Takes pubkeyMember.decode x (bytestring rc.pubkey.bytes) rc.pubkey :=
    fun x => takes_aligned (by decide) x rc.pubkey
  exact ⟨by decide, _, Table.takes_decodeKey (m := addrsMember lib) (by simp [table]) (addrs _), by decide, _,
    Table.takes_decodeKey (m := netIDMember) (by simp [table]) (netID _), by decide, _,
    Table.takes_decodeKey (m := pubkeyMember) (by simp [table]) (pubkey _), rfl⟩

/-- An empty nickname is not written. -/
theorem takes_nickname (unnamed : s.nickname = .zero 32) :
    Decoder.TakesMembers (table lib).decodeKey s
      (if textOf rc.nickname = [] then [] else [("n", bytestring (textOf rc.nickname))])
      { s with nickname := .copy 32 (textOf rc.nickname) } := by
  split_ifs with empty
  · rw [empty]
    show s = { s with nickname := .zero 32 }
    rw [← unnamed]
  · have bound := length_textOf rc.nickname
    have nickname : ∀ x, Decoder.Takes nicknameMember.decode x (bytestring (textOf rc.nickname))
        (.copy 32 (textOf rc.nickname)) := fun _ =>
      takes_string (bound.trans_lt (by decide)) (if_neg (not_lt.mpr bound))
    exact ⟨by decide, _, Table.takes_decodeKey (m := nicknameMember) (by simp [table]) (nickname _), rfl⟩

theorem takes_enckey :
    Decoder.TakesMembers (table lib).decodeKey s [("p", bytestring rc.enckey.bytes)]
      { s with enckey := rc.enckey } := by
  have enckey : ∀ x, Decoder.Takes enckeyMember.decode x (bytestring rc.enckey.bytes) rc.enckey :=
    fun x => takes_aligned (by decide) x rc.enckey
  exact ⟨by decide, _, Table.takes_decodeKey (m := enckeyMember) (by simp [table]) (enckey _), rfl⟩

theorem takes_routerVersion (missing : s.routerVersion = none) :
    Decoder.TakesMembers (table lib).decodeKey s
      (rc.routerVersion.toList.map fun r => ("r", r.encoding))
      { s with routerVersion := rc.routerVersion } := by
  cases rc.routerVersion with
  | none =>
    show s = { s with routerVersion := none }
    rw [← missing]
  | some r =>
    have taken : ∀ x, Decoder.Takes routerVersionMember.decode x r.encoding (some r) := fun _ =>
      takes_new (r.takes_bDecode _) rfl
    exact ⟨by decide, _, Table.takes_decodeKey (m := routerVersionMember) (by simp [table]) (taken _), rfl⟩

theorem takes_times :
    Decoder.TakesMembers (table lib).decodeKey s
      [("u", uint64 rc.lastUpdated.toNat), ("v", uint64 0), ("x", Bencode.list [])]
      { s with
        lastUpdated := rc.lastUpdated
        version := 0 } := by
  have lastUpdated : ∀ x, Decoder.Takes lastUpdatedMember.decode x
      (uint64 rc.lastUpdated.toNat) rc.lastUpdated := fun _ => takes_integer _ _ _
  have version : ∀ x, Decoder.Takes versionMember.decode x (uint64 0) (0 : UInt64) := fun _ =>
    takes_integer _ _ 0
  have exits : ∀ x, Decoder.Takes exitsMember.decode x (Bencode.list []) x := fun x =>
    takes_discard x (.list [])
  exact ⟨by decide, _, Table.takes_decodeKey (m := lastUpdatedMember) (by simp [table]) (lastUpdated _), by decide, _,
    Table.takes_decodeKey (m := versionMember) (by simp [table]) (version _), by decide, _,
    Table.takes_decodeKey (m := exitsMember) (by simp [table]) (exits _), rfl⟩

theorem takes_signature :
    Decoder.TakesMembers (table lib).decodeKey s [("z", bytestring rc.signature.bytes)]
      { s with signature := rc.signature } := by
  have signature : ∀ x, Decoder.Takes signatureMember.decode x (bytestring rc.signature.bytes)
      rc.signature := fun x => takes_aligned (by decide) x rc.signature
  exact ⟨by decide, _, Table.takes_decodeKey (m := signatureMember) (by simp [table]) (signature _), rfl⟩

/-- What is left of a router contact of version 0 after encoding and decoding it. -/
def reencoded (before rc : RouterContact) : RouterContact :=
  { rc with
    netID := .copy 8 (textOf rc.netID)
    nickname := .copy 32 (textOf rc.nickname)
    version := 0
    signedBtDict := before.signedBtDict
    srvRecords := [] }

theorem takes_encoding (numbered : ∀ info ∈ rc.addrs, info.Unnumbered = false) :
    Decoder.Takes (dict (table lib).decodeKey) s.clear (rc.encoding lib) (reencoded s rc) := by
  apply takes_dict
  exact (((((takes_names lib rc s.clear numbered).append (takes_nickname lib rc _ rfl)).append
    (takes_enckey lib rc _)).append (takes_routerVersion lib rc _ rfl)).append
    (takes_times lib rc _)).append (takes_signature lib rc _)

/-- The addresses come first, so one without a rank or a port spoils the encoding. -/
theorem refuses_encoding (unnumbered : ∃ info ∈ rc.addrs, info.Unnumbered = true) :
    Decoder.Refuses (dict (table lib).decodeKey) s (rc.encoding lib) := by
  have addrs : Decoder.Refuses (addrsMember lib).decode s.addrs
      (Bencode.list (rc.addrs.map (·.encoding lib))) :=
    refuses_list AddressInfo.Unnumbered (fun info => info.starts_encoding lib)
      (fun info => info.takes_bDecode lib) (fun info => info.refuses_bDecode lib) unnumbered
      s.addrs
  have none : Decoder.TakesMembers (table lib).decodeKey s [] s := rfl
  have refused : Decoder.Refuses ((table lib).decodeKey (ascii "a")) s
      (Bencode.list (rc.addrs.map (·.encoding lib))) :=
    Table.refuses_decodeKey (m := addrsMember lib) (by simp [table]) addrs
  exact refuses_dict none (by decide) refused _

end Takes

end RouterContact

end Llarp.Contact

import Llarp.Contact.Encoded

/-!
# What a dictionary states about a router

The members of a decoded router contact can be read off the entries of its dictionary: lists are
put together from all entries of their letter, and any other member comes from the last one.
-/

namespace Llarp.Contact

open Foundation Decoder

namespace AddressInfo

variable (lib : ContactLibraries)

/-- The address at the cursor names a number that is not cut to 0. -/
def Names (letter : String) (b : LlarpBuffer) : Prop :=
  ∃ v, (valuesOf letter ((table lib).listed empty b)).getLast? = some v ∧ integerAt v ≠ 65536

theorem decodeNumber_accepted {x : UInt16} {v : LlarpBuffer}
    (accepted : (decodeNumber x v).1 = .accepted) :
    after decodeNumber x v = (integerAt v).toUInt16 ∧
      0 < integerAt v ∧ integerAt v ≤ 65536 := by
  have stored := number_accepted accepted
  split_ifs at stored with bad
  obtain ⟨small, positive⟩ := not_or.mp bad
  exact ⟨(Option.some.inj stored).symm, UInt64.not_le.mp positive, UInt64.not_lt.mp small⟩

theorem toUInt16_eq_zero_iff {i : UInt64} (positive : 0 < i) (small : i ≤ 65536) :
    i.toUInt16 = 0 ↔ i = 65536 := by
  rw [UInt64.lt_iff_toNat_lt] at positive
  rw [UInt64.le_iff_toNat_le] at small
  rw [← UInt16.toNat_inj, ← UInt64.toNat_inj, UInt64.toNat_toUInt16]
  show i.toNat % 2 ^ 16 = 0 ↔ i.toNat = 65536
  change 0 < i.toNat at positive
  change i.toNat ≤ 65536 at small
  omega

/-- What numbers make of 0 is 0 exactly if there is none, or if the last one is 65536. -/
theorem foldl_decodeNumber_ne_zero_iff {values : List LlarpBuffer}
    (accepts : AcceptsAll decodeNumber values) :
    values.foldl (after decodeNumber) 0 ≠ 0 ↔
      ∃ v, values.getLast? = some v ∧ integerAt v ≠ 65536 := by
  rw [foldl_after_last accepts fun x v read => (decodeNumber_accepted read).1]
  cases last : values.getLast? with
  | none => exact iff_of_false (not_not.mpr rfl) fun ⟨_, named, _⟩ => nomatch named
  | some v =>
    obtain ⟨-, positive, small⟩ :=
      decodeNumber_accepted (accepts v (List.mem_of_getLast? last) 0)
    rw [Option.map_some, Option.getD_some, Ne, toUInt16_eq_zero_iff positive small]
    exact ⟨fun other => ⟨v, rfl, other⟩, fun ⟨_, same, other⟩ => Option.some.inj same ▸ other⟩

/-- An address is complete exactly if it names a rank and a port. -/
theorem unnumbered_eq_false_iff {b : LlarpBuffer}
    (accepted : (bDecode lib empty b).1 = .accepted) :
    (bDecode lib empty b).2.1.Unnumbered = false ↔ Names lib "c" b ∧ Names lib "p" b := by
  have rank : (bDecode lib empty b).2.1.rank ≠ 0 ↔ Names lib "c" b := by
    have member : rankMember ∈ (table lib).members := by simp [table]
    have final := Table.get_dict accepted member empty
    change (bDecode lib empty b).2.1.rank = _ at final
    rw [final]
    exact foldl_decodeNumber_ne_zero_iff (Table.acceptsAll_valuesOf accepted member empty)
  have port : (bDecode lib empty b).2.1.port ≠ 0 ↔ Names lib "p" b := by
    have member : portMember ∈ (table lib).members := by simp [table]
    have final := Table.get_dict accepted member empty
    change (bDecode lib empty b).2.1.port = _ at final
    rw [final]
    exact foldl_decodeNumber_ne_zero_iff (Table.acceptsAll_valuesOf accepted member empty)
  rw [← rank, ← port, Unnumbered, Bool.or_eq_false_iff, decide_eq_false_iff_not,
    decide_eq_false_iff_not]

end AddressInfo

namespace RouterContact

variable (lib : ContactLibraries)

/-- The entries of the dictionary at the cursor. They do not depend on the object that they are
decoded into. -/
def listedIn (b : LlarpBuffer) : List (List UInt8 × LlarpBuffer) :=
  (table lib).listed (fresh (.zero 8)) b

/-- The places of the addresses and of the SRV records in a list. -/
def addrPlaces : LlarpBuffer → List LlarpBuffer :=
  places .empty (AddressInfo.bDecode lib)

def srvPlaces : LlarpBuffer → List LlarpBuffer :=
  places SRVData.empty (SRVData.bDecode lib)

/-- The last value of a letter, read in some way. -/
def lastOf {τ : Type} (letter : String) (listed : List (List UInt8 × LlarpBuffer))
    (read : LlarpBuffer → τ) (before : τ) : τ :=
  ((valuesOf letter listed).getLast?.map read).getD before

/-- What entries state, for an object that has been cleared. -/
def stated (before : RouterContact) (listed : List (List UInt8 × LlarpBuffer)) : RouterContact where
  addrs := before.addrs ++ (valuesOf "a" listed).flatMap fun v =>
    (addrPlaces lib v).map fun place => (AddressInfo.bDecode lib .empty place).2.1
  netID := lastOf "i" listed (fun v => .copy 8 (stringAt v)) before.netID
  enckey := lastOf "p" listed (fun v => .copy 32 (stringAt v)) before.enckey
  pubkey := lastOf "k" listed (fun v => .copy 32 (stringAt v)) before.pubkey
  signature := lastOf "z" listed (fun v => .copy 64 (stringAt v)) before.signature
  nickname := lastOf "n" listed (fun v => .copy 32 (stringAt v)) before.nickname
  lastUpdated := lastOf "u" listed integerAt before.lastUpdated
  version := lastOf "v" listed integerAt before.version
  routerVersion := lastOf "r" listed (fun v => some (RouterVersion.bDecode .empty v).2.1)
    before.routerVersion
  signedBtDict := before.signedBtDict
  srvRecords := before.srvRecords ++ (valuesOf "s" listed).flatMap fun v =>
    (srvPlaces lib v).map fun place => (SRVData.bDecode lib SRVData.empty place).2.1

section Decoded

variable {lib : ContactLibraries} {before : RouterContact} {b : LlarpBuffer}

theorem decodeNetID_accepted {x : NetID} {v : LlarpBuffer}
    (accepted : (decodeNetID x v).1 = .accepted) :
    (decodeNetID x v).2.1 = .copy 8 (stringAt v) ∧ (stringAt v).length ≤ 8 := by
  have stored := string_accepted accepted
  split_ifs at stored with long
  exact ⟨(Option.some.inj stored).symm, not_lt.mp long⟩

theorem nickname_accepted {x : AlignedBuffer 32} {v : LlarpBuffer}
    (accepted : (nicknameMember.decode x v).1 = .accepted) :
    after nicknameMember.decode x v = .copy 32 (stringAt v) ∧ (stringAt v).length ≤ 32 := by
  have stored := string_accepted accepted
  split_ifs at stored with long
  exact ⟨(Option.some.inj stored).symm, not_lt.mp long⟩

/-- No value changes the dictionary that is kept. -/
theorem signedBtDict_dict (accepted : (dict (table lib).decodeKey before b).1 = .accepted) :
    (dict (table lib).decodeKey before b).2.1.signedBtDict = before.signedBtDict := by
  refine Table.keeps_dict accepted ?_
  simp only [table, List.forall_mem_cons]
  exact ⟨fun _ _ => rfl, fun _ _ => rfl, fun _ _ => rfl, fun _ _ => rfl, fun _ _ => rfl,
    fun _ _ => rfl, fun _ _ => rfl, fun _ _ => rfl, fun _ _ => rfl, fun _ _ => rfl,
    fun _ _ => rfl, List.forall_mem_nil _⟩

theorem dict_eq_stated (accepted : (dict (table lib).decodeKey before b).1 = .accepted) :
    (dict (table lib).decodeKey before b).2.1 = stated lib before (listedIn lib b) := by
  have final : ∀ m ∈ (table lib).members, m.get (dict (table lib).decodeKey before b).2.1 =
      (valuesOf m.letter (listedIn lib b)).foldl (after m.decode) (m.get before) :=
    fun m member => Table.get_dict accepted member _
  have accepts : ∀ m ∈ (table lib).members,
      AcceptsAll m.decode (valuesOf m.letter (listedIn lib b)) :=
    fun m member => Table.acceptsAll_valuesOf accepted member _
  simp only [table, List.forall_mem_cons] at final accepts
  obtain ⟨addrs, netID, pubkey, routerVersion, nickname, srvRecords, enckey, lastUpdated, version,
    -, signature, -⟩ := final
  obtain ⟨addrs', netID', pubkey', routerVersion', nickname', srvRecords', enckey', lastUpdated',
    version', -, signature', -⟩ := accepts
  ext1
  · exact addrs.trans (foldl_after_append addrs' (fun x v read => (list_eq_places read).1) _)
  · exact netID.trans (foldl_after_last netID' (fun x v read => (decodeNetID_accepted read).1) _)
  · exact enckey.trans (foldl_after_last enckey' (fun x v read => aligned_accepted read) _)
  · exact pubkey.trans (foldl_after_last pubkey' (fun x v read => aligned_accepted read) _)
  · exact signature.trans (foldl_after_last signature' (fun x v read => aligned_accepted read) _)
  · exact nickname.trans (foldl_after_last nickname' (fun x v read => (nickname_accepted read).1) _)
  · exact lastUpdated.trans (foldl_after_last lastUpdated' (fun x v => integer_accepted) _)
  · exact version.trans (foldl_after_last version' (fun x v => integer_accepted) _)
  · exact routerVersion.trans (foldl_after_last routerVersion'
      (fun x v read => (Option.some.inj (new_accepted read)).symm) _)
  · exact signedBtDict_dict accepted
  · exact srvRecords.trans
      (foldl_after_append srvRecords' (fun x v read => (list_eq_places read).1) _)

end Decoded

end RouterContact

end Llarp.Contact

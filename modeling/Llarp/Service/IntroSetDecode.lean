import Llarp.Net.IPRange
import Llarp.Service.Info

/-!
# Decoding introduction sets

A decrypted introduction set comes from whoever holds the key of the service, and its decoder
must cope with every payload. It always returns or throws. It throws exactly where it comes to an
IPv4 range that has something behind its slash which is not a number: in the set of ranges that
the service owns, or in its traffic policy.
-/

namespace Llarp.Service

open Foundation Decoder

/-- All the members of an introduction set. -/
structure DecodedIntroSet extends IntroSet where
  sntrupKey : AlignedBuffer 1218
  topic : AlignedBuffer 16
  srvs : List SRVTuple
  supportedProtocols : List UInt64
  ownedRanges : List IPRange
  exitTrafficPolicy : Option TrafficPolicy
  signature : Signature
  version : UInt64

/-- The version and the vanity nonce are read but not kept. -/
def ServiceInfo.readers : List (String × Decoder ServiceInfo) :=
  [("e", .into enckey (fun enckey info => { info with enckey }) (.aligned 32)),
    ("s", .into signkey (fun signkey info => { info with signkey }) (.aligned 32)),
    ("v", .integer fun _ info => info),
    ("x", .string fun vanity info => if vanity.length = 16 then some info else none)]

/-- A cached address stays. -/
def ServiceInfo.bDecode : Decoder ServiceInfo :=
  .check (.dict (.members readers .refuse)) fun info => some info.updateAddr

theorem ServiceInfo.returns_bDecode : Decoder.Returns bDecode := by
  refine returns_check (returns_dict (returns_members ?_
    returns_refuse)) _
  simp only [readers, List.forall_mem_cons]
  exact ⟨returns_into (returns_aligned 32) _ _,
    returns_into (returns_aligned 32) _ _, returns_integer _,
    returns_string _, nofun⟩

theorem ServiceInfo.quiet_bDecode : Decoder.Quiet bDecode := by
  refine quiet_check (quiet_dict (quiet_members ?_
    quiet_refuse)) _
  simp only [readers, List.forall_mem_cons]
  exact ⟨quiet_into (quiet_aligned 32) _ _,
    quiet_into (quiet_aligned 32) _ _, quiet_integer _,
    quiet_string _, nofun⟩

/-- The version is read but not kept. -/
def Introduction.readers : List (String × Decoder Introduction) :=
  [("k", .into router (fun router intro => { intro with router }) (.aligned 32)),
    ("l", .integer fun latency intro => { intro with latency := latency.toNat }),
    ("p", .into pathID (fun pathID intro => { intro with pathID }) (.aligned 16)),
    ("v", .integer fun _ intro => intro),
    ("x", .integer fun expiresAt intro => { intro with expiresAt := expiresAt.toNat })]

def Introduction.bDecode : Decoder Introduction := .dict (.members readers .refuse)

theorem Introduction.returns_bDecode : Decoder.Returns bDecode := by
  refine returns_dict (returns_members ?_ returns_refuse)
  simp only [readers, List.forall_mem_cons]
  exact ⟨returns_into (returns_aligned 32) _ _, returns_integer _,
    returns_into (returns_aligned 16) _ _, returns_integer _,
    returns_integer _, nofun⟩

theorem Introduction.quiet_bDecode : Decoder.Quiet bDecode := by
  refine quiet_dict (quiet_members ?_ quiet_refuse)
  simp only [readers, List.forall_mem_cons]
  exact ⟨quiet_into (quiet_aligned 32) _ _, quiet_integer _,
    quiet_into (quiet_aligned 16) _ _, quiet_integer _,
    quiet_integer _, nofun⟩

namespace DecodedIntroSet

/-- A default-constructed introduction set. -/
def empty : DecodedIntroSet where
  addressKeys := .empty
  intros := []
  timestampSignedAt := 0
  sntrupKey := .zero 1218
  topic := .zero 16
  srvs := []
  supportedProtocols := []
  ownedRanges := []
  exitTrafficPolicy := none
  signature := .zero 64
  version := 0

variable (lib : Libraries)

def decodePolicy : Decoder DecodedIntroSet :=
  .new {} (fun policy introset => some { introset with exitTrafficPolicy := some policy })
    (TrafficPolicy.bDecode lib)

def decodeRanges : Decoder DecodedIntroSet :=
  .into ownedRanges (fun ownedRanges introset => { introset with ownedRanges })
    (IPRange.readSet lib)

def decodeSRVs : Decoder DecodedIntroSet :=
  .raw fun srvString introset =>
    match lib.btSRVs srvString with
    | none => (.refused, introset)
    | some srvs => (.accepted, { introset with srvs })

def readers : List (String × Decoder DecodedIntroSet) :=
  [("a", .into (·.addressKeys) (fun addressKeys introset => { introset with addressKeys })
      ServiceInfo.bDecode),
    ("e", decodePolicy lib),
    ("i", .into (·.intros) (fun intros introset => { introset with intros })
      (.list .empty Introduction.bDecode)),
    ("k", .into sntrupKey (fun sntrupKey introset => { introset with sntrupKey })
      (.aligned 1218)),
    ("n", .into topic (fun topic introset => { introset with topic }) (.aligned 16)),
    ("p", .each (.integer fun protoval introset =>
      { introset with supportedProtocols := introset.supportedProtocols ++ [protoval] })),
    ("r", decodeRanges lib),
    ("s", decodeSRVs lib),
    ("t", .integer fun t introset => { introset with timestampSignedAt := t.toNat }),
    ("v", .integer fun version introset => { introset with version }),
    ("z", .into signature (fun signature introset => { introset with signature })
      (.aligned 64))]

/-- `IntroSet::DecodeKey`. -/
def decodeKey : List UInt8 → Decoder DecodedIntroSet :=
  .members (readers lib) .discard

def bDecode : Decoder DecodedIntroSet := .dict (decodeKey lib)

theorem returns_decodeSRVs : Decoder.Returns (decodeSRVs lib) := by
  refine returns_raw fun srvString introset => ?_
  split <;> exact Ending.noConfusion

theorem quiet_decodeSRVs : Decoder.Quiet (decodeSRVs lib) := by
  refine quiet_raw fun srvString introset => ?_
  split <;> exact Ending.noConfusion

theorem returns_decodeKey (key : List UInt8) : Decoder.Returns (decodeKey lib key) := by
  refine returns_members ?_ returns_discard key
  simp only [readers, List.forall_mem_cons]
  exact ⟨returns_into ServiceInfo.returns_bDecode _ _,
    returns_new (TrafficPolicy.returns_bDecode lib) _ _,
    returns_into (returns_list Introduction.returns_bDecode _) _ _,
    returns_into (returns_aligned 1218) _ _,
    returns_into (returns_aligned 16) _ _,
    returns_each (returns_integer _),
    returns_into (IPRange.returns_readSet lib) _ _,
    returns_decodeSRVs lib, returns_integer _, returns_integer _,
    returns_into (returns_aligned 64) _ _, nofun⟩

theorem returns_bDecode : Decoder.Returns (bDecode lib) :=
  returns_dict (returns_decodeKey lib)

theorem decodeKey_thrown_iff {lib : Libraries} {key : List UInt8} {introset : DecodedIntroSet}
    {b : LlarpBuffer} :
    (decodeKey lib key introset b).1 = .thrown ↔
      startsWith key "e" = true ∧ TrafficPolicy.MalformedIn lib b ∨
        startsWith key "r" = true ∧ IPRange.MalformedIn lib introset.ownedRanges b := by
  have letters : Decoder.Letters ["a", "e", "i", "k", "n", "p", "r", "s", "t", "v", "z"] := by
    decide
  refine (members_thrown_iff_of_quiet (readers lib)
    [("e", decodePolicy lib), ("r", decodeRanges lib)] letters quiet_discard ?_ ?_).trans ?_
  · intro reader member
    rcases List.mem_pair.mp member with rfl | rfl
    · exact List.mem_of_getElem? (show (readers lib)[1]? = some ("e", decodePolicy lib) from rfl)
    · exact List.mem_of_getElem? (show (readers lib)[6]? = some ("r", decodeRanges lib) from rfl)
  · simp only [readers, List.forall_mem_cons]
    exact ⟨.inr (quiet_into ServiceInfo.quiet_bDecode _ _), .inl List.mem_cons_self,
      .inr (quiet_into (quiet_list Introduction.quiet_bDecode _) _ _),
      .inr (quiet_into (quiet_aligned 1218) _ _),
      .inr (quiet_into (quiet_aligned 16) _ _),
      .inr (quiet_each (quiet_integer _)),
      .inl (List.mem_cons_of_mem _ List.mem_cons_self), .inr (quiet_decodeSRVs lib),
      .inr (quiet_integer _), .inr (quiet_integer _),
      .inr (quiet_into (quiet_aligned 64) _ _), nofun⟩
  · have policy : (decodePolicy lib introset b).1 = .thrown ↔ TrafficPolicy.MalformedIn lib b :=
      new_thrown_iff.trans TrafficPolicy.bDecode_thrown_iff
    have ranges : (decodeRanges lib introset b).1 = .thrown ↔
        IPRange.MalformedIn lib introset.ownedRanges b := IPRange.readSet_thrown_iff
    simp only [List.exists_mem_cons_iff, List.not_mem_nil, false_and, exists_false, or_false,
      policy, ranges]

/-- Decoding the payload comes to a malformed IPv4 range, in the ranges that the service owns or
in its traffic policy. -/
def MalformedIn (lib : Libraries) (introset : DecodedIntroSet) (b : LlarpBuffer) : Prop :=
  ∃ key introset' b', Decoder.EntryReached (decodeKey lib) introset b key introset' b' ∧
    (startsWith key "e" = true ∧ TrafficPolicy.MalformedIn lib b' ∨
      startsWith key "r" = true ∧ IPRange.MalformedIn lib introset'.ownedRanges b')

/-- The decoder returns true or false exactly for the payloads in which it does not come to a
malformed IPv4 range, and throws for the others. -/
theorem bDecode_returns_iff (lib : Libraries) (introset : DecodedIntroSet) (b : LlarpBuffer) :
    (bDecode lib introset b).1 = .accepted ∨ (bDecode lib introset b).1 = .refused ↔
      ¬MalformedIn lib introset b := by
  have thrown : (bDecode lib introset b).1 = .thrown ↔ MalformedIn lib introset b := by
    refine (dict_thrown_iff fun key => (returns_decodeKey lib key).onward).trans ?_
    refine exists_congr fun key => exists_congr fun introset' => exists_congr fun b' => ?_
    exact and_congr_right fun _ => decodeKey_thrown_iff
  have ends := (returns_bDecode lib).ends introset b
  rw [← thrown]
  cases ending : (bDecode lib introset b).1 with
  | accepted => exact iff_of_true (.inl rfl) Ending.noConfusion
  | refused => exact iff_of_true (.inr rfl) Ending.noConfusion
  | thrown => exact iff_of_false (nofun) (not_not.mpr rfl)
  | endless => exact absurd ending ends

/-- Libraries that know a single address. -/
def oneAddress : Libraries where
  inetPton4 text := if text = Bencode.ascii "1.2.3.4" then some 0x01020304 else none
  inetPton6 _ := none
  btString data := some (data.dropWhile (· ≠ ':'.toUInt8)).tail
  btSRVs _ := none

/-- A range with letters behind its slash makes the decoder throw, among the ranges that the
service owns and in its traffic policy. -/
theorem malformed_range_throws :
    (bDecode oneAddress empty
      ⟨fun i => (Bencode.ascii "d1:rl11:1.2.3.4/abcee").getD i 0, 21, 0⟩).1 = .thrown ∧
    (bDecode oneAddress empty
      ⟨fun i => (Bencode.ascii "d1:ed1:rl11:1.2.3.4/abceee").getD i 0, 26, 0⟩).1 = .thrown := by
  decide +kernel

end DecodedIntroSet

end Llarp.Service

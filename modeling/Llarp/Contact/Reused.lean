import Llarp.Contact.Signed

/-!
# Router contacts that are decoded again

An object that has held another router contact decodes the next one in the same way. All that can
be left of the other one is its network and the dictionary that was signed.
-/

namespace Llarp.Contact.RouterContact

open Foundation Decoder

variable {lib : ContactLibraries}

theorem decodeVersion1_ending (btlist : ContactList) (rc rc' : RouterContact) :
    (decodeVersion1 lib btlist rc).1 = (decodeVersion1 lib btlist rc').1 := by
  rw [decodeVersion1, decodeVersion1]
  split
  · split_ifs
    · exact (oblivious_dict (table lib).oblivious_decodeKey).ending _ _ _
    · rfl
    · rfl
  · rfl

theorem oblivious_bDecode : Oblivious (bDecode lib) := by
  intro rc rc' b _
  rw [bDecode, bDecode]
  dsimp only
  split_ifs
  · exact oblivious_dict (table lib).oblivious_decodeKey _ _ b trivial
  · exact ⟨rfl, rfl, fun _ => trivial⟩
  · have same : (decodeVersion1 lib (lib.btList b.rest) rc.clear).1 =
        (decodeVersion1 lib (lib.btList b.rest) rc'.clear).1 := decodeVersion1_ending _ _ _
    generalize decodeVersion1 lib (lib.btList b.rest) rc.clear = result at *
    generalize decodeVersion1 lib (lib.btList b.rest) rc'.clear = result' at *
    obtain ⟨ending, made⟩ := result
    obtain ⟨ending', made'⟩ := result'
    obtain rfl : ending = ending' := same
    cases ending with
    | accepted => exact ⟨rfl, rfl, fun _ => trivial⟩
    | _ => exact ⟨rfl, rfl, fun _ => trivial⟩
  · exact ⟨rfl, rfl, fun _ => trivial⟩

/-- The members that are cleared. -/
def core (rc : RouterContact) : RouterContact :=
  { rc with
    netID := .zero 8
    signedBtDict := [] }

theorem eq_iff_core {rc rc' : RouterContact} :
    rc = rc' ↔ rc.core = rc'.core ∧ rc.netID = rc'.netID ∧ rc.signedBtDict = rc'.signedBtDict := by
  constructor
  · rintro rfl
    exact ⟨rfl, rfl, rfl⟩
  · rintro ⟨same, network, kept⟩
    calc rc = { rc.core with
            netID := rc.netID
            signedBtDict := rc.signedBtDict } := rfl
      _ = { rc'.core with
            netID := rc'.netID
            signedBtDict := rc'.signedBtDict } := by rw [same, network, kept]
      _ = rc' := rfl

/-- The contact at a place names its network. -/
def NamesNetwork (lib : ContactLibraries) (v : LlarpBuffer) : Prop :=
  valuesOf "i" (listedIn lib (dictionary lib v)) ≠ []

/-- The contact at a place is in the format that is kept. -/
def IsList (v : LlarpBuffer) : Prop := v.peek ≠ 'd'.toUInt8

/-- What is decoded, with the signature that the list holds. -/
theorem bDecode_eq_stated {v : LlarpBuffer} {x : RouterContact}
    (accepted : (bDecode lib x v).1 = .accepted) :
    ∃ kept signature, (∀ y, after (bDecode lib) y v =
      stated lib { y.clear with
        signature
        signedBtDict := kept.getD y.signedBtDict } (listedIn lib (dictionary lib v))) ∧
      (kept = none ↔ ¬IsList v) := by
  have accepts : ∀ y, bDecode lib y v = (.accepted, (bDecode lib y v).2) := fun y =>
    Prod.ext ((oblivious_bDecode.ending y x v).trans accepted) rfl
  rcases bDecode_accepted (accepts x) with ⟨isDict, -⟩ | ⟨isList, dictData, signature, -, holds,
    signed, -⟩
  · refine ⟨none, .zero 64, fun y => ?_, iff_of_true rfl (not_not.mpr isDict)⟩
    rcases bDecode_accepted (accepts y) with ⟨-, decoded⟩ | ⟨isList, -⟩
    · have made := dict_eq_stated (congrArg Prod.fst decoded)
      rw [decoded] at made
      rw [dictionary, if_pos isDict]
      exact made
    · exact absurd isDict isList
  · refine ⟨some dictData, signature, fun y => ?_,
      iff_of_false (Option.some_ne_none _) (not_not.mpr isList)⟩
    rcases bDecode_accepted (accepts y) with ⟨isDict, -⟩ | ⟨-, dictData', signature', _, holds',
      signed', decoded⟩
    · exact absurd isDict isList
    · obtain rfl : dictData = dictData' := Option.some.inj (holds.symm.trans holds')
      have bytes := Option.some.inj (signed.symm.trans signed')
      obtain rfl : signature = signature' := by
        obtain ⟨data, size⟩ := signature
        obtain ⟨data', size'⟩ := signature'
        obtain rfl : data = data' := bytes
        rfl
      have made := dict_eq_stated (congrArg Prod.fst decoded)
      rw [decoded] at made
      rw [dictionary, if_neg isList, holds]
      exact made

variable {v : LlarpBuffer} {x : RouterContact} (accepted : (bDecode lib x v).1 = .accepted)
  (y : RouterContact)

include accepted

theorem core_after_bDecode : (after (bDecode lib) x v).core = (after (bDecode lib) y v).core := by
  obtain ⟨kept, signature, made, -⟩ := bDecode_eq_stated accepted
  rw [made x, made y]
  rfl

theorem netID_after_bDecode_named (names : NamesNetwork lib v) :
    (after (bDecode lib) x v).netID = (after (bDecode lib) y v).netID := by
  obtain ⟨kept, signature, made, -⟩ := bDecode_eq_stated accepted
  rw [made x, made y]
  exact getD_getLast?_eq_iff.mpr (.inl names)

theorem netID_after_bDecode (unnamed : ¬NamesNetwork lib v) :
    (after (bDecode lib) x v).netID = x.netID := by
  obtain ⟨kept, signature, made, -⟩ := bDecode_eq_stated accepted
  rw [made x]
  show lastOf "i" _ _ x.netID = x.netID
  rw [lastOf, not_not.mp unnamed]
  rfl

theorem signedBtDict_after_bDecode_list (isList : IsList v) :
    (after (bDecode lib) x v).signedBtDict = (after (bDecode lib) y v).signedBtDict := by
  obtain ⟨kept, signature, made, format⟩ := bDecode_eq_stated accepted
  rw [made x, made y]
  cases kept with
  | none => exact absurd isList (format.mp rfl)
  | some dictData => rfl

theorem signedBtDict_after_bDecode (isDict : ¬IsList v) :
    (after (bDecode lib) x v).signedBtDict = x.signedBtDict := by
  obtain ⟨kept, signature, made, format⟩ := bDecode_eq_stated accepted
  rw [made x, format.mpr isDict]
  rfl

end Llarp.Contact.RouterContact

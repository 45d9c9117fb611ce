import Llarp.Dht.IntroRelay
import Llarp.Dht.RouterLookup

/-!
# The replies of lookups

Three kinds of lookups reply with one of the values that they collected. Their loops start from a
default-constructed record, so a value that is not newer than it is never selected, and two of
them reply with that record if nothing was. The lookup for a path compares the wrong way round.
-/

namespace Llarp.Dht

open Foundation Service

/-- The reply is a newest accepted value, or empty if none is accepted, and never has a
default-constructed record. -/
structure RepliesNewest {V T : Type} [LE T] (default : V) (accepts : V → Bool) (time : V → T)
    (values reply : List V) : Prop where
  newest : ∀ v ∈ values, accepts v = true → ∃ found ∈ values, reply = [found] ∧
    accepts found = true ∧ ∀ w ∈ values, accepts w = true → time w ≤ time found
  none_accepted : (∀ v ∈ values, accepts v = false) → reply = []
  not_default : default ∉ reply

/-- `ServiceAddressLookup::SendReply` selects as the lookup of a relay's client does. -/
def serviceAddressReply (valuesFound : List EncryptedIntroSet) : List EncryptedIntroSet :=
  IntroHost.newestIntroSet valuesFound

/-- The oldest contact, the first one of several, if it is older than a default-constructed one. -/
def IsOldest (values : List RouterContact) (rc : RouterContact) : Prop :=
  IsFirstBest (fun _ => true) (fun rc => -rc.lastUpdated) .empty values rc

section Selection

variable {V T : Type} [LinearOrder T] {default : V} {accepts : V → Bool} {time : V → T}

theorem IsFirstBest.le {values : List V} {v : V}
    (best : IsFirstBest accepts time default values v) :
    ∀ w ∈ values, accepts w = true → time w ≤ time v := by
  obtain ⟨before, after, rfl, -, -, earlier, later⟩ := best
  intro w member accepted
  rcases List.mem_append.mp member with early | late
  · exact (earlier w early accepted).le
  · rcases List.mem_cons.mp late with rfl | late
    · exact le_rfl
    · exact later w late accepted

/-- A loop that keeps the newest accepted value goes wrong if it ends where it started. -/
theorem repliesNewest_firstBest_iff (values : List V) :
    RepliesNewest default accepts time values
        (if values.isEmpty then [] else [firstBest accepts time default values]) ↔
      values = [] ∨ ∃ v ∈ values, accepts v = true ∧ time default < time v := by
  cases values with
  | nil => exact iff_of_true ⟨by simp, fun _ => rfl, by simp⟩ (.inl rfl)
  | cons first rest =>
    rw [List.isEmpty_cons, if_neg Bool.false_ne_true]
    rcases firstBest_cases accepts time default (first :: rest) with ⟨kept, bound⟩ | best
    · refine iff_of_false (fun right => ?_) ?_
      · rw [kept] at right
        exact right.not_default (List.mem_singleton_self _)
      · rintro (none | ⟨v, member, accepted, newer⟩)
        · cases none
        · exact absurd (bound v member accepted) (not_le.mpr newer)
    · have upper := IsFirstBest.le best
      have member := best.mem
      obtain ⟨-, -, -, accepted, newer, -⟩ := best
      refine iff_of_true ⟨fun _ _ _ => ⟨_, member, rfl, accepted, upper⟩, fun none => ?_, ?_⟩
        (.inr ⟨_, member, accepted, newer⟩)
      · rw [none _ member] at accepted
        cases accepted
      · intro same
        rw [← List.mem_singleton.mp same] at newer
        exact lt_irrefl _ newer

end Selection

/-- The lookup for a path replies with the oldest contact, or with nothing if no contact is old
enough or its key is zero. -/
theorem repliesNewest_foundForPath_iff (accepts : RouterContact → Bool)
    (values : List RouterContact) :
    RepliesNewest .empty accepts (·.lastUpdated) values (RouterHost.foundForPath values) ↔
      (∀ rc ∈ values, accepts rc = false) ∧ (∀ rc, IsOldest values rc → rc.pubkey.isZero = true) ∨
      ∃ rc, IsOldest values rc ∧ rc.pubkey.isZero = false ∧ accepts rc = true ∧
        ∀ w ∈ values, accepts w = true → w.lastUpdated = rc.lastUpdated := by
  rw [RouterHost.foundForPath_eq]
  have unique : ∀ {rc}, IsOldest values rc → firstBest (fun _ => true)
      (fun rc : RouterContact => -rc.lastUpdated) .empty values = rc := IsFirstBest.firstBest_eq
  have empties : RepliesNewest .empty accepts (·.lastUpdated) values [] ↔
      ∀ rc ∈ values, accepts rc = false := by
    constructor
    · intro right rc member
      by_contra accepted
      obtain ⟨_, _, contradiction, _⟩ := right.newest rc member (Bool.eq_true_of_not_eq_false accepted)
      cases contradiction
    · intro none
      refine ⟨fun rc member accepted => ?_, fun _ => rfl, List.not_mem_nil⟩
      rw [none rc member] at accepted
      cases accepted
  rcases firstBest_cases (fun _ => true) (fun rc : RouterContact => -rc.lastUpdated) .empty values
    with ⟨kept, bound⟩ | best
  · have noOldest : ∀ rc, ¬IsOldest values rc := by
      intro rc oldest
      have member := oldest.mem
      obtain ⟨-, -, -, -, older, -⟩ := oldest
      exact absurd (bound rc member rfl) (not_le.mpr older)
    rw [kept]
    refine empties.trans ⟨fun none => .inl ⟨none, fun rc oldest => absurd oldest (noOldest rc)⟩, ?_⟩
    rintro (⟨none, -⟩ | ⟨rc, oldest, -⟩)
    · exact none
    · exact absurd oldest (noOldest rc)
  · have upper := IsFirstBest.le best
    have member := best.mem
    have oldest : IsOldest values _ := best
    generalize firstBest (fun _ => true) (fun rc : RouterContact => -rc.lastUpdated) .empty values =
      rc at *
    dsimp only
    cases zero : rc.pubkey.isZero with
    | true =>
      rw [if_pos rfl]
      refine empties.trans ⟨fun none => .inl ⟨none, fun rc' oldest' => ?_⟩, ?_⟩
      · rw [← unique oldest']
        exact zero
      · rintro (⟨none, -⟩ | ⟨rc', oldest', nonzero, -⟩)
        · exact none
        · rw [← unique oldest', zero] at nonzero
          cases nonzero
    | false =>
      rw [if_neg Bool.false_ne_true]
      constructor
      · intro right
        refine .inr ⟨rc, oldest, zero, ?_⟩
        by_contra wrong
        by_cases some : ∃ v ∈ values, accepts v = true
        · -- the reply has the oldest contact, so all that are accepted are as old as it
          obtain ⟨v, stored, accepted⟩ := some
          obtain ⟨found, -, same, good, above⟩ := right.newest v stored accepted
          obtain rfl : rc = found := List.singleton_inj.mp same
          refine wrong ⟨good, fun w stored' accepted' => le_antisymm (above w stored' accepted') ?_⟩
          exact neg_le_neg_iff.mp (upper w stored' rfl)
        · push Not at some
          have none := right.none_accepted fun v stored => Bool.eq_false_of_not_eq_true (some v stored)
          cases none
      · rintro (⟨-, zeros⟩ | ⟨rc', oldest', -, accepted, same⟩)
        · rw [zeros rc oldest] at zero
          cases zero
        · obtain rfl := unique oldest'
          refine ⟨fun _ _ _ => ⟨rc, member, rfl, accepted, fun w stored ok => (same w stored ok).le⟩,
            fun none => ?_, fun isDefault => ?_⟩
          · rw [none rc member] at accepted
            cases accepted
          · rw [← List.mem_singleton.mp isDefault] at zero
            exact absurd zero (by decide)

/-- A recursive lookup and a lookup of a service reply as they should exactly if they found nothing
or something that is newer than a default-constructed record. A lookup for a path does so only if no
contact is accepted, or if its oldest contact happens to be as new as all that are. -/
theorem replies_newest_iff (host : RouterHost) (now : ℕ) :
    (∀ values, RepliesNewest .empty (host.checkRC now) (·.lastUpdated) values
        (host.newestFound now values) ↔
      values = [] ∨ ∃ rc ∈ values, host.checkRC now rc = true ∧ 0 < rc.lastUpdated) ∧
    (∀ values, RepliesNewest .empty (host.checkRC now) (·.lastUpdated) values
        (RouterHost.foundForPath values) ↔
      (∀ rc ∈ values, host.checkRC now rc = false) ∧
        (∀ rc, IsOldest values rc → rc.pubkey.isZero = true) ∨
      ∃ rc, IsOldest values rc ∧ rc.pubkey.isZero = false ∧ host.checkRC now rc = true ∧
        ∀ w ∈ values, host.checkRC now w = true → w.lastUpdated = rc.lastUpdated) ∧
    ∀ values, RepliesNewest .empty (fun _ => true) (·.signedAt) values
        (serviceAddressReply values) ↔
      values = [] ∨ ∃ introset ∈ values, 0 < introset.signedAt := by
  refine ⟨fun values => repliesNewest_firstBest_iff values,
    repliesNewest_foundForPath_iff (host.checkRC now), fun values => ?_⟩
  have loop : EncryptedIntroSet.newest values =
      firstBest (fun _ => true) EncryptedIntroSet.signedAt .empty values := by
    apply congrArg (fun keep => List.foldl keep _ _)
    funext selected introset
    simp [EncryptedIntroSet.otherIsNewer]
  rw [serviceAddressReply, IntroHost.newestIntroSet, loop, repliesNewest_firstBest_iff]
  simp only [true_and]
  rfl

/-- A router whose contacts all verify, and that allows all sessions or none. -/
def lenient (allowed : Bool) : RouterHost where
  ourKey := .zero 32
  verify _ := true
  sessionIsAllowed _ _ := allowed
  hasPath _ _ := true

def exampleContact : RouterContact := ⟨⟨List.replicate 32 1, rfl⟩, 5, .zero 64⟩

/-- A contact that the policy refuses makes a recursive lookup reply with a default-constructed one;
a contact that it accepts is not in the reply for a path. -/
theorem default_replied_and_accepted_dropped :
    ((lenient false).newestFound 0 [exampleContact] = [.empty] ∧
      ¬RepliesNewest .empty ((lenient false).checkRC 0) (·.lastUpdated) [exampleContact]
        ((lenient false).newestFound 0 [exampleContact])) ∧
    (RouterHost.foundForPath [exampleContact] = [] ∧
      ¬RepliesNewest .empty ((lenient true).checkRC 0) (·.lastUpdated) [exampleContact]
        (RouterHost.foundForPath [exampleContact])) := by
  have replied : (lenient false).newestFound 0 [exampleContact] = [.empty] := by decide
  have dropped : RouterHost.foundForPath [exampleContact] = [] := by decide
  refine ⟨⟨replied, fun right => ?_⟩, dropped, fun right => ?_⟩
  · rw [replied] at right
    exact right.not_default (List.mem_singleton_self _)
  · obtain ⟨_, _, found, _⟩ := right.newest exampleContact (List.mem_singleton_self _) rfl
    rw [dropped] at found
    cases found

end Llarp.Dht

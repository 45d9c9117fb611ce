import Llarp.Foundation.SetDifference
import Llarp.Dht.IntroRelay

/-!
# Buckets

A bucket lists its nodes by their distance to the own key. `GetRandomNodeExcluding` takes the
difference with a set of keys, which is listed in the order of the keys themselves.
-/

namespace Llarp.Dht

open Foundation

/-- The keys of a bucket, in the order of `XorMetric`. Their number is a `size_t`. -/
structure Bucket where
  us : Key
  nodes : List Key
  sorted : nodes.Pairwise fun a b => xorMetric us a b = true
  size : nodes.length < 2 ^ 64

namespace Bucket

variable (b : Bucket) (exclude : Std.ExtTreeSet Key)

/-- What `std::set_difference` leaves of the bucket. -/
def candidates : List Key := setDifference b.nodes exclude.toList

def getRandomNodeExcluding (random : UInt64) : Option Key :=
  let candidates := b.candidates exclude
  if candidates.isEmpty then none else candidates[random.toNat % candidates.length]?

/-- A node outside of the set is chosen whenever there is one. -/
structure ChoosesOutside : Prop where
  fails_iff : ∀ random, b.getRandomNodeExcluding exclude random = none ↔
    ∀ node ∈ b.nodes, node ∈ exclude
  outside : ∀ random node, b.getRandomNodeExcluding exclude random = some node →
    node ∈ b.nodes ∧ node ∉ exclude

variable {b exclude}

theorem getRandomNodeExcluding_eq_none {random : UInt64} :
    b.getRandomNodeExcluding exclude random = none ↔ b.candidates exclude = [] := by
  rw [getRandomNodeExcluding]
  split_ifs with empty
  · exact iff_of_true rfl (List.isEmpty_iff.mp empty)
  · have some : b.candidates exclude ≠ [] := fun nil => empty (List.isEmpty_iff.mpr nil)
    refine iff_of_false (fun none => ?_) some
    have inside := Nat.mod_lt random.toNat (List.length_pos_iff.mpr some)
    exact absurd (List.getElem?_eq_none_iff.mp none) (not_le.mpr inside)

/-- Every candidate is chosen for some value of the random source. -/
theorem mem_candidates_iff {node : Key} : node ∈ b.candidates exclude ↔
    ∃ random, b.getRandomNodeExcluding exclude random = some node := by
  constructor
  · intro member
    obtain ⟨i, inside, rfl⟩ := List.getElem_of_mem member
    have few : (b.candidates exclude).length ≤ b.nodes.length :=
      (sublist_setDifference _ _).length_le
    have small : i < UInt64.size := inside.trans_le (few.trans b.size.le)
    refine ⟨UInt64.ofNat i, ?_⟩
    rw [getRandomNodeExcluding, if_neg (by simpa using List.ne_nil_of_mem member),
      UInt64.toNat_ofNat_of_lt' small, Nat.mod_eq_of_lt inside, List.getElem?_eq_getElem inside]
  · rintro ⟨random, chosen⟩
    rw [getRandomNodeExcluding] at chosen
    split_ifs at chosen
    exact List.mem_of_getElem? chosen

/-- The choice is right exactly if every excluded node is greater than all the nodes that are closer
to the own key. -/
theorem choosesOutside_iff (b : Bucket) (exclude : Std.ExtTreeSet Key) :
    b.ChoosesOutside exclude ↔
      b.nodes.Pairwise fun closer node => node ∈ exclude → compare closer node = .lt := by
  have ascending : exclude.toList.Pairwise fun a b => compare a b = .lt :=
    Std.ExtTreeSet.ordered_toList
  have outside : (∀ a ∈ b.candidates exclude, a ∉ exclude.toList) ↔ _ :=
    setDifference_outside_iff ascending
  simp only [Std.ExtTreeSet.mem_toList] at outside
  rw [← outside]
  constructor
  · intro right node member
    obtain ⟨random, chosen⟩ := mem_candidates_iff.mp member
    exact (right.outside random node chosen).2
  · intro apart
    have members : ∀ node, node ∈ b.candidates exclude ↔ node ∈ b.nodes ∧ node ∉ exclude := by
      intro node
      refine ⟨fun member => ⟨(sublist_setDifference _ _).subset member, apart node member⟩, ?_⟩
      rintro ⟨member, unlisted⟩
      refine (mem_setDifference ascending).mpr ⟨member, fun listed => ?_⟩
      exact absurd (Std.ExtTreeSet.mem_toList.mp listed) unlisted
    refine ⟨fun random => ?_, fun random node chosen => ?_⟩
    · rw [getRandomNodeExcluding_eq_none, List.eq_nil_iff_forall_not_mem]
      simp only [members, not_and, not_not]
    · exact (members node).mp (mem_candidates_iff.mpr ⟨random, chosen⟩)

/-- A bucket of the router with key 1, with this key and the key 0. -/
def twoNodes : Bucket := ⟨plainKey 1, [plainKey 1, plainKey 0], by decide, by decide⟩

/-- Both keys are excluded, and one of them is chosen. -/
theorem excluded_node_chosen :
    (∀ node ∈ twoNodes.nodes, node ∈ Std.ExtTreeSet.ofList [plainKey 0, plainKey 1]) ∧
      twoNodes.getRandomNodeExcluding (.ofList [plainKey 0, plainKey 1]) 0 = some (plainKey 0) := by
  decide +kernel

end Bucket

end Llarp.Dht

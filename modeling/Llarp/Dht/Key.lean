import Llarp.Crypto.Types
import Llarp.Foundation.Xor

/-!
# Keys of the hash table and their distance

The distance of two keys is their exclusive or. `XorMetric` compares distances from the front,
that is, as numbers.
-/

namespace Llarp.Dht

open Foundation

/-- A key of the hash table. -/
abbrev Key := AlignedBuffer 32

/-- Whether `left` is closer to `us` than `right` is. -/
def xorMetric (us left right : Key) : Bool := compare (us.xor left) (us.xor right) == .lt

/-- The distance of two keys, as a number. -/
def distance (a b : Key) : ℕ := (a.xor b).toNat

variable {location a b : Key}

theorem xorMetric_iff :
    xorMetric location a b = true ↔ distance location a < distance location b := by
  rw [xorMetric, beq_iff_eq, AlignedBuffer.compare_eq_lt_iff, distance, distance]

/-- Different keys have different distances. -/
theorem distance_injective (location : Key) : Function.Injective (distance location) := by
  intro a b same
  have equal : compare (a.xor location) (b.xor location) = .eq := by
    rw [distance, distance, AlignedBuffer.xor_comm, AlignedBuffer.xor_comm location b] at same
    cases order : compare (a.xor location) (b.xor location) with
    | lt => exact absurd (AlignedBuffer.compare_eq_lt_iff.mp order) (by omega)
    | eq => rfl
    | gt =>
      rw [Std.OrientedCmp.gt_iff_lt] at order
      exact absurd (AlignedBuffer.compare_eq_lt_iff.mp order) (by omega)
  exact AlignedBuffer.xor_left_injective location (Std.LawfulEqOrd.eq_of_compare equal)

theorem distance_self (a : Key) : distance a a = 0 := ofBigEndian_xorBytes_self a.bytes

/-- A key is closer to itself than any other key is. -/
theorem distance_pos (differ : a ≠ b) : 0 < distance a b := by
  rw [Nat.pos_iff_ne_zero, ← distance_self a]
  exact fun same => differ (distance_injective a same).symm

/-- The keys closest to a location, the closest one first. -/
def findManyClosestTo (entries : List Key) (location : Key) (numRouters : ℕ) : List Key :=
  (entries.insertionSort fun a b => xorMetric location b a = false).take numRouters

theorem xorMetric_eq_false_iff :
    xorMetric location b a = false ↔ distance location a ≤ distance location b := by
  rw [← Bool.not_eq_true, xorMetric_iff, not_lt]

theorem pairwise_insertionSort {α : Type*} (key : α → Key) (entries : List α) (location : Key) :
    (entries.insertionSort fun a b => xorMetric location (key b) (key a) = false).Pairwise
      fun a b => distance location (key a) ≤ distance location (key b) := by
  have total : Std.Total fun a b => xorMetric location (key b) (key a) = false := by
    refine ⟨fun a b => ?_⟩
    rw [xorMetric_eq_false_iff, xorMetric_eq_false_iff]
    exact le_total ..
  have trans : IsTrans α fun a b => xorMetric location (key b) (key a) = false := by
    refine ⟨fun a b c => ?_⟩
    simp only [xorMetric_eq_false_iff]
    exact le_trans
  exact (List.pairwise_insertionSort ..).imp xorMetric_eq_false_iff.mp

/-- The order in which the database lists its routers does not matter. -/
theorem findManyClosestTo_perm {entries entries' : List Key} (same : entries.Perm entries')
    (location : Key) (numRouters : ℕ) :
    findManyClosestTo entries location numRouters =
      findManyClosestTo entries' location numRouters := by
  rw [findManyClosestTo, findManyClosestTo]
  congr 1
  refine List.Perm.eq_of_pairwise (fun a b _ _ le ge => ?_) (pairwise_insertionSort id ..)
    (pairwise_insertionSort id ..) ?_
  · exact distance_injective location (Nat.le_antisymm le ge)
  · exact ((List.perm_insertionSort _ _).trans same).trans (List.perm_insertionSort _ _).symm

theorem length_findManyClosestTo (entries : List Key) (location : Key) (numRouters : ℕ) :
    (findManyClosestTo entries location numRouters).length = min numRouters entries.length := by
  simp [findManyClosestTo]

theorem mem_of_mem_findManyClosestTo {entries : List Key} {numRouters : ℕ}
    (member : a ∈ findManyClosestTo entries location numRouters) : a ∈ entries :=
  (List.mem_insertionSort _).mp (List.mem_of_mem_take member)

end Llarp.Dht

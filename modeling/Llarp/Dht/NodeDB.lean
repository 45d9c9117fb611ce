import Llarp.Contact.RouterContact
import Llarp.Dht.Key

/-!
# The closest routers of the node database

The database is a hash map, so its contacts have different keys and come in any order. One search
visits them all and keeps the closest one so far, where the zero key stands for none; the other one
sorts them partially.
-/

namespace Llarp.Contact

open Dht

/-- The entries of the database, in the order in which the hash map has them. -/
structure NodeDB where
  entries : List RouterContact
  nodup : (entries.map RouterContact.pubkey).Nodup

namespace NodeDB

variable (location : Key)

def visit (rc otherRC : RouterContact) : RouterContact :=
  if rc.pubkey.isZero then otherRC
  else if xorMetric location otherRC.pubkey rc.pubkey then otherRC
  else rc

def findClosestTo (db : NodeDB) (defaultID : NetID) : RouterContact :=
  db.entries.foldl (visit location) (.fresh defaultID)

def findManyClosestTo (db : NodeDB) (numRouters : ℕ) : List RouterContact :=
  (db.entries.insertionSort fun a b => xorMetric location b.pubkey a.pubkey = false).take numRouters

variable {location} {db : NodeDB} {entries : List RouterContact}

theorem eq_of_distance_eq {a b : RouterContact} (left : a ∈ db.entries) (right : b ∈ db.entries)
    (same : distance location a.pubkey = distance location b.pubkey) : a = b :=
  List.inj_on_of_nodup_map db.nodup left right (distance_injective location same)

/-- The loop keeps the first of the closest contacts. -/
theorem foldl_visit (nonzero : ∀ rc ∈ entries, rc.pubkey.isZero = false) (defaultID : NetID) :
    entries.foldl (visit location) (.fresh defaultID) =
      (entries.argmin fun rc => distance location rc.pubkey).getD (.fresh defaultID) := by
  induction entries using List.reverseRecOn with
  | nil => rfl
  | append_singleton front last ih =>
    rw [List.forall_mem_append] at nonzero
    rw [List.foldl_concat, ih nonzero.1, List.argmin_concat]
    cases least : front.argmin fun rc => distance location rc.pubkey with
    | none => exact if_pos rfl
    | some rc =>
      have real := nonzero.1 rc (List.argmin_mem least)
      rw [Option.getD_some, visit, real, if_neg Bool.false_ne_true]
      simp only [xorMetric_iff]
      split <;> rfl

/-- The entries in the order of their distance, of which the second search takes the first ones. -/
theorem exists_sorted (db : NodeDB) (location : Key) : ∃ sorted : List RouterContact,
    sorted.Perm db.entries ∧
    (sorted.Pairwise fun a b => distance location a.pubkey < distance location b.pubkey) ∧
    ∀ n, db.findManyClosestTo location n = sorted.take n := by
  have perm := List.perm_insertionSort
    (fun a b : RouterContact => xorMetric location b.pubkey a.pubkey = false) db.entries
  refine ⟨_, perm, ?_, fun n => rfl⟩
  have distinct := perm.nodup_iff.mpr db.nodup.of_map
  refine ((pairwise_insertionSort _ db.entries location).and distinct).imp_of_mem ?_
  intro a b left right ⟨le, differ⟩
  refine lt_of_le_of_ne le fun same => differ ?_
  exact eq_of_distance_eq (perm.mem_iff.mp left) (perm.mem_iff.mp right) same

theorem findClosestTo_eq (nonzero : ∀ rc ∈ db.entries, rc.pubkey.isZero = false)
    (location : Key) (defaultID : NetID) :
    db.findClosestTo location defaultID =
      (db.findManyClosestTo location 1).headD (.fresh defaultID) := by
  obtain ⟨sorted, perm, increasing, found⟩ := exists_sorted db location
  rw [found, findClosestTo, foldl_visit nonzero]
  cases sorted with
  | nil => rw [← perm.nil_eq]; rfl
  | cons first rest =>
    cases least : db.entries.argmin fun rc => distance location rc.pubkey with
    | none => cases (List.argmin_eq_none.mp least ▸ perm).eq_nil
    | some rc =>
      have below := List.le_of_mem_argmin (perm.subset List.mem_cons_self) least
      rcases List.mem_cons.mp (perm.mem_iff.mpr (List.argmin_mem least)) with same | behind
      · exact same
      · exact absurd ((List.pairwise_cons.mp increasing).1 rc behind) below.not_gt

/-- Contacts of the database in the order of their distance, such that all others are farther away. -/
structure AreClosest (db : NodeDB) (location : Key) (n : ℕ) (closest : List RouterContact) : Prop where
  length_eq : closest.length = min n db.entries.length
  subset : closest ⊆ db.entries
  increasing : closest.Pairwise fun a b => distance location a.pubkey < distance location b.pubkey
  nearer : ∀ a ∈ closest, ∀ b ∈ db.entries, b ∉ closest →
    distance location a.pubkey < distance location b.pubkey

/-- The searches agree on the closest contacts, in whatever order the database has them. -/
theorem searches_agree (db : NodeDB) (nonzero : ∀ rc ∈ db.entries, rc.pubkey.isZero = false)
    (location : Key) (n : ℕ) (defaultID : NetID) :
    db.AreClosest location n (db.findManyClosestTo location n) ∧
    (∀ m, n ≤ m → db.findManyClosestTo location n <+: db.findManyClosestTo location m) ∧
    (db.entries ≠ [] → (db.findManyClosestTo location 1)[0]? =
      some (db.findClosestTo location defaultID)) ∧
    ∀ db' : NodeDB, db'.entries.Perm db.entries →
      db'.findManyClosestTo location n = db.findManyClosestTo location n ∧
      db'.findClosestTo location defaultID = db.findClosestTo location defaultID := by
  obtain ⟨sorted, perm, increasing, found⟩ := exists_sorted db location
  refine ⟨⟨?_, ?_, ?_, ?_⟩, ?_, ?_, ?_⟩
  · rw [found, List.length_take, perm.length_eq]
  · rw [found]
    exact List.Subset.trans (List.take_subset n sorted) perm.subset
  · rw [found]
    exact increasing.take
  · intro a near b listed far
    rw [found] at near far
    rw [← List.take_append_drop n sorted] at increasing perm
    have behind := (List.mem_append.mp (perm.mem_iff.mpr listed)).resolve_left far
    exact (List.pairwise_append.mp increasing).2.2 a near b behind
  · intro m le
    rw [found, found]
    exact List.take_prefix_take_left le
  · intro nonempty
    rw [findClosestTo_eq nonzero, found]
    cases sorted with
    | nil => exact absurd perm.nil_eq.symm nonempty
    | cons first rest => rfl
  · intro db' same
    obtain ⟨sorted', perm', increasing', found'⟩ := exists_sorted db' location
    obtain rfl : sorted' = sorted := by
      refine ((perm'.trans same).trans perm.symm).eq_of_pairwise ?_ increasing' increasing
      exact fun a b _ _ lt gt => absurd lt gt.not_gt
    refine ⟨by rw [found, found'], ?_⟩
    rw [findClosestTo_eq nonzero, findClosestTo_eq fun rc listed => nonzero rc (same.subset listed),
      found, found']

/-- The contact of a router with a plain key. -/
def plainContact (byte : UInt8) : RouterContact :=
  { RouterContact.fresh (.zero 8) with pubkey := .copy 32 [byte] }

theorem searches_agree_of_two :
    (⟨[plainContact 1, plainContact 2], by decide⟩ : NodeDB).AreClosest (.copy 32 [3]) 1
      [plainContact 2] :=
  (searches_agree _ (by decide) _ 1 (.zero 8)).1

end NodeDB

end Llarp.Contact

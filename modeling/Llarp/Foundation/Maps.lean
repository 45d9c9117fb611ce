import Mathlib

/-!
# Finite maps

Lookups in changed maps, with keys compared by equality. The lemmas of the
library compare keys by the ordering of the map.
-/

namespace Foundation

variable {κ β : Type*} [Ord κ] [Std.TransOrd κ] [Std.LawfulEqOrd κ] [DecidableEq κ]
  {map : Std.ExtTreeMap κ β} {key k : κ} {value : β}

theorem getElem?_insert : (map.insert key value)[k]? = if key = k then some value else map[k]? := by
  rw [Std.ExtTreeMap.getElem?_insert]
  exact if_congr Std.LawfulEqOrd.compare_eq_iff_eq rfl rfl

theorem getElem?_erase : (map.erase key)[k]? = if key = k then none else map[k]? := by
  rw [Std.ExtTreeMap.getElem?_erase]
  exact if_congr Std.LawfulEqOrd.compare_eq_iff_eq rfl rfl

theorem getElem?_alter {f : Option β → Option β} :
    (map.alter key f)[k]? = if k = key then f map[key]? else map[k]? := by
  rw [Std.ExtTreeMap.getElem?_alter]
  refine if_congr ?_ rfl rfl
  rw [Std.LawfulEqOrd.compare_eq_iff_eq, eq_comm]

/-- An entry of a map after an insertion is the inserted one or an old one. -/
theorem getElem?_insert_eq_some {v : β} :
    (map.insert key value)[k]? = some v ↔
      (k = key ∧ v = value) ∨ (k ≠ key ∧ map[k]? = some v) := by
  rw [getElem?_insert]
  by_cases same : key = k
  · subst same
    simp [eq_comm]
  · simp [same, Ne.symm same, eq_comm]

theorem getElem?_erase_eq_some {v : β} :
    (map.erase key)[k]? = some v ↔ k ≠ key ∧ map[k]? = some v := by
  rw [getElem?_erase]
  by_cases same : key = k
  · simp [same]
  · simp [same, Ne.symm same]

omit [Std.LawfulEqOrd κ] [DecidableEq κ] in
theorem mem_iff_exists_getElem? : key ∈ map ↔ ∃ value, map[key]? = some value := by
  rw [Std.ExtTreeMap.mem_iff_isSome_getElem?, Option.isSome_iff_exists]

omit [Std.LawfulEqOrd κ] [DecidableEq κ] in
theorem not_mem_iff_getElem? : key ∉ map ↔ map[key]? = none := by
  rw [Std.ExtTreeMap.mem_iff_isSome_getElem?, Option.not_isSome_iff_eq_none]

omit [Std.LawfulEqOrd κ] [DecidableEq κ] in
theorem getElem?_of_filter {f : κ → β → Bool} (found : (map.filter f)[k]? = some value) :
    map[k]? = some value := by
  rw [Std.ExtTreeMap.getElem?_filter] at found
  exact (Option.pfilter_eq_some_iff.mp found).1

/-- Look up all the keys with an operator that creates missing entries. -/
def touchAll (map : Std.ExtTreeMap κ β) (created : β) (keys : List κ) : Std.ExtTreeMap κ β :=
  keys.foldl (fun map key => map.insertIfNew key created) map

theorem getElem?_insertIfNew :
    (map.insertIfNew key value)[k]? =
      if key = k then some (map[k]?.getD value) else map[k]? := by
  rw [Std.ExtTreeMap.getElem?_insertIfNew]
  by_cases same : key = k
  · subst same
    by_cases known : key ∈ map
    · simp [known]
    · simp [known]
  · simp [same]

theorem getElem?_touchAll {created : β} {keys : List κ} :
    (touchAll map created keys)[k]? =
      if k ∈ keys then some (map[k]?.getD created) else map[k]? := by
  induction keys generalizing map with
  | nil => simp [touchAll]
  | cons key keys ih =>
    rw [touchAll, List.foldl_cons, ← touchAll, ih, getElem?_insertIfNew]
    by_cases same : key = k
    · subst same
      simp
    · simp [same, Ne.symm same]

theorem insertIfNew_eq_self {old : β} (found : map[key]? = some old) :
    map.insertIfNew key value = map := by
  ext1 k
  rw [getElem?_insertIfNew]
  split_ifs with here
  · rw [← here, found, Option.getD_some]
  · rfl

theorem insertIfNew_eq_insert (absent : map[key]? = none) :
    map.insertIfNew key value = map.insert key value := by
  ext1 k
  rw [getElem?_insertIfNew, getElem?_insert]
  split_ifs with here
  · rw [← here, absent, Option.getD_none]
  · rfl

/-! ### What the entries of a map hold -/

omit [DecidableEq κ] in
theorem nodup_toList : map.toList.Nodup := by
  refine Std.ExtTreeMap.distinct_keys_toList.imp fun differ equal => differ ?_
  rw [equal]
  exact Std.ReflCmp.compare_self

/-- What `f` finds in the entries of a map. -/
def collect {γ : Type*} (f : β → Option γ) (map : Std.ExtTreeMap κ β) : List γ :=
  map.toList.filterMap fun entry => f entry.2

variable {γ : Type*} {f : β → Option γ}

/-- The entries of a map are one entry and those of the rest. -/
theorem toList_perm_cons_erase (found : map[key]? = some value) :
    map.toList.Perm ((key, value) :: (map.erase key).toList) := by
  have fresh : (key, value) ∉ (map.erase key).toList := by
    rw [Std.ExtTreeMap.mem_toList_iff_getElem?_eq_some, getElem?_erase_eq_some]
    exact fun stored => stored.1 rfl
  rw [List.perm_ext_iff_of_nodup nodup_toList (List.nodup_cons.mpr ⟨fresh, nodup_toList⟩)]
  rintro ⟨k, v⟩
  simp only [List.mem_cons, Prod.mk.injEq, Std.ExtTreeMap.mem_toList_iff_getElem?_eq_some,
    getElem?_erase_eq_some]
  by_cases same : k = key
  · simp [same, found, eq_comm]
  · simp [same]

/-- An entry and the rest of the map. -/
theorem collect_erase (found : map[key]? = some value) :
    (collect f map).Perm ((f value).toList ++ collect f (map.erase key)) := by
  refine ((toList_perm_cons_erase found).filterMap _).trans (List.Perm.of_eq ?_)
  rw [List.filterMap_cons, collect]
  cases f value with
  | none => rfl
  | some c => rfl

theorem erase_of_getElem? (absent : map[key]? = none) : map.erase key = map := by
  ext1 k
  rw [getElem?_erase]
  split_ifs with same
  · rw [← same, absent]
  · rfl

theorem erase_insert : (map.insert key value).erase key = map.erase key := by
  ext1 k
  rw [getElem?_erase, getElem?_erase, getElem?_insert]
  split_ifs <;> rfl

theorem collect_insert :
    (collect f (map.insert key value)).Perm ((f value).toList ++ collect f (map.erase key)) := by
  have stored : (map.insert key value)[key]? = some value := by rw [getElem?_insert, if_pos rfl]
  have rest : (map.insert key value).erase key = map.erase key := erase_insert
  rw [← rest]
  exact collect_erase stored

/-- Replacing a value by one that holds the same. -/
theorem collect_insert_of_eq {old : β} (found : map[key]? = some old) (same : f value = f old) :
    (collect f (map.insert key value)).Perm (collect f map) := by
  refine collect_insert.trans ?_
  rw [same]
  exact (collect_erase found).symm

theorem collect_insert_of_getElem? (absent : map[key]? = none) :
    (collect f (map.insert key value)).Perm ((f value).toList ++ collect f map) := by
  have inserted : (collect f (map.insert key value)).Perm _ := collect_insert
  rwa [erase_of_getElem? absent] at inserted

/-- A new entry that holds nothing. -/
theorem collect_insertIfNew_of_none (nothing : f value = none) :
    (collect f (map.insertIfNew key value)).Perm (collect f map) := by
  cases found : map[key]? with
  | some old => rw [insertIfNew_eq_self found]
  | none =>
    rw [insertIfNew_eq_insert found]
    refine (collect_insert_of_getElem? found).trans (List.Perm.of_eq ?_)
    rw [nothing]
    rfl

theorem collect_touchAll {created : β} (nothing : f created = none) (keys : List κ) :
    (collect f (touchAll map created keys)).Perm (collect f map) := by
  induction keys generalizing map with
  | nil => exact .refl _
  | cons key keys ih => exact ih.trans (collect_insertIfNew_of_none nothing)

/-- A property of the value under a key, if there is one, can be evaluated. -/
instance decidableForallEqSome {α : Type*} {p : α → Prop} [DecidablePred p] :
    ∀ o : Option α, Decidable (∀ a, o = some a → p a)
  | none => isTrue nofun
  | some a => decidable_of_iff (p a) ⟨fun h _ same => Option.some.inj same ▸ h, fun h => h a rfl⟩

instance decidableExistsEqSome {α : Type*} {p : α → Prop} [DecidablePred p] :
    ∀ o : Option α, Decidable (∃ a, o = some a ∧ p a)
  | none => isFalse fun ⟨_, h, _⟩ => nomatch h
  | some a => decidable_of_iff (p a) ⟨fun h => ⟨a, rfl, h⟩, fun ⟨_, same, h⟩ => Option.some.inj same ▸ h⟩

omit [DecidableEq κ] in
/-- A property of the entries of a map can be evaluated. -/
instance decidableForallGetElem? {p : κ → β → Prop} [∀ k v, Decidable (p k v)]
    (map : Std.ExtTreeMap κ β) : Decidable (∀ k v, map[k]? = some v → p k v) :=
  decidable_of_iff (∀ entry ∈ map.toList, p entry.1 entry.2)
    ⟨fun all k v found => all (k, v) (Std.ExtTreeMap.mem_toList_iff_getElem?_eq_some.mpr found),
      fun all _ member => all _ _ (Std.ExtTreeMap.mem_toList_iff_getElem?_eq_some.mp member)⟩

end Foundation

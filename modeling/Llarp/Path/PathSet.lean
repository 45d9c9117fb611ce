import Llarp.Path.Lifecycle
import Llarp.Dht.Near

/-!
# Sets of paths

A set owns its paths and chooses among those that are ready. For each router where a path ends it
keeps a weak pointer to one of them, which is set anew at a tick and taken as it is until the next
one. The test for roles lets every path pass.
-/

namespace Llarp

open Foundation List Option

/-- A path with the number of its object, which is its address. -/
abbrev PathPtr := ℕ × PathState

/-- A set of paths. All paths that were added to it have a number; the entry of one that was freed is
`none`. -/
structure PathSet where
  objects : List (Option PathState) := []
  paths : List ((RouterID × PathID) × ℕ) := []
  pathCache : Std.ExtTreeMap RouterID ℕ := ∅
  now : ℕ := 0

/-- What happens to a set of paths and to the paths in it. The container of the paths may list them
in any order, and a path is freed some time after it is removed. -/
inductive PathSetEvent where
  | addPath (path : PathState)
  | path (id : ℕ) (event : PathEvent)
  | tick
  | expirePaths
  | reorder (paths : List ((RouterID × PathID) × ℕ))
  | free (id : ℕ)
  | advance (ms : ℕ)

namespace PathSet

variable (s : PathSet) (id : RouterID) (roles : PathRole)

def lock (id : ℕ) : Option PathState := s.objects[id]?.join

/-- The paths of the set, in the order of the loops. -/
def members : List PathPtr := s.paths.filterMap fun item => (s.lock item.2).map (item.2, ·)

/-- The paths that the selectors consider. -/
def candidates : List PathPtr :=
  s.members.filter fun item => item.2.isReady s.now && item.2.supportsAnyRoles roles

def candidatesTo : List PathPtr := (s.candidates roles).filter (·.2.endpoint = id)

/-- A loop that keeps the first path, and then each one that replaces the one it has. -/
def choose (replaces : PathState → PathState → Bool) (l : List PathPtr) : Option PathPtr :=
  l.foldl (fun chosen item =>
    match chosen with
    | none => some item
    | some old => if replaces item.2 old.2 then some item else some old) none

/-! ### The selectors -/

def getEstablishedPathClosestTo (excluding : List RouterID) : Option PathPtr :=
  ((s.candidates roles).foldl (fun (path, dist) item =>
    if item.2.endpoint ∈ excluding then (path, dist)
    else if compare (item.2.endpoint.xor id) dist = .lt then (some item, item.2.endpoint.xor id)
    else (path, dist)) (none, Dht.maxdist)).1

def getNewestPathByRouter : Option PathPtr :=
  choose (fun new old => old.expiresAt < new.expiresAt) (s.candidatesTo id roles)

/-- The loop of `GetPathByRouter`. -/
def searchPathByRouter : Option PathPtr :=
  choose (fun new old => old.latency ≠ 0 && new.latency < old.latency) (s.candidatesTo id roles)

def getPathByRouter : Option PathPtr :=
  match if roles = .any then s.pathCache[id]? else none with
  | some cached => (s.lock cached).map (cached, ·)
  | none => s.searchPathByRouter id roles

def getRandomPathByRouter (rand : ℕ) : Option PathPtr :=
  let chosen := s.candidatesTo id roles
  chosen[if 2 ≤ chosen.length then rand % chosen.length else 0]?

def pickRandomEstablishedPath (randint : ℕ) : Option PathPtr :=
  let established := s.candidates roles
  established[randint % established.length]?

def pickEstablishedPath : Option PathPtr :=
  ((s.candidates roles).foldl (fun (chosen, minLatency) item =>
    if item.2.latency < minLatency ∧ item.2.latency ≠ 0 then (some item, item.2.latency)
    else (chosen, minLatency)) (none, 30000)).1

variable {s id roles} {item : PathPtr}

theorem mem_candidates :
    item ∈ s.candidates roles ↔ item ∈ s.members ∧ item.2.isReady s.now = true := by
  rw [candidates, mem_filter, PathState.supportsAnyRoles_eq_true, Bool.and_true]

theorem mem_candidates_of_candidatesTo (member : item ∈ s.candidatesTo id roles) :
    item ∈ s.candidates roles := mem_of_mem_filter member

/-- A loop that keeps what it has or takes what it looks at finds something of the list. -/
theorem mem_of_foldl {β : Type} {f : β → PathPtr → β} {g : β → Option PathPtr} {init : β}
    (start : g init = none)
    (steps : ∀ best item, g (f best item) = g best ∨ g (f best item) = some item)
    {l : List PathPtr} (found : g (l.foldl f init) = some item) : item ∈ l := by
  induction l using reverseRecOn with
  | nil => cases start.symm.trans found
  | append_singleton l last ih =>
    rw [foldl_concat] at found
    rw [mem_append, mem_singleton]
    rcases steps (l.foldl f init) last with same | new
    · exact .inl (ih (same.symm.trans found))
    · exact .inr (some.inj (found.symm.trans new))

theorem mem_of_choose {replaces : PathState → PathState → Bool} {l : List PathPtr}
    (chosen : choose replaces l = some item) : item ∈ l := by
  refine mem_of_foldl (g := id) rfl (fun best item => ?_) chosen
  cases best with
  | none => exact .inr rfl
  | some old =>
    dsimp only
    split_ifs
    · exact .inr rfl
    · exact .inl rfl

theorem isSome_choose {replaces : PathState → PathState → Bool} {l : List PathPtr} :
    (choose replaces l).isSome ↔ ∃ item, item ∈ l := by
  constructor
  · intro found
    obtain ⟨item, chosen⟩ := isSome_iff_exists.mp found
    exact ⟨item, mem_of_choose chosen⟩
  · rintro ⟨item, member⟩
    cases l using reverseRecOn with
    | nil => cases member
    | append_singleton l last =>
      rw [choose, foldl_concat]
      split
      · rfl
      · split_ifs <;> rfl

/-! ### The roles of what is chosen -/

/-- What the selectors return has one of the roles asked for. -/
def SelectsRoles (s : PathSet) (roles : PathRole) : Prop :=
  roles ≠ .any →
    (∀ id excluding, ∀ p ∈ s.getEstablishedPathClosestTo id roles excluding,
      p.2.role &&& roles ≠ 0) ∧
    (∀ id, ∀ p ∈ s.getNewestPathByRouter id roles, p.2.role &&& roles ≠ 0) ∧
    (∀ id rand, ∀ p ∈ s.getRandomPathByRouter id roles rand, p.2.role &&& roles ≠ 0) ∧
    (∀ randint, ∀ p ∈ s.pickRandomEstablishedPath roles randint, p.2.role &&& roles ≠ 0) ∧
    ∀ p ∈ s.pickEstablishedPath roles, p.2.role &&& roles ≠ 0

theorem mem_of_closestTo {excluding : List RouterID}
    (found : item ∈ s.getEstablishedPathClosestTo id roles excluding) :
    item ∈ s.candidates roles := by
  refine mem_of_foldl rfl (fun best item => ?_) found
  dsimp only
  split_ifs
  · exact .inl rfl
  · exact .inr rfl
  · exact .inl rfl

theorem mem_of_pickEstablishedPath (found : item ∈ s.pickEstablishedPath roles) :
    item ∈ s.candidates roles := by
  refine mem_of_foldl rfl (fun best item => ?_) found
  dsimp only
  split_ifs
  · exact .inr rfl
  · exact .inl rfl

/-- The selectors return paths with the roles asked for exactly if all paths that are ready have
one of them. -/
theorem selectsRoles_iff (s : PathSet) (roles : PathRole) :
    s.SelectsRoles roles ↔
      (roles ≠ .any → ∀ p ∈ s.members, p.2.isReady s.now = true → p.2.role &&& roles ≠ 0) := by
  refine forall_congr' fun _ => ⟨?_, fun all => ?_⟩
  · rintro ⟨-, -, -, random, -⟩ p member ready
    obtain ⟨index, inside, same⟩ := getElem_of_mem (mem_candidates.mpr ⟨member, ready⟩)
    refine random index p ?_
    rw [pickRandomEstablishedPath, Nat.mod_eq_of_lt inside, mem_def,
      getElem?_eq_getElem inside, same]
  · have right : ∀ p ∈ s.candidates roles, p.2.role &&& roles ≠ 0 := fun p member =>
      all p (mem_candidates.mp member).1 (mem_candidates.mp member).2
    refine ⟨fun id excluding p found => right p (mem_of_closestTo found), fun id p found => ?_,
      fun id rand p found => ?_, fun randint p found => right p (mem_of_getElem? found),
      fun p found => right p (mem_of_pickEstablishedPath found)⟩
    · exact right p (mem_candidates_of_candidatesTo (mem_of_choose found))
    · exact right p (mem_candidates_of_candidatesTo (mem_of_getElem? found))

/-- An established path for exits. -/
def exitPath : PathState where
  path := .shortPath
  lifetime := 1200000
  role := .exit
  status := .established
  buildStarted := 1
  latency := 5

/-- A path for exits is chosen where one to a service is asked for. -/
theorem exit_path_chosen_for_service :
    ¬SelectsRoles { objects := [some exitPath], paths := [((.zero 32, .zero 16), 0)] } .svc := by
  intro right
  exact (right (by decide)).2.2.2.1 0 (0, exitPath) rfl rfl

/-! ### The cache -/

variable (s) in
/-- The path is known by its first router and identifier there. -/
def addPath (path : PathState) : PathSet :=
  let key := (path.path.upstream, path.path.rxID)
  { s with
    objects := s.objects ++ [some path]
    paths := if s.paths.any (·.1 = key) then s.paths else (key, s.objects.length) :: s.paths }

variable (s) in
def tick : PathSet :=
  (s.members.map (·.2.endpoint)).dedup.foldl (fun t ep =>
    match t.getPathByRouter ep .any with
    | some path => { t with pathCache := t.pathCache.insert ep path.1 }
    | none => t) { s with pathCache := ∅ }

variable (s) in
def expirePaths : PathSet :=
  { s with paths := s.paths.filter fun item => !(s.lock item.2).any (·.expired s.now) }

variable (s) in
def step : PathSetEvent → PathSet
  | .addPath path => s.addPath path
  | .path id event => { s with objects := s.objects.modify id (·.map (·.step (s.now, event))) }
  | .tick => s.tick
  | .expirePaths => s.expirePaths
  | .reorder paths => if paths.isPerm s.paths then { s with paths } else s
  | .free id =>
    if s.paths.any (·.2 = id) then s else { s with objects := s.objects.set id none }
  | .advance ms => { s with now := s.now + ms }

/-- A path is found where the loop finds one, and it is ready and ends at the router. -/
def CacheRight (s : PathSet) : Prop :=
  ∀ id, ((s.getPathByRouter id .any).isSome ↔ (s.searchPathByRouter id .any).isSome) ∧
    ∀ p ∈ s.getPathByRouter id .any, p.2.isReady s.now = true ∧ p.2.endpoint = id

/-- Some path to the router is ready. -/
def Reaches (s : PathSet) (id : RouterID) : Prop :=
  ∃ p ∈ s.members, p.2.isReady s.now = true ∧ p.2.endpoint = id

/-- The cached paths end at their routers. -/
def Leads (s : PathSet) : Prop :=
  ∀ id cached, s.pathCache[id]? = some cached →
    cached < s.objects.length ∧ ∀ p ∈ s.lock cached, p.endpoint = id

theorem isSome_search : (s.searchPathByRouter id .any).isSome ↔ s.Reaches id := by
  simp only [searchPathByRouter, isSome_choose, candidatesTo, mem_filter, mem_candidates,
    decide_eq_true_eq, Reaches, and_assoc]

theorem lock_of_mem_members (member : item ∈ s.members) : s.lock item.1 = some item.2 := by
  obtain ⟨entry, -, found⟩ := mem_filterMap.mp member
  obtain ⟨p, locked, rfl⟩ := map_eq_some_iff.mp found
  exact locked

theorem lt_length_of_lock {n : ℕ} {p : PathState} (locked : s.lock n = some p) :
    n < s.objects.length := by
  obtain ⟨object, found, -⟩ := bind_eq_some_iff.mp locked
  exact (List.getElem?_eq_some_iff.mp found).1

/-- What the set does to its objects leaves the ends of the cached paths as they are. -/
theorem Leads.of_objects (leads : s.Leads) {t : PathSet} (sameCache : t.pathCache = s.pathCache)
    (longer : s.objects.length ≤ t.objects.length)
    (kept : ∀ n < s.objects.length, ∀ p ∈ t.lock n, ∃ q ∈ s.lock n, q.endpoint = p.endpoint) :
    t.Leads := by
  intro id cached entry
  rw [sameCache] at entry
  obtain ⟨inside, ends⟩ := leads id cached entry
  refine ⟨inside.trans_le longer, fun p locked => ?_⟩
  obtain ⟨q, before, same⟩ := kept cached inside p locked
  rw [← same]
  exact ends q before

/-- What is found exists and ends at the router. -/
theorem Leads.of_found (leads : s.Leads) (found : s.getPathByRouter id .any = some item) :
    s.lock item.1 = some item.2 ∧ item.2.endpoint = id := by
  rw [getPathByRouter] at found
  cases entry : s.pathCache[id]? with
  | none =>
    rw [entry] at found
    have member := mem_of_choose found
    refine ⟨lock_of_mem_members ?_, of_decide_eq_true (mem_filter.mp member).2⟩
    exact (mem_candidates.mp (mem_candidates_of_candidatesTo member)).1
  | some cached =>
    rw [entry] at found
    obtain ⟨p, locked, rfl⟩ := map_eq_some_iff.mp found
    exact ⟨locked, (leads id cached entry).2 p locked⟩

theorem Leads.insert (leads : s.Leads) (locked : s.lock item.1 = some item.2) :
    Leads { s with pathCache := s.pathCache.insert item.2.endpoint item.1 } := by
  intro id cached entry
  rcases getElem?_insert_eq_some.mp entry with ⟨rfl, rfl⟩ | ⟨-, old⟩
  · refine ⟨lt_length_of_lock locked, fun p same => ?_⟩
    rw [some.inj (locked.symm.trans same)]
  · exact leads id cached old

theorem leads_tick (s : PathSet) : s.tick.Leads := by
  refine foldlRecOn _ _ ?_ fun t leads ep _ => ?_
  · intro id cached entry
    exact absurd entry (by simp)
  · cases found : t.getPathByRouter ep .any with
    | none => exact leads
    | some item =>
      obtain ⟨locked, rfl⟩ := leads.of_found found
      exact leads.insert locked

theorem Leads.step (leads : s.Leads) (e : PathSetEvent) : (s.step e).Leads := by
  cases e with
  | addPath path =>
    refine leads.of_objects rfl (by simp [PathSet.step, addPath]) fun n inside p locked => ?_
    refine ⟨p, ?_, rfl⟩
    rwa [PathSet.step, addPath, lock, getElem?_append_left inside] at locked
  | path id event =>
    refine leads.of_objects rfl (by simp [PathSet.step]) fun n inside p locked => ?_
    rw [PathSet.step, lock, getElem?_modify, getElem?_eq_getElem inside] at locked
    rw [lock, getElem?_eq_getElem inside]
    by_cases this : id = n
    · obtain ⟨q, before, rfl⟩ := map_eq_some_iff.mp (by simpa [this] using locked)
      exact ⟨q, before, by rw [PathState.endpoint, PathState.endpoint, PathState.path_step]⟩
    · exact ⟨p, by simpa [this] using locked, rfl⟩
  | tick => exact leads_tick s
  | expirePaths => exact leads
  | reorder paths =>
    rw [PathSet.step]
    split_ifs <;> exact leads
  | free id =>
    rw [PathSet.step]
    split_ifs
    · exact leads
    · refine leads.of_objects rfl (by simp) fun n inside p locked => ⟨p, ?_, rfl⟩
      rw [lock, getElem?_set] at locked
      split_ifs at locked
      · cases locked
      · cases locked
      · exact locked
  | advance ms => exact leads

/-- Every cached path that still exists is ready, and so is some path of the set to its router; to
the router of one that does not, no path is ready. -/
def Fresh (s : PathSet) : Prop :=
  ∀ id cached, s.pathCache[id]? = some cached →
    (∀ p ∈ s.lock cached, p.isReady s.now = true ∧ s.Reaches id) ∧
      (s.lock cached = none → ¬s.Reaches id)

/-- After any events, the path by router is right exactly if the cache is fresh. -/
theorem cacheRight_iff (events : List PathSetEvent) :
    (events.foldl step {}).CacheRight ↔ (events.foldl step {}).Fresh := by
  have leads : (events.foldl step {}).Leads := by
    refine foldlRecOn events _ ?_ fun s leads e _ => leads.step e
    intro id cached entry
    exact absurd entry (by simp)
  generalize events.foldl step {} = s at leads
  refine forall_congr' fun id => ?_
  have ends : ∀ p ∈ s.getPathByRouter id .any, p.2.endpoint = id := fun p found =>
    (leads.of_found found).2
  cases entry : s.pathCache[id]? with
  | none =>
    have searched : s.getPathByRouter id .any = s.searchPathByRouter id .any := by
      rw [getPathByRouter, if_pos rfl, entry]
    refine iff_of_true ⟨by rw [searched], fun p found => ⟨?_, ends p found⟩⟩ nofun
    rw [searched] at found
    exact (mem_candidates.mp (mem_candidates_of_candidatesTo (mem_of_choose found))).2
  | some cached =>
    have looked : s.getPathByRouter id .any = (s.lock cached).map (cached, ·) := by
      rw [getPathByRouter, if_pos rfl, entry]
    rw [isSome_search]
    rw [looked] at ends ⊢
    cases locked : s.lock cached with
    | none => simp [locked]
    | some p =>
      rw [locked] at ends
      have same := ends (cached, p) rfl
      simp [locked, same, and_comm]

/-- After any events, what is found for a router is a path that exists and ends there, cached or not. -/
theorem found_path_ends (events : List PathSetEvent) (id : RouterID) :
    ∀ item ∈ (events.foldl step {}).getPathByRouter id .any,
      (events.foldl step {}).lock item.1 = some item.2 ∧ item.2.endpoint = id := by
  have leads : (events.foldl step {}).Leads := by
    refine foldlRecOn events _ ?_ fun s leads e _ => leads.step e
    intro id cached entry
    exact absurd entry (by simp)
  exact fun item found => leads.of_found found

theorem found_path_ends_exitPath : ((step {} (.addPath exitPath)).step .tick).lock 0 = some exitPath :=
  (found_path_ends [.addPath exitPath, .tick] exitPath.endpoint (0, exitPath) (by decide +kernel)).1

/-- The cached path fails, and is found until the next tick. -/
theorem failed_path_found :
    ¬CacheRight ([.addPath exitPath, .tick, .path 0 .notSent].foldl step {}) := by
  intro right
  have found : (0, exitPath.step (0, .notSent)) ∈
      ([.addPath exitPath, .tick, .path 0 .notSent].foldl step {}).getPathByRouter
        exitPath.endpoint .any := by decide +kernel
  cases ((right _).2 _ found).1

end PathSet

end Llarp

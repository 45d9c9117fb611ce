import Llarp.Dht.Bucket

/-!
# Nodes near a target

The closest nodes of a bucket are found one after the other, each by a search for the least distance
that starts with the greatest one. A node at the greatest distance is not less than that, and is not
found. A router that explores the network is told of the closest nodes, as many as there are in the
bucket, with those that are excluded.
-/

namespace Llarp.Dht

open Foundation List

/-- The greatest distance. -/
def maxdist : Key := ⟨List.replicate 32 0xFF, rfl⟩

theorem distance_le_maxdist (a b : Key) : distance a b ≤ maxdist.toNat := by
  have most : maxdist.toNat = 256 ^ 32 - 1 := by decide +kernel
  have bound := ofBigEndian_lt (a.xor b).bytes
  rw [(a.xor b).length_eq] at bound
  rw [most, distance, AlignedBuffer.toNat]
  omega

/-- There is one key at the greatest distance. -/
theorem maxdist_le_iff {target a : Key} :
    maxdist.toNat ≤ distance target a ↔ a = target.xor maxdist := by
  have most : distance target (target.xor maxdist) = maxdist.toNat := by
    rw [distance, AlignedBuffer.xor_comm, AlignedBuffer.xor_comm target, AlignedBuffer.xor_xor_cancel]
  constructor
  · intro far
    refine distance_injective target (le_antisymm ?_ (most.trans_le far))
    exact (distance_le_maxdist target a).trans most.ge
  · rintro rfl
    exact most.ge

/-- Some of the keys, such that all others are farther away. -/
structure IsNearest (target : Key) (all : List Key) (n : ℕ) (near : List Key) : Prop where
  nodup : near.Nodup
  length_eq : near.length = n
  subset : near ⊆ all
  closer : ∀ a ∈ near, ∀ b ∈ all, b ∉ near → distance target a < distance target b

namespace Bucket

variable (b : Bucket) (target : Key) (exclude : Std.ExtTreeSet Key)

/-- A node of the loop of `FindCloseExcluding`, with the least distance so far. -/
def closer (best : Key × Option Key) (node : Key) : Key × Option Key :=
  if node ∈ exclude then best
  else if compare (node.xor target) best.1 = .lt then (node.xor target, some node)
  else best

def findCloseExcluding : Option Key :=
  let best := b.nodes.foldl (closer target exclude) (maxdist, none)
  if compare best.1 maxdist = .lt then best.2 else none

/-- The loop of `GetManyNearExcluding`, with its growing set. -/
def getManyNearExcluding (result : Std.ExtTreeSet Key) : ℕ → Std.ExtTreeSet Key →
    Bool × Std.ExtTreeSet Key
  | 0, _ => (true, result)
  | n + 1, exclude =>
    match b.findCloseExcluding target exclude with
    | none => (false, result)
    | some peer => getManyNearExcluding (result.insert peer) n (exclude.insert peer)

/-- The nodes that are not excluded. -/
def others : List Key := b.nodes.filter (· ∉ exclude)

variable {b target exclude} {node : Key}

theorem mem_others : node ∈ b.others exclude ↔ node ∈ b.nodes ∧ node ∉ exclude := by
  simp [others]

theorem nodup_others : (b.others exclude).Nodup := by
  refine (b.sorted.imp fun closer same => ?_).filter _
  rw [same, xorMetric_iff] at closer
  exact lt_irrefl _ closer

variable (target exclude) in
/-- What one node does to the least distance. -/
theorem closer_cases (best : Key × Option Key) (node : Key) :
    closer target exclude best node = best ∧
        (node ∉ exclude → best.1.toNat ≤ distance target node) ∨
      closer target exclude best node = (target.xor node, some node) ∧ node ∉ exclude ∧
        distance target node < best.1.toNat := by
  unfold closer
  rw [AlignedBuffer.xor_comm]
  split_ifs with excluded less
  · exact .inl ⟨rfl, absurd excluded⟩
  · exact .inr ⟨rfl, excluded, AlignedBuffer.compare_eq_lt_iff.mp less⟩
  · exact .inl ⟨rfl, fun _ => not_lt.mp fun near => less (AlignedBuffer.compare_eq_lt_iff.mpr near)⟩

variable (target exclude) in
theorem foldl_closer (nodes : List Key) (best : Key × Option Key) :
    (∀ c ∈ nodes, c ∉ exclude →
        (nodes.foldl (closer target exclude) best).1.toNat ≤ distance target c) ∧
      (nodes.foldl (closer target exclude) best = best ∨ ∃ c ∈ nodes, c ∉ exclude ∧
        nodes.foldl (closer target exclude) best = (target.xor c, some c) ∧
        distance target c < best.1.toNat) := by
  induction nodes generalizing best with
  | nil => simp
  | cons node nodes ih =>
    obtain ⟨least, found⟩ := ih (closer target exclude best node)
    have less : (nodes.foldl (closer target exclude) (closer target exclude best node)).1.toNat ≤
        (closer target exclude best node).1.toNat := by
      rcases found with same | ⟨c, -, -, same, closer⟩
      · rw [same]
      · rw [same]
        exact closer.le
    rw [foldl_cons]
    rcases closer_cases target exclude best node with ⟨same, far⟩ | ⟨same, outside, near⟩
    · rw [same] at least found less ⊢
      refine ⟨forall_mem_cons.mpr ⟨fun outside => less.trans (far outside), least⟩, ?_⟩
      exact found.imp_right fun ⟨c, member, rest⟩ => ⟨c, mem_cons_of_mem _ member, rest⟩
    · rw [same] at least found less ⊢
      refine ⟨forall_mem_cons.mpr ⟨fun _ => less, least⟩, .inr ?_⟩
      rcases found with found | ⟨c, member, outside', found, nearer⟩
      · exact ⟨node, mem_cons_self, outside, found, near⟩
      · exact ⟨c, mem_cons_of_mem _ member, outside', found, nearer.trans near⟩

variable (b target exclude) in
/-- The search finds the nearest node, unless there is none or it is at the greatest distance. -/
theorem findCloseExcluding_cases :
    (b.findCloseExcluding target exclude = none ∧
        ∀ c ∈ b.others exclude, c = target.xor maxdist) ∨
      ∃ peer ∈ b.others exclude, b.findCloseExcluding target exclude = some peer ∧
        peer ≠ target.xor maxdist ∧
        ∀ c ∈ b.others exclude, distance target peer ≤ distance target c := by
  obtain ⟨least, found⟩ := foldl_closer target exclude b.nodes (maxdist, none)
  unfold findCloseExcluding
  rcases found with same | ⟨c, member, outside, same, near⟩
  · rw [same] at least ⊢
    refine .inl ⟨by simp, fun c member => maxdist_le_iff.mp ?_⟩
    exact least c (mem_others.mp member).1 (mem_others.mp member).2
  · rw [same] at least ⊢
    refine .inr ⟨c, mem_others.mpr ⟨member, outside⟩, ?_, ?_, fun c member => ?_⟩
    · exact if_pos (AlignedBuffer.compare_eq_lt_iff.mpr near)
    · exact fun far => absurd (maxdist_le_iff.mpr far) (not_le.mpr near)
    · exact least c (mem_others.mp member).1 (mem_others.mp member).2

theorem mem_others_insert {peer : Key} :
    node ∈ b.others (exclude.insert peer) ↔ node ∈ b.others exclude ∧ node ≠ peer := by
  rw [mem_others, mem_others, Std.ExtTreeSet.mem_insert, Std.LawfulEqOrd.compare_eq_iff_eq, not_or,
    and_comm (b := node ∉ exclude), and_assoc, eq_comm]

theorem length_others_insert {peer : Key} (member : peer ∈ b.others exclude) :
    (b.others (exclude.insert peer)).length + 1 = (b.others exclude).length := by
  have same : (b.others exclude).Perm (peer :: b.others (exclude.insert peer)) := by
    refine (perm_ext_iff_of_nodup nodup_others (nodup_cons.mpr ⟨?_, nodup_others⟩)).mpr ?_
    · simp [mem_others_insert]
    · intro node
      rw [mem_cons, mem_others_insert]
      by_cases here : node = peer
      · simp [here, member]
      · simp [here]
  rw [same.length_eq, length_cons]

/-- The loop succeeds unless there are too few nodes, or just enough with one at the greatest
distance. -/
theorem getManyNearExcluding_iff {result : Std.ExtTreeSet Key} {n : ℕ} :
    (b.getManyNearExcluding target result n exclude).1 = true ↔
      n ≤ (b.others exclude).length ∧
        ¬(n = (b.others exclude).length ∧ target.xor maxdist ∈ b.others exclude) := by
  induction n generalizing result exclude with
  | zero =>
    refine iff_of_true rfl ⟨Nat.zero_le _, fun ⟨empty, member⟩ => ?_⟩
    exact absurd (length_pos_of_mem member) (by omega)
  | succ n ih =>
    rw [getManyNearExcluding]
    rcases b.findCloseExcluding_cases target exclude with
      ⟨none, far⟩ | ⟨peer, member, found, other, -⟩
    · rw [none]
      refine iff_of_false nofun fun ⟨enough, more⟩ => more ?_
      obtain ⟨node, listed⟩ := exists_mem_of_length_pos (Nat.zero_lt_of_lt enough)
      have alone : (b.others exclude).length ≤ [target.xor maxdist].length :=
        (subperm_of_subset nodup_others fun c member => by simp [far c member]).length_le
      rw [length_singleton] at alone
      exact ⟨by omega, far node listed ▸ listed⟩
    · rw [found]
      rw [ih, mem_others_insert, ← length_others_insert member]
      simp [other.symm]

theorem exists_isNearest {result : Std.ExtTreeSet Key} {n : ℕ}
    (succeeds : (b.getManyNearExcluding target result n exclude).1 = true) :
    ∃ near, IsNearest target (b.others exclude) n near ∧
      ∀ k, k ∈ (b.getManyNearExcluding target result n exclude).2 ↔ k ∈ result ∨ k ∈ near := by
  induction n generalizing result exclude with
  | zero => exact ⟨[], ⟨nodup_nil, rfl, nofun, nofun⟩, by simp [getManyNearExcluding]⟩
  | succ n ih =>
    rw [getManyNearExcluding] at succeeds ⊢
    rcases b.findCloseExcluding_cases target exclude with
      ⟨none, -⟩ | ⟨peer, member, found, -, least⟩
    · rw [none] at succeeds
      cases succeeds
    · rw [found] at succeeds ⊢
      obtain ⟨near, nearest, added⟩ := ih succeeds
      have inside {k : Key} (listed : k ∈ near) := mem_others_insert.mp (nearest.subset listed)
      refine ⟨peer :: near, ⟨nodup_cons.mpr ⟨fun listed => (inside listed).2 rfl, nearest.nodup⟩,
        by rw [length_cons, nearest.length_eq], ?_, ?_⟩, fun k => ?_⟩
      · exact cons_subset.mpr ⟨member, fun k listed => (inside listed).1⟩
      · intro a listed c candidate outside
        obtain ⟨otherPeer, outside⟩ := not_or.mp (mem_cons.not.mp outside)
        rcases mem_cons.mp listed with rfl | listed
        · refine lt_of_le_of_ne (least c candidate) fun same => otherPeer ?_
          exact (distance_injective target same).symm
        · exact nearest.closer a listed c (mem_others_insert.mpr ⟨candidate, otherPeer⟩) outside
      · rw [added, Std.ExtTreeSet.mem_insert, Std.LawfulEqOrd.compare_eq_iff_eq, mem_cons,
          or_left_comm, or_assoc, eq_comm]

/-- `GetManyNearExcluding` succeeds if there are enough nodes, and adds the nearest ones then. -/
def AddsNearest (b : Bucket) (target : Key) (n : ℕ) (exclude : Std.ExtTreeSet Key) : Prop :=
  ∀ result, ((b.getManyNearExcluding target result n exclude).1 = true ↔
      n ≤ (b.others exclude).length) ∧
    ((b.getManyNearExcluding target result n exclude).1 = true →
      ∃ near, IsNearest target (b.others exclude) n near ∧
        ∀ k, k ∈ (b.getManyNearExcluding target result n exclude).2 ↔ k ∈ result ∨ k ∈ near)

/-- The search is right exactly if the number of nodes is not just enough with one of them at the
greatest distance. -/
theorem addsNearest_iff (b : Bucket) (target : Key) (n : ℕ) (exclude : Std.ExtTreeSet Key) :
    b.AddsNearest target n exclude ↔
      ¬(n = (b.others exclude).length ∧ target.xor maxdist ∈ b.others exclude) := by
  constructor
  · intro right far
    have succeeds := (right ∅).1.mpr far.1.le
    exact (getManyNearExcluding_iff.mp succeeds).2 far
  · intro near result
    refine ⟨?_, exists_isNearest⟩
    rw [getManyNearExcluding_iff]
    exact and_iff_left near

/-- The only node is at the greatest distance, and is not found. -/
theorem farthest_node_not_found :
    ¬(⟨plainKey 0, [maxdist], by decide, by decide⟩ : Bucket).AddsNearest (plainKey 0) 1 ∅ := by
  intro right
  have succeeds := (right ∅).1.mpr (by decide +kernel)
  exact absurd succeeds (by decide +kernel)

end Bucket

/-- `Context::HandleExploritoryRouterLookup`: the routers that the reply has. -/
def handleExploritoryRouterLookup (nodes : Option Bucket) (ourKey : Key)
    (isBadForConnect : Key → Bool) (requester target : Key) : Option (List Key) :=
  match nodes with
  | none => none
  | some b =>
    let nodeCount := b.nodes.length
    if nodeCount = 0 then none
    else
      let (success, foundRouters) :=
        b.getManyNearExcluding target ∅ (min nodeCount 4) (.ofList [ourKey, requester])
      if success then some (foundRouters.toList.filter (!isBadForConnect ·)) else none

/-- The reply has the four nearest nodes beside us and the requester, or as many as there are,
without the bad ones. -/
def RepliesNearest (b : Bucket) (ourKey : Key) (isBadForConnect : Key → Bool)
    (requester target : Key) : Prop :=
  let others := b.others (.ofList [ourKey, requester])
  ∃ closer, handleExploritoryRouterLookup (some b) ourKey isBadForConnect requester target =
      some closer ∧
    ∃ near, IsNearest target others (min 4 others.length) near ∧
      ∀ k, k ∈ closer ↔ k ∈ near ∧ isBadForConnect k = false

/-- The lookup is right exactly if there are as many nodes beside us and the requester as it asks
for, and not just as many with one of them at the greatest distance. -/
theorem repliesNearest_iff (b : Bucket) (ourKey : Key) (isBadForConnect : Key → Bool)
    (requester target : Key) :
    RepliesNearest b ourKey isBadForConnect requester target ↔
      b.nodes ≠ [] ∧ min b.nodes.length 4 ≤ (b.others (.ofList [ourKey, requester])).length ∧
        ¬(min b.nodes.length 4 = (b.others (.ofList [ourKey, requester])).length ∧
          target.xor maxdist ∈ b.others (.ofList [ourKey, requester])) := by
  have few : (b.others (.ofList [ourKey, requester])).length ≤ b.nodes.length :=
    length_filter_le ..
  have enough := @Bucket.getManyNearExcluding_iff b target (.ofList [ourKey, requester]) ∅
  rw [RepliesNearest, handleExploritoryRouterLookup, ← enough]
  dsimp only
  split_ifs with empty succeeds
  · simp [length_eq_zero_iff.mp empty]
  · refine iff_of_true ?_ ⟨fun nil => empty (nil ▸ rfl), succeeds⟩
    obtain ⟨near, nearest, found⟩ := Bucket.exists_isNearest succeeds
    have count : min 4 (b.others (.ofList [ourKey, requester])).length = min b.nodes.length 4 := by
      have := (enough.mp succeeds).1
      omega
    refine ⟨_, rfl, near, count ▸ nearest, fun k => ?_⟩
    rw [mem_filter, Std.ExtTreeSet.mem_toList, found]
    simp
  · exact iff_of_false (fun ⟨_, failed, _⟩ => nomatch failed) fun right => succeeds right.2

/-- The only node is the requester, and the lookup fails. -/
theorem requester_alone_gets_no_reply :
    ¬RepliesNearest ⟨plainKey 0, [plainKey 1], by decide, by decide⟩ (plainKey 0) (fun _ => false)
      (plainKey 1) (plainKey 2) := by
  rintro ⟨closer, reply, -⟩
  exact absurd (Option.isSome_iff_exists.mpr ⟨closer, reply⟩) (by decide +kernel)

end Llarp.Dht

import Llarp.Path.Commit

/-!
# What a committed path leaves in the contexts

Once a path is committed, each of its routers has a transit hop with the two identifiers of the
hop. As the identifiers were drawn at random, nothing else is filed under them, except that
neighbouring hops share one. Neighbours are different routers, so that each router finds its
own hop under both identifiers, whoever asks.
-/

namespace Llarp

open Foundation List

/-! ### The hops of a path fit together -/

namespace Path

/-- A hop sends to the next one under the identifier under which that one receives. The last
hop has itself as the next one. -/
structure Linked (hops : List PathHopConfig) : Prop where
  next : hops.IsChain fun hop next => hop.txID = next.rxID ∧ hop.upstream = next.rc
  last : ∀ last ∈ hops.getLast?, last.upstream = last.rc

theorem rxID_of_mem_head?_linkHops {hop following : PathHopConfig} {rest : List PathHopConfig}
    (member : following ∈ (linkHops (hop :: rest)).head?) : following.rxID = hop.rxID := by
  cases rest with
  | nil =>
    simp only [linkHops, head?_cons, Option.mem_some_iff] at member
    rw [← member]
  | cons next rest =>
    simp only [linkHops, head?_cons, Option.mem_some_iff] at member
    rw [← member]

theorem isChain_linkHops (hops : List PathHopConfig) :
    (linkHops hops).IsChain fun hop next => hop.txID = next.rxID := by
  fun_induction linkHops hops with
  | case1 hop next rest ih =>
    refine isChain_cons.mpr ⟨fun following member => ?_, ih⟩
    exact (rxID_of_mem_head?_linkHops member).symm
  | case2 hops short =>
    rcases hops with _ | ⟨hop, _ | ⟨next, rest⟩⟩
    · exact .nil
    · exact .singleton hop
    · exact (short hop next rest rfl).elim

/-- The keys change neither the router of a hop nor its identifiers. -/
theorem of_mem_head?_generateKeys {keys : ℕ → SharedSecret × ShortHash} {idx : ℕ}
    {hop following : PathHopConfig} {rest : List PathHopConfig}
    (member : following ∈ (generateKeys keys idx (hop :: rest)).head?) :
    following.rxID = hop.rxID ∧ following.rc = hop.rc := by
  cases rest with
  | nil =>
    simp only [generateKeys, head?_cons, Option.mem_some_iff] at member
    rw [← member]
    exact ⟨rfl, rfl⟩
  | cons next rest =>
    simp only [generateKeys, head?_cons, Option.mem_some_iff] at member
    rw [← member]
    exact ⟨rfl, rfl⟩

theorem linked_generateKeys (keys : ℕ → SharedSecret × ShortHash) (idx : ℕ)
    {hops : List PathHopConfig} (chained : hops.IsChain fun hop next => hop.txID = next.rxID) :
    Linked (generateKeys keys idx hops) := by
  fun_induction generateKeys keys idx hops with
  | case1 idx hop next rest ih =>
    rw [isChain_cons_cons] at chained
    have following := ih chained.2
    refine ⟨isChain_cons.mpr ⟨fun later member => ?_, following.next⟩, fun last ends => ?_⟩
    · obtain ⟨received, router⟩ := of_mem_head?_generateKeys member
      exact ⟨chained.1.trans received.symm, router.symm⟩
    · refine following.last last ?_
      have more : generateKeys keys (idx + 1) (next :: rest) ≠ [] := by
        rw [← length_pos_iff, length_generateKeys]
        exact Nat.succ_pos _
      rwa [getLast?_cons_of_ne_nil more] at ends
  | case2 idx hop => exact ⟨.singleton _, by simp⟩
  | case3 idx => exact ⟨.nil, by simp⟩

theorem linked_build {routers : List RouterID} (nonempty : routers ≠ [])
    (short : routers.length ≤ maxLen) (draws : ℕ → PathID × PathID)
    (keys : ℕ → SharedSecret × ShortHash) :
    Linked (build routers nonempty short draws keys).hops :=
  linked_generateKeys keys 0 (isChain_linkHops _)

/-- The identifiers of a path: those under which the hops receive, and the one under which the
last one sends. -/
def ids (path : Path) : List PathID := path.hops.map (·.rxID) ++ [path.last.txID]

end Path

/-! ### Committing -/

variable (downstream : RouterID) (hops : List PathHopConfig)

/-- The hops that the routers of a path make. -/
def stops : List (RouterID × TransitHop) :=
  List.zipWith (fun hop downstream => (hop.rc, hop.record.transitHop downstream)) hops
    (downstream :: hops.map (·.rc))

theorem stops_cons (hop : PathHopConfig) (rest : List PathHopConfig) :
    stops downstream (hop :: rest) =
      (hop.rc, hop.record.transitHop downstream) :: stops hop.rc rest := rfl

theorem length_stops : (stops downstream hops).length = hops.length := by
  simp [stops]

theorem stops_concat (hop : PathHopConfig) :
    stops downstream (hops ++ [hop]) =
      stops downstream hops ++
        [(hop.rc, hop.record.transitHop ((hops.getLast?.map (·.rc)).getD downstream))] := by
  induction hops generalizing downstream with
  | nil => rfl
  | cons first rest ih =>
    rw [cons_append, stops_cons, ih]
    cases rest with
    | nil => rfl
    | cons next rest =>
      rfl

namespace PathContext

variable {policy : TransitPolicy} {us downstream : RouterID} {ctx ctx' : PathContext}
  {record : LRCommitRecord} {rest : List CommitFrame} {outcome : CommitOutcome}

/-- A router that can decrypt the first frame does nothing, or files the hop. -/
theorem handleLRCM_cases
    (handled : ctx.handleLRCM policy us downstream (.encrypted us record :: rest) =
      (ctx', outcome)) :
    outcome = .dropped ∨ (∃ status, outcome = .refused status) ∨
      ctx' = ctx.putTransitHop (record.transitHop downstream) ∧
        (record.nextHop = us ∧ outcome = .confirmed ∨
          outcome = .forwarded record.nextHop (rest ++ [.random])) := by
  simp only [handleLRCM, EncryptedFrame.doDecrypt, if_true] at handled
  split_ifs at handled with size transit zero farthest
  · exact .inl (Prod.mk.inj handled).2.symm
  · exact .inl (Prod.mk.inj handled).2.symm
  · exact .inl (Prod.mk.inj handled).2.symm
  · unfold sendPathConfirm at handled
    split_ifs at handled
    · exact .inr (.inl ⟨_, (Prod.mk.inj handled).2.symm⟩)
    · obtain ⟨rfl, rfl⟩ := Prod.mk.inj handled
      exact .inr (.inr ⟨rfl, .inl ⟨farthest, rfl⟩⟩)
  · unfold sendLRCM at handled
    split_ifs at handled
    · exact .inr (.inl ⟨_, (Prod.mk.inj handled).2.symm⟩)
    · exact .inr (.inl ⟨_, (Prod.mk.inj handled).2.symm⟩)
    · exact .inr (.inl ⟨_, (Prod.mk.inj handled).2.symm⟩)
    · obtain ⟨rfl, rfl⟩ := Prod.mk.inj handled
      exact .inr (.inr ⟨rfl, .inr rfl⟩)

theorem mem_putTransitHop {hop other : TransitHop} {id : PathID} :
    (id, other) ∈ (ctx.putTransitHop hop).transitPaths ↔
      (id, other) ∈ ctx.transitPaths ∨
        other = hop ∧ (id = other.info.txID ∨ id = other.info.rxID) := by
  simp only [putTransitHop, mem_cons, Prod.mk.injEq]
  constructor
  · rintro (⟨rfl, rfl⟩ | ⟨rfl, rfl⟩ | before)
    · exact .inr ⟨rfl, .inr rfl⟩
    · exact .inr ⟨rfl, .inl rfl⟩
    · exact .inl before
  · rintro (before | ⟨rfl, rfl | rfl⟩)
    · exact .inr (.inr before)
    · exact .inr (.inl ⟨rfl, rfl⟩)
    · exact .inl ⟨rfl, rfl⟩

end PathContext

/-- What committing a path has changed: each router of the path has its hop, and different
routers follow one another. -/
structure Committed (contexts contexts' : RouterID → PathContext) (downstream : RouterID)
    (hops : List PathHopConfig) : Prop where
  apart : (downstream :: hops.map (·.rc)).IsChain (· ≠ ·)
  ourPaths : ∀ router, (contexts' router).ourPaths = (contexts router).ourPaths
  upstreamReplay : ∀ router, (contexts' router).upstreamReplay = (contexts router).upstreamReplay
  downstreamReplay : ∀ router,
    (contexts' router).downstreamReplay = (contexts router).downstreamReplay
  filed : ∀ router id hop, (id, hop) ∈ (contexts' router).transitPaths ↔
    (id, hop) ∈ (contexts router).transitPaths ∨
      (router, hop) ∈ stops downstream hops ∧ (id = hop.info.txID ∨ id = hop.info.rxID)

namespace Committed

variable {contexts contexts' : RouterID → PathContext} {downstream : RouterID}
  {hop : PathHopConfig} {rest : List PathHopConfig}

theorem nil : Committed contexts contexts downstream [] where
  apart := .singleton downstream
  ourPaths _ := rfl
  upstreamReplay _ := rfl
  downstreamReplay _ := rfl
  filed router id hop := by simp [stops]

/-- The first hop commits before the others do. -/
theorem cons (differ : hop.rc ≠ downstream)
    (others : Committed (Function.update contexts hop.rc
      ((contexts hop.rc).putTransitHop (hop.record.transitHop downstream))) contexts' hop.rc rest) :
    Committed contexts contexts' downstream (hop :: rest) where
  apart := isChain_cons_cons.mpr ⟨differ.symm, others.apart⟩
  ourPaths router := by
    rw [others.ourPaths, Function.update_apply]
    split_ifs with here
    · rw [here]; rfl
    · rfl
  upstreamReplay router := by
    rw [others.upstreamReplay, Function.update_apply]
    split_ifs with here
    · rw [here]; rfl
    · rfl
  downstreamReplay router := by
    rw [others.downstreamReplay, Function.update_apply]
    split_ifs with here
    · rw [here]; rfl
    · rfl
  filed router id other := by
    rw [others.filed, stops_cons, mem_cons, Prod.mk.injEq, Function.update_apply]
    by_cases here : router = hop.rc
    · rw [if_pos here, PathContext.mem_putTransitHop, here]
      tauto
    · rw [if_neg here]
      tauto

end Committed

theorem committed_of_commitAlong {policies : RouterID → TransitPolicy}
    {hops : List PathHopConfig} {contexts contexts' : RouterID → PathContext}
    {downstream : RouterID} {junk : List CommitFrame}
    (commits : commitAlong policies hops contexts downstream
      (hops.map (fun hop => .encrypted hop.rc hop.record) ++ junk) = some contexts') :
    Committed contexts contexts' downstream hops := by
  induction hops generalizing contexts downstream junk with
  | nil =>
    cases commits
    exact .nil
  | cons hop rest ih =>
    rw [commitAlong] at commits
    by_cases itself : hop.rc = downstream
    · rw [if_pos itself] at commits
      cases commits
    rw [if_neg itself, map_cons, cons_append] at commits
    refine .cons itself ?_
    cases handled : (contexts hop.rc).handleLRCM (policies hop.rc) hop.rc downstream
        (.encrypted hop.rc hop.record ::
          (rest.map (fun hop => .encrypted hop.rc hop.record) ++ junk)) with
    | mk ctx outcome =>
      rw [handled] at commits
      rcases PathContext.handleLRCM_cases handled with rfl | ⟨status, rfl⟩ | ⟨rfl, next⟩
      · cases commits
      · cases commits
      · rcases next with ⟨-, rfl⟩ | rfl
        · -- the farthest hop, which must be the last one
          split_ifs at commits with none
          rw [List.isEmpty_iff] at none
          subst none
          cases commits
          exact .nil
        · simp only at commits
          split_ifs at commits
          rw [append_assoc] at commits
          exact ih commits

/-! ### Finding the hops again -/

namespace Path

variable {path : Path}

/-- The identifiers of a hop are next to each other. -/
theorem Linked.getElem?_ids (linked : Linked path.hops) {i : ℕ} {hop : PathHopConfig}
    (here : path.hops[i]? = some hop) :
    path.ids[i]? = some hop.rxID ∧ path.ids[i + 1]? = some hop.txID := by
  obtain ⟨inside, rfl⟩ := List.getElem?_eq_some_iff.mp here
  refine ⟨?_, ?_⟩
  · rw [ids, getElem?_append_left (by simpa using inside), getElem?_map, here,
      Option.map_some]
  · by_cases more : i + 1 < path.hops.length
    · rw [ids, getElem?_append_left (by simpa using more), getElem?_map,
        getElem?_eq_getElem more, Option.map_some,
        (isChain_iff_getElem.mp linked.next i more).1]
    · have ends : i + 1 = path.hops.length := by omega
      have atLast : path.last = path.hops[i] := by
        rw [Path.last, getLast_eq_getElem]
        congr 1
        omega
      rw [ids, getElem?_append_right (by simp [ends]), length_map, ends, Nat.sub_self,
        getElem?_cons_zero, atLast]

end Path

theorem of_getElem?_stops {downstream : RouterID} {hops : List PathHopConfig} {i : ℕ}
    {stop : RouterID × TransitHop} (here : (stops downstream hops)[i]? = some stop) :
    ∃ hop, hops[i]? = some hop ∧ stop.1 = hop.rc ∧ stop.2.info.txID = hop.txID ∧
      stop.2.info.rxID = hop.rxID := by
  obtain ⟨hop, previous, at_i, -, rfl⟩ := getElem?_zipWith_eq_some.mp here
  exact ⟨hop, at_i, rfl, rfl, rfl⟩

namespace Committed

variable {contexts contexts' : RouterID → PathContext} {client : RouterID} {path : Path}

/-- Hops at one router that share an identifier are the same. -/
theorem eq_of_shared_id (committed : Committed contexts contexts' client path.hops)
    (linked : Path.Linked path.hops) (distinct : path.ids.Nodup) {i j : ℕ}
    {router : RouterID} {hop other : TransitHop}
    (here : (stops client path.hops)[i]? = some (router, hop))
    (there : (stops client path.hops)[j]? = some (router, other)) {id : PathID}
    (mine : id = hop.info.txID ∨ id = hop.info.rxID)
    (its : id = other.info.txID ∨ id = other.info.rxID) : other = hop := by
  obtain ⟨hop', at_i, router_i, tx_i, rx_i⟩ := of_getElem?_stops here
  obtain ⟨other', at_j, router_j, tx_j, rx_j⟩ := of_getElem?_stops there
  obtain ⟨receives_i, sends_i⟩ := linked.getElem?_ids at_i
  obtain ⟨receives_j, sends_j⟩ := linked.getElem?_ids at_j
  -- the positions of the identifier, seen from both hops
  have position_i : ∃ a, path.ids[a]? = some id ∧ (a = i ∨ a = i + 1) := by
    rcases mine with rfl | rfl
    · exact ⟨i + 1, by rw [sends_i, tx_i], .inr rfl⟩
    · exact ⟨i, by rw [receives_i, rx_i], .inl rfl⟩
  have position_j : ∃ b, path.ids[b]? = some id ∧ (b = j ∨ b = j + 1) := by
    rcases its with rfl | rfl
    · exact ⟨j + 1, by rw [sends_j, tx_j], .inr rfl⟩
    · exact ⟨j, by rw [receives_j, rx_j], .inl rfl⟩
  obtain ⟨a, at_a, near_i⟩ := position_i
  obtain ⟨b, at_b, near_j⟩ := position_j
  have same : a = b :=
    (List.getElem?_inj (List.getElem?_eq_some_iff.mp at_a).1 distinct).mp (at_a.trans at_b.symm)
  -- neighbours are different routers
  have neighbours : ∀ k (first second : PathHopConfig), path.hops[k]? = some first →
      path.hops[k + 1]? = some second → first.rc ≠ second.rc := by
    intro k first second at_k at_next
    obtain ⟨_, rfl⟩ := List.getElem?_eq_some_iff.mp at_k
    obtain ⟨inside, rfl⟩ := List.getElem?_eq_some_iff.mp at_next
    have apart := isChain_iff_getElem.mp committed.apart (k + 1) (by simpa using inside)
    simpa using apart
  have index : i = j := by
    by_contra different
    rcases (by omega : j = i + 1 ∨ i = j + 1) with rfl | rfl
    · exact neighbours i hop' other' at_i at_j (router_i.symm.trans router_j)
    · exact neighbours j other' hop' at_j at_i (router_j.symm.trans router_i)
  subst index
  exact (Prod.mk.inj (Option.some.inj (there.symm.trans here))).2

/-- A router finds its hop under both identifiers. -/
theorem mapGet_eq (committed : Committed contexts contexts' client path.hops)
    (linked : Path.Linked path.hops) (distinct : path.ids.Nodup) {router : RouterID}
    (unused : ∀ id ∈ path.ids, ∀ entry ∈ (contexts router).transitPaths, entry.1 ≠ id)
    {hop : TransitHop}
    (stop : (router, hop) ∈ stops client path.hops) {id : PathID}
    (mine : id = hop.info.txID ∨ id = hop.info.rxID) {check : TransitHop → Bool}
    (passes : check hop = true) : (contexts' router).mapGet id check = some hop := by
  obtain ⟨i, here⟩ := mem_iff_getElem?.mp stop
  have known : id ∈ path.ids := by
    obtain ⟨hop', at_i, -, tx, rx⟩ := of_getElem?_stops here
    obtain ⟨receives, sends⟩ := linked.getElem?_ids at_i
    rcases mine with rfl | rfl
    · exact mem_of_getElem? (tx ▸ sends)
    · exact mem_of_getElem? (rx ▸ receives)
  refine PathContext.mapGet_eq_of_unique ((committed.filed _ _ _).mpr (.inr ⟨stop, mine⟩)) passes
    fun other under => ?_
  rcases (committed.filed _ _ _).mp under with before | ⟨stop', its⟩
  · exact absurd rfl (unused id known _ before)
  · obtain ⟨j, there⟩ := mem_iff_getElem?.mp stop'
    exact committed.eq_of_shared_id linked distinct here there mine its

end Committed

end Llarp

import Llarp.Exit.ExitEndpoint

/-!
# The addresses of identities

An identity without an address gets the next address of the range. When the range is used up, the
address that was unused for the longest time should be taken from its owner. But the search for it
starts from a maximum that is zero, finds nothing, and the address zero is handed out, which is
not in the range as a rule.
-/

namespace Llarp.Exit

open Foundation Option

namespace ExitEndpoint

variable {cfg : Config} {s t : ExitEndpoint} {e : Event} {pk : PubKey} {ip : IPv6}

/-- Keys and addresses belong together, addresses are in the range, ours is our own, and traffic is
rewritten with the address of its identity. -/
structure Mapped (cfg : Config) (s : ExitEndpoint) : Prop where
  inverse : ∀ (pk : PubKey) (ip : IPv6), s.keyToIP[pk]? = some ip ↔ s.ipToKey[ip]? = some pk
  inRange : ∀ (pk : PubKey) ip, s.keyToIP[pk]? = some ip → cfg.range.contains ip = true
  own : s.keyToIP[cfg.us]? = some cfg.ifAddr
  exits : ∀ entry ∈ s.activeExits, s.keyToIP[entry.1]? = some entry.2.ip
  sessions : ∀ (rid : RouterID) session, s.snodeSessions[rid]? = some (some session) →
    s.keyToIP[rid]? = some session.ip

/-- Addresses have been handed out from our own one to the next one. -/
structure Bounded (cfg : Config) (s : ExitEndpoint) : Prop where
  mapped : ∀ (ip : IPv6) pk, s.ipToKey[ip]? = some pk → ip ≤ s.nextAddr
  above : cfg.ifAddr ≤ s.nextAddr
  below : s.nextAddr ≤ cfg.highestAddr

/-- The address zero is in the range, and it is free, or its owner is neither us nor a router with
a session. -/
def Spare (cfg : Config) (s : ExitEndpoint) : Prop :=
  cfg.range.contains 0 = true ∧
    (∀ q, s.ipToKey[(0 : IPv6)]? = some q →
      q ≠ cfg.us ∧ ∀ session, s.snodeSessions[q]? ≠ some (some session)) ∧
    (s.ipToKey[(0 : IPv6)]? = none → s.keyToIP[(.zero 32 : PubKey)]? = none)

/-- The identity has an address, or there is one for it. -/
def HasRoom (cfg : Config) (s : ExitEndpoint) (pk : PubKey) : Prop :=
  (∃ ip, s.keyToIP[pk]? = some ip) ∨ s.nextAddr < cfg.highestAddr ∨ Spare cfg s

/-- If the step comes to an end, there is an address for the identity that requests one. -/
def RequestsInRoom (cfg : Config) (s : ExitEndpoint) (e : Event) : Prop :=
  (step cfg s e).isSome → ∀ pk, s.requests cfg e = some pk → HasRoom cfg s pk

/-! ### The search -/

/-- No time is less than the maximum. -/
theorem oldest_eq_zero (activity : List (IPv6 × ℕ)) : oldest activity = 0 := by
  have best : activity.foldl (fun best entry => if entry.2 < best.2 then entry else best)
      (0, numericLimitsMax) = (0, numericLimitsMax) := by
    induction activity with
    | nil => rfl
    | cons entry activity ih =>
      have later : ¬entry.2 < (0, numericLimitsMax).2 := Nat.not_lt_zero entry.2
      rw [List.foldl_cons, if_neg later, ih]
  rw [oldest, best]

theorem allocateNewAddress_next (room : s.nextAddr < cfg.highestAddr) :
    s.allocateNewAddress cfg = (s.nextAddr + 1, { s with nextAddr := s.nextAddr + 1 }) :=
  if_pos room

theorem allocateNewAddress_full (full : ¬s.nextAddr < cfg.highestAddr) :
    s.allocateNewAddress cfg =
      (0, kickIdentOffExit { s with ipToKey := s.ipToKey.insertIfNew 0 (.zero 32) }
        (s.ipToKey[(0 : IPv6)]?.getD (.zero 32))) := by
  rw [allocateNewAddress, if_neg full]
  rw [oldest_eq_zero]

/-! ### New entries -/

/-- An address for an identity that has none. -/
theorem Mapped.insert (mapped : Mapped cfg s) (unmapped : s.keyToIP[pk]? = none)
    (free : s.ipToKey[ip]? = none) (inside : cfg.range.contains ip = true)
    (activity : Std.ExtTreeMap IPv6 ℕ) :
    Mapped cfg { s with
      keyToIP := s.keyToIP.insert pk ip
      ipToKey := s.ipToKey.insert ip pk
      ipActivity := activity } := by
  have keeps {k : PubKey} {i : IPv6} (found : s.keyToIP[k]? = some i) :
      (s.keyToIP.insert pk ip)[k]? = some i := by
    rw [getElem?_insert, if_neg ?_, found]
    rintro rfl
    rw [unmapped] at found
    cases found
  refine ⟨fun k i => ?_, fun k i found => ?_, keeps mapped.own,
    fun entry member => keeps (mapped.exits entry member),
    fun rid session found => keeps (mapped.sessions rid session found)⟩
  · constructor
    · intro found
      rcases getElem?_insert_eq_some.mp found with ⟨rfl, rfl⟩ | ⟨-, old⟩
      · exact getElem?_insert_eq_some.mpr (.inl ⟨rfl, rfl⟩)
      · have back := (mapped.inverse k i).mp old
        refine getElem?_insert_eq_some.mpr (.inr ⟨?_, back⟩)
        rintro rfl
        exact absurd (free.symm.trans back) nofun
    · intro found
      rcases getElem?_insert_eq_some.mp found with ⟨rfl, rfl⟩ | ⟨-, old⟩
      · exact getElem?_insert_eq_some.mpr (.inl ⟨rfl, rfl⟩)
      · exact keeps ((mapped.inverse k i).mpr old)
  · rcases getElem?_insert_eq_some.mp found with ⟨-, rfl⟩ | ⟨-, old⟩
    · exact inside
    · exact mapped.inRange k i old

/-- An identity that is neither ours nor that of a router with a session can lose its address. -/
theorem Mapped.kickIdentOffExit (mapped : Mapped cfg s) (found : s.keyToIP[pk]? = some ip)
    (foreign : pk ≠ cfg.us) (alone : ∀ session, s.snodeSessions[pk]? ≠ some (some session)) :
    Mapped cfg (s.kickIdentOffExit pk) := by
  rw [ExitEndpoint.kickIdentOffExit, found]
  have keeps {k : PubKey} {i : IPv6} (other : k ≠ pk) (mapped : s.keyToIP[k]? = some i) :
      (s.keyToIP.erase pk)[k]? = some i :=
    getElem?_erase_eq_some.mpr ⟨other, mapped⟩
  refine ⟨fun k i => ?_, fun k i old => ?_, keeps foreign.symm mapped.own,
    fun entry member => ?_, fun rid session old => ?_⟩
  · constructor
    · intro left
      obtain ⟨other, old⟩ := getElem?_erase_eq_some.mp left
      have back := (mapped.inverse k i).mp old
      refine getElem?_erase_eq_some.mpr ⟨?_, back⟩
      rintro rfl
      exact other (some.inj (back.symm.trans ((mapped.inverse pk i).mp found)))
    · intro left
      obtain ⟨other, old⟩ := getElem?_erase_eq_some.mp left
      have forth := (mapped.inverse k i).mpr old
      refine keeps ?_ forth
      rintro rfl
      exact other (some.inj (forth.symm.trans found))
  · exact mapped.inRange k i (getElem?_erase_eq_some.mp old).2
  · have kept := List.mem_filter.mp member
    refine keeps ?_ (mapped.exits entry kept.1)
    rintro rfl
    exact absurd kept.2 (by simp)
  · refine keeps ?_ (mapped.sessions rid session old)
    rintro rfl
    exact alone session old

/-- Erasing exits does no harm. -/
theorem Mapped.eraseExits (mapped : Mapped cfg s) (doomed : PubKey × Endpoint → Bool) :
    Mapped cfg (s.eraseExits doomed) :=
  { mapped with exits := fun entry member => mapped.exits entry (List.mem_filter.mp member).1 }

/-! ### Allocating an address -/

/-- The address is in the range and free, and an identity without an address still has none. -/
structure Allocated (cfg : Config) (s : ExitEndpoint) (found : IPv6) (t : ExitEndpoint) :
    Prop where
  mapped : Mapped cfg t
  bounded : Bounded cfg t
  inside : cfg.range.contains found = true
  free : t.ipToKey[found]? = none
  above : found ≤ t.nextAddr
  unmapped : ∀ pk : PubKey, s.keyToIP[pk]? = none → t.keyToIP[pk]? = none

theorem allocated_next (mapped : Mapped cfg s) (bounded : Bounded cfg s)
    (room : s.nextAddr < cfg.highestAddr) :
    Allocated cfg s (s.allocateNewAddress cfg).1 (s.allocateNewAddress cfg).2 := by
  rw [allocateNewAddress_next room]
  have next : (s.nextAddr + 1).toNat = s.nextAddr.toNat + 1 := by
    have last := cfg.highestAddr.isLt
    rw [BitVec.lt_def] at room
    rw [BitVec.toNat_add]
    exact Nat.mod_eq_of_lt (by omega : s.nextAddr.toNat + 1 < 2 ^ 128)
  have above : s.nextAddr ≤ s.nextAddr + 1 := by
    rw [BitVec.le_def, next]
    exact Nat.le_succ _
  have below : s.nextAddr + 1 ≤ cfg.highestAddr := by
    rw [BitVec.le_def, next]
    exact room
  refine ⟨{ mapped with }, ⟨fun i k found => ?_, ?_, below⟩, ?_, ?_, BitVec.le_refl _,
    fun k unmapped => unmapped⟩
  · exact BitVec.le_trans (bounded.mapped i k found) above
  · exact BitVec.le_trans bounded.above above
  · exact IPRange.contains_of_le cfg.bits_le rfl (BitVec.le_trans bounded.above above) below
  · refine eq_none_iff_forall_ne_some.mpr fun k found => ?_
    have small := bounded.mapped _ k found
    rw [BitVec.le_def, next] at small
    omega

theorem allocated_spare (mapped : Mapped cfg s) (bounded : Bounded cfg s)
    (full : ¬s.nextAddr < cfg.highestAddr) (spare : Spare cfg s) :
    Allocated cfg s (s.allocateNewAddress cfg).1 (s.allocateNewAddress cfg).2 := by
  rw [allocateNewAddress_full full]
  obtain ⟨inside, owned, unowned⟩ := spare
  have least (i : IPv6) : 0 ≤ i := Nat.zero_le i.toNat
  cases owner : s.ipToKey[(0 : IPv6)]? with
  | some q =>
    -- the owner of the address zero is kicked off
    have found := (mapped.inverse q 0).mpr owner
    have erased : (s.kickIdentOffExit q).ipToKey = s.ipToKey.erase 0 := by
      rw [kickIdentOffExit, found]
      rfl
    rw [getD_some, insertIfNew_eq_self owner]
    refine ⟨mapped.kickIdentOffExit found (owned q owner).1 (owned q owner).2,
      ⟨fun i k left => ?_, bounded.above, bounded.below⟩, inside, ?_, least _,
      fun k unmapped => ?_⟩
    · rw [erased] at left
      exact bounded.mapped i k (getElem?_erase_eq_some.mp left).2
    · rw [erased, getElem?_erase, if_pos rfl]
    · show (s.keyToIP.erase q)[k]? = none
      rw [getElem?_erase, unmapped, ite_self]
  | none =>
    -- the entry that the operator creates is erased again
    have absent := unowned owner
    have same : kickIdentOffExit { s with ipToKey := s.ipToKey.insertIfNew 0 (.zero 32) }
        (.zero 32) = s.eraseExits (·.1 = .zero 32) := by
      rw [kickIdentOffExit, insertIfNew_eq_insert owner]
      rw [absent, getD_none, erase_of_getElem? absent, erase_insert,
        erase_of_getElem? owner]
    rw [getD_none, same]
    exact ⟨mapped.eraseExits _, { bounded with }, inside, owner, least _,
      fun k unmapped => unmapped⟩

theorem getIPForIdent_known (found : s.keyToIP[pk]? = some ip) (now : ℕ) :
    s.getIPForIdent cfg pk now = (ip, s.markIPActive ip now) := by
  rw [getIPForIdent, found]

theorem getIPForIdent_new {now : ℕ} (unmapped : s.keyToIP[pk]? = none)
    (allocates : s.allocateNewAddress cfg = (ip, t)) (absent : t.keyToIP[pk]? = none)
    (free : t.ipToKey[ip]? = none) :
    s.getIPForIdent cfg pk now =
      (ip, { t with
        keyToIP := t.keyToIP.insert pk ip
        ipToKey := t.ipToKey.insert ip pk
        ipActivity := t.ipActivity.insert ip now }) := by
  have noKey : t.keyToIP.contains pk = false := by
    rw [Std.ExtTreeMap.contains_eq_isSome_getElem?, absent]
    rfl
  have noOwner : t.ipToKey.contains ip = false := by
    rw [Std.ExtTreeMap.contains_eq_isSome_getElem?, free]
    rfl
  rw [getIPForIdent, unmapped]
  rw [allocates]
  dsimp only
  rw [noKey, noOwner]
  rfl

/-- The identity gets an address, and nothing else about addresses changes. -/
theorem getIPForIdent_of_room (mapped : Mapped cfg s) (bounded : Bounded cfg s)
    (room : HasRoom cfg s pk) (now : ℕ) :
    Mapped cfg (s.getIPForIdent cfg pk now).2 ∧ Bounded cfg (s.getIPForIdent cfg pk now).2 ∧
      (s.getIPForIdent cfg pk now).2.keyToIP[pk]? = some (s.getIPForIdent cfg pk now).1 := by
  cases found : s.keyToIP[pk]? with
  | some ip =>
    rw [getIPForIdent_known found]
    exact ⟨{ mapped with }, { bounded with }, found⟩
  | none =>
    have allocated : Allocated cfg s (s.allocateNewAddress cfg).1 (s.allocateNewAddress cfg).2 := by
      rcases room with ⟨ip, known⟩ | next | spare
      · exact absurd (found.symm.trans known) nofun
      · exact allocated_next mapped bounded next
      · by_cases next : s.nextAddr < cfg.highestAddr
        · exact allocated_next mapped bounded next
        · exact allocated_spare mapped bounded next spare
    generalize result : s.allocateNewAddress cfg = allocates at allocated
    obtain ⟨mapped, bounded, inside, free, above, unmapped⟩ := allocated
    rw [getIPForIdent_new found result (unmapped pk found) free]
    refine ⟨mapped.insert (unmapped pk found) free inside _,
      ⟨fun i k owned => ?_, bounded.above, bounded.below⟩, ?_⟩
    · rcases getElem?_insert_eq_some.mp owned with ⟨rfl, -⟩ | ⟨-, old⟩
      · exact above
      · exact bounded.mapped i k old
    · exact getElem?_insert_eq_some.mpr (.inl ⟨rfl, rfl⟩)

/-! ### Steps -/

/-- Both invariants. -/
def Assigned (cfg : Config) (s : ExitEndpoint) : Prop := Mapped cfg s ∧ Bounded cfg s

theorem assigned_start (cfg : Config) : Assigned cfg (start cfg) := by
  have keys {pk : PubKey} {ip : IPv6} : (start cfg).keyToIP[pk]? = some ip ↔
      pk = cfg.us ∧ ip = cfg.ifAddr := by
    rw [start, getElem?_insert_eq_some, Std.ExtTreeMap.getElem?_empty]
    simp
  have ips {pk : PubKey} {ip : IPv6} : (start cfg).ipToKey[ip]? = some pk ↔
      ip = cfg.ifAddr ∧ pk = cfg.us := by
    rw [start, getElem?_insert_eq_some, Std.ExtTreeMap.getElem?_empty]
    simp
  refine ⟨⟨fun pk ip => ?_, fun pk ip found => ?_, keys.mpr ⟨rfl, rfl⟩, nofun,
    fun rid session found => ?_⟩, fun ip pk found => ?_, BitVec.le_refl _,
    IPRange.addr_le_highestAddr cfg.bits_le rfl⟩
  · rw [keys, ips, and_comm]
  · rw [(keys.mp found).2]
    exact decide_eq_true rfl
  · rw [start] at found
    cases found
  · rw [(ips.mp found).1]
    exact BitVec.le_refl _

/-- A step for which there is room keeps the addresses in order. -/
theorem Assigned.step (assigned : Assigned cfg s) (room : RequestsInRoom cfg s e)
    (steps : step cfg s e = some t) : Assigned cfg t := by
  have ends : (ExitEndpoint.step cfg s e).isSome := by rw [steps]; rfl
  obtain ⟨mapped, bounded⟩ := assigned
  cases moved_of_step steps with
  | stays quiet => exact ⟨mapped, bounded⟩
  | marks now asked =>
    obtain ⟨mapped, bounded, -⟩ := getIPForIdent_of_room mapped bounded (room ends _ asked) now
    exact ⟨mapped, bounded⟩
  | @connects _ pk now asked =>
    obtain ⟨mapped, bounded, found⟩ := getIPForIdent_of_room mapped bounded (room ends pk asked) now
    refine ⟨{ mapped with sessions := fun rid session stored => ?_ }, { bounded with }⟩
    rcases getElem?_insert_eq_some.mp stored with ⟨rfl, made⟩ | ⟨-, old⟩
    · cases made
      exact found
    · rw [← (getIPForIdent_frame cfg s pk now).1] at old
      exact mapped.sessions rid session old
  | allocates now grants asked =>
    obtain ⟨mapped, bounded, found⟩ := getIPForIdent_of_room mapped bounded (room ends _ asked) now
    refine ⟨{ mapped with exits := fun entry member => ?_ }, { bounded with }⟩
    rcases mem_addExit.mp member with rfl | old
    · exact found
    · exact mapped.exits entry old
  | @hears router session now present =>
    refine ⟨{ mapped with sessions := fun rid other stored => ?_ }, { bounded with }⟩
    rcases getElem?_insert_eq_some.mp stored with ⟨rfl, made⟩ | ⟨-, old⟩
    · cases made
      exact mapped.sessions rid session present
    · exact mapped.sessions rid other old
  | ticks now expired =>
    have kept : Mapped cfg { s with
        snodeSessions := s.snodeSessions.filter fun _ session =>
          !(session.any (·.isExpired now)) } :=
      { mapped with
        sessions := fun rid session stored =>
          mapped.sessions rid session (getElem?_of_filter stored) }
    exact ⟨kept.eraseExits _, { bounded with }⟩
  | closes rxID verified replied found alike =>
    exact ⟨{ mapped with
        exits := fun entry member => mapped.exits entry (List.mem_of_mem_eraseP member) },
      { bounded with }⟩
  | updates handler found unused =>
    refine ⟨{ mapped with exits := fun entry member => ?_ }, { bounded with }⟩
    obtain ⟨old, present, hop, rfl⟩ := mem_replaceF_setPath member
    exact mapped.exits old present

/-! ### The condition is exact -/

/-- What a step that requests an address does about addresses and to the sessions of others. -/
theorem exists_getIPForIdent (steps : step cfg s e = some t) (asked : s.requests cfg e = some pk) :
    ∃ now, t.keyToIP = (s.getIPForIdent cfg pk now).2.keyToIP ∧
      t.ipToKey = (s.getIPForIdent cfg pk now).2.ipToKey ∧
      ∀ rid : RouterID, rid ≠ pk → t.snodeSessions[rid]? = s.snodeSessions[rid]? := by
  cases moved_of_step steps with
  | stays quiet => exact absurd (quiet.symm.trans asked) nofun
  | marks now requested =>
    cases requested.symm.trans asked
    exact ⟨now, rfl, rfl, fun rid _ => congrArg (·[rid]?) (getIPForIdent_frame ..).1⟩
  | connects now requested =>
    cases requested.symm.trans asked
    exact ⟨now, rfl, rfl, fun rid different => by rw [getElem?_insert, if_neg different.symm]⟩
  | allocates now grants requested =>
    cases requested.symm.trans asked
    exact ⟨now, rfl, rfl, fun rid _ => congrArg (·[rid]?) (getIPForIdent_frame ..).1⟩
  | _ => cases asked

/-- An identity without an address gets the allocated one, whether or not that one is free. -/
theorem getIPForIdent_taken {u : ExitEndpoint} (unmapped : s.keyToIP[pk]? = none)
    (allocates : s.allocateNewAddress cfg = (ip, u)) (absent : u.keyToIP[pk]? = none) (now : ℕ) :
    (s.getIPForIdent cfg pk now).2.keyToIP = u.keyToIP.insert pk ip ∧
      ∀ q, u.ipToKey[ip]? = some q →
        (s.getIPForIdent cfg pk now).2.ipToKey[ip]? = some q := by
  have noKey : u.keyToIP.contains pk = false := by
    rw [Std.ExtTreeMap.contains_eq_isSome_getElem?, absent]
    rfl
  rw [getIPForIdent, unmapped]
  rw [allocates]
  dsimp only
  rw [noKey, if_neg Bool.false_ne_true]
  split_ifs with owned
  · exact ⟨rfl, fun q found => found⟩
  · refine ⟨rfl, fun q found => ?_⟩
    rw [Std.ExtTreeMap.contains_eq_isSome_getElem?, found] at owned
    exact absurd rfl owned

theorem hasRoom_of_mapped (mapped : Mapped cfg s) (after : Mapped cfg t)
    (steps : step cfg s e = some t) (asked : s.requests cfg e = some pk) :
    HasRoom cfg s pk := by
  obtain ⟨now, keys, owners, sessions⟩ := exists_getIPForIdent steps asked
  by_contra none
  obtain ⟨unknown, full, spare⟩ : (¬∃ ip, s.keyToIP[pk]? = some ip) ∧
      ¬s.nextAddr < cfg.highestAddr ∧ ¬Spare cfg s := by
    rwa [HasRoom, not_or, not_or] at none
  have unmapped : s.keyToIP[pk]? = .none :=
    eq_none_iff_forall_ne_some.mpr fun ip found => unknown ⟨ip, found⟩
  have allocates := allocateNewAddress_full full
  generalize owner : s.ipToKey[(0 : IPv6)]?.getD (.zero 32) = q at allocates
  have absent : (s.keyToIP.erase q)[pk]? = .none := by
    rw [getElem?_erase, unmapped, ite_self]
  obtain ⟨taken, kept⟩ := getIPForIdent_taken unmapped allocates absent now
  rw [taken] at keys
  have zero : t.keyToIP[pk]? = some 0 := by
    rw [keys]
    exact getElem?_insert_eq_some.mpr (.inl ⟨rfl, rfl⟩)
  have lost (other : q ≠ pk) : t.keyToIP[q]? = .none := by
    rw [keys, getElem?_insert, if_neg other.symm]
    exact (getElem?_erase ..).trans (if_pos rfl)
  -- the evicted identity is neither us nor a router with a session, for both keep their address
  refine spare ⟨after.inRange pk 0 zero, fun q' owned => ?_, fun free => ?_⟩
  · obtain rfl : q' = q := by rw [← owner, owned, getD_some]
    have found := (mapped.inverse q' 0).mpr owned
    have other : q' ≠ pk := by
      rintro rfl
      exact absurd (unmapped.symm.trans found) nofun
    constructor
    · rintro rfl
      exact absurd ((lost other).symm.trans after.own) nofun
    · intro session stored
      rw [← sessions q' other] at stored
      exact absurd ((lost other).symm.trans (after.sessions q' session stored)) nofun
  · obtain rfl : .zero 32 = q := by rw [← owner, free, getD_none]
    refine eq_none_iff_forall_ne_some.mpr fun old found => ?_
    have other : (.zero 32) ≠ pk := by
      rintro rfl
      exact absurd (unmapped.symm.trans found) nofun
    -- the zero key owns the address zero afterwards, for its own address is another one
    have apart : old ≠ 0 := by
      rintro rfl
      exact absurd (free.symm.trans ((mapped.inverse _ _).mp found)) nofun
    have owned : t.ipToKey[(0 : IPv6)]? = some (.zero 32) := by
      rw [owners]
      apply kept
      have erased : s.keyToIP[(.zero 32 : PubKey)]?.getD 0 = old := by rw [found, getD_some]
      change ((s.ipToKey.insertIfNew 0 (.zero 32)).erase
        (s.keyToIP[(.zero 32 : PubKey)]?.getD 0))[(0 : IPv6)]? = some (.zero 32)
      rw [erased, getElem?_erase, if_neg apart, getElem?_insertIfNew, if_pos rfl, free,
        getD_none]
    exact absurd ((lost other).symm.trans ((after.inverse _ _).mpr owned)) nofun

/-- In every run the addresses are in order in every state exactly if no identity without an
address requests one when there is none left. -/
theorem always_mapped_iff (cfg : Config) (events : List Event) :
    Always (step cfg) (Mapped cfg) (start cfg) events ↔
      Along (step cfg) (RequestsInRoom cfg) (start cfg) events := by
  refine always_iff_along (Bounded cfg)
    (fun s e t bounded mapped room steps => (Assigned.step ⟨mapped, bounded⟩ room steps).2)
    (fun s e bounded mapped => ⟨fun after ends pk asked => ?_, fun room t steps =>
      (Assigned.step ⟨mapped, bounded⟩ room steps).1⟩)
    (assigned_start cfg).2 (assigned_start cfg).1
  obtain ⟨t, steps⟩ := isSome_iff_exists.mp ends
  exact hasRoom_of_mapped mapped (after t steps) steps asked

/-- An exit endpoint with our own address only. -/
def singleAddress : Config := { exampleConfig with bits := 128, bits_le := le_rfl }

/-- The first identity gets the address zero, which is not in the range. -/
theorem first_identity_gets_zero :
    ¬Always (step singleAddress) (Mapped singleAddress) (start singleAddress)
      [.obtainServiceNodeIP examplePeer 0] := by
  have outside : singleAddress.range.contains 0 = false := by decide +kernel
  have assigned : ((start singleAddress).obtainServiceNodeIP singleAddress examplePeer 0).2.keyToIP[
      examplePeer]? = some 0 := by
    decide +kernel
  intro always
  have mapped := always _ _ List.prefix_rfl rfl
  exact absurd (outside.symm.trans (mapped.inRange _ _ assigned)) nofun

end ExitEndpoint

end Llarp.Exit

import Llarp.Dht.TXHolder

/-!
# Every transaction is answered once

The three containers of `TXHolder` are kept in step by hand. A transaction in `tx` should be
listed once in `waiting`, under its target, and its target should have a deadline: then every
transaction replies once, at the latest when its deadline has passed.

The end of `Inform` erases the whole key, so a transaction for that key that a handler
creates while the loop runs is lost, unless the loop still reaches its entry. Where no handler
does that, the containers stay in step.
-/

set_option autoImplicit false
set_option linter.unusedSectionVars false

namespace Llarp.Dht.TXHolder

open Foundation List Option

variable {K V J : Type} [Ord K] [Std.TransOrd K] [Std.LawfulEqOrd K] [DecidableEq K]
  {validate : ℕ → J → V → Bool} {s s' : TXHolder K V J} {c : Call K V J} {calls : List (Call K V J)}
  {o : TXOwner}

/-! ### The property -/

/-- Every transaction is listed exactly once, under its target, which has a deadline. -/
def Listed (s : TXHolder K V J) : Prop :=
  ∀ o t, s.tx[o]? = some t →
    s.waiting.filter (·.2 = o) = [(t.target, o)] ∧ t.target ∈ s.timeouts

/-- Every transaction that was created has replied once, or is pending and has not replied. -/
def Answered (s : TXHolder K V J) : Prop :=
  ∀ o ∈ s.created, s.replies o = if o ∈ s.tx then 0 else 1

/-- A `newTX` has an owner of its own. If it is made while a loop runs, no container grows, and
the loop still reaches the new entry if it is one for its key. -/
def Careful (s : TXHolder K V J) : Call K V J → Prop
  | .newTX askpeer t _ rehash inside =>
    askpeer ∉ s.created ∧
      ∀ loop, s.informing = some loop → rehash = false ∧ (t.target = loop.key → inside = true)
  | _ => True

instance (s : TXHolder K V J) : ∀ c : Call K V J, Decidable (s.Careful c)
  | .newTX .. => inferInstanceAs (Decidable (_ ∧ ∀ loop, s.informing = some loop → _ ∧ (_ → _)))
  | .found .. | .notFound .. | .expire | .next | .tick .. => isTrue trivial

/-- The deadline of a transaction retires it: a round of `Expire` at or after the deadline
comes to an end, and whatever the handlers do meanwhile, the transaction is gone then. -/
def Retired (validate : ℕ → J → V → Bool) (s : TXHolder K V J) : Prop :=
  ∀ o t, s.tx[o]? = some t → ∃ deadline, s.timeouts[t.target]? = some deadline ∧
    ∀ ms, s.busy = false → deadline ≤ s.now + ms →
      (∃ n s', run (step validate) s (.tick ms :: .expire :: List.replicate n .next) = some s' ∧
        s'.busy = false) ∧
      ∀ calls s', Along (step validate) Careful s (.tick ms :: .expire :: calls) →
        run (step validate) s (.tick ms :: .expire :: calls) = some s' → s'.busy = false →
        o ∉ s'.tx

/-! ### The log -/

variable {values : List V} {owner : TXOwner} {t : TX K V J} {askpeer : TXOwner}
  {requestTimeout : ℕ+}

@[simp] theorem created_newTX :
    (s.newTX askpeer t requestTimeout).created = s.created ++ [askpeer] := by
  simp only [created, newTX, filterMap_append]
  by_cases first : s.waiting.countP (fun entry => decide (entry.1 = t.target)) = 0
  · simp [first]
  · simp [first]

@[simp] theorem replies_newTX : (s.newTX askpeer t requestTimeout).replies o = s.replies o := by
  simp only [replies, newTX, countP_append]
  by_cases first : s.waiting.countP (fun entry => decide (entry.1 = t.target)) = 0
  · simp [first]
  · simp [first]

theorem created_answer : (answer validate s owner values).created = s.created := by
  unfold answer
  cases s.tx[owner]? with
  | none => rfl
  | some t => simp [created, filterMap_append]

/-- The loop body makes a pending transaction reply, and no other one. -/
theorem replies_answer :
    (answer validate s owner values).replies o =
      s.replies o + if owner = o ∧ o ∈ s.tx then 1 else 0 := by
  unfold answer
  cases found : s.tx[owner]? with
  | none =>
    have absent : owner ∉ s.tx := not_mem_iff_getElem?.mpr found
    have : ¬ (owner = o ∧ o ∈ s.tx) := fun ⟨same, pending⟩ => absent (same ▸ pending)
    simp [this]
  | some t =>
    have present : owner ∈ s.tx := mem_iff_exists_getElem?.mpr ⟨t, found⟩
    by_cases same : owner = o
    · subst same
      simp [replies, present]
    · simp [replies, same]

/-! ### What a step does -/

/-- What a careful step can do to the holder. -/
inductive Moves (validate : ℕ → J → V → Bool) (s : TXHolder K V J) : TXHolder K V J → Prop
  | waits (now : ℕ) : Moves validate s { s with now }
  | expires (idle : s.busy = false) : Moves validate s s.expire
  | creates (askpeer : TXOwner) (t : TX K V J) (requestTimeout : ℕ+) (more : List TXOwner)
      (fresh : askpeer ∉ s.created)
      (reached : ∀ loop, s.informing = some loop → t.target = loop.key → askpeer ∈ more) :
      Moves validate s { s.newTX askpeer t requestTimeout with
        informing := s.informing.map fun loop => { loop with rest := loop.rest ++ more } }
  | enters {key : K} {values : List V} {expiring : List K}
      (begins : s.busy = false ∨ s.informing = none ∧ s.expiring = key :: expiring) :
      Moves validate s (inform { s with expiring } key values)
  | visits {key : K} {values : List V} {owner : TXOwner} {rest : List TXOwner}
      (running : s.informing = some ⟨key, values, owner :: rest⟩) :
      Moves validate s
        (answer validate { s with informing := some ⟨key, values, rest⟩ } owner values)
  | finishes {key : K} {values : List V} (running : s.informing = some ⟨key, values, []⟩) :
      Moves validate s (s.finish key)

theorem moves_next : Moves validate s (s.next validate) := by
  unfold next
  split
  case h_1 running => exact .visits running
  case h_2 running => exact .finishes running
  case h_3 idle =>
    split
    case h_1 overdue => exact .enters (.inr ⟨idle, overdue⟩)
    case h_2 => exact .waits s.now

variable (validate) in
/-- A careful step is defined. -/
theorem exists_moves (careful : s.Careful c) :
    ∃ s', s.step validate c = some s' ∧ Moves validate s s' := by
  cases c with
  | newTX askpeer t requestTimeout rehash inside =>
    obtain ⟨fresh, placed⟩ := careful
    refine ⟨_, ?_, .creates askpeer t requestTimeout (if inside then [askpeer] else []) fresh
      fun loop running target => ?_⟩
    · cases running : s.informing with
      | none => simp [step, newTX, running]
      | some loop => cases inside <;> simp [step, running, (placed loop running).1]
    · rw [if_pos ((placed loop running).2 target)]
      exact mem_singleton_self _
  | found key values =>
    refine ⟨_, rfl, ?_⟩
    split_ifs with working
    · exact .waits s.now
    · exact .enters (.inl (Bool.eq_false_of_not_eq_true working))
  | notFound askpeer =>
    refine ⟨_, rfl, ?_⟩
    split_ifs with working
    · exact .waits s.now
    · unfold notFound
      split
      · exact .waits s.now
      · exact .enters (.inl (Bool.eq_false_of_not_eq_true working))
  | expire =>
    refine ⟨_, rfl, ?_⟩
    split_ifs with working
    · exact .waits s.now
    · exact .expires (Bool.eq_false_of_not_eq_true working)
  | next => exact ⟨_, rfl, moves_next⟩
  | tick ms => exact ⟨_, rfl, .waits _⟩

/-! ### The invariant -/

/-- The containers are in step, also in the middle of a loop: the transactions for the key of
the loop are those that it still has to visit. -/
structure Booked (s : TXHolder K V J) : Prop where
  listed : s.Listed
  answered : s.Answered
  reached : ∀ loop, s.informing = some loop →
    ∀ o t, s.tx[o]? = some t → t.target = loop.key → o ∈ loop.rest
  unknown : ∀ o ∉ s.created, (∀ k, (k, o) ∉ s.waiting) ∧ o ∉ s.tx ∧ s.replies o = 0

theorem booked_empty : Booked ({} : TXHolder K V J) where
  listed _ _ pending := by simp at pending
  answered := by simp [Answered, created]
  reached _ running := nomatch running
  unknown := by simp [replies]

namespace Booked

section

variable (booked : s.Booked)

include booked

theorem mem_waiting {t : TX K V J} (pending : s.tx[o]? = some t) : (t.target, o) ∈ s.waiting := by
  have entry : (t.target, o) ∈ s.waiting.filter (·.2 = o) := by
    rw [(booked.listed o t pending).1]
    exact mem_singleton_self _
  exact mem_of_mem_filter entry

theorem mem_owners {t : TX K V J} (pending : s.tx[o]? = some t) : o ∈ s.owners t.target :=
  mem_map.mpr ⟨(t.target, o),
    mem_filter.mpr ⟨booked.mem_waiting pending, decide_eq_true rfl⟩, rfl⟩

/-- A transaction with a new owner, before the loop is told of it. -/
theorem newTX {askpeer : TXOwner} {t : TX K V J} {requestTimeout : ℕ+} (fresh : askpeer ∉ s.created)
    {more : List TXOwner}
    (reached : ∀ loop, s.informing = some loop → t.target = loop.key → askpeer ∈ more) :
    Booked { s.newTX askpeer t requestTimeout with
      informing := s.informing.map fun loop => { loop with rest := loop.rest ++ more } } := by
  obtain ⟨unlisted, absent, silent⟩ := booked.unknown askpeer fresh
  have inserted : (s.newTX askpeer t requestTimeout).tx = s.tx.insert askpeer t :=
    insertIfNew_eq_insert (not_mem_iff_getElem?.mp absent)
  have memTx (o : TXOwner) : o ∈ (s.newTX askpeer t requestTimeout).tx ↔ o = askpeer ∨ o ∈ s.tx := by
    rw [inserted, Std.ExtTreeMap.mem_insert, Std.LawfulEqOrd.compare_eq_iff_eq, eq_comm]
  have memCreated (o : TXOwner) :
      o ∈ (s.newTX askpeer t requestTimeout).created ↔ o ∈ s.created ∨ o = askpeer := by
    rw [created_newTX, mem_append, mem_singleton]
  refine ⟨?_, ?_, ?_, ?_⟩
  · intro o u pending
    rw [inserted, getElem?_insert_eq_some] at pending
    rcases pending with ⟨rfl, rfl⟩ | ⟨other, pending⟩
    · have none : s.waiting.filter (·.2 = o) = [] := by
        rw [filter_eq_nil_iff]
        rintro ⟨k, owner⟩ entry same
        obtain rfl : owner = o := of_decide_eq_true same
        exact unlisted k entry
      refine ⟨?_, Std.ExtTreeMap.mem_insertIfNew.mpr (.inl Std.ReflCmp.compare_self)⟩
      rw [← none]
      exact filter_cons_of_pos (by simp)
    · obtain ⟨once, has⟩ := booked.listed o u pending
      refine ⟨?_, Std.ExtTreeMap.mem_insertIfNew.mpr (.inr has)⟩
      rw [← once]
      exact filter_cons_of_neg (by simpa using Ne.symm other)
  · intro o made
    show (s.newTX askpeer t requestTimeout).replies o = _
    rw [replies_newTX]
    by_cases same : o = askpeer
    · subst same
      rw [if_pos ((memTx o).mpr (.inl rfl)), silent]
    · rw [booked.answered o (((memCreated o).mp made).resolve_right same)]
      exact if_congr (by rw [memTx]; simp [same]) rfl rfl
  · intro loop running o u pending target
    obtain ⟨old, wasRunning, rfl⟩ := map_eq_some_iff.mp running
    rw [inserted, getElem?_insert_eq_some] at pending
    rcases pending with ⟨rfl, rfl⟩ | ⟨-, pending⟩
    · exact mem_append_right _ (reached old wasRunning target)
    · exact mem_append_left _ (booked.reached old wasRunning o u pending target)
  · intro o unmade
    have unmade' := not_or.mp ((memCreated o).not.mp unmade)
    obtain ⟨noEntry, notThere, none⟩ := booked.unknown o unmade'.1
    refine ⟨fun k entry => ?_, fun there => ?_, ?_⟩
    · rcases mem_cons.mp entry with new | old
      · exact unmade'.2 (Prod.ext_iff.mp new).2
      · exact noEntry k old
    · exact ((memTx o).mp there).elim unmade'.2 notThere
    · show (s.newTX askpeer t requestTimeout).replies o = 0
      rw [replies_newTX, none]

/-- Leaving the loop: no transaction for the key is left. -/
theorem finish {key : K} {values : List V} (running : s.informing = some ⟨key, values, []⟩) :
    Booked (s.finish key) where
  listed := by
    intro o t pending
    obtain ⟨once, has⟩ := booked.listed o t pending
    have other : t.target ≠ key := fun same =>
      not_mem_nil (booked.reached _ running o t pending same)
    refine ⟨?_, ?_⟩
    · show (s.waiting.filter _).filter _ = _
      rw [filter_comm, once]
      exact filter_cons_of_pos (by simpa using other)
    · show t.target ∈ s.timeouts.erase key
      rw [Std.ExtTreeMap.mem_erase]
      exact ⟨fun same => other (Std.LawfulEqOrd.eq_of_compare same).symm, has⟩
  answered := booked.answered
  reached _ running := nomatch running
  unknown o unmade :=
    ⟨fun k entry => (booked.unknown o unmade).1 k (mem_of_mem_filter entry),
      (booked.unknown o unmade).2⟩

/-- The loop body: the transaction that is erased has replied. -/
theorem answer {owner : TXOwner} {rest : List TXOwner} {key : K} {values : List V}
    (running : s.informing = some ⟨key, values, owner :: rest⟩) :
    Booked (answer validate { s with informing := some ⟨key, values, rest⟩ } owner values) := by
  set moved : TXHolder K V J := { s with informing := some ⟨key, values, rest⟩ }
  have createdEq : (TXHolder.answer validate moved owner values).created = s.created :=
    created_answer
  have memTx : ∀ o, o ∈ (TXHolder.answer validate moved owner values).tx ↔
      owner ≠ o ∧ o ∈ s.tx := by
    intro o
    rw [mem_iff_exists_getElem?, mem_iff_exists_getElem?]
    simp only [getElem?_tx_answer]
    by_cases same : owner = o
    · simp [same]
    · simp [same, moved]
  refine ⟨?_, ?_, ?_, ?_⟩
  · intro o t pending
    rw [getElem?_tx_answer] at pending
    rw [waiting_answer, timeouts_answer]
    split_ifs at pending
    exact booked.listed o t pending
  · intro o made
    rw [createdEq] at made
    rw [replies_answer]
    show s.replies o + (if owner = o ∧ o ∈ s.tx then 1 else 0) = _
    rw [booked.answered o made]
    -- the reply is counted where the transaction leaves the container
    rw [if_congr (memTx o) rfl rfl]
    by_cases pending : o ∈ s.tx <;> by_cases same : owner = o <;> simp [pending, same]
  · intro loop running' o t pending target
    rw [informing_answer] at running'
    cases running'
    rw [getElem?_tx_answer] at pending
    split_ifs at pending with other
    have visited := booked.reached _ running o t pending target
    exact (mem_cons.mp visited).resolve_left (Ne.symm other)
  · intro o unmade
    rw [createdEq] at unmade
    obtain ⟨noEntry, notThere, none⟩ := booked.unknown o unmade
    rw [waiting_answer, memTx, replies_answer, if_neg fun both => notThere both.2]
    exact ⟨noEntry, fun both => notThere both.2, none⟩

theorem of_moves (moves : Moves validate s s') : s'.Booked := by
  cases moves with
  | waits now => exact { booked with }
  | expires idle => exact { booked with }
  | creates askpeer t requestTimeout more fresh reached => exact booked.newTX fresh reached
  | enters begins =>
    refine { booked with reached := ?_ }
    rintro loop ⟨⟩ o t pending rfl
    exact booked.mem_owners pending
  | visits running => exact booked.answer running
  | finishes running => exact booked.finish running

end

end Booked

/-! ### Deadlines -/

/-- A transaction for `key` is on its way out: as long as it is pending, its key is still to
be expired, or the loop for its key still reaches it. -/
structure Retiring (o : TXOwner) (key : K) (s : TXHolder K V J) : Prop where
  made : o ∈ s.created
  due : ∀ t, s.tx[o]? = some t → t.target = key ∧ (key ∈ s.expiring ∨
    ∃ loop, s.informing = some loop ∧ loop.key = key ∧ o ∈ loop.rest)

namespace Retiring

variable {key : K}

theorem not_mem_tx (retiring : s.Retiring o key) (idle : s.busy = false) : o ∉ s.tx := by
  rw [busy, Bool.or_eq_false_iff, isSome_eq_false_iff, isNone_iff_eq_none,
    Bool.not_eq_false', List.isEmpty_iff] at idle
  intro pending
  obtain ⟨t, found⟩ := mem_iff_exists_getElem?.mp pending
  rcases (retiring.due t found).2 with expiring | ⟨loop, running, -⟩
  · rw [idle.2] at expiring
    exact not_mem_nil expiring
  · rw [idle.1] at running
    cases running

theorem of_moves (booked : s.Booked) (retiring : s.Retiring o key) (moves : Moves validate s s') :
    s'.Retiring o key := by
  -- between the loops the transaction is gone
  have gone (idle : s.busy = false) (t : TX K V J) : s.tx[o]? ≠ some t := fun found =>
    retiring.not_mem_tx idle (mem_iff_exists_getElem?.mpr ⟨t, found⟩)
  cases moves with
  | waits now => exact { retiring with }
  | expires idle => exact ⟨retiring.made, fun t found => absurd found (gone idle t)⟩
  | creates askpeer t requestTimeout more fresh reached =>
    have other : askpeer ≠ o := fun same => fresh (same ▸ retiring.made)
    refine ⟨?_, fun u pending => ?_⟩
    · have made : o ∈ (s.newTX askpeer t requestTimeout).created := by
        rw [created_newTX]
        exact mem_append_left _ retiring.made
      exact made
    · have before : s.tx[o]? = some u := by
        rwa [TXHolder.newTX, getElem?_insertIfNew, if_neg other] at pending
      obtain ⟨target, expiring | ⟨loop, running, sameKey, rest⟩⟩ := retiring.due u before
      · exact ⟨target, .inl expiring⟩
      · refine ⟨target, .inr ⟨{ loop with rest := loop.rest ++ more }, ?_, sameKey, ?_⟩⟩
        · exact map_eq_some_iff.mpr ⟨loop, running, rfl⟩
        · exact mem_append_left _ rest
  | enters begins =>
    refine ⟨retiring.made, fun t found => ?_⟩
    rcases begins with idle | ⟨idle, overdue⟩
    · exact absurd found (gone idle t)
    · obtain ⟨rfl, expiring | ⟨loop, running, -⟩⟩ := retiring.due t found
      · rw [overdue] at expiring
        rcases mem_cons.mp expiring with here | later
        · -- the loop for the key starts, and the transaction is listed under it
          exact ⟨rfl, .inr ⟨_, rfl, here.symm, here ▸ booked.mem_owners found⟩⟩
        · exact ⟨rfl, .inl later⟩
      · rw [idle] at running
        cases running
  | visits running =>
    refine ⟨?_, fun t pending => ?_⟩
    · rw [created_answer]
      exact retiring.made
    · rw [getElem?_tx_answer] at pending
      split_ifs at pending with other
      rw [expiring_answer, informing_answer]
      obtain ⟨target, expiring | ⟨loop, same, sameKey, visited⟩⟩ := retiring.due t pending
      · exact ⟨target, .inl expiring⟩
      · cases running.symm.trans same
        exact ⟨target, .inr ⟨_, rfl, sameKey,
          (mem_cons.mp visited).resolve_left (Ne.symm other)⟩⟩
  | finishes running =>
    refine ⟨retiring.made, fun t found => ?_⟩
    obtain ⟨target, expiring | ⟨loop, same, -, visited⟩⟩ := retiring.due t found
    · exact ⟨target, .inl expiring⟩
    · cases running.symm.trans same
      exact absurd visited not_mem_nil

end Retiring

/-- A loop of `Inform` comes to its end. -/
theorem exists_finish (validate : ℕ → J → V → Bool) (loop : Informing K V) (s : TXHolder K V J)
    (running : s.informing = some loop) :
    ∃ n s', run (step validate) s (replicate n .next) = some s' ∧
      s'.informing = none ∧ s'.expiring = s.expiring := by
  obtain ⟨key, values, rest⟩ := loop
  induction rest generalizing s with
  | nil =>
    refine ⟨1, s.finish key, ?_, rfl, rfl⟩
    simp [run_cons, step, next, running]
  | cons owner rest ih =>
    set visited := answer validate { s with informing := some ⟨key, values, rest⟩ } owner values
    have taken : step validate s .next = some visited := by
      simp only [step, next, running]
      rfl
    obtain ⟨n, s', through, idle, same⟩ := ih visited (by simp [visited])
    refine ⟨n + 1, s', ?_, idle, by simpa [visited] using same⟩
    rw [replicate_succ, run_cons, taken]
    exact through

/-- The loop that is running comes to its end when no handler interferes. -/
theorem exists_idle (validate : ℕ → J → V → Bool) (s : TXHolder K V J) :
    ∃ n s', run (step validate) s (replicate n .next) = some s' ∧ s'.busy = false := by
  -- between two keys of `Expire`, by the number of keys that are left
  have keys : ∀ (expiring : List K) (s : TXHolder K V J), s.informing = none →
      s.expiring = expiring →
      ∃ n s', run (step validate) s (replicate n .next) = some s' ∧ s'.busy = false := by
    intro expiring
    induction expiring with
    | nil => exact fun s idle none => ⟨0, s, rfl, by simp [busy, idle, none]⟩
    | cons key keys ih =>
      intro s idle overdue
      have taken : step validate s .next = some (inform { s with expiring := keys } key []) := by
        simp only [step, next, idle, overdue]
      obtain ⟨n, s', through, idle', same⟩ := exists_finish validate _
        (inform { s with expiring := keys } key []) rfl
      obtain ⟨m, s'', through', idle''⟩ := ih s' idle' same
      refine ⟨1 + (n + m), s'', ?_, idle''⟩
      rw [replicate_add, run_append, replicate_one, run_cons, taken,
        replicate_add, bind_some, run_nil, bind_some, run_append, through]
      exact through'
  cases running : s.informing with
  | none => exact keys _ s running rfl
  | some loop =>
    obtain ⟨n, s', through, idle, -⟩ := exists_finish validate loop s running
    obtain ⟨m, s'', through', idle'⟩ := keys _ s' idle rfl
    refine ⟨n + m, s'', ?_, idle'⟩
    rw [replicate_add, run_append, through]
    exact through'

theorem retired_of_booked (booked : s.Booked) : s.Retired validate := by
  intro o t pending
  obtain ⟨deadline, timed⟩ := mem_iff_exists_getElem?.mp (booked.listed o t pending).2
  refine ⟨deadline, timed, fun ms idle passed => ?_⟩
  set later : TXHolder K V J := { s with now := s.now + ms }
  have ticked : step validate s (.tick ms) = some later := rfl
  have entered : step validate later .expire = some later.expire := by
    have idle' : later.busy = false := idle
    simp [step, idle']
  have overdue : t.target ∈ later.expire.expiring := by
    refine mem_map.mpr ⟨(t.target, deadline), mem_filter.mpr ⟨?_, ?_⟩, rfl⟩
    · exact Std.ExtTreeMap.mem_toList_iff_getElem?_eq_some.mpr timed
    · exact decide_eq_true passed
  have retiring : later.expire.Retiring o t.target := by
    refine ⟨?_, fun u same => ⟨by rw [some.inj (same.symm.trans pending)], .inl overdue⟩⟩
    by_contra unmade
    exact (booked.unknown o unmade).2.1 (mem_iff_exists_getElem?.mpr ⟨t, pending⟩)
  have bookedLater : later.expire.Booked := { booked with }
  constructor
  · obtain ⟨n, s', through, idle'⟩ := exists_idle validate later.expire
    refine ⟨n, s', ?_, idle'⟩
    rw [run_cons, ticked, bind_some, run_cons, entered]
    exact through
  · intro calls s' careful through idle'
    rw [run_cons, ticked, bind_some, run_cons, entered, bind_some] at through
    have careful' := ((along_cons.mp ((along_cons.mp careful).2 _ ticked)).2 _ entered)
    have both := run_invariant (fun s => s.Booked ∧ s.Retiring o t.target)
      (fun s c s' inv met moved => ?_) ⟨bookedLater, retiring⟩ careful' through
    · exact both.2.not_mem_tx idle'
    · obtain ⟨s'', moved', moves⟩ := exists_moves validate met
      cases moved.symm.trans moved'
      exact ⟨inv.1.of_moves moves, inv.2.of_moves inv.1 moves⟩

/-! ### Whole runs -/

/-- In a run of careful calls every transaction is listed once and has a deadline, replies
exactly once, and is retired by its deadline at the latest. -/
theorem retirement (validate : ℕ → J → V → Bool) (calls : List (Call K V J))
    (careful : Along (step validate) Careful {} calls) :
    (run (step validate) {} calls).isSome ∧
      Always (step validate) (fun s => s.Listed ∧ s.Answered ∧ s.Retired validate) {} calls := by
  have reaches : ∀ before, before <+: calls →
      ∃ s, run (step validate) {} before = some s ∧ s.Booked := fun before first =>
    exists_run_of_along Booked (fun s c booked met => (exists_moves validate met).imp fun s' moved =>
      ⟨moved.1, booked.of_moves moved.2⟩) booked_empty (careful.of_prefix first)
  constructor
  · obtain ⟨s, through, -⟩ := reaches calls prefix_rfl
    rw [through]
    rfl
  · intro before s first through
    obtain ⟨s', through', booked⟩ := reaches before first
    cases through.symm.trans through'
    exact ⟨booked.listed, booked.answered, retired_of_booked booked⟩

/-- The peer that the calls below ask, under the given number. -/
def askedPeer (txid : UInt64) : TXOwner := ⟨AlignedBuffer.copy 32 [7], txid⟩

/-- A transaction that looks up a router for a local handler. -/
def localLookup (target : RouterID) : TX RouterID Unit Unit :=
  ⟨target, ⟨AlignedBuffer.zero 32, 0⟩, (), []⟩

/-- A lookup is answered, and its handler looks up another router, which times out. -/
theorem retirement_two_lookups :
    let r := AlignedBuffer.copy 32 [1]
    let calls : List (Call RouterID Unit Unit) :=
      [.newTX (askedPeer 1) (localLookup r) 15000 true false, .found r [()], .next,
        .newTX (askedPeer 2) (localLookup (AlignedBuffer.copy 32 [2])) 15000 false false, .next,
        .tick 15000, .expire, .next, .next, .next]
    (run (step fun _ _ _ => true) {} calls).isSome ∧
      Always (step fun _ _ _ => true)
        (fun s => s.Listed ∧ s.Answered ∧ s.Retired fun _ _ _ => true) {} calls := by
  exact retirement _ _ (by decide +kernel)

/-- The handler of a lookup looks up the same router again while the loop is at its entry.
The new entry of `waiting` lies before the iterator, so that the loop does not reach it, and
the end of the loop erases it: nothing ever answers the second lookup. -/
theorem second_lookup_lost :
    let r := AlignedBuffer.copy 32 [1]
    ∃ s, run (step fun _ _ _ => true) {}
        [.newTX (askedPeer 1) (localLookup r) 15000 false false, .found r [()], .next,
          .newTX (askedPeer 2) (localLookup r) 15000 false false, .next] = some s ∧
      s.busy = false ∧ s.tx[askedPeer 2]? = some (localLookup r) ∧ s.replies (askedPeer 2) = 0 ∧
      ¬ s.Listed := by
  intro r
  have lost : ∃ s, run (step fun _ _ _ => true) {}
        [.newTX (askedPeer 1) (localLookup r) 15000 false false, .found r [()], .next,
          .newTX (askedPeer 2) (localLookup r) 15000 false false, .next] = some s ∧
      s.busy = false ∧ s.tx[askedPeer 2]? = some (localLookup r) ∧ s.replies (askedPeer 2) = 0 ∧
      s.waiting = [] := by decide +kernel
  obtain ⟨s, through, idle, pending, silent, empty⟩ := lost
  refine ⟨s, through, idle, pending, silent, fun listed => ?_⟩
  have once := (listed _ _ pending).1
  rw [empty] at once
  exact cons_ne_nil _ _ once.symm

end Llarp.Dht.TXHolder

import Llarp.Dht.Key
import Llarp.Foundation.Maps
import Llarp.Foundation.Run

/-!
# Pending transactions of the hash table

`TXHolder` keeps the lookups that wait for an answer in three containers: `tx` finds the
transaction by the peer that was asked, `waiting` lists the peers that were asked for each
key, and `timeouts` has one deadline for each key.

`Inform` walks the entries of one key and answers each transaction. An answer runs handlers
of other components, and these may call `NewTX` again. The machine below therefore takes one
entry of the loop at a time, and a `newTX` step may come between two of them.
-/

set_option autoImplicit false
set_option linter.unusedSectionVars false

namespace Llarp.Dht

open Foundation

/-- A peer together with the number of a transaction. -/
structure TXOwner where
  node : Key
  txid : UInt64
  deriving DecidableEq, Repr

namespace TXOwner

/-- The order of the source: by number, then by peer. -/
instance : Ord TXOwner := ⟨compareLex (compareOn txid) (compareOn node)⟩

instance : Std.TransOrd TXOwner :=
  inferInstanceAs (Std.TransCmp (compareLex (compareOn TXOwner.txid) (compareOn TXOwner.node)))

instance : Std.LawfulEqOrd TXOwner where
  eq_of_compare {a b} same := by
    obtain ⟨sameId, sameNode⟩ := compareLex_eq_eq.mp same
    rw [TXOwner.mk.injEq]
    exact ⟨Std.LawfulEqOrd.eq_of_compare sameNode, Std.LawfulEqOrd.eq_of_compare sameId⟩

end TXOwner

/-- One transaction: what is looked up, for whom, and the values found so far. The job is the
part that the kinds of transaction do not share. -/
structure TX (K V J : Type) where
  target : K
  whoasked : TXOwner
  job : J
  valuesFound : List V := []
  deriving DecidableEq

/-- What the holder does to the world: it creates a transaction, starts it, or has it send
its reply at some time. -/
inductive Effect (K V J : Type) where
  | created (askpeer : TXOwner) (t : TX K V J)
  | started (askpeer : TXOwner) (t : TX K V J)
  | replied (askpeer : TXOwner) (t : TX K V J) (now : ℕ)
  deriving DecidableEq

/-- The loop of `Inform`: the key, the values found, and the owners still to be visited. -/
structure Informing (K V : Type) where
  key : K
  values : List V
  rest : List TXOwner
  deriving DecidableEq

/-- The pending transactions. While `Inform` runs, `informing` is its loop. While `Expire`
runs, `expiring` has the overdue keys that it has not reached yet. -/
@[ext]
structure TXHolder (K V J : Type) [Ord K] where
  waiting : List (K × TXOwner) := []
  timeouts : Std.ExtTreeMap K ℕ := ∅
  tx : Std.ExtTreeMap TXOwner (TX K V J) := ∅
  informing : Option (Informing K V) := none
  expiring : List K := []
  now : ℕ := 0
  log : List (Effect K V J) := []

/-- The calls that reach the holder, and the steps of its loops. A `newTX` that is made while
a loop runs can make a container grow (`rehash`), and the new entry of `waiting` can lie
between the iterator and the end of its range (`inside`): the container does not say where. -/
inductive Call (K V J : Type) where
  | newTX (askpeer : TXOwner) (t : TX K V J) (requestTimeout : ℕ+) (rehash inside : Bool)
  | found (key : K) (values : List V)
  | notFound (askpeer : TXOwner)
  | expire
  | next
  | tick (ms : ℕ)

namespace TXHolder

variable {K V J : Type} [Ord K] [Std.TransOrd K] [Std.LawfulEqOrd K] [DecidableEq K]

variable {values : List V} {owner : TXOwner} (validate : ℕ → J → V → Bool) (s : TXHolder K V J)
  (key : K)

/-- Whether a loop is running. -/
def busy : Bool := s.informing.isSome || !s.expiring.isEmpty

def hasPendingLookupFrom (owner : TXOwner) : Bool := s.tx.contains owner

/-- The default of `requestTimeout`. -/
instance : NeZero 15000 := ⟨by decide⟩

/-- Only the first transaction for a key is started. -/
def newTX (askpeer : TXOwner) (t : TX K V J) (requestTimeout : ℕ+) : TXHolder K V J :=
  let count := s.waiting.countP (·.1 = t.target)
  { s with
    tx := s.tx.insertIfNew askpeer t
    waiting := (t.target, askpeer) :: s.waiting
    timeouts := s.timeouts.insertIfNew t.target (s.now + requestTimeout)
    log := s.log ++ .created askpeer t :: if count = 0 then [.started askpeer t] else [] }

/-- The owners that are listed under a key. -/
def owners : List TXOwner :=
  (s.waiting.filter (·.1 = key)).map (·.2)

/-- Enter the loop of `Inform`. -/
def inform (values : List V) : TXHolder K V J :=
  { s with informing := some ⟨key, values, s.owners key⟩ }

def found (values : List V) : TXHolder K V J := s.inform key values

def notFound (askpeer : TXOwner) : TXHolder K V J :=
  match s.tx[askpeer]? with
  | none => s
  | some t => s.inform t.target []

/-- Enter the loop of `Expire`. A key that is added while it runs has a later deadline. -/
def expire : TXHolder K V J :=
  { s with expiring := (s.timeouts.toList.filter (·.2 ≤ s.now)).map (·.1) }

/-- The values that pass the check of the transaction are kept. -/
def onFound (now : ℕ) (t : TX K V J) (values : List V) : TX K V J :=
  { t with valuesFound := t.valuesFound ++ values.filter (validate now t.job) }

/-- The body of the loop: the transaction learns the values, replies and is erased. -/
def answer (owner : TXOwner) (values : List V) : TXHolder K V J :=
  match s.tx[owner]? with
  | none => s
  | some t =>
    { s with
      tx := s.tx.erase owner
      log := s.log ++ [.replied owner (onFound validate s.now t values) s.now] }

/-- The end of the loop: the key is erased from `waiting` and, by `Inform` or by the
`Expire` around it, from `timeouts`. -/
def finish : TXHolder K V J :=
  { s with
    waiting := s.waiting.filter (·.1 ≠ key)
    timeouts := s.timeouts.erase key
    informing := none }

/-- One step of the loop that is running. -/
def next : TXHolder K V J :=
  match s.informing with
  | some ⟨key, values, owner :: rest⟩ =>
    answer validate { s with informing := some ⟨key, values, rest⟩ } owner values
  | some ⟨key, _, []⟩ => s.finish key
  | none =>
    match s.expiring with
    | key :: keys => inform { s with expiring := keys } key []
    | [] => s

/-- The holder's part of a call. Growing a container under a running loop leaves the loop
with a dangling iterator, which is `none`. The event loop makes no other call before a loop
is through. -/
def step : Call K V J → Option (TXHolder K V J)
  | .newTX askpeer t requestTimeout rehash inside =>
    match s.informing with
    | none => some (s.newTX askpeer t requestTimeout)
    | some loop =>
      if rehash then none
      else
        let rest := if inside then loop.rest ++ [askpeer] else loop.rest
        some { s.newTX askpeer t requestTimeout with informing := some { loop with rest } }
  | .found key values => some (if s.busy then s else s.found key values)
  | .notFound askpeer => some (if s.busy then s else s.notFound askpeer)
  | .expire => some (if s.busy then s else s.expire)
  | .next => some (s.next validate)
  | .tick ms => some { s with now := s.now + ms }

/-! ### What the log says -/

/-- The owners for which a transaction was created. -/
def created (s : TXHolder K V J) : List TXOwner :=
  s.log.filterMap fun
    | .created askpeer _ => some askpeer
    | _ => none

/-- How often the transaction of an owner has sent its reply. -/
def replies (owner : TXOwner) : ℕ :=
  s.log.countP fun
    | .replied askpeer _ _ => askpeer = owner
    | _ => false

/-- The entry that the running loop is about to visit: its owner, its transaction if there
still is one, and the values it learns. -/
def visiting : Option (TXOwner × TX K V J × List V) :=
  match s.informing with
  | some ⟨_, values, owner :: _⟩ => s.tx[owner]?.map fun t => (owner, t, values)
  | _ => none

variable {validate : ℕ → J → V → Bool} {s s' : TXHolder K V J} {c : Call K V J}
  {o : TXOwner}

/-! ### What a visit changes -/

@[simp] theorem waiting_answer : (answer validate s owner values).waiting = s.waiting := by
  unfold answer
  split <;> rfl

@[simp] theorem timeouts_answer : (answer validate s owner values).timeouts = s.timeouts := by
  unfold answer
  split <;> rfl

@[simp] theorem informing_answer : (answer validate s owner values).informing = s.informing := by
  unfold answer
  split <;> rfl

@[simp] theorem now_answer : (answer validate s owner values).now = s.now := by
  unfold answer
  split <;> rfl

@[simp] theorem expiring_answer : (answer validate s owner values).expiring = s.expiring := by
  unfold answer
  split <;> rfl

theorem getElem?_tx_answer :
    (answer validate s owner values).tx[o]? = if owner = o then none else s.tx[o]? := by
  unfold answer
  cases found : s.tx[owner]? with
  | none =>
    split_ifs with same
    · rw [← same, found]
    · rfl
  | some t => simp only [getElem?_erase]

/-! ### What the steps log and keep -/

/-- The loops only log the replies of the transactions that they visit. -/
theorem log_next : (s.next validate).log = s.log ++ s.visiting.toList.map fun visit =>
    .replied visit.1 (onFound validate s.now visit.2.1 visit.2.2) s.now := by
  unfold next visiting
  cases s.informing with
  | none => cases s.expiring <;> simp [inform]
  | some loop =>
    obtain ⟨key, values, rest⟩ := loop
    cases rest with
    | nil => simp [finish]
    | cons owner rest =>
      cases pending : s.tx[owner]? with
      | none => simp [answer, pending]
      | some t => simp [answer, pending]

/-- A `newTX` step does what the function does, and tells the running loop. -/
theorem newTX_of_step {askpeer : TXOwner} {t : TX K V J} {requestTimeout : ℕ+}
    {rehash inside : Bool}
    (moved : s.step validate (.newTX askpeer t requestTimeout rehash inside) = some s') :
    ∃ informing, s' = { s.newTX askpeer t requestTimeout with informing } := by
  cases running : s.informing with
  | none =>
    simp only [step, running, Option.some.injEq] at moved
    exact ⟨s.informing, moved.symm⟩
  | some loop =>
    cases rehash with
    | true => simp [step, running] at moved
    | false =>
      simp only [step, running, Bool.false_eq_true, if_false, Option.some.injEq] at moved
      exact ⟨_, moved.symm⟩

/-- Every other step logs at most that a transaction was created and started. -/
theorem log_of_ne_next (other : c ≠ .next) (moved : s.step validate c = some s') :
    ∃ effects, s'.log = s.log ++ effects ∧ ∀ o t now, Effect.replied o t now ∉ effects := by
  cases c with
  | newTX askpeer t requestTimeout rehash inside =>
    obtain ⟨informing, rfl⟩ := newTX_of_step moved
    refine ⟨_, rfl, fun o u now reply => ?_⟩
    split_ifs at reply <;> simp at reply
  | found key values =>
    cases moved
    split_ifs <;> simp [found, inform]
  | notFound askpeer =>
    cases moved
    split_ifs
    · simp
    · unfold notFound
      split <;> simp [inform]
  | expire =>
    cases moved
    split_ifs <;> simp [expire]
  | next => exact absurd rfl other
  | tick ms =>
    cases moved
    exact ⟨[], by simp, by simp⟩

/-- A pending transaction was pending before, as it is now, or is the one of a `newTX`. -/
theorem pending_of_step {t : TX K V J} (moved : s.step validate c = some s')
    (pending : s'.tx[o]? = some t) :
    s.tx[o]? = some t ∨
      ∃ requestTimeout rehash inside, c = .newTX o t requestTimeout rehash inside := by
  cases c with
  | newTX askpeer u requestTimeout rehash inside =>
    obtain ⟨informing, rfl⟩ := newTX_of_step moved
    replace pending : (s.tx.insertIfNew askpeer u)[o]? = some t := pending
    rw [getElem?_insertIfNew] at pending
    split_ifs at pending with same
    · cases before : s.tx[o]? with
      | none =>
        rw [before, Option.getD_none, Option.some.injEq] at pending
        exact .inr ⟨requestTimeout, rehash, inside, by rw [same, pending]⟩
      | some old =>
        rw [before] at pending
        exact .inl pending
    · exact .inl pending
  | found key values =>
    cases moved
    split_ifs at pending <;> exact .inl pending
  | notFound askpeer =>
    cases moved
    refine .inl ?_
    split_ifs at pending
    · exact pending
    · unfold notFound at pending
      split at pending <;> exact pending
  | expire =>
    cases moved
    split_ifs at pending <;> exact .inl pending
  | next =>
    cases moved
    refine .inl ?_
    unfold next at pending
    split at pending
    · unfold answer at pending
      split at pending
      · exact pending
      · exact (getElem?_erase_eq_some.mp pending).2
    · exact pending
    · split at pending <;> exact pending
  | tick ms =>
    cases moved
    exact .inl pending

end TXHolder

end Llarp.Dht

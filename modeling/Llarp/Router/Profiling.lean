import Mathlib.Data.Nat.Basic

/-!
# Router profiles

Connections and paths that went well or failed are counted for every router. Once there are as many
as a router has chances, there must be two good ones for each bad one. Before that it takes only bad
ones to condemn a router, so a good one that uses up the chances can condemn it.

`Profiling` marks the profiles of the routers of a path one by one. What is recorded here is what
becomes of one of them.
-/

namespace Llarp

/-- The counters of a router; they do not wrap. -/
structure RouterProfile where
  connectTimeoutCount : ℕ := 0
  connectGoodCount : ℕ := 0
  pathSuccessCount : ℕ := 0
  pathFailCount : ℕ := 0
  pathTimeoutCount : ℕ := 0

def checkIsGood (fails success chances : ℕ) : Bool :=
  if fails > 0 ∧ fails + success ≥ chances then success / fails > 1
  else if success = 0 then fails < chances
  else true

theorem checkIsGood_iff {fails success chances : ℕ} :
    checkIsGood fails success chances = true ↔
      (chances ≤ fails + success → 2 * fails ≤ success) ∧ 0 < chances + fails + success := by
  rw [checkIsGood]
  split_ifs with full none
  · rw [decide_eq_true_iff, gt_iff_lt, Nat.lt_iff_add_one_le, Nat.le_div_iff_mul_le full.1]
    omega
  · rw [decide_eq_true_iff]
    omega
  · rw [iff_true_left rfl]
    omega

namespace RouterProfile

variable (disableProfiling : Bool) (p : RouterProfile) (sz chances : ℕ)

def isGoodForConnect : Bool := checkIsGood p.connectTimeoutCount p.connectGoodCount chances

def isGoodForPath : Bool :=
  if p.pathTimeoutCount > chances then false
  else checkIsGood p.pathFailCount p.pathSuccessCount chances

def markConnectTimeout : RouterProfile :=
  if disableProfiling then p else { p with connectTimeoutCount := p.connectTimeoutCount + 1 }

def markConnectSuccess : RouterProfile := { p with connectGoodCount := p.connectGoodCount + 1 }

def markHopFail : RouterProfile :=
  if disableProfiling then p else { p with pathFailCount := p.pathFailCount + 1 }

/-- The first hop of a path is not marked. -/
def markPathFail (first : Bool) : RouterProfile :=
  if disableProfiling then p
  else if first then p
  else { p with pathFailCount := p.pathFailCount + 1 }

def markPathTimeout : RouterProfile :=
  if disableProfiling then p else { p with pathTimeoutCount := p.pathTimeoutCount + 1 }

/-- A path of `sz` hops works. -/
def markPathSuccess : RouterProfile :=
  { p with
    pathFailCount := p.pathFailCount / 2
    pathTimeoutCount := 0
    pathSuccessCount := p.pathSuccessCount + sz }

/-- What is recorded moves the verdicts its own way only. -/
structure Monotone : Prop where
  connectSuccess : p.isGoodForConnect chances → p.markConnectSuccess.isGoodForConnect chances
  pathSuccess : p.isGoodForPath chances → (p.markPathSuccess sz).isGoodForPath chances
  connectTimeout : (p.markConnectTimeout disableProfiling).isGoodForConnect chances →
    p.isGoodForConnect chances
  hopFail : (p.markHopFail disableProfiling).isGoodForPath chances → p.isGoodForPath chances
  pathFail : ∀ first, (p.markPathFail disableProfiling first).isGoodForPath chances →
    p.isGoodForPath chances
  pathTimeout : (p.markPathTimeout disableProfiling).isGoodForPath chances → p.isGoodForPath chances

variable {disableProfiling p sz chances}

theorem isGoodForConnect_iff : p.isGoodForConnect chances = true ↔
    (chances ≤ p.connectTimeoutCount + p.connectGoodCount →
      2 * p.connectTimeoutCount ≤ p.connectGoodCount) ∧
      0 < chances + p.connectTimeoutCount + p.connectGoodCount :=
  checkIsGood_iff

theorem isGoodForPath_iff : p.isGoodForPath chances = true ↔ p.pathTimeoutCount ≤ chances ∧
    (chances ≤ p.pathFailCount + p.pathSuccessCount → 2 * p.pathFailCount ≤ p.pathSuccessCount) ∧
      0 < chances + p.pathFailCount + p.pathSuccessCount := by
  rw [isGoodForPath, ← checkIsGood_iff]
  split_ifs with late
  · exact iff_of_false id fun good => absurd late good.1.not_gt
  · rw [and_iff_right (Nat.le_of_not_gt late)]

/-- A failure never redeems a router. -/
theorem good_of_failure (failures timeouts : ℕ) (good : isGoodForPath { p with
    pathFailCount := p.pathFailCount + failures
    pathTimeoutCount := p.pathTimeoutCount + timeouts } chances) : p.isGoodForPath chances := by
  rw [isGoodForPath_iff] at good ⊢
  dsimp only at good
  omega

/-- A success condemns a router just if it uses up the chances and the failures are too many. -/
theorem monotone_iff (disableProfiling : Bool) (p : RouterProfile) (sz chances : ℕ) :
    p.Monotone disableProfiling sz chances ↔
      (p.connectTimeoutCount + p.connectGoodCount + 1 = chances →
        2 * p.connectTimeoutCount ≤ p.connectGoodCount + 1) ∧
      (p.pathTimeoutCount ≤ chances → p.pathFailCount + p.pathSuccessCount < chances →
        chances ≤ p.pathFailCount / 2 + (p.pathSuccessCount + sz) →
          2 * (p.pathFailCount / 2) ≤ p.pathSuccessCount + sz) := by
  constructor
  · rintro ⟨connect, path, -⟩
    rw [isGoodForConnect_iff, isGoodForConnect_iff, markConnectSuccess] at connect
    rw [isGoodForPath_iff, isGoodForPath_iff, markPathSuccess] at path
    dsimp only at connect path
    omega
  · rintro ⟨connect, path⟩
    refine ⟨?_, ?_, ?_, ?_, fun first => ?_, ?_⟩
    · rw [isGoodForConnect_iff, isGoodForConnect_iff, markConnectSuccess]
      dsimp only
      omega
    · rw [isGoodForPath_iff, isGoodForPath_iff, markPathSuccess]
      dsimp only
      omega
    · rw [markConnectTimeout]
      split_ifs
      · exact id
      · rw [isGoodForConnect_iff, isGoodForConnect_iff]
        dsimp only
        omega
    · rw [markHopFail]
      split_ifs
      · exact id
      · exact good_of_failure 1 0
    · rw [markPathFail]
      split_ifs
      · exact id
      · exact id
      · exact good_of_failure 1 0
    · rw [markPathTimeout]
      split_ifs
      · exact id
      · exact good_of_failure 0 1

/-- With two chances, a router with one timeout is condemned by its first connection. -/
theorem connection_condemns_router : ¬Monotone false { connectTimeoutCount := 1 } 1 2 :=
  fun monotone => absurd (monotone.connectSuccess (by decide)) (by decide)

end RouterProfile

end Llarp

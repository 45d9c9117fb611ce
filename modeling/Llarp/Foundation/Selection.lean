import Mathlib

/-!
# Keeping the best element of a list

A loop that walks through a list with a variable for the best element so far, and replaces it
when a candidate has a strictly greater score, ends with the first of the best candidates,
or with the initial value when no candidate beats it.
-/

namespace Foundation

variable {α β : Type*} [LinearOrder β]

/-- The best element after the loop. -/
def firstBest (candidate : α → Bool) (score : α → β) (init : α) (l : List α) : α :=
  l.foldl (fun best x => if score best < score x && candidate x then x else best) init

/-- `x` is the first among the candidates with the greatest score, and beats `init`. -/
def IsFirstBest (candidate : α → Bool) (score : α → β) (init : α) (l : List α) (x : α) : Prop :=
  ∃ before after, l = before ++ x :: after ∧ candidate x = true ∧ score init < score x ∧
    (∀ y ∈ before, candidate y = true → score y < score x) ∧
    ∀ y ∈ after, candidate y = true → score y ≤ score x

variable {candidate : α → Bool} {score : α → β} {init x : α} {l : List α}

theorem firstBest_concat :
    firstBest candidate score init (l ++ [x]) =
      if score (firstBest candidate score init l) < score x && candidate x then x
      else firstBest candidate score init l := by
  simp [firstBest]

/-- Elements that were filtered out before are not candidates. -/
theorem firstBest_filter (keep : α → Bool) :
    firstBest candidate score init (l.filter keep) =
      firstBest (fun x => keep x && candidate x) score init l := by
  rw [firstBest, firstBest, List.foldl_filter]
  congr 1
  funext best x
  cases keep x <;> simp

/-- The loop keeps the initial value, which no candidate beats, or finds the first best. -/
theorem firstBest_cases (candidate : α → Bool) (score : α → β) (init : α) (l : List α) :
    (firstBest candidate score init l = init ∧
        ∀ y ∈ l, candidate y = true → score y ≤ score init) ∨
      IsFirstBest candidate score init l (firstBest candidate score init l) := by
  -- by the last element, which is the one that the loop looks at last
  induction l using List.reverseRecOn with
  | nil => exact .inl ⟨rfl, by simp⟩
  | append_singleton l a ih =>
    rw [firstBest_concat]
    split_ifs with beats
    · rw [Bool.and_eq_true, decide_eq_true_eq] at beats
      refine .inr ⟨l, [], rfl, beats.2, ?_, ?_, by simp⟩
      · rcases ih with ⟨same, -⟩ | ⟨_, _, -, -, above, -⟩
        · rw [← same]
          exact beats.1
        · exact above.trans beats.1
      · intro y member isCandidate
        refine lt_of_le_of_lt ?_ beats.1
        rcases ih with ⟨same, bound⟩ | ⟨before, after, split, -, -, earlier, later⟩
        · rw [same]
          exact bound y member isCandidate
        · rw [split, List.mem_append, List.mem_cons] at member
          rcases member with early | rfl | late
          · exact (earlier y early isCandidate).le
          · exact le_rfl
          · exact later y late isCandidate
    · have last : candidate a = true → score a ≤ score (firstBest candidate score init l) := by
        intro isCandidate
        rw [isCandidate, Bool.and_true, decide_eq_true_eq, not_lt] at beats
        exact beats
      rcases ih with ⟨same, bound⟩ | ⟨before, after, split, isCandidate, above, earlier, later⟩
      · refine .inl ⟨same, fun y member => ?_⟩
        rw [List.mem_append, List.mem_singleton] at member
        rcases member with old | rfl
        · exact bound y old
        · rw [same] at last
          exact last
      · refine .inr ⟨before, after ++ [a], ?_, isCandidate, above, earlier, fun y member => ?_⟩
        · nth_rewrite 1 [split]
          simp
        · rw [List.mem_append, List.mem_singleton] at member
          rcases member with old | rfl
          · exact later y old
          · exact last

theorem IsFirstBest.mem (best : IsFirstBest candidate score init l x) : x ∈ l := by
  obtain ⟨before, after, rfl, -⟩ := best
  exact List.mem_append_right _ (List.mem_cons_self ..)

theorem firstBest_eq_init (bound : ∀ y ∈ l, candidate y = true → score y ≤ score init) :
    firstBest candidate score init l = init := by
  rcases firstBest_cases candidate score init l with ⟨same, -⟩ | best
  · exact same
  · have member := best.mem
    obtain ⟨-, -, -, isCandidate, above, -⟩ := best
    exact absurd (bound _ member isCandidate) (not_le.mpr above)

/-- There is only one first best element, and the loop finds it. -/
theorem IsFirstBest.firstBest_eq (best : IsFirstBest candidate score init l x) :
    firstBest candidate score init l = x := by
  obtain ⟨before, after, rfl, isCandidate, above, earlier, later⟩ := best
  have reached : score (firstBest candidate score init before) < score x := by
    rcases firstBest_cases candidate score init before with ⟨same, -⟩ | found
    · rw [same]
      exact above
    · have member := found.mem
      obtain ⟨-, -, -, was, -⟩ := found
      exact earlier _ member was
  calc firstBest candidate score init (before ++ x :: after)
      = firstBest candidate score (firstBest candidate score init (before ++ [x])) after := by
        simp [firstBest]
    _ = firstBest candidate score x after := by rw [firstBest_concat]; simp [reached, isCandidate]
    _ = x := firstBest_eq_init later

end Foundation

import Mathlib

/-!
# Runs of a partial step function

A component is a step function `σ → α → Option σ`. The result `none` says that
the step ended the component, for instance because an exception escaped from it.
A run folds the step over a list of labels.

Many properties hold only while the environment behaves. `Along step ok s as`
says that every step of the run from `s` meets `ok`, a condition on the label and
on the state before the step. Invariants are proved once for such runs, and a
condition that is exact for one step is exact for whole runs.
-/

namespace Foundation

variable {σ α : Type*}

/-- Fold a partial step over a list of labels. -/
def run (step : σ → α → Option σ) : σ → List α → Option σ
  | s, [] => some s
  | s, a :: as => (step s a).bind fun t => run step t as

/-- Every step of the run meets `ok`, up to the step that ends the component. -/
def Along (step : σ → α → Option σ) (ok : σ → α → Prop) : σ → List α → Prop
  | _, [] => True
  | s, a :: as =>
    ok s a ∧
      match step s a with
      | some t => Along step ok t as
      | none => True

/-- Every state that the run passes through, its first and last included, satisfies `good`. -/
def Always (step : σ → α → Option σ) (good : σ → Prop) (s : σ) (as : List α) : Prop :=
  ∀ before t, before <+: as → run step s before = some t → good t

variable {step : σ → α → Option σ} {ok ok' : σ → α → Prop} {good : σ → Prop}
  {s t : σ} {a : α} {as bs : List α}

@[simp] theorem run_nil : run step s [] = some s := rfl

theorem run_cons : run step s (a :: as) = (step s a).bind fun t => run step t as := rfl

theorem run_append : run step s (as ++ bs) = (run step s as).bind fun t => run step t bs := by
  induction as generalizing s with
  | nil => rfl
  | cons a as ih =>
    rw [List.cons_append, run_cons, run_cons, Option.bind_assoc]
    exact congrArg _ (funext fun t => ih)

theorem run_concat_eq_some :
    run step s (as ++ [a]) = some t ↔ ∃ m, run step s as = some m ∧ step m a = some t := by
  rw [run_append, Option.bind_eq_some_iff]
  simp [run_cons]

@[simp] theorem along_nil : Along step ok s [] := trivial

theorem along_cons :
    Along step ok s (a :: as) ↔ ok s a ∧ ∀ t, step s a = some t → Along step ok t as := by
  rw [Along]
  cases h : step s a with
  | none => simp
  | some t => simp

instance decidableAlong [∀ s a, Decidable (ok s a)] :
    ∀ s as, Decidable (Along step ok s as)
  | _, [] => isTrue trivial
  | s, a :: as =>
    match h : step s a with
    | some t =>
      have : Decidable (Along step ok t as) := decidableAlong t as
      decidable_of_iff (ok s a ∧ Along step ok t as) (by simp [along_cons, h])
    | none => decidable_of_iff (ok s a) (by simp [along_cons, h])

theorem along_append :
    Along step ok s (as ++ bs) ↔
      Along step ok s as ∧ ∀ t, run step s as = some t → Along step ok t bs := by
  induction as generalizing s with
  | nil => simp
  | cons a as ih =>
    rw [List.cons_append, along_cons, along_cons, run_cons]
    constructor
    · rintro ⟨first, rest⟩
      refine ⟨⟨first, fun t ht => (ih.mp (rest t ht)).1⟩, fun u hu => ?_⟩
      obtain ⟨t, ht, hrun⟩ := Option.bind_eq_some_iff.mp hu
      exact (ih.mp (rest t ht)).2 u hrun
    · rintro ⟨⟨first, rest⟩, tail⟩
      refine ⟨first, fun t ht => ih.mpr ⟨rest t ht, fun u hu => tail u ?_⟩⟩
      rw [ht]
      exact hu

theorem Along.of_prefix (h : Along step ok s as) (hpre : bs <+: as) : Along step ok s bs := by
  obtain ⟨rest, rfl⟩ := hpre
  exact (along_append.mp h).1

variable (inv : σ → Prop)

/-- The invariant rule: what holds at the start and is kept by every step that
meets the condition holds wherever the run ends. -/
theorem run_invariant (keeps : ∀ s a t, inv s → ok s a → step s a = some t → inv t) (start : inv s)
    (meets : Along step ok s as) (hrun : run step s as = some t) : inv t := by
  induction as generalizing s with
  | nil =>
    cases hrun
    exact start
  | cons a as ih =>
    rw [along_cons] at meets
    obtain ⟨m, hstep, hrest⟩ := Option.bind_eq_some_iff.mp hrun
    exact ih (keeps s a m start meets.1 hstep) (meets.2 m hstep) hrest

/-- The invariant rule for a component that must not be ended: if every step that meets the
condition is defined and keeps the invariant, so is the run. -/
theorem exists_run_of_along (moves : ∀ s a, inv s → ok s a → ∃ t, step s a = some t ∧ inv t)
    (start : inv s) (meets : Along step ok s as) : ∃ t, run step s as = some t ∧ inv t := by
  induction as generalizing s with
  | nil => exact ⟨s, rfl, start⟩
  | cons a as ih =>
    rw [along_cons] at meets
    obtain ⟨m, hstep, hinv⟩ := moves s a start meets.1
    rw [run_cons, hstep]
    exact ih hinv (meets.2 m hstep)

/-- The invariant rule for steps that need no condition. -/
theorem run_invariant_of_forall (keeps : ∀ s a t, inv s → step s a = some t → inv t) (start : inv s)
    (hrun : run step s as = some t) : inv t := by
  have meets : Along step (fun _ _ => True) s as := by
    clear hrun start
    induction as generalizing s with
    | nil => trivial
    | cons a as ih => exact along_cons.mpr ⟨trivial, fun t _ => ih⟩
  exact run_invariant inv (fun s a t hs _ => keeps s a t hs) start meets hrun

/-- If, in states that satisfy an invariant, a step is defined exactly when it
meets the condition, then a run is defined exactly when all its steps do. -/
theorem run_isSome_iff_along (keeps : ∀ s a t, inv s → step s a = some t → inv t)
    (exact_step : ∀ s a, inv s → ((step s a).isSome ↔ ok s a)) (start : inv s) :
    (run step s as).isSome ↔ Along step ok s as := by
  induction as generalizing s with
  | nil => simp
  | cons a as ih =>
    rw [run_cons, along_cons]
    cases hstep : step s a with
    | none =>
      have refused : ¬ ok s a := by simp [← exact_step s a start, hstep]
      simp [refused]
    | some t =>
      have met : ok s a := by simp [← exact_step s a start, hstep]
      simp [met, ih (keeps s a t start hstep)]

theorem always_cons :
    Always step good s (a :: as) ↔
      good s ∧ ∀ t, step s a = some t → Always step good t as := by
  constructor
  · intro h
    refine ⟨h [] s List.nil_prefix rfl, fun t ht before u hpre hrun => ?_⟩
    refine h (a :: before) u (List.cons_prefix_cons.mpr ⟨rfl, hpre⟩) ?_
    rw [run_cons, ht]
    exact hrun
  · rintro ⟨first, rest⟩ before u hpre hrun
    cases before with
    | nil =>
      cases hrun
      exact first
    | cons b before =>
      obtain ⟨rfl, htail⟩ := List.cons_prefix_cons.mp hpre
      obtain ⟨m, hstep, hrest⟩ := Option.bind_eq_some_iff.mp hrun
      exact rest m hstep before u htail hrest

/-- If, in states that satisfy an auxiliary invariant, a step can only lead to `good`
states exactly when it meets the condition, then `good` holds in every state of a run
exactly when every step meets the condition. -/
theorem always_iff_along (keeps : ∀ s a t, inv s → good s → ok s a → step s a = some t → inv t)
    (exact_step : ∀ s a, inv s → good s → ((∀ t, step s a = some t → good t) ↔ ok s a))
    (hinv : inv s) (hgood : good s) : Always step good s as ↔ Along step ok s as := by
  induction as generalizing s with
  | nil =>
    refine ⟨fun _ => trivial, fun _ before t hpre hrun => ?_⟩
    obtain rfl := List.prefix_nil.mp hpre
    cases hrun
    exact hgood
  | cons a as ih =>
    have exact_here := exact_step s a hinv hgood
    rw [always_cons, along_cons]
    constructor
    · rintro ⟨-, rest⟩
      have met := exact_here.mp fun t hstep => rest t hstep [] t List.nil_prefix rfl
      refine ⟨met, fun t hstep => ?_⟩
      exact (ih (keeps s a t hinv hgood met hstep) (exact_here.mpr met t hstep)).mp (rest t hstep)
    · rintro ⟨met, rest⟩
      refine ⟨hgood, fun t hstep => ?_⟩
      exact (ih (keeps s a t hinv hgood met hstep) (exact_here.mpr met t hstep)).mpr (rest t hstep)

/-- Two conditions that agree in the states of an invariant, which the first one keeps, agree
on runs. -/
theorem along_iff_along (keeps : ∀ s a t, inv s → ok s a → step s a = some t → inv t)
    (agree : ∀ s a, inv s → (ok s a ↔ ok' s a)) (start : inv s) :
    Along step ok s as ↔ Along step ok' s as := by
  induction as generalizing s with
  | nil => exact Iff.rfl
  | cons a as ih =>
    rw [along_cons, along_cons, ← agree s a start]
    refine and_congr_right fun met => forall_congr' fun t => forall_congr' fun hstep => ?_
    exact ih (keeps s a t start met hstep)

/-- The same for a component that must not be ended: a step leads to a `good` state exactly
when it meets the condition. -/
theorem run_isSome_and_always_iff_along
    (exact_step : ∀ s a, good s → ((∃ t, step s a = some t ∧ good t) ↔ ok s a))
    (hgood : good s) :
    (run step s as).isSome ∧ Always step good s as ↔ Along step ok s as := by
  induction as generalizing s with
  | nil =>
    refine iff_of_true ⟨rfl, fun before t hpre hrun => ?_⟩ trivial
    obtain rfl := List.prefix_nil.mp hpre
    cases hrun
    exact hgood
  | cons a as ih =>
    rw [always_cons, along_cons, run_cons, ← exact_step s a hgood]
    cases hstep : step s a with
    | none => simp
    | some t =>
      by_cases ht : good t
      · simp [hgood, ht, ← ih ht]
      · have refuted : ¬ Always step good t as := fun always =>
          ht (always [] t (List.nil_prefix) rfl)
        simp [ht, refuted]

end Foundation

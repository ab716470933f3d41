/-!
# Bounded iteration

A numerical method takes steps until it is satisfied or has used up its
allowance.  `Step.iterate` is that loop; what every step keeps, the loop keeps
(`Step.iterate_invariant`).
-/

namespace CurveSurvey

/-- How far a method goes. -/
structure Tolerance (K : Type) where
  /-- The absolute accuracy of the abscissa. -/
  precision : K
  /-- The number of steps that may be taken. -/
  maxIterations : Nat

/-- What one step of a method decides. -/
inductive Step (S : Type) where
  /-- This state is the result. -/
  | stop (s : S)
  /-- The method goes on from this state. -/
  | next (s : S)

namespace Step

variable {S : Type}

/-- The state a step leaves behind, whether or not it is the last. -/
def state : Step S → S
  | .stop s => s
  | .next s => s

/-- Takes steps until one stops, at most the given number of them. -/
@[specialize]
def iterate (step : S → Step S) : Nat → S → S
  | 0, s => s
  | n + 1, s =>
    match step s with
    | .stop s => s
    | .next s => iterate step n s

theorem iterate_zero (step : S → Step S) (s : S) : iterate step 0 s = s := rfl

theorem iterate_succ (step : S → Step S) (n : Nat) (s : S) :
    iterate step (n + 1) s =
      match step s with
      | .stop s => s
      | .next s => iterate step n s := rfl

/-- What every step keeps holds of the result. -/
theorem iterate_invariant {P : S → Prop} {step : S → Step S}
    (keeps : ∀ s, P s → P (step s).state) (n : Nat) {s : S} (start : P s) :
    P (iterate step n s) := by
  induction n generalizing s with
  | zero => exact start
  | succ n ih =>
    have h := keeps s start
    rw [iterate_succ]
    cases hs : step s with
    | stop t => rw [hs] at h; exact h
    | next t => rw [hs] at h; exact ih h

/-- If a step that stops changes nothing, one more step is taken from where the loop stands. -/
theorem iterate_succ_state {step : S → Step S} (stays : ∀ s t, step s = .stop t → t = s) (n : Nat)
    (s : S) : iterate step (n + 1) s = (step (iterate step n s)).state := by
  induction n generalizing s with
  | zero =>
    rw [iterate_succ, iterate_zero]
    cases step s <;> rfl
  | succ n ih =>
    rw [iterate_succ, iterate_succ step n]
    cases hs : step s with
    | stop t =>
      obtain rfl := stays s t hs
      simp [hs, state]
    | next t => exact ih t

/-- How a step of one method goes with a step of another: both stop in states related by
`Q`, or both go on from states related by `R`. -/
inductive Related {T : Type} (R Q : S → T → Prop) : Step S → Step T → Prop where
  /-- Both stop. -/
  | stop {s : S} {t : T} (h : Q s t) : Related R Q (.stop s) (.stop t)
  /-- Both go on. -/
  | next {s : S} {t : T} (h : R s t) : Related R Q (.next s) (.next t)

/-- Two methods stay together while `P` holds of the states of the first. -/
theorem iterate_related {T : Type} {P : S → Prop} {R Q : S → T → Prop} {step : S → Step S}
    {step' : T → Step T} (weaken : ∀ s t, R s t → Q s t)
    (keeps : ∀ s t, P s → R s t → Related R Q (step s) (step' t)) (n : Nat) {s : S} {t : T}
    (start : R s t) (holds : ∀ k, k < n → P (iterate step k s)) :
    Q (iterate step n s) (iterate step' n t) := by
  induction n generalizing s t with
  | zero => exact weaken s t start
  | succ n ih =>
    have h := keeps s t (holds 0 (Nat.zero_lt_succ n)) start
    rw [iterate_succ, iterate_succ]
    generalize hs : step s = r at h ⊢
    generalize step' t = r' at h ⊢
    cases h with
    | stop h => exact h
    | next h =>
      refine ih h fun k hk => ?_
      have hstage := holds (k + 1) (Nat.succ_lt_succ hk)
      rwa [iterate_succ, hs] at hstage

end Step

end CurveSurvey

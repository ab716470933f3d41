import CurveSurvey.Formula
import CurveSurvey.Proofs.Crossing

/-!
# Hiding structure

An expression that hides its structure is searched by sampling its own values, while one that
shows it is searched by sampling those of its core.

* `Solver.nextRoot_core` and `Solver.nextRoot_eq_plain` say what the search of an expression
  amounts to: a search of its core, by sampling unless its roots are checked.
* `Solver.structure_is_shortcut` is the consequence: structure can be hidden where the whole
  takes the values of its core, or their opposites.
* `Solver.hiding_loses_root` shows that a square root is not of this kind: it is undefined
  before its zero, where only the radicand changes sign.
-/

namespace CurveSurvey

namespace Solver

variable {K : Type} [Precision K]

/-- Operations that vanish exactly where their operand does are passed over. -/
theorem nextRoot_core (solver : Solver K) (c : Cursor K) (e : Expression K) :
    solver.nextRoot c e = solver.nextRoot c e.core := by
  unfold nextRoot
  induction e using Expression.inductionOnOperands with
  | step e ih =>
    by_cases hrule : e.shape.rootRule = .sameAsOperand
    · cases hops : e.operands with
      | nil => rw [Expression.core_eq_self (.inr hops)]
      | cons o rest =>
        have hstep : solver.rootSearch e c = solver.rootSearch o c := by
          rw [rootSearch_eq]
          cases hc : c.isExhausted with
          | true => rw [if_pos rfl, rootSearch_eq, if_pos hc]
          | false => simp only [hrule, hops, Bool.false_eq_true, if_false]
        rw [Expression.core_eq_core hrule hops, hstep]
        exact ih o (hops ▸ List.mem_cons_self)
    · rw [Expression.core_eq_self (.inl hrule)]

omit [Precision K] in
/-- What is searched has nothing left to pass over. -/
theorem core_rule (e : Expression K) :
    e.core.shape.rootRule ≠ .sameAsOperand ∨ e.core.operands = [] := by
  induction e using Expression.inductionOnOperands with
  | step e ih =>
    by_cases hrule : e.shape.rootRule = .sameAsOperand
    · cases hops : e.operands with
      | nil => exact .inr ((Expression.core_eq_self (.inr hops)).symm ▸ hops)
      | cons o rest =>
        rw [Expression.core_eq_core hrule hops]
        exact ih o (hops ▸ List.mem_cons_self)
    · exact .inl ((Expression.core_eq_self (.inl hrule)).symm ▸ hrule)

/-- An expression whose roots are not checked is searched by sampling its core. -/
theorem nextRoot_eq_plain (solver : Solver K) (c : Cursor K) {e : Expression K}
    (hsampled : ¬ e.core.checksRoots) (hnull : e.core.isNull solver.context ≠ some false) :
    solver.nextRoot c e = solver.nextRoot c (.plain e.core.evaluate) := by
  have hsearch : solver.rootSearch e.core c =
      if c.isExhausted then c
      else solver.sampledRoot e.core.evaluate (e.core.isNull solver.context) c := by
    rw [rootSearch_eq]
    congr 1
    dsimp only
    unfold Expression.checksRoots at hsampled
    rw [not_or] at hsampled
    cases hrule : e.core.shape.rootRule with
    | anyOperand => exact absurd hrule hsampled.1
    | firstOperand => exact absurd hrule hsampled.2
    | sameAsOperand =>
      simp only [(core_rule e).resolve_left (not_not_intro hrule)]
    | unknown => rfl
  rw [nextRoot_core, nextRoot, hsearch, nextRoot_plain]
  exact solver.sampledRoot_eq c _ hnull

/-- Structure is a shortcut: an expression that is not checked, is not known never to vanish,
and takes the values of its core or their opposites has a next root exactly if the same
function without structure has one, and it is the same. -/
theorem structure_is_shortcut [RefiningPrecision K] (solver : Solver K)
    (hvalid : solver.settings.validate = .ok solver.settings) (c : Cursor K) (e : Expression K)
    (hsampled : ¬ e.core.checksRoots) (hnull : e.core.isNull solver.context ≠ some false)
    (hvalues : e.evaluate solver.context = e.core.evaluate solver.context ∨
      Opposed (e.core.evaluate solver.context) (e.evaluate solver.context) ∧
        (solver.rootScan c e.core.evaluate).RefinesDefined) :
    let shown := solver.nextRoot c e
    let hidden := solver.nextRoot c (.plain e.evaluate)
    (shown.isExhausted = false ↔ hidden.isExhausted = false) ∧
      shown.position = hidden.position := by
  intro shown hidden
  have hshown : shown = _ :=
    (solver.nextRoot_eq_plain c hsampled hnull).trans (solver.nextRoot_plain c e.core.evaluate)
  have hhidden : hidden = _ := solver.nextRoot_plain c e.evaluate
  rw [hshown, hhidden]
  simp only [Cursor.isExhausted_presented, Cursor.position_presented]
  rcases hvalues with hsame | ⟨hopposed, hdef⟩
  · have hscan : solver.rootScan c e.evaluate = solver.rootScan c e.core.evaluate := by
      rw [rootScan, scan, hsame]
      rfl
    rw [hscan]
    exact ⟨Iff.rfl, rfl⟩
  · have hrun := (solver.opposes_rootScan hvalid c hopposed hdef).agrees
    rw [hrun.isExhausted]
    exact ⟨Iff.rfl, hrun.position.symm⟩

/-- The opposite of a step has its root where the step has it, with and without structure. -/
theorem opposite_step_hides :
    (Settings.standard : Settings Float).validate = .ok Settings.standard ∧
      ¬ plainStep.opposite.core.checksRoots ∧ plainStep.opposite.core.isNull {} ≠ some false ∧
      Opposed (plainStep.opposite.core.evaluate {}) (plainStep.opposite.evaluate {}) ∧
      let shown := (Solver.standard {}).nextRoot twoSteps plainStep.opposite
      let hidden := (Solver.standard {}).nextRoot twoSteps (.plain plainStep.opposite.evaluate)
      shown.isExhausted = false ∧ hidden.isExhausted = false ∧
        shown.position = hidden.position := by
  have hcore : plainStep.opposite.core = plainStep := by
    rw [Expression.core_eq_core rfl rfl, Expression.core_eq_self (.inr rfl)]
  have hsampled : ¬ plainStep.checksRoots := by
    rintro (h | h) <;> cases h
  have hnull : plainStep.isNull {} ≠ some false := by
    rintro ⟨⟩
  have hopposed : Opposed (plainStep.evaluate {}) (plainStep.opposite.evaluate {}) :=
    fun x => .refl _
  have hdefined : ∀ x, Scalar.isNaN (plainStep.evaluate {} x) = false := by
    intro x
    show Scalar.isNaN (if x < 1.2e-6 then -1 else 1 : Float) = false
    split <;> decide +kernel
  have hfound : ((Solver.standard {}).nextRoot twoSteps plainStep.opposite).isExhausted =
      false := by
    rw [nextRoot_eq_plain _ _ (hcore.symm ▸ hsampled) (hcore.symm ▸ hnull), hcore, nextRoot_plain,
      Cursor.isExhausted_presented,
      isExhausted_run_twoSteps _ rfl (show 4 ≤ 100000 by decide)]
    decide +kernel
  obtain ⟨hiff, hposition⟩ := structure_is_shortcut (Solver.standard {}) standard_valid twoSteps
    plainStep.opposite (hcore.symm ▸ hsampled) (hcore.symm ▸ hnull)
    (.inr (hcore.symm ▸ ⟨hopposed, fun _ _ => SignChange.staysDefined hdefined _ _ _⟩))
  rw [hcore]
  exact ⟨standard_valid, hsampled, hnull, hopposed, hfound, hiff.1 hfound, hposition⟩

/-! ## A square root -/

/-- The square root of a line that crosses zero at `1.2e-6`, as a formula that shows its
structure. -/
def rootOfLine : Formula := .unary .sqrt (.binary .sub .var (.constant 1.2e-6))

/-- So structure is more than a shortcut.  The line changes sign at its zero, while its square
root is undefined before it, which no sample shows to be a root. -/
theorem hiding_loses_root :
    let e := Formula.toExpression Float rootOfLine
    ((Solver.standard {}).nextRoot twoSteps e).isExhausted = false ∧
      ((Solver.standard {}).nextRoot twoSteps (.plain e.evaluate)).isExhausted = true := by
  intro e
  have hcore : e.core = Formula.toExpression Float (.binary .sub .var (.constant 1.2e-6)) := by
    rw [Expression.core_eq_core rfl rfl]
    exact Expression.core_eq_self (.inl (by decide))
  constructor
  · rw [nextRoot_eq_plain _ _ (by rw [hcore]; rintro (h | h) <;> cases h)
      (by rw [hcore]; rintro ⟨⟩), hcore, nextRoot_plain,
      Cursor.isExhausted_presented, isExhausted_run_twoSteps _ rfl (show 4 ≤ 100000 by decide)]
    decide +kernel
  · rw [nextRoot_plain, Cursor.isExhausted_presented,
      isExhausted_run_twoSteps _ rfl (show 4 ≤ 100000 by decide)]
    decide +kernel

end Solver

end CurveSurvey

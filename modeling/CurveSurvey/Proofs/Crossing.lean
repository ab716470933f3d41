import CurveSurvey.Proofs.Coverage
import CurveSurvey.Proofs.Refinement.Opposite

/-!
# Exchanging two curves

Exchanging two expressions turns their difference into its opposite, so a search for their
intersections takes the same course, with one exception: a search for a change of sign that
meets an undefined difference between two defined ones goes on in another half.

* `Scan.RefinesDefined` excludes this exception, and `Solver.intersection_comm` is the law
  without it.
* `Solver.exchange_changes_intersections` is the exception: a gap in one curve lets the two
  orders of the curves disagree on whether they meet.
-/

namespace CurveSurvey

open Scalar (Same)

variable {K : Type} [Precision K]

/-- The accuracy of usable settings is positive. -/
theorem Settings.absolutePrecision_pos [RefiningPrecision K] {s : Settings K}
    (h : s.validate = .ok s) : 0 < s.absolutePrecision := by
  unfold validate at h
  split at h
  · cases h
  · rename_i hprecision
    simp only [Bool.or_eq_true, Bool.not_eq_true', decide_eq_true_eq, not_or,
      Bool.not_eq_false] at hprecision
    exact Scalar.lt_of_not_le Scalar.isNaN_zero
      (RefiningPrecision.defined_of_isFinite hprecision.1) hprecision.2

/-- Every estimate is a value of the function. -/
theorem SignChange.staysDefined {f : K → K} (hf : ∀ x, Scalar.isNaN (f x) = false) (a b : K)
    (tolerance : Tolerance K) : StaysDefined f a b tolerance := by
  intro k _
  have hgraph : (start (Point.sample f a) (Point.sample f b)).OnGraph f := ⟨rfl, rfl, rfl⟩
  have hstage := Step.iterate_invariant (fun s (hs : OnGraph f s) => hs.step tolerance.precision)
    k hgraph
  rw [hstage.estimate]
  exact hf _

/-- Where a bracket of successive samples changes sign, the refinement never goes on from an
undefined estimate. -/
def Scan.RefinesDefined (s : Scan K) : Prop :=
  ∀ {x : K} {b : Bracket K}, s.Visits x → s.classify (s.samplesFrom x) = (b, .root) →
    SignChange.StaysDefined s.f b.first.x b.last.x s.tolerance

namespace Scan

/-- A bracket shows something, and the refinement finds it at a point that is accepted. -/
def settlesOn (s : Scan K) (b : Bracket K) : Bool :=
  !(s.classify b).2.isNone && s.isValid (s.refine (s.classify b).1 (s.classify b).2)

variable {s : Scan K} {b : Bracket K}

theorem examine_of_settlesOn (h : s.settlesOn b = true) :
    ∃ c, (s.examine Observer.silent b ()).1 = some c ∧ c.isExhausted = false := by
  rw [settlesOn, Bool.and_eq_true, Bool.not_eq_true'] at h
  rw [examine_silent, h.1, if_neg Bool.false_ne_true, if_pos h.2]
  exact ⟨_, rfl, rfl⟩

theorem examine_of_not_settlesOn (h : s.settlesOn b = false) :
    (s.examine Observer.silent b ()).1 = none := by
  rw [examine_silent]
  split
  · rfl
  · rename_i hsome
    refine if_neg fun hvalid => ?_
    rw [settlesOn, hvalid, Bool.and_true, Bool.not_eq_false'] at h
    exact hsome h

/-- A scan that is past its goal after two steps depends on its first bracket alone. -/
theorem isExhausted_run_of_two_steps (s : Scan K) (hs : s.cursor.isExhausted = false)
    (hsamples : 4 ≤ s.settings.maxSamples)
    (hfirst : s.isUnderway (s.following s.cursor.position).x = true)
    (hsecond : s.isUnderway (s.following (s.following s.cursor.position).x).x = false) :
    (s.run Observer.silent ()).1.isExhausted = !s.settlesOn (s.samplesFrom s.cursor.position) := by
  obtain ⟨n, hn⟩ : ∃ n, s.settings.maxSamples - 2 = n + 1 + 1 :=
    ⟨s.settings.maxSamples - 4, by omega⟩
  have hrest : (s.advance Observer.silent (n + 1) (s.following s.cursor.position)
      (s.following (s.following s.cursor.position).x) ()).1 = s.cursor.exhaust := by
    rw [advance, if_neg (by simp [hsecond])]
  rw [run, if_neg (by simp [hs]), hn]
  refine (congrArg Cursor.isExhausted (s.advance_silent (n + 1) s.cursor.position)).trans ?_
  rw [if_pos hfirst, hrest]
  cases hsettles : s.settlesOn (s.samplesFrom s.cursor.position) with
  | true =>
    obtain ⟨c, hc, hfound⟩ := examine_of_settlesOn hsettles
    rw [hc]
    exact hfound
  | false =>
    rw [examine_of_not_settlesOn hsettles]
    rfl

end Scan

namespace Cursor

omit [Precision K]

/-- What a search found, presented as another interest with another ordinate. -/
def presented (c : Cursor K) (i : Interest) (y : K) : Cursor K :=
  if c.isExhausted then c else c.relabel i y

@[simp] theorem isExhausted_presented (c : Cursor K) (i : Interest) (y : K) :
    (c.presented i y).isExhausted = c.isExhausted := by
  unfold presented
  split
  · rfl
  · rename_i hfound
    exact (Bool.eq_false_iff.2 hfound).symm

@[simp] theorem position_presented (c : Cursor K) (i : Interest) (y : K) :
    (c.presented i y).position = c.position := by
  unfold presented
  split <;> rfl

theorem presented_of_found {c : Cursor K} (h : c.isExhausted = false) (i : Interest) (y : K) :
    c.presented i y = c.relabel i y := if_neg (by simp [h])

end Cursor

namespace Solver

/-- The scan for the roots of a function that is only sampled. -/
def rootScan (solver : Solver K) (c : Cursor K) (f : Evaluator K) : Scan K :=
  solver.scan c f .evenOrOddRoot .compositeRoot

/-- The roots of opposite functions are found at the same abscissae. -/
theorem opposes_rootScan [RefiningPrecision K] (solver : Solver K)
    (hvalid : solver.settings.validate = .ok solver.settings) (c : Cursor K) {f g : Evaluator K}
    (hfg : Opposed (f solver.context) (g solver.context))
    (hdef : (solver.rootScan c f).RefinesDefined) :
    ((solver.rootScan c f).run Observer.silent ()).1.Opposes
      ((solver.rootScan c g).run Observer.silent ()).1 := by
  refine Scan.Opposes.run
    { cursor := ⟨rfl, rfl, rfl, rfl⟩
      values := hfg
      settings := rfl
      test := BracketTest.dual_evenOrOddRoot
      refine := fun {x b i} hx hb _ => ?_ }
  refine Refinement.opposes_root hfg (Settings.absolutePrecision_pos hvalid) fun hi => ?_
  exact hdef hx (hi ▸ hb)

/-- A function that can vanish is searched by sampling, if anything is left to search. -/
theorem sampledRoot_eq (solver : Solver K) (c : Cursor K) (f : Evaluator K) {isNull : Option Bool}
    (hnull : isNull ≠ some false) :
    (if c.isExhausted then c else solver.sampledRoot f isNull c) =
      let found := ((solver.rootScan c f).run Observer.silent ()).1
      found.presented .root found.ordinate := by
  cases hc : c.isExhausted with
  | true =>
    have hstays : ((solver.rootScan c f).run Observer.silent ()).1 = c :=
      congrArg Prod.fst (Scan.run_of_isExhausted _ Observer.silent () hc)
    rw [hstays, if_pos rfl]
    exact (if_pos hc).symm
  | false =>
    rw [if_neg Bool.false_ne_true, sampledRoot, if_neg hnull]
    rfl

/-- The next root of a function without structure. -/
theorem nextRoot_plain (solver : Solver K) (c : Cursor K) (f : Evaluator K) :
    solver.nextRoot c (.plain f) =
      let found := ((solver.rootScan c f).run Observer.silent ()).1
      found.presented .root found.ordinate := by
  rw [nextRoot, rootSearch_eq]
  exact solver.sampledRoot_eq c f (Option.some_ne_none false).symm

/-- Where two expressions meet is a root of their difference, presented with the ordinate of
the first. -/
theorem nextIntersection_eq (solver : Solver K) (c : Cursor K) (e₁ e₂ : Expression K) :
    solver.nextIntersection c e₁ e₂ =
      let found := ((solver.rootScan c (e₁.difference e₂).evaluate).run Observer.silent ()).1
      found.presented .intersection (e₁.evaluate solver.context found.position) := by
  rw [nextIntersection, nextIntersectionWith, Expression.difference, nextRoot_plain]
  dsimp only [Expression.plain, Cursor.presented]
  generalize ((solver.rootScan c _).run Observer.silent ()).1 = found
  by_cases hfound : found.isExhausted = true
  · simp only [if_pos hfound, Cursor.interest_of_isExhausted hfound]
    rfl
  · simp only [if_neg hfound]
    rfl

/-- The ordinate of an intersection is that of the curve given first. -/
theorem found_nextIntersection (solver : Solver K) (c : Cursor K) (e₁ e₂ : Expression K)
    (h : (solver.nextIntersection c e₁ e₂).isExhausted = false) :
    (solver.nextIntersection c e₁ e₂).interest = .intersection ∧
      (solver.nextIntersection c e₁ e₂).ordinate =
        e₁.evaluate solver.context (solver.nextIntersection c e₁ e₂).position := by
  rw [nextIntersection_eq] at h ⊢
  dsimp only at h ⊢
  rw [Cursor.isExhausted_presented] at h
  rw [Cursor.presented_of_found h]
  exact ⟨rfl, rfl⟩

/-- The ordinate of an intersection is that of the curve given first.  Apart from that it makes
no difference which curve is given first: both searches are exhausted, or both report the same
abscissa. -/
theorem intersection_comm [RefiningPrecision K] (solver : Solver K)
    (hvalid : solver.settings.validate = .ok solver.settings) (c : Cursor K)
    (e₁ e₂ : Expression K) :
    let c₁ := solver.nextIntersection c e₁ e₂
    let c₂ := solver.nextIntersection c e₂ e₁
    (c₁.isExhausted = false → c₁.interest = .intersection ∧
        c₁.ordinate = e₁.evaluate solver.context c₁.position) ∧
      (c₂.isExhausted = false → c₂.interest = .intersection ∧
        c₂.ordinate = e₂.evaluate solver.context c₂.position) ∧
      ((solver.rootScan c (e₁.difference e₂).evaluate).RefinesDefined →
        c₂.isExhausted = c₁.isExhausted ∧ c₂.position = c₁.position) := by
  intro c₁ c₂
  refine ⟨solver.found_nextIntersection c e₁ e₂, solver.found_nextIntersection c e₂ e₁,
    fun hdef => ?_⟩
  have hfg : Opposed ((e₁.difference e₂).evaluate solver.context)
      ((e₂.difference e₁).evaluate solver.context) := fun x =>
    Scalar.same_sub_comm (e₁.evaluate solver.context x) (e₂.evaluate solver.context x)
  have hrun := (solver.opposes_rootScan hvalid c hfg hdef).agrees
  simp only [c₁, c₂, nextIntersection_eq, Cursor.isExhausted_presented, Cursor.position_presented]
  exact ⟨hrun.isExhausted, hrun.position⟩

/-! ## A gap -/

/-- A scan of two steps sees one bracket. -/
theorem isExhausted_run_twoSteps (s : Scan Float) (hs : s.cursor = twoSteps)
    (hsamples : 4 ≤ s.settings.maxSamples) :
    (s.run Observer.silent ()).1.isExhausted =
      !s.settlesOn ⟨s.sample 0, s.sample 1e-6, s.sample 2e-6⟩ := by
  obtain ⟨cursor, f, test, refinement, settings⟩ := s
  subst hs
  obtain ⟨hfirst, hsecond⟩ := nextX_twoSteps
  let s : Scan Float := ⟨twoSteps, f, test, refinement, settings⟩
  have hunderway : s.isUnderway (twoSteps.nextX 0 1.5e-6) = true := by
    rw [hfirst]
    show (decide (twoSteps.position < 1e-6) == decide (1e-6 < twoSteps.goal)) = true
    decide +kernel
  have harrived : s.isUnderway (twoSteps.nextX (twoSteps.nextX 0 1.5e-6) 1.5e-6) = false := by
    rw [hfirst, hsecond]
    show (decide (twoSteps.position < 2e-6) == decide (2e-6 < twoSteps.goal)) = false
    decide +kernel
  rw [s.isExhausted_run_of_two_steps rfl hsamples hunderway harrived]
  exact congrArg (fun b => !s.settlesOn b) (s.samplesFrom_eq hfirst hsecond)

/-- The axis of abscissae. -/
def axis : Expression Float := .plain fun _ _ => 0

/-- A step from `-1` to `1`. -/
def plainStep : Expression Float := .plain fun _ x => if x < 1.2e-6 then -1 else 1

/-- The settings of double precision are usable. -/
theorem standard_valid :
    (Settings.standard : Settings Float).validate = .ok Settings.standard := by
  rw [Settings.validate, if_neg (by decide +kernel), if_neg (by decide), if_neg (by decide)]

/-- The step crosses the axis where the axis crosses the step. -/
theorem plainStep_crosses_axis :
    (Settings.standard : Settings Float).validate = .ok Settings.standard ∧
      ((Solver.standard {}).rootScan twoSteps (plainStep.difference axis).evaluate).RefinesDefined ∧
      let c₁ := (Solver.standard {}).nextIntersection twoSteps plainStep axis
      let c₂ := (Solver.standard {}).nextIntersection twoSteps axis plainStep
      c₁.isExhausted = false ∧ c₂.isExhausted = false ∧ c₂.position = c₁.position ∧
        c₁.ordinate = plainStep.evaluate {} c₁.position ∧ c₂.ordinate = 0 := by
  have hdefined : ∀ x, Scalar.isNaN ((plainStep.difference axis).evaluate {} x) = false := by
    intro x
    show Scalar.isNaN ((if x < 1.2e-6 then -1 else 1) - 0 : Float) = false
    split <;> decide +kernel
  have hdef : ((Solver.standard {}).rootScan twoSteps
      (plainStep.difference axis).evaluate).RefinesDefined :=
    fun _ _ => SignChange.staysDefined hdefined _ _ _
  have hfound : ((Solver.standard {}).nextIntersection twoSteps plainStep axis).isExhausted =
      false := by
    rw [nextIntersection_eq, Cursor.isExhausted_presented,
      isExhausted_run_twoSteps _ rfl (show 4 ≤ 100000 by decide)]
    decide +kernel
  obtain ⟨hordinate, hordinate', hsame⟩ :=
    intersection_comm (Solver.standard {}) standard_valid twoSteps plainStep axis
  obtain ⟨hexhausted, hposition⟩ := hsame hdef
  have hfound' := hexhausted.trans hfound
  exact ⟨standard_valid, hdef, hfound, hfound', hposition, (hordinate hfound).2,
    (hordinate' hfound').2⟩

/-- A step from `-1` to `1` with a gap around `1e-6`. -/
def gappedStep : Expression Float :=
  .plain fun _ x => if x < 9e-7 then -1 else if x < 1.1e-6 then Scalar.nan else 1

/-- So the order of the curves can decide whether they meet.  The difference is undefined at
the first estimate, after which the search goes on beyond the gap if the difference is
negative before it, and otherwise in front of the gap, where the point found is too close to
be accepted. -/
theorem exchange_changes_intersections :
    ((Solver.standard {}).nextIntersection twoSteps gappedStep axis).isExhausted = false ∧
      ((Solver.standard {}).nextIntersection twoSteps axis gappedStep).isExhausted = true := by
  rw [nextIntersection_eq, nextIntersection_eq, Cursor.isExhausted_presented,
    Cursor.isExhausted_presented, isExhausted_run_twoSteps _ rfl (show 4 ≤ 100000 by decide),
    isExhausted_run_twoSteps _ rfl (show 4 ≤ 100000 by decide)]
  constructor
  · decide +kernel
  · decide +kernel

end Solver

end CurveSurvey

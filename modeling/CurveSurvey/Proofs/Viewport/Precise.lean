import CurveSurvey.Proofs.Trace
import CurveSurvey.Proofs.Viewport.Sides

/-!
# The check in the finer precision

A sweep of a curve that is also given in a finer precision ends a side where only the finer
precision has a value.  Where the two agree, the check never fires.

* `Scan.undefined_at_border`: when a search reports a border of the undefined region with an
  undefined ordinate, the function itself has no value there.  Poles, which are given an
  undefined ordinate as well, are not reported as borders.
* `Sweep.NeverEnds` says that no search of a sweep meets the check; two such sweeps show the
  same (`Viewport.sweep_of_neverEnds`).
* `Viewport.fitPointsOfInterestPrecise_eq` is the result.
-/

namespace CurveSurvey

/-! ## Borders of the undefined region -/

namespace Scan

variable {K S : Type} [Precision K] [SignedScalar K]

/-- Only an undefined sample is reported with an undefined ordinate. -/
theorem undefined_of_settle (s : Scan K) {p : Point K} (hp : p.y = s.f p.x) (i : Interest)
    (h : Scalar.isNaN (s.settle p i).ordinate = true) :
    Scalar.isNaN (s.f (s.settle p i).position) = true := by
  have hgraph := s.snapped_y hp i
  rw [settle] at h ⊢
  rw [Cursor.found_position, ← hgraph]
  change Scalar.isNaN (if _ then 0 else (s.snapped p i).y) = true at h
  split at h
  · -- an ordinate that counts as zero is not undefined
    have hzero := (OrderedScalar.defined_of_le (SignedScalar.neg_zero_le (K := K))).2
    rw [hzero] at h
    cases h
  · exact h

/-- A border that is reported with an undefined ordinate is one of the function itself. -/
theorem undefined_at_border (s : Scan K) {iterations : Nat}
    (hs : s.refinement = .dichotomy iterations) (observe : Observer K S) (state : S)
    (hborder : (s.run observe state).1.interest = .discontinuity)
    (h : Scalar.isNaN (s.run observe state).1.solution.y = true) :
    Scalar.isNaN (s.f (s.run observe state).1.solution.x) = true := by
  have hfound : (s.run observe state).1.isExhausted = false := by
    by_contra hexhausted
    rw [Cursor.interest_of_isExhausted (Bool.not_eq_false _ ▸ hexhausted)] at hborder
    cases hborder
  obtain ⟨b, narrowed, i, -, -, -, hc⟩ := s.run_settles observe state hfound
  rw [Cursor.solution, hborder] at h ⊢
  rw [hc] at hborder h ⊢
  obtain rfl : i = .discontinuity := hborder
  have hp : (s.refine narrowed .discontinuity).y = s.f (s.refine narrowed .discontinuity).x := by
    rw [refine, hs]
    exact GoldenBracket.dichotomy_y s.f _ _ (i := .discontinuity) (by decide) rfl iterations
  exact s.undefined_of_settle hp _ h

end Scan

/-! ## Sweeps that do not meet the check -/

namespace Sweep

variable {K S : Type} [Precision K]

/-- No search finds a border at which only this precision has no value. -/
def NeverEnds (w : Sweep K) (solver : Solver K) (observe : Observer K S) : Prop :=
  ∀ c state, w.endsAt (solver.nextObserved c w.f w.test w.refinement observe state).1 = false

theorem neverEnds [SignedScalar K] {w : Sweep K} {iterations : Nat}
    (hw : w.refinement = .dichotomy iterations) {solver : Solver K}
    (h : ∀ t, Scalar.isNaN (w.f solver.context t) = true → w.isLossAt t = false)
    (observe : Observer K S) : w.NeverEnds solver observe := by
  intro c state
  rw [Bool.eq_false_iff]
  intro hends
  simp only [endsAt, Bool.and_eq_true, beq_iff_eq] at hends
  obtain ⟨⟨hborder, hnan⟩, hloss⟩ := hends
  have hundefined := (solver.scan c w.f w.test w.refinement).undefined_at_border hw observe state
    hborder hnan
  exact Bool.false_ne_true ((h _ hundefined).symm.trans hloss)

variable {w : Sweep K} {isLossAt : K → Bool} {solver : Solver K} {observe : Observer K S}

/-- The check that a side does not meet does not matter to it. -/
theorem fitSide_of_neverEnds (h : w.NeverEnds solver observe)
    (h' : { w with isLossAt := isLossAt }.NeverEnds solver observe)
    (fit : Rect K → Point K → Rect K) (snapshotAt left : Nat) (c : Cursor K) (state : S)
    (snapshot r : Rect K) :
    { w with isLossAt := isLossAt }.fitSide solver observe fit snapshotAt left c state snapshot r =
      w.fitSide solver observe fit snapshotAt left c state snapshot r := by
  induction left generalizing c state snapshot r with
  | zero => rfl
  | succ left ih =>
    have hnot := h c state
    have hnot' := h' c state
    dsimp only at hnot'
    rw [fitSide, fitSide]
    dsimp only
    rw [hnot, hnot']
    split
    · rfl
    · exact ih _ _ _ _

end Sweep

namespace Viewport

variable {K S : Type} [Precision K]

theorem sweep_of_neverEnds (v : Viewport K) {w : Sweep K} {isLossAt : K → Bool}
    {observe : Observer K S} (h : w.NeverEnds (Solver.standard v.context) observe)
    (h' : { w with isLossAt := isLossAt }.NeverEnds (Solver.standard v.context) observe)
    (vertical : Bool) (state : S) :
    v.sweep { w with isLossAt := isLossAt } vertical observe state =
      v.sweep w vertical observe state := by
  have hside : ∀ c state r, v.fitSide { w with isLossAt := isLossAt } vertical observe c state r =
      v.fitSide w vertical observe c state r := fun c state r =>
    Sweep.fitSide_of_neverEnds h h' _ _ _ c state _ r
  simp only [sweep, hside]
  rfl

/-- The points of interest of a curve are the same with and without the finer precision, if
that has a value nowhere but where the curve has one. -/
theorem fitPointsOfInterestPrecise_eq [SignedScalar K] {P : Type} [Scalar P] [Widening K P]
    (v : Viewport K) (curve : Curve K) (precise : Curve P) (vertical : Bool)
    (h : ∀ t : K, Scalar.isNaN (searched vertical (curve v.context t)) = true →
      Scalar.isFinite (searched vertical (precise v.context (Widening.widen t))) = false) :
    v.fitPointsOfInterestPrecise curve precise vertical = v.fitPointsOfInterest curve vertical := by
  let isLossAt (t : K) : Bool :=
    Scalar.isFinite (searched vertical (precise v.context (Widening.widen t)))
  let w := v.landmarkSweep curve vertical fun _ => false
  have hends : w.NeverEnds (Solver.standard v.context) (Observer.listening noteSlope) :=
    Sweep.neverEnds rfl (fun _ _ => rfl) _
  have hends' : { w with isLossAt := isLossAt }.NeverEnds (Solver.standard v.context)
      (Observer.listening noteSlope) := Sweep.neverEnds rfl h _
  have hsweep := v.sweep_of_neverEnds hends hends' vertical
  rw [fitPointsOfInterestPrecise, fitPointsOfInterest, fitLandmarks, fitLandmarks, ← hsweep]
  rfl

/-- A curve that both precisions leave undefined to the left of zero. -/
theorem fitPointsOfInterestPrecise_half :
    let v : Viewport Float32 := Viewport.new (-1) 1 1 {} 100
    let curve : Curve Float32 := fun _ t =>
      ⟨t, if Widening.widen t < (0 : Float) then Scalar.nan else 1⟩
    let precise : Curve Float := fun _ t => ⟨t, if t < 0 then Scalar.nan else 1⟩
    (∀ t : Float32, Scalar.isNaN (searched false (curve v.context t)) = true →
      Scalar.isFinite (searched false (precise v.context (Widening.widen t))) = false) ∧
      v.fitPointsOfInterestPrecise curve precise false = v.fitPointsOfInterest curve false := by
  intro v curve precise
  have hvalues : ∀ t : Float32, Scalar.isNaN (searched false (curve v.context t)) = true →
      Scalar.isFinite (searched false (precise v.context (Widening.widen t))) = false := by
    intro t ht
    have hone : Scalar.isNaN (1 : Float32) = false := by decide +kernel
    have hnan : Scalar.isFinite (Scalar.nan : Float) = false := by decide +kernel
    simp only [curve, precise, searched, Bool.false_eq_true, if_false] at ht ⊢
    split at ht
    · rename_i hleft
      rw [if_pos hleft]
      exact hnan
    · rw [hone] at ht
      cases ht
  exact ⟨hvalues, fitPointsOfInterestPrecise_eq v curve precise false hvalues⟩

end Viewport

end CurveSurvey

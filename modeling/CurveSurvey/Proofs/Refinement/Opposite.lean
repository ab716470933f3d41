import CurveSurvey.Proofs.Opposite
import CurveSurvey.Proofs.Refinement
import CurveSurvey.Proofs.Stride

/-!
# Refinements of opposite functions

Brent's searches read the ordinates through ratios, magnitudes and comparisons, so they
take the same abscissae on a function and on its opposite.

* `Descent.minimum_congr`: the search for a minimum cannot tell functions apart whose
  values are the same numbers, zeros of either sign included.
* `SignChange.Respects.find`: two searches find related points if they end at related
  estimates.
* `SignChange.opposes_find`: the search for a change of sign ends at the same abscissa on
  the opposite function if every estimate that it goes on from is defined.  An undefined
  estimate is taken for a negative one, so the search then goes on in different halves.
* `Refinement.opposes_root` puts the two together.
-/

namespace CurveSurvey

open Scalar (Same)

/-- A precision in which the accuracy asked of a minimum is a proper length. -/
class RefiningPrecision (K : Type) [Precision K] : Prop extends NumericScalar K where
  /-- Nothing finite is undefined. -/
  defined_of_isFinite : ∀ {t : K}, Scalar.isFinite t = true → Scalar.isNaN t = false
  /-- The accuracy of an abscissa does not vanish if the absolute accuracy does not. -/
  accuracy_pos : ∀ {precision : K}, 0 < precision → ∀ x : K,
    ¬ Scalar.sqrt Precision.relativePrecision * Scalar.abs x + precision ≤ 0

/-- The sum of a product that is not negative and a positive number is positive. -/
theorem Machine.refiningPrecision {K : Type} [Precision K] [Machine K] [NumericScalar K]
    (hroot : (0 : K) ≤ Scalar.sqrt Precision.relativePrecision) : RefiningPrecision K where
  defined_of_isFinite h := (Machine.exists_represents h).elim fun _ hx => hx.defined
  accuracy_pos {precision} hpos x := by
    intro hle
    obtain ⟨hsum, -, hle⟩ := Machine.le_iff_val.1 hle
    obtain ⟨-, hprecision, hpos⟩ := Machine.lt_iff_val.1 hpos
    rw [Machine.val_zero] at hle hpos
    have hroot' : 0 ≤ Machine.val (Scalar.sqrt Precision.relativePrecision : K) := by
      simpa using (Machine.le_iff_val.1 hroot).2.2
    have hnonneg := Machine.val_mul_nonneg hroot' (Machine.val_abs_nonneg x)
    have hge := (Machine.result_add hsum).ge_of_ge precision hprecision
      (le_add_of_nonneg_left hnonneg)
    exact absurd (hpos.trans_le (hge.trans hle)) (lt_irrefl 0)

instance : RefiningPrecision Float := Machine.refiningPrecision (by decide +kernel)

instance : RefiningPrecision Float32 := Machine.refiningPrecision (by decide +kernel)

/-! ## Minima -/

/-- Two points with the same abscissa and the same ordinate, up to the sign of a zero. -/
structure Point.Alike {K : Type} [Scalar K] (p q : Point K) : Prop where
  x : q.x = p.x
  y : Same q.y p.y

namespace Descent

variable {K : Type} [Precision K]

/-- Two searches that have come to the same samples. -/
structure Alike (s t : Descent K) : Prop where
  lower : t.lower = s.lower
  upper : t.upper = s.upper
  best : s.best.Alike t.best
  second : s.second.Alike t.second
  third : s.third.Alike t.third
  move : Same t.move s.move
  lastMove : Same t.lastMove s.lastMove

variable {s t : Descent K}

namespace Alike

theorem middle_eq (h : s.Alike t) : t.middle = s.middle := by
  rw [middle, middle, h.lower, h.upper]

theorem accuracy_eq (h : s.Alike t) (precision : K) :
    t.accuracy precision = s.accuracy precision := by
  rw [accuracy, accuracy, h.best.x]

theorem goldenMove_eq (h : s.Alike t) : t.goldenMove = s.goldenMove := by
  rw [goldenMove, goldenMove, h.middle_eq, h.best.x, h.lower, h.upper]

theorem narrowLower (h : s.Alike t) (x : K) :
    Alike { s with lower := x } { t with lower := x } :=
  ⟨rfl, h.upper, h.best, h.second, h.third, h.move, h.lastMove⟩

theorem narrowUpper (h : s.Alike t) (x : K) :
    Alike { s with upper := x } { t with upper := x } :=
  ⟨h.lower, rfl, h.best, h.second, h.third, h.move, h.lastMove⟩

variable [NumericScalar K]

/-- The vertex is at the same place. -/
theorem parabola (h : s.Alike t) :
    Same t.parabola.1 s.parabola.1 ∧ t.parabola.2 = s.parabola.2 := by
  have hr : Same ((t.best.x - t.second.x) * (t.best.y - t.third.y))
      ((s.best.x - s.second.x) * (s.best.y - s.third.y)) := by
    rw [h.best.x, h.second.x]
    exact (Same.refl _).mul (h.best.y.sub h.third.y)
  have hq : Same ((t.best.x - t.third.x) * (t.best.y - t.second.y))
      ((s.best.x - s.third.x) * (s.best.y - s.second.y)) := by
    rw [h.best.x, h.third.x]
    exact (Same.refl _).mul (h.best.y.sub h.second.y)
  have hdouble := (Same.refl (2 : K)).mul (hq.sub hr)
  unfold Descent.parabola
  dsimp only
  refine ⟨?_, InvolutiveScalar.abs_same hdouble⟩
  have hp : Same ((t.best.x - t.third.x) * ((t.best.x - t.third.x) * (t.best.y - t.second.y)) -
        (t.best.x - t.second.x) * ((t.best.x - t.second.x) * (t.best.y - t.third.y)))
      ((s.best.x - s.third.x) * ((s.best.x - s.third.x) * (s.best.y - s.second.y)) -
        (s.best.x - s.second.x) * ((s.best.x - s.second.x) * (s.best.y - s.third.y))) := by
    refine Same.sub ?_ ?_
    · exact (Same.of_eq (by rw [h.best.x, h.third.x])).mul hq
    · exact (Same.of_eq (by rw [h.best.x, h.second.x])).mul hr
  simp only [(Same.refl 0).lt_iff hdouble]
  split
  · exact hp.neg
  · exact hp

theorem nextMove (h : s.Alike t) (accuracy : K) :
    Same (t.nextMove accuracy).1 (s.nextMove accuracy).1 ∧
      Same (t.nextMove accuracy).2 (s.nextMove accuracy).2 := by
  obtain ⟨hp, hq⟩ := h.parabola
  unfold Descent.nextMove
  rw [InvolutiveScalar.abs_same h.lastMove, h.goldenMove_eq]
  split
  · dsimp only
    rw [hq, InvolutiveScalar.abs_same hp,
      InvolutiveScalar.abs_same ((Same.refl (0.5 * s.parabola.2)).mul h.lastMove),
      h.best.x, h.lower, h.upper, h.middle_eq]
    generalize s.parabola.1 = p at hp ⊢
    generalize t.parabola.1 = p' at hp ⊢
    generalize s.parabola.2 = q
    have hmove := NumericScalar.div_same hp q
    have hu := (Same.refl s.best.x).add hmove
    simp only [(Same.refl (q * (s.lower - s.best.x))).lt_iff hp,
      hp.lt_iff (Same.refl (q * (s.upper - s.best.x))),
      (hu.sub (.refl s.lower)).lt_iff (Same.refl (2 * accuracy)),
      ((Same.refl s.upper).sub hu).lt_iff (Same.refl (2 * accuracy))]
    split
    · split
      · exact ⟨.refl _, h.move⟩
      · exact ⟨hmove, h.move⟩
    · exact ⟨.refl _, .refl _⟩
  · exact ⟨.refl _, .refl _⟩

/-- Moves that are not zero are the same number, and a zero move is not taken. -/
theorem target_eq (h : s.Alike t) {accuracy move move' : K} (hmove : Same move' move)
    (hacc : ¬ accuracy ≤ 0) : t.target accuracy move' = s.target accuracy move := by
  unfold target signed
  rw [InvolutiveScalar.abs_same hmove, h.best.x]
  simp only [(Same.refl 0).le_iff hmove]
  split
  · rename_i hle
    rcases NumericScalar.eq_or_zero hmove with heq | ⟨-, hzero⟩
    · rw [heq]
    · have habs : Same (Scalar.abs move) 0 :=
        (NumericScalar.abs_of_nonneg (OrderedScalar.beq_iff.1 hzero).2).trans (.inr hzero)
      exact absurd (((Same.refl accuracy).le_iff habs).1 hle) hacc
  · rfl

theorem place (h : s.Alike t) {u v : Point K} (huv : u.Alike v) :
    (s.place u).Alike (t.place v) := by
  unfold Descent.place
  dsimp only
  simp only [huv.y.le_iff h.best.y, huv.x, h.best.x]
  by_cases hbetter : u.y ≤ s.best.y
  · rw [if_pos hbetter, if_pos hbetter]
    split
    · have hs := h.narrowLower s.best.x
      exact ⟨hs.lower, hs.upper, huv, h.best, h.second, h.move, h.lastMove⟩
    · have hs := h.narrowUpper s.best.x
      exact ⟨hs.lower, hs.upper, huv, h.best, h.second, h.move, h.lastMove⟩
  · rw [if_neg hbetter, if_neg hbetter]
    have hs : Alike (if u.x < s.best.x then { s with lower := u.x } else { s with upper := u.x })
        (if u.x < s.best.x then { t with lower := u.x } else { t with upper := u.x }) := by
      split
      · exact h.narrowLower u.x
      · exact h.narrowUpper u.x
    generalize (if u.x < s.best.x then { s with lower := u.x }
      else { s with upper := u.x }) = s at hs ⊢
    generalize (if u.x < s.best.x then { t with lower := u.x }
      else { t with upper := u.x }) = t at hs ⊢
    simp only [huv.y.le_iff hs.second.y, huv.y.le_iff hs.third.y, hs.best.x, hs.second.x,
      hs.third.x]
    split
    · exact ⟨hs.lower, hs.upper, hs.best, huv, hs.second, hs.move, hs.lastMove⟩
    · split
      · exact ⟨hs.lower, hs.upper, hs.best, hs.second, huv, hs.move, hs.lastMove⟩
      · exact hs

end Alike

end Descent

variable {K : Type} [Precision K] [RefiningPrecision K] {f g : K → K}

namespace Descent

theorem Alike.step (hfg : ∀ x, Same (g x) (f x)) {precision : K} (hpos : 0 < precision)
    {s t : Descent K} (h : s.Alike t) :
    Step.Related Alike Alike (step f precision s) (step g precision t) := by
  unfold Descent.step
  rw [h.accuracy_eq, h.best.x, h.middle_eq, h.upper, h.lower]
  dsimp only
  split
  · exact .stop h
  · obtain ⟨hmove, hlast⟩ := h.nextMove (s.accuracy precision)
    have hacc : ¬ s.accuracy precision ≤ 0 := RefiningPrecision.accuracy_pos hpos s.best.x
    refine .next (Alike.place ?_ ?_)
    · exact ⟨rfl, rfl, h.best, h.second, h.third, hmove, hlast⟩
    · rw [h.target_eq hmove hacc]
      exact ⟨rfl, hfg _⟩

/-- Functions whose values are the same numbers have their minima at the same abscissae. -/
theorem minimum_congr (hfg : ∀ x, Same (g x) (f x)) (a b : K) {tolerance : Tolerance K}
    (hpos : 0 < tolerance.precision) :
    (minimum f a b tolerance).Alike (minimum g a b tolerance) := by
  have hstart : (start f a b).Alike (start g a b) := by
    have hp : ∀ x, (Point.sample f x).Alike (Point.sample g x) := fun x => ⟨rfl, hfg x⟩
    exact ⟨rfl, rfl, hp _, hp _, hp _, .refl _, .refl _⟩
  have hfinal := Step.iterate_related (P := fun _ => True) (fun _ _ h => h)
    (fun _ _ _ h => Alike.step hfg hpos h) tolerance.maxIterations hstart fun _ _ => trivial
  exact hfinal.best

end Descent

/-! ## Changes of sign -/

/-- A point off the axis of abscissae, and its reflection across the axis. -/
structure Point.Turned {K : Type} [Scalar K] (p q : Point K) : Prop where
  x : q.x = p.x
  /-- Only zero has two forms, so the ordinate is exactly the opposite. -/
  y : q.y = -p.y
  /-- The point is above or below the axis. -/
  signed : p.y < 0 ∨ 0 < p.y

namespace SignChange

/-- The estimate that a search goes on from is defined as long as it may go on. -/
def StaysDefined (f : K → K) (a b : K) (tolerance : Tolerance K) : Prop :=
  ∀ k, k < tolerance.maxIterations →
    Scalar.isNaN (Step.iterate (step f tolerance.precision) k
      (start (Point.sample f a) (Point.sample f b))).estimate.y = false

/-- Two searches that have come to the same samples of opposite functions. -/
structure Opposes (s t : SignChange K) : Prop where
  previous : s.previous.Turned t.previous
  estimate : s.estimate.Opposes t.estimate
  counterpart : s.counterpart.Turned t.counterpart
  move : t.move = s.move
  lastMove : t.lastMove = s.lastMove

/-- Two searches that do not end yet. -/
structure Turned (s t : SignChange K) : Prop where
  previous : s.previous.Turned t.previous
  estimate : s.estimate.Turned t.estimate
  counterpart : s.counterpart.Turned t.counterpart
  move : t.move = s.move
  lastMove : t.lastMove = s.lastMove

end SignChange

section

variable {p q : Point K}

theorem Point.Opposes.turned (h : p.Opposes q) (hdef : Scalar.isNaN p.y = false)
    (hne : (p.y == 0) = false) : p.Turned q where
  x := h.x
  y := h.y.eq_of_ne_zero (by rwa [Scalar.neg_beq_zero])
  signed := Scalar.lt_or_gt_of_ne_zero hdef hne

omit [RefiningPrecision K] in
theorem Point.Turned.opposes (h : p.Turned q) : p.Opposes q := ⟨h.x, .of_eq h.y⟩

/-- A point above the axis is turned into one below it. -/
theorem Point.Turned.pos_eq (h : p.Turned q) : decide (0 < q.y) = !decide (0 < p.y) := by
  rw [h.y]
  simp only [Scalar.zero_lt_neg_iff]
  rcases h.signed with hneg | hpos
  · rw [decide_eq_true hneg, decide_eq_false (Scalar.lt_asymm hneg)]
    rfl
  · rw [decide_eq_true hpos, decide_eq_false (Scalar.lt_asymm hpos)]
    rfl

theorem Point.Turned.abs_eq (h : p.Turned q) : Scalar.abs q.y = Scalar.abs p.y := by
  rw [h.y, InvolutiveScalar.abs_neg]

/-- Ratios of ordinates stay what they are. -/
theorem Point.Turned.div_eq (h : p.Turned q) {p' q' : Point K} (h' : p'.Turned q') :
    q.y / q'.y = p.y / p'.y := by
  rw [h.y, h'.y, Scalar.neg_div_neg]

end

namespace SignChange

variable {s t : SignChange K}

namespace Turned

theorem opposed (h : s.Turned t) : s.opposed.Turned t.opposed := by
  have hsides : (decide (0 < t.estimate.y) == decide (0 < t.counterpart.y)) =
      (decide (0 < s.estimate.y) == decide (0 < s.counterpart.y)) := by
    rw [h.estimate.pos_eq, h.counterpart.pos_eq]
    cases decide (0 < s.estimate.y) <;> cases decide (0 < s.counterpart.y) <;> rfl
  unfold SignChange.opposed
  rw [hsides, h.estimate.x, h.previous.x]
  split
  · exact ⟨h.previous, h.estimate, h.previous, rfl, rfl⟩
  · exact h

theorem ordered (h : s.Turned t) : s.ordered.Turned t.ordered := by
  unfold SignChange.ordered
  rw [h.counterpart.abs_eq, h.estimate.abs_eq]
  split
  · exact ⟨h.estimate, h.counterpart, h.estimate, h.move, h.lastMove⟩
  · exact h

omit [RefiningPrecision K] in
theorem accuracy_eq (h : s.Turned t) (precision : K) :
    t.accuracy precision = s.accuracy precision := by
  rw [accuracy, accuracy, h.estimate.x]

omit [RefiningPrecision K] in
theorem halfway_eq (h : s.Turned t) : t.halfway = s.halfway := by
  rw [halfway, halfway, h.counterpart.x, h.estimate.x]

theorem interpolation_eq (h : s.Turned t) : t.interpolation = s.interpolation := by
  rw [interpolation, interpolation, h.halfway_eq, h.estimate.div_eq h.previous,
    h.previous.div_eq h.counterpart, h.estimate.div_eq h.counterpart, h.previous.x,
    h.counterpart.x, h.estimate.x]

theorem nextMove_eq (h : s.Turned t) (accuracy : K) :
    t.nextMove accuracy = s.nextMove accuracy := by
  rw [nextMove, nextMove, h.halfway_eq, h.interpolation_eq, h.lastMove, h.move,
    h.estimate.abs_eq, h.previous.abs_eq]

omit [RefiningPrecision K] in
theorem target_eq (h : s.Turned t) (accuracy move : K) :
    t.target accuracy move = s.target accuracy move := by
  rw [target, target, h.halfway_eq, h.estimate.x]

end Turned

/-- An estimate of zero ends the search, whatever the counterpart is. -/
theorem step_of_zero (f : K → K) (precision : K) (hzero : (s.estimate.y == 0) = true) :
    ∃ final, step f precision s = .stop final ∧ final.estimate = s.estimate := by
  have hopposed : s.opposed.estimate = s.estimate := by
    unfold SignChange.opposed
    split <;> rfl
  have hordered : s.opposed.ordered.estimate = s.estimate := by
    unfold SignChange.ordered
    rw [hopposed, if_neg (Scalar.not_abs_lt_of_beq_zero hzero)]
    exact hopposed
  refine ⟨s.opposed.ordered, ?_, hordered⟩
  unfold SignChange.step
  rw [if_pos]
  rw [hordered, hzero, Bool.or_true]

/-- The searches stay together as long as the estimate is defined. -/
theorem Opposes.step (hfg : Opposed f g) (precision : K) (h : s.Opposes t)
    (hdef : Scalar.isNaN s.estimate.y = false) :
    Step.Related Opposes (fun s t => s.estimate.Opposes t.estimate)
      (SignChange.step f precision s) (SignChange.step g precision t) := by
  cases hzero : s.estimate.y == 0 with
  | true =>
    have hzero' : (t.estimate.y == 0) = true := h.estimate.beq_zero.trans hzero
    obtain ⟨final, hstep, hfinal⟩ := step_of_zero f precision hzero
    obtain ⟨final', hstep', hfinal'⟩ := step_of_zero g precision hzero'
    rw [hstep, hstep']
    refine .stop ?_
    rw [hfinal, hfinal']
    exact h.estimate
  | false =>
    have hturned : s.Turned t :=
      ⟨h.previous, h.estimate.turned hdef hzero, h.counterpart, h.move, h.lastMove⟩
    have hs := hturned.opposed.ordered
    unfold SignChange.step
    generalize s.opposed.ordered = s at hs ⊢
    generalize t.opposed.ordered = t at hs ⊢
    dsimp only
    rw [hs.halfway_eq, hs.accuracy_eq, hs.estimate.y, Scalar.neg_beq_zero, hs.nextMove_eq,
      hs.target_eq]
    split
    · exact .stop hs.estimate.opposes
    · exact .next ⟨hs.estimate, hfg.sample _, hs.counterpart, rfl, rfl⟩

omit [RefiningPrecision K] in
/-- A relation of points that the start and the end of a search cannot tell apart. -/
structure Respects (R : Point K → Point K → Prop) : Prop where
  undefined : R Point.undefined Point.undefined
  onAxis : ∀ {p q : Point K}, R p q → R ⟨p.x, 0⟩ ⟨q.x, 0⟩
  beq_zero : ∀ {p q : Point K}, R p q → (q.y == 0) = (p.y == 0)
  abs_eq : ∀ {p q : Point K}, R p q → Scalar.abs q.y = Scalar.abs p.y
  signsDiffer_eq : ∀ {p q p' q' : Point K}, R p p' → R q q' →
    Bracket.signsDiffer p'.y q'.y = Bracket.signsDiffer p.y q.y

omit [RefiningPrecision K] in
/-- Two searches find related points if they start from related ones and, when they come to
search at all, end at related estimates. -/
theorem Respects.find {R : Point K → Point K → Prop} (hR : Respects R) {a a' b b' : K}
    {tolerance : Tolerance K} (ha : R (Point.sample f a) (Point.sample g a'))
    (hb : R (Point.sample f b) (Point.sample g b'))
    (hfinal : ((Point.sample f a).y == 0) = false → ((Point.sample f b).y == 0) = false →
      Bracket.signsDiffer (Point.sample f a).y (Point.sample f b).y = true →
      R (Step.iterate (SignChange.step f tolerance.precision) tolerance.maxIterations
          (start (Point.sample f a) (Point.sample f b))).estimate
        (Step.iterate (SignChange.step g tolerance.precision) tolerance.maxIterations
          (start (Point.sample g a') (Point.sample g b'))).estimate) :
    R (SignChange.find f a b tolerance) (SignChange.find g a' b' tolerance) := by
  unfold SignChange.find
  dsimp only
  rw [hR.beq_zero ha, hR.beq_zero hb, hR.signsDiffer_eq ha hb, hR.abs_eq ha, hR.abs_eq hb]
  cases hazero : (Point.sample f a).y == 0 with
  | true => exact hR.onAxis ha
  | false =>
    cases hbzero : (Point.sample f b).y == 0 with
    | true => exact hR.onAxis hb
    | false =>
      cases hsigns : Bracket.signsDiffer (Point.sample f a).y (Point.sample f b).y with
      | false => exact hR.undefined
      | true =>
        have hestimates := hfinal hazero hbzero hsigns
        simp only [Bool.false_eq_true, if_false, Bool.not_true, hR.abs_eq hestimates]
        split
        · exact hestimates
        · exact hR.undefined

theorem respects_opposes : Respects (K := K) Point.Opposes where
  undefined := Point.opposes_undefined
  onAxis h := ⟨h.x, Scalar.same_neg_zero.symm⟩
  beq_zero h := h.beq_zero
  abs_eq h := by rw [InvolutiveScalar.abs_same h.y, InvolutiveScalar.abs_neg]
  signsDiffer_eq hp hq := hp.signsDiffer_eq hq

/-- The change of sign of the opposite function is found at the same abscissa. -/
theorem opposes_find (hfg : Opposed f g) {a b : K} {tolerance : Tolerance K}
    (hdef : StaysDefined f a b tolerance) :
    (find f a b tolerance).Opposes (find g a b tolerance) := by
  have ha := hfg.sample a
  have hb := hfg.sample b
  refine respects_opposes.find ha hb fun hazero _ hsigns => ?_
  have hfirst := ha.turned (Bracket.defined_of_signsDiffer hsigns).1 hazero
  have hstart : (start (Point.sample f a) (Point.sample f b)).Opposes
      (start (Point.sample g a) (Point.sample g b)) := ⟨hfirst, hb, hfirst, rfl, rfl⟩
  exact Step.iterate_related (fun _ _ h => h.estimate)
    (fun _ _ hdef h => Opposes.step hfg tolerance.precision h hdef)
    tolerance.maxIterations hstart hdef

end SignChange

/-! ## Roots -/

namespace Refinement

theorem opposes_touchingZero {p q : Point K} (h : p.Opposes q) :
    (touchingZero p).Opposes (touchingZero q) := by
  rw [touchingZero, touchingZero, h.isNull_eq]
  split
  · exact h
  · exact Point.opposes_undefined

/-- The root that a bracket holds is where the opposite function has its root. -/
theorem opposes_root (hfg : Opposed f g) {a b : K} {i : Interest} {tolerance : Tolerance K}
    (hpos : 0 < tolerance.precision)
    (hdef : i = .root → SignChange.StaysDefined f a b tolerance) :
    (root f a b i tolerance).Opposes (root g a b i.opposite tolerance) := by
  cases i with
  | root => exact SignChange.opposes_find hfg (hdef rfl)
  | localMinimum =>
    have hsame : ∀ x, Same (-g x) (f x) := fun x => by
      simpa only [InvolutiveScalar.neg_neg] using (hfg x).neg
    have hp := Descent.minimum_congr hsame a b hpos
    refine opposes_touchingZero ⟨hp.x, ?_⟩
    exact hp.y.neg
  | localMaximum =>
    have hp := Descent.minimum_congr hfg a b hpos
    refine opposes_touchingZero ⟨hp.x, ?_⟩
    rw [Descent.maximum, Point.withY_y, InvolutiveScalar.neg_neg]
    exact hp.y
  | none | discontinuity | intersection => exact Point.opposes_undefined

end Refinement

end CurveSurvey

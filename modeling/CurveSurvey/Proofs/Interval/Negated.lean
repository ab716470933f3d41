import CurveSurvey.Proofs.Numeric

/-!
# Intervals seen from the other side

The reflection of an interval in zero is as long as the interval, and its center is the opposite
number.  So what is true of moving one end is true of moving the other.

* `Interval.lengthenedUp` and `Interval.lengthenedDown` are what becomes of an interval one end of
  which was moved (`Interval.setLower_eq`, `Interval.setUpper_eq`).
* `Interval.lengthenedDown_same`: numerically, one is the reflection of the other.
-/

namespace CurveSurvey

namespace Interval

variable {K : Type} [Scalar K]

/-- The reflection of an interval in zero. -/
def negated (i : Interval K) : Interval K := ⟨-i.upper, -i.lower⟩

/-- An interval that is too short is lengthened upward, and pulled back if it then passes the
limit. -/
def lengthenedUp (i : Interval K) (limit : K) : Interval K :=
  if i.isShort then
    let needed := minimalLength i.center
    if limit < i.lower + needed then ⟨limit - needed, limit⟩ else ⟨i.lower, i.lower + needed⟩
  else i

/-- An interval that is too short is lengthened downward, and pulled back if it then passes the
limit. -/
def lengthenedDown (i : Interval K) (limit : K) : Interval K :=
  if i.isShort then
    let needed := minimalLength i.center
    if i.upper - needed < -limit then ⟨-limit, -limit + needed⟩ else ⟨i.upper - needed, i.upper⟩
  else i

theorem setLower_eq (i : Interval K) (t limit : K) :
    i.setLower t limit = lengthenedUp { i with lower := Scalar.clamp t limit } limit := rfl

theorem setUpper_eq (i : Interval K) (t limit : K) :
    i.setUpper t limit = lengthenedDown { i with upper := Scalar.clamp t limit } limit := rfl

/-- The lower end stays, unless the interval was pulled back. -/
theorem lower_lengthenedUp (i : Interval K) (limit : K) :
    (i.lengthenedUp limit).lower = i.lower ∨
      limit < i.lower + minimalLength i.center ∧ (i.lengthenedUp limit).upper = limit := by
  rw [lengthenedUp]
  dsimp only
  split
  · split
    · exact .inr ⟨‹_›, rfl⟩
    · exact .inl rfl
  · exact .inl rfl

/-- The upper end stays, unless the interval was pulled back. -/
theorem upper_lengthenedDown (i : Interval K) (limit : K) :
    (i.lengthenedDown limit).upper = i.upper ∨
      i.upper - minimalLength i.center < -limit ∧ (i.lengthenedDown limit).lower = -limit := by
  rw [lengthenedDown]
  dsimp only
  split
  · split
    · exact .inr ⟨‹_›, rfl⟩
    · exact .inl rfl
  · exact .inl rfl

theorem lengthenedDown_of_long {i : Interval K} (h : i.isShort = false) (limit : K) :
    i.lengthenedDown limit = i := by
  simp [lengthenedDown, h]

theorem negated_negated [InvolutiveScalar K] (i : Interval K) : i.negated.negated = i := by
  simp only [negated, InvolutiveScalar.neg_neg]

variable [NumericScalar K] {i j : Interval K}

/-! ## Numerical equality -/

theorem minimalLength_same {s t : K} (h : Scalar.Same s t) :
    minimalLength s = minimalLength t := by
  rw [minimalLength, minimalLength, InvolutiveScalar.abs_same h]

theorem Same.center (h : Same i j) : Scalar.Same i.center j.center :=
  ((Scalar.Same.refl _).mul h.1).add ((Scalar.Same.refl _).mul h.2)

theorem Same.length (h : Same i j) : Scalar.Same i.length j.length := h.2.sub h.1

/-! ## The reflection -/

theorem length_negated (i : Interval K) : i.negated.length = i.length := by
  rw [length, length, negated, NumericScalar.sub_eq, InvolutiveScalar.neg_neg,
    NumericScalar.add_comm, ← NumericScalar.sub_eq]

theorem center_negated (i : Interval K) : Scalar.Same i.negated.center (-i.center) := by
  rw [center, center, negated, Scalar.mul_neg, Scalar.mul_neg, NumericScalar.add_comm]
  exact NumericScalar.neg_add _ _

theorem minimalLength_negated (i : Interval K) :
    minimalLength i.negated.center = minimalLength i.center := by
  rw [minimalLength_same i.center_negated, minimalLength, minimalLength, InvolutiveScalar.abs_neg]

theorem isShort_negated (i : Interval K) : i.negated.isShort = i.isShort := by
  have hset : i.negated.isSet = i.isSet := by
    simp only [isSet, negated, Scalar.isNaN_neg, Bool.and_comm]
  have hlength := i.length_negated
  unfold length at hlength
  rw [isShort, isShort, hset, minimalLength_negated, hlength]

/-- Lengthening downward is lengthening the reflection upward. -/
theorem lengthenedDown_same (i : Interval K) (limit : K) :
    Same (i.lengthenedDown limit) (i.negated.lengthenedUp limit).negated := by
  unfold lengthenedDown lengthenedUp
  rw [isShort_negated, minimalLength_negated]
  generalize minimalLength i.center = needed
  have hmoved : ∀ s, Scalar.Same (-s + needed) (-(s - needed)) := by
    intro s
    have h := NumericScalar.neg_add s (-needed)
    rwa [InvolutiveScalar.neg_neg, ← NumericScalar.sub_eq] at h
  have hpasses : limit < i.negated.lower + needed ↔ i.upper - needed < -limit := by
    rw [negated, (Scalar.Same.refl limit).lt_iff (hmoved i.upper), ← Scalar.neg_lt_neg_iff,
      InvolutiveScalar.neg_neg]
  cases i.isShort with
  | false =>
    simp only [Bool.false_eq_true, if_false, negated_negated]
    exact ⟨.refl _, .refl _⟩
  | true =>
    simp only [if_true, hpasses]
    split
    · exact ⟨.refl _, hmoved limit⟩
    · refine ⟨?_, .of_eq (InvolutiveScalar.neg_neg _).symm⟩
      have h := (hmoved i.upper).neg
      rw [InvolutiveScalar.neg_neg] at h
      exact h.symm

end Interval

end CurveSurvey

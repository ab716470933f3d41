import CurveSurvey.Proofs.Reflecting

/-!
# Mirrored samples

A function and its mirror image take the same values at opposite abscissae.

* `Scalar.Opposite` relates numbers that differ in their sign, and arithmetic keeps it.
* `Bracket.Mirrors` relates what two mirrored functions show; the tests of a bracket cannot
  tell one from the other (`Bracket.Mirrors.classify_eq`), and narrowing keeps it.
-/

namespace CurveSurvey

open Scalar (Same)

/-! ## Opposite numbers -/

namespace Scalar

/-- The second number is the negative of the first, up to the sign of a zero. -/
def Opposite {K : Type} [Scalar K] (s t : K) : Prop := Same t (-s)

namespace Opposite

variable {K : Type} [Scalar K] [NumericScalar K] {s s' t t' u u' : K}

theorem symm (h : Opposite s t) : Opposite t s := by
  have := h.neg
  rw [InvolutiveScalar.neg_neg] at this
  exact this.symm

theorem zero : Opposite (0 : K) 0 := same_neg_zero.symm

theorem nan : Opposite (nan : K) nan :=
  .inl ⟨OrderedScalar.isNaN_nan, by rw [isNaN_neg]; exact OrderedScalar.isNaN_nan⟩

theorem isNaN_eq (h : Opposite s t) : isNaN t = isNaN s := by
  rw [Same.isNaN_eq h, isNaN_neg]

theorem isFinite_eq (h : Opposite s t) : isFinite t = isFinite s := by
  rw [NumericScalar.isFinite_same h, NumericScalar.isFinite_neg]

theorem abs_eq (h : Opposite s t) : abs t = abs s := by
  rw [InvolutiveScalar.abs_same h, InvolutiveScalar.abs_neg]

/-- The order is turned around. -/
theorem le_iff (h : Opposite s s') (h' : Opposite t t') : s' ≤ t' ↔ t ≤ s := by
  rw [Same.le_iff h h', neg_le_neg_iff]

theorem lt_iff (h : Opposite s s') (h' : Opposite t t') : s' < t' ↔ t < s := by
  rw [Same.lt_iff h h', neg_lt_neg_iff]

theorem beq_eq (h : Opposite s s') (h' : Opposite t t') : (s' == t') = (s == t) := by
  rw [Same.beq_eq h h', neg_beq_neg]

theorem pos_iff (h : Opposite s s') : 0 < s' ↔ s < 0 := zero.lt_iff h

theorem add (h : Opposite s s') (h' : Opposite t t') : Opposite (s + t) (s' + t') :=
  (Same.add h h').trans (NumericScalar.neg_add s t)

theorem sub (h : Opposite s s') (h' : Opposite t t') : Opposite (s - t) (s' - t') :=
  (Same.sub h h').trans (same_neg_sub_neg s t)

/-- A product changes its sign with its first factor. -/
theorem mul (h : Opposite s s') (h' : Same t' t) : Opposite (s * t) (s' * t') := by
  have hproduct := Same.mul h h'
  rwa [NumericScalar.neg_mul] at hproduct

/-- A product changes its sign with its second factor. -/
theorem mul_left (h : Opposite t t') (h' : Same s' s) : Opposite (s * t) (s' * t') := by
  rw [NumericScalar.mul_comm s, NumericScalar.mul_comm s']
  exact h.mul h'

theorem div (h : Opposite s s') (u : K) : Opposite (s / u) (s' / u) := by
  have hquotient := NumericScalar.div_same h u
  rwa [NumericScalar.neg_div] at hquotient

/-- The magnitude of a quotient does not change with the sign of the divisor. -/
theorem abs_div_eq (h : Opposite s s') (h' : Same t' t) : abs (t' / s') = abs (t / s) := by
  rw [NumericScalar.abs_div_same h, NumericScalar.div_neg, InvolutiveScalar.abs_neg]
  exact InvolutiveScalar.abs_same (NumericScalar.div_same h' s)

end Opposite

end Scalar

open Scalar (Opposite)

/-! ## Points and brackets -/

variable {K : Type} [Precision K] {p p' q q' : Point K} {b b' : Bracket K}

/-- Two points are reflections of one another across the axis of ordinates. -/
structure Point.Mirrors (p q : Point K) : Prop where
  /-- The abscissae are opposite numbers. -/
  x : Opposite p.x q.x
  /-- The ordinate is the same number. -/
  y : Same q.y p.y

/-- Two brackets are reflections of one another across the axis of ordinates. -/
structure Bracket.Mirrors (b b' : Bracket K) : Prop where
  first : b.first.Mirrors b'.first
  middle : b.middle.Mirrors b'.middle
  last : b.last.Mirrors b'.last

/-- Two functions take the same values at opposite abscissae. -/
def Mirrored (f g : K → K) : Prop := ∀ {x x' : K}, Opposite x x' → Same (g x') (f x)

theorem Mirrored.sample {f g : K → K} (h : Mirrored f g) {x x' : K} (hx : Opposite x x') :
    (Point.sample f x).Mirrors (Point.sample g x') := ⟨hx, h hx⟩

/-- A function that has one value at zero is mirrored by changing the sign of its argument. -/
theorem mirrored_comp_neg [ReflectingPrecision K] {f : K → K} (hzero : Same (f (-0)) (f 0)) :
    Mirrored f fun x => f (-x) := by
  intro x x' hx
  rcases NumericScalar.eq_or_zero hx with rfl | ⟨hx', hneg⟩
  · exact .of_eq (congrArg f (InvolutiveScalar.neg_neg x))
  · -- both are a zero, and at zero there is one value
    have hvalue : ∀ t : K, (t == 0) = true → Same (f t) (f 0) := by
      intro t ht
      rcases ReflectingPrecision.zero_cases ht with rfl | rfl
      · exact .refl _
      · exact hzero
    have hx : (x == 0) = true := by rwa [← Scalar.neg_beq_zero]
    exact (hvalue _ (by rwa [Scalar.neg_beq_zero])).trans (hvalue x hx).symm

/-! ## Tests -/

variable [NumericScalar K]

theorem Point.mirrors_undefined : (Point.undefined : Point K).Mirrors Point.undefined :=
  ⟨.nan, .refl _⟩

namespace Point.Mirrors

theorem lt_iff (hp : p.Mirrors p') (hq : q.Mirrors q') : p'.y < q'.y ↔ p.y < q.y :=
  hp.y.lt_iff hq.y

theorem separates_eq (hp : p.Mirrors p') (hq : q.Mirrors q') :
    Bracket.separates p' q' = Bracket.separates p q := by
  rw [Bracket.separates, Bracket.separates, hp.y.isNaN_eq, hq.y.isNaN_eq]

theorem signsDiffer_eq (hp : p.Mirrors p') (hq : q.Mirrors q') :
    Bracket.signsDiffer p'.y q'.y = Bracket.signsDiffer p.y q.y := by
  simp only [Bracket.signsDiffer, hp.y.lt_iff (.refl 0), (Same.refl 0).lt_iff hp.y,
    hq.y.lt_iff (.refl 0), (Same.refl 0).lt_iff hq.y]

theorem isNull_eq (hp : p.Mirrors q) :
    Precision.isNull q.x q.y = Precision.isNull p.x p.y := by
  rw [Precision.isNull, Precision.isNull, Precision.nullTolerance, Precision.nullTolerance,
    hp.x.abs_eq, InvolutiveScalar.abs_same hp.y]

end Point.Mirrors

namespace Bracket.Mirrors

theorem oddRoot_eq (h : b.Mirrors b') : b'.oddRoot = b.oddRoot := by
  rw [oddRoot, oddRoot, h.first.signsDiffer_eq h.last]

theorem minimum_eq (h : b.Mirrors b') : b'.minimum = b.minimum := by
  simp only [minimum, h.middle.lt_iff h.first, h.middle.lt_iff h.last]

theorem maximum_eq (h : b.Mirrors b') : b'.maximum = b.maximum := by
  simp only [maximum, h.first.lt_iff h.middle, h.last.lt_iff h.middle]

theorem discontinuity_eq (h : b.Mirrors b') : b'.discontinuity = b.discontinuity := by
  rw [discontinuity, discontinuity, h.first.separates_eq h.last]

theorem anyInterest_eq (h : b.Mirrors b') : b'.anyInterest = b.anyInterest := by
  rw [anyInterest, anyInterest, h.oddRoot_eq, h.minimum_eq, h.maximum_eq, h.discontinuity_eq]

theorem isNoise_eq (h : b.Mirrors b') : b'.isNoise = b.isNoise := by
  rw [isNoise, isNoise, h.middle.x.abs_div_eq (h.first.y.sub h.middle.y)]

/-- No test can tell a bracket from its mirror image. -/
theorem classify_eq (h : b.Mirrors b') (test : BracketTest) :
    test.classify b' = test.classify b := by
  cases test with
  | oddRoot => exact h.oddRoot_eq
  | minimum => exact h.minimum_eq
  | maximum => exact h.maximum_eq
  | discontinuity => exact h.discontinuity_eq
  | evenOrOddRoot =>
    show b'.evenOrOddRoot = b.evenOrOddRoot
    rw [evenOrOddRoot, evenOrOddRoot, h.oddRoot_eq, h.minimum_eq, h.maximum_eq]
  | notable =>
    show b'.notable = b.notable
    rw [notable, notable, h.anyInterest_eq, h.isNoise_eq]

/-! ## Narrowing -/

variable {f g : K → K}

/-- The middle between two mirrored points is mirrored. -/
theorem halfway (hfg : Mirrored f g) (hp : p.Mirrors p') (hq : q.Mirrors q') :
    (Point.sample f (0.5 * (p.x + q.x))).Mirrors (Point.sample g (0.5 * (p'.x + q'.x))) :=
  hfg.sample ((hp.x.add hq.x).mul_left (.refl _))

theorem bisect (hfg : Mirrored f g) (least : K) (h : b.Mirrors b') :
    Step.Related Mirrors Mirrors (b.bisect f least) (b'.bisect g least) := by
  unfold Bracket.bisect
  rw [(h.last.x.sub h.first.x).abs_eq, h.first.separates_eq h.middle]
  by_cases hshort : Scalar.abs (b.last.x - b.first.x) < least
  · rw [if_pos hshort, if_pos hshort]
    exact .stop h
  · rw [if_neg hshort, if_neg hshort]
    cases separates b.first b.middle with
    | true => exact .next ⟨h.first, halfway hfg h.first h.middle, h.middle⟩
    | false => exact .next ⟨h.middle, halfway hfg h.middle h.last, h.last⟩

theorem narrowToDefined (hfg : Mirrored f g) (maxSteps : Nat) (h : b.Mirrors b') :
    (b.narrowToDefined f maxSteps).Mirrors (b'.narrowToDefined g maxSteps) := by
  unfold Bracket.narrowToDefined
  have hleast : Precision.minimalStep b'.middle.x = Precision.minimalStep b.middle.x := by
    rw [Precision.minimalStep, Precision.minimalStep, h.middle.x.abs_eq]
  rw [hleast]
  generalize Precision.minimalStep b.middle.x = least
  have hborder := Step.iterate_related (P := fun _ => True) (fun _ _ h => h)
    (fun _ _ _ h => bisect hfg least h) maxSteps h fun _ _ => trivial
  generalize Step.iterate (Bracket.bisect f least) maxSteps b = border at hborder ⊢
  generalize Step.iterate (Bracket.bisect g least) maxSteps b' = border' at hborder ⊢
  dsimp only
  rw [hborder.first.y.isNaN_eq]
  cases Scalar.isNaN border.first.y with
  | true => exact ⟨hborder.last, halfway hfg hborder.last h.last, h.last⟩
  | false => exact ⟨h.first, halfway hfg h.first hborder.first, hborder.first⟩

end Bracket.Mirrors

end CurveSurvey

import CurveSurvey.Proofs.Mirror

/-!
# Refinements of mirrored functions

The refinements that keep to the direction of a scan find mirrored points on mirrored
functions.

* `GoldenBracket.mirrors_dichotomy`: narrowing by the golden section prefers the far side in
  either direction.
* `SignChange.mirrors_find`: the search for a change of sign takes opposite moves.  The sign
  of a move is that of a divisor which is turned around with the sign of the numerator, so
  the numerator must not be zero (`SignChange.InterpolatesAway`).
* `Refinement.mirrors_refine` puts these together.
-/

namespace CurveSurvey

open Scalar (Same Opposite)

variable {K : Type} [Precision K]

/-! ## Golden sections -/

/-- Two golden brackets that are reflections of one another. -/
structure GoldenBracket.Mirrors (g g' : GoldenBracket K) : Prop where
  near : g.near.Mirrors g'.near
  innerNear : g.innerNear.Mirrors g'.innerNear
  innerFar : g.innerFar.Mirrors g'.innerFar
  far : g.far.Mirrors g'.far

namespace GoldenBracket

variable [NumericScalar K] {f h : K → K} {g g' : GoldenBracket K} {p p' q q' : Point K}

/-- The section of two mirrored points is mirrored. -/
theorem mirrors_section (hfh : Mirrored f h) {a a' b b' : K} (ha : Opposite a a')
    (hb : Opposite b b') (part : K) :
    (Point.sample f (a + part * (b - a))).Mirrors (Point.sample h (a' + part * (b' - a'))) :=
  hfh.sample (ha.add ((hb.sub ha).mul_left (.refl part)))

theorem mirrors_between (hfh : Mirrored f h) {near near' far far' : K}
    (hnear : Opposite near near') (hfar : Opposite far far') :
    (between f near far).Mirrors (between h near' far') where
  near := hfh.sample hnear
  innerNear := mirrors_section hfh hnear hfar _
  innerFar := mirrors_section hfh hnear hfar _
  far := hfh.sample hfar

theorem steepness_eq (hp : p.Mirrors p') (hq : q.Mirrors q') :
    steepness p' q' = steepness p q := by
  rw [steepness, steepness, (hq.x.sub hp.x).abs_div_eq (hq.y.sub hp.y)]

namespace Mirrors

theorem narrow (hfh : Mirrored f h) (hg : g.Mirrors g') :
    Step.Related Mirrors Mirrors (g.narrow f) (g'.narrow h) := by
  have hfar : g.farBracket.Mirrors g'.farBracket := ⟨hg.innerNear, hg.innerFar, hg.far⟩
  have hnear : g.nearBracket.Mirrors g'.nearBracket := ⟨hg.near, hg.innerNear, hg.innerFar⟩
  unfold GoldenBracket.narrow
  rw [hfar.anyInterest_eq, hnear.anyInterest_eq]
  split
  · exact .next
      ⟨hg.innerNear, hg.innerFar, mirrors_section hfh hg.innerNear.x hg.far.x _, hg.far⟩
  · split
    · exact .next
        ⟨hg.near, mirrors_section hfh hg.near.x hg.innerFar.x _, hg.innerNear, hg.innerFar⟩
    · exact .stop hg

theorem isPole_eq (hg : g.Mirrors g') : g'.isPole = g.isPole := by
  rw [isPole, isPole, steepness_eq hg.near hg.innerNear, steepness_eq hg.innerFar hg.far]

end Mirrors

theorem mirrors_dichotomy (hfh : Mirrored f h) {a a' b b' : K} (ha : Opposite a a')
    (hb : Opposite b b') (i : Interest) (iterations : Nat) :
    (dichotomy f a b i iterations).Mirrors (dichotomy h a' b' i iterations) := by
  have hfinal := Step.iterate_related (P := fun _ => True) (fun _ _ h => h)
    (fun _ _ _ hg => Mirrors.narrow hfh hg) iterations (mirrors_between hfh ha hb)
    fun _ _ => trivial
  unfold dichotomy
  dsimp only
  rw [hfinal.isPole_eq]
  split
  · exact ⟨hfinal.far.x, .refl _⟩
  · split
    · exact ⟨hfinal.far.x, .refl _⟩
    · exact hfinal.far

end GoldenBracket

/-! ## Changes of sign -/

namespace SignChange

/-- As long as the search goes on, no interpolation leads back to the estimate. -/
def InterpolatesAway (f : K → K) (a b : K) (tolerance : Tolerance K) : Prop :=
  ∀ k, k < tolerance.maxIterations →
    let s := Step.iterate (step f tolerance.precision) k
      (start (Point.sample f a) (Point.sample f b))
    ∀ next, step f tolerance.precision s = .next next →
      (s.opposed.ordered.interpolation.1 == 0) = false

/-- Two searches that have come to mirrored samples. -/
structure Mirrors (s t : SignChange K) : Prop where
  previous : s.previous.Mirrors t.previous
  estimate : s.estimate.Mirrors t.estimate
  counterpart : s.counterpart.Mirrors t.counterpart
  move : Opposite s.move t.move
  lastMove : Opposite s.lastMove t.lastMove

/-- A state in which the way to the counterpart is defined. -/
structure Straddles (f : K → K) (s : SignChange K) : Prop where
  graph : s.OnGraph f
  estimate : Scalar.isNaN s.estimate.x = false
  counterpart : Scalar.isNaN s.counterpart.x = false
  halfway : Scalar.isNaN s.halfway = false
  previous_ne : (s.previous.y == 0) = false
  counterpart_ne : (s.counterpart.y == 0) = false

/-- What holds between two steps: the previous estimate can stand in for the counterpart. -/
structure Ready (f : K → K) (s : SignChange K) : Prop where
  graph : s.OnGraph f
  estimate : Scalar.isNaN s.estimate.x = false
  counterpart : Scalar.isNaN s.counterpart.x = false
  /-- It is finite where it has to. -/
  finite : (decide (0 < s.estimate.y) == decide (0 < s.counterpart.y)) = true →
    Scalar.isFinite s.previous.x = true
  previous_ne : (s.previous.y == 0) = false
  counterpart_ne : (s.counterpart.y == 0) = false

variable [ReflectingPrecision K] {f g : K → K} {s t : SignChange K} {precision : K}

/-! ### What stays defined -/

/-- Halves of defined differences. -/
theorem defined_halfway (hestimate : Scalar.isNaN s.estimate.x = false)
    (hcounterpart : Scalar.isNaN s.counterpart.x = false)
    (hne : s.counterpart.x ≠ s.estimate.x ∨ Scalar.isFinite s.counterpart.x = true) :
    Scalar.isNaN s.halfway = false := by
  refine ReflectingPrecision.half_defined ?_
  rcases hne with hne | hfinite
  · by_contra hnan
    exact hne (ReflectingPrecision.eq_of_isNaN_sub hcounterpart hestimate
      (Bool.not_eq_false _ ▸ hnan))
  · rw [NumericScalar.sub_eq]
    exact ReflectingPrecision.add_defined hfinite (by rwa [Scalar.isNaN_neg])

theorem Ready.opposed (h : s.Ready f) : s.opposed.Straddles f := by
  have hgraph := h.graph.opposed
  unfold SignChange.opposed at hgraph ⊢
  cases hsides : decide (0 < s.estimate.y) == decide (0 < s.counterpart.y) with
  | true =>
    rw [hsides] at hgraph
    have hfinite := h.finite hsides
    have hdef := RefiningPrecision.defined_of_isFinite hfinite
    exact ⟨hgraph, h.estimate, hdef, defined_halfway h.estimate hdef (.inr hfinite),
      h.previous_ne, h.previous_ne⟩
  | false =>
    -- at one abscissa the function has one sign
    have hne : s.counterpart.x ≠ s.estimate.x := by
      intro heq
      rw [h.graph.estimate, h.graph.counterpart, heq, beq_self_eq_true] at hsides
      cases hsides
    exact ⟨h.graph, h.estimate, h.counterpart,
      defined_halfway h.estimate h.counterpart (.inl hne), h.previous_ne, h.counterpart_ne⟩

theorem Straddles.ordered (h : s.Straddles f) : s.ordered.Straddles f := by
  have hgraph := h.graph.ordered
  unfold SignChange.ordered at hgraph ⊢
  split
  · rename_i hlt
    rw [if_pos hlt] at hgraph
    -- a zero is not larger than the other ordinate
    have hne : (s.estimate.y == 0) = false := by
      by_contra hzero
      exact Scalar.not_abs_lt_of_beq_zero (Bool.not_eq_false _ ▸ hzero) hlt
    refine ⟨hgraph, h.counterpart, h.estimate, ?_, hne, hne⟩
    have hhalfway : Opposite (SignChange.halfway s)
        (0.5 * (s.estimate.x - s.counterpart.x)) :=
      Opposite.mul_left (Scalar.same_sub_comm _ _) (.refl _)
    exact hhalfway.isNaN_eq.trans h.halfway
  · exact h

/-- A search that goes on has a finite estimate, and a way to go. -/
theorem Straddles.finite (h : s.Straddles f) (hpos : 0 < precision)
    (hfar : ¬ Scalar.abs s.halfway ≤ s.accuracy precision) :
    Scalar.isFinite s.estimate.x = true ∧ (s.halfway < 0 ∨ 0 < s.halfway) := by
  constructor
  · by_contra hinfinite
    exact hfar (ReflectingPrecision.le_accuracy hpos h.estimate
      (Bool.not_eq_true _ ▸ hinfinite) h.halfway)
  · refine Scalar.lt_or_gt_of_ne_zero h.halfway ?_
    by_contra hzero
    have hzero : (s.halfway == 0) = true := Bool.not_eq_false _ ▸ hzero
    have habs : Same (Scalar.abs s.halfway) 0 :=
      (NumericScalar.abs_of_nonneg (OrderedScalar.beq_iff.1 hzero).2).trans (.inr hzero)
    exact hfar ((habs.le_iff (.refl _)).2 (ReflectingPrecision.accuracy_nonneg hpos h.estimate))

theorem Straddles.defined_target (h : s.Straddles f) (hpos : 0 < precision)
    (hfinite : Scalar.isFinite s.estimate.x = true) (move : K) :
    Scalar.isNaN (s.target (s.accuracy precision) move) = false := by
  have haccuracy := (OrderedScalar.defined_of_le
    (ReflectingPrecision.accuracy_nonneg hpos h.estimate)).2
  unfold target
  split
  · rename_i hlt
    have hmove := (Scalar.defined_of_lt hlt).2
    rw [NumericScalar.isNaN_abs] at hmove
    exact ReflectingPrecision.add_defined hfinite hmove
  · split
    · exact ReflectingPrecision.add_defined hfinite haccuracy
    · rw [NumericScalar.sub_eq]
      exact ReflectingPrecision.add_defined hfinite (by rwa [Scalar.isNaN_neg])

/-! ### Opposite moves -/

namespace Mirrors

omit [ReflectingPrecision K] in
theorem halfway [NumericScalar K] (h : s.Mirrors t) : Opposite s.halfway t.halfway :=
  (h.counterpart.x.sub h.estimate.x).mul_left (.refl _)

theorem opposed (h : s.Mirrors t) : s.opposed.Mirrors t.opposed := by
  unfold SignChange.opposed
  simp only [(Same.refl 0).lt_iff h.estimate.y, (Same.refl 0).lt_iff h.counterpart.y]
  have hwidth := h.estimate.x.sub h.previous.x
  split
  · exact ⟨h.previous, h.estimate, h.previous, hwidth, hwidth⟩
  · exact h

theorem ordered (h : s.Mirrors t) : s.ordered.Mirrors t.ordered := by
  unfold SignChange.ordered
  rw [InvolutiveScalar.abs_same h.counterpart.y, InvolutiveScalar.abs_same h.estimate.y]
  split
  · exact ⟨h.estimate, h.counterpart, h.estimate, h.move, h.lastMove⟩
  · exact h

theorem accuracy_eq (h : s.Mirrors t) (precision : K) :
    t.accuracy precision = s.accuracy precision := by
  rw [accuracy, accuracy, h.estimate.x.abs_eq]

/-- Off the axis, mirrored ordinates are one number, so their ratios are as well. -/
theorem fraction (h : s.Mirrors t) (hs : s.Straddles f) (hne : (s.estimate.y == 0) = false) :
    Opposite s.fraction.1 t.fraction.1 ∧ t.fraction.2 = s.fraction.2 := by
  have hm := (h.halfway).mul_left (.refl 2)
  unfold SignChange.fraction
  rw [h.estimate.y.eq_of_ne_zero hne, h.previous.y.eq_of_ne_zero hs.previous_ne,
    h.counterpart.y.eq_of_ne_zero hs.counterpart_ne, h.previous.x.beq_eq h.counterpart.x]
  dsimp only
  split
  · exact ⟨hm.mul (.refl _), rfl⟩
  · refine ⟨Opposite.mul_left (Opposite.sub ?_ ?_) (.refl _), rfl⟩
    · exact (hm.mul (.refl _)).mul (.refl _)
    · exact (h.estimate.x.sub h.previous.x).mul (.refl _)

/-- The numerator keeps its sign and the divisor changes it, unless there is no numerator. -/
theorem interpolation (h : s.Mirrors t) (hs : s.Straddles f) (hne : (s.estimate.y == 0) = false)
    (haway : (s.interpolation.1 == 0) = false) :
    Scalar.isNaN s.interpolation.1 = true ∧ Scalar.isNaN t.interpolation.1 = true ∨
      Same t.interpolation.1 s.interpolation.1 ∧ t.interpolation.2 = -s.interpolation.2 := by
  obtain ⟨hp, hq⟩ := h.fraction hs hne
  rw [interpolation_eq_fraction] at haway ⊢
  rw [interpolation_eq_fraction, hq]
  simp only [hp.pos_iff]
  by_cases hpos : 0 < s.fraction.1
  · rw [if_pos hpos, if_neg (Scalar.lt_asymm hpos)]
    exact .inr ⟨Same.symm hp.symm, (InvolutiveScalar.neg_neg _).symm⟩
  · by_cases hneg : s.fraction.1 < 0
    · rw [if_neg hpos, if_pos hneg]
      exact .inr ⟨hp, rfl⟩
    · -- neither sign is left, so the numerator is undefined
      rw [if_neg hpos] at haway
      rw [if_neg hpos, if_neg hneg]
      have hnan : Scalar.isNaN s.fraction.1 = true := by
        by_contra hdef
        rcases Scalar.lt_or_gt_of_ne_zero (Bool.not_eq_true _ ▸ hdef)
          (by rwa [← Scalar.neg_beq_zero]) with h | h
        · exact hneg h
        · exact hpos h
      exact .inl ⟨by rwa [Scalar.isNaN_neg], by rwa [Scalar.isNaN_neg, hp.isNaN_eq]⟩

omit [ReflectingPrecision K] in
/-- What an interpolated move must stay below is the same for a divisor of the other sign. -/
theorem bound_same [NumericScalar K] (h : s.Mirrors t) (accuracy q : K) :
    Same
      (Scalar.smaller (3 * t.halfway * -q - Scalar.abs (accuracy * -q))
        (Scalar.abs (t.lastMove * -q)))
      (Scalar.smaller (3 * s.halfway * q - Scalar.abs (accuracy * q))
        (Scalar.abs (s.lastMove * q))) := by
  have hway : Same (3 * t.halfway * -q) (3 * s.halfway * q) := by
    rw [Scalar.mul_neg]
    exact Same.symm ((h.halfway.mul_left (.refl 3)).mul (.refl q)).symm
  have hstep : Scalar.abs (t.lastMove * -q) = Scalar.abs (s.lastMove * q) := by
    rw [Scalar.mul_neg, InvolutiveScalar.abs_neg, (h.lastMove.mul (.refl q)).abs_eq]
  have hleast : Scalar.abs (accuracy * -q) = Scalar.abs (accuracy * q) := by
    rw [Scalar.mul_neg, InvolutiveScalar.abs_neg]
  rw [hstep, hleast]
  exact (hway.sub (.refl _)).smaller (.refl _)

theorem nextMove (h : s.Mirrors t) (hs : s.Straddles f) (hne : (s.estimate.y == 0) = false)
    (haway : (s.interpolation.1 == 0) = false) (accuracy : K) :
    Opposite (s.nextMove accuracy).1 (t.nextMove accuracy).1 ∧
      Opposite (s.nextMove accuracy).2 (t.nextMove accuracy).2 := by
  have hm := h.halfway
  have hinterpolation := h.interpolation hs hne haway
  unfold SignChange.nextMove
  dsimp only
  rw [h.lastMove.abs_eq, InvolutiveScalar.abs_same h.estimate.y,
    InvolutiveScalar.abs_same h.previous.y]
  split
  · generalize s.interpolation = pq at hinterpolation
    generalize t.interpolation = pq' at hinterpolation
    obtain ⟨p, q⟩ := pq
    obtain ⟨p', q'⟩ := pq'
    dsimp only at hinterpolation ⊢
    rcases hinterpolation with ⟨hnan, hnan'⟩ | ⟨hp, rfl⟩
    · -- an undefined move does not promise anything
      have hnot : ∀ {u v : K}, Scalar.isNaN u = true → ¬ 2 * u < v := by
        intro u v hu hlt
        have hdef := (Scalar.defined_of_lt hlt).1
        rw [ReflectingPrecision.isNaN_mul hu] at hdef
        cases hdef
      rw [if_neg (hnot hnan), if_neg (hnot hnan')]
      exact ⟨hm, hm⟩
    · simp only [((Same.refl 2).mul hp).lt_iff (h.bound_same accuracy q)]
      split
      · refine ⟨?_, h.move⟩
        rw [NumericScalar.div_neg]
        exact (NumericScalar.div_same hp q).neg
      · exact ⟨hm, hm⟩
  · exact ⟨hm, hm⟩

omit [ReflectingPrecision K] in
/-- Every estimate is taken on the same side of the last one, seen in the direction of the
search. -/
theorem target [NumericScalar K] (h : s.Mirrors t) (accuracy : K) {move move' : K}
    (hmove : Opposite move move') (hway : s.halfway < 0 ∨ 0 < s.halfway) :
    Opposite (s.target accuracy move) (t.target accuracy move') := by
  have haccuracy : Opposite accuracy (-accuracy) := .refl _
  unfold SignChange.target
  rw [hmove.abs_eq]
  simp only [h.halfway.pos_iff]
  split
  · exact h.estimate.x.add hmove
  · rcases hway with hneg | hpos
    · rw [if_neg (Scalar.lt_asymm hneg), if_pos hneg, NumericScalar.sub_eq]
      exact h.estimate.x.add haccuracy.symm
    · rw [if_pos hpos, if_neg (Scalar.lt_asymm hpos), NumericScalar.sub_eq]
      exact h.estimate.x.add haccuracy

/-- The searches stay together. -/
theorem step (hfg : Mirrored f g) (hpos : 0 < precision) (h : s.Mirrors t) (hs : s.Ready f)
    (haway : ∀ next, SignChange.step f precision s = .next next →
      (s.opposed.ordered.interpolation.1 == 0) = false) :
    Step.Related (fun s t => s.Mirrors t ∧ s.Ready f) (fun s t => s.estimate.Mirrors t.estimate)
      (SignChange.step f precision s) (SignChange.step g precision t) := by
  have hs := hs.opposed.ordered
  have h := h.opposed.ordered
  unfold SignChange.step at haway ⊢
  dsimp only at haway ⊢
  generalize s.opposed.ordered = s at hs h haway ⊢
  generalize t.opposed.ordered = t at h ⊢
  rw [h.accuracy_eq, h.halfway.abs_eq, h.estimate.y.beq_eq (.refl 0)]
  cases hstop : decide (Scalar.abs s.halfway ≤ s.accuracy precision) || s.estimate.y == 0 with
  | true => exact .stop h.estimate
  | false =>
    rw [hstop] at haway
    rw [Bool.or_eq_false_iff, decide_eq_false_iff_not] at hstop
    obtain ⟨hfar, hne⟩ := hstop
    obtain ⟨hfinite, hway⟩ := hs.finite hpos hfar
    have hmove := h.nextMove hs hne (haway _ rfl) (s.accuracy precision)
    refine .next ⟨⟨h.estimate, ?_, h.counterpart, hmove.1, hmove.2⟩, ?_⟩
    · exact hfg.sample (h.target _ hmove.1 hway)
    · exact
        { graph := ⟨hs.graph.estimate, rfl, hs.graph.counterpart⟩
          estimate := hs.defined_target hpos hfinite _
          counterpart := hs.counterpart
          finite := fun _ => hfinite
          previous_ne := hne
          counterpart_ne := hs.counterpart_ne }

end Mirrors

omit [ReflectingPrecision K] in
theorem mirrors_start [NumericScalar K] {p p' q q' : Point K} (hp : p.Mirrors p')
    (hq : q.Mirrors q') : (start p q).Mirrors (start p' q') :=
  ⟨hp, hq, hp, hq.x.sub hp.x, hq.x.sub hp.x⟩

theorem ready_start {a b : K} (ha : Scalar.isNaN a = false) (hb : Scalar.isNaN b = false)
    (hzero : ((Point.sample f a).y == 0) = false)
    (hsigns : Bracket.signsDiffer (Point.sample f a).y (Point.sample f b).y = true) :
    (start (Point.sample f a) (Point.sample f b)).Ready f where
  graph := ⟨rfl, rfl, rfl⟩
  estimate := hb
  counterpart := ha
  finite hsides := absurd ((Bracket.sides_differ hsigns).symm.trans hsides) Bool.false_ne_true
  previous_ne := hzero
  counterpart_ne := hzero

omit [ReflectingPrecision K] in
theorem respects_mirrors [NumericScalar K] : Respects (K := K) Point.Mirrors where
  undefined := Point.mirrors_undefined
  onAxis h := ⟨h.x, .refl _⟩
  beq_zero h := h.y.beq_eq (.refl 0)
  abs_eq h := InvolutiveScalar.abs_same h.y
  signsDiffer_eq hp hq := hp.signsDiffer_eq hq

/-- A search for a change of sign ends at the opposite abscissa on the mirrored function. -/
theorem mirrors_find (hfg : Mirrored f g) {a a' b b' : K} (ha : Opposite a a')
    (hb : Opposite b b') (hadef : Scalar.isNaN a = false) (hbdef : Scalar.isNaN b = false)
    {tolerance : Tolerance K} (hpos : 0 < tolerance.precision)
    (haway : InterpolatesAway f a b tolerance) :
    (find f a b tolerance).Mirrors (find g a' b' tolerance) := by
  have hnear := hfg.sample ha
  have hfar := hfg.sample hb
  refine respects_mirrors.find hnear hfar fun hzero _ hsigns => ?_
  exact Step.iterate_related
    (R := fun s t : SignChange K => s.Mirrors t ∧ s.Ready f)
    (Q := fun s t => s.estimate.Mirrors t.estimate)
    (fun _ _ h => h.1.estimate)
    (fun s t haway h => Mirrors.step hfg hpos h.1 h.2 haway)
    tolerance.maxIterations ⟨mirrors_start hnear hfar, ready_start hadef hbdef hzero hsigns⟩ haway

end SignChange

/-! ## Refinements -/

/-- The refinements that look at a bracket in the direction of the scan. -/
inductive Refinement.Directed : Refinement → Prop where
  | brentRoot : Directed .brentRoot
  | dichotomy (iterations : Nat) : Directed (.dichotomy iterations)
  | farEndpoint : Directed .farEndpoint

/-- Such a refinement finds mirrored points between opposite abscissae. -/
theorem Refinement.mirrors_refine [ReflectingPrecision K] {f g : K → K} (hfg : Mirrored f g)
    {r : Refinement} (hr : r.Directed) {a a' b b' : K} (ha : Opposite a a') (hb : Opposite b b')
    (hadef : Scalar.isNaN a = false) (hbdef : Scalar.isNaN b = false) (i : Interest)
    {tolerance : Tolerance K} (hpos : 0 < tolerance.precision)
    (haway : r = .brentRoot → SignChange.InterpolatesAway f a b tolerance) :
    (r.refine f a b i tolerance).Mirrors (r.refine g a' b' i tolerance) := by
  cases hr with
  | brentRoot => exact SignChange.mirrors_find hfg ha hb hadef hbdef hpos (haway rfl)
  | dichotomy iterations => exact GoldenBracket.mirrors_dichotomy hfg ha hb i iterations
  | farEndpoint => exact hfg.sample hb

end CurveSurvey

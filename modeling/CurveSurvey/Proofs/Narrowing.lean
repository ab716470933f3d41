import CurveSurvey.Proofs.Halving
import CurveSurvey.Scan.Narrowing

/-!
# Narrowing onto the defined side

What becomes of a bracket of which exactly one end is undefined.

* `Bracket.Narrows` is what every bisection keeps: the ends stay samples on the same sides of
  the border of the undefined region, inside the bracket and in its direction.
* `Bracket.narrowToDefined_settles`: both ends of the result are defined, one of them is the
  defined end of the bracket, and an undefined sample is close to the other one if the
  bisection got that far.  All of this needs midpoints that do not overflow.
* `Bracket.narrowToDefined_overflows` is a bracket of large abscissae for which the moved end
  is infinite.
-/

namespace CurveSurvey

variable {K : Type}

/-- `x` does not come after `y` in a direction. -/
def Scalar.Precedes [Scalar K] (forward : Bool) (x y : K) : Prop :=
  if forward then x ≤ y else y ≤ x

namespace Scalar

variable [Scalar K] [HalvingScalar K] {forward : Bool} {x y z : K}

theorem Precedes.trans (h : Precedes forward x y) (h' : Precedes forward y z) :
    Precedes forward x z := by
  cases forward with
  | true => exact OrderedScalar.trans h h'
  | false => exact OrderedScalar.trans h' h

theorem Precedes.refl_left (h : Precedes forward x y) : Precedes forward x x := by
  cases forward with
  | true => exact le_refl_of_defined (OrderedScalar.defined_of_le h).1
  | false => exact le_refl_of_defined (OrderedScalar.defined_of_le h).2

theorem Precedes.refl_right (h : Precedes forward x y) : Precedes forward y y := by
  cases forward with
  | true => exact le_refl_of_defined (OrderedScalar.defined_of_le h).2
  | false => exact le_refl_of_defined (OrderedScalar.defined_of_le h).1

/-- The midpoint lies between, in either direction. -/
theorem Precedes.half (h : Precedes forward x y) (hx : isFinite (x + x) = true)
    (hy : isFinite (y + y) = true) :
    Precedes forward x (0.5 * (x + y)) ∧ Precedes forward (0.5 * (x + y)) y := by
  cases forward with
  | true => exact HalvingScalar.half_mem h hx hy
  | false =>
    rw [HalvingScalar.add_comm x]
    exact (HalvingScalar.half_mem h hy hx).symm

/-- What lies between two numbers with finite doubles has one. -/
theorem Precedes.isFinite_double (h : Precedes forward x y) (h' : Precedes forward y z)
    (hx : isFinite (x + x) = true) (hz : isFinite (z + z) = true) : isFinite (y + y) = true := by
  cases forward with
  | true => exact HalvingScalar.isFinite_double h h' hx hz
  | false => exact HalvingScalar.isFinite_double h' h hz hx

end Scalar

open Scalar (Precedes)

namespace Bracket

section

variable [Scalar K]

/-- The abscissae follow one another in a direction. -/
structure Ordered (forward : Bool) (b : Bracket K) : Prop where
  first_middle : Precedes forward b.first.x b.middle.x
  middle_last : Precedes forward b.middle.x b.last.x

end

variable [Precision K]

/-- The abscissae at which a number of bisections samples `f`. -/
def halvings (f : K → K) (least : K) : ℕ → Bracket K → List K
  | 0, _ => []
  | n + 1, b =>
    match b.bisect f least with
    | .stop _ => []
    | .next b => b.middle.x :: halvings f least n b

/-- The abscissae at which the function was sampled after a number of bisections. -/
def sampled (f : K → K) (least : K) (n : ℕ) (b : Bracket K) : List K :=
  b.first.x :: b.middle.x :: b.last.x :: b.halvings f least n

/-- What bisections keep of a bracket `b`. -/
structure Narrows (f : K → K) (forward : Bool) (b border : Bracket K) : Prop where
  samples : border.Samples f
  ordered : border.Ordered forward
  /-- The first end does not move out of the bracket. -/
  first_inside : Precedes forward b.first.x border.first.x
  /-- Nor does the last one. -/
  last_inside : Precedes forward border.last.x b.last.x
  /-- The first end stays on its side of the border. -/
  first_side : Scalar.isNaN border.first.y = Scalar.isNaN b.first.y
  /-- So does the last one. -/
  last_side : Scalar.isNaN border.last.y = Scalar.isNaN b.last.y

section

variable [HalvingScalar K] {f : K → K} {forward : Bool} {b border : Bracket K}

theorem Ordered.first_last (h : b.Ordered forward) : Precedes forward b.first.x b.last.x :=
  h.first_middle.trans h.middle_last

theorem Narrows.start (hsamples : b.Samples f) (hordered : b.Ordered forward) :
    Narrows f forward b b where
  samples := hsamples
  ordered := hordered
  first_inside := hordered.first_middle.refl_left
  last_inside := hordered.middle_last.refl_right
  first_side := rfl
  last_side := rfl

/-- A bracket whose midpoints do not overflow. -/
structure Halvable (b : Bracket K) : Prop where
  first : Scalar.isFinite (b.first.x + b.first.x) = true
  last : Scalar.isFinite (b.last.x + b.last.x) = true

/-- Samples inside a bracket, with their midpoint in the middle, are in its direction. -/
theorem ordered_half (hfinite : b.Halvable) {p q : Point K}
    (hfirst : Precedes forward b.first.x p.x) (hbetween : Precedes forward p.x q.x)
    (hlast : Precedes forward q.x b.last.x) :
    Ordered forward ⟨p, Point.sample f (0.5 * (p.x + q.x)), q⟩ := by
  have hp := hfirst.isFinite_double (hbetween.trans hlast) hfinite.first hfinite.last
  have hq := (hfirst.trans hbetween).isFinite_double hlast hfinite.first hfinite.last
  exact ⟨(hbetween.half hp hq).1, (hbetween.half hp hq).2⟩

/-- One bisection keeps the ends on their sides, whatever the middle shows. -/
theorem Narrows.bisect (h : Narrows f forward b border) (hfinite : b.Halvable)
    (hsides : separates b.first b.last = true) (least : K) :
    Narrows f forward b (border.bisect f least).state := by
  have hfirst := h.first_inside
  have hlast := h.last_inside
  obtain ⟨hleft, hright⟩ := h.ordered
  unfold Bracket.bisect
  split
  · exact h
  cases hseparates : separates border.first border.middle with
  | true =>
    refine ⟨⟨h.samples.first, rfl, h.samples.middle⟩,
      ordered_half hfinite hfirst hleft (hright.trans hlast), hfirst, hright.trans hlast,
      h.first_side, ?_⟩
    -- the middle is on the other side from the first end, as the last end of the bracket is
    simp only [separates, bne_iff_ne, h.first_side] at hseparates hsides
    exact (Bool.eq_not.2 hseparates.symm).trans (Bool.eq_not.2 hsides.symm).symm
  | false =>
    refine ⟨⟨h.samples.middle, rfl, h.samples.last⟩,
      ordered_half hfinite (hfirst.trans hleft) hright hlast, hfirst.trans hleft, hlast, ?_,
      h.last_side⟩
    rw [separates, bne_eq_false_iff_eq] at hseparates
    exact hseparates.symm.trans h.first_side

/-- So do all of them. -/
theorem Narrows.iterate (hsamples : b.Samples f) (hordered : b.Ordered forward)
    (hfinite : b.Halvable) (hsides : separates b.first b.last = true) (least : K) (n : ℕ) :
    Narrows f forward b (Step.iterate (Bracket.bisect f least) n b) :=
  Step.iterate_invariant (fun _ h => h.bisect hfinite hsides least) n
    (Narrows.start hsamples hordered)

end

variable {f : K → K} {least : K} {b b' : Bracket K}

/-- A bisection that does not stop halves the bracket at its middle. -/
theorem ends_of_bisect_next (h : b.bisect f least = .next b') :
    b'.first = b.first ∧ b'.last = b.middle ∨ b'.first = b.middle ∧ b'.last = b.last := by
  unfold bisect at h
  split at h
  · cases h
  cases hseparates : separates b.first b.middle <;> simp only [hseparates] at h <;> cases h
  · exact .inr ⟨rfl, rfl⟩
  · exact .inl ⟨rfl, rfl⟩

/-- The ends that bisections come to were sampled. -/
theorem ends_mem_sampled (f : K → K) (least : K) (n : ℕ) (b : Bracket K) :
    (Step.iterate (bisect f least) n b).first.x ∈ b.sampled f least n ∧
      (Step.iterate (bisect f least) n b).last.x ∈ b.sampled f least n := by
  induction n generalizing b with
  | zero => simp [sampled, Step.iterate_zero]
  | succ n ih =>
    rw [Step.iterate_succ, sampled, halvings]
    cases hstep : b.bisect f least with
    | stop s =>
      obtain rfl : s = b := by
        unfold bisect at hstep
        split at hstep <;> cases hstep
        rfl
      simp
    | next b' =>
      have hmem : ∀ x ∈ b'.sampled f least n, x ∈
          b.first.x :: b.middle.x :: b.last.x :: b'.middle.x :: b'.halvings f least n := by
        intro x hx
        rcases ends_of_bisect_next hstep with ⟨hfirst, hlast⟩ | ⟨hfirst, hlast⟩ <;>
        · rw [sampled, hfirst, hlast] at hx
          simp only [List.mem_cons] at hx ⊢
          tauto
      exact ⟨hmem _ (ih b').1, hmem _ (ih b').2⟩

/-- A bracket of samples of which exactly one end is undefined is narrowed to one with two
defined ends.  The defined end stays, the other one moves into the bracket, the abscissae keep
their direction and the middle is sampled anew at the midpoint.  If the border of the undefined
region was found, an undefined sample is less than a minimal step from the end that moved.  The
midpoints must not overflow. -/
theorem narrowToDefined_settles [HalvingScalar K] (f : K → K) (forward : Bool) (maxSteps : ℕ)
    {b : Bracket K} (hsamples : b.Samples f) (hordered : b.Ordered forward)
    (hfinite : b.Halvable) (hsides : separates b.first b.last = true) :
    let r := b.narrowToDefined f maxSteps
    let least := Precision.minimalStep b.middle.x
    let border := Step.iterate (bisect f least) maxSteps b
    Scalar.isNaN r.first.y = false ∧ Scalar.isNaN r.last.y = false ∧ r.Samples f ∧
      r.Ordered forward ∧ r.middle = Point.sample f (0.5 * (r.first.x + r.last.x)) ∧
      (Scalar.isNaN b.first.y = false → r.first = b.first ∧
        Precedes forward b.first.x r.last.x ∧ Precedes forward r.last.x b.last.x) ∧
      (Scalar.isNaN b.last.y = false → r.last = b.last ∧
        Precedes forward b.first.x r.first.x ∧ Precedes forward r.first.x b.last.x) ∧
      (Scalar.abs (border.last.x - border.first.x) < least →
        ∃ u ∈ b.sampled f least maxSteps, Scalar.isNaN (f u) = true ∧
          Scalar.abs (u - if Scalar.isNaN b.first.y then r.first.x else r.last.x) < least) := by
  intro r least border
  have h : Narrows f forward b border := Narrows.iterate hsamples hordered hfinite hsides least _
  have hacross := h.ordered.first_last
  obtain ⟨hfirstMem, hlastMem⟩ := ends_mem_sampled f least maxSteps b
  have hne : Scalar.isNaN b.last.y = !Scalar.isNaN b.first.y := by
    rw [separates, bne_iff_ne] at hsides
    exact Bool.eq_not.2 hsides.symm
  cases hnan : Scalar.isNaN b.first.y with
  | true =>
    have hborder : Scalar.isNaN border.first.y = true := h.first_side.trans hnan
    have hlast : Scalar.isNaN b.last.y = false := by rw [hne, hnan, Bool.not_true]
    have hr : r = ⟨border.last, Point.sample f (0.5 * (border.last.x + b.last.x)), b.last⟩ := by
      simp only [r, narrowToDefined]
      rw [if_pos hborder]
    rw [hr]
    refine ⟨h.last_side.trans hlast, hlast, ⟨h.samples.last, rfl, hsamples.last⟩,
      ordered_half hfinite (h.first_inside.trans hacross) h.last_inside
        hordered.middle_last.refl_right, rfl, nofun,
      fun _ => ⟨rfl, h.first_inside.trans hacross, h.last_inside⟩, fun hnarrow => ?_⟩
    refine ⟨border.first.x, hfirstMem, ?_, ?_⟩
    · rw [← h.samples.first]
      exact hborder
    · rwa [if_pos rfl, SymmetricScalar.abs_sub_comm]
  | false =>
    have hborder : Scalar.isNaN border.first.y = false := h.first_side.trans hnan
    have hlast : Scalar.isNaN b.last.y = true := by rw [hne, hnan, Bool.not_false]
    have hr : r = ⟨b.first, Point.sample f (0.5 * (b.first.x + border.first.x)), border.first⟩ := by
      simp only [r, narrowToDefined]
      rw [if_neg (by rw [hborder]; exact Bool.false_ne_true)]
    rw [hr]
    refine ⟨hnan, hborder, ⟨hsamples.first, rfl, h.samples.first⟩,
      ordered_half hfinite hordered.first_middle.refl_left h.first_inside
        (hacross.trans h.last_inside), rfl,
      fun _ => ⟨rfl, h.first_inside, hacross.trans h.last_inside⟩,
      fun hdefined => absurd (hlast.symm.trans hdefined) Bool.noConfusion, fun hnarrow => ?_⟩
    refine ⟨border.last.x, hlastMem, ?_, ?_⟩
    · rw [← h.samples.last]
      exact h.last_side.trans hlast
    · rwa [if_neg Bool.false_ne_true]

/-- The identity to the right of one half, undefined to its left. -/
def rightPart (x : Float) : Float := if x < 0.5 then Scalar.nan else x

/-- The bracket of its samples at 0, 1 and 2. -/
def rightBracket : Bracket Float :=
  ⟨Point.sample rightPart 0, Point.sample rightPart 1, Point.sample rightPart 2⟩

theorem rightBracket_settles :
    rightBracket.Samples rightPart ∧ rightBracket.Ordered true ∧ rightBracket.Halvable ∧
      separates rightBracket.first rightBracket.last = true ∧
      Scalar.isNaN (rightBracket.narrowToDefined rightPart 3).first.y = false ∧
      (rightBracket.narrowToDefined rightPart 3).last = ⟨2, 2⟩ := by
  have hsamples : rightBracket.Samples rightPart := samples_sample rightPart 0 1 2
  have hordered : rightBracket.Ordered true := by
    constructor
    · show (0 : Float) ≤ 1
      decide +kernel
    · show (1 : Float) ≤ 2
      decide +kernel
  have hfinite : rightBracket.Halvable := ⟨by decide +kernel, by decide +kernel⟩
  have hsides : separates rightBracket.first rightBracket.last = true := by decide +kernel
  obtain ⟨hfirst, -, -, -, -, -, hlast, -⟩ :=
    narrowToDefined_settles rightPart true 3 hsamples hordered hfinite hsides
  exact ⟨hsamples, hordered, hfinite, hsides, hfirst, (hlast (by decide +kernel)).1.trans rfl⟩

/-- One, except for a gap between large abscissae. -/
def farGap (x : Float) : Float := if 1.3e308 < x && x < 1.5e308 then Scalar.nan else 1

/-- A bracket that ends in the gap. -/
def farBracket : Bracket Float :=
  ⟨Point.sample farGap 1e308, Point.sample farGap 1.2e308, Point.sample farGap 1.4e308⟩

/-- The midpoint of large abscissae overflows, so the end that moves leaves the bracket. -/
theorem narrowToDefined_overflows :
    farBracket.Samples farGap ∧ farBracket.Ordered true ∧
      separates farBracket.first farBracket.last = true ∧
      Scalar.isFinite (farBracket.narrowToDefined farGap 2).last.x = false ∧
      farBracket.last.x < (farBracket.narrowToDefined farGap 2).last.x := by
  refine ⟨samples_sample farGap 1e308 1.2e308 1.4e308, ⟨?_, ?_⟩, ?_, ?_, ?_⟩
  · show (1e308 : Float) ≤ 1.2e308
    decide +kernel
  · show (1.2e308 : Float) ≤ 1.4e308
    decide +kernel
  all_goals decide +kernel

end Bracket

end CurveSurvey

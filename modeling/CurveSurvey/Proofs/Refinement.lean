import CurveSurvey.Proofs.Finite
import CurveSurvey.Refinement

/-!
# What refinements return

Brent's methods only ever return points that they sampled, and say nothing about
the function between its samples.

* `SignChange.of_step_eq_next`: what a step that goes on leads to.
* `SignChange.find_ends`: a sign change that was found is a zero at an end of the
  bracket, or the last estimate, which is a sample that is no larger than either end
  (`SignChange.find_cases`).  A jump passes this test; a pole does not.
* `GoldenBracket.onGraph_after`: a golden bracket is made of samples, however often it was
  narrowed.  So a border of the undefined region is one (`GoldenBracket.dichotomy_y`).
* `Descent.minimum_y` and `Descent.maximum_y`: an extremum is a sample.
-/

namespace CurveSurvey

namespace Bracket

/-- Three samples of a function. -/
structure Samples {K : Type} (f : K → K) (b : Bracket K) : Prop where
  /-- The first is a point of the graph. -/
  first : b.first.y = f b.first.x
  /-- So is the middle one. -/
  middle : b.middle.y = f b.middle.x
  /-- So is the last. -/
  last : b.last.y = f b.last.x

theorem samples_sample {K : Type} (f : K → K) (x y z : K) :
    Samples f ⟨Point.sample f x, Point.sample f y, Point.sample f z⟩ := ⟨rfl, rfl, rfl⟩

variable {K : Type} [Scalar K] {s t : K}

theorem signsDiffer_iff : signsDiffer s t = true ↔ s < 0 ∧ 0 < t ∨ t < 0 ∧ 0 < s := by
  simp only [signsDiffer, Bool.or_eq_true, Bool.and_eq_true, decide_eq_true_eq]

theorem signsDiffer_comm (s t : K) : signsDiffer s t = signsDiffer t s := by
  rw [signsDiffer, signsDiffer, Bool.or_comm]

variable [OrderedScalar K]

theorem defined_of_signsDiffer (h : signsDiffer s t = true) :
    Scalar.isNaN s = false ∧ Scalar.isNaN t = false := by
  rcases signsDiffer_iff.1 h with ⟨hneg, hpos⟩ | ⟨hneg, hpos⟩
  · exact ⟨(Scalar.defined_of_lt hneg).1, (Scalar.defined_of_lt hpos).2⟩
  · exact ⟨(Scalar.defined_of_lt hpos).2, (Scalar.defined_of_lt hneg).1⟩

theorem ne_zero_of_signsDiffer (h : signsDiffer s t = true) : (s == 0) = false := by
  rw [Bool.eq_false_iff]
  intro hzero
  obtain ⟨hle, hge⟩ := OrderedScalar.beq_iff.1 hzero
  rcases signsDiffer_iff.1 h with ⟨hneg, -⟩ | ⟨-, hpos⟩
  · exact Scalar.not_le_of_lt hneg hge
  · exact Scalar.not_le_of_lt hpos hle

/-- Of two ordinates with strictly opposite signs, one is above zero. -/
theorem sides_differ (h : signsDiffer s t = true) : (decide (0 < t) == decide (0 < s)) = false := by
  rcases signsDiffer_iff.1 h with ⟨hneg, hpos⟩ | ⟨hneg, hpos⟩
  · rw [decide_eq_true hpos, decide_eq_false (Scalar.lt_asymm hneg)]
    rfl
  · rw [decide_eq_true hpos, decide_eq_false (Scalar.lt_asymm hneg)]
    rfl

end Bracket

namespace SignChange

variable {K : Type} [Precision K] {f : K → K}

/-- All points of a search lie on the graph of the function. -/
structure OnGraph (f : K → K) (s : SignChange K) : Prop where
  /-- The estimate before the current one does. -/
  previous : s.previous.y = f s.previous.x
  /-- The current estimate does. -/
  estimate : s.estimate.y = f s.estimate.x
  /-- The counterpart does. -/
  counterpart : s.counterpart.y = f s.counterpart.x

theorem OnGraph.opposed {s : SignChange K} (h : s.OnGraph f) : s.opposed.OnGraph f := by
  unfold SignChange.opposed
  split
  · exact ⟨h.previous, h.estimate, h.previous⟩
  · exact h

theorem OnGraph.ordered {s : SignChange K} (h : s.OnGraph f) : s.ordered.OnGraph f := by
  unfold SignChange.ordered
  split
  · exact ⟨h.estimate, h.counterpart, h.estimate⟩
  · exact h

theorem OnGraph.step {s : SignChange K} (h : s.OnGraph f) (precision : K) :
    (SignChange.step f precision s).state.OnGraph f := by
  have hs := h.opposed.ordered
  unfold SignChange.step
  generalize s.opposed.ordered = s at hs
  dsimp only
  split
  · exact hs
  · exact ⟨hs.estimate, rfl, hs.counterpart⟩

/-- The interpolated move as a fraction, before its signs are arranged. -/
def fraction (s : SignChange K) : K × K :=
  let m := s.halfway
  let ratio := s.estimate.y / s.previous.y
  if s.previous.x == s.counterpart.x then (2 * m * ratio, 1 - ratio)
  else
    let q := s.previous.y / s.counterpart.y
    let r := s.estimate.y / s.counterpart.y
    (ratio * (2 * m * q * (q - r) - (s.estimate.x - s.previous.x) * (r - 1)),
      (q - 1) * (r - 1) * (ratio - 1))

theorem interpolation_eq_fraction (s : SignChange K) :
    s.interpolation =
      if 0 < s.fraction.1 then (s.fraction.1, -s.fraction.2) else (-s.fraction.1, s.fraction.2) :=
  rfl

/-- A step that stops only puts the points in their places. -/
theorem of_step_eq_stop {precision : K} {s last : SignChange K}
    (h : step f precision s = .stop last) : last = s.opposed.ordered := by
  unfold step at h
  dsimp only at h
  split at h
  · exact (Step.stop.inj h).symm
  · cases h

/-- What a step that goes on leads to: the next estimate is sampled, and the counterpart is
kept. -/
theorem of_step_eq_next {precision : K} {s next : SignChange K}
    (h : step f precision s = .next next) :
    let t := s.opposed.ordered
    let accuracy := t.accuracy precision
    ¬ Scalar.abs t.halfway ≤ accuracy ∧
      next =
        { previous := t.estimate
          estimate := Point.sample f (t.target accuracy (t.nextMove accuracy).1)
          counterpart := t.counterpart
          move := (t.nextMove accuracy).1
          lastMove := (t.nextMove accuracy).2 } := by
  intro t accuracy
  unfold step at h
  dsimp only at h
  split at h
  · cases h
  · rename_i hgoes
    rw [Bool.or_eq_true, decide_eq_true_eq, not_or] at hgoes
    exact ⟨hgoes.1, (Step.next.inj h).symm⟩

/-- Where a search between `a` and `b` stands after a number of steps. -/
def after (f : K → K) (a b precision : K) (n : Nat) : SignChange K :=
  Step.iterate (step f precision) n (start (Point.sample f a) (Point.sample f b))

/-- How a search ends: on a zero at one of the ends; or in failure; or, if the ends have
strictly opposite signs, on its last estimate, which is then no larger than either end. -/
theorem find_ends (f : K → K) (a b : K) (tolerance : Tolerance K) :
    (find f a b tolerance = ⟨a, 0⟩ ∧ (f a == 0) = true) ∨
      (find f a b tolerance = ⟨b, 0⟩ ∧ (f b == 0) = true) ∨
      find f a b tolerance = Point.undefined ∨
      Bracket.signsDiffer (f a) (f b) = true ∧
        let last := (after f a b tolerance.precision tolerance.maxIterations).estimate
        find f a b tolerance = last ∧
          Scalar.abs last.y ≤ Scalar.smaller (Scalar.abs (f a)) (Scalar.abs (f b)) := by
  unfold find
  dsimp only
  split
  · rename_i ha
    exact .inl ⟨rfl, ha⟩
  · split
    · rename_i hb
      exact .inr (.inl ⟨rfl, hb⟩)
    · split
      · exact .inr (.inr (.inl rfl))
      · rename_i hsigns
        split
        · rename_i hbound
          exact .inr (.inr (.inr ⟨by simpa using hsigns, rfl, hbound⟩))
        · exact .inr (.inr (.inl rfl))

/-- A search between ends with strictly opposite signs comes to its test. -/
theorem find_of_signsDiffer [OrderedScalar K] {a b : K} (tolerance : Tolerance K)
    (h : Bracket.signsDiffer (f a) (f b) = true) :
    find f a b tolerance =
      let last := (after f a b tolerance.precision tolerance.maxIterations).estimate
      if Scalar.abs last.y ≤ Scalar.smaller (Scalar.abs (f a)) (Scalar.abs (f b)) then last
      else Point.undefined := by
  have ha := Bracket.ne_zero_of_signsDiffer h
  have hb := Bracket.ne_zero_of_signsDiffer (Bracket.signsDiffer_comm (f a) (f b) ▸ h)
  unfold find
  simp only [Point.sample, ha, hb, h, Bool.false_eq_true, if_false, Bool.not_true]
  rfl

theorem onGraph_after (f : K → K) (a b precision : K) (n : Nat) :
    (after f a b precision n).OnGraph f := by
  refine Step.iterate_invariant (fun s (hs : OnGraph f s) => hs.step precision) n ?_
  exact ⟨rfl, rfl, rfl⟩

/-- A search for a sign change fails, ends on a zero, or returns a sample that is no
larger than either end of a bracket with strictly opposite signs. -/
theorem find_cases {a b : K} {tolerance : Tolerance K} {p : Point K}
    (h : find f a b tolerance = p) :
    p = Point.undefined ∨ (∃ x, p = ⟨x, 0⟩ ∧ (f x == 0) = true) ∨
      (Bracket.signsDiffer (f a) (f b) = true ∧ p.y = f p.x ∧
        Scalar.abs p.y ≤ Scalar.smaller (Scalar.abs (f a)) (Scalar.abs (f b))) := by
  subst h
  rcases find_ends f a b tolerance with ⟨hp, ha⟩ | ⟨hp, hb⟩ | hp | ⟨hsigns, hp, hbound⟩
  · exact .inr (.inl ⟨a, hp, ha⟩)
  · exact .inr (.inl ⟨b, hp, hb⟩)
  · exact .inl hp
  · rw [hp]
    exact .inr (.inr ⟨hsigns, (onGraph_after f a b _ _).estimate, hbound⟩)

end SignChange

namespace GoldenBracket

section

variable {K : Type} [Scalar K] {f : K → K} {g : GoldenBracket K}

/-- All points of a golden bracket lie on the graph of the function. -/
structure OnGraph (f : K → K) (g : GoldenBracket K) : Prop where
  near : g.near.y = f g.near.x
  innerNear : g.innerNear.y = f g.innerNear.x
  innerFar : g.innerFar.y = f g.innerFar.x
  far : g.far.y = f g.far.x

theorem OnGraph.narrow (h : g.OnGraph f) : (g.narrow f).state.OnGraph f := by
  unfold GoldenBracket.narrow
  split
  · exact ⟨h.innerNear, h.innerFar, rfl, h.far⟩
  · split
    · exact ⟨h.near, rfl, h.innerNear, h.innerFar⟩
    · exact h

/-- The bracket that `f` from `a` to `b` has become after a number of narrowings. -/
def after (f : K → K) (a b : K) (n : Nat) : GoldenBracket K :=
  Step.iterate (narrow f) n (between f a b)

theorem after_succ (f : K → K) (a b : K) (n : Nat) :
    after f a b (n + 1) = ((after f a b n).narrow f).state := by
  refine Step.iterate_succ_state (fun s t h => ?_) n _
  unfold narrow at h
  split at h
  · cases h
  · split at h
    · cases h
    · exact (Step.stop.inj h).symm

theorem onGraph_after (f : K → K) (a b : K) (n : Nat) : (after f a b n).OnGraph f :=
  Step.iterate_invariant (fun _ h => h.narrow) n ⟨rfl, rfl, rfl, rfl⟩

end

variable {K : Type} [Precision K]

/-- What is neither a root nor an extremum is a sample. -/
theorem dichotomy_y (f : K → K) (a b : K) {i : Interest} (hroot : i ≠ .root)
    (hextremum : i.isExtremum = false) (iterations : Nat) :
    (dichotomy f a b i iterations).y = f (dichotomy f a b i iterations).x := by
  have hfinal := onGraph_after f a b iterations
  unfold dichotomy
  dsimp only
  rw [if_neg (by simpa using hroot), hextremum, Bool.false_and, if_neg Bool.false_ne_true]
  exact hfinal.far

end GoldenBracket

namespace Descent

variable {K : Type} [Precision K]

theorem best_place (f : K → K) (s : Descent K) (hs : s.best.y = f s.best.x) (u : Point K)
    (hu : u.y = f u.x) : (s.place u).best.y = f (s.place u).best.x := by
  unfold place
  split
  · exact hu
  · dsimp only
    split <;> split <;> try split
    all_goals exact hs

/-- A minimum is a sample. -/
theorem minimum_y (f : K → K) (a b : K) (tolerance : Tolerance K) :
    (minimum f a b tolerance).y = f (minimum f a b tolerance).x := by
  refine Step.iterate_invariant (P := fun s : Descent K => s.best.y = f s.best.x)
    (fun s hs => ?_)
    tolerance.maxIterations rfl
  unfold step
  dsimp only
  split
  · exact hs
  · refine best_place f _ ?_ _ ?_
    · exact hs
    · rfl

/-- A maximum is a sample, turned around twice. -/
theorem maximum_y (f : K → K) (a b : K) (tolerance : Tolerance K) :
    (maximum f a b tolerance).y = -(-f (maximum f a b tolerance).x) := by
  unfold maximum
  rw [Point.withY_y, Point.withY_x, minimum_y]

end Descent

end CurveSurvey

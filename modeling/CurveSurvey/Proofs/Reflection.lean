import CurveSurvey.Proofs.Coverage
import CurveSurvey.Proofs.Refinement.Mirror

/-!
# Mirrored scans

A scan toward larger abscissae and the scan of the mirrored function toward smaller ones
show mirrored brackets, until one of them lands on its end.

* `Cursor.Mirrors` and `Scan.Mirrors` relate what the two scans start from, and
  `Trace.Mirrors` relates what they show.
* `Cursor.Mirrors.nextX` says that the adaptive steps are mirrored, also from zero.
* `Scan.Mirrors.run` is the simulation.  The scan toward larger abscissae ends when a sample
  is exactly at its end; the opposite one still looks at the bracket around that sample
  (`Scan.Reflected`).
-/

namespace CurveSurvey

open Scalar (Same Opposite)

variable {K : Type} [Precision K]

/-! ## Cursors -/

namespace Cursor

/-- Two cursors that are reflections of one another, together with what was found. -/
structure Mirrors (c c' : Cursor K) : Prop where
  position : Opposite c.position c'.position
  goal : Opposite c.goal c'.goal
  maximalStep : c'.maximalStep = c.maximalStep
  isExhausted : c'.isExhausted = c.isExhausted
  interest : c'.interest = c.interest
  ordinate : Same c'.ordinate c.ordinate

theorem mirrors_new [NumericScalar K] (start goal : K) :
    (Cursor.new start goal).Mirrors (Cursor.new (-start) (-goal)) where
  position := .refl _
  goal := .refl _
  maximalStep := by
    have hwidth : Opposite (goal - start) (-goal - -start) := Scalar.same_neg_sub_neg goal start
    rw [Cursor.new, Cursor.new, hwidth.abs_eq]
  isExhausted := by
    rw [Cursor.new, Cursor.new, Scalar.isNaN_neg, Scalar.isNaN_neg]
    cases Scalar.isNaN start || Scalar.isNaN goal <;> rfl
  interest := by
    rw [Cursor.new, Cursor.new, Scalar.isNaN_neg, Scalar.isNaN_neg]
    cases Scalar.isNaN start || Scalar.isNaN goal <;> rfl
  ordinate := by
    rw [Cursor.new, Cursor.new, Scalar.isNaN_neg, Scalar.isNaN_neg]
    cases Scalar.isNaN start || Scalar.isNaN goal <;> exact .refl _

end Cursor

theorem Scalar.Opposite.minimalStep_eq [NumericScalar K] {x x' : K} (h : Opposite x x') :
    Precision.minimalStep x' = Precision.minimalStep x := by
  rw [Precision.minimalStep, Precision.minimalStep, h.abs_eq]

namespace Cursor.Mirrors

variable {c c' : Cursor K} {x x' : K}

theorem exhaust (h : c.Mirrors c') : c.exhaust.Mirrors c'.exhaust :=
  ⟨h.position, h.goal, h.maximalStep, rfl, rfl, .refl _⟩

theorem found [NumericScalar K] (h : c.Mirrors c') {p q : Point K} (hpq : p.Mirrors q)
    (i : Interest) : (c.found p i).Mirrors (c'.found q i) where
  position := hpq.x
  goal := h.goal
  maximalStep := h.maximalStep
  isExhausted := rfl
  interest := rfl
  ordinate := by
    show Same (if Precision.isNull q.x q.y then 0 else q.y)
      (if Precision.isNull p.x p.y then 0 else p.y)
    rw [hpq.isNull_eq]
    split
    · exact .refl 0
    · exact hpq.y

/-- What one cursor accepts, the other one accepts on its side. -/
theorem accepts_eq [NumericScalar K] (h : c.Mirrors c') (hforward : c.position < c.goal)
    (hx : Opposite x x') : c'.accepts x' = c.accepts x := by
  have hstep : Opposite (c.position + Precision.minimalStep c.position)
      (c'.position - Precision.minimalStep c'.position) := by
    rw [h.position.minimalStep_eq, NumericScalar.sub_eq]
    exact h.position.add (.refl _)
  rw [accepts, accepts, if_pos hforward,
    if_neg (mt (h.position.lt_iff h.goal).1 (Scalar.lt_asymm hforward))]
  simp only [h.goal.lt_iff hx, hx.lt_iff hstep]
  exact Bool.and_comm _ _

end Cursor.Mirrors

/-! ## Steps -/

section

variable [ReflectingPrecision K] {x x' : K}

theorem ReflectingPrecision.minimalStep_pos (x : K) : 0 < Precision.minimalStep x := by
  unfold Precision.minimalStep Scalar.larger
  rw [StridingPrecision.defined_gridStep]
  simp only [Bool.false_eq_true, if_false]
  split
  · rename_i hlt
    exact Scalar.lt_trans ReflectingPrecision.gridStep_pos hlt
  · exact ReflectingPrecision.gridStep_pos

/-- The difference of two zeros is zero, if it is anything. -/
theorem isNaN_or_beq_zero_sub {s t : K} (hs : (s == 0) = true) (ht : (t == 0) = true) :
    Scalar.isNaN (s - t) = true ∨ (s - t == 0) = true := by
  have hsame : Same (s - t) (-(s - t)) := by
    have hst : Same s t := Same.trans (.inr hs) (Same.symm (.inr ht))
    exact (hst.sub hst.symm).trans (Scalar.same_sub_comm s t)
  by_contra hnot
  rw [not_or] at hnot
  -- a number other than zero has another sign than its negative
  rcases Scalar.lt_or_gt_of_ne_zero (Bool.not_eq_true _ ▸ hnot.1) (Bool.not_eq_true _ ▸ hnot.2)
    with hneg | hpos
  · exact Scalar.lt_asymm hneg (Scalar.neg_lt_zero_iff.1 ((hsame.lt_iff (.refl 0)).1 hneg))
  · exact Scalar.lt_asymm hpos (Scalar.zero_lt_neg_iff.1 (((Same.refl 0).lt_iff hsame).1 hpos))

/-- From zero, the least step is taken, whichever abscissa is aimed at. -/
theorem larger_abs_sub_eq {target least : K} (hx : (x == 0) = true)
    (htarget : Scalar.isNaN target = true ∨ (target == 0) = true) (hleast : 0 < least) :
    Scalar.larger (Scalar.abs (target - x)) least = least := by
  have hdiff : Scalar.isNaN (target - x) = true ∨ (target - x == 0) = true := by
    rcases htarget with hnan | hzero
    · rw [NumericScalar.sub_eq]
      exact .inl (ReflectingPrecision.isNaN_add hnan _)
    · exact isNaN_or_beq_zero_sub hzero hx
  unfold Scalar.larger
  rw [NumericScalar.isNaN_abs]
  rcases hdiff with hnan | hzero
  · rw [if_pos hnan]
  · have habs : Same (Scalar.abs (target - x)) 0 :=
      (NumericScalar.abs_of_nonneg (OrderedScalar.beq_iff.1 hzero).2).trans (.inr hzero)
    rw [if_pos ((habs.lt_iff (.refl least)).2 hleast), ite_self]

/-- An abscissa grows by the same amount on either side of zero. -/
theorem larger_stretch_eq (hx : Opposite x x') {toward toward' : K}
    (htoward : Opposite toward toward') (hway : x < toward) (ratio least : K)
    (hleast : 0 < least) :
    Scalar.larger (Scalar.abs ((if decide (x' < toward') == decide (x' < 0) then x' / ratio
        else x' * ratio) - x')) least =
      Scalar.larger (Scalar.abs ((if decide (x < toward) == decide (x < 0) then x / ratio
        else x * ratio) - x)) least := by
  cases hzero : x == 0 with
  | true =>
    -- zero is neither multiplied nor divided
    have hstretch : ∀ {t : K}, (t == 0) = true → ∀ b : Bool,
        Scalar.isNaN (if b then t / ratio else t * ratio) = true ∨
          ((if b then t / ratio else t * ratio) == 0) = true := by
      intro t ht b
      cases b with
      | true => exact ReflectingPrecision.zero_div ht ratio
      | false => exact ReflectingPrecision.zero_mul ht ratio
    have hzero' : (x' == 0) = true := by rwa [hx.beq_eq .zero]
    rw [larger_abs_sub_eq hzero (hstretch hzero _) hleast,
      larger_abs_sub_eq hzero' (hstretch hzero' _) hleast]
  | false =>
    have hback : ¬ x' < toward' := mt (hx.lt_iff htoward).1 (Scalar.lt_asymm hway)
    rw [decide_eq_true hway, decide_eq_false hback]
    simp only [hx.lt_iff .zero]
    rcases Scalar.lt_or_gt_of_ne_zero (Scalar.defined_of_lt hway).1 hzero with hneg | hpos
    · rw [decide_eq_true hneg, decide_eq_false (Scalar.lt_asymm hneg)]
      exact congrArg (Scalar.larger · least) ((hx.div ratio).sub hx).abs_eq
    · rw [decide_eq_true hpos, decide_eq_false (Scalar.lt_asymm hpos)]
      exact congrArg (Scalar.larger · least) ((hx.mul (.refl ratio)).sub hx).abs_eq

/-- The next samples of two mirrored cursors are mirrored. -/
theorem Cursor.Mirrors.nextX {c c' : Cursor K} (h : c.Mirrors c') (hx : Opposite x x')
    (hway : x < c.goal) : Opposite (c.nextX x c.goal) (c'.nextX x' c'.goal) := by
  have hback : ¬ x' < c'.goal := mt (hx.lt_iff h.goal).1 (Scalar.lt_asymm hway)
  have hmoves : ∀ step : K, Opposite (x + 1 * step) (x' + -1 * step) := fun step =>
    hx.add (Opposite.mul (.refl _) (.refl _))
  unfold Cursor.nextX
  dsimp only
  rw [larger_stretch_eq hx h.goal hway _ _ (ReflectingPrecision.minimalStep_pos x'), hx.abs_eq,
    hx.minimalStep_eq, h.maximalStep, if_pos hway, if_neg hback]
  split
  · exact hmoves _
  · exact hmoves _

end

/-! ## Brackets without an undefined abscissa -/

/-- The ends of a bracket are defined, and so are the middles between them. -/
structure Bracket.Measured (b : Bracket K) : Prop where
  first : Scalar.isNaN b.first.x = false
  last : Scalar.isNaN b.last.x = false
  lower : Scalar.isNaN (b.first.x + b.middle.x) = false
  upper : Scalar.isNaN (b.middle.x + b.last.x) = false

section

variable [ReflectingPrecision K] {f : K → K} {b : Bracket K} {p q : Point K}

/-- Halving an interval leaves two that can be halved as well. -/
theorem measured_halves (hp : Scalar.isNaN p.x = false) (hq : Scalar.isNaN q.x = false)
    (h : Scalar.isNaN (p.x + q.x) = false) :
    (⟨p, Point.sample f (0.5 * (p.x + q.x)), q⟩ : Bracket K).Measured where
  first := hp
  last := hq
  lower := ReflectingPrecision.add_mean_defined h
  upper := by
    show Scalar.isNaN (0.5 * (p.x + q.x) + q.x) = false
    rw [NumericScalar.add_comm p.x] at h ⊢
    rw [NumericScalar.add_comm]
    exact ReflectingPrecision.add_mean_defined h

/-- Both terms of a defined sum are defined. -/
theorem ReflectingPrecision.defined_of_add {s t : K} (h : Scalar.isNaN (s + t) = false) :
    Scalar.isNaN s = false ∧ Scalar.isNaN t = false := by
  have hleft : ∀ {s t : K}, Scalar.isNaN (s + t) = false → Scalar.isNaN s = false := by
    intro s t h
    by_contra hnan
    rw [ReflectingPrecision.isNaN_add (Bool.not_eq_false _ ▸ hnan)] at h
    cases h
  exact ⟨hleft h, hleft (NumericScalar.add_comm s t ▸ h)⟩

theorem Bracket.Measured.bisect (h : b.Measured) (least : K) :
    (b.bisect f least).state.Measured := by
  have hmiddle := (ReflectingPrecision.defined_of_add h.lower).2
  unfold Bracket.bisect
  split
  · exact h
  · cases separates b.first b.middle with
    | true => exact measured_halves h.first hmiddle h.lower
    | false => exact measured_halves hmiddle h.last h.upper

/-- Narrowing does not lose the ends of a bracket. -/
theorem Bracket.Measured.narrowToDefined (h : b.Measured) (maxSteps : Nat) :
    Scalar.isNaN (b.narrowToDefined f maxSteps).first.x = false ∧
      Scalar.isNaN (b.narrowToDefined f maxSteps).last.x = false := by
  unfold Bracket.narrowToDefined
  generalize Precision.minimalStep b.middle.x = least
  have hborder : (Step.iterate (Bracket.bisect f least) maxSteps b).Measured :=
    Step.iterate_invariant (fun _ hb => hb.bisect least) maxSteps h
  generalize Step.iterate (Bracket.bisect f least) maxSteps b = border at hborder ⊢
  cases hnan : Scalar.isNaN border.first.y with
  | true =>
    simp only [hnan, if_true]
    exact ⟨hborder.last, h.last⟩
  | false =>
    simp only [hnan, Bool.false_eq_true, if_false]
    exact ⟨h.first, hborder.first⟩

end

/-! ## Scans -/

/-- Two events that show reflections of one another. -/
inductive Event.Mirrors : Event K → Event K → Prop where
  | sampled {b b' : Bracket K} (h : b.Mirrors b') : Mirrors (.sampled b) (.sampled b')
  | refined {p q : Point K} (h : p.Mirrors q) (i : Interest) (valid : Bool) :
    Mirrors (.refined p i valid) (.refined q i valid)

/-- Two traces of equal length that show reflections of one another, with equal answers. -/
def Trace.Mirrors (t t' : Trace K) : Prop :=
  List.Forall₂ (fun e e' => e.1.Mirrors e'.1 ∧ e'.2 = e.2) t t'

theorem Trace.Mirrors.append {t t' u u' : Trace K} (ht : t.Mirrors t') (hu : u.Mirrors u') :
    Trace.Mirrors (t ++ u) (t' ++ u') := List.rel_append ht hu

namespace Scan

/-- As long as a scan goes on, no interpolation leads back to the estimate. -/
def InterpolatesAway (s : Scan K) : Prop :=
  ∀ {x : K} {b : Bracket K} {i : Interest}, s.Visits x → s.classify (s.samplesFrom x) = (b, i) →
    i.isNone = false → SignChange.InterpolatesAway s.f b.first.x b.last.x s.tolerance

/-- Two scans of mirrored functions between opposite ends, of which the first one goes toward
larger abscissae. -/
structure Mirrors (s s' : Scan K) : Prop where
  cursor : s.cursor.Mirrors s'.cursor
  values : Mirrored s.f s'.f
  settings : s'.settings = s.settings
  test : s'.test = s.test
  refinement : s'.refinement = s.refinement
  start : Scalar.isFinite s.cursor.position = true
  goal : Scalar.isFinite s.cursor.goal = true
  forward : s.cursor.position < s.cursor.goal
  precision_pos : 0 < s.settings.absolutePrecision
  directed : s.refinement.Directed
  away : s.refinement = .brentRoot → s.InterpolatesAway

/-- A scan has come to an abscissa and is not yet at its goal. -/
structure Passes (s : Scan K) (x : K) : Prop where
  visits : s.Visits x
  finite : Scalar.isFinite x = true
  from_start : s.cursor.position ≤ x
  to_goal : x < s.cursor.goal

/-- How the opposite scan goes compared with the scan toward larger abscissae. -/
inductive Reflected (s s' : Scan K) :
    Cursor K × Unit × Trace K → Cursor K × Unit × Trace K → Prop where
  /-- Both show and find the same, reflected. -/
  | together {c c' : Cursor K} {t t' : Trace K} (hc : c.Mirrors c') (ht : t.Mirrors t') :
    Reflected s s' (c, (), t) (c', (), t')
  /-- The last sample lands on the goal.  The scan toward larger abscissae ends there, and the
  opposite one looks at the bracket around it first. -/
  | landed {c' : Cursor K} {t u v : Trace K} {b : Bracket K} (ht : t.Mirrors u)
      (hv : Trace.brackets v = [b]) (hb : (b.middle.x == s'.cursor.goal) = true) :
    Reflected s s' (s.cursor.exhaust, (), t) (c', (), u ++ v)

/-- The recorded course of a scan that nobody observes. -/
theorem advance_recorded (s : Scan K) (left : Nat) (x : K) (t : Trace K) :
    s.advance Observer.silent.recorded (left + 1) (s.sample x) (s.following x) ((), t) =
      if s.isUnderway (s.following x).x then
        match (s.examine Observer.silent (s.samplesFrom x) ()).1 with
        | some c => (c, (), t ++ s.shown (s.samplesFrom x))
        | none => s.advance Observer.silent.recorded left (s.following x)
            (s.following (s.following x).x) ((), t ++ s.shown (s.samplesFrom x))
      else (s.cursor.exhaust, (), t) := by
  have hsamples : s.samplesFrom x =
      ⟨s.sample x, s.following x, s.following (s.following x).x⟩ := rfl
  rw [advance]
  split
  · dsimp only
    rw [← hsamples, examine_recorded]
    cases (s.examine Observer.silent (s.samplesFrom x) ()).1 <;> rfl
  · rfl

variable {s s' : Scan K} {x x' : K} {b b' : Bracket K} {p q : Point K}

theorem onGrid_opposite [NumericScalar K] (hx : Opposite x x') :
    Opposite (onGrid x) (onGrid x') := by
  have hscaled := hx.mul (.refl (Scalar.recip (Precision.gridStep : K)))
  have hrounded : Opposite (Scalar.round (x * Scalar.recip Precision.gridStep))
      (Scalar.round (x' * Scalar.recip Precision.gridStep)) :=
    (NumericScalar.round_same hscaled).trans (NumericScalar.round_neg _)
  exact hrounded.div _

namespace Mirrors

variable [ReflectingPrecision K]

theorem isValid_eq (h : s.Mirrors s') (hp : p.Mirrors q) : s'.isValid q = s.isValid p := by
  rw [isValid, isValid, hp.x.isFinite_eq, h.cursor.accepts_eq h.forward hp.x]

theorem classify (h : s.Mirrors s') (hb : b.Mirrors b') :
    (s.classify b).1.Mirrors (s'.classify b').1 ∧ (s'.classify b').2 = (s.classify b).2 := by
  unfold Scan.classify
  dsimp only
  rw [h.test, h.settings, hb.classify_eq, hb.discontinuity_eq]
  split
  · have hnarrowed := hb.narrowToDefined h.values s.settings.maxNarrowings
    exact ⟨hnarrowed, hnarrowed.classify_eq _⟩
  · exact ⟨hb, rfl⟩

theorem improves_eq {p' q' : Point K} (hp : p.Mirrors p') (hq : q.Mirrors q') (i : Interest) :
    improves i p'.y q'.y = improves i p.y q.y := by
  cases i with
  | root => exact hp.y.beq_eq (.refl 0)
  | localMinimum => exact decide_eq_decide.2 (hp.lt_iff hq)
  | localMaximum => exact decide_eq_decide.2 (hq.lt_iff hp)
  | none | discontinuity | intersection => rfl

/-- A point is moved onto the grid exactly when its reflection is. -/
theorem snapped (h : s.Mirrors s') (hp : p.Mirrors q) (i : Interest) :
    (s.snapped p i).Mirrors (s'.snapped q i) := by
  have hx := onGrid_opposite hp.x
  have hgrid := Mirrored.sample h.values hx
  have himproves := improves_eq hgrid hp i
  have hsame := hgrid.y.beq_eq hp.y
  simp only [Point.sample_y] at himproves hsame
  unfold Scan.snapped
  dsimp only
  rw [bne, bne, hx.beq_eq hp.x, h.cursor.accepts_eq h.forward hx, himproves, hsame]
  split
  · split
    · exact hgrid
    · exact hp
  · exact hp

theorem settle (h : s.Mirrors s') (hp : p.Mirrors q) (i : Interest) :
    (s.settle p i).Mirrors (s'.settle q i) := h.cursor.found (h.snapped hp i) i

/-! ### One bracket -/

/-- The next sample of a scan toward larger abscissae lies beyond the last one. -/
theorem ahead (h : s.Mirrors s') (hx : s.Passes x) : x < (s.following x).x := by
  have hahead := Cursor.ahead_nextX (c := s.cursor) hx.finite (iff_of_true hx.to_goal h.forward)
  rwa [Cursor.Ahead, if_pos h.forward] at hahead

/-- The scan goes on until it is no more in front of its goal. -/
theorem isUnderway_iff (h : s.Mirrors s') (hx : s.Passes x) :
    s.isUnderway (s.following x).x = true ↔ (s.following x).x < s.cursor.goal := by
  have haway := Scalar.lt_of_le_of_lt hx.from_start (h.ahead hx)
  rw [isUnderway, decide_eq_true haway, beq_iff_eq, eq_comm, decide_eq_true_iff]

theorem passes_following (h : s.Mirrors s') (hx : s.Passes x)
    (hunderway : (s.following x).x < s.cursor.goal) : s.Passes (s.following x).x where
  visits := .next hx.visits
  finite := StridingPrecision.isFinite_of_between (Scalar.le_of_lt (h.ahead hx))
    (Scalar.le_of_lt hunderway) hx.finite h.goal
  from_start := OrderedScalar.trans hx.from_start (Scalar.le_of_lt (h.ahead hx))
  to_goal := hunderway

theorem following (h : s.Mirrors s') (hx : Opposite x x') (hway : x < s.cursor.goal) :
    (s.following x).Mirrors (s'.following x') :=
  Mirrored.sample h.values (h.cursor.nextX hx hway)

theorem samplesFrom (h : s.Mirrors s') (hx : Opposite x x') (hpasses : s.Passes x)
    (hunderway : (s.following x).x < s.cursor.goal) :
    (s.samplesFrom x).Mirrors (s'.samplesFrom x') where
  first := Mirrored.sample h.values hx
  middle := h.following hx hpasses.to_goal
  last := h.following (h.following hx hpasses.to_goal).x hunderway

theorem measured_samplesFrom (h : s.Mirrors s') (hx : s.Passes x)
    (hunderway : (s.following x).x < s.cursor.goal) : (s.samplesFrom x).Measured := by
  have hnext := h.passes_following hx hunderway
  have hmiddle := (Scalar.defined_of_lt hunderway).1
  have hlast := (Scalar.defined_of_lt (h.ahead hnext)).2
  exact
    { first := (Scalar.defined_of_lt (h.ahead hx)).1
      last := hlast
      lower := ReflectingPrecision.add_defined hx.finite hmiddle
      upper := ReflectingPrecision.add_defined hnext.finite hlast }

/-- The refinements of mirrored brackets of successive samples are mirrored. -/
theorem refine (h : s.Mirrors s') (hx : Opposite x x') (hpasses : s.Passes x)
    (hunderway : (s.following x).x < s.cursor.goal)
    (hi : (s.classify (s.samplesFrom x)).2.isNone = false) :
    (s.refine (s.classify (s.samplesFrom x)).1 (s.classify (s.samplesFrom x)).2).Mirrors
      (s'.refine (s'.classify (s'.samplesFrom x')).1 (s'.classify (s'.samplesFrom x')).2) := by
  obtain ⟨hb, hsame⟩ := h.classify (h.samplesFrom hx hpasses hunderway)
  have hmeasured := h.measured_samplesFrom hpasses hunderway
  have hdefined : Scalar.isNaN (s.classify (s.samplesFrom x)).1.first.x = false ∧
      Scalar.isNaN (s.classify (s.samplesFrom x)).1.last.x = false := by
    unfold Scan.classify
    dsimp only
    split
    · exact hmeasured.narrowToDefined _
    · exact ⟨hmeasured.first, hmeasured.last⟩
  have htolerance : s'.tolerance = s.tolerance := by
    rw [Scan.tolerance, Scan.tolerance, h.settings]
  rw [Scan.refine, Scan.refine, h.refinement, hsame, htolerance]
  exact Refinement.mirrors_refine h.values h.directed hb.first.x hb.last.x hdefined.1 hdefined.2 _
    h.precision_pos fun hr => h.away hr hpasses.visits rfl hi

/-- Mirrored brackets of successive samples lead to the same. -/
theorem examine (h : s.Mirrors s') (hx : Opposite x x') (hpasses : s.Passes x)
    (hunderway : (s.following x).x < s.cursor.goal) :
    Option.Rel Cursor.Mirrors (s.examine Observer.silent (s.samplesFrom x) ()).1
        (s'.examine Observer.silent (s'.samplesFrom x') ()).1 ∧
      Trace.Mirrors (s.shown (s.samplesFrom x)) (s'.shown (s'.samplesFrom x')) := by
  have hsamples := h.samplesFrom hx hpasses hunderway
  have hrefine := h.refine hx hpasses hunderway
  obtain ⟨-, hi⟩ := h.classify hsamples
  rw [examine_silent, examine_silent]
  unfold Scan.shown
  generalize s.classify (s.samplesFrom x) = classified at hi hrefine ⊢
  generalize s'.classify (s'.samplesFrom x') = classified' at hi hrefine ⊢
  obtain ⟨b, i⟩ := classified
  obtain ⟨b', i'⟩ := classified'
  dsimp only at hi hrefine ⊢
  subst hi
  cases hnone : i'.isNone with
  | true => exact ⟨.none, .cons ⟨.sampled hsamples, rfl⟩ .nil⟩
  | false =>
    have hp := hrefine hnone
    simp only [Bool.false_eq_true, if_false, h.isValid_eq hp]
    refine ⟨?_, .cons ⟨.sampled hsamples, rfl⟩ (.cons ⟨.refined hp _ _, rfl⟩ .nil)⟩
    cases s.isValid (s.refine b i') with
    | true => exact .some (h.settle hp i')
    | false => exact .none

/-! ### The walk -/

/-- The opposite scan goes on while its last sample is not beyond the goal. -/
theorem isUnderway_mirror (h : s.Mirrors s') {y y' : K} (hy : Opposite y y')
    (haway : s.cursor.position < y) :
    s'.isUnderway y' = !decide (s.cursor.goal < y) := by
  rw [isUnderway, decide_eq_false (mt (h.cursor.position.lt_iff hy).1 (Scalar.lt_asymm haway))]
  simp only [hy.lt_iff h.cursor.goal]
  cases decide (s.cursor.goal < y) <;> rfl

/-- After a sample on the goal, the next one of the opposite scan is beyond it. -/
theorem arrived_after_landing (h : s.Mirrors s') {y y' : K} (hy : Opposite y y')
    (hlands : (y == s.cursor.goal) = true) : s'.isUnderway (s'.following y').x = false := by
  have hbackward : ¬ s'.cursor.position < s'.cursor.goal :=
    mt (h.cursor.position.lt_iff h.cursor.goal).1 (Scalar.lt_asymm h.forward)
  obtain ⟨hle, hge⟩ := OrderedScalar.beq_iff.1 hlands
  have hfinite : Scalar.isFinite y' = true := by
    rw [hy.isFinite_eq]
    exact StridingPrecision.isFinite_of_between hge hle h.goal h.goal
  have hnotbefore : ¬ y' < s'.cursor.goal := fun hlt =>
    Scalar.not_le_of_lt ((hy.lt_iff h.cursor.goal).1 hlt) hle
  have hahead := Cursor.ahead_nextX (c := s'.cursor) hfinite (iff_of_false hnotbefore hbackward)
  rw [Cursor.Ahead, if_neg hbackward] at hahead
  have hbeyond : (s'.following y').x < s'.cursor.goal :=
    Scalar.lt_of_lt_of_le hahead ((hy.le_iff h.cursor.goal).2 hge)
  have hnotstart : ¬ s'.cursor.position < (s'.following y').x := fun hlt =>
    hbackward (Scalar.lt_trans hlt hbeyond)
  rw [isUnderway, decide_eq_true hbeyond, decide_eq_false hnotstart]
  rfl

/-- When a sample lands on the goal, the opposite scan looks at one bracket more. -/
theorem advance_landed (h : s.Mirrors s') (hx : Opposite x x') (hpasses : s.Passes x)
    (hlands : ((s.following x).x == s.cursor.goal) = true) (left : Nat) (t' : Trace K) :
    ∃ c', s'.advance Observer.silent.recorded (left + 1) (s'.sample x') (s'.following x') ((), t') =
      (c', (), t' ++ s'.shown (s'.samplesFrom x')) := by
  have hlast := (h.following hx hpasses.to_goal).x
  have hunderway : s'.isUnderway (s'.following x').x = true := by
    rw [h.isUnderway_mirror hlast (Scalar.lt_of_le_of_lt hpasses.from_start (h.ahead hpasses)),
      decide_eq_false fun hlt => Scalar.not_le_of_lt hlt (OrderedScalar.beq_iff.1 hlands).1]
    rfl
  rw [advance_recorded, if_pos hunderway]
  cases (s'.examine Observer.silent (s'.samplesFrom x') ()).1 with
  | some c => exact ⟨c, rfl⟩
  | none =>
    refine ⟨s'.cursor.exhaust, ?_⟩
    cases left with
    | zero => rfl
    | succ left =>
      refine (s'.advance_recorded left (s'.following x').x _).trans ?_
      rw [h.arrived_after_landing hlast hlands, if_neg Bool.false_ne_true]

/-- The two scans stay together until one of them lands on its goal. -/
theorem advance (h : s.Mirrors s') (left : Nat) {x x' : K} (hx : Opposite x x')
    (hpasses : s.Passes x) {t t' : Trace K} (ht : t.Mirrors t') :
    s.Reflected s'
      (s.advance Observer.silent.recorded left (s.sample x) (s.following x) ((), t))
      (s'.advance Observer.silent.recorded left (s'.sample x') (s'.following x') ((), t')) := by
  induction left generalizing x x' t t' with
  | zero => exact .together h.cursor.exhaust ht
  | succ left ih =>
    have hlast := (h.following hx hpasses.to_goal).x
    have haway := Scalar.lt_of_le_of_lt hpasses.from_start (h.ahead hpasses)
    by_cases hunderway : (s.following x).x < s.cursor.goal
    · have hunderway' : s'.isUnderway (s'.following x').x = true := by
        rw [h.isUnderway_mirror hlast haway, decide_eq_false (Scalar.lt_asymm hunderway)]
        rfl
      obtain ⟨hfound, hshown⟩ := h.examine hx hpasses hunderway
      have htraces := ht.append hshown
      have hrest := ih hlast (h.passes_following hpasses hunderway) htraces
      rw [advance_recorded, advance_recorded, if_pos ((h.isUnderway_iff hpasses).2 hunderway),
        if_pos hunderway']
      generalize (s.examine Observer.silent (s.samplesFrom x) ()).1 = found at hfound ⊢
      generalize (s'.examine Observer.silent (s'.samplesFrom x') ()).1 = found' at hfound ⊢
      cases hfound with
      | some hc => exact .together hc htraces
      | none => exact hrest
    · have harrived : ¬ s.isUnderway (s.following x).x = true :=
        mt (h.isUnderway_iff hpasses).1 hunderway
      rw [advance_recorded, if_neg harrived]
      by_cases hbeyond : s.cursor.goal < (s.following x).x
      · have harrived' : s'.isUnderway (s'.following x').x = false := by
          rw [h.isUnderway_mirror hlast haway, decide_eq_true hbeyond]
          rfl
        rw [advance_recorded, harrived', if_neg Bool.false_ne_true]
        exact .together h.cursor.exhaust ht
      · -- neither before nor beyond its goal, the scan has landed on it
        have hdef := (Scalar.defined_of_lt haway).2
        have hgoal := (Scalar.defined_of_lt h.forward).2
        have hlands : ((s.following x).x == s.cursor.goal) = true := OrderedScalar.beq_iff.2
          ⟨Scalar.le_of_not_lt hdef hgoal hbeyond, Scalar.le_of_not_lt hgoal hdef hunderway⟩
        obtain ⟨c', heq⟩ := h.advance_landed hx hpasses hlands left t'
        rw [heq]
        refine .landed ht (s'.brackets_shown _) ?_
        show ((s'.following x').x == s'.cursor.goal) = true
        rw [hlast.beq_eq h.cursor.goal, hlands]

theorem run (h : s.Mirrors s') :
    s.Reflected s' (s.run Observer.silent.recorded ((), []))
      (s'.run Observer.silent.recorded ((), [])) := by
  rw [Scan.run, Scan.run, h.cursor.isExhausted, h.settings]
  by_cases hex : s.cursor.isExhausted = true
  · rw [if_pos hex, if_pos hex]
    exact .together h.cursor .nil
  · rw [if_neg hex, if_neg hex]
    exact h.advance _ h.cursor.position
      { visits := .start
        finite := h.start
        from_start := Scalar.le_refl_of_defined (Scalar.defined_of_lt h.forward).1
        to_goal := h.forward } .nil

end Mirrors

end Scan

end CurveSurvey

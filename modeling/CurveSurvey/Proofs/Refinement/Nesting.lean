import CurveSurvey.Proofs.Refinement.Enclosure
import CurveSurvey.Proofs.Refinement.Samples

/-!
# What a search for a minimum encloses

Brent's search for a minimum goes on only while one part of the interval on a side of the best
sample is longer than two accuracies, so that a move of one accuracy towards it stays inside.
That is a statement about exact numbers: a rounded move may pass the end by its error.

* `Descent.Spans` says that the interval searched has two ends, with the best sample between
  them.
* `Descent.Fits` is what the next move satisfies: it stays inside the interval, and so does the
  least move in its direction, which takes its place when it is shorter (`Descent.Spans.fits`).
* `Descent.Spans.step`: one step samples inside the interval, and narrows it around the best
  sample.
* `Descent.minimum_between` is the result, for all steps.
-/

namespace CurveSurvey

namespace Descent

open Exact (undefined real)

open scoped Exact

/-- The interval searched is from `l` to `u`, and the best sample is at `x` between them. -/
structure Spans (l u x : ℝ) (s : Descent Exact) : Prop where
  lower_eq : s.lower = real l
  upper_eq : s.upper = real u
  best_eq : s.best.x = real x
  lower_le : l ≤ x
  le_upper : x ≤ u

/-- A move from `x` stays between `l` and `u`, and so does the least move in its direction if it is
shorter than that. -/
structure Fits (l u x least move : ℝ) : Prop where
  lower_le : l ≤ x + move
  le_upper : x + move ≤ u
  le_upper_of_short : |move| < least → 0 ≤ move → x + least ≤ u
  lower_le_of_short : |move| < least → move < 0 → l ≤ x - least

variable {f : Exact → Exact} {s t : Descent Exact} {p : Point Exact} {a b l u x e least : ℝ}

/-! ## One move -/

/-- The golden section of the part above. -/
theorem fits_golden_up (hleast : 0 < least) (hlong : 2 * least < u - x) (hl : l ≤ x) :
    Fits l u x least (0.3819660112501051 * (u - x)) where
  lower_le := by linarith
  le_upper := by linarith
  le_upper_of_short _ _ := by linarith
  lower_le_of_short _ hneg := by linarith

/-- The golden section of the part below. -/
theorem fits_golden_down (hleast : 0 < least) (hlong : 2 * least < x - l) (hu : x ≤ u) :
    Fits l u x least (0.3819660112501051 * (l - x)) where
  lower_le := by linarith
  le_upper := by linarith
  le_upper_of_short _ hpos := by linarith
  lower_le_of_short _ _ := by linarith

/-- A move that keeps two least moves away from both ends. -/
theorem fits_inner {move : ℝ} (hleast : 0 < least) (hl : 2 * least ≤ x + move - l)
    (hu : 2 * least ≤ u - (x + move)) : Fits l u x least move where
  lower_le := by linarith
  le_upper := by linarith
  le_upper_of_short _ hpos := by linarith
  lower_le_of_short _ hneg := by linarith

/-- The least move towards the longer part. -/
theorem fits_least (hleast : 0 < least) (hl : l ≤ x) (hu : x ≤ u)
    (hlong : 2 * least < |x - 1 / 2 * (l + u)| + 1 / 2 * (u - l)) :
    Fits l u x least (if 0 ≤ 1 / 2 * (l + u) - x then least else -least) := by
  split
  · rename_i hbelow
    rw [abs_of_nonpos (by linarith)] at hlong
    exact ⟨by linarith, by linarith, fun _ _ => by linarith, fun _ hneg => by linarith⟩
  · rename_i habove
    rw [abs_of_pos (by linarith)] at hlong
    exact ⟨by linarith, by linarith, fun _ hpos => by linarith, fun _ _ => by linarith⟩

/-- A fraction that passes the tests leads strictly inside the interval. -/
theorem exists_fraction {p q : ℝ} {move : Exact} (hq : 0 ≤ q)
    (hhalf : Scalar.abs (real p) < Scalar.abs (0.5 * real q * move))
    (hlower : real q * real (l - x) < real p) (hupper : real p < real q * real (u - x)) :
    ∃ d, real p / real q = real d ∧ l < x + d ∧ x + d < u := by
  have hq0 : q ≠ 0 := by
    rintro rfl
    cases move with
    | undefined => simp at hhalf
    | real m =>
      norm_num at hhalf
      linarith [abs_nonneg p]
  have hpos : 0 < q := lt_of_le_of_ne hq hq0.symm
  rw [Exact.real_mul_real, Exact.real_lt_real] at hlower hupper
  refine ⟨p / q, Exact.real_div_real hq0, ?_, ?_⟩
  · have := (lt_div_iff₀' hpos).2 hlower
    linarith
  · have := (div_lt_iff₀' hpos).2 hupper
    linarith

section

variable [Exact.Accuracy]

/-- The denominator of the move to the vertex is not below zero. -/
theorem parabola_nonneg {q : ℝ} (h : s.parabola.2 = real q) : 0 ≤ q := by
  unfold parabola at h
  dsimp only at h
  generalize (2 : Exact) * _ = t at h
  cases t with
  | undefined => cases h
  | real z =>
    obtain rfl : |z| = q := by simpa using h
    exact abs_nonneg z

namespace Spans

theorem middle_eq (h : s.Spans l u x) : s.middle = real (1 / 2 * (l + u)) := by
  rw [middle, h.lower_eq, h.upper_eq]
  norm_num

theorem exists_accuracy (h : s.Spans l u x) (he : 0 < e) :
    ∃ least, 0 < least ∧ s.accuracy (real e) = real least := by
  have hsqrt : Scalar.sqrt (Precision.relativePrecision : Exact) = real √Exact.Accuracy.relative :=
    if_neg Exact.Accuracy.relative_nonneg.not_gt
  refine ⟨√Exact.Accuracy.relative * |x| + e, by positivity, ?_⟩
  rw [accuracy, hsqrt, h.best_eq]
  rfl

/-- A search goes on while the longer part of its interval exceeds two accuracies. -/
theorem long_of_not_settled (h : s.Spans l u x) (hleast : s.accuracy (real e) = real least)
    (hgoes : s.isSettled (real e) = false) :
    2 * least < |x - 1 / 2 * (l + u)| + 1 / 2 * (u - l) := by
  rw [isSettled, decide_eq_false_iff_not, hleast, h.middle_eq, h.lower_eq, h.upper_eq,
    h.best_eq] at hgoes
  simp only [Exact.ofNat_eq_real, Exact.ofScientific_eq_real, Exact.real_sub_real,
    Exact.real_mul_real, Exact.abs_real, Exact.real_le_real, Nat.cast_ofNat, not_le] at hgoes
  norm_num at hgoes ⊢
  linarith

theorem fits_golden (h : s.Spans l u x) (hleast : 0 < least)
    (hlong : 2 * least < |x - 1 / 2 * (l + u)| + 1 / 2 * (u - l)) :
    ∃ d, s.goldenMove.1 = real d ∧ Fits l u x least d := by
  have hl := h.lower_le
  have hu := h.le_upper
  unfold goldenMove goldenFraction
  rw [h.middle_eq, h.lower_eq, h.upper_eq, h.best_eq]
  dsimp only
  split
  · rename_i habove
    rw [Exact.real_le_real] at habove
    rw [abs_of_nonneg (by linarith)] at hlong
    exact ⟨_, rfl, fits_golden_down hleast (by linarith) hu⟩
  · rename_i hbelow
    rw [Exact.real_le_real, not_le] at hbelow
    rw [abs_of_neg (by linarith)] at hlong
    exact ⟨_, rfl, fits_golden_up hleast (by linarith) hl⟩

/-- The next move fits into the interval. -/
theorem fits (h : s.Spans l u x) (hleast : 0 < least)
    (hlong : 2 * least < |x - 1 / 2 * (l + u)| + 1 / 2 * (u - l)) :
    ∃ d, (s.nextMove (real least)).1 = real d ∧ Fits l u x least d := by
  have hgolden := h.fits_golden hleast hlong
  unfold nextMove
  split
  · have hnonneg := fun q => parabola_nonneg (s := s) (q := q)
    generalize s.parabola = pq at hnonneg ⊢
    obtain ⟨p, q⟩ := pq
    dsimp only at hnonneg ⊢
    split
    · rename_i hguard
      simp only [Bool.and_eq_true, decide_eq_true_eq, h.lower_eq, h.upper_eq, h.best_eq] at hguard
      obtain ⟨⟨hhalf, hlower⟩, hupper⟩ := hguard
      -- the tests do not hold of anything undefined
      cases p with
      | undefined => exact absurd hupper (Exact.not_undefined_lt _)
      | real p =>
        cases q with
        | undefined => exact absurd hupper (Exact.not_lt_undefined _)
        | real q =>
          obtain ⟨d, hd, hld, hdu⟩ := exists_fraction (hnonneg q rfl) hhalf hlower hupper
          rw [hd, h.middle_eq, h.lower_eq, h.upper_eq, h.best_eq]
          simp only [Exact.ofNat_eq_real, Exact.real_add_real, Exact.real_sub_real,
            Exact.real_mul_real, Exact.real_lt_real, Nat.cast_ofNat, Bool.or_eq_true,
            decide_eq_true_eq]
          split
          · have hfits := fits_least hleast h.lower_le h.le_upper hlong
            refine ⟨_, ?_, hfits⟩
            simp only [signed, Exact.ofNat_eq_real, Nat.cast_zero, Exact.real_le_real,
              Exact.abs_real, Exact.neg_real, abs_of_pos hleast]
            split <;> rfl
          · rename_i hinner
            rw [not_or, not_lt, not_lt] at hinner
            exact ⟨d, rfl, fits_inner hleast hinner.1 hinner.2⟩
    · exact hgolden
  · exact hgolden

/-- The next sample is taken inside the interval. -/
theorem exists_target (h : s.Spans l u x) (hleast : 0 < least)
    (hlong : 2 * least < |x - 1 / 2 * (l + u)| + 1 / 2 * (u - l)) :
    ∃ v, s.target (real least) (s.nextMove (real least)).1 = real v ∧ l ≤ v ∧ v ≤ u := by
  obtain ⟨d, hd, hfits⟩ := h.fits hleast hlong
  rw [hd, target, h.best_eq]
  simp only [signed, Exact.ofNat_eq_real, Nat.cast_zero, Exact.abs_real, Exact.real_le_real,
    Exact.neg_real, abs_of_pos hleast]
  split
  · exact ⟨x + d, rfl, hfits.lower_le, hfits.le_upper⟩
  · rename_i hshort
    rw [not_le] at hshort
    split
    · rename_i hpos
      have hle := hfits.le_upper_of_short hshort hpos
      exact ⟨x + least, rfl, by linarith [h.lower_le], hle⟩
    · rename_i hneg
      have hle := hfits.lower_le_of_short hshort (not_le.1 hneg)
      exact ⟨x + -least, rfl, by linarith, by linarith [h.le_upper]⟩

/-- A new sample in the interval narrows it around the better of it and the best one. -/
theorem place (h : s.Spans l u x) {v : ℝ} (hp : p.x = real v) (hl : l ≤ v) (hu : v ≤ u) :
    ∃ l' u' x', (s.place p).Spans l' u' x' ∧ l ≤ l' ∧ u' ≤ u := by
  unfold Descent.place
  rw [h.best_eq, hp]
  simp only [Exact.real_le_real, Exact.real_lt_real]
  split
  · -- the new sample is the best one, and the old one becomes an end
    split
    · rename_i hright
      exact ⟨x, u, v, ⟨rfl, h.upper_eq, hp, hright, hu⟩, h.lower_le, le_rfl⟩
    · rename_i hleft
      exact ⟨l, x, v, ⟨h.lower_eq, rfl, hp, hl, (not_le.1 hleft).le⟩, le_rfl, h.le_upper⟩
  · -- the new sample becomes an end, whether or not it is remembered
    split
    · rename_i hleft
      refine ⟨v, u, x, ?_, hl, le_rfl⟩
      split <;> try split
      all_goals exact ⟨rfl, h.upper_eq, h.best_eq, hleft.le, h.le_upper⟩
    · rename_i hright
      refine ⟨l, v, x, ?_, le_rfl, hu⟩
      split <;> try split
      all_goals exact ⟨h.lower_eq, rfl, h.best_eq, h.lower_le, not_lt.1 hright⟩

/-- A step that goes on samples inside the interval, and leads to one inside it. -/
theorem step (h : s.Spans l u x) (he : 0 < e) (hstep : Descent.step f (real e) s = .next t) :
    (∃ v, (s.probe f (real e)).x = real v ∧ l ≤ v ∧ v ≤ u) ∧
      ∃ l' u' x', t.Spans l' u' x' ∧ l ≤ l' ∧ u' ≤ u := by
  obtain ⟨least, hpos, hleast⟩ := h.exists_accuracy he
  rw [step_eq] at hstep
  cases hsettled : s.isSettled (real e) with
  | true =>
    rw [hsettled] at hstep
    cases hstep
  | false =>
    rw [hsettled] at hstep
    obtain rfl : (s.moved (real e)).place (s.probe f (real e)) = t := Step.next.inj hstep
    obtain ⟨v, hv, hl, hu⟩ := h.exists_target hpos (h.long_of_not_settled hleast hsettled)
    have hprobe : (s.probe f (real e)).x = real v := by
      rw [probe, Point.sample_x, hleast, hv]
    have hmoved : (s.moved (real e)).Spans l u x :=
      ⟨h.lower_eq, h.upper_eq, h.best_eq, h.lower_le, h.le_upper⟩
    exact ⟨⟨v, hprobe, hl, hu⟩, hmoved.place hprobe hl hu⟩

end Spans

/-! ## All moves -/

/-- The numbers of the interval searched. -/
def interval (s : Descent Exact) : Set ℝ := {x | s.lower ≤ real x ∧ real x ≤ s.upper}

omit [Exact.Accuracy] in
theorem Spans.interval_eq (h : s.Spans l u x) : s.interval = Set.Icc l u := by
  rw [interval, h.lower_eq, h.upper_eq]
  rfl

theorem eq_of_step_eq_stop {precision : Exact} (h : step f precision s = .stop t) : t = s := by
  rw [step_eq] at h
  split at h
  · exact (Step.stop.inj h).symm
  · cases h

/-- Where a search between `a` and `b` stands after a number of steps. -/
noncomputable def after (f : Exact → Exact) (a b : ℝ) (precision : Exact) (n : ℕ) :
    Descent Exact :=
  Step.iterate (step f precision) n (start f (real a) (real b))

theorem after_succ (f : Exact → Exact) (a b : ℝ) (precision : Exact) (n : ℕ) :
    after f a b precision (n + 1) = (step f precision (after f a b precision n)).state :=
  Step.iterate_succ_state (fun _ _ h => eq_of_step_eq_stop h) n _

/-- A search starts at the golden section of its bracket. -/
theorem spans_start (f : Exact → Exact) (a b : ℝ) :
    ∃ x, (start f (real a) (real b)).Spans (min a b) (max a b) x := by
  have hsection : ∀ {l u : ℝ}, l ≤ u → l ≤ l + 0.3819660112501051 * (u - l) ∧
      l + 0.3819660112501051 * (u - l) ≤ u := by
    intro l u h
    constructor <;> linarith
  unfold start goldenFraction
  simp only [Exact.real_le_real]
  by_cases h : a ≤ b
  · rw [if_pos h, min_eq_left h, max_eq_right h]
    exact ⟨_, rfl, rfl, rfl, (hsection h).1, (hsection h).2⟩
  · have hba := (not_le.1 h).le
    rw [if_neg h, min_eq_right hba, max_eq_left hba]
    exact ⟨_, rfl, rfl, rfl, (hsection hba).1, (hsection hba).2⟩

/-- Whether or not a step is the last, it leads into the interval it starts from. -/
theorem Spans.state (h : s.Spans l u x) (he : 0 < e) :
    ∃ l' u' x', (Descent.step f (real e) s).state.Spans l' u' x' ∧ l ≤ l' ∧ u' ≤ u := by
  cases hstep : Descent.step f (real e) s with
  | stop t =>
    obtain rfl := eq_of_step_eq_stop hstep
    exact ⟨l, u, x, h, le_rfl, le_rfl⟩
  | next t => exact (h.step he hstep).2

theorem spans_after (f : Exact → Exact) (a b : ℝ) (he : 0 < e) (n : ℕ) :
    ∃ l u x, (after f a b (real e) n).Spans l u x := by
  induction n with
  | zero =>
    obtain ⟨x, h⟩ := spans_start f a b
    exact ⟨_, _, x, h⟩
  | succ n ih =>
    obtain ⟨l, u, x, h⟩ := ih
    rw [after_succ]
    obtain ⟨l', u', x', h', -, -⟩ := h.state (f := f) he
    exact ⟨l', u', x', h'⟩

/-- The interval searched only shrinks. -/
theorem antitone_interval (f : Exact → Exact) (a b : ℝ) (he : 0 < e) :
    Antitone fun n => (after f a b (real e) n).interval := by
  apply antitone_nat_of_succ_le
  intro n
  obtain ⟨l, u, x, h⟩ := spans_after f a b he n
  obtain ⟨l', u', x', h', hl, hu⟩ := h.state (f := f) he
  rw [← after_succ] at h'
  rw [h.interval_eq, h'.interval_eq]
  exact Set.Icc_subset_Icc hl hu

theorem interval_after_zero (f : Exact → Exact) (a b : ℝ) (precision : Exact) :
    (after f a b precision 0).interval = Set.uIcc a b := by
  obtain ⟨x, h⟩ := spans_start f a b
  exact h.interval_eq

/-- The samples of a number of steps are taken inside the interval they start from. -/
theorem Spans.mem_of_mem_samplesFrom (h : s.Spans l u x) (he : 0 < e) {n : ℕ}
    (hp : p ∈ samplesFrom f (real e) n s) : ∃ v ∈ Set.Icc l u, p.x = real v := by
  induction n generalizing s l u x with
  | zero => cases hp
  | succ n ih =>
    rw [samplesFrom] at hp
    cases hstep : Descent.step f (real e) s with
    | stop t =>
      rw [hstep] at hp
      cases hp
    | next t =>
      rw [hstep] at hp
      obtain ⟨⟨v, hv, hvl, hvu⟩, l', u', x', ht, hl, hu⟩ := h.step he hstep
      rcases List.mem_cons.1 hp with rfl | hp
      · exact ⟨v, ⟨hvl, hvu⟩, hv⟩
      · obtain ⟨w, hw, hpw⟩ := ih ht hp
        exact ⟨w, Set.Icc_subset_Icc hl hu hw, hpw⟩

end

/-! ## What is found -/

/-- In exact numbers of any accuracy, a search for a minimum samples between the ends of its
bracket only, and returns an abscissa between them.  The interval that it searches is the bracket
at first, always contains the best abscissa, and only shrinks. -/
theorem minimum_between [Exact.Accuracy] (f : Exact → Exact) (a b : ℝ)
    (tolerance : Tolerance Exact) (hprecision : 0 < tolerance.precision) :
    (∀ p ∈ samples f (real a) (real b) tolerance, ∃ x ∈ Set.uIcc a b, p.x = real x) ∧
      (∃ x ∈ Set.uIcc a b, (minimum f (real a) (real b) tolerance).x = real x) ∧
        let stage := after f a b tolerance.precision
        (stage 0).interval = Set.uIcc a b ∧ (Antitone fun n => (stage n).interval) ∧
          ∀ n, ∃ x ∈ (stage n).interval, (stage n).best.x = real x := by
  obtain ⟨precision, m⟩ := tolerance
  dsimp only at hprecision ⊢
  obtain ⟨e, rfl⟩ := Exact.exists_real (OrderedScalar.defined_of_le (Scalar.le_of_lt hprecision)).2
  have he : 0 < e := by simpa using hprecision
  have hzero := interval_after_zero f a b (real e)
  have hshrinks := antitone_interval f a b he
  have hbest : ∀ n, ∃ x ∈ (after f a b (real e) n).interval,
      (after f a b (real e) n).best.x = real x := by
    intro n
    obtain ⟨l, u, x, h⟩ := spans_after f a b he n
    rw [h.interval_eq]
    exact ⟨x, ⟨h.lower_le, h.le_upper⟩, h.best_eq⟩
  refine ⟨fun p hp => ?_, ?_, hzero, hshrinks, hbest⟩
  · obtain ⟨x, h⟩ := spans_start f a b
    rcases List.mem_cons.1 hp with rfl | hp
    · exact ⟨x, ⟨h.lower_le, h.le_upper⟩, h.best_eq⟩
    · exact h.mem_of_mem_samplesFrom he hp
  · obtain ⟨x, hx, hm⟩ := hbest m
    exact ⟨x, hzero ▸ hshrinks (Nat.zero_le m) hx, hm⟩

/-- A logarithm is undefined on part of this bracket, whose ends are exchanged. -/
theorem minimum_between_of_log :
    (0 : Exact) < real 1e-10 ∧
      ∃ x ∈ Set.uIcc 2 (-1), (minimum Scalar.log (real 2) (real (-1)) ⟨real 1e-10, 100⟩).x =
        real x := by
  have hpos : (0 : Exact) < real 1e-10 := by
    rw [Exact.ofNat_eq_real, Exact.real_lt_real]
    norm_num
  let _ := Exact.Accuracy.double
  exact ⟨hpos, (minimum_between Scalar.log 2 (-1) ⟨real 1e-10, 100⟩ hpos).2.1⟩

end Descent

end CurveSurvey

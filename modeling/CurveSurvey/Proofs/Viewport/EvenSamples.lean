import CurveSurvey.Proofs.Stretch
import CurveSurvey.Proofs.Viewport.Bounds

/-!
# The span of evenly spaced samples

What the samples of a whole curve show of its abscissae.

* `Interval.same_ofSpots_iff`: numbers are shown as a span whose ends they reach exactly if
  none of them is shown outside.
* `Viewport.spaced_of_finite` and `Viewport.spaced_of_overflow`: if the length of the bounds
  does not overflow, the samples are numbers that start at the lower end; if it does, only the
  upper end is finite.
* `Viewport.fitFullFunction_spans` puts this together: the bounds are spanned exactly if their
  length does not overflow and no sample gets past the upper end.
-/

namespace CurveSurvey

open Machine

namespace Scalar

variable {K : Type} [Scalar K] [OrderedScalar K] {s t limit : K}

theorem larger_mono (h : s ≤ t) : larger s limit ≤ larger t limit := by
  obtain ⟨hs, ht⟩ := OrderedScalar.defined_of_le h
  unfold larger
  rw [hs, ht]
  simp only [Bool.false_eq_true, if_false]
  split_ifs with hslim htlim htlim
  · exact le_refl_of_defined (defined_of_lt hslim).2
  · exact le_of_not_lt (defined_of_lt hslim).2 ht htlim
  · exact absurd (lt_of_le_of_lt h htlim) hslim
  · exact h

theorem smaller_mono (h : s ≤ t) : smaller s limit ≤ smaller t limit := by
  obtain ⟨hs, ht⟩ := OrderedScalar.defined_of_le h
  unfold smaller
  rw [hs, ht]
  simp only [Bool.false_eq_true, if_false]
  split_ifs with hslim htlim htlim
  · exact le_refl_of_defined (defined_of_lt hslim).1
  · exact absurd (lt_of_lt_of_le hslim h) htlim
  · exact le_of_not_lt hs (defined_of_lt htlim).1 hslim
  · exact h

/-- Bringing numbers inside a limit keeps their order. -/
theorem clamp_mono (h : s ≤ t) : clamp s limit ≤ clamp t limit := smaller_mono (larger_mono h)

end Scalar

namespace Interval

/-- What is shown of a list of numbers. -/
def ofSpots (limit : Float32) (l : List Float32) : Interval Float32 :=
  (l.map fun t => spot (Scalar.finiteOrNaN t) limit).foldl join unset

theorem covers_ofSpots_iff {i : Interval Float32} {l : List Float32} {limit : Float32} :
    Covers i (ofSpots limit l) ↔
      ∀ t ∈ l, Scalar.isFinite t = true → i.Holds (Scalar.clamp t limit) := by
  rw [ofSpots, covers_foldl_join_iff, List.forall_mem_map]
  exact (and_iff_right (covers_unset i)).trans
    (forall₂_congr fun _ _ => covers_spot_finiteOrNaN_iff)

/-- What is shown of a list of numbers is a span whose ends it reaches, exactly if none of
the finite numbers is shown outside. -/
theorem same_ofSpots_iff {l : List Float32} {limit : Float32} {span : Interval Float32}
    (hlower : ∃ s ∈ l, Scalar.isFinite s = true ∧ Scalar.clamp s limit ≤ span.lower)
    (hupper : ∃ t ∈ l, Scalar.isFinite t = true ∧ span.upper ≤ Scalar.clamp t limit) :
    Same (ofSpots limit l) span ↔
      ∀ t ∈ l, Scalar.isFinite t = true → span.Holds (Scalar.clamp t limit) := by
  have hshown := covers_ofSpots_iff.1 (Covers.refl (ofSpots limit l))
  constructor
  · rintro ⟨hsame, hsame'⟩ t ht hfinite
    obtain ⟨hle, hle'⟩ := hshown t ht hfinite
    exact ⟨(hsame.le_iff (.refl _)).1 hle, ((Scalar.Same.refl _).le_iff hsame').1 hle'⟩
  · intro hinside
    obtain ⟨hfirst, hlast⟩ := covers_ofSpots_iff.2 hinside
    obtain ⟨s, hs, hsfinite, hsle⟩ := hlower
    obtain ⟨t, ht, htfinite, hlet⟩ := hupper
    obtain ⟨hle, -⟩ := hshown s hs hsfinite
    obtain ⟨-, hle'⟩ := hshown t ht htfinite
    exact ⟨.inr (OrderedScalar.beq_iff.2
        ⟨OrderedScalar.trans hle hsle, hfirst (OrderedScalar.defined_of_le hle).1⟩),
      .inr (OrderedScalar.beq_iff.2
        ⟨hlast (OrderedScalar.defined_of_le hle').2, OrderedScalar.trans hlet hle'⟩)⟩

end Interval

namespace Viewport

variable {i : Interval Float32}

theorem upper_mem_spaced {count : ℕ} (h : 0 < count) : i.upper ∈ spaced i count :=
  List.mem_map.2 ⟨count - 1, List.mem_range.2 (by omega), if_pos rfl⟩

theorem offset_mem_spaced {count k : ℕ} (h : k < count - 1) :
    i.lower + i.length / Scalar.ofNat (count - 1) * Scalar.ofNat k ∈ spaced i count :=
  List.mem_map.2 ⟨k, List.mem_range.2 (by omega), if_neg h.ne⟩

/-! ## A length that does not overflow -/

section

variable {l u : ℝ} (hl : Represents i.lower l) (hu : Represents i.upper u) (hlu : l ≤ u)

include hl hu hlu

/-- Then the samples are numbers, the first of which is the lower end. -/
theorem spaced_of_finite (hfinite : Scalar.isFinite i.length = true) {count : ℕ}
    (hcount : 2 ≤ count) (hroom : count < 2 ^ 64) :
    (∃ s ∈ spaced i count, (s == i.lower) = true) ∧
      ∀ t ∈ spaced i count, Scalar.isNaN t = false ∧ i.lower ≤ t := by
  obtain ⟨length, hlength, hlength0⟩ := exists_represents_length hl hu hlu hfinite
  obtain ⟨n, hn, -, hn1, -⟩ := exists_represents_ofNat (n := count - 1) (by omega)
  obtain ⟨-, step, hstep, hstep0, -⟩ :=
    exists_represents_step hlength hlength0 hn (hn1 (by omega))
  constructor
  · refine ⟨_, offset_mem_spaced (k := 0) (by omega), ?_⟩
    have hprod := hstep.mul (represents_zero : Represents (Scalar.ofNat 0 : Float32) 0)
    rw [mul_zero] at hprod
    obtain ⟨d, hd, hd0, hd0'⟩ :=
      hprod.exists_between represents_zero represents_zero le_rfl le_rfl
    obtain rfl := le_antisymm hd0' hd0
    have hsum := hl.add hd
    rw [add_zero] at hsum
    exact beq_iff_val.2 ⟨hsum.defined, hl.defined, hsum.val_eq hl.defined hl.val_eq.symm⟩
  · intro t ht
    rcases mem_spaced ht with rfl | ⟨k, hk, rfl⟩
    · exact ⟨hu.defined, (hl.le_iff hu).2 hlu⟩
    · obtain ⟨k', hk', hk'0, -⟩ := exists_represents_ofNat (n := k) (by omega)
      have hprod := hstep.mul hk'
      have hoffset := hprod.ge_of_ge 0 isNaN_zero (by
        rw [val_zero]
        exact EReal.coe_nonneg.2 (mul_nonneg hstep0 hk'0))
      have hdefined := hl.defined_add hprod.defined
      rw [val_zero] at hoffset
      exact ⟨hdefined, le_add_of_val_nonneg hdefined hoffset⟩

/-! ## A length that overflows -/

/-- The length that overflows is positive. -/
theorem unpack_length_of_overflow (hover : Scalar.isFinite i.length = false) :
    unpack i.length = .infinity .positive := by
  have hlength := hu.sub hl
  rcases represents_or_infinite hlength.defined with ⟨length, hrep⟩ | ⟨sign, hsign⟩
  · exact absurd hrep.isFinite (Bool.eq_false_iff.1 hover)
  · cases sign with
    | positive => exact hsign
    | negative =>
      have hnonneg := hlength.ge_of_ge 0 isNaN_zero (by
        rw [val_zero]
        exact EReal.coe_nonneg.2 (sub_nonneg.2 hlu))
      rw [val_zero, val, hsign] at hnonneg
      exact absurd hnonneg (not_le.2 EReal.bot_lt_zero)

/-- Then the step is infinite, and so are all samples but the last, as far as they are defined;
the first one is not. -/
theorem spaced_of_overflow (hover : Scalar.isFinite i.length = false) {count : ℕ}
    (hcount : 2 ≤ count) (hroom : count < 2 ^ 64) :
    (∃ t ∈ spaced i count, Scalar.isNaN t = true) ∧
      ∀ t ∈ spaced i count, t = i.upper ∨ Scalar.isFinite t = false := by
  obtain ⟨n, hn, -, hn1, -⟩ := exists_represents_ofNat (n := count - 1) (by omega)
  obtain ⟨m, e, hm, hunpack, -⟩ := hn.unpack_positive (by linarith [hn1 (by omega)])
  have hstep : unpack (i.length / Scalar.ofNat (count - 1)) = .infinity .positive := by
    rw [unpack_div, unpack_length_of_overflow hl hu hlu hover, hunpack]
    exact Binary.stored_infinity _
  have hfirst : Scalar.isNaN
      (i.lower + i.length / Scalar.ofNat (count - 1) * Scalar.ofNat 0 : Float32) = true := by
    rw [isNaN_add_iff, isNaN_iff (t := _ * _), unpack_mul, hstep]
    exact .inr (.inl Binary.stored_notANumber)
  refine ⟨⟨_, offset_mem_spaced (by omega), hfirst⟩, fun t ht => ?_⟩
  refine (mem_spaced ht).imp_right ?_
  rintro ⟨k, hk, rfl⟩
  rcases Nat.eq_zero_or_pos k with rfl | hpos
  · refine Bool.eq_false_iff.2 fun hfinite => ?_
    obtain ⟨_, hrep⟩ := exists_represents hfinite
    exact Bool.false_ne_true (hrep.defined.symm.trans hfirst)
  · obtain ⟨k', hk', -, hk'1, -⟩ := exists_represents_ofNat (n := k) (by omega)
    obtain ⟨m', e', hm', hunpack', -⟩ := hk'.unpack_positive (by linarith [hk'1 hpos])
    have hoffset : unpack (i.length / Scalar.ofNat (count - 1) * Scalar.ofNat k : Float32) =
        .infinity .positive := by
      rw [unpack_mul, hstep, hunpack']
      exact Binary.stored_infinity _
    rw [isFinite_eq_unpack, unpack_add, hoffset,
      Binary.add_infinity_right _ (isNaN_eq_false_iff.1 hl.defined) hl.val_eq,
      Binary.stored_infinity]
    rfl

/-! ## The span -/

/-- If the length overflows, nothing but the upper end is shown. -/
theorem same_ofSpots_of_overflow (hover : Scalar.isFinite i.length = false) {count : ℕ}
    (hcount : 2 ≤ count) (hroom : count < 2 ^ 64) (limit : Float32) :
    (Interval.ofSpots limit (spaced i count)).Same
      ⟨Scalar.clamp i.upper limit, Scalar.clamp i.upper limit⟩ := by
  have hlast : i.upper ∈ spaced i count := upper_mem_spaced (by omega)
  have hself : Scalar.clamp i.upper limit ≤ Scalar.clamp i.upper limit :=
    Scalar.clamp_mono (Scalar.le_refl_of_defined hu.defined)
  refine (Interval.same_ofSpots_iff ?_ ?_).2 fun t ht hfinite => ?_
  · exact ⟨i.upper, hlast, hu.isFinite, hself⟩
  · exact ⟨i.upper, hlast, hu.isFinite, hself⟩
  · rcases (spaced_of_overflow hl hu hlu hover hcount hroom).2 t ht with rfl | hinfinite
    · exact ⟨hself, hself⟩
    · exact absurd hfinite (Bool.eq_false_iff.1 hinfinite)

/-- If it does not, the interval is spanned exactly if no sample is shown above it. -/
theorem same_ofSpots_iff_of_finite (hfinite : Scalar.isFinite i.length = true) {count : ℕ}
    (hcount : 2 ≤ count) (hroom : count < 2 ^ 64) (limit : Float32) :
    (Interval.ofSpots limit (spaced i count)).Same
        ⟨Scalar.clamp i.lower limit, Scalar.clamp i.upper limit⟩ ↔
      ∀ t ∈ spaced i count, Scalar.isFinite t = true →
        Scalar.clamp t limit ≤ Scalar.clamp i.upper limit := by
  obtain ⟨⟨s, hs, hfirst⟩, hsamples⟩ := spaced_of_finite hl hu hlu hfinite hcount hroom
  obtain ⟨hle, hge⟩ := OrderedScalar.beq_iff.1 hfirst
  have hsfinite : Scalar.isFinite s = true :=
    StridingPrecision.isFinite_of_between hge hle hl.isFinite hl.isFinite
  refine (Interval.same_ofSpots_iff ?_ ?_).trans (forall₃_congr fun t ht _ => ?_)
  · exact ⟨s, hs, hsfinite, Scalar.clamp_mono hle⟩
  · exact ⟨i.upper, upper_mem_spaced (by omega), hu.isFinite,
      Scalar.clamp_mono (Scalar.le_refl_of_defined hu.defined)⟩
  · exact and_iff_right (Scalar.clamp_mono (hsamples t ht).2)

end

/-- The abscissae that evenly spaced samples of a graph show in a new viewport. -/
theorem fitFullFunction_x {v : Viewport Float32} (hnew : v.interesting = Rect.unset)
    (f : Evaluator Float32) :
    (v.fitFullFunction fun c t => ⟨t, f c t⟩).interesting.x =
      Interval.ofSpots v.limit (spaced v.bounds v.settings.sampleSize) := by
  rw [fitFullFunction, fitPoints, foldl_fitInto_x, hnew, List.map_map]
  rfl

theorem finite_between {s t : Float32} (hs : Scalar.isFinite s = true)
    (ht : Scalar.isFinite t = true) :
    Scalar.isFinite (Interval.between s t).lower = true ∧
      Scalar.isFinite (Interval.between s t).upper = true ∧
      (Interval.between s t).lower ≤ (Interval.between s t).upper := by
  obtain ⟨_, hs'⟩ := exists_represents hs
  obtain ⟨_, ht'⟩ := exists_represents ht
  unfold Interval.between
  split
  · exact ⟨ht, hs, Scalar.le_of_lt ‹_›⟩
  · exact ⟨hs, ht, Scalar.le_of_not_lt hs'.defined ht'.defined ‹_›⟩

/-- What samples of a whole curve show of its abscissae in a new viewport.  The upper end of
the bounds is sampled exactly.  If the length of the bounds overflows, a sample is undefined,
and nothing but the upper end is shown.  Otherwise the lower end is sampled too, the samples
are numbers not below it, and the bounds are spanned exactly if no sample is shown above
them; none is if the step between the samples has all its digits, or the bounds are a point,
and there are not too many samples for the precision. -/
theorem fitFullFunction_spans {start goal : Float32} (hstart : Scalar.isFinite start = true)
    (hgoal : Scalar.isFinite goal = true) (ratio limit : Float32) (context : Context)
    (settings : Settings Float32) (hcount : 2 ≤ settings.sampleSize)
    (hroom : settings.sampleSize < 2 ^ 64) (f : Evaluator Float32) :
    let v := new start goal ratio context limit settings
    let samples := spaced v.bounds settings.sampleSize
    let shown := (v.fitFullFunction fun c t => ⟨t, f c t⟩).interesting.x
    let span : Interval Float32 :=
      ⟨Scalar.clamp v.bounds.lower limit, Scalar.clamp v.bounds.upper limit⟩
    v.bounds.upper ∈ samples ∧
      (Scalar.isFinite v.bounds.length = false →
        (∃ t ∈ samples, Scalar.isNaN t = true) ∧ shown.Same ⟨span.upper, span.upper⟩) ∧
      (Scalar.isFinite v.bounds.length = true →
        (∃ s ∈ samples, (s == v.bounds.lower) = true) ∧
        (∀ t ∈ samples, Scalar.isNaN t = false ∧ v.bounds.lower ≤ t) ∧
        (shown.Same span ↔
          ∀ t ∈ samples, Scalar.isFinite t = true → Scalar.clamp t limit ≤ span.upper) ∧
        (settings.sampleSize ≤ 5 * 10 ^ 5 → v.bounds.isPoint = true ∨
            Float32.ofBits 0x00800000 ≤
              v.bounds.length / Scalar.ofNat (settings.sampleSize - 1) →
          (∀ t ∈ samples, v.bounds.Holds t) ∧ shown.Same span)) := by
  intro v samples shown span
  obtain ⟨hlfinite, hufinite, hle⟩ := finite_between hstart hgoal
  obtain ⟨l, hl⟩ := exists_represents hlfinite
  obtain ⟨u, hu⟩ := exists_represents hufinite
  have hlu := (hl.le_iff hu).1 hle
  have hshown : shown = Interval.ofSpots limit samples := fitFullFunction_x rfl f
  rw [hshown]
  refine ⟨upper_mem_spaced (by omega), fun hover => ⟨?_, ?_⟩, fun hfinite => ?_⟩
  · exact (spaced_of_overflow hl hu hlu hover hcount hroom).1
  · exact same_ofSpots_of_overflow hl hu hlu hover hcount hroom limit
  · obtain ⟨hfirst, hsamples⟩ := spaced_of_finite hl hu hlu hfinite hcount hroom
    have hiff := same_ofSpots_iff_of_finite hl hu hlu hfinite hcount hroom limit
    refine ⟨hfirst, hsamples, hiff, fun hfew hnormal => ?_⟩
    have hinside : ∀ t ∈ samples, v.bounds.Holds t := fun t ht =>
      holds_of_step_normal hlfinite hufinite hle hfinite hfew hnormal ht
    exact ⟨hinside, hiff.2 fun t ht _ => Scalar.clamp_mono (hinside t ht).2⟩

/-- A curve over bounds whose step has all its digits. -/
theorem fitFullFunction_spans_ten :
    (new (-10) 10 0.5 {} 1e8 : Viewport Float32).bounds.length = 20 ∧
      ((new (-10) 10 0.5 {} 1e8 : Viewport Float32).fitFullFunction
        fun _ t => ⟨t, 1 / t⟩).interesting.x.Same ⟨-10, 10⟩ := by
  have hstart : Scalar.isFinite (-10 : Float32) = true := by decide +kernel
  have hgoal : Scalar.isFinite (10 : Float32) = true := by decide +kernel
  obtain ⟨-, -, hfinite⟩ := fitFullFunction_spans hstart hgoal 0.5 1e8 {} .standard
    (by decide) (by decide) fun _ t => 1 / t
  obtain ⟨-, -, -, hspans⟩ := hfinite (by decide +kernel)
  exact ⟨by decide +kernel, (hspans (by decide) (.inr (by decide +kernel))).2⟩

/-- If the length overflows, the first sample is undefined, and the lower end is not shown. -/
theorem overflowing_bounds_not_spanned :
    let v : Viewport Float32 := new (-3e38) 3e38 0.5 {} 1e8
    (∃ t ∈ spaced v.bounds v.settings.sampleSize, Scalar.isNaN t = true) ∧
      ¬ (v.fitFullFunction fun _ t => ⟨t, 0⟩).interesting.x.Same
        ⟨Scalar.clamp v.bounds.lower v.limit, Scalar.clamp v.bounds.upper v.limit⟩ := by
  refine ⟨by decide +kernel, fun hsame => ?_⟩
  have hlower := hsame.1
  unfold Scalar.Same at hlower
  revert hlower
  decide +kernel

end Viewport

end CurveSurvey

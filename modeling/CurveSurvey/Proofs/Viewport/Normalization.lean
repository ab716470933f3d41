import CurveSurvey.Proofs.Viewport.Containment

/-!
# The ratio of the axes

With exact numbers, the lengths of the two axes before the ratio is looked at decide which
axis is resized and to what.

* `Interval.Spans` says that an axis has two numbers in order as ends, a given length apart,
  and `Interval.IsReal` that it has some length.  Every step toward the window gives its axes
  such ends (`Viewport.Arranged.isReal_scaled`, `Viewport.Arranged.isReal_pretty`).
* `Viewport.spans_resizeAxis` is the law of one resized axis: it has the length asked for.
* `Viewport.Arranged` is what every call keeps of a viewport, whatever it gathers.
* `Call.normalizes_one_axis` is the result: which axis is resized, to which length, and when
  the window has these lengths too.
-/

namespace CurveSurvey

open Exact

/-! ## Axes with a length -/

namespace Interval

/-- Extending an interval leaves its ends in order. -/
theorem Ordered.extend {K : Type} [Scalar K] [OrderedScalar K] {i : Interval K} (h : i.Ordered)
    (t limit : K) : (i.extend t limit).Ordered := by
  cases ht : Scalar.isNaN t with
  | true =>
    rw [extend_of_isNaN i limit ht]
    exact h
  | false => exact ordered_of_le (extend_le ht i limit)

/-- An axis that can be shown as it is, is. -/
theorem Showable.displayable_of_le {K : Type} [Scalar K] [OrderedScalar K] {i : Interval K}
    {limit : K} (h : Showable limit i) (hle : i.lower ≤ i.upper) :
    Viewport.displayable i limit = i := by
  refine displayable_of_not_isShort h.lower hle h.upper ?_
  have hlong : minimalLength i.center ≤ i.upper - i.lower := h.long
  simp [isShort, hlong]

/-- The ends are numbers, in order and `n` apart. -/
def Spans (i : Interval Exact) (n : ℝ) : Prop :=
  ∃ a b : ℝ, a ≤ b ∧ i = ⟨real a, real b⟩ ∧ b - a = n

/-- The ends are numbers in order. -/
def IsReal (i : Interval Exact) : Prop := ∃ n, i.Spans n

variable {i : Interval Exact} {n : ℝ}

theorem Spans.nonneg (h : i.Spans n) : 0 ≤ n := by
  obtain ⟨a, b, hle, -, rfl⟩ := h
  exact sub_nonneg.2 hle

theorem Spans.length_eq (h : i.Spans n) : i.length = real n := by
  obtain ⟨a, b, -, rfl, rfl⟩ := h
  rfl

theorem spans_real {a b : ℝ} (h : a ≤ b) : (⟨real a, real b⟩ : Interval Exact).Spans (b - a) :=
  ⟨a, b, h, rfl, rfl⟩

theorem spans_between {x y : ℝ} (h : x ≤ y) : (between (real x) (real y)).Spans (y - x) := by
  rw [between_real, min_eq_left h, max_eq_right h]
  exact spans_real h

theorem isReal_between (x y : ℝ) : (between (real x) (real y)).IsReal := by
  rw [between_real]
  exact ⟨_, spans_real min_le_max⟩

theorem Ordered.isReal (h : i.Ordered) (hset : i.isSet = true) : i.IsReal := by
  obtain ⟨a, b, rfl⟩ := exists_real_of_isSet hset
  exact ⟨_, spans_real (h.le hset)⟩

theorem IsReal.isSet (h : i.IsReal) : i.isSet = true := by
  obtain ⟨n, a, b, -, rfl, -⟩ := h
  exact isSet_real a b

theorem IsReal.le (h : i.IsReal) : i.lower ≤ i.upper := by
  obtain ⟨n, a, b, hle, rfl, -⟩ := h
  exact hle

theorem IsReal.extend (h : i.IsReal) (t limit : Exact) : (i.extend t limit).IsReal := by
  obtain ⟨n, a, b, hle, rfl, -⟩ := h
  obtain ⟨c, d, heq, hc, hd⟩ := covers_real_iff.1 (covers_extend ⟨real a, real b⟩ t limit)
  rw [heq]
  exact ⟨_, spans_real (hc.trans (hle.trans hd))⟩

end Interval

namespace Viewport

open CurveSurvey.Interval

variable {axis other : Interval Exact}

/-- An axis without a length is given one. -/
theorem isReal_sanitizeAxis (haxis : axis.Ordered) (hother : other.Ordered) (ratio : ℝ) :
    (sanitizeAxis axis other (real ratio)).IsReal := by
  have hset : (if axis.isSet then axis else between 0 0).IsReal := by
    split
    · rename_i h
      exact haxis.isReal h
    · exact isReal_between _ _
  obtain ⟨n, hn⟩ : ∃ n, (if other.isSet then other.length else 0) = real n := by
    split
    · rename_i h
      obtain ⟨n, hn⟩ := hother.isReal h
      exact ⟨n, hn.length_eq⟩
    · exact ⟨0, by simp⟩
  unfold sanitizeAxis
  rw [hn]
  generalize (if axis.isSet then axis else between 0 0) = i at hset
  dsimp only
  split
  · exact hset
  · obtain ⟨-, a, b, -, rfl, -⟩ := hset
    split
    · exact isReal_between _ _
    · exact isReal_between _ _

/-- A resized axis has the length that was asked for. -/
theorem spans_resizeAxis (haxis : axis.IsReal) (i : Interval Exact) {n : ℝ} (hn : 0 ≤ n) :
    (resizeAxis axis i (real n)).Spans n := by
  obtain ⟨-, a, b, -, rfl, -⟩ := haxis
  have hbetween : ∀ x y : ℝ, y - x = n → (between (real x) (real y)).Spans n := by
    intro x y hxy
    have h := spans_between (x := x) (y := y) (by linarith)
    rwa [hxy] at h
  unfold resizeAxis
  dsimp only
  split
  · rename_i hlt
    obtain ⟨l, hl⟩ := exists_real (Scalar.defined_of_lt hlt).1
    rw [hl, real_add_real]
    exact hbetween _ _ (by ring)
  · split
    · rename_i hlt
      obtain ⟨u, hu⟩ := exists_real (Scalar.defined_of_lt hlt).2
      rw [hu, real_sub_real]
      exact hbetween _ _ (by ring)
    · exact hbetween _ _ (by ring)

/-- No axis is set in an unset rectangle. -/
theorem isSet_axis_unset (vertical : Bool) :
    ((Rect.unset : Rect Exact).axis vertical).isSet = false := by
  cases vertical <;> simp [Rect.axis, Rect.unset, Interval.isSet, unset]

theorem sanitizeAxis_of_lt {a b : ℝ} (h : a < b) (other : Interval Exact) (ratio : Exact) :
    sanitizeAxis ⟨real a, real b⟩ other ratio = ⟨real a, real b⟩ := by
  simp [sanitizeAxis, isPoint, h.ne]

/-- What is long enough along both axes is shown as it is, where there are no magnitudes and
no forced axes. -/
theorem scaled_eq_interesting {v : Viewport Exact} (hforced : v.forced = Rect.unset)
    (hmagnitude : v.magnitude = Rect.unset) {a b c d : ℝ} (hab : a < b) (hcd : c < d)
    (h : v.interesting = ⟨⟨real a, real b⟩, ⟨real c, real d⟩⟩) : v.scaled = v.interesting := by
  have hunset : ∀ i : Interval Exact, i.extend undefined v.limit = i := fun i =>
    extend_of_isNaN i v.limit isNaN_undefined
  simp [scaled, sanitized, hforced, hmagnitude, h, Rect.extend, Rect.unset, unset, hunset,
    sanitizeAxis_of_lt hab, sanitizeAxis_of_lt hcd, Interval.isSet]

/-! ## What every call keeps -/

/-- A viewport made by calls: its settings by the setters, its ends in order. -/
structure Arranged {K : Type} [Scalar K] (v : Viewport K) : Prop where
  /-- The settings were made by the setters. -/
  settings : v.settings.Reachable
  /-- The ends of the interesting rectangle are in order. -/
  interesting : ∀ vertical, (v.interesting.axis vertical).Ordered
  /-- So are those of the forced one. -/
  forced : ∀ vertical, (v.forced.axis vertical).Ordered

theorem ordered_axis {K : Type} [Scalar K] {r : Rect K} (hx : r.x.Ordered) (hy : r.y.Ordered)
    (vertical : Bool) : (r.axis vertical).Ordered := by
  cases vertical
  · exact hy
  · exact hx

theorem Arranged.fitPoints {K : Type} [Scalar K] [OrderedScalar K] {v : Viewport K}
    (h : v.Arranged) (vertical : Bool) (points : List (Point K)) :
    (v.fitPoints vertical points).Arranged := by
  suffices hr : ∀ r : Rect K, (∀ w, (r.axis w).Ordered) →
      ∀ w, ((points.foldl (fitInto v.limit vertical) r).axis w).Ordered from
    { h with interesting := hr _ h.interesting }
  induction points with
  | nil => exact fun r hr => hr
  | cons p points ih =>
    intro r hr
    exact ih _ (ordered_axis ((hr true).extend _ _) ((hr false).extend _ _))

/-! ## The lengths before and after -/

/-- The coverage asked of a resized axis is positive. -/
theorem Settings.Reachable.minimalCoverage_pos {s : Settings Exact} (h : s.Reachable) :
    0 < s.minimalCoverage := by
  induction h with
  | standard =>
    simp only [Settings.standard, ofNat_eq_real, ofScientific_eq_real, real_lt_real]
    norm_num
  | withSampleSize _ h ih =>
    unfold Settings.withSampleSize at h
    split at h <;> cases h
    exact ih
  | withPointCaps _ h ih =>
    unfold Settings.withPointCaps at h
    split at h <;> cases h
    exact ih
  | withMarginAroundZero _ h ih =>
    unfold Settings.withMarginAroundZero at h
    split at h <;> cases h
    exact ih
  | withAsymptoteThreshold _ h ih =>
    unfold Settings.withAsymptoteThreshold at h
    split at h <;> cases h
    exact ih
  | withDichotomyIterations _ n ih => exact ih
  | withMinimalCoverage _ h ih =>
    unfold Settings.withMinimalCoverage at h
    split at h
    · rename_i hcoverage
      cases h
      simp only [Bool.and_eq_true, decide_eq_true_eq] at hcoverage
      exact hcoverage.1
    · cases h

/-- The choice falls on a free axis. -/
theorem isFree_of_isChosen {K : Type} [Scalar K] {v : Viewport K} {force vertical : Bool}
    (h : v.isChosen force vertical = true) : v.isFree force vertical = true := by
  unfold isChosen at h
  split at h
  · rename_i hboth
    exact (Bool.and_eq_true _ _ ▸ hboth).1
  · exact h

theorem isFree_true {K : Type} [Scalar K] (v : Viewport K) (vertical : Bool) :
    v.isFree true vertical = !(v.forced.axis vertical).isSet := by
  simp [isFree]

namespace Arranged

variable {v : Viewport Exact} {force vertical : Bool}

theorem isReal_sanitized (h : v.Arranged) (hratio : 0 < v.ratio) (vertical : Bool) :
    (v.sanitized.axis vertical).IsReal := by
  obtain ⟨⟨ρ, hρ⟩, σ, hσ⟩ := exists_ratios hratio
  have hx : v.sanitized.x.IsReal := by
    by_cases hset : v.forced.x.isSet = true
    · rw [show v.sanitized.x = v.forced.x from if_pos hset]
      exact (h.forced true).isReal hset
    · rw [show v.sanitized.x = sanitizeAxis v.interesting.x v.interesting.y (1 / v.ratio) from
        if_neg hset, hσ]
      exact isReal_sanitizeAxis (h.interesting true) (h.interesting false) σ
  have hy : v.sanitized.y.IsReal := by
    by_cases hset : v.forced.y.isSet = true
    · rw [show v.sanitized.y = v.forced.y from if_pos hset]
      exact (h.forced false).isReal hset
    · rw [show v.sanitized.y = sanitizeAxis v.interesting.y v.sanitized.x v.ratio from
        if_neg hset, hρ]
      exact isReal_sanitizeAxis (h.interesting false) (ordered_of_le hx.le) ρ
  cases vertical
  · exact hy
  · exact hx

/-- Before the ratio is looked at, both axes have a length. -/
theorem isReal_scaled (h : v.Arranged) (hratio : 0 < v.ratio) (vertical : Bool) :
    (v.scaled.axis vertical).IsReal := by
  have hsanitized := h.isReal_sanitized hratio vertical
  cases vertical
  · exact (hsanitized.extend _ _).extend _ _
  · exact (hsanitized.extend _ _).extend _ _

/-- The two lengths before the ratio is looked at, and what it asks of them. -/
theorem exists_lengths (h : v.Arranged) (hratio : 0 < v.ratio) :
    ∃ ρ X Y : ℝ, 0 < ρ ∧ v.ratio = real ρ ∧ v.scaled.x.Spans X ∧ v.scaled.y.Spans Y ∧
      v.normalLength true = real (Y / ρ) ∧ v.normalLength false = real (X * ρ) := by
  obtain ⟨⟨ρ, hρ⟩, -⟩ := exists_ratios hratio
  have hpos : 0 < ρ := by simpa [hρ] using hratio
  obtain ⟨X, hX : v.scaled.x.Spans X⟩ := h.isReal_scaled hratio true
  obtain ⟨Y, hY : v.scaled.y.Spans Y⟩ := h.isReal_scaled hratio false
  refine ⟨ρ, X, Y, hpos, hρ, hX, hY, ?_, ?_⟩
  · show v.scaled.y.length / v.ratio = _
    rw [hρ, hY.length_eq, real_div_real hpos.ne']
  · show v.scaled.x.length * v.ratio = _
    rw [hρ, hX.length_eq, real_mul_real]

/-- The length that the ratio asks of an axis is one. -/
theorem exists_normalLength (h : v.Arranged) (hratio : 0 < v.ratio) (vertical : Bool) :
    ∃ n : ℝ, 0 ≤ n ∧ v.normalLength vertical = real n := by
  obtain ⟨ρ, X, Y, hpos, -, hX, hY, hx, hy⟩ := h.exists_lengths hratio
  cases vertical
  · exact ⟨_, mul_nonneg hX.nonneg hpos.le, hy⟩
  · exact ⟨_, div_nonneg hY.nonneg hpos.le, hx⟩

/-- An axis is left as it was scaled, or it was chosen and has the length asked for. -/
theorem pretty_axis_cases (h : v.Arranged) (hratio : 0 < v.ratio) (force vertical : Bool) :
    (v.pretty force).axis vertical = v.scaled.axis vertical ∨
      v.isChosen force vertical = true ∧
        ∃ n, v.normalLength vertical = real n ∧ ((v.pretty force).axis vertical).Spans n := by
  rcases v.pretty_axis force vertical with heq | ⟨hchosen, heq⟩
  · exact .inl heq
  · obtain ⟨n, hn, hnormal⟩ := h.exists_normalLength hratio vertical
    refine .inr ⟨hchosen, n, hnormal, ?_⟩
    rw [heq, hnormal]
    exact spans_resizeAxis (h.isReal_scaled hratio vertical) _ hn

theorem isReal_pretty (h : v.Arranged) (hratio : 0 < v.ratio) (force vertical : Bool) :
    ((v.pretty force).axis vertical).IsReal := by
  rcases h.pretty_axis_cases hratio force vertical with heq | ⟨-, n, -, hspans⟩
  · rw [heq]
    exact h.isReal_scaled hratio vertical
  · exact ⟨n, hspans⟩

/-- Unless the ratio is kept in any case, an axis is resized only where the interesting
interval fits and covers enough. -/
theorem length_of_resized (h : v.Arranged) (hratio : 0 < v.ratio)
    (hne : (v.pretty false).axis vertical ≠ v.scaled.axis vertical) :
    (v.interesting.axis vertical).length ≤ ((v.pretty false).axis vertical).length ∧
      ((v.pretty false).axis vertical).length ≤
        (v.scaled.axis vertical).length / v.settings.minimalCoverage := by
  obtain ⟨hchosen, n, hnormal, hspans⟩ :=
    (h.pretty_axis_cases hratio false vertical).resolve_left hne
  obtain ⟨old, hold⟩ := h.isReal_scaled hratio vertical
  have hpos := h.settings.minimalCoverage_pos
  obtain ⟨c, hc⟩ := exists_real (Scalar.defined_of_lt hpos).2
  rw [hc] at hpos
  have hfree := isFree_of_isChosen hchosen
  simp only [isFree, isResizable, Bool.and_eq_true, Bool.false_or, decide_eq_true_eq, hnormal,
    hold.length_eq, hc, real_mul_real, real_le_real] at hfree
  obtain ⟨-, hcovered, hfits⟩ := hfree
  have hpos' : 0 < c := by simpa using hpos
  rw [hspans.length_eq, hold.length_eq, hc, real_div_real hpos'.ne', real_le_real]
  exact ⟨hfits, (le_div_iff₀ hpos').2 hcovered⟩

/-- Where the ratio is kept in any case and no axis is forced, the resized axis grows. -/
theorem length_lt_of_resized (h : v.Arranged) (hratio : 0 < v.ratio)
    (hfree : ∀ vertical, (v.forced.axis vertical).isSet = false)
    (hne : (v.pretty true).axis vertical ≠ v.scaled.axis vertical) :
    (v.scaled.axis vertical).length < ((v.pretty true).axis vertical).length := by
  obtain ⟨hchosen, n, hnormal, hspans⟩ :=
    (h.pretty_axis_cases hratio true vertical).resolve_left hne
  simp only [isChosen, isFree_true, hfree, Bool.not_false, Bool.and_self, if_true,
    decide_eq_true_eq] at hchosen
  rw [hspans.length_eq, ← hnormal]
  exact hchosen

/-- Where an axis is chosen, the lengths have the ratio in the end. -/
theorem ratio_of_isChosen (h : v.Arranged) (hratio : 0 < v.ratio)
    (hchosen : v.isChosen force vertical = true) :
    (v.pretty force).y.length = v.ratio * (v.pretty force).x.length := by
  obtain ⟨ρ, X, Y, hpos, hρ, hX, hY, hx, hy⟩ := h.exists_lengths hratio
  have hxSpans := spans_resizeAxis ⟨X, hX⟩ v.interesting.x (div_nonneg hY.nonneg hpos.le)
  have hySpans := spans_resizeAxis ⟨Y, hY⟩ v.interesting.y (mul_nonneg hX.nonneg hpos.le)
  rw [pretty_eq, hρ, hx, hy]
  split
  · -- the horizontal axis follows the vertical one
    show v.scaled.y.length = real ρ * (resizeAxis v.scaled.x _ _).length
    rw [hY.length_eq, hxSpans.length_eq, real_mul_real, mul_div_cancel₀ Y hpos.ne']
  · rename_i hnot
    have hchosen' : v.isChosen force false = true := by
      cases vertical
      · exact hchosen
      · exact absurd hchosen hnot
    -- the vertical axis follows the horizontal one
    rw [if_pos hchosen']
    show (resizeAxis v.scaled.y _ _).length = real ρ * v.scaled.x.length
    rw [hX.length_eq, hySpans.length_eq, real_mul_real, mul_comm]

/-- Where the ratio is kept in any case and an axis is free, the lengths have the ratio. -/
theorem ratio_of_pretty (h : v.Arranged) (hratio : 0 < v.ratio)
    (hfree : ∃ vertical, (v.forced.axis vertical).isSet = false) :
    (v.pretty true).y.length = v.ratio * (v.pretty true).x.length := by
  by_cases hchosen : ∃ vertical, v.isChosen true vertical = true
  · obtain ⟨vertical, hchosen⟩ := hchosen
    exact h.ratio_of_isChosen hratio hchosen
  · -- an axis is free and neither is chosen, so both are free and neither grows
    have hboth : ∀ vertical, (v.forced.axis vertical).isSet = false := by
      by_contra! hforced
      obtain ⟨w, hw⟩ := hfree
      obtain ⟨w', hw'⟩ := hforced
      obtain rfl : w' = !w := by
        cases w <;> cases w' <;> simp_all
      exact hchosen ⟨w, by simp [isChosen, isFree_true, hw, hw']⟩
    have hnot : ∀ vertical, ¬ (v.scaled.axis vertical).length < v.normalLength vertical := by
      intro vertical hlt
      exact hchosen ⟨vertical, by simp [isChosen, isFree_true, hboth, hlt]⟩
    obtain ⟨ρ, X, Y, hpos, hρ, hX, hY, hx, hy⟩ := h.exists_lengths hratio
    have hnotX := hnot true
    have hnotY := hnot false
    rw [show (v.scaled.axis true).length = real X from hX.length_eq, hx, real_lt_real, not_lt,
      div_le_iff₀ hpos] at hnotX
    rw [show (v.scaled.axis false).length = real Y from hY.length_eq, hy, real_lt_real, not_lt]
      at hnotY
    rw [pretty_eq, if_neg fun h => hchosen ⟨true, h⟩, if_neg fun h => hchosen ⟨false, h⟩, hρ,
      hX.length_eq, hY.length_eq, real_mul_real, mul_comm]
    exact congrArg real (le_antisymm hnotX hnotY)

end Arranged

end Viewport

/-! ## Calls -/

namespace Call

section

variable {K : Type} [Precision K] [OrderedScalar K] {v : Viewport K}

theorem arranged_run (h : v.Arranged) (call : Call K) :
    (call.run v).Arranged ∧ (call.run v).settings = v.settings ∧
      (call.run v).ratio = v.ratio ∧ (call.run v).limit = v.limit := by
  cases call with
  | setBounds start goal => exact ⟨{ h with }, rfl, rfl, rfl⟩
  | setForced x y =>
    exact ⟨{ h with forced := Viewport.ordered_axis x.ordered_interval y.ordered_interval },
      rfl, rfl, rfl⟩
  | fit f =>
    rw [run, f.run_eq_fitPoints v h.settings]
    exact ⟨h.fitPoints _ _, rfl, rfl, rfl⟩
  | fitMagnitude curve vertical => exact ⟨{ h with }, rfl, rfl, rfl⟩

/-- Calls keep the ends in order, and they change neither settings nor ratio nor limit. -/
theorem arranged_runs (h : v.Arranged) (calls : List (Call K)) :
    (runs v calls).Arranged ∧ (runs v calls).settings = v.settings ∧
      (runs v calls).ratio = v.ratio ∧ (runs v calls).limit = v.limit := by
  induction calls generalizing v with
  | nil => exact ⟨h, rfl, rfl, rfl⟩
  | cons call calls ih =>
    obtain ⟨hrun, hsettings, hratio, hlimit⟩ := arranged_run h call
    obtain ⟨hruns, hsettings', hratio', hlimit'⟩ := ih hrun
    exact ⟨hruns, hsettings'.trans hsettings, hratio'.trans hratio, hlimit'.trans hlimit⟩

end

/-- With exact numbers, at most one axis is given another length than it was scaled to, and
no forced axis is.  Unless the ratio is kept in any case, the new length holds the interesting
interval and is covered enough by the old one.  Kept in any case, the lengths have the ratio
as soon as one axis is free, and the resized axis grows if both are.  All these lengths are
those of the window where the axes can be shown as they are. -/
theorem normalizes_one_axis {ratio : Exact} {settings : Viewport.Settings Exact}
    (hratio : 0 < ratio) (hsettings : settings.Reachable) (start goal limit : Exact)
    (context : Context) (calls : List (Call Exact)) (force : Bool) :
    let v := runs (Viewport.new start goal ratio context limit settings) calls
    let scaled := v.scaled
    let pretty := v.pretty force
    (∀ vertical, (scaled.axis vertical).IsReal ∧ (pretty.axis vertical).IsReal) ∧
      (∃ vertical, pretty.axis vertical = scaled.axis vertical) ∧
      (∀ vertical, (v.forced.axis vertical).isSet = true →
        pretty.axis vertical = scaled.axis vertical) ∧
      (force = false → ∀ vertical, pretty.axis vertical ≠ scaled.axis vertical →
        (v.interesting.axis vertical).length ≤ (pretty.axis vertical).length ∧
          (pretty.axis vertical).length ≤
            (scaled.axis vertical).length / settings.minimalCoverage) ∧
      (force = true → (∃ vertical, (v.forced.axis vertical).isSet = false) →
        pretty.y.length = ratio * pretty.x.length) ∧
      (force = true → (∀ vertical, (v.forced.axis vertical).isSet = false) →
        ∀ vertical, pretty.axis vertical ≠ scaled.axis vertical →
          (scaled.axis vertical).length < (pretty.axis vertical).length) ∧
      ∀ vertical, (pretty.axis vertical).Showable limit →
        (v.window force).axis vertical = pretty.axis vertical := by
  intro v scaled pretty
  have hnew : (Viewport.new start goal ratio context limit settings).Arranged :=
    { settings := hsettings
      interesting := Viewport.ordered_axis Interval.ordered_unset Interval.ordered_unset
      forced := Viewport.ordered_axis Interval.ordered_unset Interval.ordered_unset }
  obtain ⟨hv, hsettings', hratio', hlimit⟩ := arranged_runs hnew calls
  have hpos : 0 < v.ratio := lt_of_lt_of_eq hratio hratio'.symm
  refine ⟨?_, ?_, ?_, ?_, ?_, ?_, ?_⟩
  · exact fun vertical => ⟨hv.isReal_scaled hpos vertical, hv.isReal_pretty hpos force vertical⟩
  · show ∃ vertical, (v.pretty force).axis vertical = v.scaled.axis vertical
    rcases v.pretty_eq_or force with heq | heq | heq <;> rw [heq]
    · exact ⟨true, rfl⟩
    · exact ⟨false, rfl⟩
    · exact ⟨true, rfl⟩
  · exact fun vertical hforced => v.pretty_axis_of_forced force vertical hforced
  · rintro rfl vertical hne
    have hlength := hv.length_of_resized hpos hne
    rwa [hsettings'] at hlength
  · rintro rfl hfree
    have hlength := hv.ratio_of_pretty hpos hfree
    rwa [hratio'] at hlength
  · rintro rfl hfree vertical hne
    exact hv.length_lt_of_resized hpos hfree hne
  · intro vertical hshowable
    rw [Viewport.window_axis, hlimit]
    exact hshowable.displayable_of_le (hv.isReal_pretty hpos force vertical).le

/-! ## A line that is too flat -/

/-- Settings with which a curve is sampled at its ends. -/
noncomputable def endsOnly : Viewport.Settings Exact :=
  { Viewport.Settings.standard with sampleSize := 2 }

/-- A line of slope one half. -/
noncomputable def flatLine : Viewport Exact :=
  runs (Viewport.new (real (-1)) (real 1) (real 1) {} 100 endsOnly)
    [.fit (.fullFunction fun _ t => ⟨t, 0.5 * t⟩)]

theorem interesting_flatLine :
    flatLine.interesting = ⟨⟨real (-1), real 1⟩, ⟨real (-1 / 2), real (1 / 2)⟩⟩ := by
  have hsamples : Viewport.spaced (⟨real (-1), real 1⟩ : Interval Exact) 2 =
      [real (-1), real 1] := by
    have hzero : (Scalar.ofNat 0 : Exact) = real 0 := congrArg real Nat.cast_zero
    have hone : (Scalar.ofNat 1 : Exact) = real 1 := congrArg real Nat.cast_one
    simp [Viewport.spaced, List.range_succ, Interval.length, hzero, hone, real_div_real]
  have hbounds : flatLine.bounds = ⟨real (-1), real 1⟩ := by
    show Interval.between (real (-1)) (real 1) = _
    norm_num
  show ((Viewport.spaced flatLine.bounds 2).map fun t =>
    (⟨t, 0.5 * t⟩ : Point Exact)).foldl (Viewport.fitInto 100 false) Rect.unset = _
  have hlimit : (100 : Exact) = real 100 := ofNat_eq_real 100
  rw [hbounds, hsamples, hlimit]
  norm_num [Viewport.fitInto, Rect.extend, Interval.extend, Point.finitePart, Scalar.finiteOrNaN,
    Rect.unset, Interval.unset]

/-- The line is made as high as it is wide: the vertical axis doubles. -/
theorem flatLine_steepened :
    (0 : Exact) < real 1 ∧ endsOnly.Reachable ∧
      (flatLine.pretty true).x = flatLine.scaled.x ∧
      flatLine.scaled.y.length = real 1 ∧ (flatLine.pretty true).y.length = real 2 := by
  have hratio : (0 : Exact) < real 1 := by simp
  have hsettings : (Viewport.Settings.standard : Viewport.Settings Exact).withSampleSize 2 =
      .ok endsOnly := rfl
  have hreachable : endsOnly.Reachable := .withSampleSize .standard hsettings
  obtain ⟨hreal, hone, -, -, hlaw, hgrows, -⟩ := normalizes_one_axis hratio hreachable (real (-1))
    (real 1) 100 {} [.fit (.fullFunction fun _ t => ⟨t, 0.5 * t⟩)] true
  have hscaled : flatLine.scaled = ⟨⟨real (-1), real 1⟩, ⟨real (-1 / 2), real (1 / 2)⟩⟩ :=
    (Viewport.scaled_eq_interesting rfl rfl (by norm_num) (by norm_num)
      interesting_flatLine).trans interesting_flatLine
  have hX : flatLine.scaled.x.length = real 2 := by
    rw [hscaled]
    norm_num [Interval.length]
  have hY : flatLine.scaled.y.length = real 1 := by
    rw [hscaled]
    norm_num [Interval.length]
  have hfree : ∀ vertical, (flatLine.forced.axis vertical).isSet = false :=
    Viewport.isSet_axis_unset
  have hratio' : (flatLine.pretty true).y.length = real 1 * (flatLine.pretty true).x.length :=
    hlaw rfl ⟨true, hfree true⟩
  obtain ⟨n, hn : (flatLine.pretty true).x.Spans n⟩ := (hreal true).2
  rw [hn.length_eq, real_mul_real, one_mul] at hratio'
  have hx : (flatLine.pretty true).x = flatLine.scaled.x := by
    by_contra hne
    -- then the vertical axis keeps its length, so the horizontal one would shrink to it
    have hlt : flatLine.scaled.x.length < (flatLine.pretty true).x.length :=
      hgrows rfl hfree true hne
    obtain ⟨vertical, hsame⟩ := hone
    cases vertical with
    | true => exact hne hsame
    | false =>
      have hy : (flatLine.pretty true).y = flatLine.scaled.y := hsame
      rw [hy, hY, Exact.real.injEq] at hratio'
      rw [hX, hn.length_eq, real_lt_real] at hlt
      linarith
  refine ⟨hratio, hreachable, hx, hY, ?_⟩
  rw [hratio', ← hn.length_eq, hx, hX]

end Call

end CurveSurvey

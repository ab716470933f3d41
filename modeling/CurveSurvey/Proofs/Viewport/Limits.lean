import CurveSurvey.Proofs.Finite
import CurveSurvey.Proofs.Interval
import CurveSurvey.Viewport.Window

/-!
# Moving an interval inside the limit

The last step before an interval is shown.  Its ends are brought inside `±limit`,
and one that has become too short is lengthened.  The minimal length is a share of
the center, and that share is a hundred times the rounding error, so the ends stay
apart whatever is rounded on the way.

* `Interval.exists_minimalLength` bounds the minimal length from both sides, and
  `Interval.exists_center` the error of the center.
* `Interval.error_lt_needed` compares the two.
* `Interval.isDisplayable_displayable` is the result: every proper interval becomes
  one that can be shown.
-/

namespace CurveSurvey

open Float.Model (UnpackedFloat)

namespace Machine

/-! ## Single precision -/

/-- How far a rounded number may be from the exact one. -/
theorem Result.near_single {t : Float32} {a b : ℝ} (h : Result (a : EReal) t)
    (ht : Represents t b) : |b - a| ≤ |a| * 1e-7 + 1e-40 := by
  have hnear := h.near a b rfl ht.val_eq
  have hformat : format Float32 = .binary32 := rfl
  rw [hformat] at hnear
  norm_num [Float.Model.Format.mantissaBits, Float.Model.Format.minExponent] at hnear ⊢
  have := abs_nonneg a
  linarith

theorem represents_half : Represents (0.5 : Float32) (1 / 2) := by
  have h : unpack (0.5 : Float32) = .finite .positive (2 ^ 23) (-24) (by decide) := rfl
  exact represents_of_unpack h (by norm_num)

/-- The least length of an axis is a little less than `1e-5`. -/
theorem represents_share : Represents (1e-5 : Float32) (10995116 / 2 ^ 40) := by
  have h : unpack (1e-5 : Float32) = .finite .positive 10995116 (-40) (by decide) := rfl
  exact represents_of_unpack h (by norm_num)

theorem represents_zero : Represents (0 : Float32) 0 := ⟨isNaN_zero, val_zero⟩

theorem represents_one : Represents (1 : Float32) 1 := by
  have h : unpack (1 : Float32) = .finite .positive (2 ^ 23) (-23) (by decide) := rfl
  exact represents_of_unpack h (by norm_num)

end Machine

namespace Scalar

open Machine

/-! ## Clamping -/

variable {s t limit : Float32}

/-- An undefined number is brought onto the lower limit. -/
theorem clamp_of_isNaN (ht : isNaN t = true) (h : -limit ≤ limit) : clamp t limit = -limit := by
  unfold clamp smaller larger
  simp only [ht, if_true, (OrderedScalar.defined_of_le h).1, Bool.false_eq_true, if_false]
  rw [if_neg fun hlt => not_le_of_lt hlt h]

theorem val_clamp (ht : isNaN t = false) (h : -limit ≤ limit) :
    val (clamp t limit) = min (max (val t) (-val limit)) (val limit) := by
  obtain ⟨hneg, hlim⟩ := OrderedScalar.defined_of_le h
  have hlarger : isNaN (larger t (-limit)) = false ∧
      val (larger t (-limit)) = max (val t) (-val limit) := by
    unfold larger
    rw [ht]
    simp only [Bool.false_eq_true, if_false]
    split
    · rename_i hlt
      exact ⟨hneg, by rw [val_neg, max_eq_right]; simpa using (lt_iff_val.1 hlt).2.2.le⟩
    · rename_i hlt
      have hle := (le_iff_val.1 (le_of_not_lt hneg ht hlt)).2.2
      exact ⟨ht, by rw [max_eq_left]; simpa using hle⟩
  rw [← hlarger.2]
  unfold clamp smaller
  rw [hlarger.1]
  simp only [Bool.false_eq_true, if_false]
  split
  · rename_i hlt
    rw [min_eq_right (lt_iff_val.1 hlt).2.2.le]
  · rename_i hlt
    rw [min_eq_left (le_iff_val.1 (le_of_not_lt hlarger.1 hlim hlt)).2.2]

end Scalar

namespace Interval

open Machine

variable {i : Interval Float32} {limit : Float32} {l u m : ℝ}

/-! ## The minimal length -/

/-- Half of an end inside the limit. -/
theorem exists_mul_half {t : Float32} {x : ℝ} (ht : Represents t x) (hm : Represents limit m)
    (h1 : 1 ≤ m) (hx : |x| ≤ m) :
    ∃ a, Represents (0.5 * t) a ∧ |a| ≤ m / 2 ∧ |a - x / 2| ≤ |x| / 2 * 1e-7 + 1e-40 := by
  obtain ⟨half, hhalf⟩ := hm.exists_half (by decide) h1
  obtain ⟨hlo, hhi⟩ := abs_le.1 hx
  have hmul := represents_half.mul ht
  obtain ⟨a, ha, halo, hahi⟩ :=
    hmul.exists_between hhalf.neg hhalf (by linarith) (by linarith)
  refine ⟨a, ha, abs_le.2 ⟨halo, hahi⟩, ?_⟩
  have hnear := hmul.near_single ha
  rwa [abs_mul, abs_of_pos (by norm_num : (0 : ℝ) < 1 / 2), one_div_mul_eq_div,
    one_div_mul_eq_div] at hnear

/-- The center of an interval inside the limit is inside the limit, and next to the
exact midpoint. -/
theorem exists_center (hl : Represents i.lower l) (hu : Represents i.upper u)
    (hm : Represents limit m) (h1 : 1 ≤ m) (hlm : |l| ≤ m) (hum : |u| ≤ m) :
    ∃ c, Represents i.center c ∧ |c| ≤ m ∧
      |c - (l + u) / 2| ≤ (|l| + |u|) * 2e-7 + 4e-40 := by
  obtain ⟨a, ha, ham, hal⟩ := exists_mul_half hl hm h1 hlm
  obtain ⟨b, hb, hbm, hbu⟩ := exists_mul_half hu hm h1 hum
  have hadd := ha.add hb
  have hab : |a + b| ≤ m := (abs_add_le a b).trans (by linarith)
  obtain ⟨c, hc, hclo, hchi⟩ :=
    hadd.exists_between hm.neg hm (abs_le.1 hab).1 (abs_le.1 hab).2
  refine ⟨c, hc, abs_le.2 ⟨hclo, hchi⟩, ?_⟩
  have hnear := hadd.near_single hc
  have hsum : |a + b| ≤ |a - l / 2| + |b - u / 2| + (|l| + |u|) / 2 := by
    calc |a + b| = |(a - l / 2) + (b - u / 2) + (l + u) / 2| := by ring_nf
      _ ≤ |(a - l / 2) + (b - u / 2)| + |(l + u) / 2| := abs_add_le _ _
      _ ≤ |a - l / 2| + |b - u / 2| + (|l| + |u|) / 2 := by
        rw [abs_div, abs_of_pos (by norm_num : (0 : ℝ) < 2)]
        have := abs_add_le (a - l / 2) (b - u / 2)
        have := abs_add_le l u
        linarith
  have htri : |c - (l + u) / 2| ≤ |c - (a + b)| + (|a - l / 2| + |b - u / 2|) := by
    calc |c - (l + u) / 2| = |(c - (a + b)) + ((a - l / 2) + (b - u / 2))| := by ring_nf
      _ ≤ |c - (a + b)| + |(a - l / 2) + (b - u / 2)| := abs_add_le _ _
      _ ≤ |c - (a + b)| + (|a - l / 2| + |b - u / 2|) := by
        have := abs_add_le (a - l / 2) (b - u / 2)
        linarith
  norm_num at *
  have := abs_nonneg l
  have := abs_nonneg u
  linarith

/-- The minimal length is positive, a fixed share of the center at least, and inside the limit. -/
theorem exists_minimalLength {c : Float32} {x : ℝ} (hc : Represents c x) (h1 : 1 ≤ m)
    (hx : |x| ≤ m) :
    ∃ d, Represents (minimalLength c) d ∧ d ≤ m ∧ 9.9e-6 ≤ d ∧ |x| * 9.8e-6 ≤ d := by
  have hmul := represents_share.mul hc.abs
  have h0 := abs_nonneg x
  obtain ⟨p, hp, -, hpx⟩ :=
    hmul.exists_between represents_zero hc.abs (by positivity) (by norm_num; linarith)
  have hnear := (abs_le.1 (hmul.near_single hp)).1
  rw [abs_mul, abs_abs, abs_of_pos (by norm_num : (0 : ℝ) < 10995116 / 2 ^ 40)] at hnear
  rw [minimalLength, Scalar.larger, represents_share.defined]
  simp only [Bool.false_eq_true, if_false]
  split
  · rename_i hlt
    rw [represents_share.lt_iff hp] at hlt
    refine ⟨p, hp, by linarith, ?_, ?_⟩
    · norm_num at *
      linarith
    · by_contra! hlt'
      norm_num at *
      linarith
  · rename_i hlt
    rw [represents_share.lt_iff hp, not_lt] at hlt
    refine ⟨_, represents_share, ?_, ?_, ?_⟩ <;> norm_num at * <;> linarith

/-- The minimal length exceeds the error of a difference that involves it. -/
theorem error_lt_needed {c d : ℝ} (hlu : l ≤ u) (hshort : u - l < d)
    (hc : |c - (l + u) / 2| ≤ (|l| + |u|) * 2e-7 + 4e-40) (hd : 9.9e-6 ≤ d)
    (hcd : |c| * 9.8e-6 ≤ d) : (|u| + d) * 1e-7 + 1e-40 < d := by
  have hl : |l| ≤ |u| + d := by
    calc |l| = |u - (u - l)| := by ring_nf
      _ ≤ |u| + |u - l| := abs_sub _ _
      _ ≤ |u| + d := by
        rw [abs_of_nonneg (by linarith : 0 ≤ u - l)]
        linarith
  have hu : |u| ≤ |c| + |c - (l + u) / 2| + d / 2 := by
    calc |u| = |(c - (c - (l + u) / 2)) + (u - l) / 2| := by ring_nf
      _ ≤ |c - (c - (l + u) / 2)| + |(u - l) / 2| := abs_add_le _ _
      _ ≤ |c| + |c - (l + u) / 2| + d / 2 := by
        rw [abs_of_nonneg (by linarith : 0 ≤ (u - l) / 2)]
        have := abs_sub c (c - (l + u) / 2)
        linarith
  have := abs_nonneg u
  norm_num at *
  linarith

/-! ## Moving the upper end -/

/-- An axis that can be shown. -/
structure IsDisplayable {K : Type} [Scalar K] (limit : K) (i : Interval K) : Prop where
  /-- Both ends are defined. -/
  isSet : i.isSet = true
  /-- The lower end is inside the limit. -/
  neg_limit_le : -limit ≤ i.lower
  /-- The axis is not empty. -/
  lower_lt_upper : i.lower < i.upper
  /-- The upper end is inside the limit. -/
  upper_le_limit : i.upper ≤ limit

theorem isDisplayable_of_lt {K : Type} [Scalar K] [OrderedScalar K] {limit : K} {i : Interval K}
    (hlo : -limit ≤ i.lower) (hlt : i.lower < i.upper) (hhi : i.upper ≤ limit) :
    IsDisplayable limit i := by
  obtain ⟨hl, hu⟩ := Scalar.defined_of_lt hlt
  exact ⟨by simp [Interval.isSet, hl, hu], hlo, hlt, hhi⟩

/-- An interval that is not short is not empty. -/
theorem lower_lt_upper_of_not_isShort {d : ℝ} (hl : Represents i.lower l)
    (hu : Represents i.upper u) (hd : Represents (minimalLength i.center) d) (h0 : 0 < d)
    (h : ¬ i.isShort = true) : l < u := by
  have hle : minimalLength i.center ≤ i.upper - i.lower := by
    simpa [isShort, isSet, hl.defined, hu.defined] using h
  have hval := (le_iff_val.1 hle).2.2
  rw [hd.val_eq] at hval
  by_contra! hul
  have hzero := (hu.sub hl).le_of_le 0 isNaN_zero (by
    rw [val_zero, EReal.coe_nonpos]
    linarith)
  rw [val_zero] at hzero
  have := EReal.coe_nonpos.1 (hval.trans hzero)
  linarith

/-- An interval that is short is shorter than the minimal length. -/
theorem sub_lt_of_isShort {d : ℝ} (hl : Represents i.lower l) (hu : Represents i.upper u)
    (hd : Represents (minimalLength i.center) d) (h : i.isShort = true) : u - l < d := by
  have hnot : ¬ minimalLength i.center ≤ i.upper - i.lower := by
    simpa [isShort, isSet, hl.defined, hu.defined] using h
  have hsub := hu.sub hl
  by_contra! hle
  refine hnot (le_iff_val.2 ⟨hd.defined, hsub.defined, hsub.ge_of_ge _ hd.defined ?_⟩)
  rw [hd.val_eq, EReal.coe_le_coe_iff]
  exact hle

/-- Moving the upper end to the right of the lower one gives an axis that can be shown. -/
theorem isDisplayable_setUpper {t : Float32} (hm : Represents limit m) (h1 : 1 ≤ m)
    (hlo : -limit ≤ i.lower) (hle : i.lower ≤ Scalar.clamp t limit) :
    IsDisplayable limit (i.setUpper t limit) := by
  have hlimit : -limit ≤ limit := (hm.neg.le_iff hm).2 (by linarith)
  have hhi := (Scalar.clamp_mem t hlimit).2
  obtain ⟨l, hl, hlm, hlm'⟩ := hm.neg.exists_of_le hm hlo (OrderedScalar.trans hle hhi)
  obtain ⟨u, hu, hum, hum'⟩ := hm.neg.exists_of_le hm (OrderedScalar.trans hlo hle) hhi
  have hlu : l ≤ u := (hl.le_iff hu).1 hle
  rw [setUpper]
  generalize Scalar.clamp t limit = t at *
  dsimp only
  obtain ⟨c, hc, hcm, hcenter⟩ := exists_center (i := { i with upper := t }) hl hu hm h1
    (abs_le.2 ⟨hlm, hlm'⟩) (abs_le.2 ⟨hum, hum'⟩)
  obtain ⟨d, hd, hdm, hdpos, hcd⟩ := exists_minimalLength hc h1 hcm
  have h0 : 0 < d := by
    norm_num at hdpos
    linarith
  split
  · rename_i hshort
    have hsub := sub_lt_of_isShort (i := { i with upper := t }) hl hu hd hshort
    have herror := error_lt_needed hlu hsub hcenter hdpos hcd
    generalize minimalLength (center { i with upper := t }) = needed at hd
    split
    · rename_i hlt
      -- the axis starts at the lower limit, near which the upper end is
      have hud : u - d < -m := by
        by_contra! hge
        refine Scalar.not_le_of_lt hlt (le_iff_val.2 ⟨hm.neg.defined, (hu.sub hd).defined, ?_⟩)
        refine (hu.sub hd).ge_of_ge _ hm.neg.defined ?_
        rw [hm.neg.val_eq, EReal.coe_le_coe_iff]
        exact hge
      have hsum := hm.neg.add hd
      obtain ⟨y, hy, -, hym⟩ := hsum.exists_between hm.neg hm (by linarith) (by linarith)
      have hnear := (abs_le.1 (hsum.near_single hy)).1
      rw [abs_of_nonpos (by linarith : -m + d ≤ 0)] at hnear
      have hu' := neg_le_abs u
      refine isDisplayable_of_lt ((hm.neg.le_iff hm.neg).2 le_rfl) ((hm.neg.lt_iff hy).2 ?_)
        ((hy.le_iff hm).2 hym)
      norm_num at *
      linarith
    · rename_i hge
      have hdiff := hu.sub hd
      have hlow : -limit ≤ t - needed := Scalar.le_of_not_lt hm.neg.defined hdiff.defined hge
      have hup : t - needed ≤ t := le_iff_val.2 ⟨hdiff.defined, hu.defined,
        hdiff.le_of_le t hu.defined (by
          rw [hu.val_eq, EReal.coe_le_coe_iff]
          linarith)⟩
      obtain ⟨y, hy, -, -⟩ := hm.neg.exists_of_le hu hlow hup
      have hnear := (abs_le.1 (hdiff.near_single hy)).2
      have htri := abs_sub u d
      rw [abs_of_pos h0] at htri
      refine isDisplayable_of_lt hlow ((hy.lt_iff hu).2 ?_) hhi
      norm_num at *
      linarith
  · rename_i hshort
    have hlt := lower_lt_upper_of_not_isShort (i := { i with upper := t }) hl hu hd h0 hshort
    exact isDisplayable_of_lt hlo ((hl.lt_iff hu).2 hlt) hhi

/-! ## Both ends -/

/-- The ends of an interval are in order, as far as an undefined lower end is the
lowest and an undefined upper end stands for the lowest as well. -/
def IsProper (i : Interval Float32) : Prop :=
  Scalar.isNaN i.lower = true ∨ i.lower ≤ i.upper ∨
    Scalar.isNaN i.upper = true ∧ val i.lower = ⊥

/-- The ends of a proper interval are still in order inside the limit. -/
theorem clamp_le_clamp_of_isProper (h : -limit ≤ limit) (hi : i.IsProper) :
    Scalar.clamp i.lower limit ≤ Scalar.clamp i.upper limit := by
  have hmem := Scalar.clamp_mem i.upper h
  rcases hi with hnan | hle | ⟨hnan, hbot⟩
  · rw [Scalar.clamp_of_isNaN hnan h]
    exact hmem.1
  · obtain ⟨hl, hu, hval⟩ := le_iff_val.1 hle
    refine le_iff_val.2 ⟨Scalar.isNaN_clamp hl, Scalar.isNaN_clamp hu, ?_⟩
    rw [Scalar.val_clamp hl h, Scalar.val_clamp hu h]
    exact min_le_min_right _ (max_le_max_right _ hval)
  · have hl : Scalar.isNaN i.lower = false := by
      cases hnan' : Scalar.isNaN i.lower with
      | false => rfl
      | true =>
        rw [val_of_isNaN hnan'] at hbot
        exact absurd hbot EReal.zero_ne_bot
    obtain ⟨hneg, -, hval⟩ := le_iff_val.1 h
    refine le_iff_val.2 ⟨Scalar.isNaN_clamp hl, ?_, ?_⟩
    · rw [Scalar.clamp_of_isNaN hnan h]
      exact hneg
    · rw [Scalar.val_clamp hl h, Scalar.clamp_of_isNaN hnan h, hbot, max_eq_right bot_le, val_neg]
      exact min_le_left _ _

/-- Every proper interval is moved inside the limit to an axis that can be shown. -/
theorem isDisplayable_displayable (hm : Represents limit m) (h1 : 1 ≤ m) (hi : i.IsProper) :
    IsDisplayable limit (Viewport.displayable i limit) := by
  have hlimit : -limit ≤ limit := (hm.neg.le_iff hm).2 (by linarith)
  have hset : unset.setLower i.lower limit = ⟨Scalar.clamp i.lower limit, Scalar.nan⟩ := by
    simp [setLower, isShort, isSet, unset, OrderedScalar.isNaN_nan]
  rw [Viewport.displayable, hset]
  exact isDisplayable_setUpper hm h1 (Scalar.clamp_mem i.lower hlimit).1
    (clamp_le_clamp_of_isProper hlimit hi)

end Interval

end CurveSurvey

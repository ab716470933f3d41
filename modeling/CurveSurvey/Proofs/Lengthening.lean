import CurveSurvey.Proofs.Interval.Negated
import CurveSurvey.Proofs.Viewport.Forced

/-!
# Setting an end of an interval

An interval that becomes too short when one of its ends is set is lengthened by the minimal length
around the center that it has at this moment.  Its center then changes, and with it the minimal
length, so the interval may be too short once more.

* `Interval.Apart.sub_lt` and `Interval.Apart.le_sub` compare the new length with the minimal length
  around the new center, as real numbers up to roundings.
* `Interval.Lengthened` is what is true of an interval after one of its ends was set:
  `Interval.lengthened_of_apart` if it was lengthened, `Interval.lengthened_of_long` if not.
* `Interval.lengthened_up` is proved with machine numbers, and `Interval.lengthened_down` is the
  same of the reflection (`Interval.Lengthened.of_negated`).
* `Interval.set_end_lengthens` is the result, for either end.
* `Interval.set_end_collapses` is an interval that is empty after it was lengthened.
-/

namespace CurveSurvey

open Float.Model (UnpackedFloat)

open Machine

namespace Interval

/-! ## Lengths and centers up to rounding -/

/-- The minimal length around a center, as a real number. -/
noncomputable def idealLength (x : ℝ) : ℝ := 1e-5 * max 1 |x|

/-- A number is the minimal length around a center, up to rounding. -/
def IsLengthAt (d x : ℝ) : Prop := |d - idealLength x| ≤ idealLength x * 1e-6

/-- A number is the midpoint of two ends, up to rounding. -/
def IsCenterOf (c l u : ℝ) : Prop :=
  |c - (0.5 * l + 0.5 * u)| ≤ (|l| + |u|) * 2e-7 + 4e-40

/-- Two ends are a given distance apart, up to the rounding of one of them. -/
def Apart (a b d : ℝ) : Prop := |(b - a) - d| ≤ (max |a| |b| + d) * 1e-7 + 1e-40

section

variable {a b c c' d d' e l u m : ℝ}

theorem isCenterOf_iff :
    IsCenterOf c l u ↔ |c - (l + u) / 2| ≤ (|l| + |u|) * 2e-7 + 4e-40 := by
  have hmid : 0.5 * l + 0.5 * u = (l + u) / 2 := by ring
  rw [IsCenterOf, hmid]

theorem idealLength_ge (x : ℝ) : 1e-5 ≤ idealLength x ∧ 1e-5 * |x| ≤ idealLength x := by
  unfold idealLength
  constructor <;> norm_num

theorem idealLength_le_add (x y : ℝ) : idealLength x ≤ idealLength y + 1e-5 * |x - y| := by
  unfold idealLength
  rw [← mul_add]
  refine mul_le_mul_of_nonneg_left (max_le ?_ ?_) (by norm_num)
  · linarith [le_max_left 1 |y|, abs_nonneg (x - y)]
  · linarith [le_max_right 1 |y|, abs_sub_abs_le_abs_sub x y]

theorem max_abs_le (a b : ℝ) : max |a| |b| ≤ |(a + b) / 2| + |b - a| / 2 := by
  have hhalf : |(b - a) / 2| = |b - a| / 2 := by rw [abs_div, abs_two]
  refine max_le ?_ ?_
  · calc |a| = |(a + b) / 2 - (b - a) / 2| := by ring_nf
      _ ≤ |(a + b) / 2| + |(b - a) / 2| := abs_sub _ _
      _ = |(a + b) / 2| + |b - a| / 2 := by rw [hhalf]
  · calc |b| = |(a + b) / 2 + (b - a) / 2| := by ring_nf
      _ ≤ |(a + b) / 2| + |(b - a) / 2| := abs_add_le _ _
      _ = |(a + b) / 2| + |b - a| / 2 := by rw [hhalf]

/-- The ends in the opposite order. -/
theorem Apart.neg (h : Apart a b d) : Apart (-b) (-a) d := by
  unfold Apart at h ⊢
  rwa [abs_neg, abs_neg, max_comm, neg_sub_neg]

/-- One end is the other one and the distance, up to rounding. -/
theorem apart_of_near (hd : 0 ≤ d) (h : |b - (a + d)| ≤ |a + d| * 1e-7 + 1e-40) : Apart a b d := by
  have habs := abs_add_le a d
  rw [abs_of_nonneg hd] at habs
  have hmax := le_max_left |a| |b|
  unfold Apart
  rw [show b - a - d = b - (a + d) by ring]
  generalize max |a| |b| = x at *
  norm_num at *
  linarith

/-- The ends are small against the minimal length, so their rounding is as well. -/
theorem Apart.max_abs_le (h : Apart a b d) (hd : 0 ≤ d) (hc : IsCenterOf c a b)
    (hc' : IsLengthAt d' c) : max |a| |b| ≤ 100001 * d' + d := by
  obtain ⟨hone, hshare⟩ := idealLength_ge c
  obtain ⟨hlow, hhigh⟩ := abs_le.1 h
  obtain ⟨hd', -⟩ := abs_le.1 hc'
  have hmid : |(a + b) / 2| ≤ |c| + ((|a| + |b|) * 2e-7 + 4e-40) := by
    have hdiff := abs_sub_abs_le_abs_sub ((a + b) / 2) c
    rw [abs_sub_comm] at hdiff
    rw [isCenterOf_iff] at hc
    linarith
  have hlength : |b - a| ≤ d + ((max |a| |b| + d) * 1e-7 + 1e-40) := by
    rw [abs_le]
    constructor <;> linarith
  have hmax := Interval.max_abs_le a b
  have ha := le_max_left |a| |b|
  have hb := le_max_right |a| |b|
  generalize max |a| |b| = x at *
  norm_num at *
  linarith

/-- Ends that are less than the minimal length apart, by two parts in a hundred. -/
theorem Apart.sub_lt (h : Apart a b d) (hd : 0 ≤ d) (hc : IsCenterOf c a b)
    (hc' : IsLengthAt d' c) (hshort : d ≤ 0.981 * d') : b - a ≤ 0.994 * d' := by
  have hmax := h.max_abs_le hd hc hc'
  obtain ⟨hone, -⟩ := idealLength_ge c
  obtain ⟨hd', -⟩ := abs_le.1 hc'
  obtain ⟨-, hhigh⟩ := abs_le.1 h
  generalize max |a| |b| = x at *
  norm_num at *
  linarith

/-- Ends that are the minimal length around a center of nearby ends apart. -/
theorem Apart.le_sub (h : Apart a b d) (hd : 0 ≤ d) (hc : IsCenterOf c a b)
    (hc' : IsLengthAt d' c) (hold : IsCenterOf c' l u) (hold' : IsLengthAt d c')
    (he : e = a ∨ e = b) (hl : |l - e| ≤ d) (hu : |u - e| ≤ d) : 0.981 * d' ≤ b - a := by
  have hmax := h.max_abs_le hd hc hc'
  obtain ⟨hone, -⟩ := idealLength_ge c
  obtain ⟨-, hd'⟩ := abs_le.1 hc'
  obtain ⟨hold', -⟩ := abs_le.1 hold'
  obtain ⟨hlow, hhigh⟩ := abs_le.1 h
  have hmove := idealLength_le_add c c'
  have ha := le_max_left |a| |b|
  have hb := le_max_right |a| |b|
  generalize max |a| |b| = x at *
  have hex : |e| ≤ x := by rcases he with rfl | rfl <;> assumption
  have hlx : |l| ≤ x + d := by linarith [abs_sub_abs_le_abs_sub l e]
  have hux : |u| ≤ x + d := by linarith [abs_sub_abs_le_abs_sub u e]
  -- both centers are near the end that the intervals have in common
  have hcenters : |c - c'| ≤ 4 * d + (x + d) * 1e-6 + 1e-39 := by
    obtain ⟨hc1, hc2⟩ := abs_le.1 hc
    obtain ⟨ho1, ho2⟩ := abs_le.1 hold
    obtain ⟨hl1, hl2⟩ := abs_le.1 hl
    obtain ⟨hu1, hu2⟩ := abs_le.1 hu
    rw [abs_le]
    norm_num at *
    rcases he with rfl | rfl
    · constructor <;> linarith
    · constructor <;> linarith
  norm_num at *
  linarith

end

/-! ## Machine numbers -/

theorem represents_near_whole : Represents (0.98 : Float32) (16441672 / 2 ^ 24) := by
  have h : unpack (0.98 : Float32) = .finite .positive 16441672 (-24) (by decide) := rfl
  exact represents_of_unpack h (by norm_num)

theorem represents_nearer_whole : Represents (0.995 : Float32) (16693330 / 2 ^ 24) := by
  have h : unpack (0.995 : Float32) = .finite .positive 16693330 (-24) (by decide) := rfl
  exact represents_of_unpack h (by norm_num)

variable {i moved r : Interval Float32} {limit needed c s : Float32} {a b d e l m u x k : ℝ}

/-- The minimal length is the ideal one up to a millionth. -/
theorem exists_isLengthAt (hc : Represents c x) :
    ∃ d, Represents (minimalLength c) d ∧ IsLengthAt d x := by
  have hmul := represents_share.mul hc.abs
  have h0 := abs_nonneg x
  obtain ⟨p, hp, -, hpx⟩ :=
    hmul.exists_between represents_zero hc.abs (by positivity) (by norm_num; linarith)
  have hnear := hmul.near_single hp
  rw [abs_mul, abs_abs, abs_of_pos (by norm_num : (0 : ℝ) < 10995116 / 2 ^ 40)] at hnear
  obtain ⟨hlow, hhigh⟩ := abs_le.1 hnear
  rw [minimalLength, Scalar.larger, represents_share.defined]
  simp only [Bool.false_eq_true, if_false]
  unfold IsLengthAt idealLength
  split
  · rename_i hlt
    rw [represents_share.lt_iff hp] at hlt
    refine ⟨p, hp, abs_le.2 ?_⟩
    rcases le_total 1 |x| with hx | hx
    · rw [max_eq_right hx]
      norm_num at *
      constructor <;> linarith
    · rw [max_eq_left hx]
      norm_num at *
      constructor <;> linarith
  · rename_i hlt
    rw [represents_share.lt_iff hp, not_lt] at hlt
    refine ⟨_, represents_share, abs_le.2 ?_⟩
    rcases le_total 1 |x| with hx | hx
    · rw [max_eq_right hx]
      norm_num at *
      constructor <;> linarith
    · rw [max_eq_left hx]
      norm_num

theorem IsLengthAt.bounds (h : IsLengthAt d x) (h1 : 1 ≤ m) (hx : |x| ≤ m) :
    9e-6 ≤ d ∧ d ≤ m := by
  obtain ⟨hone, -⟩ := idealLength_ge x
  have hle : idealLength x ≤ 1e-5 * m := mul_le_mul_of_nonneg_left (max_le h1 hx) (by norm_num)
  obtain ⟨hlow, hhigh⟩ := abs_le.1 h
  norm_num at *
  constructor <;> linarith

/-- A share of a number. -/
theorem exists_share_mul (hk : Represents s k) (h0 : 0 ≤ k) (h1 : k ≤ 1)
    (hc : Represents c d) (hd : 0 ≤ d) :
    ∃ p, Represents (s * c) p ∧ |p - k * d| ≤ d * 1e-7 + 1e-40 := by
  have hmul := hk.mul hc
  have hle : k * d ≤ d := mul_le_of_le_one_left hd h1
  obtain ⟨p, hp, -, -⟩ := hmul.exists_between represents_zero hc (mul_nonneg h0 hd) hle
  refine ⟨p, hp, (hmul.near_single hp).trans ?_⟩
  rw [abs_of_nonneg (mul_nonneg h0 hd)]
  norm_num
  linarith

/-- The center of an interval inside the limit, and the minimal length around it. -/
theorem exists_center_length (hl : Represents i.lower l) (hu : Represents i.upper u)
    (hm : Represents limit m) (h1 : 1 ≤ m) (hlm : |l| ≤ m) (hum : |u| ≤ m) :
    ∃ c d, Represents (minimalLength i.center) d ∧ IsCenterOf c l u ∧ IsLengthAt d c ∧
      9e-6 ≤ d ∧ d ≤ m := by
  obtain ⟨c, hc, hcm, hcenter⟩ := exists_center hl hu hm h1 hlm hum
  obtain ⟨d, hd, hlength⟩ := exists_isLengthAt hc
  exact ⟨c, d, hd, isCenterOf_iff.2 hcenter, hlength, hlength.bounds h1 hcm⟩

theorem apart_of_add (ha : Represents s a) (hd : Represents needed d) (h0 : 0 ≤ d)
    (hb : Represents (s + needed) b) : Apart a b d :=
  apart_of_near h0 ((ha.add hd).near_single hb)

theorem apart_of_sub (hb : Represents s b) (hd : Represents needed d) (h0 : 0 ≤ d)
    (ha : Represents (s - needed) a) : Apart a b d := by
  have hnear := (hb.sub hd).near_single ha
  rw [← abs_neg (a - _), ← abs_neg (b - d), show -(a - (b - d)) = -a - (-b + d) by ring,
    show -(b - d) = -b + d by ring] at hnear
  simpa using (apart_of_near h0 hnear).neg

/-- An interval that is too short by two parts in a hundred at least. -/
theorem Apart.length_lt (h : Apart a b d) (hd : Represents needed d) (h0 : 0 ≤ d)
    (ha : Represents r.lower a) (hb : Represents r.upper b) (hm : Represents limit m)
    (h1 : 1 ≤ m) (ham : |a| ≤ m) (hbm : |b| ≤ m)
    (hshort : needed < 0.98 * minimalLength r.center) : r.length < minimalLength r.center := by
  obtain ⟨c, d', hd', hcenter, hlength, hpos, -⟩ := exists_center_length ha hb hm h1 ham hbm
  have hd0 : 0 ≤ d' := le_trans (by norm_num) hpos
  obtain ⟨p, hp, hnear⟩ :=
    exists_share_mul represents_near_whole (by norm_num) (by norm_num) hd' hd0
  obtain ⟨q, hq, hnear'⟩ :=
    exists_share_mul represents_nearer_whole (by norm_num) (by norm_num) hd' hd0
  have hdp := (hd.lt_iff hp).1 hshort
  obtain ⟨-, hp'⟩ := abs_le.1 hnear
  obtain ⟨hq', hq''⟩ := abs_le.1 hnear'
  have hsub := h.sub_lt h0 hcenter hlength (by norm_num at *; linarith)
  have hle := (hb.sub ha).le_of_le _ hq.defined (by
    rw [hq.val_eq, EReal.coe_le_coe_iff]
    norm_num at *
    linarith)
  refine lt_iff_val.2 ⟨(hb.sub ha).defined, hd'.defined, hle.trans_lt ?_⟩
  rw [hq.val_eq, hd'.val_eq, EReal.coe_lt_coe_iff]
  norm_num at *
  linarith

/-- An interval that is long enough up to two parts in a hundred. -/
theorem Apart.le_length (h : Apart a b d) (hd : Represents (minimalLength moved.center) d)
    (hl : Represents moved.lower l) (hu : Represents moved.upper u) (hlm : |l| ≤ m)
    (hum : |u| ≤ m) (ha : Represents r.lower a) (hb : Represents r.upper b)
    (hm : Represents limit m) (h1 : 1 ≤ m) (ham : |a| ≤ m) (hbm : |b| ≤ m)
    (he : e = a ∨ e = b) (hle : |l - e| ≤ d) (hue : |u - e| ≤ d) :
    r.lower < r.upper ∧ 0.98 * minimalLength r.center ≤ r.length := by
  obtain ⟨c, d', hd', hcenter, hlength, hpos, -⟩ := exists_center_length ha hb hm h1 ham hbm
  obtain ⟨c', d'', hd'', hold, hold', hpos', -⟩ := exists_center_length hl hu hm h1 hlm hum
  obtain rfl : d'' = d := EReal.coe_eq_coe_iff.1 (hd''.val_eq.symm.trans hd.val_eq)
  have hd0 : 0 ≤ d' := le_trans (by norm_num) hpos
  obtain ⟨p, hp, hnear⟩ :=
    exists_share_mul represents_near_whole (by norm_num) (by norm_num) hd' hd0
  obtain ⟨-, hp'⟩ := abs_le.1 hnear
  have hsub := h.le_sub (le_trans (by norm_num) hpos') hcenter hlength hold hold' he hle hue
  have hge := (hb.sub ha).ge_of_ge _ hp.defined (by
    rw [hp.val_eq, EReal.coe_le_coe_iff]
    norm_num at *
    linarith)
  refine ⟨(ha.lt_iff hb).2 ?_, le_iff_val.2 ⟨hp.defined, (hb.sub ha).defined, hge⟩⟩
  norm_num at *
  linarith

/-! ## One end -/

/-- What is true of the interval `r` that is made of `moved`, one end of which was just set. -/
structure Lengthened (limit : Float32) (moved r : Interval Float32) : Prop where
  /-- The lower end is inside the limit. -/
  neg_limit_le : -limit ≤ r.lower
  /-- The ends are in order. -/
  lower_le_upper : r.lower ≤ r.upper
  /-- The upper end is inside the limit. -/
  upper_le_limit : r.upper ≤ limit
  /-- An interval that is long enough is not changed. -/
  of_long : moved.isShort = false → r = moved ∧ Showable limit r
  /-- If no end passed the other, the interval has its minimal length up to two parts in a
  hundred. -/
  of_le : moved.lower ≤ moved.upper →
    r.lower < r.upper ∧ 0.98 * minimalLength r.center ≤ r.length
  /-- If the minimal length grows by two parts in a hundred while the interval is lengthened, it
  is not reached. -/
  of_grown : moved.isShort = true → minimalLength moved.center < 0.98 * minimalLength r.center →
    r.length < minimalLength r.center

theorem lengthened_of_long (hm : Represents limit m) (h1 : 1 ≤ m) (hlo : -limit ≤ moved.lower)
    (hhi : moved.upper ≤ limit) (hset : moved.isSet = true) (h : moved.isShort = false) :
    Lengthened limit moved moved := by
  have hlong : minimalLength moved.center ≤ moved.upper - moved.lower := by
    simpa [isShort, hset] using h
  have hshow : Showable limit moved := ⟨hlo, hhi, hlong⟩
  have hlt := hshow.lower_lt_upper
  refine ⟨hlo, Scalar.le_of_lt hlt, hhi, fun _ => ⟨rfl, hshow⟩, fun _ => ⟨hlt, ?_⟩, ?_⟩
  · obtain ⟨l, hl, hlm, hlm'⟩ :=
      hm.neg.exists_of_le hm hlo (OrderedScalar.trans (Scalar.le_of_lt hlt) hhi)
    obtain ⟨u, hu, hum, hum'⟩ :=
      hm.neg.exists_of_le hm (OrderedScalar.trans hlo (Scalar.le_of_lt hlt)) hhi
    obtain ⟨c, d, hd, -, -, hpos, -⟩ :=
      exists_center_length hl hu hm h1 (abs_le.2 ⟨hlm, hlm'⟩) (abs_le.2 ⟨hum, hum'⟩)
    have h0 : 0 ≤ d := le_trans (by norm_num) hpos
    have hmul := represents_near_whole.mul hd
    refine OrderedScalar.trans (le_iff_val.2 ⟨hmul.defined, hd.defined, ?_⟩) hlong
    refine hmul.le_of_le _ hd.defined ?_
    rw [hd.val_eq, EReal.coe_le_coe_iff]
    exact mul_le_of_le_one_left h0 (by norm_num)
  · intro hshort
    rw [h] at hshort
    cases hshort

theorem lengthened_of_apart (hm : Represents limit m) (h1 : 1 ≤ m)
    (hl : Represents moved.lower l) (hu : Represents moved.upper u) (hlm : |l| ≤ m)
    (hum : |u| ≤ m) (h : moved.isShort = true) (ha : Represents r.lower a)
    (hb : Represents r.upper b) (ham : -m ≤ a) (hab : a ≤ b) (hbm : b ≤ m)
    (hd : Represents (minimalLength moved.center) d) (h0 : 0 ≤ d) (hapart : Apart a b d)
    (hnear : l ≤ u → ∃ e, (e = a ∨ e = b) ∧ |l - e| ≤ d ∧ |u - e| ≤ d) :
    Lengthened limit moved r where
  neg_limit_le := (hm.neg.le_iff ha).2 ham
  lower_le_upper := (ha.le_iff hb).2 hab
  upper_le_limit := (hb.le_iff hm).2 hbm
  of_long hlong := by
    rw [h] at hlong
    cases hlong
  of_le hle := by
    obtain ⟨e, he, hle, hue⟩ := hnear ((hl.le_iff hu).1 hle)
    exact hapart.le_length hd hl hu hlm hum ha hb hm h1 (abs_le.2 ⟨ham, hab.trans hbm⟩)
      (abs_le.2 ⟨ham.trans hab, hbm⟩) he hle hue
  of_grown _ hgrown := hapart.length_lt hd h0 ha hb hm h1 (abs_le.2 ⟨ham, hab.trans hbm⟩)
    (abs_le.2 ⟨ham.trans hab, hbm⟩) hgrown

/-- A sum that passes the limit is past the limit before it is rounded. -/
theorem lt_add_of_limit_lt (hm : Represents limit m) (ha : Represents s a)
    (hd : Represents needed d) (h : limit < s + needed) : m < a + d := by
  by_contra! hle
  refine Scalar.not_le_of_lt h (le_iff_val.2 ⟨(ha.add hd).defined, hm.defined, ?_⟩)
  refine (ha.add hd).le_of_le _ hm.defined ?_
  rw [hm.val_eq, EReal.coe_le_coe_iff]
  exact hle

theorem abs_sub_self_le {x : ℝ} (hd : 0 ≤ d) : |x - x| ≤ d := by
  rw [sub_self, abs_zero]
  exact hd

/-- An interval inside the limit is lengthened upward. -/
theorem lengthened_up (hm : Represents limit m) (h1 : 1 ≤ m) (hl : Represents i.lower l)
    (hu : Represents i.upper u) (hlm : |l| ≤ m) (hum : |u| ≤ m) :
    Lengthened limit i (i.lengthenedUp limit) := by
  obtain ⟨hlm', hlm''⟩ := abs_le.1 hlm
  obtain ⟨hum', hum''⟩ := abs_le.1 hum
  obtain ⟨c, d, hd, -, -, hpos, hdm⟩ := exists_center_length hl hu hm h1 hlm hum
  have h0 : 0 ≤ d := le_trans (by norm_num) hpos
  rw [lengthenedUp]
  split
  · rename_i hshort
    have hsub := sub_lt_of_isShort hl hu hd hshort
    dsimp only
    split
    · rename_i hlt
      have hpast := lt_add_of_limit_lt hm hl hd hlt
      obtain ⟨a, ha, ham, ham'⟩ :=
        (hm.sub hd).exists_between hm.neg hm (by linarith) (by linarith)
      refine lengthened_of_apart hm h1 hl hu hlm hum hshort ha hm ham ham' le_rfl hd h0
        (apart_of_sub hm hd h0 ha) fun hle => ⟨m, .inr rfl, ?_, ?_⟩
      · exact abs_le.2 ⟨by linarith, by linarith⟩
      · exact abs_le.2 ⟨by linarith, by linarith⟩
    · rename_i hge
      have hsum := hl.add hd
      have hup : i.lower ≤ i.lower + minimalLength i.center :=
        le_iff_val.2 ⟨hl.defined, hsum.defined, hsum.ge_of_ge i.lower hl.defined (by
          rw [hl.val_eq, EReal.coe_le_coe_iff]
          linarith)⟩
      obtain ⟨b, hb, hab, hbm⟩ :=
        hl.exists_of_le hm hup (Scalar.le_of_not_lt hsum.defined hm.defined hge)
      refine lengthened_of_apart hm h1 hl hu hlm hum hshort hl hb hlm' hab hbm hd h0
        (apart_of_add hl hd h0 hb) fun hle =>
          ⟨l, .inl rfl, abs_sub_self_le h0, abs_le.2 ⟨by linarith, by linarith⟩⟩
  · rename_i hshort
    exact lengthened_of_long hm h1 ((hm.neg.le_iff hl).2 hlm') ((hu.le_iff hm).2 hum'')
      (by simp [isSet, hl.defined, hu.defined]) (Bool.eq_false_iff.2 hshort)

/-- What is true of the reflection of an interval that is lengthened is true of the interval. -/
theorem Lengthened.of_negated {mirrored : Interval Float32}
    (h : Lengthened limit i.negated mirrored) (hr : Same r mirrored.negated)
    (hshort : i.isShort = true) : Lengthened limit i r := by
  have hcenter : minimalLength r.center = minimalLength mirrored.center :=
    (minimalLength_same hr.center).trans (minimalLength_negated mirrored)
  have hlength : Scalar.Same r.length mirrored.length :=
    hr.length.trans (.of_eq mirrored.length_negated)
  have hrefl := fun t : Float32 => Scalar.Same.refl t
  constructor
  case neg_limit_le =>
    rw [(hrefl _).le_iff hr.1]
    exact SignedScalar.neg_le_neg h.upper_le_limit
  case lower_le_upper =>
    rw [hr.1.le_iff hr.2]
    exact SignedScalar.neg_le_neg h.lower_le_upper
  case upper_le_limit =>
    rw [hr.2.le_iff (hrefl _), ← InvolutiveScalar.neg_neg limit]
    exact SignedScalar.neg_le_neg h.neg_limit_le
  case of_long =>
    intro hlong
    rw [hshort] at hlong
    cases hlong
  case of_le =>
    intro hle
    obtain ⟨hlt, hlong⟩ := h.of_le (SignedScalar.neg_le_neg hle)
    rw [hr.1.lt_iff hr.2, hcenter, (hrefl _).le_iff hlength]
    exact ⟨Scalar.neg_lt_neg_iff.2 hlt, hlong⟩
  case of_grown =>
    intro _ hgrown
    rw [hcenter, ← minimalLength_negated i] at hgrown
    rw [hcenter, hlength.lt_iff (hrefl _)]
    exact h.of_grown (i.isShort_negated.trans hshort) hgrown

/-- An interval inside the limit is lengthened downward, as its reflection is upward. -/
theorem lengthened_down (hm : Represents limit m) (h1 : 1 ≤ m) (hl : Represents i.lower l)
    (hu : Represents i.upper u) (hlm : |l| ≤ m) (hum : |u| ≤ m) :
    Lengthened limit i (i.lengthenedDown limit) := by
  cases hshort : i.isShort with
  | false =>
    rw [lengthenedDown_of_long hshort]
    exact lengthened_of_long hm h1 ((hm.neg.le_iff hl).2 (abs_le.1 hlm).1)
      ((hu.le_iff hm).2 (abs_le.1 hum).2) (by simp [isSet, hl.defined, hu.defined]) hshort
  | true =>
    have hup : Lengthened limit i.negated (i.negated.lengthenedUp limit) :=
      lengthened_up hm h1 hu.neg hl.neg (by rwa [abs_neg]) (by rwa [abs_neg])
    exact hup.of_negated (i.lengthenedDown_same limit) hshort

/-! ## Either end -/

/-- After an end of an ordered interval was set inside a limit, the interval is still ordered and
inside the limit, and the end is where it was set unless the interval was pulled back from the
limit.  The interval has its minimal length if nothing had to be lengthened, and up to two parts
in a hundred if the end did not pass the other one; but it falls short of it whenever it was
lengthened by less than 98 parts in a hundred of it. -/
theorem set_end_lengthens (hfinite : Scalar.isFinite limit = true) (h1 : 1 ≤ limit)
    (hlo : -limit ≤ i.lower) (hle : i.lower ≤ i.upper) (hhi : i.upper ≤ limit) (t : Float32) :
    let s := Scalar.clamp t limit
    let raised : Interval Float32 := { i with lower := s }
    let lowered : Interval Float32 := { i with upper := s }
    (Lengthened limit raised (i.setLower t limit) ∧
      ((i.setLower t limit).lower = s ∨
        limit < s + minimalLength raised.center ∧ (i.setLower t limit).upper = limit)) ∧
      Lengthened limit lowered (i.setUpper t limit) ∧
      ((i.setUpper t limit).upper = s ∨
        s - minimalLength lowered.center < -limit ∧ (i.setUpper t limit).lower = -limit) := by
  intro s raised lowered
  obtain ⟨m, hm⟩ := exists_represents hfinite
  have h1' := (represents_one.le_iff hm).1 h1
  have hinside : ∀ {x : Float32}, -limit ≤ x → x ≤ limit → ∃ a, Represents x a ∧ |a| ≤ m := by
    intro x hlo hhi
    obtain ⟨a, ha, ham, ham'⟩ := hm.neg.exists_of_le hm hlo hhi
    exact ⟨a, ha, abs_le.2 ⟨ham, ham'⟩⟩
  obtain ⟨l, hl, hlm⟩ := hinside hlo (OrderedScalar.trans hle hhi)
  obtain ⟨u, hu, hum⟩ := hinside (OrderedScalar.trans hlo hle) hhi
  obtain ⟨hslo, hshi⟩ := Scalar.clamp_mem t (OrderedScalar.trans hlo (OrderedScalar.trans hle hhi))
  obtain ⟨x, hx, hxm⟩ := hinside hslo hshi
  have hraised : Lengthened limit raised (raised.lengthenedUp limit) :=
    lengthened_up hm h1' hx hu hxm hum
  have hlowered : Lengthened limit lowered (lowered.lengthenedDown limit) :=
    lengthened_down hm h1' hl hx hlm hxm
  rw [setLower_eq, setUpper_eq]
  exact ⟨⟨hraised, raised.lower_lengthenedUp limit⟩, hlowered,
    lowered.upper_lengthenedDown limit⟩

/-- The lower end of the unit interval is set to the upper end. -/
theorem set_end_lengthens_unit :
    let i : Interval Float32 := ⟨0, 1⟩
    let r := i.setLower 1 100
    (Scalar.isFinite (100 : Float32) = true ∧ (1 : Float32) ≤ 100 ∧ -100 ≤ i.lower ∧
      i.lower ≤ i.upper ∧ i.upper ≤ 100) ∧
      r.lower < r.upper ∧ 0.98 * minimalLength r.center ≤ r.length := by
  intro i r
  have hfinite : Scalar.isFinite (100 : Float32) = true := by decide +kernel
  have h1 : (1 : Float32) ≤ 100 := by decide +kernel
  have hlo : -100 ≤ i.lower := by decide +kernel
  have hle : i.lower ≤ i.upper := by decide +kernel
  have hhi : i.upper ≤ 100 := by decide +kernel
  obtain ⟨⟨hlower, -⟩, -⟩ := set_end_lengthens hfinite h1 hlo hle hhi 1
  exact ⟨⟨hfinite, h1, hlo, hle, hhi⟩, hlower.of_le (by decide +kernel)⟩

/-- An interval around its old center, which is near zero, is lengthened by too little to be
noticed at a thousand: it is empty. -/
theorem set_end_collapses :
    let i : Interval Float32 := ⟨-1000, -999⟩
    let r := i.setLower 1000 1e8
    (Scalar.isFinite (1e8 : Float32) = true ∧ (1 : Float32) ≤ 1e8 ∧ -1e8 ≤ i.lower ∧
      i.lower ≤ i.upper ∧ i.upper ≤ 1e8 ∧ Scalar.isNaN (1000 : Float32) = false) ∧
      ¬ r.lower < r.upper ∧ ¬ minimalLength r.center ≤ r.length := by
  decide +kernel

end Interval

end CurveSurvey

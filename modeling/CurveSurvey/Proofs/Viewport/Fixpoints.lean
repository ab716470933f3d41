import CurveSurvey.Proofs.Viewport.Normalization

/-!
# Sanitizing twice

With exact numbers, a second pass changes a sanitized rectangle only where an axis could
still grow toward the ratio: the limit, which comes last, has cut it short.

* `Rect.MayGrow` says of an axis that it is shorter than the ratio asks, though not by too
  much.
* `Viewport.length_of_sanitized` says what the first pass starts from: a rectangle whose
  lengths have the ratio, or the given one.
* `Viewport.sanitize_eq_self_iff` are the fixed points: no axis may grow, unless it fills the
  whole limit.
* `Viewport.sanitize_sanitize` is the result.  A rectangle of which the limit cuts an axis is
  not a fixed point (`Viewport.sanitize_not_idempotent`).
-/

namespace CurveSurvey

open Exact

/-! ## Axes that may grow -/

namespace Rect

variable {K : Type} [Scalar K]

/-- The length that the ratio asks of an axis, given the other one. -/
def normalLength (r : Rect K) (ratio : K) (vertical : Bool) : K :=
  if vertical then r.y.length / ratio else r.x.length * ratio

/-- An axis is shorter than the ratio asks, and covers enough of what it asks. -/
def MayGrow (r : Rect K) (ratio : K) (vertical : Bool) : Prop :=
  (r.axis vertical).length < r.normalLength ratio vertical ∧
    r.normalLength ratio vertical * Viewport.Settings.standard.minimalCoverage ≤
      (r.axis vertical).length

theorem eq_of_axis {K : Type} {r s : Rect K}
    (h : ∀ vertical, r.axis vertical = s.axis vertical) : r = s := by
  obtain ⟨x, y⟩ := r
  obtain ⟨x', y'⟩ := s
  obtain rfl : x = x' := h true
  obtain rfl : y = y' := h false
  rfl

end Rect

/-! ## The limit -/

namespace Interval

variable {m a b : ℝ}

theorem showable_real_iff : (⟨real a, real b⟩ : Interval Exact).Showable (real m) ↔
    -m ≤ a ∧ b ≤ m ∧ max 1e-5 (1e-5 * |0.5 * a + 0.5 * b|) ≤ b - a := by
  have hneeded : minimalLength (center ⟨real a, real b⟩) =
      real (max 1e-5 (1e-5 * |0.5 * a + 0.5 * b|)) := larger_real
  constructor
  · rintro ⟨hlower, hupper, hlong⟩
    rw [hneeded] at hlong
    exact ⟨hlower, hupper, hlong⟩
  · rintro ⟨hlower, hupper, hlong⟩
    refine ⟨hlower, hupper, ?_⟩
    rw [hneeded]
    exact hlong

/-- An axis that can be shown as it is has two ends apart. -/
theorem Showable.exists_lt {i : Interval Exact} (h : i.Showable (real m)) :
    ∃ a b : ℝ, a < b ∧ i = ⟨real a, real b⟩ ∧ -m ≤ a ∧ b ≤ m := by
  obtain ⟨a, b, rfl⟩ := exists_real_of_isSet h.isSet
  obtain ⟨hlower, hupper, hlong⟩ := showable_real_iff.1 h
  have hpos : (0 : ℝ) < max 1e-5 (1e-5 * |0.5 * a + 0.5 * b|) :=
    lt_max_of_lt_left (by norm_num)
  exact ⟨a, b, by linarith, rfl, hlower, hupper⟩

/-- What is shown of an axis depends on its ends inside the limit only. -/
theorem displayable_clamp {K : Type} [Scalar K] [OrderedScalar K] {limit : K}
    (h : -limit ≤ limit) (i : Interval K) :
    Viewport.displayable ⟨Scalar.clamp i.lower limit, Scalar.clamp i.upper limit⟩ limit =
      Viewport.displayable i limit := by
  have hclamp : ∀ t : K, Scalar.clamp (Scalar.clamp t limit) limit = Scalar.clamp t limit := by
    intro t
    obtain ⟨hlo, hhi⟩ := Scalar.clamp_mem t h
    exact clamp_eq_self hlo hhi
  simp only [Viewport.displayable, setLower, setUpper, hclamp]

/-- An axis without the minimal length is shown longer than it is. -/
theorem length_lt_of_isShort {l u : ℝ} (hshort : (⟨real l, real u⟩ : Interval Exact).isShort = true)
    (hml : -m ≤ l) (hlu : l ≤ u) (hum : u ≤ m)
    (h : Viewport.displayable ⟨real l, real u⟩ (real m) = ⟨real a, real b⟩) : u - l < b - a := by
  obtain ⟨needed, hneeded⟩ :
      ∃ needed, minimalLength (center (⟨real l, real u⟩ : Interval Exact)) = real needed :=
    ⟨_, larger_real⟩
  have hlt : u - l < needed := by
    simpa [isShort, hneeded] using hshort
  rw [displayable_eq_setUpper (by simpa using hml) (by simpa using hlu.trans hum), setUpper,
    clamp_eq_self (by simpa using hml.trans hlu) (by simpa using hum)] at h
  simp only [hshort, if_true, hneeded, real_sub_real, neg_real, real_add_real] at h
  split at h
  all_goals
    simp only [Interval.mk.injEq, Exact.real.injEq] at h
    linarith

/-- An axis that is shown shorter than it is at both ends fills the whole limit. -/
theorem eq_limit_of_displayable_eq {a' b' : ℝ} (ha : a' < a) (hab : a < b) (hb : b < b')
    (hlo : -m ≤ a) (hhi : b ≤ m)
    (h : Viewport.displayable ⟨real a', real b'⟩ (real m) = ⟨real a, real b⟩) :
    a = -m ∧ b = m := by
  have hlimit : -real m ≤ real m := by
    rw [neg_real, real_le_real]
    linarith
  rw [← displayable_clamp hlimit, clamp_real, clamp_real] at h
  obtain ⟨l, hl⟩ : ∃ l, l = min (max a' (-m)) m := ⟨_, rfl⟩
  obtain ⟨u, hu⟩ : ∃ u, u = min (max b' (-m)) m := ⟨_, rfl⟩
  have hla : l ≤ a := hl ▸ min_le_of_left_le (max_le ha.le hlo)
  have hbu : b ≤ u := hu ▸ le_min (le_max_of_le_left hb.le) hhi
  have hml : -m ≤ l := hl ▸ le_min (le_max_right _ _) (by linarith)
  have hum : u ≤ m := hu ▸ min_le_right _ _
  rw [← hl, ← hu] at h
  cases hshort : (⟨real l, real u⟩ : Interval Exact).isShort with
  | true =>
    -- the axis would be lengthened, to more than it has
    have hlt := length_lt_of_isShort hshort hml (by linarith) hum h
    linarith
  | false =>
    rw [displayable_of_not_isShort (by simpa using hml) (by simpa using (by linarith : l ≤ u))
      (by simpa using hum) hshort] at h
    simp only [Interval.mk.injEq, Exact.real.injEq] at h
    obtain ⟨rfl, rfl⟩ := h
    constructor
    · rcases le_total a' (-m) with hle | hle
      · rw [max_eq_right hle, min_eq_left (by linarith)] at hl
        exact hl
      · have : l ≤ a' := hl ▸ min_le_of_left_le (max_le le_rfl hle)
        linarith
    · rcases le_total m b' with hle | hle
      · rw [max_eq_left (by linarith), min_eq_right hle] at hu
        exact hu
      · have : b' ≤ u := hu ▸ le_min (le_max_left _ _) hle
        linarith

/-- An axis in order has two ends apart, or is widened around a point. -/
theorem Ordered.cases {i : Interval Exact} (h : i.Ordered) :
    (∃ a b : ℝ, a < b ∧ i = ⟨real a, real b⟩) ∨
      ∃ c : ℝ, (if i.isSet then i else between 0 0) = ⟨real c, real c⟩ := by
  by_cases hset : i.isSet = true
  · obtain ⟨n, a, b, hle, rfl, -⟩ := h.isReal hset
    rcases hle.lt_or_eq with hlt | rfl
    · exact .inl ⟨a, b, hlt, rfl⟩
    · exact .inr ⟨a, if_pos hset⟩
  · refine .inr ⟨0, ?_⟩
    rw [if_neg hset]
    simp

end Interval

namespace Viewport

open CurveSurvey.Interval

/-! ## The first pass -/

/-- An axis without a length is given that of the other axis, seen through the ratio. -/
theorem spans_sanitizeAxis {axis other : Interval Exact} {c ρ n : ℝ}
    (haxis : (if axis.isSet then axis else between 0 0) = ⟨real c, real c⟩) (hρ : 0 ≤ ρ)
    (hother : other.Spans n) (hn : n ≠ 0) : (sanitizeAxis axis other (real ρ)).Spans (ρ * n) := by
  have hset : other.isSet = true := IsReal.isSet ⟨n, hother⟩
  have hnot : ¬ (real n == (0 : Exact)) = true := by simpa using hn
  have hhalf := spans_between (x := c - ρ * 0.5 * n) (y := c + ρ * 0.5 * n)
    (by nlinarith [mul_nonneg hρ hother.nonneg])
  rw [show c + ρ * 0.5 * n - (c - ρ * 0.5 * n) = ρ * n by ring] at hhalf
  rw [sanitizeAxis, haxis, if_pos hset, hother.length_eq]
  simp only [isPoint, real_beq_real.2 rfl, Bool.not_true, Bool.false_eq_true, if_false]
  rw [if_neg hnot]
  exact hhalf

/-- Where neither axis has a length, one is given the default one. -/
theorem spans_sanitizeAxis_default {axis other : Interval Exact} {c d : ℝ}
    (haxis : (if axis.isSet then axis else between 0 0) = ⟨real c, real c⟩)
    (hother : (if other.isSet then other else between 0 0) = ⟨real d, real d⟩) (ratio : Exact) :
    (sanitizeAxis axis other ratio).Spans 20 := by
  have hlength : (if other.isSet then other.length else 0) = real 0 := by
    split
    · rename_i hset
      rw [if_pos hset] at hother
      simp [hother, Interval.length]
    · simp
  have hhalf := spans_between (x := c - 10) (y := c + 10) (by linarith)
  rw [show c + 10 - (c - 10) = (20 : ℝ) by ring] at hhalf
  rw [sanitizeAxis, haxis, hlength]
  simp only [isPoint, real_beq_real.2 rfl, Bool.not_true, Bool.false_eq_true, if_false]
  simp only [ofNat_eq_real, Nat.cast_zero, real_beq_real.2 rfl, if_true]
  exact hhalf

/-- A viewport that has gathered a rectangle and nothing else. -/
def showing {K : Type} [Scalar K] (r : Rect K) (ratio limit : K) : Viewport K :=
  { new (-limit) limit ratio {} limit with interesting := r }

theorem sanitize_axis {K : Type} [Scalar K] (r : Rect K) (ratio limit : K) (vertical : Bool) :
    (sanitize r ratio limit).axis vertical =
      displayable (((showing r ratio limit).pretty false).axis vertical) limit :=
  window_axis _ false vertical

variable {r : Rect Exact} {ρ : ℝ} {ratio limit : Exact} {vertical : Bool}

theorem arranged_showing (hr : ∀ vertical, (r.axis vertical).Ordered) :
    (showing r ratio limit).Arranged where
  settings := .standard
  interesting := hr
  forced := ordered_axis ordered_unset ordered_unset

theorem scaled_showing : (showing r ratio limit).scaled = (showing r ratio limit).sanitized := by
  have hunset : ∀ i : Interval Exact, i.extend undefined limit = i := fun i =>
    extend_of_isNaN i limit isNaN_undefined
  have hextend : ∀ s : Rect Exact, s.extend ⟨undefined, undefined⟩ limit = s := fun s => by
    rw [Rect.extend, hunset, hunset]
  exact (hextend _).trans (hextend _)

/-- The first pass starts from a rectangle whose lengths have the ratio, or from the given
one. -/
theorem length_of_sanitized (hr : ∀ vertical, (r.axis vertical).Ordered) (hρ : 0 < ρ)
    (limit : Exact) :
    let s := (showing r (real ρ) limit).sanitized
    s.y.length = real ρ * s.x.length ∨ s = r := by
  intro s
  have hone : (1 : Exact) = real 1 := by simp
  have hx : s.x = sanitizeAxis r.x r.y (1 / real ρ) :=
    if_neg (Bool.eq_false_iff.1 (isSet_axis_unset true))
  have hy : s.y = sanitizeAxis r.y s.x (real ρ) :=
    if_neg (Bool.eq_false_iff.1 (isSet_axis_unset false))
  rw [hone, real_div_real hρ.ne'] at hx
  have hrx : r.x.Ordered := hr true
  have hry : r.y.Ordered := hr false
  obtain ⟨a, b, hab, hrx⟩ | ⟨c, hrx⟩ := hrx.cases
  · have hsx : s.x = r.x := by rw [hx, hrx, sanitizeAxis_of_lt hab]
    obtain ⟨d, e, hde, hry⟩ | ⟨d, hry⟩ := hry.cases
    · have hsy : s.y = r.y := by rw [hy, hry, sanitizeAxis_of_lt hde]
      refine .inr ?_
      show (⟨s.x, s.y⟩ : Rect Exact) = r
      rw [hsx, hsy]
    · have hspans : s.x.Spans (b - a) := by
        rw [hsx, hrx]
        exact spans_real hab.le
      have h := spans_sanitizeAxis hry hρ.le hspans (sub_pos.2 hab).ne'
      exact .inl (by rw [hy, h.length_eq, hspans.length_eq, real_mul_real])
  · obtain ⟨d, e, hde, hry⟩ | ⟨d, hry⟩ := hry.cases
    · have hsy : s.y = r.y := by rw [hy, hry, sanitizeAxis_of_lt hde]
      have hspans : r.y.Spans (e - d) := by
        rw [hry]
        exact spans_real hde.le
      have h := spans_sanitizeAxis hrx (one_div_pos.2 hρ).le hspans (sub_pos.2 hde).ne'
      refine .inl ?_
      rw [hsy, hx, h.length_eq, hspans.length_eq, real_mul_real, ← mul_assoc,
        mul_one_div_cancel hρ.ne', one_mul]
    · have hspans : s.x.Spans 20 := by
        rw [hx]
        exact spans_sanitizeAxis_default hrx hry _
      have h := spans_sanitizeAxis hry hρ.le hspans (by norm_num)
      exact .inl (by rw [hy, h.length_eq, hspans.length_eq, real_mul_real])

/-! ## The choice of an axis that may grow -/

/-- Where the lengths have the ratio, neither axis may grow. -/
theorem not_mayGrow_of_ratio (hρ : 0 < ρ) (h : r.y.length = real ρ * r.x.length) :
    ¬ r.MayGrow (real ρ) vertical := by
  rintro ⟨hlt, -⟩
  cases vertical
  · have hlt' : r.y.length < r.x.length * real ρ := hlt
    rw [h] at hlt'
    cases hX : r.x.length with
    | undefined =>
      rw [hX] at hlt'
      exact not_lt_undefined _ hlt'
    | real X =>
      rw [hX, real_mul_real, real_mul_real, mul_comm ρ X, real_lt_real] at hlt'
      exact lt_irrefl _ hlt'
  · have hlt' : r.x.length < r.y.length / real ρ := hlt
    obtain ⟨X, hX⟩ := exists_real (Scalar.defined_of_lt hlt').1
    rw [h, hX, real_mul_real, real_div_real hρ.ne', mul_div_cancel_left₀ X hρ.ne', real_lt_real]
      at hlt'
    exact lt_irrefl _ hlt'

theorem normalLength_showing (hscaled : (showing r ratio limit).scaled = r) (vertical : Bool) :
    (showing r ratio limit).normalLength vertical = r.normalLength ratio vertical := by
  rw [normalLength, hscaled]
  rfl

/-- An axis of a rectangle is free where it would still be covered and does not shrink. -/
theorem isFree_showing_iff (hscaled : (showing r ratio limit).scaled = r) :
    (showing r ratio limit).isFree false vertical = true ↔
      r.normalLength ratio vertical * Settings.standard.minimalCoverage ≤
          (r.axis vertical).length ∧
        (r.axis vertical).length ≤ r.normalLength ratio vertical := by
  have hunset : ((showing r ratio limit).forced.axis vertical).isSet = false :=
    isSet_axis_unset vertical
  rw [isFree, isResizable, normalLength_showing hscaled, hscaled, hunset]
  simp only [Bool.not_false, Bool.true_and, Bool.false_or, Bool.and_eq_true, decide_eq_true_eq]
  rfl

/-- Only one axis can grow toward the ratio. -/
theorem not_isFree_of_mayGrow (hρ : 0 < ρ) (hscaled : (showing r (real ρ) limit).scaled = r)
    (h : r.MayGrow (real ρ) vertical) :
    (showing r (real ρ) limit).isFree false (!vertical) = false := by
  by_contra hfree
  have hle := ((isFree_showing_iff hscaled).1 (Bool.eq_true_of_not_eq_false hfree)).2
  have hlt := h.1
  cases vertical
  all_goals
    simp only [Rect.axis, Rect.normalLength, Bool.not_true, Bool.not_false, Bool.false_eq_true,
      if_true, if_false] at hle hlt
    obtain ⟨X, hX⟩ := exists_real (OrderedScalar.defined_of_le hle).1
    obtain ⟨Y, hY⟩ := exists_real (Scalar.defined_of_lt hlt).1
    rw [hX, hY] at hle hlt
    simp only [real_div_real hρ.ne', real_mul_real, real_le_real, real_lt_real,
      le_div_iff₀ hρ, lt_div_iff₀ hρ] at hle hlt
    exact hle.not_gt hlt

/-- Only one axis may grow. -/
theorem not_mayGrow_other (hρ : 0 < ρ) (hscaled : (showing r (real ρ) limit).scaled = r)
    (h : r.MayGrow (real ρ) vertical) : ¬ r.MayGrow (real ρ) (!vertical) := by
  intro hother
  have hfree := (isFree_showing_iff hscaled).2 ⟨hother.2, Scalar.le_of_lt hother.1⟩
  rw [not_isFree_of_mayGrow hρ hscaled h] at hfree
  cases hfree

theorem isChosen_of_mayGrow (hρ : 0 < ρ) (hscaled : (showing r (real ρ) limit).scaled = r)
    (h : r.MayGrow (real ρ) vertical) :
    (showing r (real ρ) limit).isChosen false vertical = true ∧
      (showing r (real ρ) limit).isChosen false (!vertical) = false := by
  have hfree := (isFree_showing_iff hscaled).2 ⟨h.2, Scalar.le_of_lt h.1⟩
  have hother := not_isFree_of_mayGrow hρ hscaled h
  simp [isChosen, hfree, hother]

/-- An axis that is resized to hold itself grows by the same amount on either side. -/
theorem resizeAxis_self {a b n : ℝ} (hab : a ≤ b) (h : b - a ≤ n) :
    resizeAxis ⟨real a, real b⟩ ⟨real a, real b⟩ (real n) =
      ⟨real (a - (n - (b - a)) / 2), real (b + (n - (b - a)) / 2)⟩ := by
  have hlower : ¬ real a < center ⟨real a, real b⟩ - 0.5 * real n := by
    simp only [center, ofScientific_eq_real, real_mul_real, real_add_real, real_sub_real,
      real_lt_real, not_lt]
    linarith
  have hupper : ¬ center ⟨real a, real b⟩ + 0.5 * real n < real b := by
    simp only [center, ofScientific_eq_real, real_mul_real, real_add_real, real_lt_real, not_lt]
    linarith
  rw [resizeAxis]
  dsimp only
  rw [if_neg hlower, if_neg hupper]
  simp only [center, ofScientific_eq_real, real_mul_real, real_add_real, real_sub_real,
    between_real]
  rw [min_eq_left (by linarith), max_eq_right (by linarith)]
  congr 2 <;> ring

/-- An axis that may grow is resized, and the other one is not. -/
theorem pretty_axis_of_mayGrow (hρ : 0 < ρ) (hscaled : (showing r (real ρ) limit).scaled = r)
    (h : r.MayGrow (real ρ) vertical) :
    ((showing r (real ρ) limit).pretty false).axis vertical =
      resizeAxis (r.axis vertical) (r.axis vertical) (r.normalLength (real ρ) vertical) := by
  obtain ⟨hchosen, hnot⟩ := isChosen_of_mayGrow hρ hscaled h
  have hnormal := normalLength_showing hscaled vertical
  rw [pretty_eq]
  cases vertical with
  | true =>
    rw [if_pos hchosen, hscaled, hnormal]
    rfl
  | false =>
    rw [Bool.not_false] at hnot
    rw [if_neg (Bool.eq_false_iff.1 hnot), if_pos hchosen, hscaled, hnormal]
    rfl

/-- What is shown of an axis that may grow. -/
theorem sanitize_axis_of_mayGrow {a b n : ℝ} (hρ : 0 < ρ)
    (hscaled : (showing r (real ρ) limit).scaled = r) (h : r.MayGrow (real ρ) vertical)
    (hab : a ≤ b) (haxis : r.axis vertical = ⟨real a, real b⟩)
    (hn : r.normalLength (real ρ) vertical = real n) :
    0 < (n - (b - a)) / 2 ∧ (sanitize r (real ρ) limit).axis vertical =
      displayable ⟨real (a - (n - (b - a)) / 2), real (b + (n - (b - a)) / 2)⟩ limit := by
  have hlt : b - a < n := by
    have hlt := h.1
    rwa [haxis, hn, Interval.length, real_sub_real, real_lt_real] at hlt
  refine ⟨by linarith, ?_⟩
  rw [sanitize_axis, pretty_axis_of_mayGrow hρ hscaled h, haxis, hn, resizeAxis_self hab hlt.le]

/-- An axis that may not grow stays as it is. -/
theorem pretty_axis_of_not_mayGrow (hr : ∀ vertical, (r.axis vertical).IsReal)
    (hscaled : (showing r (real ρ) limit).scaled = r) (h : ¬ r.MayGrow (real ρ) vertical) :
    ((showing r (real ρ) limit).pretty false).axis vertical = r.axis vertical := by
  obtain heq | ⟨hchosen, heq⟩ := (showing r (real ρ) limit).pretty_axis false vertical
  · rw [heq, hscaled]
  · obtain ⟨hcovered, hfits⟩ := (isFree_showing_iff hscaled).1 (isFree_of_isChosen hchosen)
    have hnot : ¬ (r.axis vertical).length < r.normalLength (real ρ) vertical := fun hlt =>
      h ⟨hlt, hcovered⟩
    rw [heq, hscaled, normalLength_showing hscaled]
    show resizeAxis (r.axis vertical) (r.axis vertical) _ = _
    obtain ⟨n, a, b, hab, haxis, rfl⟩ := hr vertical
    obtain ⟨n, hn⟩ := exists_real (OrderedScalar.defined_of_le hfits).2
    rw [haxis] at hfits hnot ⊢
    rw [hn] at hfits hnot ⊢
    simp only [Interval.length, real_sub_real, real_le_real, real_lt_real, not_lt] at hfits hnot
    obtain rfl : n = b - a := le_antisymm hnot hfits
    rw [resizeAxis_self hab le_rfl]
    simp

/-! ## Fixed points -/

section

variable {L : ℝ}

/-- A rectangle that can be shown as it is stays the same exactly if no axis may grow, unless
that fills the whole limit. -/
theorem sanitize_eq_self_iff (hρ : 0 < ρ)
    (hr : ∀ vertical, (r.axis vertical).Showable (real L)) :
    sanitize r (real ρ) (real L) = r ↔
      ∀ vertical, r.MayGrow (real ρ) vertical → r.axis vertical = ⟨real (-L), real L⟩ := by
  have hreal : ∀ vertical, (r.axis vertical).IsReal := by
    intro vertical
    obtain ⟨a, b, hab, heq, -⟩ := (hr vertical).exists_lt
    rw [heq]
    exact ⟨_, spans_real hab.le⟩
  have hscaled : (showing r (real ρ) (real L)).scaled = r := by
    obtain ⟨a, b, hab, hx : r.x = _, -⟩ := (hr true).exists_lt
    obtain ⟨c, d, hcd, hy : r.y = _, -⟩ := (hr false).exists_lt
    refine scaled_eq_interesting rfl rfl hab hcd ?_
    rw [← hx, ← hy]
    rfl
  -- how far an axis grows on either side
  have hgrown : ∀ vertical, r.MayGrow (real ρ) vertical → ∃ a b δ : ℝ, 0 < δ ∧ a < b ∧
      -L ≤ a ∧ b ≤ L ∧ r.axis vertical = ⟨real a, real b⟩ ∧
        (sanitize r (real ρ) (real L)).axis vertical =
          displayable ⟨real (a - δ), real (b + δ)⟩ (real L) := by
    intro vertical h
    obtain ⟨a, b, hab, haxis, hlo, hhi⟩ := (hr vertical).exists_lt
    obtain ⟨n, hn⟩ := exists_real (Scalar.defined_of_lt h.1).2
    obtain ⟨hpos, hshown⟩ := sanitize_axis_of_mayGrow hρ hscaled h hab.le haxis hn
    exact ⟨a, b, _, hpos, hab, hlo, hhi, haxis, hshown⟩
  constructor
  · intro heq vertical h
    obtain ⟨a, b, δ, hδ, hab, hlo, hhi, haxis, hshown⟩ := hgrown vertical h
    rw [heq, haxis] at hshown
    obtain ⟨rfl, rfl⟩ := eq_limit_of_displayable_eq (by linarith) hab (by linarith) hlo hhi
      hshown.symm
    exact haxis
  · intro hfull
    refine Rect.eq_of_axis fun vertical => ?_
    by_cases h : r.MayGrow (real ρ) vertical
    · obtain ⟨a, b, δ, hδ, hab, hlo, hhi, haxis, hshown⟩ := hgrown vertical h
      have hends := hfull vertical h
      rw [haxis, Interval.mk.injEq, Exact.real.injEq, Exact.real.injEq] at hends
      obtain ⟨rfl, rfl⟩ := hends
      -- the limit cuts off what was added
      have hlower : min (max (-b - δ) (-b)) b = -b := by
        rw [max_eq_right (by linarith), min_eq_left (by linarith)]
      have hupper : min (max (b + δ) (-b)) b = b := by
        rw [max_eq_left (by linarith), min_eq_right (by linarith)]
      have hlimit : -real b ≤ real b := by
        rw [neg_real, real_le_real]
        linarith
      rw [hshown, ← displayable_clamp hlimit, clamp_real, clamp_real, hlower, hupper, ← haxis]
      exact (hr vertical).displayable_of_le (hreal vertical).le
    · rw [sanitize_axis, pretty_axis_of_not_mayGrow hreal hscaled h]
      exact (hr vertical).displayable_of_le (hreal vertical).le

/-- Sanitizing once is enough where the first pass leaves a rectangle that can be shown as it
is.  In any other case, as long as both axes have the minimal length, a second pass changes
nothing exactly if no axis may grow, unless that fills the whole limit. -/
theorem sanitize_sanitize (hρ : 0 < ρ) (hr : ∀ vertical, (r.axis vertical).Ordered) :
    let s := sanitize r (real ρ) (real L)
    let pretty := (showing r (real ρ) (real L)).pretty false
    ((∀ vertical, (pretty.axis vertical).Showable (real L)) →
        sanitize s (real ρ) (real L) = s) ∧
      ((∀ vertical, (s.axis vertical).Showable (real L)) →
        (sanitize s (real ρ) (real L) = s ↔ ∀ vertical, s.MayGrow (real ρ) vertical →
          s.axis vertical = ⟨real (-L), real L⟩)) := by
  intro s pretty
  refine ⟨fun hpretty => ?_, sanitize_eq_self_iff hρ⟩
  have hv : (showing r (real ρ) (real L)).Arranged := arranged_showing hr
  have hratio : (0 : Exact) < real ρ := by simpa using hρ
  have hs : s = pretty := by
    refine Rect.eq_of_axis fun vertical => ?_
    rw [sanitize_axis]
    exact (hpretty vertical).displayable_of_le (hv.isReal_pretty hratio false vertical).le
  rw [hs]
  refine (sanitize_eq_self_iff hρ hpretty).2 fun vertical hgrow => absurd hgrow ?_
  by_cases hchosen : ∃ w, (showing r (real ρ) (real L)).isChosen false w = true
  · obtain ⟨w, hchosen⟩ := hchosen
    exact not_mayGrow_of_ratio hρ (hv.ratio_of_isChosen hratio hchosen)
  · have hscaled : pretty = (showing r (real ρ) (real L)).scaled := by
      refine Rect.eq_of_axis fun w => ?_
      refine ((showing r (real ρ) (real L)).pretty_axis false w).resolve_right ?_
      exact fun h => hchosen ⟨w, h.1⟩
    rw [hscaled, scaled_showing]
    rcases length_of_sanitized hr hρ (real L) with hlength | hsame
    · exact not_mayGrow_of_ratio hρ hlength
    · intro hgrow
      rw [hsame] at hgrow
      exact hchosen ⟨vertical, (isChosen_of_mayGrow hρ (scaled_showing.trans hsame) hgrow).1⟩

end

/-! ## A rectangle that the limit cuts -/

section

variable {a b c d : ℝ}

theorem scaled_showing_real (hab : a < b) (hcd : c < d) :
    (showing ⟨⟨real a, real b⟩, ⟨real c, real d⟩⟩ ratio limit).scaled =
      ⟨⟨real a, real b⟩, ⟨real c, real d⟩⟩ :=
  scaled_eq_interesting rfl rfl hab hcd rfl

theorem normalLength_real (hρ : 0 < ρ) :
    (⟨⟨real a, real b⟩, ⟨real c, real d⟩⟩ : Rect Exact).normalLength (real ρ) true =
      real ((d - c) / ρ) := by
  simp [Rect.normalLength, Interval.length, real_div_real hρ.ne']

theorem mayGrow_real_iff (hρ : 0 < ρ) :
    (⟨⟨real a, real b⟩, ⟨real c, real d⟩⟩ : Rect Exact).MayGrow (real ρ) true ↔
      b - a < (d - c) / ρ ∧ (d - c) / ρ * 0.3 ≤ b - a := by
  rw [Rect.MayGrow, normalLength_real hρ]
  rfl

/-- Where the horizontal axis may grow, the vertical one stays as it is. -/
theorem pretty_of_mayGrow (hρ : 0 < ρ) (hab : a < b) (hcd : c < d)
    (h : (⟨⟨real a, real b⟩, ⟨real c, real d⟩⟩ : Rect Exact).MayGrow (real ρ) true) :
    let δ := ((d - c) / ρ - (b - a)) / 2
    (showing ⟨⟨real a, real b⟩, ⟨real c, real d⟩⟩ (real ρ) limit).pretty false =
      ⟨⟨real (a - δ), real (b + δ)⟩, ⟨real c, real d⟩⟩ := by
  intro δ
  have hscaled : (showing ⟨⟨real a, real b⟩, ⟨real c, real d⟩⟩ (real ρ) limit).scaled = _ :=
    scaled_showing_real hab hcd
  have hreal : ∀ vertical,
      ((⟨⟨real a, real b⟩, ⟨real c, real d⟩⟩ : Rect Exact).axis vertical).IsReal := by
    intro vertical
    cases vertical
    · exact ⟨_, spans_real hcd.le⟩
    · exact ⟨_, spans_real hab.le⟩
  refine Rect.eq_of_axis fun vertical => ?_
  cases vertical with
  | true =>
    rw [pretty_axis_of_mayGrow hρ hscaled h, normalLength_real hρ]
    exact resizeAxis_self hab.le ((mayGrow_real_iff hρ).1 h).1.le
  | false => exact pretty_axis_of_not_mayGrow hreal hscaled (not_mayGrow_other hρ hscaled h)

/-- A square in a wide window is widened once. -/
theorem sanitize_square :
    let r : Rect Exact := ⟨⟨real (-1), real 1⟩, ⟨real (-1), real 1⟩⟩
    let s := sanitize r (real (1 / 2)) (real 100)
    (0 : ℝ) < 1 / 2 ∧ (∀ vertical, (r.axis vertical).Ordered) ∧
      ((showing r (real (1 / 2)) (real 100)).pretty false).x = ⟨real (-2), real 2⟩ ∧
      sanitize s (real (1 / 2)) (real 100) = s := by
  intro r s
  have hρ : (0 : ℝ) < 1 / 2 := by norm_num
  have hr : ∀ vertical, (r.axis vertical).Ordered := by
    intro vertical
    cases vertical <;> exact ordered_of_le (by simp [r, Rect.axis])
  have hgrow : r.MayGrow (real (1 / 2)) true := (mayGrow_real_iff hρ).2 (by norm_num)
  have hpretty : (showing r (real (1 / 2)) (real 100)).pretty false =
      ⟨⟨real (-2), real 2⟩, ⟨real (-1), real 1⟩⟩ :=
    (pretty_of_mayGrow hρ (by norm_num) (by norm_num) hgrow).trans (by norm_num)
  refine ⟨hρ, hr, congrArg Rect.x hpretty, (sanitize_sanitize hρ hr).1 fun vertical => ?_⟩
  rw [hpretty]
  cases vertical <;> refine showable_real_iff.2 ?_ <;> norm_num

/-- The limit cuts off what the first pass adds to the right of this rectangle, so the second
pass adds to the left. -/
theorem sanitize_not_idempotent :
    let r : Rect Exact := ⟨⟨real 20, real 90⟩, ⟨real (-30), real 30⟩⟩
    let s := sanitize r (real (1 / 2)) (real 100)
    s = ⟨⟨real (-5), real 100⟩, ⟨real (-30), real 30⟩⟩ ∧
      sanitize s (real (1 / 2)) (real 100) ≠ s := by
  intro r s
  have hρ : (0 : ℝ) < 1 / 2 := by norm_num
  have hgrow : r.MayGrow (real (1 / 2)) true := (mayGrow_real_iff hρ).2 (by norm_num)
  have hpretty : (showing r (real (1 / 2)) (real 100)).pretty false =
      ⟨⟨real (-5), real 115⟩, ⟨real (-30), real 30⟩⟩ :=
    (pretty_of_mayGrow hρ (by norm_num) (by norm_num) hgrow).trans (by norm_num)
  have hshowable : ∀ vertical, ((⟨⟨real (-5), real 100⟩, ⟨real (-30), real 30⟩⟩ :
      Rect Exact).axis vertical).Showable (real 100) := by
    intro vertical
    cases vertical <;> refine showable_real_iff.2 ?_ <;> norm_num [abs_of_pos]
  have hs : s = ⟨⟨real (-5), real 100⟩, ⟨real (-30), real 30⟩⟩ := by
    refine Rect.eq_of_axis fun vertical => ?_
    rw [sanitize_axis, hpretty]
    cases vertical with
    | true =>
      have hcut : displayable ⟨real (-5), real 115⟩ (real 100) =
          displayable ⟨real (-5), real 100⟩ (real 100) := by
        rw [← displayable_clamp (by norm_num), ← displayable_clamp (by norm_num)]
        norm_num
      exact hcut.trans ((hshowable true).displayable_of_le (by norm_num [Rect.axis]))
    | false => exact (hshowable false).displayable_of_le (by norm_num [Rect.axis])
  refine ⟨hs, ?_⟩
  rw [hs]
  intro heq
  have hgrow' := (mayGrow_real_iff (a := -5) (b := 100) (c := -30) (d := 30) hρ).2 (by norm_num)
  have hfull : (⟨real (-5), real 100⟩ : Interval Exact) = ⟨real (-100), real 100⟩ :=
    (sanitize_eq_self_iff hρ hshowable).1 heq true hgrow'
  norm_num at hfull

end

end Viewport

end CurveSurvey

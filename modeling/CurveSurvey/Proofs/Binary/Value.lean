import Mathlib

/-!
# Values of binary floats

The real number, or infinity, that an unpacked float stands for.

* `Binary.Canonical` is the form in which a format stores its numbers: the
  mantissa uses all of its bits unless the exponent is the smallest one.
* `Binary.compare_eq` says that on canonical floats the machine comparison is the
  comparison of the values.  There is one lemma for each class of operands.
-/

namespace CurveSurvey

namespace Binary

open Float.Model (Format UnpackedFloat)
open Float.Model.UnpackedFloat (Sign)

/-- A magnitude with a sign. -/
def signed : Sign → ℝ → ℝ
  | .positive, x => x
  | .negative, x => -x

/-- The number that an unpacked float stands for; none for NaN, where it is zero. -/
noncomputable def value : UnpackedFloat → EReal
  | .notANumber => 0
  | .infinity .positive => ⊤
  | .infinity .negative => ⊥
  | .zero _ => 0
  | .finite s m e _ => (signed s (m * 2 ^ e) : ℝ)

/-- The relative error of one rounding. -/
noncomputable def roundoff (spec : Format) : ℝ := 1 / 2 ^ spec.mantissaBits

/-- The smallest positive number. -/
noncomputable def tiny (spec : Format) : ℝ := 2 ^ spec.minExponent

/-- A mantissa with the exponent that the format gives it. -/
structure Fits (spec : Format) (m : ℕ) (e : ℤ) : Prop where
  /-- The mantissa has no more bits than there is room for. -/
  lt : m < 2 ^ spec.mantissaBits
  /-- The exponent is not below the smallest one. -/
  le : spec.minExponent ≤ e
  /-- All bits are used unless the exponent is the smallest one. -/
  full : 2 ^ spec.mantissaBitsWithoutImplicit ≤ m ∨ e = spec.minExponent

/-- Every finite number has the exponent that the format gives it. -/
def Canonical (spec : Format) : UnpackedFloat → Prop
  | .finite _ m e _ => Fits spec m e
  | _ => True

theorem Fits.scaled_lt {spec : Format} {m n : ℕ} {e f : ℤ} (hm : Fits spec m e)
    (hn : Fits spec n f) (h : e < f) : (m : ℝ) * 2 ^ e < n * 2 ^ f := by
  have hfull : 2 ^ spec.mantissaBitsWithoutImplicit ≤ n :=
    hn.full.resolve_right (by have := hm.le; omega)
  have hfull' : (2 : ℝ) ^ (spec.mantissaBitsWithoutImplicit : ℤ) ≤ n := by
    rw [zpow_natCast]; exact_mod_cast hfull
  have hlt : (m : ℝ) < 2 ^ (spec.mantissaBitsWithoutImplicit + 1 : ℤ) := by
    have := hm.lt
    rw [Format.mantissaBits, Nat.add_comm] at this
    exact_mod_cast this
  calc (m : ℝ) * 2 ^ e < 2 ^ (spec.mantissaBitsWithoutImplicit + 1 : ℤ) * 2 ^ e := by gcongr
    _ = 2 ^ (spec.mantissaBitsWithoutImplicit + 1 + e : ℤ) := by
        rw [zpow_add₀ two_ne_zero _ e]
    _ ≤ 2 ^ (spec.mantissaBitsWithoutImplicit + f : ℤ) :=
        zpow_le_zpow_right₀ one_le_two (by omega)
    _ = 2 ^ (spec.mantissaBitsWithoutImplicit : ℤ) * 2 ^ f := zpow_add₀ two_ne_zero _ _
    _ ≤ n * 2 ^ f := by gcongr

/-- Exponents are compared first, and mantissae where they agree. -/
theorem Fits.compare_scaled {spec : Format} {m n : ℕ} {e f : ℤ} (hm : Fits spec m e)
    (hn : Fits spec n f) :
    (compare e f).then (compare m n) = compare ((m : ℝ) * 2 ^ e) (n * 2 ^ f) := by
  rcases lt_trichotomy e f with h | rfl | h
  · rw [compare_lt_iff_lt.mpr h, compare_lt_iff_lt.mpr (hm.scaled_lt hn h)]
    rfl
  · have h2 : (0 : ℝ) < 2 ^ e := by positivity
    rw [compare_eq_iff_eq.mpr rfl, show ∀ o : Ordering, Ordering.eq.then o = o from fun _ => rfl]
    rcases lt_trichotomy m n with h | rfl | h
    · rw [compare_lt_iff_lt.mpr h, compare_lt_iff_lt.mpr (by gcongr)]
    · rw [compare_eq_iff_eq.mpr rfl, compare_eq_iff_eq.mpr rfl]
    · rw [compare_gt_iff_gt.mpr h, compare_gt_iff_gt.mpr (by gcongr)]
  · rw [compare_gt_iff_gt.mpr h, compare_gt_iff_gt.mpr (hn.scaled_lt hm h)]
    rfl

theorem compare_coe (x y : ℝ) : compare (x : EReal) y = compare x y := by
  rcases lt_trichotomy x y with h | rfl | h
  · rw [compare_lt_iff_lt.mpr h, compare_lt_iff_lt.mpr (EReal.coe_lt_coe_iff.mpr h)]
  · rw [compare_eq_iff_eq.mpr rfl, compare_eq_iff_eq.mpr rfl]
  · rw [compare_gt_iff_gt.mpr h, compare_gt_iff_gt.mpr (EReal.coe_lt_coe_iff.mpr h)]

theorem compare_neg (x y : ℝ) : compare (-x) (-y) = (compare x y).swap := by
  rcases lt_trichotomy x y with h | rfl | h
  · rw [compare_lt_iff_lt.mpr h, compare_gt_iff_gt.mpr (neg_lt_neg h)]
    rfl
  · rw [compare_eq_iff_eq.mpr rfl, compare_eq_iff_eq.mpr rfl]
    rfl
  · rw [compare_gt_iff_gt.mpr h, compare_lt_iff_lt.mpr (neg_lt_neg h)]
    rfl

/-- The magnitude of a number that is not zero. -/
theorem scaled_pos {m : ℕ} (hm : 0 < m) (e : ℤ) : (0 : ℝ) < m * 2 ^ e := by positivity

/-! ## Comparison by classes -/

section

variable {x y : EReal}

theorem lt_eq_compare (h : x < y) : some Ordering.lt = some (compare x y) := by
  rw [compare_lt_iff_lt.mpr h]

theorem gt_eq_compare (h : y < x) : some Ordering.gt = some (compare x y) := by
  rw [compare_gt_iff_gt.mpr h]

theorem eq_eq_compare (x : EReal) : some Ordering.eq = some (compare x x) := by
  rw [compare_eq_iff_eq.mpr rfl]

end

variable {spec : Format} {b : UnpackedFloat} {m : ℕ} {e : ℤ}

theorem value_positive_pos (hm : 0 < m) : 0 < value (.finite .positive m e hm) :=
  EReal.coe_pos.mpr (scaled_pos hm e)

theorem value_negative_neg (hm : 0 < m) : value (.finite .negative m e hm) < 0 :=
  EReal.coe_neg'.mpr (neg_lt_zero.mpr (scaled_pos hm e))

/-- An infinity is beyond everything else. -/
theorem compare_infinity (s : Sign) (hb : b ≠ .notANumber) :
    (UnpackedFloat.infinity s).compare b = some (compare (value (.infinity s)) (value b)) := by
  cases s with
  | positive =>
    cases b with
    | notANumber => exact absurd rfl hb
    | infinity t =>
      cases t with
      | positive => exact eq_eq_compare ⊤
      | negative => exact gt_eq_compare bot_lt_top
    | zero t => exact gt_eq_compare EReal.zero_lt_top
    | finite t n f hn => exact gt_eq_compare (EReal.coe_lt_top _)
  | negative =>
    cases b with
    | notANumber => exact absurd rfl hb
    | infinity t =>
      cases t with
      | positive => exact lt_eq_compare bot_lt_top
      | negative => exact eq_eq_compare ⊥
    | zero t => exact lt_eq_compare EReal.bot_lt_zero
    | finite t n f hn => exact lt_eq_compare (EReal.bot_lt_coe _)

/-- A zero is told from other numbers by their signs. -/
theorem compare_zero (s : Sign) (hb : b ≠ .notANumber) :
    (UnpackedFloat.zero s).compare b = some (compare (value (.zero s)) (value b)) := by
  cases b with
  | notANumber => exact absurd rfl hb
  | infinity t =>
    cases t with
    | positive => exact lt_eq_compare EReal.zero_lt_top
    | negative => exact gt_eq_compare EReal.bot_lt_zero
  | zero t => exact eq_eq_compare 0
  | finite t n f hn =>
    cases t with
    | positive => exact lt_eq_compare (value_positive_pos hn)
    | negative => exact gt_eq_compare (value_negative_neg hn)

/-- Numbers of one sign are compared by their parts. -/
theorem compare_finite (s : Sign) (hm : 0 < m) (ha : Fits spec m e) (hb : Canonical spec b)
    (hb' : b ≠ .notANumber) : (UnpackedFloat.finite s m e hm).compare b =
      some (compare (value (.finite s m e hm)) (value b)) := by
  cases b with
  | notANumber => exact absurd rfl hb'
  | infinity t =>
    cases t with
    | positive => cases s <;> exact lt_eq_compare (EReal.coe_lt_top _)
    | negative => cases s <;> exact gt_eq_compare (EReal.bot_lt_coe _)
  | zero t =>
    cases s with
    | positive => exact gt_eq_compare (value_positive_pos hm)
    | negative => exact lt_eq_compare (value_negative_neg hm)
  | finite t n f hn =>
    have hparts : (compare e f).then (compare m n) = compare ((m : ℝ) * 2 ^ e) (n * 2 ^ f) :=
      ha.compare_scaled hb
    cases s with
    | positive =>
      cases t with
      | positive =>
        rw [value, value, signed, signed, compare_coe, ← hparts]
        rfl
      | negative => exact gt_eq_compare ((value_negative_neg hn).trans (value_positive_pos hm))
    | negative =>
      cases t with
      | positive => exact lt_eq_compare ((value_negative_neg hm).trans (value_positive_pos hn))
      | negative =>
        rw [value, value, signed, signed, compare_coe, compare_neg, ← hparts]
        rfl

/-- Machine comparison is the comparison of the numbers. -/
theorem compare_eq {a : UnpackedFloat} (ha : Canonical spec a) (hb : Canonical spec b)
    (ha' : a ≠ .notANumber) (hb' : b ≠ .notANumber) :
    a.compare b = some (compare (value a) (value b)) := by
  cases a with
  | notANumber => exact absurd rfl ha'
  | infinity s => exact compare_infinity s hb'
  | zero s => exact compare_zero s hb'
  | finite s m e hm => exact compare_finite s hm ha hb hb'

end Binary

end CurveSurvey

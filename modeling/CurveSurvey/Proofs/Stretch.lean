import CurveSurvey.Proofs.Reflecting
import CurveSurvey.Proofs.Room

/-!
# Stretched scans

A scan is stretched by its maximal step on either side, so that what lies exactly on its ends
can be found.

* `StretchingPrecision` is what is assumed of the arithmetic: a step, although rounded, does not
  lead the wrong way.  `Machine.CoarseGrid.stretchingPrecision` derives this for every binary
  format with a coarse grid, and the exact numbers are an instance as well.
* `Cursor.stretch_lt_iff`: a stretched scan goes the same way.
* `Cursor.stretch_position_of_equal`: the scan between equal ends goes to the left, from one step
  of the grid to the right.
-/

namespace CurveSurvey

/-- A precision in which the steps that stretch a scan do not bring its ends closer. -/
class StretchingPrecision (K : Type) [Precision K] : Prop
    extends SteadyPrecision K, StridingPrecision K where
  /-- A step back from a number to the left is a step to the left. -/
  sub_step_le : ∀ {x step : K}, Precision.gridStep ≤ step →
    Scalar.isNaN (x - 1 * step) = false → x - 1 * step ≤ x
  /-- A step on to the right is a step to the right. -/
  le_add_step : ∀ {x step : K}, Precision.gridStep ≤ step →
    Scalar.isNaN (x + 1 * step) = false → x ≤ x + 1 * step
  /-- A scan to the left steps back to the right. -/
  le_sub_step : ∀ {x step : K}, Precision.gridStep ≤ step →
    Scalar.isNaN (x - -1 * step) = false → x ≤ x - -1 * step
  /-- A scan to the left steps on to the left. -/
  add_step_le : ∀ {x step : K}, Precision.gridStep ≤ step →
    Scalar.isNaN (x + -1 * step) = false → x + -1 * step ≤ x
  /-- The distance of equal ends is no reason for a step larger than that of the grid. -/
  not_gridStep_lt : ∀ {a b : K}, a ≤ b → b ≤ a →
    ¬ Precision.gridStep < Scalar.abs (b - a) / 100
  /-- A step of the grid back does not lead past a number from which a minimal step on is still
  ahead. -/
  sub_gridStep_le : ∀ {x y : K}, y < x - Precision.minimalStep x →
    y - -1 * Precision.gridStep ≤ x

/-! ## Machine numbers -/

namespace Machine

section

variable {K : Type} [Scalar K] [Machine K] {s t : K}

theorem isNaN_div_of_left (h : Scalar.isNaN s = true) : Scalar.isNaN (s / t) = true := by
  rw [isNaN_iff] at *
  rw [unpack_div, h]
  cases unpack t <;> exact Binary.stored_notANumber

/-- Numbers that do not differ have a difference of zero, if any. -/
theorem isNaN_or_beq_zero_sub (h : val s = val t) :
    Scalar.isNaN (s - t) = true ∨ (s - t == 0) = true := by
  cases hnan : Scalar.isNaN (s - t) with
  | true => exact .inl rfl
  | false =>
    obtain ⟨hs, ht⟩ := defined_of_sub hnan
    right
    rcases represents_or_infinite hs with ⟨a, ha⟩ | ⟨sign, hsign⟩
    · have hzero : val (s - t) = val (0 : K) := by
        refine (result_sub hnan).val_eq isNaN_zero ?_
        rw [← h, ha.val_eq, ← EReal.coe_sub, sub_self, EReal.coe_zero, val_zero]
      exact beq_iff_val.2 ⟨hnan, isNaN_zero, hzero⟩
    · -- the difference of equal infinities is undefined
      have hval : val s = Binary.value (.infinity sign) := by rw [val, hsign]
      rw [← Bool.not_eq_true, isNaN_sub_iff, ← h, hval] at hnan
      cases sign with
      | positive => exact absurd (.inr (.inr (.inl ⟨rfl, rfl⟩))) hnan
      | negative => exact absurd (.inr (.inr (.inr ⟨rfl, rfl⟩))) hnan

/-! ### Rounded steps -/

theorem le_add_of_val_nonneg (h : Scalar.isNaN (s + t) = false) (ht : 0 ≤ val t) : s ≤ s + t :=
  have hs := (defined_of_add h).1
  le_iff_val.2 ⟨hs, h, (result_add h).ge_of_ge s hs (le_add_of_nonneg_right ht)⟩

theorem add_le_of_val_nonpos (h : Scalar.isNaN (s + t) = false) (ht : val t ≤ 0) : s + t ≤ s :=
  have hs := (defined_of_add h).1
  le_iff_val.2 ⟨h, hs, (result_add h).le_of_le s hs (add_le_of_nonpos_right ht)⟩

theorem le_sub_of_val_nonpos (h : Scalar.isNaN (s - t) = false) (ht : val t ≤ 0) : s ≤ s - t := by
  have hs := (defined_of_sub h).1
  refine le_iff_val.2 ⟨hs, h, (result_sub h).ge_of_ge s hs ?_⟩
  rw [sub_eq_add_neg]
  exact le_add_of_nonneg_right (EReal.neg_nonneg.2 ht)

theorem sub_le_of_val_nonneg (h : Scalar.isNaN (s - t) = false) (ht : 0 ≤ val t) : s - t ≤ s := by
  have hs := (defined_of_sub h).1
  refine le_iff_val.2 ⟨h, hs, (result_sub h).le_of_le s hs ?_⟩
  rw [sub_eq_add_neg]
  exact add_le_of_nonpos_right (by simpa using EReal.neg_le_neg_iff.2 ht)

end

section

variable {K : Type} [Precision K] [Machine K] {x y step : K} {g : ℝ}

/-- A step of the grid or more is positive, and its opposite is negative. -/
theorem CoarseGrid.val_pos (h : CoarseGrid K g) (hle : Precision.gridStep ≤ step) :
    0 < val (1 * step) ∧ val (-1 * step) < 0 := by
  obtain ⟨-, hdef, hval⟩ := le_iff_val.1 hle
  have hpos : 0 < val step := by
    refine lt_of_lt_of_le ?_ hval
    rw [h.grid.val_eq, EReal.coe_pos]
    linarith [tiny_pos (K := K), h.coarse]
  rw [(h.one.val_one_mul hdef).2, (h.one.val_neg_one_mul hdef).2, EReal.neg_lt_zero]
  exact ⟨hpos, hpos⟩

theorem CoarseGrid.gridStep_le_minimalStep (h : CoarseGrid K g) (x : K) :
    Precision.gridStep ≤ Precision.minimalStep x := by
  unfold Precision.minimalStep Scalar.larger
  rw [h.grid.defined]
  simp only [Bool.false_eq_true, if_false]
  split
  · rename_i hlt
    exact Scalar.le_of_lt hlt
  · exact Scalar.le_refl_of_defined h.grid.defined

/-- Rounding does not turn a step around. -/
theorem CoarseGrid.stretchingPrecision (h : CoarseGrid K g) : StretchingPrecision K where
  __ := steadyPrecision h.gridStep_pos
  __ := h.stridingPrecision
  sub_step_le hle hnan := sub_le_of_val_nonneg hnan (h.val_pos hle).1.le
  le_add_step hle hnan := le_add_of_val_nonneg hnan (h.val_pos hle).1.le
  le_sub_step hle hnan := le_sub_of_val_nonpos hnan (h.val_pos hle).2.le
  add_step_le hle hnan := add_le_of_val_nonpos hnan (h.val_pos hle).2.le
  not_gridStep_lt := by
    intro a b hab hba hlt
    have hequal : val b = val a := le_antisymm (le_iff_val.1 hba).2.2 (le_iff_val.1 hab).2.2
    have hquotient : Scalar.isNaN (Scalar.abs (b - a) / 100) = true ∨
        (Scalar.abs (b - a) / 100 == 0) = true := by
      rcases isNaN_or_beq_zero_sub hequal with hnan | hzero
      · exact .inl (isNaN_div_of_left (by rwa [isNaN_abs]))
      · obtain ⟨hdef, -, hval⟩ := beq_iff_val.1 hzero
        refine isNaN_or_beq_zero_div (beq_iff_val.2 ⟨by rwa [isNaN_abs], isNaN_zero, ?_⟩) 100
        rw [val_abs, hval]
        simp
    rcases hquotient with hnan | hzero
    · rw [(lt_iff_val.1 hlt).2.1] at hnan
      cases hnan
    · have hneg := (lt_iff_val.1 hlt).2.2
      rw [(beq_iff_val.1 hzero).2.2] at hneg
      exact absurd hneg (not_lt.2 (lt_iff_val.1 h.gridStep_pos).2.2.le)
  sub_gridStep_le := by
    intro x y hlt
    obtain ⟨hy, hdiff, hval⟩ := lt_iff_val.1 hlt
    have hx := (defined_of_sub hdiff).1
    have hgrid := h.grid.val_eq
    obtain ⟨hback, hbackVal⟩ := h.one.val_neg_one_mul h.grid.defined
    have hdef : Scalar.isNaN (y - -1 * Precision.gridStep) = false := by
      rw [← Bool.not_eq_true, isNaN_sub_iff, hbackVal, hgrid]
      simp [hy, hback]
    refine le_iff_val.2 ⟨hdef, hx, (result_sub hdef).le_of_le x hx ?_⟩
    -- what is beyond a rounded difference is beyond the exact one
    have hexact : val y < val x - val (Precision.minimalStep x) := by
      by_contra! hge
      exact absurd hval (not_lt.2 ((result_sub hdiff).le_of_le y hy hge))
    have hcoarser : val y ≤ val x - (g : EReal) :=
      hexact.le.trans (EReal.sub_le_sub le_rfl
        (hgrid ▸ (le_iff_val.1 (h.gridStep_le_minimalStep x)).2.2))
    rw [hbackVal, hgrid, sub_eq_add_neg, neg_neg]
    exact (EReal.le_sub_iff_add_le (.inl (EReal.coe_ne_bot g)) (.inl (EReal.coe_ne_top g))).1
      hcoarser

end

end Machine

instance : StretchingPrecision Float := Machine.coarseGrid_double.stretchingPrecision

instance : StretchingPrecision Float32 := Machine.coarseGrid_single.stretchingPrecision

/-! ## Exact numbers -/

namespace Exact

theorem exists_gridStep_le {t : Exact} (h : Precision.gridStep ≤ t) :
    ∃ d, t = real d ∧ 1e-6 ≤ d := by
  obtain ⟨d, rfl⟩ := exists_real (OrderedScalar.defined_of_le h).2
  exact ⟨d, rfl, h⟩

theorem exists_real_of_sub {s t : Exact} (h : Scalar.isNaN (s - t) = false) : ∃ x, s = real x := by
  cases s with
  | undefined => simp at h
  | real x => exact ⟨x, rfl⟩

theorem exists_real_of_add {s t : Exact} (h : Scalar.isNaN (s + t) = false) : ∃ x, s = real x := by
  cases s with
  | undefined => exact absurd h (by rw [show undefined + t = undefined from rfl]; simp)
  | real x => exact ⟨x, rfl⟩

instance : StretchingPrecision Exact where
  sub_step_le := by
    intro s step hle hnan
    obtain ⟨d, rfl, hd⟩ := exists_gridStep_le hle
    obtain ⟨x, rfl⟩ := exists_real_of_sub hnan
    simp only [ofNat_eq_real, real_mul_real, real_sub_real, real_le_real]
    norm_num at *
    linarith
  le_add_step := by
    intro s step hle hnan
    obtain ⟨d, rfl, hd⟩ := exists_gridStep_le hle
    obtain ⟨x, rfl⟩ := exists_real_of_add hnan
    simp only [ofNat_eq_real, real_mul_real, real_add_real, real_le_real]
    norm_num at *
    linarith
  le_sub_step := by
    intro s step hle hnan
    obtain ⟨d, rfl, hd⟩ := exists_gridStep_le hle
    obtain ⟨x, rfl⟩ := exists_real_of_sub hnan
    simp only [ofNat_eq_real, neg_real, real_mul_real, real_sub_real, real_le_real]
    norm_num at *
    linarith
  add_step_le := by
    intro s step hle hnan
    obtain ⟨d, rfl, hd⟩ := exists_gridStep_le hle
    obtain ⟨x, rfl⟩ := exists_real_of_add hnan
    simp only [ofNat_eq_real, neg_real, real_mul_real, real_add_real, real_le_real]
    norm_num at *
    linarith
  not_gridStep_lt := by
    intro s t hst hts
    obtain ⟨x, rfl⟩ := exists_real (OrderedScalar.defined_of_le hst).1
    obtain ⟨y, rfl⟩ := exists_real (OrderedScalar.defined_of_le hst).2
    obtain rfl : x = y := le_antisymm hst hts
    simp only [ofNat_eq_real, gridStep_eq, real_sub_real, abs_real,
      real_div_real (show ((100 : ℕ) : ℝ) ≠ 0 by norm_num), real_lt_real]
    norm_num
  sub_gridStep_le := by
    intro s t hlt
    obtain ⟨y, rfl⟩ := exists_real (Scalar.defined_of_lt hlt).1
    obtain ⟨x, rfl⟩ := exists_real_of_sub (Scalar.defined_of_lt hlt).2
    obtain ⟨m, hm, hgrid⟩ := exists_minimalStep x
    rw [hm, real_sub_real, real_lt_real] at hlt
    simp only [ofNat_eq_real, gridStep_eq, neg_real, real_mul_real, real_sub_real, real_le_real]
    norm_num at *
    linarith

end Exact

/-! ## The stretched ends -/

namespace Cursor

variable {K : Type} [Precision K] [StretchingPrecision K] {a b : K}

theorem gridStep_le_maximalStep (a b : K) : Precision.gridStep ≤ (new a b).maximalStep := by
  have hgrid : Scalar.isNaN (Precision.gridStep : K) = false := StridingPrecision.defined_gridStep
  simp only [new, Scalar.larger, hgrid, Bool.false_eq_true, if_false]
  split
  · rename_i hlt
    exact Scalar.le_of_lt hlt
  · exact Scalar.le_refl_of_defined hgrid

/-- The scan between equal ends goes by steps of the grid. -/
theorem maximalStep_of_equal (hab : a ≤ b) (hba : b ≤ a) :
    (new a b).maximalStep = Precision.gridStep := by
  have hgrid : Scalar.isNaN (Precision.gridStep : K) = false := StridingPrecision.defined_gridStep
  simp only [new, Scalar.larger, hgrid, Bool.false_eq_true, if_false,
    StretchingPrecision.not_gridStep_lt hab hba]

/-- The scan between equal ends starts one step of the grid to their right. -/
theorem stretch_position_of_equal (hab : a ≤ b) (hba : b ≤ a) :
    (new a b).stretch.position = a - -1 * Precision.gridStep := by
  have hdir : (new a b).direction = -1 := if_neg fun hlt => Scalar.not_le_of_lt hlt hba
  rw [stretch, hdir, maximalStep_of_equal hab hba]
  rfl

theorem stretch_position_le (h : a < b)
    (hdef : Scalar.isNaN (new a b).stretch.position = false) : (new a b).stretch.position ≤ a := by
  have hdir : (new a b).direction = 1 := if_pos h
  simp only [stretch, hdir] at hdef ⊢
  exact StretchingPrecision.sub_step_le (gridStep_le_maximalStep a b) hdef

theorem le_stretch_goal (h : a < b) (hdef : Scalar.isNaN (new a b).stretch.goal = false) :
    b ≤ (new a b).stretch.goal := by
  have hdir : (new a b).direction = 1 := if_pos h
  simp only [stretch, hdir] at hdef ⊢
  exact StretchingPrecision.le_add_step (gridStep_le_maximalStep a b) hdef

theorem le_stretch_position (h : ¬ a < b)
    (hdef : Scalar.isNaN (new a b).stretch.position = false) : a ≤ (new a b).stretch.position := by
  have hdir : (new a b).direction = -1 := if_neg h
  simp only [stretch, hdir] at hdef ⊢
  exact StretchingPrecision.le_sub_step (gridStep_le_maximalStep a b) hdef

theorem stretch_goal_le (h : ¬ a < b) (hdef : Scalar.isNaN (new a b).stretch.goal = false) :
    (new a b).stretch.goal ≤ b := by
  have hdir : (new a b).direction = -1 := if_neg h
  simp only [stretch, hdir] at hdef ⊢
  exact StretchingPrecision.add_step_le (gridStep_le_maximalStep a b) hdef

/-- A stretched scan goes the same way, if its ends are defined. -/
theorem stretch_lt_iff (ha : Scalar.isNaN a = false) (hb : Scalar.isNaN b = false)
    (hposition : Scalar.isNaN (new a b).stretch.position = false)
    (hgoal : Scalar.isNaN (new a b).stretch.goal = false) :
    (new a b).stretch.position < (new a b).stretch.goal ↔ a < b := by
  constructor
  · intro hlt
    by_contra h
    have hback := OrderedScalar.trans (stretch_goal_le h hgoal)
      (OrderedScalar.trans (Scalar.le_of_not_lt hb ha h) (le_stretch_position h hposition))
    exact Scalar.not_le_of_lt hlt hback
  · intro h
    exact Scalar.lt_of_le_of_lt (stretch_position_le h hposition)
      (Scalar.lt_of_lt_of_le h (le_stretch_goal h hgoal))

end Cursor

end CurveSurvey

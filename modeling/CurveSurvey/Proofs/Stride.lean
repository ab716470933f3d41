import CurveSurvey.Cursor
import CurveSurvey.Proofs.Finite

/-!
# Strides

A scan gets ahead because the spacing of the numbers at an abscissa is smaller than
the least step that is taken there.

* `StridingPrecision` is what is assumed of the arithmetic: a step that is not below
  the minimal one moves a finite abscissa strictly.
* `Machine.CoarseGrid.stridingPrecision` derives this from the error of a rounded sum, in any
  binary format whose grid is coarse enough; single and double precision are such.
* `Cursor.Ahead` and `Cursor.Along` are the orders in the direction of a scan, and
  `Cursor.ahead_nextX` says that the next sample is strictly ahead.
-/

namespace CurveSurvey

/-- A precision whose minimal step moves every finite abscissa. -/
class StridingPrecision (K : Type) [Precision K] : Prop extends OrderedScalar K where
  /-- The grid has a step. -/
  defined_gridStep : Scalar.isNaN (Precision.gridStep : K) = false
  /-- What lies between two finite numbers is finite. -/
  isFinite_of_between : ∀ {a x b : K}, a ≤ x → x ≤ b → Scalar.isFinite a = true →
    Scalar.isFinite b = true → Scalar.isFinite x = true
  /-- A step to the right moves to the right. -/
  lt_add_step : ∀ {x step : K}, Scalar.isFinite x = true → Precision.minimalStep x ≤ step →
    x < x + 1 * step
  /-- A step to the left moves to the left. -/
  add_step_lt : ∀ {x step : K}, Scalar.isFinite x = true → Precision.minimalStep x ≤ step →
    x + -1 * step < x

/-! ## Rounded steps -/

namespace Machine

section

variable {K : Type} [Scalar K] [Machine K] {s t u : K} {x y : ℝ}

/-- A defined number times a finite one other than zero is defined. -/
theorem Represents.defined_mul (hs : Represents s x) (hx : x ≠ 0)
    (ht : Scalar.isNaN t = false) : Scalar.isNaN (s * t) = false := by
  rcases represents_or_infinite ht with ⟨y, hy⟩ | ⟨sign, hsign⟩
  · exact (hs.mul hy).defined
  · rcases Binary.eq_zero_or_finite (isNaN_eq_false_iff.1 hs.defined) hs.val_eq with
      ⟨-, -, hzero⟩ | ⟨sign', m, e, hm, hu, -⟩
    · exact absurd hzero hx
    · rw [isNaN_eq_false_iff, unpack_mul, hu, hsign, Binary.mul_infinity_right,
        Binary.stored_infinity]
      nofun

theorem Represents.val_one_mul (hone : Represents (1 : K) 1) (ht : Scalar.isNaN t = false) :
    Scalar.isNaN (1 * t) = false ∧ val (1 * t) = val t := by
  have h := hone.defined_mul one_ne_zero ht
  refine ⟨h, (result_mul h).val_eq ht ?_⟩
  rw [hone.val_eq, EReal.coe_one, one_mul]

theorem Represents.val_neg_one_mul (hone : Represents (1 : K) 1) (ht : Scalar.isNaN t = false) :
    Scalar.isNaN (-1 * t) = false ∧ val (-1 * t) = -val t := by
  have h := hone.neg.defined_mul (neg_ne_zero.2 one_ne_zero) ht
  refine ⟨h, ((result_mul h).val_eq (u := -t) (by rwa [isNaN_neg]) ?_).trans (val_neg t)⟩
  rw [hone.neg.val_eq, EReal.coe_neg, EReal.coe_one, neg_one_mul, val_neg]

/-- A number is at most the magnitude of a number that differs from it by a sign. -/
theorem le_abs_of_val (ht : Scalar.isNaN t = false) (hu : Scalar.isNaN u = false)
    (h : val u = val t ∨ val u = -val t) : t ≤ Scalar.abs u := by
  refine le_iff_val.2 ⟨ht, by rwa [isNaN_abs], ?_⟩
  rw [val_abs]
  rcases h with h | h
  · exact h ▸ le_max_left _ _
  · rw [h, neg_neg]
    exact le_max_right _ _

end

/-- The relative error of one rounding. -/
noncomputable def roundoff (K : Type) [Scalar K] [Machine K] : ℝ := Binary.roundoff (format K)

/-- The smallest positive number. -/
noncomputable def tiny (K : Type) [Scalar K] [Machine K] : ℝ := Binary.tiny (format K)

section

variable {K : Type} [Precision K] [Machine K] {x d step : K} {a b g : ℝ}

theorem tiny_pos : 0 < tiny K := zpow_pos two_pos _

theorem roundoff_pos : 0 < roundoff K := one_div_pos.2 (pow_pos two_pos _)

theorem Result.error_le (h : Result (a : EReal) x) (hx : Represents x b) :
    |b - a| ≤ |a| * roundoff K + tiny K / 2 := by
  rw [roundoff, Binary.roundoff, mul_one_div]
  exact h.near a b rfl hx.val_eq

/-- The grid of a precision has a step of `g`, which is coarse enough for its format. -/
structure CoarseGrid (K : Type) [Precision K] [Machine K] (g : ℝ) : Prop where
  /-- There are at least two bits. -/
  roundoff_le : roundoff K ≤ 1 / 4
  /-- The relative precision is one unit in the last place of one. -/
  relative : Represents (Precision.relativePrecision : K) (2 * roundoff K)
  /-- The step of the grid. -/
  grid : Represents (Precision.gridStep : K) g
  /-- The step is far above the smallest number. -/
  coarse : 16 * tiny K ≤ g
  /-- One is a number. -/
  one : Represents (1 : K) 1

/-- The minimal step is at least that of the grid, and about a unit in the last place. -/
theorem CoarseGrid.minimalStep_ge (h : CoarseGrid K g) (hx : Represents x a) :
    ∃ m, Represents (Precision.minimalStep x) m ∧ g ≤ m ∧
      3 / 2 * (|a| * roundoff K) - tiny K / 2 ≤ m := by
  have hprod := hx.abs.mul h.relative
  have hu : 0 < roundoff K := roundoff_pos
  have hu4 := h.roundoff_le
  have hau : 0 ≤ |a| * roundoff K := mul_nonneg (abs_nonneg a) hu.le
  obtain ⟨q, hq, -, -⟩ := hprod.exists_between ⟨isNaN_zero, val_zero⟩ hx.abs
    (by linarith) (by nlinarith [abs_nonneg a])
  have herror := (abs_sub_le_iff.1 (hprod.error_le hq)).2
  rw [abs_of_nonneg (by linarith : 0 ≤ |a| * (2 * roundoff K))] at herror
  have hlower : 3 / 2 * (|a| * roundoff K) - tiny K / 2 ≤ q := by nlinarith
  unfold Precision.minimalStep Scalar.larger
  rw [h.grid.defined]
  simp only [Bool.false_eq_true, if_false]
  split
  · rename_i hlt
    exact ⟨q, hq, ((h.grid.lt_iff hq).1 hlt).le, hlower⟩
  · rename_i hlt
    rw [h.grid.lt_iff hq, not_lt] at hlt
    exact ⟨g, h.grid, le_rfl, hlower.trans hlt⟩

/-- A finite number is not reached again after a minimal step or more. -/
theorem CoarseGrid.val_add_ne (h : CoarseGrid K g) (hx : Represents x a) (hd : Represents d b)
    (hle : Precision.minimalStep x ≤ Scalar.abs d) : val (x + d) ≠ a := by
  intro heq
  obtain ⟨m, hm, hgm, hulp⟩ := h.minimalStep_ge hx
  rw [hm.le_iff hd.abs] at hle
  have hsum := hx.add hd
  have herror := hsum.error_le (b := a) ⟨hsum.defined, heq⟩
  rw [sub_add_cancel_left, abs_neg] at herror
  have hu : 0 < roundoff K := roundoff_pos
  have htri : |a + b| * roundoff K ≤ |a| * roundoff K + |b| * (1 / 4) := by
    have := mul_le_mul_of_nonneg_left h.roundoff_le (abs_nonneg b)
    nlinarith [abs_add_le a b]
  have := tiny_pos (K := K)
  have := h.coarse
  linarith

theorem defined_of_minimalStep_le (hle : Precision.minimalStep x ≤ Scalar.abs d) :
    Scalar.isNaN d = false := by
  rw [← isNaN_abs]
  exact (le_iff_val.1 hle).2.1

theorem Represents.defined_add (hx : Represents x a) (hd : Scalar.isNaN d = false) :
    Scalar.isNaN (x + d) = false := by
  rw [← Bool.not_eq_true, isNaN_add_iff]
  simp [hx.defined, hd, hx.val_eq]

/-- A minimal step or more leads away from a finite number. -/
theorem CoarseGrid.val_add_ne_val (h : CoarseGrid K g) (hx : Represents x a)
    (hle : Precision.minimalStep x ≤ Scalar.abs d) : val (x + d) ≠ val x := by
  have hd := defined_of_minimalStep_le hle
  rw [hx.val_eq]
  rcases represents_or_infinite hd with ⟨b, hb⟩ | ⟨sign, hsign⟩
  · exact h.val_add_ne hx hb hle
  · -- an infinite step leads to the infinity
    have hval : val d = Binary.value (.infinity sign) := by rw [val, hsign]
    rw [(result_add (hx.defined_add hd)).val_eq hd (by
      rw [hval, hx.val_eq, add_comm, Binary.value_infinity_add]), hval]
    cases sign with
    | positive => exact EReal.top_ne_coe a
    | negative => exact EReal.bot_ne_coe a

/-- A step to the right moves to the right. -/
theorem CoarseGrid.lt_add (h : CoarseGrid K g) (hx : Represents x a)
    (hle : Precision.minimalStep x ≤ Scalar.abs d) (hpos : 0 ≤ val d) : x < x + d := by
  have hsum := hx.defined_add (defined_of_minimalStep_le hle)
  have hge := (result_add hsum).ge_of_ge x hx.defined (le_add_of_nonneg_right hpos)
  exact lt_iff_val.2 ⟨hx.defined, hsum, lt_of_le_of_ne hge (h.val_add_ne_val hx hle).symm⟩

/-- A step to the left moves to the left. -/
theorem CoarseGrid.add_lt (h : CoarseGrid K g) (hx : Represents x a)
    (hle : Precision.minimalStep x ≤ Scalar.abs d) (hneg : val d ≤ 0) : x + d < x := by
  have hsum := hx.defined_add (defined_of_minimalStep_le hle)
  have hge := (result_add hsum).le_of_le x hx.defined (add_le_of_nonpos_right hneg)
  exact lt_iff_val.2 ⟨hsum, hx.defined, lt_of_le_of_ne hge (h.val_add_ne_val hx hle)⟩

/-- A step that is not below the minimal one is positive. -/
theorem CoarseGrid.val_nonneg (h : CoarseGrid K g) (hx : Represents x a)
    (hle : Precision.minimalStep x ≤ step) : 0 ≤ val step := by
  obtain ⟨m, hm, hgm, -⟩ := h.minimalStep_ge hx
  have hpos : 0 ≤ m := by linarith [tiny_pos (K := K), h.coarse]
  refine le_trans ?_ (le_iff_val.1 hle).2.2
  rw [hm.val_eq]
  exact EReal.coe_nonneg.2 hpos

/-- A finite number is moved strictly by every step that is not below the minimal one. -/
theorem CoarseGrid.stridingPrecision (h : CoarseGrid K g) : StridingPrecision K where
  defined_gridStep := h.grid.defined
  isFinite_of_between := by
    intro a x b hax hxb ha hb
    obtain ⟨s, hs⟩ := exists_represents ha
    obtain ⟨t, ht⟩ := exists_represents hb
    obtain ⟨y, hy, -⟩ := hs.exists_of_le ht hax hxb
    exact hy.isFinite
  lt_add_step := by
    intro x step hx hle
    obtain ⟨a, ha⟩ := exists_represents hx
    have hstep := (le_iff_val.1 hle).2.1
    obtain ⟨hdef, hval⟩ := h.one.val_one_mul hstep
    have hlong := OrderedScalar.trans hle (le_abs_of_val hstep hdef (.inl hval))
    exact h.lt_add ha hlong (hval ▸ h.val_nonneg ha hle)
  add_step_lt := by
    intro x step hx hle
    obtain ⟨a, ha⟩ := exists_represents hx
    have hstep := (le_iff_val.1 hle).2.1
    obtain ⟨hdef, hval⟩ := h.one.val_neg_one_mul hstep
    have hlong := OrderedScalar.trans hle (le_abs_of_val hstep hdef (.inr hval))
    refine h.add_lt ha hlong ?_
    rw [hval]
    simpa using EReal.neg_le_neg_iff.2 (h.val_nonneg ha hle)

end

end Machine

namespace Machine

theorem roundoff_double : roundoff Float = 1 / 2 ^ 53 := rfl

theorem roundoff_single : roundoff Float32 = 1 / 2 ^ 24 := rfl

/-- The grid of double precision. -/
theorem coarseGrid_double : CoarseGrid Float (4722366482869645 * 0.5 ^ 72) where
  roundoff_le := by
    norm_num [roundoff_double]
  relative := represents_of_unpack
    (show unpack (Precision.relativePrecision : Float) =
      .finite .positive (2 ^ 52) (-104) (by decide) from rfl)
    (by norm_num [roundoff_double])
  grid := by
    have hgrid : (Precision.gridStep : Float) = Float.ofBits 0x3eb0c6f7a0b5ed8d := by
      decide +kernel
    rw [hgrid]
    exact represents_of_unpack
      (show unpack _ = .finite .positive 4722366482869645 (-72) (by decide) from rfl)
      (by norm_num)
  coarse := by
    have htiny : tiny Float ≤ 2 ^ (-72 : ℤ) := zpow_le_zpow_right₀ one_le_two (by decide)
    norm_num at htiny ⊢
    linarith
  one := represents_of_unpack
    (show unpack (1 : Float) = .finite .positive (2 ^ 52) (-52) (by decide) from rfl)
    (by norm_num)

/-- The grid of single precision. -/
theorem coarseGrid_single : CoarseGrid Float32 (10995116 * 0.5 ^ 40) where
  roundoff_le := by
    norm_num [roundoff_single]
  relative := represents_of_unpack
    (show unpack (Precision.relativePrecision : Float32) =
      .finite .positive (2 ^ 23) (-46) (by decide) from rfl)
    (by norm_num [roundoff_single])
  grid := by
    have hgrid : (Precision.gridStep : Float32) = Float32.ofBits 0x3727c5ac := by decide +kernel
    rw [hgrid]
    exact represents_of_unpack
      (show unpack _ = .finite .positive 10995116 (-40) (by decide) from rfl)
      (by norm_num)
  coarse := by
    have htiny : tiny Float32 ≤ 2 ^ (-40 : ℤ) := zpow_le_zpow_right₀ one_le_two (by decide)
    norm_num at htiny ⊢
    linarith
  one := represents_of_unpack
    (show unpack (1 : Float32) = .finite .positive (2 ^ 23) (-23) (by decide) from rfl)
    (by norm_num)

end Machine

instance : StridingPrecision Float := Machine.coarseGrid_double.stridingPrecision

instance : StridingPrecision Float32 := Machine.coarseGrid_single.stridingPrecision

/-! ## The direction of a scan -/

namespace Cursor

variable {K : Type}

section

variable [Scalar K]

/-- Strictly farther in the direction of the scan. -/
def Ahead (c : Cursor K) (x y : K) : Prop := if c.position < c.goal then x < y else y < x

/-- No less far in the direction of the scan. -/
def Along (c : Cursor K) (x y : K) : Prop := if c.position < c.goal then x ≤ y else y ≤ x

variable [OrderedScalar K] {c : Cursor K} {x y z : K}

theorem Ahead.along (h : c.Ahead x y) : c.Along x y := by
  unfold Ahead Along at *
  split at h
  · rw [if_pos ‹_›]
    exact Scalar.le_of_lt h
  · rw [if_neg ‹_›]
    exact Scalar.le_of_lt h

theorem Ahead.trans (h : c.Ahead x y) (h' : c.Ahead y z) : c.Ahead x z := by
  unfold Ahead at *
  split at h
  · rw [if_pos ‹_›] at h' ⊢
    exact Scalar.lt_trans h h'
  · rw [if_neg ‹_›] at h' ⊢
    exact Scalar.lt_trans h' h

theorem Ahead.defined (h : c.Ahead x y) : Scalar.isNaN x = false ∧ Scalar.isNaN y = false := by
  unfold Ahead at h
  split at h
  · exact Scalar.defined_of_lt h
  · exact (Scalar.defined_of_lt h).symm

theorem Along.trans (h : c.Along x y) (h' : c.Along y z) : c.Along x z := by
  unfold Along at *
  split at h
  · rw [if_pos ‹_›] at h' ⊢
    exact OrderedScalar.trans h h'
  · rw [if_neg ‹_›] at h' ⊢
    exact OrderedScalar.trans h' h

theorem Along.defined (h : c.Along x y) : Scalar.isNaN x = false ∧ Scalar.isNaN y = false := by
  unfold Along at h
  split at h
  · exact OrderedScalar.defined_of_le h
  · exact (OrderedScalar.defined_of_le h).symm

/-- Where a scan has come to is to the right of its start if the goal is. -/
theorem Ahead.position_lt_iff (h : c.Ahead c.position x) :
    c.position < x ↔ c.position < c.goal := by
  unfold Ahead at h
  split at h
  · rename_i hforward
    exact iff_of_true h hforward
  · rename_i hforward
    exact iff_of_false (Scalar.lt_asymm h) hforward

theorem along_goal (hx : Scalar.isNaN x = false) (hgoal : Scalar.isNaN c.goal = false)
    (h : x < c.goal ↔ c.position < c.goal) : c.Along x c.goal := by
  unfold Along
  split
  · rename_i hforward
    exact Scalar.le_of_lt (h.2 hforward)
  · rename_i hforward
    exact Scalar.le_of_not_lt hgoal hx (mt h.1 hforward)

theorem goal_along (hx : Scalar.isNaN x = false) (hgoal : Scalar.isNaN c.goal = false)
    (h : ¬ (x < c.goal ↔ c.position < c.goal)) : c.Along c.goal x := by
  unfold Along
  split
  · rename_i hforward
    exact Scalar.le_of_not_lt hgoal hx fun hlt => h (iff_of_true hlt hforward)
  · rename_i hforward
    exact Scalar.le_of_lt (by_contra fun hlt => h (iff_of_false hlt hforward))

theorem along_total (c : Cursor K) (hx : Scalar.isNaN x = false) (hy : Scalar.isNaN y = false) :
    c.Along x y ∨ c.Along y x := by
  unfold Along
  split
  · exact OrderedScalar.total hx hy
  · exact OrderedScalar.total hy hx

end

/-! ## The next sample -/

variable [Precision K] [StridingPrecision K] {c : Cursor K} {x : K}

theorem defined_minimalStep (x : K) : Scalar.isNaN (Precision.minimalStep x) = false := by
  unfold Precision.minimalStep Scalar.larger
  rw [StridingPrecision.defined_gridStep]
  simp only [Bool.false_eq_true, if_false]
  split
  · rename_i hlt
    exact (Scalar.defined_of_lt hlt).2
  · exact StridingPrecision.defined_gridStep

theorem defined_of_isFinite (hx : Scalar.isFinite x = true) : Scalar.isNaN x = false :=
  (Scalar.defined_of_lt (StridingPrecision.lt_add_step hx
    (Scalar.le_refl_of_defined (defined_minimalStep x)))).1

/-- What lies between two finite numbers in the direction of a scan is finite. -/
theorem isFinite_of_along {y z : K} (h : c.Along x y) (h' : c.Along y z)
    (hx : Scalar.isFinite x = true) (hz : Scalar.isFinite z = true) :
    Scalar.isFinite y = true := by
  unfold Along at *
  split at h
  · rw [if_pos ‹_›] at h'
    exact StridingPrecision.isFinite_of_between h h' hx hz
  · rw [if_neg ‹_›] at h'
    exact StridingPrecision.isFinite_of_between h' h hz hx

/-- A step is not below the minimal one, unless it has to be. -/
theorem minimalStep_le_step {t : K} (h : ¬ c.maximalStep ≤ Precision.minimalStep x) :
    Precision.minimalStep x ≤
      Scalar.smaller (Scalar.larger t (Precision.minimalStep x)) c.maximalStep := by
  have hleast := defined_minimalStep x
  have hlarger : Precision.minimalStep x ≤ Scalar.larger t (Precision.minimalStep x) := by
    unfold Scalar.larger
    split
    · exact Scalar.le_refl_of_defined hleast
    · rename_i ht
      split
      · exact Scalar.le_refl_of_defined hleast
      · rename_i hlt
        exact Scalar.le_of_not_lt hleast (Bool.not_eq_true _ ▸ ht) hlt
  unfold Scalar.smaller
  rw [(OrderedScalar.defined_of_le hlarger).2]
  simp only [Bool.false_eq_true, if_false]
  split
  · rename_i hlt
    exact (OrderedScalar.total hleast (Scalar.defined_of_lt hlt).1).resolve_right h
  · exact hlarger

/-- The sample that follows a finite abscissa on the way to the goal is strictly ahead. -/
theorem ahead_nextX (hx : Scalar.isFinite x = true)
    (hdir : x < c.goal ↔ c.position < c.goal) : c.Ahead x (c.nextX x c.goal) := by
  have hmoves : ∀ step, Precision.minimalStep x ≤ step →
      c.Ahead x (x + (if x < c.goal then 1 else -1) * step) := by
    intro step hstep
    unfold Ahead
    by_cases h : c.position < c.goal
    · rw [if_pos h, if_pos (hdir.2 h)]
      exact StridingPrecision.lt_add_step hx hstep
    · rw [if_neg h, if_neg (mt hdir.1 h)]
      exact StridingPrecision.add_step_lt hx hstep
  unfold nextX
  dsimp only
  split
  · exact hmoves _ (Scalar.le_refl_of_defined (defined_minimalStep x))
  · rename_i hlarge
    refine hmoves _ (minimalStep_le_step ?_)
    simp only [Bool.or_eq_true, decide_eq_true_eq, not_or] at hlarge
    exact hlarge.2

end Cursor

end CurveSurvey

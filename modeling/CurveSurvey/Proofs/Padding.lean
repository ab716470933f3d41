import CurveSurvey.Proofs.Stretch

/-!
# What stretching reaches

A stretched scan accepts the ends that it had before, if there is room for that.

* `Machine.FineGrid` is what is asked of the format of the numbers; double and single precision
  are such.
* `Machine.error_lt_of_room`: three minimal steps outweigh the one that a cursor demands of a
  solution and the roundings of both moves.  `Machine.minimal_le_of_room` is what this implies
  for the minimal step at the other end.
* `Cursor.stretch_reaches_ends` is the result, and says what becomes of a short scan from zero,
  and of a scan that cannot be stretched.
* `Cursor.stretch_misses_zero` is a scan that stretching does not help.
-/

namespace CurveSurvey

namespace Machine

variable {K : Type} [Precision K] [Machine K]

/-- A coarse grid in a format of at least ten bits. -/
structure FineGrid (K : Type) [Precision K] [Machine K] (g : ℝ) : Prop extends CoarseGrid K g where
  /-- There are at least ten bits. -/
  fine : roundoff K ≤ 1 / 1024
  /-- Three is a number. -/
  three : Represents (3 : K) 3
  /-- A hundred is a number. -/
  hundred : Represents (100 : K) 100

/-- The grid of double precision is fine. -/
theorem fineGrid_double : FineGrid Float (4722366482869645 * 0.5 ^ 72) where
  __ := coarseGrid_double
  fine := by
    norm_num [roundoff_double]
  three := represents_of_unpack
    (show unpack (3 : Float) = .finite .positive (3 * 2 ^ 51) (-51) (by decide) from rfl)
    (by norm_num)
  hundred := represents_of_unpack
    (show unpack (100 : Float) = .finite .positive (100 * 2 ^ 46) (-46) (by decide) from rfl)
    (by norm_num)

/-- The grid of single precision is fine. -/
theorem fineGrid_single : FineGrid Float32 (10995116 * 0.5 ^ 40) where
  __ := coarseGrid_single
  fine := by
    norm_num [roundoff_single]
  three := represents_of_unpack
    (show unpack (3 : Float32) = .finite .positive (3 * 2 ^ 22) (-22) (by decide) from rfl)
    (by norm_num)
  hundred := represents_of_unpack
    (show unpack (100 : Float32) = .finite .positive (100 * 2 ^ 17) (-17) (by decide) from rfl)
    (by norm_num)

/-! ## Errors -/

variable {x step : K} {a d g m m' q u t : ℝ}

/-- The minimal step is that of the grid, or two units of the relative error. -/
theorem CoarseGrid.minimalStep_cases (h : CoarseGrid K g) (hx : Represents x a) :
    ∃ m, Represents (Precision.minimalStep x) m ∧ g ≤ m ∧
      3 / 2 * (|a| * roundoff K) - tiny K / 2 ≤ m ∧
      (m = g ∨ m ≤ 2 * (|a| * roundoff K) + 2 * (|a| * roundoff K) * roundoff K + tiny K / 2) := by
  obtain ⟨m, hm, hgm, hlower⟩ := h.minimalStep_ge hx
  refine ⟨m, hm, hgm, hlower, ?_⟩
  have hprod := hx.abs.mul h.relative
  unfold Precision.minimalStep Scalar.larger at hm
  rw [h.grid.defined] at hm
  simp only [Bool.false_eq_true, if_false] at hm
  split at hm
  · right
    have herror := (abs_sub_le_iff.1 (hprod.error_le hm)).1
    have hu : 0 < roundoff K := roundoff_pos
    rw [abs_of_nonneg (mul_nonneg (abs_nonneg a) (by linarith))] at herror
    linarith
  · left
    exact EReal.coe_eq_coe_iff.1 (hm.val_eq.symm.trans h.grid.val_eq)

theorem mul_le_of_fine (hu : u ≤ 1 / 1024) (ha : 0 ≤ a) : a * u ≤ a / 1024 := by
  have := mul_le_mul_of_nonneg_left hu ha
  linarith

/-- After a step back of three minimal steps, a minimal step and the error of both do not lead
as far as where it started. -/
theorem error_lt_of_room (hu : 0 < u) (hu' : u ≤ 1 / 1024) (ht : 0 < t) (htg : 16 * t ≤ g)
    (hgm : g ≤ m) (hm : 3 / 2 * (|a| * u) - t / 2 ≤ m) (hd : 3 * m - 3 * m * u - t / 2 ≤ d)
    (hq : |q - (a - d)| ≤ |a - d| * u + t / 2)
    (hm' : m' = g ∨ m' ≤ 2 * (|q| * u) + 2 * (|q| * u) * u + t / 2) (hgm' : g ≤ m') :
    |q + m'| * u + t / 2 < a - (q + m') := by
  have hmu := mul_le_of_fine hu' (by linarith : 0 ≤ m)
  have hd0 : 0 ≤ d := by linarith
  have hdu := mul_le_of_fine hu' hd0
  have hadu : |a - d| * u ≤ |a| * u + d * u := by
    nlinarith [abs_sub a d, abs_of_nonneg hd0]
  have hq' : |q| ≤ |a - d| + (|a - d| * u + t / 2) := by
    have := abs_add_le (q - (a - d)) (a - d)
    rw [sub_add_cancel] at this
    linarith
  have hqu : |q| * u ≤ |a - d| * u + (|a - d| * u) * u + t / 2 * u := by
    nlinarith
  have haduu := mul_le_of_fine hu' (mul_nonneg (abs_nonneg (a - d)) hu.le)
  have htu := mul_le_of_fine hu' (by linarith : 0 ≤ t / 2)
  have hquu := mul_le_of_fine hu' (mul_nonneg (abs_nonneg q) hu.le)
  have hm'u := mul_le_of_fine hu' (by linarith : 0 ≤ m')
  have hsum : |q + m'| * u ≤ |q| * u + m' * u := by
    nlinarith [abs_add_le q m', abs_of_nonneg (by linarith : 0 ≤ m')]
  have hupper := (abs_sub_le_iff.1 hq).1
  rcases hm' with hm' | hm'
  · linarith
  · linarith

/-- The minimal step at the far end of a scan is no larger than its maximal step, if there is room
for that at the near end. -/
theorem minimal_le_of_room {b e f : ℝ} (hu : 0 < u) (hu' : u ≤ 1 / 1024) (ht : 0 < t)
    (htg : 16 * t ≤ g) (hgm : g ≤ m) (hm : 3 / 2 * (|a| * u) - t / 2 ≤ m)
    (hd : 3 * m - 3 * m * u - t / 2 ≤ d) (he : |e - (b - a)| ≤ |b - a| * u + t / 2)
    (hf : |f - |e| / 100| ≤ |e| / 100 * u + t / 2) (hfd : f ≤ d)
    (hm' : m' = g ∨ m' ≤ 2 * (|b| * u) + 2 * (|b| * u) * u + t / 2) : m' ≤ d := by
  have hmu := mul_le_of_fine hu' (by linarith : 0 ≤ m)
  have hdist : |b - a| ≤ |e| + (|b - a| * u + t / 2) := by
    have := abs_sub_abs_le_abs_sub (b - a) e
    rw [abs_sub_comm (b - a) e] at this
    linarith
  have hdistu := mul_le_of_fine hu' (abs_nonneg (b - a))
  have heu := mul_le_of_fine hu' (by positivity : 0 ≤ |e| / 100)
  have hbu : |b| * u ≤ |a| * u + |b - a| * u := by
    have := abs_add_le a (b - a)
    rw [add_sub_cancel] at this
    nlinarith
  have hbuu := mul_le_of_fine hu' (mul_nonneg (abs_nonneg b) hu.le)
  have hquotient := (abs_sub_le_iff.1 hf).2
  rcases hm' with hm' | hm'
  · linarith
  · linarith

/-! ## Machine numbers -/

/-- A result that is not negative is finite, if it is at most a finite number. -/
theorem Result.exists_le {r : ℝ} (h : Result (r : EReal) x) (hr : 0 ≤ r)
    (hstep : Represents step d) (hle : val x ≤ d) : ∃ y, Represents x y ∧ y ≤ d := by
  have hzero : Represents (0 : K) 0 := ⟨isNaN_zero, val_zero⟩
  have hnonneg : val (0 : K) ≤ val x := h.ge_of_ge 0 isNaN_zero (by
    rw [val_zero]
    exact EReal.coe_nonneg.2 hr)
  obtain ⟨y, hy, -, hyd⟩ := hzero.of_le_of_le hstep h.defined hnonneg (hstep.val_eq ▸ hle)
  exact ⟨y, hy, hyd⟩

theorem FineGrid.three_mul_le (h : FineGrid K g) (hx : Represents x m) (hstep : Represents step d)
    (hm : 0 ≤ m) (hle : 3 * x ≤ step) : 3 * m - 3 * m * roundoff K - tiny K / 2 ≤ d := by
  have hprod := h.three.mul hx
  obtain ⟨r, hr, hrd⟩ := hprod.exists_le (by linarith) hstep
    (hstep.val_eq ▸ (le_iff_val.1 hle).2.2)
  have herror := (abs_sub_le_iff.1 (hprod.error_le hr)).2
  rw [abs_of_nonneg (by linarith)] at herror
  linarith

theorem CoarseGrid.represents_step (h : CoarseGrid K g) (hstep : Represents step d) :
    Represents (1 * step) d ∧ Represents (-1 * step) (-d) := by
  obtain ⟨hone, hval⟩ := h.one.val_one_mul hstep.defined
  obtain ⟨hneg, hnegVal⟩ := h.one.val_neg_one_mul hstep.defined
  refine ⟨⟨hone, hval.trans hstep.val_eq⟩, hneg, ?_⟩
  rw [hnegVal, hstep.val_eq, EReal.coe_neg]

/-- The minimal step after a step of three minimal ones, taken back in the direction of `s`, with
the bound on its errors. -/
theorem FineGrid.exists_room (h : FineGrid K g) {p : K} {s : ℝ} (hx : Represents x a)
    (hstep : Represents step d) (hp : Represents p q)
    (hroom : 3 * Precision.minimalStep x ≤ step) (hs : |s| = 1)
    (hq : |s * q - (s * a - d)| ≤ |s * a - d| * roundoff K + tiny K / 2) :
    ∃ m', Represents (Precision.minimalStep p) m' ∧ 0 ≤ m' ∧
      |s * q + m'| * roundoff K + tiny K / 2 < s * a - (s * q + m') := by
  obtain ⟨m, hm, hgm, hlower⟩ := h.minimalStep_ge hx
  obtain ⟨m', hm', hgm', -, hcases⟩ := h.minimalStep_cases hp
  have htiny := tiny_pos (K := K)
  have hcoarse := h.coarse
  have hd := h.three_mul_le hm hstep (by linarith) hroom
  have hmagnitude (y : ℝ) : |s * y| = |y| := by rw [abs_mul, hs, one_mul]
  rw [← hmagnitude a] at hlower
  rw [← hmagnitude q] at hcases
  exact ⟨m', hm', by linarith,
    error_lt_of_room roundoff_pos h.fine htiny hcoarse hgm hlower hd hq hcases hgm'⟩

/-- From a stretched start on the left, a minimal step does not lead to the start. -/
theorem FineGrid.add_minimalStep_lt (h : FineGrid K g) (hx : Represents x a)
    (hstep : Represents step d) (hp : Represents (x - 1 * step) q)
    (hroom : 3 * Precision.minimalStep x ≤ step) :
    x - 1 * step + Precision.minimalStep (x - 1 * step) < x := by
  have hq := (hx.sub (h.represents_step hstep).1).error_le hp
  obtain ⟨m', hm', hnonneg, hlt⟩ := h.exists_room hx hstep hp hroom abs_one
    (by simpa only [one_mul] using hq)
  simp only [one_mul] at hlt
  have herror : 0 ≤ |q + m'| * roundoff K := mul_nonneg (abs_nonneg _) roundoff_pos.le
  have htiny := tiny_pos (K := K)
  obtain ⟨r, hr, -, -⟩ := (hp.add hm').exists_between hp hx (by linarith) (by linarith)
  have hsum := (abs_sub_le_iff.1 ((hp.add hm').error_le hr)).1
  exact (hr.lt_iff hx).2 (by linarith)

/-- From a stretched start on the right, a minimal step does not lead to the start. -/
theorem FineGrid.lt_sub_minimalStep (h : FineGrid K g) (hx : Represents x a)
    (hstep : Represents step d) (hp : Represents (x - -1 * step) q)
    (hroom : 3 * Precision.minimalStep x ≤ step) :
    x < x - -1 * step - Precision.minimalStep (x - -1 * step) := by
  -- the errors are those on the left of the opposite number
  have hq : |-1 * q - (-1 * a - d)| ≤ |-1 * a - d| * roundoff K + tiny K / 2 := by
    have := (hx.sub (h.represents_step hstep).2).error_le hp
    rwa [← abs_neg (q - _), ← abs_neg (a - -d),
      show -(q - (a - -d)) = -1 * q - (-1 * a - d) by ring,
      show -(a - -d) = -1 * a - d by ring] at this
  obtain ⟨m', hm', hnonneg, hlt⟩ := h.exists_room hx hstep hp hroom (by norm_num) hq
  rw [← abs_neg, show -(-1 * q + m') = q - m' by ring] at hlt
  have herror : 0 ≤ |q - m'| * roundoff K := mul_nonneg (abs_nonneg _) roundoff_pos.le
  have htiny := tiny_pos (K := K)
  obtain ⟨r, hr, -, -⟩ := (hp.sub hm').exists_between hx hp (by linarith) (by linarith)
  have hdiff := (abs_sub_le_iff.1 ((hp.sub hm').error_le hr)).2
  exact (hx.lt_iff hr).2 (by linarith)

/-- A difference from zero is not rounded. -/
theorem Represents.zero_sub (hx : Represents x 0) (hstep : Represents step d) :
    Represents (x - step) (-d) := by
  have hdiff := hx.sub hstep
  refine ⟨hdiff.defined, (hdiff.val_eq hstep.neg.defined ?_).trans hstep.neg.val_eq⟩
  rw [hstep.neg.val_eq, neg_eq_zero_sub]

/-- A step of the grid to the left of zero, a minimal step leads back to zero. -/
theorem CoarseGrid.not_add_minimalStep_lt (h : CoarseGrid K g) (hx : Represents x 0)
    (hstep : Represents step g) :
    ¬ x - 1 * step + Precision.minimalStep (x - 1 * step) < x := by
  have hp := hx.zero_sub (h.represents_step hstep).1
  obtain ⟨m, hm, hgm, -⟩ := h.minimalStep_ge hp
  have hge := (hp.add hm).ge_of_ge x hx.defined (by
    rw [hx.val_eq, EReal.coe_le_coe_iff]
    linarith)
  exact fun hlt => absurd (lt_iff_val.1 hlt).2.2 (not_lt.2 hge)

/-- A step of the grid to the right of zero, a minimal step leads back to zero. -/
theorem CoarseGrid.not_lt_sub_minimalStep (h : CoarseGrid K g) (hx : Represents x 0)
    (hstep : Represents step g) :
    ¬ x < x - -1 * step - Precision.minimalStep (x - -1 * step) := by
  have hp := hx.zero_sub (h.represents_step hstep).2
  obtain ⟨m, hm, hgm, -⟩ := h.minimalStep_ge hp
  have hle := (hp.sub hm).le_of_le x hx.defined (by
    rw [hx.val_eq, EReal.coe_le_coe_iff]
    linarith)
  exact fun hlt => absurd (lt_iff_val.1 hlt).2.2 (not_lt.2 hle)

/-- A positive infinity divided by a positive number is infinite. -/
theorem Represents.top_div (hx : val x = ⊤) (ht : Represents step d) (hd : 0 < d) :
    Scalar.isNaN (x / step) = false ∧ val (x / step) = ⊤ := by
  have hinfinite : unpack x = .infinity .positive := by
    have hpos : 0 < Binary.value (unpack x) := by
      rw [show Binary.value (unpack x) = ⊤ from hx]
      exact EReal.zero_lt_top
    rcases Binary.eq_positive_of_pos hpos with h | ⟨m, e, hm, h⟩
    · exact h
    · rw [val, h] at hx
      exact absurd hx (EReal.coe_ne_top _)
  have hquotient : unpack (x / step) = .infinity .positive := by
    obtain ⟨m, e, hm, hunpack, -⟩ := ht.unpack_positive hd
    rw [unpack_div, hinfinite, hunpack]
    exact Binary.stored_infinity _
  exact ⟨isNaN_eq_false_iff.2 (by simp [hquotient]), by rw [val, hquotient]; rfl⟩

theorem le_larger_right (h : CoarseGrid K g) (hx : Scalar.isNaN x = false) :
    x ≤ Scalar.larger Precision.gridStep x := by
  unfold Scalar.larger
  rw [h.grid.defined]
  simp only [Bool.false_eq_true, if_false]
  split
  · exact Scalar.le_refl_of_defined hx
  · rename_i hlt
    exact Scalar.le_of_not_lt hx h.grid.defined hlt

/-- The minimal step at the goal of a scan fits into its maximal step, if there is room for three
at its start. -/
theorem FineGrid.minimalStep_goal_le (h : FineGrid K g) {start goal : K} {a b : ℝ}
    (hstart : Represents start a) (hgoal : Represents goal b)
    (hstep : Represents (Cursor.new start goal).maximalStep d)
    (hroom : 3 * Precision.minimalStep start ≤ (Cursor.new start goal).maximalStep) :
    Precision.minimalStep goal ≤ (Cursor.new start goal).maximalStep := by
  obtain ⟨m, hm, hgm, hlower⟩ := h.minimalStep_ge hstart
  obtain ⟨m', hm', -, -, hcases⟩ := h.minimalStep_cases hgoal
  have htiny := tiny_pos (K := K)
  have hcoarse := h.coarse
  have hd := h.three_mul_le hm hstep (by linarith) hroom
  have hdiff := hgoal.sub hstart
  -- the distance is finite, since so is the maximal step
  have hshare : Scalar.isNaN (Scalar.abs (goal - start) / 100) = false →
      val (Scalar.abs (goal - start) / 100) ≤ d := fun hdef =>
    hstep.val_eq ▸ (le_iff_val.1 (le_larger_right h.toCoarseGrid hdef)).2.2
  cases hfinite : Scalar.isFinite (goal - start) with
  | true =>
    obtain ⟨e, he⟩ := exists_represents hfinite
    have hquotient := he.abs.div h.hundred (by norm_num)
    obtain ⟨f, hf, hfd⟩ := hquotient.exists_le (by positivity) hstep (hshare hquotient.defined)
    have herror := hquotient.error_le hf
    rw [abs_of_nonneg (by positivity : 0 ≤ |e| / 100)] at herror
    exact (hm'.le_iff hstep).2 (minimal_le_of_room roundoff_pos h.fine htiny hcoarse hgm hlower hd
      (hdiff.error_le he) herror hfd hcases)
  | false =>
    obtain ⟨hdef, hval⟩ := h.hundred.top_div (val_abs_of_infinite hdiff.defined hfinite)
      (by norm_num)
    exact absurd (hval ▸ hshare hdef) (not_le.2 (EReal.coe_lt_top d))

end Machine

/-! ## The ends of a stretched scan -/

namespace Cursor

open Machine

variable {K : Type} [Precision K] [Machine K] {g : ℝ} {start goal : K}

/-- The maximal step is finite, if a scan stretched by it starts at a finite number. -/
theorem isFinite_maximalStep (h : CoarseGrid K g) (hstart : Scalar.isFinite start = true)
    (hposition : Scalar.isFinite (new start goal).stretch.position = true) :
    Scalar.isFinite (new start goal).maximalStep = true := by
  have hlaws : StretchingPrecision K := h.stretchingPrecision
  have hgrid := gridStep_le_maximalStep start goal
  obtain ⟨-, hdef, -⟩ := le_iff_val.1 hgrid
  obtain ⟨a, ha⟩ := exists_represents hstart
  obtain ⟨q, hq⟩ := exists_represents hposition
  by_contra hinfinite
  have htop : val (new start goal).maximalStep = ⊤ := by
    rcases isFinite_or_val_eq hdef with hfinite | htop | hbot
    · exact absurd hfinite hinfinite
    · exact htop
    · have hpos := (h.val_pos hgrid).1
      rw [(h.one.val_one_mul hdef).2, hbot] at hpos
      exact absurd hpos not_lt_bot
  change Represents (start - (new start goal).direction * (new start goal).maximalStep) q at hq
  by_cases hlt : start < goal
  · have hdir : (new start goal).direction = 1 := if_pos hlt
    have hval := (h.one.val_one_mul hdef).2
    rw [hdir] at hq
    have hle := (result_sub hq.defined).le_of_le (-(new start goal).maximalStep)
      (by rwa [isNaN_neg]) (by rw [hval, htop, EReal.sub_top]; exact bot_le)
    rw [hq.val_eq, val_neg, htop] at hle
    exact absurd hle (not_le.2 (EReal.bot_lt_coe q))
  · have hdir : (new start goal).direction = -1 := if_neg hlt
    have hval := (h.one.val_neg_one_mul hdef).2
    rw [hdir] at hq
    have hle := (result_sub hq.defined).ge_of_ge (new start goal).maximalStep hdef (by
      rw [hval, htop, EReal.neg_top, ha.val_eq, sub_eq_add_neg, EReal.neg_bot]
      exact le_top.trans (EReal.coe_add_top a).ge)
    rw [hq.val_eq, htop] at hle
    exact absurd hle (not_le.2 (EReal.coe_lt_top q))

/-- Stretching a scan makes its ends acceptable. -/
theorem accepts_ends (h : FineGrid K g) (hstart : Scalar.isFinite start = true)
    (hgoal : Scalar.isFinite goal = true)
    (hposition : Scalar.isFinite (new start goal).stretch.position = true)
    (hroom : 3 * Precision.minimalStep start ≤ (new start goal).maximalStep) :
    (new start goal).stretch.accepts start = true ∧
      (new start goal).stretch.accepts goal = true := by
  have hlaws : StretchingPrecision K := h.stretchingPrecision
  obtain ⟨a, ha⟩ := exists_represents hstart
  obtain ⟨b, hb⟩ := exists_represents hgoal
  obtain ⟨d, hd⟩ := exists_represents (isFinite_maximalStep h.toCoarseGrid hstart hposition)
  have hfar := h.minimalStep_goal_le ha hb hd hroom
  obtain ⟨q, hq⟩ := exists_represents hposition
  by_cases hlt : start < goal
  · have hdir : (new start goal).direction = 1 := if_pos hlt
    have hnear : (new start goal).stretch.position +
        Precision.minimalStep (new start goal).stretch.position < start := by
      simp only [stretch, hdir] at hq ⊢
      exact h.add_minimalStep_lt ha hd hq hroom
    have hbeyond : goal < (new start goal).stretch.goal := by
      simp only [stretch, hdir]
      exact StridingPrecision.lt_add_step hgoal hfar
    have hway : (new start goal).stretch.position < (new start goal).stretch.goal :=
      (stretch_lt_iff ha.defined hb.defined hq.defined (Scalar.defined_of_lt hbeyond).2).2 hlt
    simp only [accepts, if_pos hway, Bool.and_eq_true, decide_eq_true_eq]
    exact ⟨⟨hnear, Scalar.lt_trans hlt hbeyond⟩, Scalar.lt_trans hnear hlt, hbeyond⟩
  · have hdir : (new start goal).direction = -1 := if_neg hlt
    have hle : goal ≤ start := Scalar.le_of_not_lt hb.defined ha.defined hlt
    have hnear : start < (new start goal).stretch.position -
        Precision.minimalStep (new start goal).stretch.position := by
      simp only [stretch, hdir] at hq ⊢
      exact h.lt_sub_minimalStep ha hd hq hroom
    have hbeyond : (new start goal).stretch.goal < goal := by
      simp only [stretch, hdir]
      exact StridingPrecision.add_step_lt hgoal hfar
    have hway : ¬ (new start goal).stretch.position < (new start goal).stretch.goal :=
      mt (stretch_lt_iff ha.defined hb.defined hq.defined (Scalar.defined_of_lt hbeyond).1).1 hlt
    simp only [accepts, if_neg hway, Bool.and_eq_true, decide_eq_true_eq]
    exact ⟨⟨Scalar.lt_of_lt_of_le hbeyond hle, hnear⟩, hbeyond, Scalar.lt_of_le_of_lt hle hnear⟩

/-- A scan from zero that is stretched by no more than a step of the grid does not accept zero. -/
theorem not_accepts_zero (h : CoarseGrid K g) (hzero : (start == 0) = true)
    (hgoal : Scalar.isNaN goal = false)
    (hshort : (new start goal).maximalStep ≤ Precision.gridStep) :
    (new start goal).stretch.accepts start = false := by
  have hlaws : StretchingPrecision K := h.stretchingPrecision
  obtain ⟨hstart, -, hval⟩ := beq_iff_val.1 hzero
  rw [val_zero] at hval
  have hx : Represents start 0 := ⟨hstart, by rw [hval, EReal.coe_zero]⟩
  have hstep : Represents (new start goal).maximalStep g :=
    ⟨(le_iff_val.1 hshort).1, (le_antisymm (le_iff_val.1 hshort).2.2
      (le_iff_val.1 (gridStep_le_maximalStep start goal)).2.2).trans h.grid.val_eq⟩
  unfold accepts
  dsimp only
  rw [Bool.eq_false_iff]
  intro haccepts
  by_cases hlt : start < goal
  · have hdir : (new start goal).direction = 1 := if_pos hlt
    split at haccepts
    · simp only [Bool.and_eq_true, decide_eq_true_eq, stretch, hdir] at haccepts
      exact h.not_add_minimalStep_lt hx hstep haccepts.1
    · -- the goal was not moved back
      simp only [Bool.and_eq_true, decide_eq_true_eq] at haccepts
      have hle := le_stretch_goal hlt (Scalar.defined_of_lt haccepts.1).1
      exact Scalar.lt_asymm (Scalar.lt_of_lt_of_le hlt hle) haccepts.1
  · have hdir : (new start goal).direction = -1 := if_neg hlt
    have hle : goal ≤ start := Scalar.le_of_not_lt hgoal hstart hlt
    split at haccepts
    · simp only [Bool.and_eq_true, decide_eq_true_eq] at haccepts
      have hforth := stretch_goal_le hlt (Scalar.defined_of_lt haccepts.2).2
      exact Scalar.not_le_of_lt haccepts.2 (OrderedScalar.trans hforth hle)
    · simp only [Bool.and_eq_true, decide_eq_true_eq, stretch, hdir] at haccepts
      exact h.not_lt_sub_minimalStep hx hstep haccepts.2

variable [NumericScalar K]

/-- Between finite ends, both ends of a scan are acceptable once it is stretched, if three minimal
steps at its start fit into the maximal step and the stretched scan starts at a finite number.

* If the maximal step is only that of the grid, a scan from zero does not accept zero: the least
  distance of a solution from the start is what the start was moved by.
* If the stretched scan starts at an infinity, it accepts nothing. -/
theorem stretch_reaches_ends (h : FineGrid K g) (hstart : Scalar.isFinite start = true)
    (hgoal : Scalar.isFinite goal = true) :
    let c := new start goal
    (Scalar.isFinite c.stretch.position = true →
      3 * Precision.minimalStep start ≤ c.maximalStep →
        c.stretch.accepts start = true ∧ c.stretch.accepts goal = true) ∧
    ((start == 0) = true → c.maximalStep ≤ Precision.gridStep →
      c.stretch.accepts start = false) ∧
    (Scalar.isFinite c.stretch.position = false → ∀ x, c.stretch.accepts x = false) := by
  intro c
  refine ⟨accepts_ends h hstart hgoal, fun hzero hshort => ?_, fun hinfinite x => ?_⟩
  · obtain ⟨b, hb⟩ := exists_represents hgoal
    exact not_accepts_zero h.toCoarseGrid hzero hb.defined hshort
  · rw [Bool.eq_false_iff]
    intro haccepts
    rw [h.isFinite_position_of_accepts haccepts] at hinfinite
    cases hinfinite

/-- The scan from zero to one reaches both. -/
theorem stretch_reaches_zero_and_one :
    let c := new (0 : Float) 1
    Scalar.isFinite (0 : Float) = true ∧ Scalar.isFinite (1 : Float) = true ∧
      Scalar.isFinite c.stretch.position = true ∧
      3 * Precision.minimalStep (0 : Float) ≤ c.maximalStep ∧
      c.stretch.accepts 0 = true ∧ c.stretch.accepts 1 = true := by
  intro c
  have hends : Scalar.isFinite (0 : Float) = true ∧ Scalar.isFinite (1 : Float) = true := by
    decide +kernel
  have hposition : Scalar.isFinite (new (0 : Float) 1).stretch.position = true := by decide +kernel
  have hroom : 3 * Precision.minimalStep (0 : Float) ≤ (new (0 : Float) 1).maximalStep := by
    decide +kernel
  exact ⟨hends.1, hends.2, hposition, hroom,
    (stretch_reaches_ends fineGrid_double hends.1 hends.2).1 hposition hroom⟩

/-- Not every stretched scan accepts its own ends: the one from zero to `1e-5` is stretched by
`1e-6`, which is the distance that it demands of a solution from its start. -/
theorem stretch_misses_zero :
    ¬ ∀ start goal : Float, Scalar.isFinite start = true → Scalar.isFinite goal = true →
      (new start goal).stretch.accepts start = true ∧
        (new start goal).stretch.accepts goal = true := by
  intro hall
  have hmissed : (new (0 : Float) 1e-5).stretch.accepts 0 = false := by decide +kernel
  have haccepts := (hall 0 1e-5 (by decide +kernel) (by decide +kernel)).1
  rw [hmissed] at haccepts
  cases haccepts

end Cursor

end CurveSurvey

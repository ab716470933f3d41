import Mathlib.Data.Sign.Basic
import CurveSurvey.Proofs.Exact

/-!
# The adaptive step

How far a scan goes from one sample to the next, when rounding is left aside.

* `StepLength` is what the length of a step keeps to, and `Exact.exists_nextX` the
  specification of `Cursor.nextX` in terms of it, for any `Exact.settings`.
* `Advance` is the contract of a step in terms of its two abscissae.
* `Exact.exists_iterate_passes`: since no step is shorter than one of the grid, every end is
  reached.
-/

namespace CurveSurvey

/-! ## The length of a step -/

/-- What the length of a step from `x` toward `target` keeps to, when the minimal step at `x`
is `least` and the maximal step of the scan is `largest`. -/
structure StepLength (least largest x target length : ℝ) : Prop where
  /-- It is at least the minimal step. -/
  least_le : least ≤ length
  /-- It is at most the maximal step, where that is longer than the minimal one. -/
  le_largest : least < largest → length ≤ largest
  /-- Elsewhere it is the minimal step. -/
  eq_least : largest ≤ least → length = least
  /-- Toward zero it is minimal or leads at most to zero. -/
  le_abs : (x < target ↔ x < 0) → length ≤ max least |x|
  /-- It is minimal or at most nine times the distance from zero. -/
  le_ninefold : length ≤ max least (9 * |x|)

namespace StepLength

variable {least largest x target : ℝ}

/-- A minimal step is allowed everywhere. -/
theorem minimal (least largest x target : ℝ) : StepLength least largest x target least where
  least_le := le_rfl
  le_largest := le_of_lt
  eq_least _ := rfl
  le_abs _ := le_max_left _ _
  le_ninefold := le_max_left _ _

/-- A step of any length is allowed once it is brought between the minimal and the maximal
one, if it did not lead too far. -/
theorem between {length : ℝ} (h : least < largest)
    (habs : (x < target ↔ x < 0) → length ≤ |x|) (hninefold : length ≤ 9 * |x|) :
    StepLength least largest x target (min (max length least) largest) where
  least_le := le_min (le_max_right _ _) h.le
  le_largest _ := min_le_right _ _
  eq_least hle := absurd h (not_lt.2 hle)
  le_abs htoward :=
    (min_le_left _ _).trans (max_le ((habs htoward).trans (le_max_right _ _)) (le_max_left _ _))
  le_ninefold :=
    (min_le_left _ _).trans (max_le (hninefold.trans (le_max_right _ _)) (le_max_left _ _))

end StepLength

/-! ## The contract -/

/-- What a step from `x` toward `target` to `next` keeps to, when the minimal step at `x` is
`least` and the maximal step of the scan is `largest`. -/
structure Advance (least largest x target next : ℝ) : Prop where
  /-- The step leads to the side of the target. -/
  side : SignType.sign (next - x) = SignType.sign (target - x)
  /-- No step is shorter than the minimal one. -/
  least_le : least ≤ |next - x|
  /-- No step is longer than the maximal one, where that is longer than the minimal one. -/
  le_largest : least < largest → |next - x| ≤ largest
  /-- Elsewhere all steps are minimal. -/
  eq_least : largest ≤ least → |next - x| = least
  /-- A step toward zero leads across it from less than a minimal step away only. -/
  not_across : (target - x) * x < 0 → least ≤ |x| → 0 ≤ next * x
  /-- A step away from zero is minimal or makes the abscissa tenfold at most. -/
  le_ninefold : 0 ≤ (target - x) * x → |next - x| ≤ max least (9 * |x|)

/-- A step of an allowed length to the side of its target keeps to the contract. -/
theorem StepLength.advance {least largest x target length : ℝ} (hleast : 0 < least)
    (h : StepLength least largest x target length) (hne : x ≠ target) :
    Advance least largest x target (x + (if x < target then 1 else -1) * length) := by
  have hpos : 0 < length := hleast.trans_le h.least_le
  generalize hnext : x + (if x < target then 1 else -1) * length = next
  have hmoves : (x < target ∧ next - x = length) ∨ (target < x ∧ next - x = -length) := by
    rcases lt_or_gt_of_ne hne with hlt | hgt
    · refine .inl ⟨hlt, ?_⟩
      rw [← hnext, if_pos hlt, one_mul, add_sub_cancel_left]
    · refine .inr ⟨hgt, ?_⟩
      rw [← hnext, if_neg hgt.not_gt, neg_one_mul, add_sub_cancel_left]
  have habs : |next - x| = length := by
    rcases hmoves with ⟨-, hmove⟩ | ⟨-, hmove⟩
    · rw [hmove, abs_of_pos hpos]
    · rw [hmove, abs_neg, abs_of_pos hpos]
  refine ⟨?side, h.least_le.trans_eq habs.symm, fun hlt => habs.trans_le (h.le_largest hlt),
    fun hle => habs.trans (h.eq_least hle), ?across, fun _ => habs.trans_le h.le_ninefold⟩
  case side =>
    rcases hmoves with ⟨hlt, hmove⟩ | ⟨hgt, hmove⟩
    · rw [hmove, sign_pos hpos, sign_pos (sub_pos.2 hlt)]
    · rw [hmove, sign_neg (neg_lt_zero.2 hpos), sign_neg (sub_neg.2 hgt)]
  case across =>
    intro htoward hfar
    rcases hmoves with ⟨hlt, hmove⟩ | ⟨hgt, hmove⟩
    · have hx : x < 0 := neg_of_mul_neg_right htoward (sub_pos.2 hlt).le
      have hle := h.le_abs (iff_of_true hlt hx)
      rw [max_eq_right hfar, abs_of_neg hx] at hle
      exact mul_nonneg_of_nonpos_of_nonpos (by linarith) hx.le
    · have hx : 0 < x := pos_of_mul_neg_right htoward (sub_neg.2 hgt).le
      have hle := h.le_abs (iff_of_false hgt.not_gt hx.not_gt)
      rw [max_eq_right hfar, abs_of_pos hx] at hle
      exact mul_nonneg (by linarith) hx.le

/-- An abscissa reached from `start` is not before `goal` any more. -/
def Passes (start goal y : ℝ) : Prop := (start ≤ goal → goal ≤ y) ∧ (goal ≤ start → y ≤ goal)

/-- A step that does not pass the target leads between. -/
theorem Advance.between {least largest x target next : ℝ}
    (h : Advance least largest x target next) (hne : x ≠ target)
    (hbefore : ¬ Passes x target next) :
    (x < next ∧ next < target) ∨ (target < next ∧ next < x) := by
  rcases lt_or_gt_of_ne hne with hlt | hgt
  · have hside := h.side
    rw [sign_pos (sub_pos.2 hlt), sign_eq_one_iff, sub_pos] at hside
    refine .inl ⟨hside, not_le.1 fun hle => hbefore ?_⟩
    exact ⟨fun _ => hle, fun hle' => absurd hlt hle'.not_gt⟩
  · have hside := h.side
    rw [sign_neg (sub_neg.2 hgt), sign_eq_neg_one_iff, sub_neg] at hside
    refine .inr ⟨not_le.1 fun hle => hbefore ?_, hside⟩
    exact ⟨fun hle' => absurd hgt hle'.not_gt, fun _ => hle⟩

/-! ## Exact numbers -/

namespace Exact

variable {g u : ℝ}

theorem minimalStep_settings (x : ℝ) :
    letI := settings g u
    Precision.minimalStep (real x) = real (max g (|x| * u)) :=
  larger_real

theorem maximalStep_settings (a b : ℝ) :
    letI := settings g u
    (Cursor.new (real a) (real b)).maximalStep = real (max g (|b - a| / 100)) := by
  simp only [Cursor.new, real_sub_real, abs_real, ofNat_eq_real, Nat.cast_ofNat]
  rw [real_div_real (by norm_num)]
  exact larger_real

/-- The distance from the usual magnitudes is not negative. -/
theorem exists_unusualOrders (magnitude : ℝ) :
    letI := settings g u
    ∃ o, Cursor.unusualOrders (real magnitude) = real o ∧ 0 ≤ o := by
  simp only [Cursor.unusualOrders, ofNat_eq_real, neg_real, real_lt_real, real_sub_real]
  split
  · rename_i h
    exact ⟨_, rfl, (sub_pos.2 h).le⟩
  · split
    · rename_i h
      exact ⟨_, rfl, (sub_pos.2 h).le⟩
    · exact ⟨_, rfl, by norm_num⟩

/-- The ratio of successive abscissae is between 1.05 and 10. -/
theorem exists_growth {o : ℝ} (h : 0 ≤ o) :
    letI := settings g u
    ∃ r, Cursor.growth (real o) = real r ∧ 1.05 ≤ r ∧ r < 10 := by
  have hexp : Real.exp (-1e-2 * (o * (o * o))) ≤ 1 := by
    rw [Real.exp_le_one_iff]
    have : 0 ≤ o * (o * o) := by positivity
    nlinarith
  have hpos := Real.exp_pos (-1e-2 * (o * (o * o)))
  refine ⟨10 - (10 - 1.05) * Real.exp (-1e-2 * (o * (o * o))), ?_, by linarith, by linarith⟩
  simp only [Cursor.growth, ofNat_eq_real, ofScientific_eq_real, neg_real, real_mul_real,
    real_sub_real, Nat.cast_ofNat]
  rfl

theorem log10_real {y : ℝ} (h : 0 < y) : Scalar.log10 (real y) = real (Real.logb 10 y) :=
  if_neg (not_le.2 h)

theorem log10_zero : Scalar.log10 (real 0) = undefined := if_pos le_rfl

theorem sign_real (x target : ℝ) :
    (if real x < real target then (1 : Exact) else -1) = real (if x < target then 1 else -1) := by
  simp only [real_lt_real, ofNat_eq_real, neg_real, Nat.cast_one]
  split <;> rfl

/-- A quotient by a ratio between 1.05 and 10 lies between zero and the number. -/
theorem abs_div_sub_le {x r : ℝ} (hlower : 1.05 ≤ r) : |x / r - x| ≤ |x| := by
  have hquotient : x / r - x = x * (1 / r - 1) := by ring
  have hle : 1 / r ≤ 1 := by
    rw [div_le_one (by linarith)]
    linarith
  have hnonneg : 0 ≤ 1 / r := by positivity
  rw [hquotient, abs_mul]
  exact mul_le_of_le_one_right (abs_nonneg x) (abs_le.2 ⟨by linarith, by linarith⟩)

/-- A product with a ratio between 1.05 and 10 is at most nine times as far away as zero. -/
theorem abs_mul_sub_le {x r : ℝ} (hlower : 1.05 ≤ r) (hupper : r < 10) :
    |x * r - x| ≤ 9 * |x| := by
  have hproduct : x * r - x = (r - 1) * x := by ring
  rw [hproduct, abs_mul]
  exact mul_le_mul_of_nonneg_right (abs_le.2 ⟨by linarith, by linarith⟩) (abs_nonneg x)

/-- Where the ratio leads: not beyond zero on the way there, and not too far. -/
theorem exists_scaled (x target : ℝ) {r : ℝ} (hlower : 1.05 ≤ r) (hupper : r < 10) :
    ∃ y, (if decide (real x < real target) == decide (real x < 0) then real x / real r
        else real x * real r) = real y ∧
      ((x < target ↔ x < 0) → |y - x| ≤ |x|) ∧ |y - x| ≤ 9 * |x| := by
  have hdecide : (decide (real x < real target) == decide (real x < 0)) = true ↔
      (x < target ↔ x < 0) := by
    simp
  by_cases htoward : x < target ↔ x < 0
  · have hle := abs_div_sub_le (x := x) hlower
    refine ⟨x / r, ?_, fun _ => hle, by linarith [abs_nonneg x]⟩
    rw [if_pos (hdecide.2 htoward), real_div_real (by linarith)]
  · refine ⟨x * r, ?_, fun h => absurd h htoward, abs_mul_sub_le hlower hupper⟩
    rw [if_neg (mt hdecide.1 htoward), real_mul_real]

/-- The next abscissa is a step of an allowed length away, toward the target. -/
theorem exists_nextX {c : Cursor Exact} {largest : ℝ} (hc : c.maximalStep = real largest)
    (x target : ℝ) :
    letI := settings g u
    ∃ length, c.nextX (real x) (real target) =
        real (x + (if x < target then 1 else -1) * length) ∧
      StepLength (max g (|x| * u)) largest x target length := by
  let _ := settings g u
  have hleast : Precision.minimalStep (real x) = real (max g (|x| * u)) := minimalStep_settings x
  have hmoves (length : ℝ) :
      real x + (if real x < real target then (1 : Exact) else -1) * real length =
        real (x + (if x < target then 1 else -1) * length) := by
    rw [sign_real, real_mul_real, real_add_real]
  by_cases hminimal : x = 0 ∨ largest ≤ max g (|x| * u)
  · refine ⟨_, ?_, .minimal _ _ _ _⟩
    rw [Cursor.nextX, if_pos, hleast, hmoves]
    rcases hminimal with rfl | hle
    · rw [abs_real, abs_zero, log10_zero]
      rfl
    · simp [hc, hleast, hle]
  · obtain ⟨hx, hlt⟩ := not_or.1 hminimal
    rw [not_le] at hlt
    have hlog := log10_real (abs_pos.2 hx)
    obtain ⟨o, ho, hnonneg⟩ := exists_unusualOrders (g := g) (u := u) (Real.logb 10 |x|)
    obtain ⟨r, hr, hlower, hupper⟩ := exists_growth (g := g) (u := u) hnonneg
    obtain ⟨y, hy, habs, hninefold⟩ := exists_scaled x target hlower hupper
    refine ⟨_, ?_, .between hlt habs hninefold⟩
    rw [Cursor.nextX, if_neg]
    · simp only [abs_real, hlog, ho, hr, hy, hleast, hc, real_sub_real, larger_real, smaller_real]
      exact hmoves _
    · simpa [hlog, hc, hleast] using hlt

/-- A step keeps to the contract. -/
theorem exists_advance (hg : 0 < g) {c : Cursor Exact} {largest : ℝ}
    (hc : c.maximalStep = real largest) {x target : ℝ} (hne : x ≠ target) :
    letI := settings g u
    ∃ next, c.nextX (real x) (real target) = real next ∧
      Advance (max g (|x| * u)) largest x target next := by
  obtain ⟨length, hnext, hlength⟩ := exists_nextX (g := g) (u := u) hc x target
  exact ⟨_, hnext, hlength.advance (hg.trans_le (le_max_left _ _)) hne⟩

/-- Every step takes at least a step of the grid away from the distance, until the goal is
reached or passed. -/
theorem exists_iterate_passes (hg : 0 < g) {c : Cursor Exact} {largest : ℝ}
    (hc : c.maximalStep = real largest) (goal : ℝ) (k : ℕ) (start : ℝ)
    (hk : |goal - start| ≤ k * g) :
    letI := settings g u
    ∃ n ≤ k, ∃ y, (fun s => c.nextX s (real goal))^[n] (real start) = real y ∧
      Passes start goal y := by
  induction k generalizing start with
  | zero =>
    obtain rfl : goal = start := by simpa [sub_eq_zero] using hk
    exact ⟨0, le_rfl, goal, rfl, id, id⟩
  | succ k ih =>
    by_cases hne : start = goal
    · exact ⟨0, Nat.zero_le _, start, rfl, fun _ => hne.ge, fun _ => hne.le⟩
    obtain ⟨y, hy, hadvance⟩ := exists_advance (u := u) hg hc hne
    by_cases hpasses : Passes start goal y
    · exact ⟨1, Nat.le_add_left _ _, y, hy, hpasses⟩
    have hbetween := hadvance.between hne hpasses
    have hgrid : g ≤ |y - start| := (le_max_left _ _).trans hadvance.least_le
    have hcloser : |goal - y| + |y - start| = |goal - start| := by
      rcases hbetween with ⟨h, h'⟩ | ⟨h, h'⟩
      · rw [abs_of_pos (sub_pos.2 h'), abs_of_pos (sub_pos.2 h),
          abs_of_pos (sub_pos.2 (h.trans h')), sub_add_sub_cancel]
      · rw [abs_of_neg (sub_neg.2 h), abs_of_neg (sub_neg.2 h'),
          abs_of_neg (sub_neg.2 (h.trans h')), ← neg_add, sub_add_sub_cancel]
    push_cast at hk
    obtain ⟨n, hn, z, hz, hforward, hbackward⟩ := ih y (by linarith)
    refine ⟨n + 1, Nat.succ_le_succ hn, z, ?_, fun hle => hforward ?_, fun hle => hbackward ?_⟩
    · rw [Function.iterate_succ_apply, hy, hz]
    · rcases hbetween with ⟨h, h'⟩ | ⟨h, h'⟩ <;> linarith
    · rcases hbetween with ⟨h, h'⟩ | ⟨h, h'⟩ <;> linarith

/-- Rounding aside, every adaptive step keeps to its contract, and the steps from any start
reach or pass any goal, in no more of them than there are steps of the grid, and one. -/
theorem nextX_advances (hg : 0 < g) (a b : ℝ) (c : Cursor Exact)
    (hc : c.maximalStep = (@Cursor.new Exact (settings g u) (real a) (real b)).maximalStep) :
    letI := settings g u
    (∀ x target : ℝ, x ≠ target → ∃ least largest next,
      Precision.minimalStep (real x) = real least ∧ c.maximalStep = real largest ∧
        c.nextX (real x) (real target) = real next ∧
          Advance least largest x target next) ∧
    ∀ start goal : ℝ, ∃ n : ℕ, n ≤ |goal - start| / g + 1 ∧ ∃ y,
      (fun s => c.nextX s (real goal))^[n] (real start) = real y ∧ Passes start goal y := by
  rw [maximalStep_settings] at hc
  refine ⟨fun x target hne => ?step, fun start goal => ?run⟩
  case step =>
    obtain ⟨next, hnext, hadvance⟩ := exists_advance (u := u) hg hc hne
    exact ⟨_, _, next, minimalStep_settings x, hc, hnext, hadvance⟩
  case run =>
    have hnonneg : 0 ≤ |goal - start| / g := by positivity
    obtain ⟨n, hn, y, hy, hpasses⟩ := exists_iterate_passes (u := u) hg hc goal
      ⌈|goal - start| / g⌉₊ start ((div_le_iff₀ hg).1 (Nat.le_ceil _))
    exact ⟨n, (Nat.cast_le.2 hn).trans (Nat.ceil_lt_add_one hnonneg).le, y, hy, hpasses⟩

/-- With the settings of double precision, a scan of `[0, 10]` leads from 1 to the right by at
most a tenth, and passes 2 after a million steps and one at the latest. -/
theorem nextX_advances_double :
    (∃ next, (Cursor.new (real 0) (real 10)).nextX (real 1) (real 2) = real next ∧ 1 < next ∧
      next ≤ 1.1) ∧
    ∃ n : ℕ, (n : ℝ) ≤ 1e6 + 1 ∧ ∃ y, 2 ≤ y ∧
      (fun s => (Cursor.new (real 0) (real 10)).nextX s (real 2))^[n] (real 1) = real y := by
  obtain ⟨hstep, hrun⟩ := nextX_advances (g := 1e-6) (u := 0.5 ^ 52) (by norm_num) 0 10
    (Cursor.new (real 0) (real 10)) rfl
  constructor
  · obtain ⟨least, largest, next, hleast, hlargest, hnext, hadvance⟩ := hstep 1 2 (by norm_num)
    rw [minimalStep_settings, real.injEq] at hleast
    rw [maximalStep_settings, real.injEq] at hlargest
    have hright : 1 < next := by
      have hside := hadvance.side
      rwa [sign_pos (a := (2 - 1 : ℝ)) (by norm_num), sign_eq_one_iff, sub_pos] at hside
    have hle := hadvance.le_largest (by rw [← hleast, ← hlargest]; norm_num)
    rw [← hlargest, abs_of_pos (sub_pos.2 hright)] at hle
    norm_num at hle
    exact ⟨next, hnext, hright, by linarith⟩
  · obtain ⟨n, hn, y, hy, hpasses⟩ := hrun 1 2
    exact ⟨n, hn.trans (by norm_num), y, hpasses.1 (by norm_num), hy⟩

end Exact

end CurveSurvey

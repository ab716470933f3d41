import Mathlib.NumberTheory.Real.GoldenRatio
import Mathlib.Tactic.LinearCombination

/-!
# Drift of golden sections

Where the near or the far end of an interval is moved onto its golden section, the other section is
again one of the interval that is left.  Only one of the two sections is computed then, and the one
that is kept is off by what both were off before.

* `Golden.Drifts` bounds how far two sections are off, and how far they will be when they are kept:
  every narrowing adds no more than the error of the section it computes
  (`Golden.Drifts.shrinkNear`).
* `Golden.Tracks` is what this makes of a number of narrowings, with the width that is left.
* `Golden.Tracks.ordered`: sections of an interval that is wide enough for their drift are in order.
-/

namespace CurveSurvey

namespace Golden

/-- The larger part of the golden section. -/
noncomputable def share : ℝ := Real.goldenRatio⁻¹

theorem share_pos : 0 < share := inv_pos.2 Real.goldenRatio_pos

theorem share_mul_share : share * share = 1 - share := by
  have h := Real.goldenConj_sq
  rw [share, Real.inv_goldenRatio]
  linarith

theorem lt_share : 0.618 < share := by
  nlinarith [share_mul_share, share_pos]

theorem share_lt : share < 0.6181 := by
  nlinarith [share_mul_share, share_pos]

/-- A number that almost solves the equation of the golden section is close to its larger part. -/
theorem abs_sub_share_le {c δ : ℝ} (hc : 0.5 ≤ c) (h : |c * c + c - 1| ≤ 2 * δ) :
    |c - share| ≤ δ := by
  have hfactor : c * c + c - 1 = (c - share) * (c + share + 1) := by
    linarith [share_mul_share]
  have hsum : 2 ≤ c + share + 1 := by
    linarith [lt_share]
  rw [hfactor, abs_mul, abs_of_pos (by linarith : 0 < c + share + 1)] at h
  have := mul_le_mul_of_nonneg_left hsum (abs_nonneg (c - share))
  linarith

/-! ## One narrowing -/

/-- How far `p` is off the near section of the interval from `n` to `f`. -/
noncomputable def nearDrift (n p f : ℝ) : ℝ := p - (n + (1 - share) * (f - n))

/-- How far `q` is off the far section of the interval from `n` to `f`. -/
noncomputable def farDrift (n q f : ℝ) : ℝ := q - (n + share * (f - n))

/-- The sections `p` and `q` of the interval from `n` to `f` are off by at most `e`, and so is
either of them as a section of the part of the interval that the other one leaves. -/
structure Drifts (e n p q f : ℝ) : Prop where
  near_le : |nearDrift n p f| ≤ e
  far_le : |farDrift n q f| ≤ e
  near_kept_le : |nearDrift n p f - share * farDrift n q f| ≤ e
  far_kept_le : |farDrift n q f - share * nearDrift n p f| ≤ e

variable {e η n p q f r width : ℝ} {k : ℕ}

theorem far_of_drift : f - p = share * (f - n) - nearDrift n p f := by
  rw [nearDrift]
  ring

/-- The far section as the near one of the far part. -/
theorem nearDrift_kept : nearDrift p q f = farDrift n q f - share * nearDrift n p f := by
  rw [nearDrift, nearDrift, farDrift]
  linear_combination (f - n) * share_mul_share

/-- What the larger part takes of a magnitude. -/
theorem abs_share_mul_le (h : |r| ≤ e) : |share * r| ≤ e := by
  rw [abs_mul, abs_of_pos share_pos]
  have := mul_le_of_le_one_left (abs_nonneg r) (by linarith [share_lt] : share ≤ 1)
  linarith

/-- Two drifts, one of which is kept and one of which is new. -/
theorem abs_sub_share_mul_le {s t : ℝ} (hs : |s| ≤ e) (ht : |t| ≤ η) :
    |s - share * t| ≤ e + η := by
  have := abs_sub s (share * t)
  linarith [abs_share_mul_le ht]

/-- Newly computed sections. -/
theorem drifts_of_le (hp : |nearDrift n p f| ≤ η) (hq : |farDrift n q f| ≤ η) :
    Drifts (2 * η) n p q f where
  near_le := by linarith [abs_nonneg (nearDrift n p f)]
  far_le := by linarith [abs_nonneg (farDrift n q f)]
  near_kept_le := by linarith [abs_sub_share_mul_le hp hq]
  far_kept_le := by linarith [abs_sub_share_mul_le hq hp]

/-- The far part, with the far section computed anew. -/
theorem Drifts.shrinkNear (h : Drifts e n p q f) (hr : |farDrift p r f| ≤ η) :
    Drifts (e + η) p q r f := by
  have hkept : |nearDrift p q f| ≤ e := by
    rw [nearDrift_kept (n := n)]
    exact h.far_kept_le
  have hswap := abs_sub_share_mul_le hr hkept
  exact
    { near_le := by linarith [abs_nonneg (farDrift p r f)]
      far_le := by linarith [abs_nonneg (nearDrift p q f)]
      near_kept_le := abs_sub_share_mul_le hkept hr
      far_kept_le := by linarith }

/-- From the other end of the interval, the near section is the far one. -/
theorem nearDrift_reversed : nearDrift f q n = farDrift n q f := by
  rw [nearDrift, farDrift]
  ring

theorem farDrift_reversed : farDrift f p n = nearDrift n p f := by
  rw [nearDrift, farDrift]
  ring

theorem Drifts.reversed (h : Drifts e n p q f) : Drifts e f q p n where
  near_le := nearDrift_reversed ▸ h.far_le
  far_le := farDrift_reversed ▸ h.near_le
  near_kept_le := by
    rw [farDrift_reversed, nearDrift_reversed]
    exact h.far_kept_le
  far_kept_le := by
    rw [nearDrift_reversed, farDrift_reversed]
    exact h.near_kept_le

theorem Drifts.neg (h : Drifts e n p q f) : Drifts e (-n) (-p) (-q) (-f) := by
  have hnear : nearDrift (-n) (-p) (-f) = -nearDrift n p f := by
    rw [nearDrift, nearDrift]
    ring
  have hfar : farDrift (-n) (-q) (-f) = -farDrift n q f := by
    rw [farDrift, farDrift]
    ring
  obtain ⟨h1, h2, h3, h4⟩ := h
  constructor <;>
    simpa only [hnear, hfar, mul_neg, ← neg_sub', abs_neg]

/-! ## A number of narrowings -/

/-- What `k` narrowings have made of an interval of a given signed width, when every section that
they computed was off by at most `η`. -/
structure Tracks (η width : ℝ) (k : ℕ) (n p q f : ℝ) : Prop where
  drifts : Drifts ((k + 2) * η) n p q f
  width_le : |f - n - share ^ k * width| ≤ 3 * ((k + 2) * η)

theorem tracks_zero (hp : |nearDrift n p f| ≤ η) (hq : |farDrift n q f| ≤ η) :
    Tracks η (f - n) 0 n p q f where
  drifts := by
    rw [Nat.cast_zero, zero_add]
    exact drifts_of_le hp hq
  width_le := by
    rw [pow_zero, one_mul, sub_self, abs_zero]
    have := (abs_nonneg _).trans hp
    positivity

/-- The width that a narrowing leaves, `r` being off as a section is. -/
theorem width_succ_le {w w' : ℝ} (hr : |r| ≤ (k + 2) * η) (hη : 0 ≤ η)
    (hw' : w' = share * w + r) (hw : |w - share ^ k * width| ≤ 3 * ((k + 2) * η)) :
    |w' - share ^ (k + 1) * width| ≤ 3 * (((k + 1 : ℕ) + 2) * η) := by
  have hsplit : w' - share ^ (k + 1) * width = share * (w - share ^ k * width) + r := by
    rw [hw']
    ring
  have htwo : |share * (w - share ^ k * width)| ≤ 2 * ((k + 2) * η) := by
    rw [abs_mul, abs_of_pos share_pos]
    have hbound : 0 ≤ 3 * ((k + 2) * η) := by positivity
    nlinarith [share_lt, share_pos, abs_nonneg (w - share ^ k * width)]
  rw [hsplit]
  push_cast
  linarith [abs_add_le (share * (w - share ^ k * width)) r]

theorem Tracks.shrinkNear (h : Tracks η width k n p q f) (hr : |farDrift p r f| ≤ η) :
    Tracks η width (k + 1) p q r f where
  drifts := by
    have := h.drifts.shrinkNear hr
    rwa [show (k + 2) * η + η = ((k + 1 : ℕ) + 2) * η by push_cast; ring] at this
  width_le := by
    refine width_succ_le (r := -nearDrift n p f) ?_ ((abs_nonneg _).trans hr) ?_ h.width_le
    · rw [abs_neg]
      exact h.drifts.near_le
    · rw [far_of_drift (n := n)]
      ring

theorem Tracks.reversed (h : Tracks η width k n p q f) : Tracks η (-width) k f q p n where
  drifts := h.drifts.reversed
  width_le := by
    rw [mul_neg, sub_neg_eq_add, ← abs_neg, neg_add', neg_sub]
    exact h.width_le

/-- The near part is the far one from the other end. -/
theorem Tracks.shrinkFar (h : Tracks η width k n p q f) (hr : |nearDrift n r q| ≤ η) :
    Tracks η width (k + 1) n r p q := by
  rw [← farDrift_reversed] at hr
  have := (h.reversed.shrinkNear hr).reversed
  rwa [neg_neg] at this

/-! ## Order -/

/-- Sections that are off by no more than a ninth of the width are in order. -/
theorem Drifts.ordered (h : Drifts e n p q f) (hwide : 9 * e ≤ f - n) : n ≤ p ∧ p ≤ q ∧ q ≤ f := by
  obtain ⟨hp, hp'⟩ := abs_le.1 h.near_le
  obtain ⟨hq, hq'⟩ := abs_le.1 h.far_le
  have hlower : 0.618 * (f - n) ≤ share * (f - n) :=
    mul_le_mul_of_nonneg_right lt_share.le (by linarith)
  have hupper : share * (f - n) ≤ 0.6181 * (f - n) :=
    mul_le_mul_of_nonneg_right share_lt.le (by linarith)
  rw [nearDrift] at hp hp'
  rw [farDrift] at hq hq'
  refine ⟨?_, ?_, ?_⟩ <;> linarith

/-- The sections stay in the order of a wide interval. -/
theorem Tracks.ordered (h : Tracks η width k n p q f) (hη : 0 < η)
    (hwide : 9 * ((k + 2) * η) ≤ |f - n|) :
    0 ≤ width ∧ n ≤ p ∧ p ≤ q ∧ q ≤ f ∨ width ≤ 0 ∧ p ≤ n ∧ q ≤ p ∧ f ≤ q := by
  have hbound : 0 < (k + 2) * η := by positivity
  have hpow : 0 < share ^ k := pow_pos share_pos k
  obtain ⟨hlower, hupper⟩ := abs_le.1 h.width_le
  rcases le_abs.1 hwide with hright | hleft
  · refine .inl ⟨?_, h.drifts.ordered hright⟩
    exact (pos_of_mul_pos_right (by linarith : 0 < share ^ k * width) hpow.le).le
  · obtain ⟨hp, hq, hf⟩ := h.drifts.neg.ordered (by linarith)
    refine .inr ⟨?_, by linarith, by linarith, by linarith⟩
    exact (neg_of_mul_neg_right (by linarith : share ^ k * width < 0) hpow.le).le

/-- What is left of an interval after few narrowings is wide. -/
theorem Tracks.le_abs (h : Tracks η width k n p q f) {m : ℕ} (hkm : k ≤ m) (hη : 0 < η)
    (hwide : 12 * ((m + 2) * η) ≤ share ^ m * |width|) : 9 * ((k + 2) * η) ≤ |f - n| := by
  have hpow : share ^ m ≤ share ^ k :=
    pow_le_pow_of_le_one share_pos.le (by linarith [share_lt]) hkm
  have hleft : share ^ m * |width| ≤ |share ^ k * width| := by
    rw [abs_mul, abs_of_pos (pow_pos share_pos k)]
    exact mul_le_mul_of_nonneg_right hpow (abs_nonneg width)
  have hbound : (k + 2) * η ≤ (m + 2) * η := by gcongr
  have := abs_sub_abs_le_abs_sub (share ^ k * width) (f - n)
  rw [abs_sub_comm (share ^ k * width)] at this
  linarith [h.width_le]

end Golden

end CurveSurvey

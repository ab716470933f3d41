import CurveSurvey.Proofs.Binary.Monotone
import CurveSurvey.Proofs.Finite

/-!
# Distances

The computed distance from a number grows with the number it is taken to.

* `DistanceOrdered` is what is assumed of the arithmetic.
* `Machine.val_sub_mono` derives it from the monotonicity of rounding, infinite
  operands included, in every binary format.
-/

namespace CurveSurvey

/-- A scalar type whose computed distances keep the order of the numbers. -/
class DistanceOrdered (K : Type) [Scalar K] : Prop extends OrderedScalar K where
  /-- Farther to the right is not nearer. -/
  distance_le_of_lt : ∀ {p x y : K}, p < x → x < y → Scalar.abs (x - p) ≤ Scalar.abs (y - p)
  /-- Farther to the left is not nearer. -/
  distance_le_of_gt : ∀ {p x y : K}, x < p → y < x → Scalar.abs (x - p) ≤ Scalar.abs (y - p)

namespace Machine

variable {K : Type} [Scalar K] [Machine K] {s t u p x y : K}

theorem Represents.rounds_sub {a b : ℝ} (hs : Represents s a) (ht : Represents t b) :
    ∃ r, Binary.Rounds (format K) (a - b) r ∧ unpack (s - t) = Binary.stored (format K) r := by
  refine ⟨_, ?_, (unpack_sub_eq s t).trans (unpack_add s (-t))⟩
  rw [sub_eq_add_neg]
  exact Binary.rounds_add (canonical s) (canonical (-t)) (isNaN_eq_false_iff.1 hs.defined)
    (isNaN_eq_false_iff.1 ht.neg.defined) hs.val_eq ht.neg.val_eq

theorem represents_of_ne (ht : Scalar.isNaN t = false) (hbot : val t ≠ ⊥) (htop : val t ≠ ⊤) :
    ∃ a : ℝ, Represents t a :=
  ⟨(val t).toReal, ht, (EReal.coe_toReal htop hbot).symm⟩

/-- Computed differences keep the order of the first operands. -/
theorem val_sub_mono (hst : s < t) (hs : Scalar.isNaN (s - u) = false)
    (ht : Scalar.isNaN (t - u) = false) : val (s - u) ≤ val (t - u) := by
  obtain ⟨hs', ht', hlt⟩ := lt_iff_val.1 hst
  have hu' := (defined_of_sub hs).2
  by_cases hbot : val s - val u = ⊥
  · exact (result_sub hs).le_of_le _ ht (hbot ▸ bot_le)
  by_cases htop : val t - val u = ⊤
  · exact (result_sub ht).ge_of_ge _ hs (htop ▸ le_top)
  -- nothing is infinite in what is left
  rw [sub_eq_add_neg] at hbot htop
  have hs0 : val s ≠ ⊥ := fun h => hbot (by rw [h, EReal.bot_add])
  have hu1 : val u ≠ ⊤ := fun h => hbot (by rw [h, EReal.neg_top, EReal.add_bot])
  have ht0 : val t ≠ ⊥ := (bot_le.trans_lt hlt).ne'
  have hu0 : val u ≠ ⊥ := fun h => htop (by rw [h, EReal.neg_bot, EReal.add_top_of_ne_bot ht0])
  have ht1 : val t ≠ ⊤ := by
    intro h
    refine htop ?_
    rw [h, EReal.top_add_of_ne_bot]
    rwa [ne_eq, EReal.neg_eq_bot_iff]
  obtain ⟨a, ha⟩ := represents_of_ne hs' hs0 (hlt.trans_le le_top).ne
  obtain ⟨b, hb⟩ := represents_of_ne ht' ht0 ht1
  obtain ⟨c, hc⟩ := represents_of_ne hu' hu0 hu1
  obtain ⟨r, hr, hsr⟩ := ha.rounds_sub hc
  obtain ⟨q, hq, htq⟩ := hb.rounds_sub hc
  rw [ha.val_eq, hb.val_eq, EReal.coe_lt_coe_iff] at hlt
  rw [val, val, hsr, htq]
  exact hr.value_stored_le hq (sub_lt_sub_right hlt c)

theorem defined_sub_of_val_ne (hs : Scalar.isNaN s = false) (ht : Scalar.isNaN t = false)
    (h : val s ≠ val t) : Scalar.isNaN (s - t) = false := by
  rw [← Bool.not_eq_true, isNaN_sub_iff]
  rintro (hnan | hnan | ⟨hs, ht⟩ | ⟨hs, ht⟩)
  · simp [hs] at hnan
  · simp [ht] at hnan
  · exact h (hs.trans ht.symm)
  · exact h (hs.trans ht.symm)

/-- The distance from a number to a larger one is their difference. -/
theorem distance_of_lt (h : s < t) :
    Scalar.isNaN (t - s) = false ∧ val (Scalar.abs (t - s)) = val (t - s) := by
  obtain ⟨hs, ht, hlt⟩ := lt_iff_val.1 h
  have hdef := defined_sub_of_val_ne ht hs hlt.ne'
  have hnonneg : 0 ≤ val (t - s) := by
    rw [← val_zero (K := K)]
    refine (result_sub hdef).ge_of_ge 0 isNaN_zero ?_
    rw [val_zero, EReal.sub_nonneg (.inr (hlt.trans_le le_top).ne) (.inl (bot_le.trans_lt hlt).ne')]
    exact hlt.le
  exact ⟨hdef, (val_abs _).trans (max_eq_left ((EReal.neg_le_zero.2 hnonneg).trans hnonneg))⟩

/-- The distance from a number to a smaller one is the negative of their difference. -/
theorem distance_of_gt (h : t < s) :
    Scalar.isNaN (t - s) = false ∧ val (Scalar.abs (t - s)) = -val (t - s) := by
  obtain ⟨ht, hs, hlt⟩ := lt_iff_val.1 h
  have hdef := defined_sub_of_val_ne ht hs hlt.ne
  have hnonpos : val (t - s) ≤ 0 := by
    rw [← val_zero (K := K)]
    refine (result_sub hdef).le_of_le 0 isNaN_zero ?_
    rw [val_zero, EReal.sub_nonpos]
    exact hlt.le
  exact ⟨hdef, (val_abs _).trans (max_eq_right (hnonpos.trans (EReal.neg_nonneg.2 hnonpos)))⟩

instance : DistanceOrdered K where
  distance_le_of_lt := by
    intro p x y hpx hxy
    obtain ⟨hx, hvx⟩ := distance_of_lt hpx
    obtain ⟨hy, hvy⟩ := distance_of_lt (Scalar.lt_trans hpx hxy)
    rw [le_iff_val, isNaN_abs, isNaN_abs, hvx, hvy]
    exact ⟨hx, hy, val_sub_mono hxy hx hy⟩
  distance_le_of_gt := by
    intro p x y hxp hyx
    obtain ⟨hx, hvx⟩ := distance_of_gt hxp
    obtain ⟨hy, hvy⟩ := distance_of_gt (Scalar.lt_trans hyx hxp)
    rw [le_iff_val, isNaN_abs, isNaN_abs, hvx, hvy, EReal.neg_le_neg_iff]
    exact ⟨hx, hy, val_sub_mono hyx hy hx⟩

end Machine

end CurveSurvey

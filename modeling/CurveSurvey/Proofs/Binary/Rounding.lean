import CurveSurvey.Proofs.Binary.Value

/-!
# Rounding to a binary format

A mantissa with too many bits is shifted right, and two residual bits remember
enough of what was shifted out to round to nearest (`Binary.Locates`).

* `Binary.Rounded` describes the rounded magnitude, and `Binary.Rounds` the
  rounded number with its sign.
* No canonical float lies strictly between a number and what it is rounded to
  (`Binary.Rounds.le_of_le`, `Binary.Rounds.ge_of_ge`).
* The error is at most half a unit in the last place (`Binary.Rounds.near`).
-/

namespace CurveSurvey

namespace Binary

open Float.Model (Format UnpackedFloat totalExponent)
open Float.Model.UnpackedFloat hiding compare round

/-! ## Shifting -/

/-- The real number `x` lies where a mantissa and its two residual bits say: the
round bit is its first binary digit after the point, and the sticky bit is set if
any digit after that one is. -/
inductive Locates (em : ExtendedMantissa) (x : ℝ) : Prop where
  /-- The digits after the round bit are worth `δ`. -/
  | intro (δ : ℝ) (nonneg : 0 ≤ δ) (lt_half : δ < 1 / 2) (sticky : em.stickyBit = true ↔ 0 < δ)
      (eq : x = em.mantissa + (if em.roundBit then 1 / 2 else 0) + δ)

theorem locates_exact (m : ℕ) : Locates (ExtendedMantissa.ofMantissaAndAccuracy m .exact) m :=
  ⟨0, le_rfl, by norm_num, by simp [ExtendedMantissa.ofMantissaAndAccuracy],
    by simp [ExtendedMantissa.ofMantissaAndAccuracy]⟩

/-- The digits after the point are worth less than one. -/
theorem Locates.between {m : ℕ} {acc : Accuracy} {x : ℝ}
    (h : Locates (ExtendedMantissa.ofMantissaAndAccuracy m acc) x) : (m : ℝ) ≤ x ∧ x < m + 1 := by
  have hm : (ExtendedMantissa.ofMantissaAndAccuracy m acc).mantissa = m := by
    rcases acc with _ | _ | _ | _ <;> rfl
  obtain ⟨δ, h0, h1, -, rfl⟩ := h
  rw [hm]
  constructor <;> split <;> linarith

/-- A fraction is located by comparing it with one half. -/
theorem locates_accuracyOfFraction (m : ℕ) {num den : ℕ} (h : num < den) :
    Locates (ExtendedMantissa.ofMantissaAndAccuracy m (accuracyOfFraction num den))
      (m + num / den) := by
  have hden : (0 : ℝ) < den := by exact_mod_cast (Nat.zero_le num).trans_lt h
  have hlt : (num : ℝ) / den < 1 := (div_lt_one hden).2 (by exact_mod_cast h)
  unfold accuracyOfFraction
  split
  · rename_i hzero
    rw [hzero]
    simpa using locates_exact m
  · rename_i hzero
    have hpos : (0 : ℝ) < num / den := div_pos (by exact_mod_cast Nat.pos_of_ne_zero hzero) hden
    cases hcompare : compare (2 * num) den with
    | lt =>
      have hhalf : (num : ℝ) / den < 1 / 2 := by
        rw [div_lt_div_iff₀ hden two_pos]
        have : 2 * (num : ℝ) < den := by exact_mod_cast compare_lt_iff_lt.mp hcompare
        linarith
      exact ⟨num / den, hpos.le, hhalf,
        by simpa [ExtendedMantissa.ofMantissaAndAccuracy] using hpos,
        by simp [ExtendedMantissa.ofMantissaAndAccuracy]⟩
    | eq =>
      have hhalf : (num : ℝ) / den = 1 / 2 := by
        rw [div_eq_div_iff hden.ne' two_ne_zero]
        have : 2 * (num : ℝ) = den := by exact_mod_cast compare_eq_iff_eq.mp hcompare
        linarith
      exact ⟨0, le_rfl, by norm_num, by simp [ExtendedMantissa.ofMantissaAndAccuracy],
        by simp [ExtendedMantissa.ofMantissaAndAccuracy, hhalf]⟩
    | gt =>
      have hhalf : (1 : ℝ) / 2 < num / den := by
        rw [div_lt_div_iff₀ two_pos hden]
        have : (den : ℝ) < 2 * num := by exact_mod_cast compare_gt_iff_gt.mp hcompare
        linarith
      exact ⟨num / den - 1 / 2, by linarith, by linarith,
        by simpa [ExtendedMantissa.ofMantissaAndAccuracy] using hhalf,
        by simp [ExtendedMantissa.ofMantissaAndAccuracy]⟩

theorem Locates.shiftRightOne {em : ExtendedMantissa} {x : ℝ} (h : Locates em x) :
    Locates em.shiftRightOne (x / 2) := by
  obtain ⟨m, r, s⟩ := em
  obtain ⟨δ, h0, h1, hs, rfl⟩ := h
  have hm : (m : ℝ) = 2 * (m / 2 : ℕ) + (m % 2 : ℕ) := by
    exact_mod_cast (Nat.div_add_mod m 2).symm
  refine ⟨(if r then 1 / 4 else 0) + δ / 2, ?_, ?_, ?_, ?_⟩
  · cases r <;> simp <;> linarith
  · cases r <;> simp <;> linarith
  · cases r
    · simpa [ExtendedMantissa.shiftRightOne] using hs
    · simp only [ExtendedMantissa.shiftRightOne, Bool.true_or, true_iff, if_true]
      linarith
  · rcases Nat.mod_two_eq_zero_or_one m with h2 | h2 <;> cases r <;>
      simp [ExtendedMantissa.shiftRightOne, h2] at * <;> linarith

/-- A shift divides by a power of two, and the residual bits remember what was
shifted out. -/
theorem Locates.shiftRight {em : ExtendedMantissa} {x : ℝ} (h : Locates em x) (n : ℕ) :
    Locates (em >>> n) (x / 2 ^ n) := by
  show Locates (n.repeat ExtendedMantissa.shiftRightOne em) _
  induction n with
  | zero => simpa [Nat.repeat] using h
  | succ n ih =>
    rw [Nat.repeat, pow_succ, ← div_div]
    exact ih.shiftRightOne

/-- Rounding moves a number by at most half a unit. -/
theorem Locates.abs_sub_le {em : ExtendedMantissa} {x : ℝ} (h : Locates em x) :
    |(em.roundedMantissa : ℝ) - x| ≤ 1 / 2 := by
  obtain ⟨m, r, s⟩ := em
  obtain ⟨δ, h0, h1, hs, rfl⟩ := h
  rw [abs_le]
  cases r <;> cases s <;>
    simp only [ExtendedMantissa.roundedMantissa, ExtendedMantissa.accuracy,
      Accuracy.roundToNearestEven, Bool.false_eq_true, false_iff, true_iff, if_false, if_true] at *
  · constructor <;> linarith
  · constructor <;> linarith
  · rcases Nat.mod_two_eq_zero_or_one m with h2 | h2 <;> rw [h2] <;> push_cast <;>
      constructor <;> linarith
  · push_cast
    constructor <;> linarith

/-- A mantissa short enough is left as it is; one that is a bit too long is halved. -/
theorem shiftToTargetExponent_exact (spec : Format) {n : ℕ} {t : ℤ} (ht : spec.minExponent ≤ t)
    (hn : n ≤ 2 ^ spec.mantissaBits) :
    (shiftToTargetExponent spec n t .exact).1.mantissa =
        (if n < 2 ^ spec.mantissaBits then n else 2 ^ spec.mantissaBitsWithoutImplicit) ∧
      (shiftToTargetExponent spec n t .exact).2 =
        if n < 2 ^ spec.mantissaBits then t else t + 1 := by
  rcases hn.lt_or_eq with h | rfl
  · have hlog : n.log2 + 1 ≤ spec.mantissaBits := by
      rcases Nat.eq_zero_or_pos n with rfl | hpos
      · simp [Format.mantissaBits]
      · exact (Nat.log2_lt hpos.ne').mpr h
    have hshift : (spec.targetExponent (totalExponent n t) - t).toNat = 0 := by
      simp only [Format.targetExponent, totalExponent]
      omega
    rw [shiftToTargetExponent, shiftToExponent, hshift, if_pos h, if_pos h]
    exact ⟨rfl, add_zero t⟩
  · have hshift :
        (spec.targetExponent (totalExponent (2 ^ spec.mantissaBits) t) - t).toNat = 1 := by
      simp only [Format.targetExponent, totalExponent, Nat.log2_two_pow]
      omega
    rw [shiftToTargetExponent, shiftToExponent, hshift, if_neg (lt_irrefl _), if_neg (lt_irrefl _)]
    refine ⟨?_, rfl⟩
    show 2 ^ spec.mantissaBits / 2 = _
    rw [Format.mantissaBits, Nat.add_comm, pow_succ, Nat.mul_div_cancel _ two_pos]

/-! ## Rounded magnitudes -/

/-- The number `n * 2 ^ t` is what the magnitude `x` is rounded to. -/
structure Rounded (spec : Format) (x : ℝ) (n : ℕ) (t : ℤ) : Prop where
  /-- Rounding up can make the mantissa one bit longer. -/
  le : n ≤ 2 ^ spec.mantissaBits
  /-- The exponent is not below the smallest one. -/
  min : spec.minExponent ≤ t
  /-- All bits are used unless the exponent is the smallest one. -/
  full : (2 : ℝ) ^ spec.mantissaBitsWithoutImplicit * 2 ^ t ≤ x ∨ t = spec.minExponent
  /-- The mantissa is off by at most half a unit. -/
  near : |(n : ℝ) * 2 ^ t - x| ≤ 2 ^ t / 2

/-- The float with a mantissa that may be zero. -/
def ofMantissa (s : Sign) (m : ℕ) (e : ℤ) : UnpackedFloat :=
  if h : m = 0 then .zero s else .finite s m e (Nat.pos_of_ne_zero h)

/-- A rounded mantissa that grew by one bit gives the bit to the exponent. -/
def carried (spec : Format) (s : Sign) (m : ℕ) (e : ℤ) : UnpackedFloat :=
  if m < 2 ^ spec.mantissaBits then ofMantissa s m e
  else ofMantissa s (2 ^ spec.mantissaBitsWithoutImplicit) (e + 1)

/-- A number with a bit to spare is shifted, rounded once, and carried. -/
theorem roundWithAccuracy_rounded (spec : Format) (s : Sign) {m : ℕ} {e : ℤ} {acc : Accuracy}
    {x : ℝ} (hx : Locates (ExtendedMantissa.ofMantissaAndAccuracy m acc) x)
    (he : e ≤ spec.targetExponent (totalExponent m e)) :
    ∃ n t, Rounded spec (x * 2 ^ e) n t ∧
      roundWithAccuracy spec s m e acc = carried spec s n t := by
  obtain ⟨k, hk⟩ := Int.le.dest he
  have hk' : (spec.targetExponent (totalExponent m e) - e).toNat = k := by omega
  obtain ⟨hmx, hxm⟩ := hx.between
  have hloc := hx.shiftRight k
  generalize hem : ExtendedMantissa.ofMantissaAndAccuracy m acc >>> k = em at hloc
  have hscale : x * 2 ^ e = x / 2 ^ k * 2 ^ (e + k) := by
    rw [zpow_add₀ two_ne_zero, zpow_natCast, div_mul_eq_mul_div, mul_comm (2 ^ e : ℝ), ← mul_assoc,
      mul_div_right_comm, mul_div_cancel_right₀ _ (by positivity)]
  have hmin : spec.minExponent ≤ e + k := hk ▸ le_max_right _ _
  have hhi : x < 2 ^ (m.log2 + 1) := by
    have : (m : ℝ) + 1 ≤ (2 ^ (m.log2 + 1) : ℕ) := by exact_mod_cast Nat.lt_log2_self
    push_cast at this
    linarith
  have hn : em.roundedMantissa ≤ 2 ^ spec.mantissaBits := by
    have hlt : x / 2 ^ k < 2 ^ spec.mantissaBits := by
      rw [div_lt_iff₀ (by positivity), ← pow_add]
      refine lt_of_lt_of_le hhi (pow_le_pow_right₀ one_le_two ?_)
      simp only [Format.targetExponent, totalExponent] at hk
      omega
    have := (abs_le.mp hloc.abs_sub_le).2
    have : (em.roundedMantissa : ℝ) < (2 ^ spec.mantissaBits : ℕ) + 1 := by push_cast; linarith
    exact Nat.lt_succ_iff.mp (by exact_mod_cast this)
  refine ⟨em.roundedMantissa, e + k, ⟨hn, hmin, ?_, ?_⟩, ?_⟩
  · rw [or_iff_not_imp_right]
    intro hne
    rw [hscale]
    refine mul_le_mul_of_nonneg_right ?_ (by positivity)
    have hm : m ≠ 0 := by
      rintro rfl
      have := spec.hm
      simp only [Format.targetExponent, totalExponent, Format.mantissaBits, Nat.log2_zero] at hk hne
      omega
    have hlo : (2 ^ m.log2 : ℝ) ≤ m := by exact_mod_cast Nat.log2_self_le hm
    rw [le_div_iff₀ (by positivity), ← pow_add]
    refine le_trans (pow_le_pow_right₀ one_le_two ?_) (hlo.trans hmx)
    simp only [Format.targetExponent, totalExponent, Format.mantissaBits] at hk
    omega
  · rw [hscale, ← sub_mul, abs_mul, abs_of_pos (by positivity : (0 : ℝ) < 2 ^ (e + k : ℤ))]
    have h2 : (0 : ℝ) < 2 ^ (e + k : ℤ) := by positivity
    calc |(em.roundedMantissa : ℝ) - x / 2 ^ k| * 2 ^ (e + k : ℤ)
        ≤ 1 / 2 * 2 ^ (e + k : ℤ) := mul_le_mul_of_nonneg_right hloc.abs_sub_le h2.le
      _ = 2 ^ (e + k : ℤ) / 2 := by ring
  · have hfst : shiftToTargetExponent spec m e acc = (em, e + (k : ℤ)) := by
      rw [shiftToTargetExponent, shiftToExponent, hk', hem]
    obtain ⟨h1, h2⟩ := shiftToTargetExponent_exact spec hmin hn
    rw [roundWithAccuracy, hfst]
    show ofMantissa s (shiftToTargetExponent spec _ (e + (k : ℤ)) .exact).1.mantissa
      (shiftToTargetExponent spec _ (e + (k : ℤ)) .exact).2 = _
    rw [h1, h2, carried]
    split <;> rfl

/-! ## What rounding keeps -/

variable {spec : Format} {x : ℝ} {n : ℕ} {t : ℤ}

/-- Rounding does not pass a multiple of the unit. -/
theorem Rounded.multiple_le (h : Rounded spec x n t) {k : ℕ} (hk : (k : ℝ) * 2 ^ t ≤ x) :
    k ≤ n := by
  have h2 : (0 : ℝ) < 2 ^ t := by positivity
  have := (abs_le.mp h.near).1
  have : (k : ℝ) * 2 ^ t < (n + 1) * 2 ^ t := by linarith
  exact Nat.lt_succ_iff.mp (by exact_mod_cast lt_of_mul_lt_mul_right this h2.le)

/-- Rounding does not pass a multiple of the unit. -/
theorem Rounded.le_multiple (h : Rounded spec x n t) {k : ℕ} (hk : x ≤ (k : ℝ) * 2 ^ t) :
    n ≤ k := by
  have h2 : (0 : ℝ) < 2 ^ t := by positivity
  have := (abs_le.mp h.near).2
  have : (n : ℝ) * 2 ^ t < (k + 1) * 2 ^ t := by linarith
  exact Nat.lt_succ_iff.mp (by exact_mod_cast lt_of_mul_lt_mul_right this h2.le)

/-- A mantissa that fits is a multiple of the unit, or below every number that
needs this unit. -/
theorem Fits.multiple_or_lt {k : ℕ} {f : ℤ} (hk : Fits spec k f) (t : ℤ) :
    (∃ j : ℕ, (k : ℝ) * 2 ^ f = j * 2 ^ t) ∨
      (f < t ∧ (k : ℝ) * 2 ^ f < 2 ^ spec.mantissaBitsWithoutImplicit * 2 ^ t) := by
  rcases le_or_gt t f with h | h
  · obtain ⟨i, rfl⟩ := Int.le.dest h
    refine .inl ⟨k * 2 ^ i, ?_⟩
    rw [zpow_add₀ two_ne_zero, zpow_natCast]
    push_cast
    ring
  · refine .inr ⟨h, ?_⟩
    have hlt : (k : ℝ) < 2 ^ (spec.mantissaBitsWithoutImplicit + 1) := by
      have := hk.lt
      rw [Format.mantissaBits, Nat.add_comm] at this
      exact_mod_cast this
    have hle : (2 : ℝ) ^ (f + 1) ≤ 2 ^ t := zpow_le_zpow_right₀ one_le_two (by omega)
    calc (k : ℝ) * 2 ^ f < 2 ^ (spec.mantissaBitsWithoutImplicit + 1) * 2 ^ f := by gcongr
      _ = 2 ^ spec.mantissaBitsWithoutImplicit * 2 ^ (f + 1) := by
          rw [zpow_add_one₀ two_ne_zero, pow_succ]
          ring
      _ ≤ 2 ^ spec.mantissaBitsWithoutImplicit * 2 ^ t := by gcongr

theorem Rounded.scaled_le (h : Rounded spec x n t) {k : ℕ} {f : ℤ} (hk : Fits spec k f)
    (hle : (k : ℝ) * 2 ^ f ≤ x) : (k : ℝ) * 2 ^ f ≤ n * 2 ^ t := by
  rcases hk.multiple_or_lt t with ⟨j, hj⟩ | ⟨hft, hlt⟩
  · rw [hj] at hle ⊢
    have := h.multiple_le hle
    gcongr
  · have hfull := h.full.resolve_right (by have := hk.le; omega)
    have : 2 ^ spec.mantissaBitsWithoutImplicit ≤ n := h.multiple_le (by exact_mod_cast hfull)
    have : (2 : ℝ) ^ spec.mantissaBitsWithoutImplicit ≤ n := by exact_mod_cast this
    exact hlt.le.trans (by gcongr)

theorem Rounded.le_scaled (h : Rounded spec x n t) {k : ℕ} {f : ℤ} (hk : Fits spec k f)
    (hle : x ≤ (k : ℝ) * 2 ^ f) : (n : ℝ) * 2 ^ t ≤ k * 2 ^ f := by
  rcases hk.multiple_or_lt t with ⟨j, hj⟩ | ⟨hft, hlt⟩
  · rw [hj] at hle ⊢
    have := h.le_multiple hle
    gcongr
  · have hfull := h.full.resolve_right (by have := hk.le; omega)
    exact absurd (hfull.trans hle) (not_le.mpr hlt)

theorem canonical_carried (h : Rounded spec x n t) (s : Sign) :
    Canonical spec (carried spec s n t) := by
  have hmin := h.min
  rw [carried]
  split_ifs with hlt
  · rw [ofMantissa]
    split_ifs with h0
    · trivial
    · refine ⟨hlt, h.min, ?_⟩
      rcases h.full with hfull | ht
      · exact .inl (h.multiple_le (by exact_mod_cast hfull))
      · exact .inr ht
  · rw [ofMantissa, dif_neg (by positivity)]
    refine ⟨?_, by omega, .inl le_rfl⟩
    rw [Format.mantissaBits, Nat.add_comm, pow_succ]
    have := Nat.two_pow_pos spec.mantissaBitsWithoutImplicit
    omega

theorem value_ofMantissa (s : Sign) (m : ℕ) (e : ℤ) :
    value (ofMantissa s m e) = (signed s (m * 2 ^ e) : ℝ) := by
  rw [ofMantissa]
  split_ifs with h
  · subst h
    cases s <;> simp [value, signed]
  · rfl

theorem value_carried (h : Rounded spec x n t) (s : Sign) :
    value (carried spec s n t) = (signed s (n * 2 ^ t) : ℝ) := by
  rw [carried]
  split_ifs with hlt
  · exact value_ofMantissa s n t
  · have hn : n = 2 ^ spec.mantissaBitsWithoutImplicit * 2 := by
      rw [← pow_succ, Nat.add_comm]
      exact le_antisymm h.le (not_lt.mp hlt)
    have : (2 ^ spec.mantissaBitsWithoutImplicit : ℕ) * (2 : ℝ) ^ (t + 1) = n * 2 ^ t := by
      rw [hn, zpow_add_one₀ two_ne_zero]
      push_cast
      ring
    rw [value_ofMantissa, this]

/-! ## Signed numbers -/

/-- The float that a real number is rounded to, before its exponent is checked. -/
def Rounds (spec : Format) (x : ℝ) (r : UnpackedFloat) : Prop :=
  ∃ n t, Rounded spec |x| n t ∧
    (0 ≤ x ∧ r = carried spec .positive n t ∨ x ≤ 0 ∧ r = carried spec .negative n t)

theorem neg_carried (spec : Format) (s : Sign) (n : ℕ) (t : ℤ) :
    (carried spec s n t).neg = carried spec (-s) n t := by
  unfold carried ofMantissa
  split_ifs <;> rfl

theorem neg_neg_eq (u : UnpackedFloat) : u.neg.neg = u := by
  rcases u with ⟨_ | _⟩ | _ | ⟨_ | _⟩ | ⟨_ | _⟩ <;> rfl

theorem neg_ne_notANumber {u : UnpackedFloat} (h : u ≠ .notANumber) : u.neg ≠ .notANumber := by
  intro hn
  rw [← neg_neg_eq u, hn] at h
  exact h rfl

theorem value_neg (u : UnpackedFloat) : value u.neg = -value u := by
  rcases u with ⟨_ | _⟩ | _ | ⟨_ | _⟩ | ⟨_ | _, m, e, h⟩
  · exact EReal.neg_bot.symm
  · exact EReal.neg_top.symm
  · exact neg_zero.symm
  · exact neg_zero.symm
  · exact neg_zero.symm
  · exact congrArg Real.toEReal (neg_neg _).symm
  · rfl

theorem canonical_neg {u : UnpackedFloat} (h : Canonical spec u) : Canonical spec u.neg := by
  rcases u with _ | _ | _ | _ <;> exact h

theorem Rounds.neg {x : ℝ} {r : UnpackedFloat} (h : Rounds spec x r) : Rounds spec (-x) r.neg := by
  obtain ⟨n, t, hr, ⟨hx, rfl⟩ | ⟨hx, rfl⟩⟩ := h
  · refine ⟨n, t, by rwa [abs_neg], .inr ⟨by linarith, neg_carried ..⟩⟩
  · refine ⟨n, t, by rwa [abs_neg], .inl ⟨by linarith, neg_carried ..⟩⟩

theorem Rounds.canonical {x : ℝ} {r : UnpackedFloat} (h : Rounds spec x r) : Canonical spec r := by
  obtain ⟨n, t, hr, ⟨-, rfl⟩ | ⟨-, rfl⟩⟩ := h <;> exact canonical_carried hr _

theorem carried_ne_notANumber (spec : Format) (s : Sign) (n : ℕ) (t : ℤ) :
    carried spec s n t ≠ .notANumber := by
  unfold carried ofMantissa
  split_ifs <;> simp

theorem Rounds.ne_notANumber {x : ℝ} {r : UnpackedFloat} (h : Rounds spec x r) :
    r ≠ .notANumber := by
  obtain ⟨n, t, hr, ⟨-, rfl⟩ | ⟨-, rfl⟩⟩ := h
  · exact carried_ne_notANumber spec .positive n t
  · exact carried_ne_notANumber spec .negative n t

/-- Rounding is off by half a unit in the last place, or by half the smallest number. -/
theorem Rounded.abs_sub_le (h : Rounded spec x n t) (hx : 0 ≤ x) :
    |(n : ℝ) * 2 ^ t - x| ≤ x / 2 ^ spec.mantissaBits + 2 ^ spec.minExponent / 2 := by
  refine h.near.trans ?_
  have h2 : (0 : ℝ) < 2 ^ spec.minExponent := by positivity
  rcases h.full with hfull | rfl
  · have : (2 : ℝ) ^ t / 2 ≤ x / 2 ^ spec.mantissaBits := by
      rw [div_le_div_iff₀ two_pos (by positivity), Format.mantissaBits, pow_add]
      linarith
    linarith
  · have : 0 ≤ x / 2 ^ spec.mantissaBits := by positivity
    linarith

theorem Rounds.near {x : ℝ} {r : UnpackedFloat} (h : Rounds spec x r) :
    ∃ v : ℝ, value r = v ∧
      |v - x| ≤ |x| / 2 ^ spec.mantissaBits + 2 ^ spec.minExponent / 2 := by
  obtain ⟨n, t, hr, ⟨hx, rfl⟩ | ⟨hx, rfl⟩⟩ := h
  · refine ⟨_, value_carried hr _, ?_⟩
    have := hr.abs_sub_le (abs_nonneg x)
    rwa [abs_of_nonneg hx] at this ⊢
  · refine ⟨_, value_carried hr _, ?_⟩
    have := hr.abs_sub_le (abs_nonneg x)
    rw [abs_of_nonpos hx] at this ⊢
    rwa [signed, ← neg_add', abs_neg, ← sub_neg_eq_add]

/-- Rounding up does not pass a float. -/
theorem Rounds.le_of_le {x : ℝ} {r y : UnpackedFloat} (h : Rounds spec x r) (hy : Canonical spec y)
    (hy' : y ≠ .notANumber) (hle : x ≤ value y) : value r ≤ value y := by
  obtain ⟨n, t, hr, hx⟩ := h
  have hn : (0 : ℝ) ≤ n * 2 ^ t := by positivity
  rcases y with ⟨_ | _⟩ | _ | s | ⟨_ | _, k, f, hk⟩
  · exact absurd hle (not_le.mpr (EReal.bot_lt_coe x))
  · exact le_top
  · exact absurd rfl hy'
  -- nothing but zero is rounded to a float above zero that is not above it
  · have hx0 : x ≤ 0 := EReal.coe_nonpos.mp hle
    rcases hx with ⟨hx, rfl⟩ | ⟨hx, rfl⟩ <;> rw [value_carried hr] <;>
      refine EReal.coe_nonpos.mpr ?_
    · have : n ≤ 0 := hr.le_multiple (by simp [le_antisymm hx0 hx])
      simp [signed, Nat.le_zero.mp this]
    · simpa [signed] using hn
  · have hle : x ≤ -(k * 2 ^ f) := EReal.coe_le_coe_iff.mp hle
    have hpos := scaled_pos hk f
    rcases hx with ⟨hx, rfl⟩ | ⟨hx, rfl⟩
    · linarith
    · rw [value_carried hr]
      refine EReal.coe_le_coe_iff.mpr (neg_le_neg (hr.scaled_le hy ?_))
      rw [abs_of_nonpos hx]
      linarith
  · have hle : x ≤ k * 2 ^ f := EReal.coe_le_coe_iff.mp hle
    have hpos := scaled_pos hk f
    rcases hx with ⟨hx, rfl⟩ | ⟨hx, rfl⟩ <;> rw [value_carried hr] <;>
      refine EReal.coe_le_coe_iff.mpr ?_
    · refine hr.le_scaled hy ?_
      rwa [abs_of_nonneg hx]
    · show -(n * 2 ^ t : ℝ) ≤ k * 2 ^ f
      linarith

/-- Rounding down does not pass a float. -/
theorem Rounds.ge_of_ge {x : ℝ} {r y : UnpackedFloat} (h : Rounds spec x r) (hy : Canonical spec y)
    (hy' : y ≠ .notANumber) (hle : value y ≤ x) : value y ≤ value r := by
  have := h.neg.le_of_le (canonical_neg hy) (neg_ne_notANumber hy')
  rw [value_neg, value_neg, EReal.neg_le_neg_iff, EReal.coe_neg, EReal.neg_le_neg_iff] at this
  exact this hle

end Binary

end CurveSurvey

import CurveSurvey.Proofs.Binary.Arithmetic

/-!
# Rounding keeps the order

Rounding to nearest never turns an order around, so neither does storing a rounded
number (`Binary.Rounds.value_stored_le`).

Two magnitudes that are rounded with one exponent are compared through their
mantissae.  Where the exponents differ, the magnitude with the larger one is at least
the power of two from which on that exponent is used, and the other one is at most
rounded up to it (`Binary.Rounded.scaled_mono`).
-/

namespace CurveSurvey

namespace Binary

open Float.Model (Format UnpackedFloat)
open Float.Model.UnpackedFloat hiding compare round

variable {spec : Format} {x y : ℝ} {n n' : ℕ} {t t' : ℤ}

/-! ## Magnitudes -/

theorem two_pow_mantissaBits (spec : Format) :
    (2 : ℝ) ^ spec.mantissaBits = 2 * 2 ^ spec.mantissaBitsWithoutImplicit := by
  rw [Format.mantissaBits, pow_add, pow_one]

theorem Rounded.le_two_mul (h : Rounded spec x n t) :
    (n : ℝ) ≤ 2 * 2 ^ spec.mantissaBitsWithoutImplicit := by
  rw [← two_pow_mantissaBits]
  exact_mod_cast h.le

theorem two_mul_zpow_le (h : t < t') : 2 * (2 : ℝ) ^ t ≤ 2 ^ t' := by
  rw [mul_comm, ← zpow_add_one₀ two_ne_zero]
  exact zpow_le_zpow_right₀ one_le_two h

/-- Of two magnitudes, the larger one is not rounded to less. -/
theorem Rounded.scaled_mono (h : Rounded spec x n t) (h' : Rounded spec y n' t') (hxy : x < y) :
    (n : ℝ) * 2 ^ t ≤ n' * 2 ^ t' := by
  have hpos : (0 : ℝ) < 2 ^ t := zpow_pos two_pos t
  have hpos' : (0 : ℝ) < 2 ^ t' := zpow_pos two_pos t'
  have hnear := (abs_le.1 h.near).2
  have hnear' := (abs_le.1 h'.near).1
  rcases lt_trichotomy t t' with hlt | rfl | hgt
  · have hfull := h'.full.resolve_right (by have := h.min; omega)
    have hn' : 2 ^ spec.mantissaBitsWithoutImplicit ≤ n' :=
      h'.multiple_le (by push_cast; exact hfull)
    have hn'' : (2 : ℝ) ^ spec.mantissaBitsWithoutImplicit ≤ n' := by exact_mod_cast hn'
    calc (n : ℝ) * 2 ^ t ≤ 2 * 2 ^ spec.mantissaBitsWithoutImplicit * 2 ^ t := by
          gcongr
          exact h.le_two_mul
      _ = 2 ^ spec.mantissaBitsWithoutImplicit * (2 * 2 ^ t) := by ring
      _ ≤ n' * 2 ^ t' := by
          gcongr
          exact two_mul_zpow_le hlt
  · have hle : n ≤ n' := by
      by_contra hgt
      have hstep : (n' : ℝ) + 1 ≤ n := by exact_mod_cast not_le.1 hgt
      nlinarith
    gcongr
  · obtain ⟨k, rfl⟩ := Int.le.dest hgt.le
    have hfull := h.full.resolve_right (by have := h'.min; omega)
    -- the power of two where the larger exponent begins is a multiple of the smaller unit
    have hmultiple : ((2 ^ spec.mantissaBitsWithoutImplicit * 2 ^ k : ℕ) : ℝ) * 2 ^ t' =
        2 ^ spec.mantissaBitsWithoutImplicit * 2 ^ (t' + k : ℤ) := by
      rw [zpow_add₀ two_ne_zero, zpow_natCast]
      push_cast
      ring
    have hn' : 2 ^ spec.mantissaBitsWithoutImplicit * 2 ^ k ≤ n' :=
      h'.multiple_le (by rw [hmultiple]; linarith)
    have hn : n ≤ 2 ^ spec.mantissaBitsWithoutImplicit := by
      by_contra hgt'
      have hstep : (2 : ℝ) ^ spec.mantissaBitsWithoutImplicit + 1 ≤ n := by
        exact_mod_cast not_le.1 hgt'
      have hdouble := two_mul_zpow_le hgt
      have hle' := h'.le_two_mul
      have hM : (0 : ℝ) < 2 ^ spec.mantissaBitsWithoutImplicit := by positivity
      generalize (2 : ℝ) ^ spec.mantissaBitsWithoutImplicit = M at *
      nlinarith
    calc (n : ℝ) * 2 ^ (t' + k : ℤ)
        ≤ 2 ^ spec.mantissaBitsWithoutImplicit * 2 ^ (t' + k : ℤ) := by
          gcongr
          exact_mod_cast hn
      _ = ((2 ^ spec.mantissaBitsWithoutImplicit * 2 ^ k : ℕ) : ℝ) * 2 ^ t' := hmultiple.symm
      _ ≤ n' * 2 ^ t' := by
          gcongr

/-! ## Signed numbers -/

theorem Rounds.value_eq_of_pos {r : UnpackedFloat} (h : Rounds spec x r) (hx : 0 < x) :
    ∃ n t, Rounded spec x n t ∧ value r = (n * 2 ^ t : ℝ) := by
  obtain ⟨n, t, hr, ⟨-, rfl⟩ | ⟨hx', -⟩⟩ := h
  · rw [abs_of_pos hx] at hr
    exact ⟨n, t, hr, value_carried hr _⟩
  · exact absurd hx (not_lt.2 hx')

theorem Rounds.value_mono_of_pos {r q : UnpackedFloat} (h : Rounds spec x r)
    (h' : Rounds spec y q) (hx : 0 < x) (hxy : x < y) : value r ≤ value q := by
  obtain ⟨n, t, hr, hvr⟩ := h.value_eq_of_pos hx
  obtain ⟨n', t', hq, hvq⟩ := h'.value_eq_of_pos (hx.trans hxy)
  rw [hvr, hvq, EReal.coe_le_coe_iff]
  exact hr.scaled_mono hq hxy

/-- The larger number is not rounded to less. -/
theorem Rounds.value_mono {r q : UnpackedFloat} (h : Rounds spec x r) (h' : Rounds spec y q)
    (hxy : x < y) : value r ≤ value q := by
  rcases lt_or_ge 0 x with hx | hx
  · exact h.value_mono_of_pos h' hx hxy
  rcases lt_or_ge y 0 with hy | hy
  · have := h'.neg.value_mono_of_pos h.neg (neg_pos.2 hy) (neg_lt_neg hxy)
    rwa [value_neg, value_neg, EReal.neg_le_neg_iff] at this
  · -- zero lies between the two numbers
    have hle : value r ≤ value (.zero .positive) :=
      h.le_of_le (y := .zero .positive) trivial nofun (EReal.coe_nonpos.2 hx)
    exact hle.trans (h'.ge_of_ge (y := .zero .positive) trivial nofun (EReal.coe_nonneg.2 hy))

/-! ## Stored numbers -/

/-- A canonical float is one of the format, or it is stored as an infinity. -/
theorem Canonical.representable_or_overflows {u : UnpackedFloat} (h : Canonical spec u) :
    Representable spec u ∨
      ∃ s m e hm, u = .finite s m e hm ∧ Fits spec m e ∧ overflowExponent spec ≤ e ∧
        stored spec u = .infinity s := by
  rcases u with _ | _ | _ | ⟨s, m, e, hm⟩
  · exact .inl trivial
  · exact .inl trivial
  · exact .inl trivial
  · rcases lt_or_ge e (overflowExponent spec) with hlt | hge
    · exact .inl ⟨h, hlt⟩
    · exact .inr ⟨s, m, e, hm, rfl, h, hge, stored_of_overflow hm h hge⟩

/-- Storing a positive number and one that is not below it. -/
theorem value_stored_le_of_nonneg {r q : UnpackedFloat} (hr : Canonical spec r)
    (hq : Canonical spec q) (hpos : 0 ≤ value r) (hle : value r ≤ value q) :
    value (stored spec r) ≤ value (stored spec q) := by
  rcases hq.representable_or_overflows with hq | ⟨s, m, e, hm, rfl, -, -, hinf⟩
  · rcases hr.representable_or_overflows with hr | ⟨s, m, e, hm, rfl, hfits, hover, hinf⟩
    · rwa [stored_of_representable hr, stored_of_representable hq]
    · cases s with
      | negative =>
        rw [hinf]
        exact bot_le
      | positive =>
        rw [stored_of_representable hq, hq.le_of_overflow hm hfits hover hle]
        exact le_top
  · cases s with
    | negative =>
      have hneg : -((m : ℝ) * 2 ^ e) < 0 := neg_lt_zero.2 (scaled_pos hm e)
      exact absurd (hpos.trans hle) (not_le.2 (EReal.coe_neg'.2 hneg))
    | positive =>
      rw [hinf]
      exact le_top

/-- Storing keeps the order of canonical floats. -/
theorem value_stored_mono {r q : UnpackedFloat} (hr : Canonical spec r) (hq : Canonical spec q)
    (hle : value r ≤ value q) : value (stored spec r) ≤ value (stored spec q) := by
  have hneg : ∀ u : UnpackedFloat, value u ≤ 0 → 0 ≤ value u.neg := by
    intro u hu
    rw [value_neg]
    exact EReal.neg_nonneg.2 hu
  rcases le_total 0 (value r) with hr0 | hr0
  · exact value_stored_le_of_nonneg hr hq hr0 hle
  rcases le_total (value q) 0 with hq0 | hq0
  · have := value_stored_le_of_nonneg (canonical_neg hq) (canonical_neg hr) (hneg q hq0)
      (by rwa [value_neg, value_neg, EReal.neg_le_neg_iff])
    rwa [stored_neg, stored_neg, value_neg, value_neg, EReal.neg_le_neg_iff] at this
  · have hstored : 0 ≤ value (stored spec r.neg) := value_stored_nonneg (hneg r hr0)
    rw [stored_neg, value_neg, EReal.neg_nonneg] at hstored
    exact hstored.trans (value_stored_nonneg hq0)

/-- The larger of two rounded numbers is not stored as less. -/
theorem Rounds.value_stored_le {r q : UnpackedFloat} (h : Rounds spec x r) (h' : Rounds spec y q)
    (hxy : x < y) : value (stored spec r) ≤ value (stored spec q) :=
  value_stored_mono h.canonical h'.canonical (h.value_mono h' hxy)

end Binary

end CurveSurvey

import CurveSurvey.Proofs.Binary.Storage

/-!
# Arithmetic on binary floats

Sums, products and quotients of canonical floats are rounded from the exact
results (`Binary.rounds_add`, `Binary.rounds_mul`, `Binary.rounds_div`).  After
storing them, sums and products are nearest to the exact results
(`Binary.nearest_add`, `Binary.nearest_mul`), infinite operands included; of such
quotients only the sign is needed (`Binary.value_div_nonneg`).
-/

namespace CurveSurvey

namespace Binary

open Float.Model (Format UnpackedFloat totalExponent)
open Float.Model.UnpackedFloat hiding compare round

variable {spec : Format}

/-! ## Operations -/

theorem rounds_carried {x : ℝ} {n : ℕ} {t : ℤ} (h : Rounded spec x n t) (hx : 0 ≤ x) (s : Sign) :
    Rounds spec (signed s x) (carried spec s n t) := by
  rcases s with _ | _
  · exact ⟨n, t, by rwa [signed, abs_neg, abs_of_nonneg hx], .inr ⟨neg_nonpos.mpr hx, rfl⟩⟩
  · exact ⟨n, t, by rwa [signed, abs_of_nonneg hx], .inl ⟨hx, rfl⟩⟩

theorem rounds_roundWithAccuracy (spec : Format) (s : Sign) {m : ℕ} {e : ℤ} {acc : Accuracy}
    {x : ℝ} (hx : Locates (ExtendedMantissa.ofMantissaAndAccuracy m acc) x)
    (he : e ≤ spec.targetExponent (totalExponent m e)) :
    Rounds spec (signed s (x * 2 ^ e)) (roundWithAccuracy spec s m e acc) := by
  obtain ⟨n, t, h, heq⟩ := roundWithAccuracy_rounded spec s hx he
  rw [heq]
  exact rounds_carried h (mul_nonneg (m.cast_nonneg.trans hx.between.1) (by positivity)) s

theorem Fits.rounded {m : ℕ} {e : ℤ} (h : Fits spec m e) : Rounded spec (m * 2 ^ e) m e := by
  refine ⟨h.lt.le, h.le, h.full.imp_left fun hm => ?_, ?_⟩
  · have : (2 : ℝ) ^ spec.mantissaBitsWithoutImplicit ≤ m := by exact_mod_cast hm
    gcongr
  · rw [sub_self, abs_zero]
    positivity

/-- A float is rounded to itself. -/
theorem rounds_self {a : UnpackedFloat} (ha : Canonical spec a) (ha' : a ≠ .notANumber) {u : ℝ}
    (hu : value a = u) : Rounds spec u a := by
  have hpow := Nat.two_pow_pos spec.mantissaBits
  rcases a with ⟨_ | _⟩ | _ | s | ⟨s, m, e, hm⟩
  · exact absurd hu (EReal.bot_ne_coe u)
  · exact absurd hu (EReal.top_ne_coe u)
  · exact absurd rfl ha'
  · have h : Rounded spec 0 0 spec.minExponent :=
      ⟨Nat.zero_le _, le_rfl, .inr rfl, by simpa using by positivity⟩
    have := rounds_carried h le_rfl s
    rw [carried, if_pos hpow, ofMantissa, dif_pos rfl] at this
    obtain rfl : u = 0 := (EReal.coe_eq_coe_iff.mp hu).symm
    rcases s with _ | _ <;> simpa [signed] using this
  · obtain rfl := EReal.coe_eq_coe_iff.mp hu
    have := rounds_carried ha.rounded (by positivity) s
    rwa [carried, if_pos ha.lt, ofMantissa, dif_neg hm.ne'] at this

theorem rounds_zero (s : Sign) : Rounds spec 0 (.zero s) :=
  rounds_self (a := .zero s) trivial nofun rfl

theorem totalExponent_shiftLeft {m : ℕ} (hm : 0 < m) (e : ℤ) (k : ℕ) :
    totalExponent (m <<< k) (e - k) = totalExponent m e := by
  have : (m <<< k).log2 = m.log2 + k := by
    rw [Nat.log2_eq_iff (by simpa [Nat.shiftLeft_eq] using hm.ne'), Nat.shiftLeft_eq, pow_add,
      show m.log2 + k + 1 = m.log2 + 1 + k by omega, pow_add]
    exact ⟨Nat.mul_le_mul_right _ (Nat.log2_self_le hm.ne'),
      Nat.mul_lt_mul_of_pos_right Nat.lt_log2_self (Nat.two_pow_pos k)⟩
  rw [totalExponent, totalExponent, this]
  push_cast
  ring

theorem cast_shiftLeft (m k : ℕ) (e : ℤ) : ((m <<< k : ℕ) : ℝ) * 2 ^ (e - k) = m * 2 ^ e := by
  rw [Nat.shiftLeft_eq, zpow_sub₀ two_ne_zero, zpow_natCast]
  push_cast
  field_simp

theorem rounds_round (spec : Format) (s : Sign) {m : ℕ} (hm : 0 < m) (e : ℤ) :
    Rounds spec (signed s (m * 2 ^ e)) (UnpackedFloat.round spec s m e) := by
  generalize hk : (e - spec.targetExponent (totalExponent m e)).toNat = k
  have h := rounds_roundWithAccuracy spec s (locates_exact (m <<< k)) (e := e - k)
    (by rw [totalExponent_shiftLeft hm]; omega)
  rw [cast_shiftLeft] at h
  simpa only [UnpackedFloat.round, decreaseExponent, hk] using h

theorem rounds_normalize (spec : Format) (M : ℤ) (e : ℤ) (z : Sign) :
    Rounds spec (M * 2 ^ e) (normalize spec M e z) := by
  have hcast : ∀ {N : ℤ}, 0 < N → ((N.toNat : ℕ) : ℝ) = N := fun h => by
    exact_mod_cast Int.toNat_of_nonneg h.le
  unfold UnpackedFloat.normalize
  rcases lt_trichotomy M 0 with h | rfl | h
  · have hM : 0 < -M := by omega
    rw [compare_lt_iff_lt.mpr h]
    have := rounds_round spec .negative (by omega : 0 < (-M).toNat) e
    rwa [hcast hM, signed, Int.cast_neg, neg_mul, neg_neg] at this
  · rw [compare_eq_iff_eq.mpr rfl, Int.cast_zero, zero_mul]
    exact rounds_zero z
  · rw [compare_gt_iff_gt.mpr h]
    have := rounds_round spec .positive (by omega : 0 < M.toNat) e
    rwa [hcast h, signed] at this

/-- Decimal notation without a power of ten rounds a count. -/
theorem rounds_ofScientific {n : ℕ} (hn : n ≠ 0) :
    Rounds spec n (UnpackedFloat.ofScientific spec n 0) := by
  have hpos : 0 < n := Nat.pos_of_ne_zero hn
  have hexp : (0 : ℤ) < 2 ^ spec.exponentBits := by positivity
  rw [UnpackedFloat.ofScientific, dif_neg hn, if_neg (by omega), if_neg (by omega), if_pos le_rfl]
  have hspare : 0 - (spec.mantissaBits : ℤ) ≤ spec.targetExponent
      (totalExponent (n <<< spec.mantissaBits) (0 - spec.mantissaBits)) := by
    rw [totalExponent_shiftLeft hpos]
    exact (sub_le_sub_right (by rw [totalExponent]; omega) _).trans (le_max_left _ _)
  have h := rounds_roundWithAccuracy spec .positive (locates_exact (n <<< spec.mantissaBits)) hspare
  rw [cast_shiftLeft, zpow_zero, mul_one] at h
  -- the power of ten is one
  show Rounds spec n (roundWithAccuracy spec .positive (n <<< spec.mantissaBits * 1)
    (-(spec.mantissaBits : ℤ) + 0) .exact)
  rw [mul_one, add_zero, ← zero_sub]
  exact h

theorem apply_neg (s : Sign) (n : ℤ) : (-s).apply n = -s.apply n := by
  rcases s with _ | _
  · exact (Int.neg_neg n).symm
  · rfl

/-- The difference is the sum with the negative. -/
theorem sub_eq_add_neg (a b : UnpackedFloat) : sub spec a b = add spec a b.neg := by
  rcases a with s | _ | s | ⟨s, m, e, h⟩ <;> rcases b with s' | _ | s' | ⟨s', m', e', h'⟩
  case finite.finite =>
    simp only [sub, add, UnpackedFloat.neg, apply_neg, Int.sub_eq_add_neg]
  all_goals rfl

theorem signed_apply (s : Sign) (m : ℕ) : signed s m = ((s.apply m : ℤ) : ℝ) := by
  rcases s with _ | _ <;> simp [signed, Sign.apply]

theorem signed_mul (s : Sign) (x y : ℝ) : signed s (x * y) = signed s x * y := by
  rcases s with _ | _
  · exact (neg_mul x y).symm
  · rfl

theorem signed_mul_signed (s s' : Sign) (x y : ℝ) :
    signed (s * s') (x * y) = signed s x * signed s' y := by
  rcases s with _ | _ <;> rcases s' with _ | _
  · exact (neg_mul_neg x y).symm
  · exact (neg_mul x y).symm
  · exact (mul_neg x y).symm
  · rfl

/-- Lowering an exponent keeps the number. -/
theorem signed_decreaseExponent (s : Sign) (m : ℕ) {e t : ℤ} (h : t ≤ e) :
    ((s.apply (decreaseExponent m e t).1 : ℤ) : ℝ) * 2 ^ t = signed s (m * 2 ^ e) := by
  obtain ⟨k, hk⟩ := Int.le.dest h
  have : decreaseExponent m e t = (m <<< k, e - k) := by
    rw [decreaseExponent, show (e - t).toNat = k by omega]
  rw [this, ← signed_apply, ← signed_mul, ← cast_shiftLeft m k e, ← hk]
  simp

/-- A float that stands for a real number is zero or finite. -/
theorem eq_zero_or_finite {a : UnpackedFloat} (ha : a ≠ .notANumber) {u : ℝ} (hu : value a = u) :
    (∃ s, a = .zero s ∧ u = 0) ∨ ∃ s m e hm, a = .finite s m e hm ∧ u = signed s (m * 2 ^ e) := by
  rcases a with ⟨_ | _⟩ | _ | s | ⟨s, m, e, hm⟩
  · exact absurd hu (EReal.bot_ne_coe u)
  · exact absurd hu (EReal.top_ne_coe u)
  · exact absurd rfl ha
  · exact .inl ⟨s, rfl, (EReal.coe_eq_coe_iff.mp hu).symm⟩
  · exact .inr ⟨s, m, e, hm, rfl, (EReal.coe_eq_coe_iff.mp hu).symm⟩

theorem rounds_add {a b : UnpackedFloat} (ha : Canonical spec a) (hb : Canonical spec b)
    (ha' : a ≠ .notANumber) (hb' : b ≠ .notANumber) {u v : ℝ} (hu : value a = u)
    (hv : value b = v) : Rounds spec (u + v) (add spec a b) := by
  rcases eq_zero_or_finite ha' hu with ⟨s, rfl, rfl⟩ | ⟨s, m, e, hm, rfl, rfl⟩ <;>
    rcases eq_zero_or_finite hb' hv with ⟨s', rfl, rfl⟩ | ⟨s', m', e', hm', rfl, rfl⟩
  · rw [add_zero, add]
    split <;> exact rounds_zero _
  · rw [zero_add]
    exact rounds_self hb nofun hv
  · rw [add_zero]
    exact rounds_self ha nofun hu
  · have := rounds_normalize spec (s.apply (decreaseExponent m e (min e e')).1 +
      s'.apply (decreaseExponent m' e' (min e e')).1) (min e e') .positive
    rwa [Int.cast_add, add_mul, signed_decreaseExponent s m (min_le_left e e'),
      signed_decreaseExponent s' m' (min_le_right e e')] at this

/-- The product of two mantissas that fit has bits to spare. -/
theorem Fits.mul_le_targetExponent {m m' : ℕ} {e e' : ℤ} (h : Fits spec m e) (h' : Fits spec m' e')
    (hm : 0 < m) (hm' : 0 < m') :
    e + e' ≤ spec.targetExponent (totalExponent (m * m') (e + e')) := by
  have hlog : ∀ {k : ℕ}, k ≤ m * m' → 0 < k → k.log2 ≤ (m * m').log2 := fun {k} hk h0 => by
    rw [Nat.le_log2 (by positivity)]
    exact (Nat.log2_self_le h0.ne').trans hk
  have hlogq : ∀ {k : ℕ}, 2 ^ spec.mantissaBitsWithoutImplicit ≤ k → k ≤ m * m' →
      spec.mantissaBitsWithoutImplicit ≤ (m * m').log2 := fun hq hk => by
    rw [Nat.le_log2 (by positivity)]
    exact hq.trans hk
  have hneg : spec.minExponent ≤ 0 := by
    have : (1 : ℤ) ≤ 2 ^ (spec.exponentBits - 1) := by exact_mod_cast Nat.one_le_two_pow
    have := spec.hm
    simp only [Format.minExponent, Format.mantissaBits]
    omega
  simp only [Format.targetExponent, totalExponent, Format.mantissaBits, le_max_iff]
  rcases h.full with hq | rfl
  · have := hlogq hq (Nat.le_mul_of_pos_right m hm')
    left
    omega
  · rcases h'.full with hq | rfl
    · have := hlogq hq (Nat.le_mul_of_pos_left m' hm)
      left
      omega
    · right
      omega

theorem rounds_mul {a b : UnpackedFloat} (ha : Canonical spec a) (hb : Canonical spec b)
    (ha' : a ≠ .notANumber) (hb' : b ≠ .notANumber) {u v : ℝ} (hu : value a = u)
    (hv : value b = v) : Rounds spec (u * v) (mul spec a b) := by
  rcases eq_zero_or_finite ha' hu with ⟨s, rfl, rfl⟩ | ⟨s, m, e, hm, rfl, rfl⟩ <;>
    rcases eq_zero_or_finite hb' hv with ⟨s', rfl, rfl⟩ | ⟨s', m', e', hm', rfl, rfl⟩
  · rw [zero_mul]
    exact rounds_zero _
  · rw [zero_mul]
    exact rounds_zero _
  · rw [mul_zero]
    exact rounds_zero _
  · have hprod : ((m * m' : ℕ) : ℝ) * 2 ^ (e + e') = m * 2 ^ e * (m' * 2 ^ e') := by
      rw [zpow_add₀ two_ne_zero]
      push_cast
      ring
    rw [← signed_mul_signed, ← hprod]
    exact rounds_roundWithAccuracy spec (s * s') (locates_exact (m * m'))
      (ha.mul_le_targetExponent hb hm hm')

theorem signed_div_signed (s s' : Sign) (x y : ℝ) :
    signed (s / s') (x / y) = signed s x / signed s' y := by
  rcases s with _ | _ <;> rcases s' with _ | _
  · exact (neg_div_neg_eq x y).symm
  · exact (neg_div y x).symm
  · exact (div_neg x).symm
  · rfl

/-- The quotient of two mantissas is located after enough digits. -/
theorem locates_divCore (spec : Format) {m m' : ℕ} (hm : 0 < m) (hm' : 0 < m') (e e' : ℤ) :
    let (q, t, acc) := divCore spec m e m' e'
    t ≤ spec.targetExponent (totalExponent q t) ∧
      ∃ x, Locates (ExtendedMantissa.ofMantissaAndAccuracy q acc) x ∧
        x * 2 ^ t = m * 2 ^ e / (m' * 2 ^ e') := by
  dsimp only [divCore]
  generalize ht : min (e - e') (spec.targetExponent (totalExponent m e - totalExponent m' e')) = t
  obtain ⟨k, hk⟩ := Int.le.dest (ht ▸ min_le_left _ _ : t ≤ e - e')
  rw [show (e - e' - t).toNat = k by omega]
  have hlt : m <<< k % m' < m' := Nat.mod_lt _ hm'
  refine ⟨?_, _, locates_accuracyOfFraction _ hlt, ?_⟩
  · by_cases hmin : t ≤ spec.minExponent
    · exact hmin.trans (le_max_right _ _)
    · -- enough digits were appended to fill the mantissa of the quotient
      have hk' : spec.mantissaBits + m'.log2 ≤ m.log2 + k := by
        simp only [Format.targetExponent, totalExponent] at ht
        omega
      have hfull : 2 ^ spec.mantissaBitsWithoutImplicit ≤ m <<< k / m' := by
        rw [Nat.le_div_iff_mul_le hm', Nat.shiftLeft_eq]
        calc 2 ^ spec.mantissaBitsWithoutImplicit * m'
            ≤ 2 ^ spec.mantissaBitsWithoutImplicit * 2 ^ (m'.log2 + 1) :=
              Nat.mul_le_mul_left _ Nat.lt_log2_self.le
          _ = 2 ^ (spec.mantissaBits + m'.log2) := by
              rw [← pow_add, Format.mantissaBits]
              congr 1
              omega
          _ ≤ 2 ^ (m.log2 + k) := Nat.pow_le_pow_right two_pos hk'
          _ = 2 ^ m.log2 * 2 ^ k := pow_add _ _ _
          _ ≤ m * 2 ^ k := Nat.mul_le_mul_right _ (Nat.log2_self_le hm.ne')
      have hlog : spec.mantissaBitsWithoutImplicit ≤ (m <<< k / m').log2 :=
        (Nat.le_log2 ((Nat.two_pow_pos _).trans_le hfull).ne').2 hfull
      refine le_max_of_le_left ?_
      simp only [totalExponent, Format.mantissaBits]
      omega
  · have hsum : (m' : ℝ) * (m <<< k / m' : ℕ) + (m <<< k % m' : ℕ) = m * 2 ^ k := by
      have := Nat.div_add_mod (m <<< k) m'
      rw [Nat.shiftLeft_eq] at this ⊢
      exact_mod_cast this
    have hexp : (2 : ℝ) ^ e = 2 ^ k * 2 ^ t * 2 ^ e' := by
      rw [← zpow_natCast, ← zpow_add₀ two_ne_zero, ← zpow_add₀ two_ne_zero]
      congr 1
      omega
    have hne : (m' : ℝ) ≠ 0 := by exact_mod_cast hm'.ne'
    rw [hexp]
    field_simp
    linear_combination hsum

theorem rounds_div {a b : UnpackedFloat} (ha : a ≠ .notANumber) (hb : b ≠ .notANumber) {u v : ℝ}
    (hu : value a = u) (hv : value b = v) (hne : v ≠ 0) : Rounds spec (u / v) (div spec a b) := by
  rcases eq_zero_or_finite hb hv with ⟨s', -, hzero⟩ | ⟨s', m', e', hm', rfl, rfl⟩
  · exact absurd hzero hne
  · rcases eq_zero_or_finite ha hu with ⟨s, rfl, rfl⟩ | ⟨s, m, e, hm, rfl, rfl⟩
    · rw [zero_div]
      exact rounds_zero _
    · obtain ⟨ht, x, hx, heq⟩ := locates_divCore spec hm hm' e e'
      rw [← signed_div_signed, ← heq]
      exact rounds_roundWithAccuracy spec (s / s') hx ht

/-! ## Infinite operands -/

/-- A float is the nearest one to its own value. -/
theorem nearest_value {a : UnpackedFloat} (ha : a ≠ .notANumber) : Nearest spec (value a) a := by
  refine ⟨ha, fun _ _ _ h => h, fun _ _ _ h => h, fun u v hu hv => ?_⟩
  obtain rfl : u = v := EReal.coe_eq_coe_iff.mp (hu.symm.trans hv)
  rw [sub_self, abs_zero]
  positivity

theorem stored_infinity (s : Sign) : stored spec (.infinity s) = .infinity s :=
  stored_of_representable trivial

theorem stored_notANumber : stored spec .notANumber = .notANumber :=
  stored_of_representable trivial

theorem stored_zero (s : Sign) : stored spec (.zero s) = .zero s :=
  stored_of_representable trivial

theorem eq_infinity_or_coe {a : UnpackedFloat} (ha : a ≠ .notANumber) :
    (∃ s, a = .infinity s) ∨ ∃ u : ℝ, value a = u := by
  rcases a with s | _ | s | ⟨s, m, e, hm⟩
  · exact .inl ⟨s, rfl⟩
  · exact absurd rfl ha
  · exact .inr ⟨0, rfl⟩
  · exact .inr ⟨_, rfl⟩

theorem add_infinity_left (s : Sign) {b : UnpackedFloat} {v : ℝ} (hb : b ≠ .notANumber)
    (hv : value b = v) : add spec (.infinity s) b = .infinity s := by
  rcases eq_zero_or_finite hb hv with ⟨s', rfl, -⟩ | ⟨s', m, e, hm, rfl, -⟩ <;> rfl

theorem add_infinity_right (s : Sign) {a : UnpackedFloat} {u : ℝ} (ha : a ≠ .notANumber)
    (hu : value a = u) : add spec a (.infinity s) = .infinity s := by
  rcases eq_zero_or_finite ha hu with ⟨s', rfl, -⟩ | ⟨s', m, e, hm, rfl, -⟩ <;> rfl

theorem value_infinity_add (s : Sign) (v : ℝ) :
    value (.infinity s) + v = value (.infinity s) := by
  rcases s with _ | _
  · exact EReal.bot_add _
  · exact EReal.top_add_coe v

/-- A stored sum is nearest to the sum of the numbers, unless it is undefined. -/
theorem nearest_add {a b : UnpackedFloat} (ha : Canonical spec a) (hb : Canonical spec b)
    (h : stored spec (add spec a b) ≠ .notANumber) :
    Nearest spec (value a + value b) (stored spec (add spec a b)) := by
  have hnan : stored spec .notANumber = .notANumber := stored_notANumber
  by_cases ha' : a = .notANumber
  · exact absurd (by rw [ha']; exact hnan) h
  by_cases hb' : b = .notANumber
  · refine absurd ?_ h
    rw [hb']
    rcases a with _ | _ | _ | _ <;> exact hnan
  rcases eq_infinity_or_coe ha' with ⟨s, rfl⟩ | ⟨u, hu⟩ <;>
    rcases eq_infinity_or_coe hb' with ⟨s', rfl⟩ | ⟨v, hv⟩
  · rw [add] at h ⊢
    split_ifs at h ⊢ with hs
    · obtain rfl : s = s' := eq_of_beq hs
      have : value (.infinity s) + value (.infinity s) = value (.infinity s) := by
        rcases s with _ | _ <;> rfl
      rw [this, stored_infinity]
      exact nearest_value nofun
    · exact absurd hnan h
  · rw [add_infinity_left s hb' hv, stored_infinity, hv, value_infinity_add]
    exact nearest_value nofun
  · rw [add_infinity_right s' ha' hu, stored_infinity, hu, add_comm, value_infinity_add]
    exact nearest_value nofun
  · rw [hu, hv, ← EReal.coe_add]
    exact (rounds_add ha hb ha' hb' hu hv).nearest

theorem value_eq_top_iff {a : UnpackedFloat} : value a = ⊤ ↔ a = .infinity .positive := by
  refine ⟨fun h => ?_, fun h => h ▸ rfl⟩
  rcases a with ⟨_ | _⟩ | _ | s | ⟨s, m, e, hm⟩
  · exact absurd h bot_ne_top
  · rfl
  · exact absurd h EReal.zero_ne_top
  · exact absurd h EReal.zero_ne_top
  · exact absurd h (EReal.coe_ne_top _)

theorem value_eq_bot_iff {a : UnpackedFloat} : value a = ⊥ ↔ a = .infinity .negative := by
  refine ⟨fun h => ?_, fun h => h ▸ rfl⟩
  rcases a with ⟨_ | _⟩ | _ | s | ⟨s, m, e, hm⟩
  · rfl
  · exact absurd h top_ne_bot
  · exact absurd h EReal.zero_ne_bot
  · exact absurd h EReal.zero_ne_bot
  · exact absurd h (EReal.coe_ne_bot _)

/-- A sum is undefined when an operand is, and when infinities cancel. -/
theorem stored_add_eq_notANumber_iff {a b : UnpackedFloat} (ha : Canonical spec a)
    (hb : Canonical spec b) :
    stored spec (add spec a b) = .notANumber ↔ a = .notANumber ∨ b = .notANumber ∨
      value a = ⊤ ∧ value b = ⊥ ∨ value a = ⊥ ∧ value b = ⊤ := by
  simp only [value_eq_top_iff, value_eq_bot_iff]
  constructor
  · intro h
    by_cases ha' : a = .notANumber
    · exact .inl ha'
    by_cases hb' : b = .notANumber
    · exact .inr (.inl hb')
    right; right
    rcases eq_infinity_or_coe ha' with ⟨s, rfl⟩ | ⟨u, hu⟩ <;>
      rcases eq_infinity_or_coe hb' with ⟨s', rfl⟩ | ⟨v, hv⟩
    · rcases s with _ | _ <;> rcases s' with _ | _
      · exact absurd (h.symm.trans (stored_infinity _)) nofun
      · exact .inr ⟨rfl, rfl⟩
      · exact .inl ⟨rfl, rfl⟩
      · exact absurd (h.symm.trans (stored_infinity _)) nofun
    · rw [add_infinity_left s hb' hv, stored_infinity] at h
      cases h
    · rw [add_infinity_right s' ha' hu, stored_infinity] at h
      cases h
    · exact absurd h (rounds_add ha hb ha' hb' hu hv).nearest.defined
  · rintro (rfl | rfl | ⟨rfl, rfl⟩ | ⟨rfl, rfl⟩)
    · exact stored_notANumber
    · rcases a with _ | _ | _ | _ <;> exact stored_notANumber
    · exact stored_notANumber
    · exact stored_notANumber

theorem value_infinity_mul (s s' : Sign) {x : ℝ} (hx : 0 < x) :
    value (.infinity s) * (signed s' x : ℝ) = value (.infinity (s * s')) := by
  have hneg : -x < 0 := neg_lt_zero.mpr hx
  rcases s with _ | _ <;> rcases s' with _ | _
  · exact EReal.bot_mul_coe_of_neg hneg
  · exact EReal.bot_mul_coe_of_pos hx
  · exact EReal.top_mul_coe_of_neg hneg
  · exact EReal.top_mul_coe_of_pos hx

theorem mul_infinity_right {s : Sign} {m : ℕ} {e : ℤ} (hm : 0 < m) (s' : Sign) :
    mul spec (.finite s m e hm) (.infinity s') = .infinity (s * s') := rfl

/-- A stored product is nearest to the product of the numbers, unless it is undefined. -/
theorem nearest_mul {a b : UnpackedFloat} (ha : Canonical spec a) (hb : Canonical spec b)
    (h : stored spec (mul spec a b) ≠ .notANumber) :
    Nearest spec (value a * value b) (stored spec (mul spec a b)) := by
  have hnan : stored spec .notANumber = .notANumber := stored_notANumber
  by_cases ha' : a = .notANumber
  · exact absurd (by rw [ha']; exact hnan) h
  by_cases hb' : b = .notANumber
  · refine absurd ?_ h
    rw [hb']
    rcases a with _ | _ | _ | _ <;> exact hnan
  rcases eq_infinity_or_coe ha' with ⟨s, rfl⟩ | ⟨u, hu⟩ <;>
    rcases eq_infinity_or_coe hb' with ⟨s', rfl⟩ | ⟨v, hv⟩
  · have : value (.infinity s) * value (.infinity s') = value (.infinity (s * s')) := by
      rcases s with _ | _ <;> rcases s' with _ | _
      · exact EReal.bot_mul_bot
      · exact EReal.bot_mul_top
      · exact EReal.top_mul_bot
      · exact EReal.top_mul_top
    rw [this, mul, stored_infinity]
    exact nearest_value nofun
  · rcases eq_zero_or_finite hb' hv with ⟨s', rfl, -⟩ | ⟨s', m, e, hm, rfl, rfl⟩
    · exact absurd hnan h
    · rw [hv, value_infinity_mul s s' (scaled_pos hm e), mul, stored_infinity]
      exact nearest_value nofun
  · rcases eq_zero_or_finite ha' hu with ⟨s, rfl, -⟩ | ⟨s, m, e, hm, rfl, rfl⟩
    · exact absurd hnan h
    · have : s * s' = s' * s := by rcases s with _ | _ <;> rcases s' with _ | _ <;> rfl
      rw [hu, mul_comm, value_infinity_mul s' s (scaled_pos hm e), mul, this, stored_infinity]
      exact nearest_value nofun
  · rw [hu, hv, ← EReal.coe_mul]
    exact (rounds_mul ha hb ha' hb' hu hv).nearest

/-! ## Signs -/

theorem value_unpack_nonneg (e : BitVec spec.exponentBits)
    (m : BitVec spec.mantissaBitsWithoutImplicit) :
    0 ≤ value (unpack spec (packComponents spec .positive e m)) := by
  unfold unpack
  simp only [unpackMantissa_packComponents, unpackExponent_packComponents,
    unpackSign_packComponents, Sign.ofBitVec_toBitVec]
  split_ifs
  · exact le_top
  · exact le_rfl
  · exact le_rfl
  · exact EReal.coe_nonneg.mpr (by simp only [signed]; positivity)
  · exact EReal.coe_nonneg.mpr (by simp only [signed]; positivity)

theorem unpack_packComponents_neg (s : Sign) (e : BitVec spec.exponentBits)
    (m : BitVec spec.mantissaBitsWithoutImplicit) :
    unpack spec (packComponents spec (-s) e m) = (unpack spec (packComponents spec s e m)).neg := by
  unfold unpack
  simp only [unpackMantissa_packComponents, unpackExponent_packComponents,
    unpackSign_packComponents, Sign.ofBitVec_toBitVec]
  split_ifs <;> rfl

/-- The sign is stored apart from the magnitude. -/
theorem stored_neg (u : UnpackedFloat) : stored spec u.neg = (stored spec u).neg := by
  rcases u with s | _ | s | ⟨s, m, e, hm⟩
  · exact (stored_infinity (-s)).trans (congrArg UnpackedFloat.neg (stored_infinity s)).symm
  · exact stored_notANumber.trans (congrArg UnpackedFloat.neg stored_notANumber).symm
  · exact (stored_zero (-s)).trans (congrArg UnpackedFloat.neg (stored_zero s)).symm
  · unfold stored UnpackedFloat.neg pack
    dsimp only
    split_ifs <;> exact unpack_packComponents_neg s _ _

theorem value_stored_nonneg {a : UnpackedFloat} (h : 0 ≤ value a) : 0 ≤ value (stored spec a) := by
  rcases a with s | _ | s | ⟨_ | _, m, e, hm⟩
  · rwa [stored_infinity]
  · exact (congrArg value stored_notANumber).ge
  · exact (congrArg value (stored_zero s)).ge
  · have := scaled_pos hm e
    have h : (0 : ℝ) ≤ -(m * 2 ^ e) := EReal.coe_nonneg.mp h
    linarith
  · unfold stored pack
    dsimp only
    split_ifs <;> exact value_unpack_nonneg _ _

theorem value_roundWithAccuracy_nonneg (m : ℕ) (e : ℤ) (acc : Accuracy) :
    0 ≤ value (roundWithAccuracy spec .positive m e acc) := by
  unfold roundWithAccuracy
  dsimp only
  split_ifs
  · exact le_rfl
  · exact EReal.coe_nonneg.mpr (by simp only [signed]; positivity)

/-- A float above zero has the sign `+`. -/
theorem eq_positive_of_pos {b : UnpackedFloat} (hb : 0 < value b) :
    b = .infinity .positive ∨ ∃ m e hm, b = .finite .positive m e hm := by
  rcases b with ⟨_ | _⟩ | _ | s | ⟨_ | _, m, e, hm⟩
  · exact absurd hb (not_lt.mpr bot_le)
  · exact .inl rfl
  · exact absurd hb (lt_irrefl 0)
  · exact absurd hb (lt_irrefl 0)
  · exact absurd (EReal.coe_pos.mp hb) (not_lt.mpr (neg_nonpos.mpr (scaled_pos hm e).le))
  · exact .inr ⟨m, e, hm, rfl⟩

/-- A quotient of numbers that are not negative is not negative. -/
theorem value_div_nonneg {a b : UnpackedFloat} (ha : 0 ≤ value a) (hb : 0 < value b) :
    0 ≤ value (stored spec (div spec a b)) := by
  apply value_stored_nonneg
  rcases ha.lt_or_eq with hpos | hzero
  · rcases eq_positive_of_pos hpos with rfl | ⟨m, e, hm, rfl⟩ <;>
      rcases eq_positive_of_pos hb with rfl | ⟨m', e', hm', rfl⟩
    · exact le_rfl
    · exact le_top
    · exact le_rfl
    · exact value_roundWithAccuracy_nonneg ..
  · rcases a with ⟨_ | _⟩ | _ | s | ⟨_ | _, m, e, hm⟩
    · exact absurd hzero EReal.zero_ne_bot
    · exact absurd hzero EReal.zero_ne_top
    · exact le_rfl
    · rcases eq_positive_of_pos hb with rfl | ⟨m', e', hm', rfl⟩ <;> exact le_rfl
    · have := neg_lt_zero.mpr (scaled_pos hm e)
      exact absurd (EReal.coe_eq_zero.mp hzero.symm) this.ne
    · exact absurd (EReal.coe_eq_zero.mp hzero.symm) (scaled_pos hm e).ne'

/-! ## Magnitudes -/

/-- The magnitude of a number. -/
theorem value_abs (a : UnpackedFloat) : value a.abs = max (value a) (-value a) := by
  rcases a with ⟨_ | _⟩ | _ | s | ⟨_ | _, m, e, hm⟩
  · exact (max_eq_right bot_le).symm
  · exact (max_eq_left le_top).symm
  · simp [UnpackedFloat.abs, value]
  · simp [UnpackedFloat.abs, value]
  · show ((m * 2 ^ e : ℝ) : EReal) =
      max ((-(m * 2 ^ e) : ℝ) : EReal) (-((-(m * 2 ^ e) : ℝ) : EReal))
    have := scaled_pos hm e
    rw [← EReal.coe_neg, neg_neg, max_eq_right (EReal.coe_le_coe_iff.mpr (by linarith))]
  · show ((m * 2 ^ e : ℝ) : EReal) = max ((m * 2 ^ e : ℝ) : EReal) (-((m * 2 ^ e : ℝ) : EReal))
    have := scaled_pos hm e
    rw [← EReal.coe_neg, max_eq_left (EReal.coe_le_coe_iff.mpr (by linarith))]

end Binary

end CurveSurvey

import CurveSurvey.Proofs.Machine

/-!
# Finite machine numbers

A machine number that is neither undefined nor infinite is a real number, and what
is computed from finite numbers is the rounded real result.

* `Machine.Represents` says that a number is defined, finite and has a given value.
* `Machine.Result.exists_between` keeps a rounded result between two numbers.
* `Machine.nullTolerance_pos`: zero counts as zero at every finite abscissa.
-/

namespace CurveSurvey

open Float.Model (UnpackedFloat)

namespace Machine

variable {K : Type} [Scalar K] [Machine K] {s t : K} {x y : ℝ}

/-! ## Finite numbers -/

/-- A machine number is defined and stands for a real number. -/
structure Represents (t : K) (x : ℝ) : Prop where
  /-- It is defined. -/
  defined : Scalar.isNaN t = false
  /-- Its value. -/
  val_eq : val t = x

theorem represents_of_unpack {m : ℕ} {e : ℤ} {hm : 0 < m} (h : unpack t = .finite .positive m e hm)
    (hx : m * 2 ^ e = x) : Represents t x :=
  ⟨isNaN_eq_false_iff.2 (by simp [h]), by rw [val, h, ← hx]; rfl⟩

theorem exists_represents (h : Scalar.isFinite t = true) : ∃ x, Represents t x := by
  rw [isFinite_eq_unpack] at h
  have hdef : unpack t ≠ .notANumber := by
    intro hnan
    rw [hnan] at h
    cases h
  rcases Binary.eq_infinity_or_coe hdef with ⟨s, hs⟩ | ⟨x, hx⟩
  · rw [hs] at h
    cases h
  · exact ⟨x, isNaN_eq_false_iff.2 hdef, hx⟩

theorem represents_or_infinite (h : Scalar.isNaN t = false) :
    (∃ y : ℝ, Represents t y) ∨ ∃ sign, unpack t = .infinity sign := by
  rcases Binary.eq_infinity_or_coe (isNaN_eq_false_iff.1 h) with hinf | ⟨y, hy⟩
  · exact .inr hinf
  · exact .inl ⟨y, h, hy⟩

theorem Represents.isFinite (h : Represents t x) : Scalar.isFinite t = true := by
  rw [isFinite_eq_unpack]
  rcases Binary.eq_zero_or_finite (isNaN_eq_false_iff.1 h.defined) h.val_eq with
    ⟨sign, hzero, -⟩ | ⟨sign, m, e, hm, hfinite, -⟩
  · rw [hzero]
    rfl
  · rw [hfinite]
    rfl

/-- A positive number has a positive mantissa. -/
theorem Represents.unpack_positive (h : Represents t x) (hx : 0 < x) :
    ∃ m e hm, unpack t = .finite .positive m e hm ∧ x = m * 2 ^ e := by
  have hpos : 0 < Binary.value (unpack t) := by
    rw [← val, h.val_eq]
    exact EReal.coe_pos.2 hx
  have hval := h.val_eq
  rcases Binary.eq_positive_of_pos hpos with hinfinite | ⟨m, e, hm, hfinite⟩
  · rw [val, hinfinite] at hval
    exact absurd hval (EReal.top_ne_coe x)
  · rw [val, hfinite] at hval
    exact ⟨m, e, hm, hfinite, EReal.coe_injective hval.symm⟩

theorem Represents.le_iff (hs : Represents s x) (ht : Represents t y) : s ≤ t ↔ x ≤ y := by
  rw [le_iff_val, hs.val_eq, ht.val_eq, EReal.coe_le_coe_iff]
  simp [hs.defined, ht.defined]

theorem Represents.lt_iff (hs : Represents s x) (ht : Represents t y) : s < t ↔ x < y := by
  rw [lt_iff_val, hs.val_eq, ht.val_eq, EReal.coe_lt_coe_iff]
  simp [hs.defined, ht.defined]

theorem Represents.neg (h : Represents t x) : Represents (-t) (-x) :=
  ⟨by rw [isNaN_neg, h.defined], by rw [val_neg, h.val_eq, EReal.coe_neg]⟩

theorem Represents.abs (h : Represents t x) : Represents (Scalar.abs t) |x| :=
  ⟨by rw [isNaN_abs, h.defined], by
    rw [val_abs, h.val_eq, ← EReal.coe_neg, abs_eq_max_neg]
    exact (EReal.coe_strictMono.monotone.map_max).symm⟩

theorem Represents.add (hs : Represents s x) (ht : Represents t y) :
    Result ((x + y : ℝ) : EReal) (s + t) := by
  have h : Scalar.isNaN (s + t) = false := by
    rw [← Bool.not_eq_true, isNaN_add_iff]
    simp [hs.defined, ht.defined, hs.val_eq, ht.val_eq]
  rw [EReal.coe_add, ← hs.val_eq, ← ht.val_eq]
  exact result_add h

theorem Represents.sub (hs : Represents s x) (ht : Represents t y) :
    Result ((x - y : ℝ) : EReal) (s - t) := by
  have h : Scalar.isNaN (s - t) = false := by
    rw [← Bool.not_eq_true, isNaN_sub_iff]
    simp [hs.defined, ht.defined, hs.val_eq, ht.val_eq]
  rw [EReal.coe_sub, ← hs.val_eq, ← ht.val_eq]
  exact result_sub h

theorem Represents.mul (hs : Represents s x) (ht : Represents t y) :
    Result ((x * y : ℝ) : EReal) (s * t) := by
  apply result_of_nearest
  rw [unpack_mul]
  exact (Binary.rounds_mul (canonical s) (canonical t) (isNaN_eq_false_iff.1 hs.defined)
    (isNaN_eq_false_iff.1 ht.defined) hs.val_eq ht.val_eq).nearest

theorem Represents.div (hs : Represents s x) (ht : Represents t y) (hy : y ≠ 0) :
    Result ((x / y : ℝ) : EReal) (s / t) := by
  apply result_of_nearest
  rw [unpack_div]
  exact (Binary.rounds_div (isNaN_eq_false_iff.1 hs.defined) (isNaN_eq_false_iff.1 ht.defined)
    hs.val_eq ht.val_eq hy).nearest

/-- A number between two finite ones is finite. -/
theorem Represents.of_le_of_le {u : K} {z : ℝ} (hs : Represents s x) (ht : Represents t z)
    (hu : Scalar.isNaN u = false) (hlo : val s ≤ val u) (hhi : val u ≤ val t) :
    ∃ y, Represents u y ∧ x ≤ y ∧ y ≤ z := by
  rw [hs.val_eq] at hlo
  rw [ht.val_eq] at hhi
  have hcoe : ((val u).toReal : EReal) = val u :=
    EReal.coe_toReal ((hhi.trans_lt (EReal.coe_lt_top z)).ne)
      (((EReal.bot_lt_coe x).trans_le hlo).ne')
  rw [← hcoe, EReal.coe_le_coe_iff] at hlo hhi
  exact ⟨(val u).toReal, ⟨hu, hcoe.symm⟩, hlo, hhi⟩

theorem Represents.exists_of_le {u : K} {z : ℝ} (hs : Represents s x) (ht : Represents t z)
    (hlo : s ≤ u) (hhi : u ≤ t) : ∃ y, Represents u y ∧ x ≤ y ∧ y ≤ z :=
  hs.of_le_of_le ht (le_iff_val.1 hlo).2.1 (le_iff_val.1 hlo).2.2 (le_iff_val.1 hhi).2.2

/-- A machine number rounds to itself. -/
theorem Result.val_eq {u : K} {r : EReal} (h : Result r t) (hu : Scalar.isNaN u = false)
    (hr : r = val u) : val t = val u :=
  le_antisymm (h.le_of_le u hu hr.le) (h.ge_of_ge u hu hr.ge)

/-- Rounding a number between two finite ones. -/
theorem Result.exists_between {u : K} {z a : ℝ} (h : Result (a : EReal) u) (hs : Represents s x)
    (ht : Represents t z) (hlo : x ≤ a) (hhi : a ≤ z) :
    ∃ y, Represents u y ∧ x ≤ y ∧ y ≤ z := by
  refine hs.of_le_of_le ht h.defined (h.ge_of_ge s hs.defined ?_) (h.le_of_le t ht.defined ?_)
  · rw [hs.val_eq, EReal.coe_le_coe_iff]
    exact hlo
  · rw [ht.val_eq, EReal.coe_le_coe_iff]
    exact hhi

/-- Half of a number of at least one is a number, if the format is fine enough. -/
theorem Represents.exists_half (hmin : (format K).minExponent ≤ -(format K).mantissaBits)
    (h : Represents t x) (hx : 1 ≤ x) : ∃ u : K, Represents u (x / 2) := by
  obtain ⟨m, e, hm, hu, hxv⟩ := h.unpack_positive (by linarith)
  have hrep := representable t
  rw [hu] at hrep
  obtain ⟨hfits, hover⟩ := hrep
  have hexp : (format K).minExponent < e := by
    by_contra hle
    have hone : x < 1 := by
      calc x = m * 2 ^ e := hxv
        _ < 2 ^ ((format K).mantissaBits : ℤ) * 2 ^ e := by
          have : (m : ℝ) < 2 ^ ((format K).mantissaBits : ℤ) := by
            rw [zpow_natCast]
            exact_mod_cast hfits.lt
          gcongr
        _ = 2 ^ ((format K).mantissaBits + e : ℤ) := (zpow_add₀ two_ne_zero _ _).symm
        _ ≤ 2 ^ (0 : ℤ) := zpow_le_zpow_right₀ one_le_two (by omega)
        _ = 1 := zpow_zero 2
    linarith
  obtain ⟨u, hu'⟩ := exists_unpack (K := K) (.finite .positive m (e - 1) hm)
    ⟨⟨hfits.lt, by omega, .inl (hfits.full.resolve_right (by omega))⟩, by omega⟩
  refine ⟨u, isNaN_eq_false_iff.2 (by simp [hu']), ?_⟩
  rw [val, hu', Binary.value, Binary.signed, EReal.coe_eq_coe_iff, hxv, zpow_sub_one₀ two_ne_zero]
  ring

/-! ## Null tolerances -/

/-- A number strictly between two others is finite. -/
theorem isFinite_of_lt_of_lt {u : K} (hs : s < t) (ht : t < u) : Scalar.isFinite t = true := by
  obtain ⟨-, hdef, hlo⟩ := lt_iff_val.1 hs
  obtain ⟨-, -, hhi⟩ := lt_iff_val.1 ht
  rw [isFinite_eq_unpack]
  rw [isNaN_eq_false_iff] at hdef
  cases h : unpack t with
  | notANumber => exact absurd h hdef
  | infinity sign =>
    have hval : val t = Binary.value (.infinity sign) := by rw [val, h]
    rw [hval] at hlo hhi
    cases sign with
    | positive => exact absurd hhi not_top_lt
    | negative => exact absurd hlo not_lt_bot
  | zero sign => rfl
  | finite sign m e hm => rfl

end Machine

open Machine

section

variable {K : Type} [Precision K] [Machine K] {x : K}

/-- The null tolerance is not below its value at zero, which is positive. -/
theorem Machine.nullTolerance_pos {r : ℝ} (hone : Represents (1 : K) 1)
    (hroot : Represents (Scalar.sqrt Precision.relativePrecision : K) r) (hr : 0 < r)
    (hx : Scalar.isFinite x = true) : 0 < Precision.nullTolerance x := by
  obtain ⟨a, ha⟩ := exists_represents hx
  have hlarger : ∃ l, Represents (Scalar.larger (Scalar.abs x) 1) l ∧ 1 ≤ l := by
    unfold Scalar.larger
    rw [ha.abs.defined]
    simp only [Bool.false_eq_true, if_false]
    split
    · exact ⟨1, hone, le_rfl⟩
    · rename_i hlt
      rw [ha.abs.lt_iff hone, not_lt] at hlt
      exact ⟨|a|, ha.abs, hlt⟩
  obtain ⟨l, hl, h1⟩ := hlarger
  have hmul := hroot.mul hl
  have hge := hmul.ge_of_ge _ hroot.defined (by
    rw [hroot.val_eq, EReal.coe_le_coe_iff]
    exact le_mul_of_one_le_right hr.le h1)
  refine lt_iff_val.2 ⟨isNaN_zero, hmul.defined, ?_⟩
  rw [hroot.val_eq] at hge
  rw [val_zero]
  exact (EReal.coe_pos.2 hr).trans_le hge

end

/-- A precision in which zero counts as zero. -/
class TolerantPrecision (K : Type) [Precision K] : Prop where
  /-- The null tolerance is positive. -/
  nullTolerance_pos : ∀ {x : K}, Scalar.isFinite x = true → 0 < Precision.nullTolerance x

instance : TolerantPrecision Float where
  nullTolerance_pos := by
    intro x hx
    have hone : unpack (1 : Float) = .finite .positive (2 ^ 52) (-52) (by decide) := rfl
    have hsqrt : (Scalar.sqrt Precision.relativePrecision : Float) =
        Float.ofBits 0x3e50000000000000 := by decide +kernel
    have hroot : unpack (Scalar.sqrt Precision.relativePrecision : Float) =
        .finite .positive (2 ^ 52) (-78) (by decide) := by
      rw [hsqrt]
      rfl
    exact Machine.nullTolerance_pos (represents_of_unpack hone (by norm_num))
      (represents_of_unpack hroot rfl) (by norm_num) hx

instance : TolerantPrecision Float32 where
  nullTolerance_pos := by
    intro x hx
    have hone : unpack (1 : Float32) = .finite .positive (2 ^ 23) (-23) (by decide) := rfl
    have hsqrt : (Scalar.sqrt Precision.relativePrecision : Float32) =
        Float32.ofBits 0x39b504f3 := by decide +kernel
    have hroot : unpack (Scalar.sqrt Precision.relativePrecision : Float32) =
        .finite .positive 11863283 (-35) (by decide) := by
      rw [hsqrt]
      rfl
    exact Machine.nullTolerance_pos (represents_of_unpack hone (by norm_num))
      (represents_of_unpack hroot rfl) (by norm_num) hx

end CurveSurvey

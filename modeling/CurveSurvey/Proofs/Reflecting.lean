import CurveSurvey.Proofs.Refinement.Opposite

/-!
# Arithmetic on both sides of zero

What a scan needs to know of its numbers to run alike in both directions.

* `ReflectingPrecision` says what becomes of zeros and of infinite numbers, and that an
  infinite abscissa is accurate enough for anything.
* Single and double precision are instances.
-/

namespace CurveSurvey

/-- A precision that computes alike on both sides of zero. -/
class ReflectingPrecision (K : Type) [Precision K] : Prop
    extends RefiningPrecision K, StridingPrecision K where
  /-- The grid has a positive step. -/
  gridStep_pos : (0 : K) < Precision.gridStep
  /-- Zero has two forms. -/
  zero_cases : ∀ {s : K}, (s == 0) = true → s = 0 ∨ s = -0
  /-- A multiple of zero is zero, if it is anything. -/
  zero_mul : ∀ {s : K}, (s == 0) = true → ∀ t, Scalar.isNaN (s * t) = true ∨ (s * t == 0) = true
  /-- So is a part of zero. -/
  zero_div : ∀ {s : K}, (s == 0) = true → ∀ t, Scalar.isNaN (s / t) = true ∨ (s / t == 0) = true
  /-- Nothing defined is made of an undefined number. -/
  isNaN_add : ∀ {s : K}, Scalar.isNaN s = true → ∀ t, Scalar.isNaN (s + t) = true
  isNaN_mul : ∀ {t : K}, Scalar.isNaN t = true → ∀ s, Scalar.isNaN (s * t) = true
  /-- The half of a defined number is defined. -/
  half_defined : ∀ {t : K}, Scalar.isNaN t = false → Scalar.isNaN (0.5 * t) = false
  /-- Finite and defined numbers have defined sums. -/
  add_defined : ∀ {s t : K}, Scalar.isFinite s = true → Scalar.isNaN t = false →
    Scalar.isNaN (s + t) = false
  /-- A number has a defined sum with its mean with another one, if they have a mean. -/
  add_mean_defined : ∀ {s t : K}, Scalar.isNaN (s + t) = false →
    Scalar.isNaN (s + 0.5 * (s + t)) = false
  /-- Only equal infinite numbers have no difference. -/
  eq_of_isNaN_sub : ∀ {s t : K}, Scalar.isNaN s = false → Scalar.isNaN t = false →
    Scalar.isNaN (s - t) = true → s = t
  /-- The accuracy asked of a change of sign is defined where its abscissa is. -/
  accuracy_nonneg : ∀ {precision x : K}, 0 < precision → Scalar.isNaN x = false →
    0 ≤ 2 * Precision.relativePrecision * Scalar.abs x + 0.5 * precision
  /-- At an infinite abscissa, nothing is required of it. -/
  le_accuracy : ∀ {precision x t : K}, 0 < precision → Scalar.isNaN x = false →
    Scalar.isFinite x = false → Scalar.isNaN t = false →
    Scalar.abs t ≤ 2 * Precision.relativePrecision * Scalar.abs x + 0.5 * precision

/-! ## Machine numbers -/

namespace Machine

open Float.Model (UnpackedFloat)

section

variable {K : Type} [Scalar K] [Machine K] {s t : K}

theorem unpack_of_beq_zero (h : (s == 0) = true) : ∃ sign, unpack s = .zero sign := by
  have halike := same_iff_alike.1 (.inr h : Scalar.Same s 0)
  rw [unpack_zero] at halike
  generalize unpack s = u at halike ⊢
  cases halike with
  | refl => exact ⟨_, rfl⟩
  | zero => exact ⟨_, rfl⟩

theorem beq_zero_of_unpack {sign : UnpackedFloat.Sign} (h : unpack s = .zero sign) :
    (s == 0) = true := by
  rw [beq_eq_unpack, unpack_zero, h]
  cases sign <;> rfl

theorem eq_of_isNaN_sub (hinj : Function.Injective (unpack : K → UnpackedFloat))
    (hs : Scalar.isNaN s = false) (ht : Scalar.isNaN t = false)
    (h : Scalar.isNaN (s - t) = true) : s = t := by
  rcases isNaN_sub_iff.1 h with h | h | ⟨hs, ht⟩ | ⟨hs, ht⟩
  · rw [hs] at h
    cases h
  · rw [ht] at h
    cases h
  · exact hinj ((Binary.value_eq_top_iff.1 hs).trans (Binary.value_eq_top_iff.1 ht).symm)
  · exact hinj ((Binary.value_eq_bot_iff.1 hs).trans (Binary.value_eq_bot_iff.1 ht).symm)

/-- The mean with an infinite number is that infinite number. -/
theorem defined_add_mean (hhalf : Represents (0.5 : K) (1 / 2))
    (h : Scalar.isNaN (s + t) = false) : Scalar.isNaN (s + 0.5 * (s + t)) = false := by
  have hs := (defined_of_add h).1
  have hmean := hhalf.defined_mul (by norm_num) h
  -- rounding keeps the infinite value
  have hval : val s + val t = val s → ((1 / 2 : ℝ) : EReal) * val s = val s →
      val (0.5 * (s + t)) = val s := by
    intro hsum hproduct
    refine (result_mul hmean).val_eq hs ?_
    rw [hhalf.val_eq, (result_add h).val_eq hs hsum, hproduct]
  rw [← Bool.not_eq_true, isNaN_add_iff, hs, hmean]
  rw [← Bool.not_eq_true, isNaN_add_iff] at h
  simp only [not_or, not_and] at h
  rintro (hnan | hnan | ⟨htop, hbot⟩ | ⟨hbot, htop⟩)
  · cases hnan
  · cases hnan
  · rw [hval, htop] at hbot
    · cases hbot
    · rw [htop, EReal.top_add_of_ne_bot (h.2.2.1 htop)]
    · rw [htop, EReal.coe_mul_top_of_pos (by norm_num)]
  · rw [hval, hbot] at htop
    · cases htop
    · rw [hbot, EReal.bot_add]
    · rw [hbot, EReal.coe_mul_bot_of_pos (by norm_num)]

theorem isNaN_or_beq_zero_mul (hs : (s == 0) = true) (t : K) :
    Scalar.isNaN (s * t) = true ∨ (s * t == 0) = true := by
  obtain ⟨sign, hs⟩ := unpack_of_beq_zero hs
  have hproduct := unpack_mul s t
  rw [hs] at hproduct
  cases ht : unpack t with
  | notANumber | infinity sign' =>
    rw [ht] at hproduct
    exact .inl (isNaN_iff.2 (hproduct.trans Binary.stored_notANumber))
  | zero sign' | finite sign' m e hm =>
    rw [ht] at hproduct
    exact .inr (beq_zero_of_unpack (hproduct.trans (Binary.stored_zero _)))

theorem isNaN_or_beq_zero_div (hs : (s == 0) = true) (t : K) :
    Scalar.isNaN (s / t) = true ∨ (s / t == 0) = true := by
  obtain ⟨sign, hs⟩ := unpack_of_beq_zero hs
  have hquotient := unpack_div s t
  rw [hs] at hquotient
  cases ht : unpack t with
  | notANumber | zero sign' =>
    rw [ht] at hquotient
    exact .inl (isNaN_iff.2 (hquotient.trans Binary.stored_notANumber))
  | infinity sign' | finite sign' m e hm =>
    rw [ht] at hquotient
    exact .inr (beq_zero_of_unpack (hquotient.trans (Binary.stored_zero _)))

/-- Only infinities of different signs have no sum. -/
theorem defined_add_of_nonneg (hs : Scalar.isNaN s = false) (ht : Scalar.isNaN t = false)
    (hspos : 0 ≤ val s) (htpos : 0 ≤ val t) : Scalar.isNaN (s + t) = false := by
  rw [← Bool.not_eq_true, isNaN_add_iff, hs, ht]
  rintro (h | h | ⟨-, h⟩ | ⟨h, -⟩)
  · cases h
  · cases h
  · exact (EReal.bot_lt_zero.trans_le htpos).ne' h
  · exact (EReal.bot_lt_zero.trans_le hspos).ne' h

theorem val_abs_of_infinite (hs : Scalar.isNaN s = false) (h : Scalar.isFinite s = false) :
    val (Scalar.abs s) = ⊤ := by
  rcases represents_or_infinite hs with ⟨y, hy⟩ | ⟨sign, hsign⟩
  · rw [hy.isFinite] at h
    cases h
  · rw [val, unpack_abs_eq, hsign]
    rfl

end

section

variable {K : Type} [Precision K] [Machine K]

/-- Neither part of an accuracy is negative, and an infinite abscissa makes it infinite. -/
theorem val_accuracy {r : ℝ} (hr : 0 < r)
    (hrelative : Represents (2 * Precision.relativePrecision : K) r)
    (hhalf : Represents (0.5 : K) (1 / 2)) {precision x : K} (hpos : 0 < precision)
    (hx : Scalar.isNaN x = false) :
    let accuracy := 2 * Precision.relativePrecision * Scalar.abs x + 0.5 * precision
    Scalar.isNaN accuracy = false ∧ 0 ≤ val accuracy ∧
      (Scalar.isFinite x = false → val accuracy = ⊤) := by
  intro accuracy
  obtain ⟨-, hprecision, hpos⟩ := lt_iff_val.1 hpos
  rw [val_zero] at hpos
  have habs : Scalar.isNaN (Scalar.abs x) = false := by rwa [isNaN_abs]
  have hfirst := hrelative.defined_mul hr.ne' habs
  have hfirst_nonneg : 0 ≤ val (2 * Precision.relativePrecision * Scalar.abs x) :=
    val_mul_nonneg (by rw [hrelative.val_eq]; exact_mod_cast hr.le) (val_abs_nonneg x)
  have hsecond := hhalf.defined_mul (by norm_num) hprecision
  have hsecond_nonneg : 0 ≤ val (0.5 * precision) :=
    val_mul_nonneg (by rw [hhalf.val_eq]; exact_mod_cast (by norm_num : (0 : ℝ) ≤ 1 / 2)) hpos.le
  have hdefined : Scalar.isNaN accuracy = false :=
    defined_add_of_nonneg hfirst hsecond hfirst_nonneg hsecond_nonneg
  refine ⟨hdefined, ?_, fun hinfinite => ?_⟩
  · simpa using (result_add hdefined).ge_of_ge 0 isNaN_zero
      (by simpa using add_nonneg hfirst_nonneg hsecond_nonneg)
  · have hval := val_abs_of_infinite hx hinfinite
    have htop : val (2 * Precision.relativePrecision * Scalar.abs x) = ⊤ := by
      refine top_le_iff.1 (hval ▸ (result_mul hfirst).ge_of_ge _ habs ?_)
      rw [hrelative.val_eq, hval, EReal.coe_mul_top_of_pos hr]
    refine top_le_iff.1 (hval ▸ (result_add hdefined).ge_of_ge _ habs ?_)
    rw [htop, hval, EReal.top_add_of_ne_bot (EReal.bot_lt_zero.trans_le hsecond_nonneg).ne']

theorem reflectingPrecision [RefiningPrecision K] [StridingPrecision K]
    (hinj : Function.Injective (unpack : K → UnpackedFloat)) {r : ℝ} (hr : 0 < r)
    (hrelative : Represents (2 * Precision.relativePrecision : K) r)
    (hhalf : Represents (0.5 : K) (1 / 2)) (hgrid : (0 : K) < Precision.gridStep) :
    ReflectingPrecision K where
  zero_cases {s} h := by
    obtain ⟨sign, hs⟩ := unpack_of_beq_zero h
    cases sign with
    | positive => exact .inl (hinj (hs.trans unpack_zero.symm))
    | negative =>
      refine .inr (hinj (hs.trans ?_))
      rw [unpack_neg_eq, unpack_zero]
      rfl
  zero_mul := isNaN_or_beq_zero_mul
  zero_div := isNaN_or_beq_zero_div
  gridStep_pos := hgrid
  isNaN_add h _ := isNaN_add_iff.2 (.inl h)
  isNaN_mul h _ := isNaN_mul_of_right h
  half_defined h := hhalf.defined_mul (by norm_num) h
  add_mean_defined := defined_add_mean hhalf
  add_defined hs ht := (exists_represents hs).elim fun _ hs => hs.defined_add ht
  eq_of_isNaN_sub := eq_of_isNaN_sub hinj
  accuracy_nonneg hpos hx := by
    obtain ⟨hdefined, hnonneg, -⟩ := val_accuracy hr hrelative hhalf hpos hx
    exact le_iff_val.2 ⟨isNaN_zero, hdefined, val_zero.trans_le hnonneg⟩
  le_accuracy hpos hx hinfinite ht := by
    obtain ⟨hdefined, -, htop⟩ := val_accuracy hr hrelative hhalf hpos hx
    refine le_iff_val.2 ⟨by rwa [isNaN_abs], hdefined, ?_⟩
    rw [htop hinfinite]
    exact le_top

end

end Machine

instance : ReflectingPrecision Float :=
  Machine.reflectingPrecision Machine.unpack_injective_float (r := 2 ^ (-51 : ℤ)) (by positivity)
    (Machine.represents_of_unpack
      (show Machine.unpack _ = .finite .positive (2 ^ 52) (-103) (by decide) from rfl)
      (by norm_num))
    (Machine.represents_of_unpack
      (show Machine.unpack _ = .finite .positive (2 ^ 52) (-53) (by decide) from rfl)
      (by norm_num))
    (by decide +kernel)

instance : ReflectingPrecision Float32 :=
  Machine.reflectingPrecision Machine.unpack_injective_float32 (r := 2 ^ (-22 : ℤ)) (by positivity)
    (Machine.represents_of_unpack
      (show Machine.unpack _ = .finite .positive (2 ^ 23) (-45) (by decide) from rfl)
      (by norm_num))
    (Machine.represents_of_unpack
      (show Machine.unpack _ = .finite .positive (2 ^ 23) (-24) (by decide) from rfl)
      (by norm_num))
    (by decide +kernel)

end CurveSurvey

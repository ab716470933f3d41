import CurveSurvey.Proofs.Binary.Symmetry
import CurveSurvey.Proofs.Interval
import CurveSurvey.Proofs.Machine

/-!
# Numerical equality

Two scalars are numerically the same when they are equal or both undefined.  The
comparisons cannot tell such numbers apart, and neither can arithmetic, as long as no
division by zero brings out the sign of the zero.

* `InvolutiveScalar`: the negative undoes itself, and a number and its negative have the
  same magnitude.
* `NumericScalar`: sums, products and quotients treat both signs alike, and only zero has
  two forms.
* Single and double precision are instances.
-/

namespace CurveSurvey

open Float.Model (UnpackedFloat)

/-- A scalar type whose negation undoes itself. -/
class InvolutiveScalar (K : Type) [Scalar K] : Prop extends SignedScalar K where
  /-- Negation undoes itself. -/
  neg_neg : ∀ t : K, -(-t) = t
  /-- The negative of zero is not below zero. -/
  zero_le_neg : (0 : K) ≤ -0
  /-- A magnitude has no sign. -/
  abs_neg : ∀ t : K, Scalar.abs (-t) = Scalar.abs t
  /-- Equal numbers have one magnitude. -/
  abs_same : ∀ {s t : K}, Scalar.Same s t → Scalar.abs s = Scalar.abs t

/-! ## Equality -/

namespace Scalar

section

variable {K : Type} [Scalar K] {s s' t t' u : K}

theorem beq_self (h : isNaN s = false) : (s == s) = true := by
  simpa [isNaN] using h

theorem Same.refl (s : K) : Same s s := by
  cases h : isNaN s with
  | true => exact .inl ⟨h, h⟩
  | false => exact .inr (beq_self h)

theorem Same.of_eq (h : s = t) : Same s t := h ▸ refl s

variable [OrderedScalar K]

namespace Same

theorem isNaN_eq (h : Same s t) : isNaN s = isNaN t := by
  rcases h with ⟨hs, ht⟩ | h
  · rw [hs, ht]
  · have := OrderedScalar.defined_of_le (OrderedScalar.beq_iff.1 h).1
    rw [this.1, this.2]

theorem le_iff (h : Same s s') (h' : Same t t') : s ≤ t ↔ s' ≤ t' := by
  rcases h with ⟨hs, hs'⟩ | h
  · refine iff_of_false (fun hle => ?_) fun hle => ?_
    · simp [(OrderedScalar.defined_of_le hle).1] at hs
    · simp [(OrderedScalar.defined_of_le hle).1] at hs'
  rcases h' with ⟨ht, ht'⟩ | h'
  · refine iff_of_false (fun hle => ?_) fun hle => ?_
    · simp [(OrderedScalar.defined_of_le hle).2] at ht
    · simp [(OrderedScalar.defined_of_le hle).2] at ht'
  obtain ⟨hss', hs's⟩ := OrderedScalar.beq_iff.1 h
  obtain ⟨htt', ht't⟩ := OrderedScalar.beq_iff.1 h'
  exact ⟨fun hle => OrderedScalar.trans hs's (OrderedScalar.trans hle htt'),
    fun hle => OrderedScalar.trans hss' (OrderedScalar.trans hle ht't)⟩

theorem lt_iff (h : Same s s') (h' : Same t t') : s < t ↔ s' < t' := by
  rw [OrderedScalar.lt_iff, OrderedScalar.lt_iff, h.le_iff h', h'.le_iff h]

theorem beq_eq (h : Same s s') (h' : Same t t') : (s == t) = (s' == t') := by
  rw [Bool.eq_iff_iff, OrderedScalar.beq_iff, OrderedScalar.beq_iff, h.le_iff h', h'.le_iff h]

theorem symm (h : Same s t) : Same t s := by
  rcases h with ⟨hs, ht⟩ | h
  · exact .inl ⟨ht, hs⟩
  · exact .inr (OrderedScalar.beq_iff.2 (OrderedScalar.beq_iff.1 h).symm)

theorem trans (h : Same s t) (h' : Same t u) : Same s u := by
  rcases h with ⟨hs, ht⟩ | h
  · exact .inl ⟨hs, h'.isNaN_eq ▸ ht⟩
  · rw [(Same.refl s).beq_eq h'] at h
    exact .inr h

end Same

end

/-! ## Signs -/

section

variable {K : Type} [Scalar K] [InvolutiveScalar K] {s t : K}

theorem neg_le_neg_iff : -s ≤ -t ↔ t ≤ s := by
  refine ⟨fun h => ?_, SignedScalar.neg_le_neg⟩
  have := SignedScalar.neg_le_neg h
  rwa [InvolutiveScalar.neg_neg, InvolutiveScalar.neg_neg] at this

theorem neg_lt_neg_iff : -s < -t ↔ t < s := by
  rw [OrderedScalar.lt_iff, OrderedScalar.lt_iff, neg_le_neg_iff, neg_le_neg_iff]

theorem neg_beq_neg : (-s == -t) = (s == t) := by
  rw [Bool.eq_iff_iff, OrderedScalar.beq_iff, OrderedScalar.beq_iff, neg_le_neg_iff,
    neg_le_neg_iff, and_comm]

@[simp] theorem isNaN_neg (t : K) : isNaN (-t) = isNaN t := by
  rw [isNaN, isNaN, neg_beq_neg]

theorem same_neg_zero : Same (-0 : K) 0 :=
  .inr (OrderedScalar.beq_iff.2 ⟨SignedScalar.neg_zero_le, InvolutiveScalar.zero_le_neg⟩)

theorem neg_lt_zero_iff : -t < 0 ↔ 0 < t := by
  rw [← neg_lt_neg_iff, InvolutiveScalar.neg_neg, same_neg_zero.lt_iff (.refl t)]

theorem zero_lt_neg_iff : 0 < -t ↔ t < 0 := by
  rw [← neg_lt_zero_iff, InvolutiveScalar.neg_neg]

theorem neg_beq_zero : (-t == 0) = (t == 0) := by
  rw [← neg_beq_neg, InvolutiveScalar.neg_neg, (Same.refl t).beq_eq same_neg_zero]

theorem isNaN_zero : isNaN (0 : K) = false :=
  (OrderedScalar.defined_of_le (InvolutiveScalar.zero_le_neg (K := K))).1

theorem lt_or_gt_of_ne_zero (hdef : isNaN t = false) (hne : (t == 0) = false) :
    t < 0 ∨ 0 < t := by
  by_contra hnone
  rw [not_or] at hnone
  have heq : (t == 0) = true := OrderedScalar.beq_iff.2
    ⟨le_of_not_lt hdef isNaN_zero hnone.2, le_of_not_lt isNaN_zero hdef hnone.1⟩
  rw [hne] at heq
  cases heq

theorem Same.neg (h : Same s t) : Same (-s) (-t) := by
  rcases h with ⟨hs, ht⟩ | h
  · exact .inl ⟨by rwa [isNaN_neg], by rwa [isNaN_neg]⟩
  · exact .inr (by rwa [neg_beq_neg])

end

end Scalar

/-- A scalar type whose arithmetic treats both signs alike, and equal numbers as one but for
the sign of a zero. -/
class NumericScalar (K : Type) [Scalar K] : Prop extends InvolutiveScalar K where
  /-- Only zero has two forms. -/
  eq_or_zero : ∀ {s t : K}, Scalar.Same s t → s = t ∨ (s == 0) = true ∧ (t == 0) = true
  isNaN_abs : ∀ t : K, Scalar.isNaN (Scalar.abs t) = Scalar.isNaN t
  /-- A number that is not negative is its own magnitude. -/
  abs_of_nonneg : ∀ {t : K}, 0 ≤ t → Scalar.Same (Scalar.abs t) t
  isFinite_same : ∀ {s t : K}, Scalar.Same s t → Scalar.isFinite s = Scalar.isFinite t
  isFinite_neg : ∀ t : K, Scalar.isFinite (-t) = Scalar.isFinite t
  /-- A difference is the sum with the negative. -/
  sub_eq : ∀ s t : K, s - t = s + -t
  add_comm : ∀ s t : K, s + t = t + s
  add_same : ∀ {s t : K}, Scalar.Same s t → ∀ u, Scalar.Same (s + u) (t + u)
  /-- Rounding a sum treats both signs alike. -/
  neg_add : ∀ s t : K, Scalar.Same (-s + -t) (-(s + t))
  mul_comm : ∀ s t : K, s * t = t * s
  mul_same : ∀ {s t : K}, Scalar.Same s t → ∀ u, Scalar.Same (s * u) (t * u)
  neg_mul : ∀ s t : K, -s * t = -(s * t)
  div_same : ∀ {s t : K}, Scalar.Same s t → ∀ u, Scalar.Same (s / u) (t / u)
  neg_div : ∀ s t : K, -s / t = -(s / t)
  div_neg : ∀ s t : K, s / -t = -(s / t)
  /-- A zero divisor passes on nothing but its sign. -/
  abs_div_same : ∀ {s t : K}, Scalar.Same s t → ∀ u, Scalar.abs (u / s) = Scalar.abs (u / t)
  round_same : ∀ {s t : K}, Scalar.Same s t → Scalar.Same (Scalar.round s) (Scalar.round t)
  /-- Halves are rounded away from zero on either side. -/
  round_neg : ∀ t : K, Scalar.Same (Scalar.round (-t)) (-Scalar.round t)

/-! ## Arithmetic -/

namespace Scalar

variable {K : Type} [Scalar K] [NumericScalar K] {s s' t t' : K}

/-- Numbers that are the same and not zero are one number. -/
theorem Same.eq_of_ne_zero (h : Same s t) (ht : (t == 0) = false) : s = t := by
  rcases NumericScalar.eq_or_zero h with h | ⟨-, hzero⟩
  · exact h
  · rw [ht] at hzero
    cases hzero

theorem abs_nonneg (h : isNaN t = false) : 0 ≤ abs t := by
  rcases OrderedScalar.total isNaN_zero h with hpos | hneg
  · exact ((Same.refl 0).le_iff (NumericScalar.abs_of_nonneg hpos)).2 hpos
  · have hpos : 0 ≤ -t := by
      rwa [← neg_le_neg_iff, InvolutiveScalar.neg_neg, (Same.refl t).le_iff same_neg_zero]
    rw [← InvolutiveScalar.abs_neg]
    exact ((Same.refl 0).le_iff (NumericScalar.abs_of_nonneg hpos)).2 hpos

/-- No magnitude is below that of a zero. -/
theorem not_abs_lt_of_beq_zero (ht : (t == 0) = true) : ¬ abs s < abs t := by
  intro hlt
  have hzero : Same (abs t) 0 :=
    (NumericScalar.abs_of_nonneg (OrderedScalar.beq_iff.1 ht).2).trans (.inr ht)
  have hs := (defined_of_lt hlt).1
  rw [NumericScalar.isNaN_abs] at hs
  exact not_le_of_lt (((Same.refl _).lt_iff hzero).1 hlt) (abs_nonneg hs)

theorem Same.add (h : Same s s') (h' : Same t t') : Same (s + t) (s' + t') := by
  have hright := NumericScalar.add_same h' s'
  rw [NumericScalar.add_comm t, NumericScalar.add_comm t'] at hright
  exact (NumericScalar.add_same h t).trans hright

theorem Same.sub (h : Same s s') (h' : Same t t') : Same (s - t) (s' - t') := by
  rw [NumericScalar.sub_eq, NumericScalar.sub_eq]
  exact h.add h'.neg

theorem Same.mul (h : Same s s') (h' : Same t t') : Same (s * t) (s' * t') := by
  have hright := NumericScalar.mul_same h' s'
  rw [NumericScalar.mul_comm t, NumericScalar.mul_comm t'] at hright
  exact (NumericScalar.mul_same h t).trans hright

theorem Same.smaller (h : Same s s') (h' : Same t t') :
    Same (smaller s t) (smaller s' t') := by
  unfold Scalar.smaller
  rw [h.isNaN_eq]
  simp only [h'.lt_iff h]
  split
  · exact h'
  · split
    · exact h'
    · exact h

theorem mul_neg (s t : K) : s * -t = -(s * t) := by
  rw [NumericScalar.mul_comm, NumericScalar.neg_mul, NumericScalar.mul_comm]

theorem neg_div_neg (s t : K) : -s / -t = s / t := by
  rw [NumericScalar.neg_div, NumericScalar.div_neg, InvolutiveScalar.neg_neg]

theorem same_neg_sub_neg (s t : K) : Same (-s - -t) (-(s - t)) := by
  rw [NumericScalar.sub_eq, NumericScalar.sub_eq]
  exact NumericScalar.neg_add s (-t)

/-- A difference and the one with exchanged operands. -/
theorem same_sub_comm (s t : K) : Same (t - s) (-(s - t)) := by
  have h := NumericScalar.neg_add s (-t)
  rw [InvolutiveScalar.neg_neg, NumericScalar.add_comm, ← NumericScalar.sub_eq,
    ← NumericScalar.sub_eq] at h
  exact h

end Scalar

/-! ## Machine numbers -/

namespace Machine

variable {K : Type} [Scalar K] [Machine K] {s t : K}

theorem same_iff_alike : Scalar.Same s t ↔ Binary.Alike (unpack s) (unpack t) := by
  rw [Scalar.Same, isNaN_iff, isNaN_iff, beq_eq_unpack, Binary.alike_iff, or_comm]

/-- Two machine numbers are one if their parts are the same. -/
theorem involutiveScalar (hinj : Function.Injective (unpack : K → UnpackedFloat)) :
    InvolutiveScalar K where
  neg_neg t := hinj (by rw [unpack_neg_eq, unpack_neg_eq, Binary.neg_neg_eq])
  zero_le_neg := by simp [le_iff_val]
  abs_neg t := hinj (by rw [unpack_abs_eq, unpack_abs_eq, unpack_neg_eq, Binary.abs_neg])
  abs_same h := hinj (by rw [unpack_abs_eq, unpack_abs_eq, (same_iff_alike.1 h).abs_eq])

theorem eq_or_zero_of_same (hinj : Function.Injective (unpack : K → UnpackedFloat))
    (h : Scalar.Same s t) : s = t ∨ (s == 0) = true ∧ (t == 0) = true := by
  rw [same_iff_alike] at h
  rw [beq_eq_unpack, beq_eq_unpack, unpack_zero]
  generalize hs : unpack s = u at h
  generalize ht : unpack t = v at h
  cases h with
  | refl => exact .inl (hinj (hs.trans ht.symm))
  | zero => exact .inr ⟨rfl, rfl⟩

/-- The laws hold in every format if negative numbers are rounded as their magnitudes are. -/
theorem numericScalar (hinj : Function.Injective (unpack : K → UnpackedFloat)) {r : K → K}
    (hround : ∀ t : K, Scalar.round t = if t < 0 then -r (-t) else if 0 < t then r t else t) :
    NumericScalar K where
  toInvolutiveScalar := involutiveScalar hinj
  eq_or_zero := eq_or_zero_of_same hinj
  isNaN_abs := isNaN_abs
  abs_of_nonneg {t} h := by
    obtain ⟨-, hdef, hle⟩ := le_iff_val.1 h
    rw [val_zero] at hle
    refine .inr (beq_iff_val.2 ⟨by rwa [isNaN_abs], hdef, ?_⟩)
    rw [val_abs, max_eq_left (((EReal.neg_le_neg_iff.2 hle).trans_eq neg_zero).trans hle)]
  isFinite_same h := by
    rw [isFinite_eq_unpack, isFinite_eq_unpack, (same_iff_alike.1 h).isFinite_eq]
  isFinite_neg t := by
    rw [isFinite_eq_unpack, isFinite_eq_unpack, unpack_neg_eq]
    cases unpack t <;> rfl
  sub_eq s t := hinj (unpack_sub_eq s t)
  add_comm s t := hinj (by rw [unpack_add, unpack_add, Binary.add_comm])
  add_same h u := by
    rw [same_iff_alike, unpack_add, unpack_add]
    exact ((same_iff_alike.1 h).add_left _).stored
  neg_add s t := by
    rw [same_iff_alike, unpack_add, unpack_neg_eq, unpack_neg_eq, unpack_neg_eq, unpack_add,
      ← Binary.stored_neg]
    exact (Binary.alike_neg_add _ _).stored
  mul_comm s t := hinj (by rw [unpack_mul, unpack_mul, Binary.mul_comm])
  mul_same h u := by
    rw [same_iff_alike, unpack_mul, unpack_mul]
    exact ((same_iff_alike.1 h).mul_left _).stored
  neg_mul s t := hinj (by
    rw [unpack_mul, unpack_neg_eq, unpack_neg_eq, unpack_mul, Binary.mul_neg_left,
      Binary.stored_neg])
  div_same h u := by
    rw [same_iff_alike, unpack_div, unpack_div]
    exact ((same_iff_alike.1 h).div_left _).stored
  neg_div s t := hinj (by
    rw [unpack_div, unpack_neg_eq, unpack_neg_eq, unpack_div, Binary.div_neg_left,
      Binary.stored_neg])
  div_neg s t := hinj (by
    rw [unpack_div, unpack_neg_eq, unpack_neg_eq, unpack_div, Binary.div_neg_right,
      Binary.stored_neg])
  abs_div_same h u := hinj (by
    rw [unpack_abs_eq, unpack_abs_eq, unpack_div, unpack_div]
    rcases (same_iff_alike.1 h).div_right (unpack u) with h | h
    · rw [h]
    · rw [h, Binary.stored_neg, Binary.abs_neg])
  round_same {s t} h := by
    rcases eq_or_zero_of_same hinj h with rfl | ⟨hs, ht⟩
    · exact .refl _
    · have hzero : ∀ t : K, (t == 0) = true → Scalar.round t = t := by
        intro t ht
        obtain ⟨hle, hge⟩ := OrderedScalar.beq_iff.1 ht
        rw [hround, if_neg fun hlt => Scalar.not_le_of_lt hlt hge,
          if_neg fun hlt => Scalar.not_le_of_lt hlt hle]
      rwa [hzero s hs, hzero t ht]
  round_neg t := by
    have := involutiveScalar hinj
    refine .of_eq ?_
    simp only [hround, Scalar.neg_lt_zero_iff, Scalar.zero_lt_neg_iff, InvolutiveScalar.neg_neg]
    by_cases hneg : t < 0
    · rw [if_neg (Scalar.lt_asymm hneg), if_pos hneg, if_pos hneg, InvolutiveScalar.neg_neg]
    · rw [if_neg hneg, if_neg hneg]
      split <;> rfl

end Machine

/-- Equal parts come from equal bits. -/
theorem Machine.unpack_injective_float :
    Function.Injective (Machine.unpack : Float → UnpackedFloat) := fun s t h =>
  Float.toBits_inj.1 (UInt64.toBitVec_inj.1
    ((UnpackedFloat.unpack_inj_of_valid s.toModel.valid t.toModel.valid).1 h))

theorem Machine.unpack_injective_float32 :
    Function.Injective (Machine.unpack : Float32 → UnpackedFloat) := fun s t h =>
  Float32.toBits_inj.1 (UInt32.toBitVec_inj.1
    ((UnpackedFloat.unpack_inj_of_valid s.toModel.valid t.toModel.valid).1 h))

instance : NumericScalar Float :=
  Machine.numericScalar Machine.unpack_injective_float fun _ => rfl

instance : NumericScalar Float32 :=
  Machine.numericScalar Machine.unpack_injective_float32 fun _ => rfl

end CurveSurvey

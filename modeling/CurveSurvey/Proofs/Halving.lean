import CurveSurvey.Proofs.Binary.Monotone
import CurveSurvey.Proofs.Refinement.Orientation
import CurveSurvey.Proofs.Stride

/-!
# Halving

The midpoint of two numbers is computed from their sum, which may overflow.

* `HalvingScalar` is what is assumed of the arithmetic: where the doubles of two numbers are
  finite, their midpoint lies between them.
* `Machine.Represents.add_self`: a double is exact unless it overflows.
* `Machine.halvingScalar` derives the law from this for every binary format.
-/

namespace CurveSurvey

open Float.Model (Format UnpackedFloat)

/-- A scalar type in which the midpoint of two numbers lies between them, unless their doubles
overflow. -/
class HalvingScalar (K : Type) [Scalar K] : Prop extends SymmetricScalar K where
  /-- The order of the terms of a sum does not matter. -/
  add_comm : ∀ s t : K, s + t = t + s
  /-- The midpoint is not left of the left end, nor right of the right one. -/
  half_mem : ∀ {s t : K}, s ≤ t → Scalar.isFinite (s + s) = true → Scalar.isFinite (t + t) = true →
    s ≤ 0.5 * (s + t) ∧ 0.5 * (s + t) ≤ t
  /-- Between two numbers with finite doubles, all have one. -/
  isFinite_double : ∀ {s t u : K}, s ≤ t → t ≤ u → Scalar.isFinite (s + s) = true →
    Scalar.isFinite (u + u) = true → Scalar.isFinite (t + t) = true

namespace Binary

variable {spec : Format}

/-- Twice a float is a float, except for its exponent, which may be too large. -/
theorem exists_canonical_double {s : UnpackedFloat.Sign} {m : ℕ} {e : ℤ} (h : Fits spec m e)
    (hm : 0 < m) :
    ∃ u, Canonical spec u ∧ u ≠ .notANumber ∧
      value u = ((signed s (m * 2 ^ e) + signed s (m * 2 ^ e) : ℝ) : EReal) := by
  have hdouble : ∀ x : ℝ, signed s x + signed s x = signed s (2 * x) := by
    intro x
    cases s
    · simp only [signed]
      ring
    · simp only [signed]
      ring
  rw [hdouble]
  by_cases hfull : 2 ^ spec.mantissaBitsWithoutImplicit ≤ m
  · refine ⟨.finite s m (e + 1) hm, ⟨h.lt, by have := h.le; omega, .inl hfull⟩, by simp, ?_⟩
    rw [value, zpow_add_one₀ two_ne_zero]
    ring_nf
  · have hmin := h.full.resolve_left hfull
    refine ⟨.finite s (2 * m) e (by omega), ⟨?_, h.le, .inr hmin⟩, by simp, ?_⟩
    · rw [Format.mantissaBits, Nat.add_comm, pow_succ]
      omega
    · rw [value]
      push_cast
      ring_nf

end Binary

namespace Machine

variable {K : Type} [Scalar K] [Machine K] {s t : K} {x y : ℝ}

/-- A double is exact, unless it overflows. -/
theorem Represents.add_self (h : Represents s x) (hfinite : Scalar.isFinite (s + s) = true) :
    Represents (s + s) (x + x) := by
  have hs := isNaN_eq_false_iff.1 h.defined
  have hrounds := Binary.rounds_add (canonical s) (canonical s) hs hs h.val_eq h.val_eq
  obtain ⟨u, hcanonical, hdefined, hu⟩ : ∃ u, Binary.Canonical (format K) u ∧ u ≠ .notANumber ∧
      Binary.value u = ((x + x : ℝ) : EReal) := by
    rcases Binary.eq_zero_or_finite hs h.val_eq with ⟨sign, -, rfl⟩ | ⟨sign, m, e, hm, hunpack, rfl⟩
    · exact ⟨.zero sign, trivial, nofun, by rw [add_zero]; rfl⟩
    · have hfits := canonical s
      rw [hunpack] at hfits
      exact Binary.exists_canonical_double hfits hm
  have hvalue := le_antisymm (hrounds.le_of_le hcanonical hdefined hu.ge)
    (hrounds.ge_of_ge hcanonical hdefined hu.le)
  rw [isFinite_eq_unpack, unpack_add] at hfinite
  rcases hrounds.canonical.representable_or_overflows with
    hrep | ⟨sign, m, e, hm, -, -, -, hoverflow⟩
  · have hstored := Binary.stored_of_representable hrep
    refine ⟨isNaN_eq_false_iff.2 ?_, ?_⟩
    · rw [unpack_add, hstored]
      exact hrounds.ne_notANumber
    · rw [val, unpack_add, hstored, hvalue, hu]
  · rw [hoverflow] at hfinite
    cases hfinite

/-- A number is finite if its double is. -/
theorem isFinite_of_double (h : Scalar.isFinite (s + s) = true) : Scalar.isFinite s = true := by
  rw [isFinite_eq_unpack, unpack_add] at h
  rw [isFinite_eq_unpack]
  cases hunpack : unpack s with
  | zero sign => rfl
  | finite sign m e hm => rfl
  | notANumber =>
    rw [hunpack, UnpackedFloat.add, Binary.stored_notANumber] at h
    cases h
  | infinity sign =>
    have hsum : UnpackedFloat.add (format K) (.infinity sign) (.infinity sign) =
        .infinity sign := by
      cases sign <;> rfl
    rw [hunpack, hsum, Binary.stored_infinity] at h
    cases h

theorem halvingScalar [NumericScalar K] (hhalf : Represents (0.5 : K) (1 / 2)) :
    HalvingScalar K where
  add_comm := NumericScalar.add_comm
  half_mem := by
    intro s t hle hs ht
    obtain ⟨x, hx⟩ := exists_represents (isFinite_of_double hs)
    obtain ⟨y, hy⟩ := exists_represents (isFinite_of_double ht)
    have hxy := (hx.le_iff hy).1 hle
    obtain ⟨z, hz, hlower, hupper⟩ := (hx.add hy).exists_between (hx.add_self hs)
      (hy.add_self ht) (by linarith) (by linarith)
    obtain ⟨w, hw, hlower', hupper'⟩ := (hhalf.mul hz).exists_between hx hy (by linarith)
      (by linarith)
    exact ⟨(hx.le_iff hw).2 hlower', (hw.le_iff hy).2 hupper'⟩
  isFinite_double := by
    intro s t u hst htu hs hu
    obtain ⟨x, hx⟩ := exists_represents (isFinite_of_double hs)
    obtain ⟨z, hz⟩ := exists_represents (isFinite_of_double hu)
    obtain ⟨y, hy, hlower, hupper⟩ := hx.exists_of_le hz hst htu
    obtain ⟨w, hw, -, -⟩ := (hy.add hy).exists_between (hx.add_self hs) (hz.add_self hu)
      (by linarith) (by linarith)
    exact hw.isFinite

end Machine

instance : HalvingScalar Float :=
  Machine.halvingScalar (Machine.represents_of_unpack
    (show Machine.unpack (0.5 : Float) = .finite .positive (2 ^ 52) (-53) (by decide) from rfl)
    (by norm_num))

instance : HalvingScalar Float32 :=
  Machine.halvingScalar (Machine.represents_of_unpack
    (show Machine.unpack (0.5 : Float32) = .finite .positive (2 ^ 23) (-24) (by decide) from rfl)
    (by norm_num))

instance : HalvingScalar Exact where
  add_comm := by
    intro s t
    cases s <;> cases t <;> try rfl
    rw [Exact.real_add_real, Exact.real_add_real, add_comm]
  half_mem := by
    intro s t hle hs ht
    obtain ⟨x, rfl⟩ := Exact.exists_real (OrderedScalar.defined_of_le hle).1
    obtain ⟨y, rfl⟩ := Exact.exists_real (OrderedScalar.defined_of_le hle).2
    simp only [Exact.ofScientific_eq_real, Exact.real_add_real, Exact.real_mul_real,
      Exact.real_le_real] at hle ⊢
    norm_num
    constructor <;> linarith
  isFinite_double := by
    intro s t u hst htu hs hu
    obtain ⟨y, rfl⟩ := Exact.exists_real (OrderedScalar.defined_of_le htu).1
    rfl

end CurveSurvey

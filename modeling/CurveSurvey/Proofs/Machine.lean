import CurveSurvey.Proofs.Binary.Arithmetic
import CurveSurvey.Proofs.Order

/-!
# Machine numbers

Single and double precision are the two instances of `Machine`: their numbers are
unpacked, computed with, and stored again in a binary format.

* `Machine.val` is the real number or infinity that a machine number stands for,
  and the comparisons are those of these values (`Machine.lt_iff_val`,
  `Machine.le_iff_val`).
* `Machine.Result` says what is known of a rounded result; sums, differences and
  products are such results (`Machine.result_add` and the like).
* Machine numbers satisfy the laws of `OrderedScalar`, `SignedScalar` and, in
  both precisions, `SteadyPrecision`.
-/

namespace CurveSurvey

open Float.Model (Format UnpackedFloat)

/-- A scalar type whose numbers are stored in a binary format. -/
class Machine (K : Type) [Scalar K] where
  /-- The format of the numbers. -/
  format : Format
  /-- The parts of a number. -/
  unpack : K → UnpackedFloat
  /-- Every number is one of the format. -/
  representable : ∀ t : K, Binary.Representable format (unpack t)
  /-- Every float of the format is a number. -/
  exists_unpack : ∀ u, Binary.Representable format u → ∃ t : K, unpack t = u
  unpack_add : ∀ s t : K, unpack (s + t) = Binary.stored format (.add format (unpack s) (unpack t))
  unpack_sub : ∀ s t : K, unpack (s - t) = Binary.stored format (.sub format (unpack s) (unpack t))
  unpack_mul : ∀ s t : K, unpack (s * t) = Binary.stored format (.mul format (unpack s) (unpack t))
  unpack_div : ∀ s t : K, unpack (s / t) = Binary.stored format (.div format (unpack s) (unpack t))
  unpack_neg : ∀ t : K, unpack (-t) = Binary.stored format (unpack t).neg
  unpack_abs : ∀ t : K, unpack (Scalar.abs t) = Binary.stored format (unpack t).abs
  unpack_nan : unpack (Scalar.nan : K) = .notANumber
  unpack_zero : unpack (0 : K) = .zero .positive
  lt_iff_unpack : ∀ s t : K, s < t ↔ (unpack s).lt (unpack t) = true
  le_iff_unpack : ∀ s t : K, s ≤ t ↔ (unpack s).le (unpack t) = true
  beq_eq_unpack : ∀ s t : K, (s == t) = (unpack s).beq (unpack t)
  isFinite_eq_unpack : ∀ t : K, Scalar.isFinite t = (unpack t).isFinite

instance : Machine Float where
  format := .binary64
  unpack t := t.toModel.unpack
  representable _ := Binary.representable_unpack (by decide) _
  exists_unpack u hu := ⟨⟨.pack u⟩, Binary.stored_of_representable hu⟩
  unpack_add _ _ := rfl
  unpack_sub _ _ := rfl
  unpack_mul _ _ := rfl
  unpack_div _ _ := rfl
  unpack_neg _ := rfl
  unpack_abs _ := rfl
  unpack_nan := rfl
  unpack_zero := rfl
  lt_iff_unpack _ _ := decide_eq_true_iff
  le_iff_unpack _ _ := decide_eq_true_iff
  beq_eq_unpack _ _ := rfl
  isFinite_eq_unpack _ := rfl

instance : Machine Float32 where
  format := .binary32
  unpack t := t.toModel.unpack
  representable _ := Binary.representable_unpack (by decide) _
  exists_unpack u hu := ⟨⟨.pack u⟩, Binary.stored_of_representable hu⟩
  unpack_add _ _ := rfl
  unpack_sub _ _ := rfl
  unpack_mul _ _ := rfl
  unpack_div _ _ := rfl
  unpack_neg _ := rfl
  unpack_abs _ := rfl
  unpack_nan := rfl
  unpack_zero := rfl
  lt_iff_unpack _ _ := decide_eq_true_iff
  le_iff_unpack _ _ := decide_eq_true_iff
  beq_eq_unpack _ _ := rfl
  isFinite_eq_unpack _ := rfl

namespace Machine

variable {K : Type} [Scalar K] [Machine K] {s t : K}

/-! ## Values -/

/-- The real number or infinity that a machine number stands for. -/
noncomputable def val (t : K) : EReal := Binary.value (unpack t)

theorem canonical (t : K) : Binary.Canonical (format K) (unpack t) := (representable t).canonical

theorem compare_unpack (hs : unpack s ≠ .notANumber) (ht : unpack t ≠ .notANumber) :
    (unpack s).compare (unpack t) = some (compare (val s) (val t)) :=
  Binary.compare_eq (canonical s) (canonical t) hs ht

theorem compare_eq_none (h : unpack s = .notANumber ∨ unpack t = .notANumber) :
    (unpack s).compare (unpack t) = none := by
  rcases h with h | h
  · rw [h]
    rfl
  · rw [h]
    rcases unpack s with ⟨_ | _⟩ | _ | _ | ⟨_ | _⟩ <;> rfl

theorem isNaN_eq_false_iff : Scalar.isNaN t = false ↔ unpack t ≠ .notANumber := by
  rw [Scalar.isNaN, beq_eq_unpack, UnpackedFloat.beq]
  by_cases h : unpack t = .notANumber
  · rw [compare_eq_none (.inl h)]
    simp [h]
  · rw [compare_unpack h h, compare_eq_iff_eq.mpr rfl]
    simpa using h

theorem isNaN_iff : Scalar.isNaN t = true ↔ unpack t = .notANumber := by
  have := isNaN_eq_false_iff (t := t)
  cases h : Scalar.isNaN t
  · simp [h] at this ⊢
    exact this
  · simp [h] at this ⊢
    exact this

theorem lt_iff_val :
    s < t ↔ Scalar.isNaN s = false ∧ Scalar.isNaN t = false ∧ val s < val t := by
  rw [lt_iff_unpack, UnpackedFloat.lt, isNaN_eq_false_iff, isNaN_eq_false_iff]
  by_cases h : unpack s = .notANumber ∨ unpack t = .notANumber
  · rw [compare_eq_none h]
    rcases h with h | h <;> simp [h]
  · rw [not_or] at h
    rw [compare_unpack h.1 h.2]
    simp [h.1, h.2, compare_lt_iff_lt]

theorem le_iff_val :
    s ≤ t ↔ Scalar.isNaN s = false ∧ Scalar.isNaN t = false ∧ val s ≤ val t := by
  rw [le_iff_unpack, UnpackedFloat.le, isNaN_eq_false_iff, isNaN_eq_false_iff]
  by_cases h : unpack s = .notANumber ∨ unpack t = .notANumber
  · rw [compare_eq_none h]
    rcases h with h | h <;> simp [h]
  · rw [not_or] at h
    rw [compare_unpack h.1 h.2]
    simp [h.1, h.2, Ordering.isLE_iff_ne_gt, compare_gt_iff_gt, not_lt]

theorem beq_iff_val :
    (s == t) = true ↔ Scalar.isNaN s = false ∧ Scalar.isNaN t = false ∧ val s = val t := by
  rw [beq_eq_unpack, UnpackedFloat.beq, isNaN_eq_false_iff, isNaN_eq_false_iff]
  by_cases h : unpack s = .notANumber ∨ unpack t = .notANumber
  · rw [compare_eq_none h]
    rcases h with h | h <;> simp [h]
  · rw [not_or] at h
    rw [compare_unpack h.1 h.2]
    simp [h.1, h.2]

instance : OrderedScalar K where
  isNaN_nan := isNaN_iff.2 unpack_nan
  defined_of_le h := ⟨(le_iff_val.1 h).1, (le_iff_val.1 h).2.1⟩
  total hs ht := by
    rw [le_iff_val, le_iff_val]
    exact (le_total _ _).imp (fun h => ⟨hs, ht, h⟩) (fun h => ⟨ht, hs, h⟩)
  trans h h' := by
    rw [le_iff_val] at *
    exact ⟨h.1, h'.2.1, h.2.2.trans h'.2.2⟩
  lt_iff := by
    intro s t
    rw [lt_iff_val, le_iff_val, le_iff_val]
    constructor
    · rintro ⟨hs, ht, h⟩
      exact ⟨⟨hs, ht, h.le⟩, fun h' => absurd h'.2.2 (not_le.mpr h)⟩
    · rintro ⟨⟨hs, ht, h⟩, h'⟩
      exact ⟨hs, ht, lt_of_not_ge fun hle => h' ⟨ht, hs, hle⟩⟩
  beq_iff := by
    intro s t
    rw [beq_iff_val, le_iff_val, le_iff_val]
    constructor
    · rintro ⟨hs, ht, h⟩
      exact ⟨⟨hs, ht, h.le⟩, ht, hs, h.ge⟩
    · rintro ⟨⟨hs, ht, h⟩, -, -, h'⟩
      exact ⟨hs, ht, le_antisymm h h'⟩

/-! ## Signs -/

theorem unpack_neg_eq (t : K) : unpack (-t) = (unpack t).neg := by
  rw [unpack_neg, Binary.stored_of_representable (Binary.representable_neg (representable t))]

theorem unpack_abs_eq (t : K) : unpack (Scalar.abs t) = (unpack t).abs := by
  rw [unpack_abs, Binary.stored_of_representable]
  have := representable t
  cases h : unpack t <;> rw [h] at this <;> exact this

@[simp] theorem val_neg (t : K) : val (-t) = -val t := by
  rw [val, unpack_neg_eq, Binary.value_neg, val]

@[simp] theorem val_abs (t : K) : val (Scalar.abs t) = max (val t) (-val t) := by
  rw [val, unpack_abs_eq, Binary.value_abs, val]

theorem val_abs_nonneg (t : K) : 0 ≤ val (Scalar.abs t) := by
  rw [val_abs]
  rcases le_total 0 (val t) with hpos | hneg
  · exact hpos.trans (le_max_left _ _)
  · exact (EReal.neg_nonneg.2 hneg).trans (le_max_right _ _)

@[simp] theorem isNaN_neg (t : K) : Scalar.isNaN (-t) = Scalar.isNaN t := by
  rw [Bool.eq_iff_iff, isNaN_iff, isNaN_iff, unpack_neg_eq]
  cases unpack t <;> simp [UnpackedFloat.neg]

@[simp] theorem isNaN_abs (t : K) : Scalar.isNaN (Scalar.abs t) = Scalar.isNaN t := by
  rw [Bool.eq_iff_iff, isNaN_iff, isNaN_iff, unpack_abs_eq]
  cases unpack t <;> simp [UnpackedFloat.abs]

@[simp] theorem val_zero : val (0 : K) = 0 := by
  rw [val, unpack_zero]
  rfl

@[simp] theorem isNaN_zero : Scalar.isNaN (0 : K) = false := by
  rw [isNaN_eq_false_iff, unpack_zero]
  simp

instance : SignedScalar K where
  neg_le_neg h := by
    rw [le_iff_val] at *
    simpa using ⟨h.2.1, h.1, h.2.2⟩
  neg_zero_le := by simp [le_iff_val]

/-! ## Rounded results -/

/-- What is known of a number `t` that was rounded from `x`. -/
structure Result (x : EReal) (t : K) : Prop where
  /-- It is defined. -/
  defined : Scalar.isNaN t = false
  /-- Rounding up passes no machine number. -/
  le_of_le : ∀ u : K, Scalar.isNaN u = false → x ≤ val u → val t ≤ val u
  /-- Rounding down passes no machine number. -/
  ge_of_ge : ∀ u : K, Scalar.isNaN u = false → val u ≤ x → val u ≤ val t
  /-- The error is at most half a unit in the last place, or half the smallest number. -/
  near : ∀ a b : ℝ, x = a → val t = b →
    |b - a| ≤ |a| / 2 ^ (format K).mantissaBits + 2 ^ (format K).minExponent / 2

theorem result_of_nearest {x : EReal} (h : Binary.Nearest (format K) x (unpack t)) :
    Result x t where
  defined := isNaN_eq_false_iff.2 h.defined
  le_of_le u hu := h.le_of_le _ (representable u) (isNaN_eq_false_iff.1 hu)
  ge_of_ge u hu := h.ge_of_ge _ (representable u) (isNaN_eq_false_iff.1 hu)
  near := h.near

theorem result_add (h : Scalar.isNaN (s + t) = false) : Result (val s + val t) (s + t) := by
  rw [isNaN_eq_false_iff, unpack_add] at h
  apply result_of_nearest
  rw [unpack_add]
  exact Binary.nearest_add (canonical s) (canonical t) h

theorem result_sub (h : Scalar.isNaN (s - t) = false) : Result (val s - val t) (s - t) := by
  rw [isNaN_eq_false_iff, unpack_sub, Binary.sub_eq_add_neg] at h
  apply result_of_nearest
  rw [unpack_sub, Binary.sub_eq_add_neg, sub_eq_add_neg (val s), val, val, ← Binary.value_neg]
  exact Binary.nearest_add (canonical s) (Binary.canonical_neg (canonical t)) h

theorem result_mul (h : Scalar.isNaN (s * t) = false) : Result (val s * val t) (s * t) := by
  rw [isNaN_eq_false_iff, unpack_mul] at h
  apply result_of_nearest
  rw [unpack_mul]
  exact Binary.nearest_mul (canonical s) (canonical t) h

/-- A quotient of numbers that are not negative is not negative. -/
theorem val_div_nonneg (hs : 0 ≤ val s) (ht : 0 < val t) : 0 ≤ val (s / t) := by
  rw [val, unpack_div]
  exact Binary.value_div_nonneg hs ht

/-! ## Undefined results -/

theorem val_of_isNaN (h : Scalar.isNaN t = true) : val t = 0 := by
  rw [val, isNaN_iff.1 h]
  rfl

/-- A product of numbers that are not negative is not negative. -/
theorem val_mul_nonneg (hs : 0 ≤ val s) (ht : 0 ≤ val t) : 0 ≤ val (s * t) := by
  cases hnan : Scalar.isNaN (s * t) with
  | true => rw [val_of_isNaN hnan]
  | false =>
    have := (result_mul hnan).ge_of_ge 0 isNaN_zero (by simpa using mul_nonneg hs ht)
    simpa using this

theorem isNaN_add_iff :
    Scalar.isNaN (s + t) = true ↔ Scalar.isNaN s = true ∨ Scalar.isNaN t = true ∨
      val s = ⊤ ∧ val t = ⊥ ∨ val s = ⊥ ∧ val t = ⊤ := by
  rw [isNaN_iff, isNaN_iff, isNaN_iff, unpack_add]
  exact Binary.stored_add_eq_notANumber_iff (canonical s) (canonical t)

theorem unpack_sub_eq (s t : K) : unpack (s - t) = unpack (s + -t) := by
  rw [unpack_sub, unpack_add, unpack_neg_eq, Binary.sub_eq_add_neg]

theorem isNaN_sub_iff :
    Scalar.isNaN (s - t) = true ↔ Scalar.isNaN s = true ∨ Scalar.isNaN t = true ∨
      val s = ⊤ ∧ val t = ⊤ ∨ val s = ⊥ ∧ val t = ⊥ := by
  rw [isNaN_iff, unpack_sub_eq, ← isNaN_iff, isNaN_add_iff, isNaN_neg, val_neg,
    EReal.neg_eq_bot_iff, EReal.neg_eq_top_iff]

theorem defined_of_add (h : Scalar.isNaN (s + t) = false) :
    Scalar.isNaN s = false ∧ Scalar.isNaN t = false := by
  simp only [← Bool.not_eq_true, isNaN_add_iff] at *
  exact ⟨fun hs => h (.inl hs), fun ht => h (.inr (.inl ht))⟩

theorem defined_of_sub (h : Scalar.isNaN (s - t) = false) :
    Scalar.isNaN s = false ∧ Scalar.isNaN t = false := by
  simp only [← Bool.not_eq_true, isNaN_sub_iff] at *
  exact ⟨fun hs => h (.inl hs), fun ht => h (.inr (.inl ht))⟩

theorem isNaN_mul_of_right (h : Scalar.isNaN t = true) : Scalar.isNaN (s * t) = true := by
  rw [isNaN_iff] at *
  rw [unpack_mul, h]
  cases unpack s <;> exact Binary.stored_notANumber

end Machine

/-! ## Minimal steps -/

section

variable {K : Type} [Precision K] [Machine K]

open Machine

theorem Machine.val_minimalStep_nonneg (hgrid : (0 : K) < Precision.gridStep) (x : K) :
    Scalar.isNaN (Precision.minimalStep x) = false ∧ 0 ≤ val (Precision.minimalStep x) := by
  obtain ⟨-, hdef, hpos⟩ := lt_iff_val.1 hgrid
  rw [val_zero] at hpos
  simp only [Precision.minimalStep, Scalar.larger, hdef, Bool.false_eq_true, if_false]
  split
  · rename_i hlt
    obtain ⟨-, hdef', hlt⟩ := lt_iff_val.1 hlt
    exact ⟨hdef', (hpos.trans hlt).le⟩
  · exact ⟨hdef, hpos.le⟩

/-- Rounding never takes a sum below an operand to which nothing negative was added. -/
theorem Machine.steadyPrecision (hgrid : (0 : K) < Precision.gridStep) : SteadyPrecision K where
  lt_of_add_lt := by
    intro x y h
    obtain ⟨hdef, hy, hlt⟩ := lt_iff_val.1 h
    have hx := (defined_of_add hdef).1
    have hle : val x ≤ val x + val (Precision.minimalStep x) :=
      le_add_of_nonneg_right (val_minimalStep_nonneg hgrid x).2
    exact lt_iff_val.2 ⟨hx, hy, ((result_add hdef).ge_of_ge x hx hle).trans_lt hlt⟩
  lt_of_lt_sub := by
    intro x y h
    obtain ⟨hy, hdef, hlt⟩ := lt_iff_val.1 h
    have hx := (defined_of_sub hdef).1
    have hneg : -val (Precision.minimalStep x) ≤ 0 := by
      simpa using EReal.neg_le_neg_iff.mpr (val_minimalStep_nonneg hgrid x).2
    have hle : val x - val (Precision.minimalStep x) ≤ val x := by
      rw [sub_eq_add_neg]
      exact add_le_of_nonpos_right hneg
    exact lt_iff_val.2 ⟨hy, hx, hlt.trans_le ((result_sub hdef).le_of_le x hx hle)⟩

end

instance : SteadyPrecision Float := Machine.steadyPrecision (by decide +kernel)

instance : SteadyPrecision Float32 := Machine.steadyPrecision (by decide +kernel)

end CurveSurvey

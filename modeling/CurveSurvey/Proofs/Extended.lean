import Mathlib.Algebra.Order.Floor.Semiring
import Mathlib.Algebra.Order.Round
import Mathlib.Analysis.SpecialFunctions.Log.ENNRealLogExp
import CurveSurvey.Precision
import CurveSurvey.Proofs.Numeric

/-!
# Extended numbers

The real numbers with both infinities and an undefined value, in which nothing is rounded.  They
are what exact numbers become where a function may have infinite values.

* `Extended` is the type.  What has no value is undefined: a difference of infinities, a product
  of zero and an infinity, a quotient by zero, a logarithm of a negative number.
* The settings of its `Precision` are those of single precision.
* Sums, quotients, exponentials and logarithms of real numbers are those of `ℝ`.
* The laws of `InvolutiveScalar` hold.
-/

namespace CurveSurvey

/-- A real number or an infinity, or the undefined value. -/
inductive Extended where
  /-- The value of an operation that has none. -/
  | undefined
  /-- A number. -/
  | value (x : EReal)

namespace Extended

/-- A real number. -/
def real (x : ℝ) : Extended := value x

/-- The value of a partial operation on one number. -/
def lift (f : EReal → Extended) : Extended → Extended
  | undefined => undefined
  | value x => f x

/-- The value of a partial operation on two numbers. -/
def lift₂ (f : EReal → EReal → Extended) : Extended → Extended → Extended
  | value x, value y => f x y
  | _, _ => undefined

/-- Whether a relation holds of two numbers; it does not hold of an undefined one. -/
def Holds (r : EReal → EReal → Prop) : Extended → Extended → Prop
  | value x, value y => r x y
  | _, _ => False

/-- The real number, if it is one. -/
noncomputable def toReal? : Extended → Option ℝ
  | undefined => none
  | value x => if x = ⊤ ∨ x = ⊥ then none else some x.toReal

open Classical in
noncomputable instance : Scalar Extended where
  add := lift₂ fun x y => if x = ⊤ ∧ y = ⊥ ∨ x = ⊥ ∧ y = ⊤ then undefined else value (x + y)
  sub := lift₂ fun x y => if x = ⊤ ∧ y = ⊤ ∨ x = ⊥ ∧ y = ⊥ then undefined else value (x - y)
  mul := lift₂ fun x y =>
    if x = 0 ∧ (y = ⊤ ∨ y = ⊥) ∨ (x = ⊤ ∨ x = ⊥) ∧ y = 0 then undefined else value (x * y)
  div := lift₂ fun x y =>
    if y = 0 ∨ (x = ⊤ ∨ x = ⊥) ∧ (y = ⊤ ∨ y = ⊥) then undefined else value (x / y)
  neg := lift fun x => value (-x)
  lt := Holds (· < ·)
  le := Holds (· ≤ ·)
  beq s t := decide (Holds (· = ·) s t)
  ofScientific m s e := real (OfScientific.ofScientific m s e)
  decLt _ _ := inferInstance
  decLe _ _ := inferInstance
  ofNat n := real n
  nan := undefined
  infinity := value ⊤
  isFinite t := (toReal? t).isSome
  abs := lift fun x => value (max x (-x))
  sqrt := lift fun x => if x < 0 then undefined else if x = ⊤ then value ⊤ else real √x.toReal
  exp := lift fun x => value (EReal.exp x)
  log := lift fun x => if x < 0 then undefined else value (ENNReal.log x.toENNReal)
  log10 := lift fun x =>
    if x < 0 then undefined else value (ENNReal.log x.toENNReal / Real.log (10 : ℕ))
  round := lift fun x =>
    if x = ⊤ ∨ x = ⊥ then value x
    else real (if x < 0 then -⌊-x.toReal + 0.5⌋ else ⌊x.toReal + 0.5⌋)

/-! ## Arithmetic -/

section

variable {x y : ℝ} {a b : EReal}

open Classical in
theorem value_add_value (a b : EReal) : value a + value b =
    if a = ⊤ ∧ b = ⊥ ∨ a = ⊥ ∧ b = ⊤ then undefined else value (a + b) := rfl

open Classical in
theorem value_div_value (a b : EReal) : value a / value b =
    if b = 0 ∨ (a = ⊤ ∨ a = ⊥) ∧ (b = ⊤ ∨ b = ⊥) then undefined else value (a / b) := rfl

@[simp] theorem real_add_real : real x + real y = real (x + y) := by
  simp only [real]
  rw [value_add_value, if_neg (by simp), EReal.coe_add]

theorem real_div_real (h : y ≠ 0) : real x / real y = real (x / y) := by
  simp only [real]
  rw [value_div_value, if_neg (by simp [h]), EReal.coe_div]

@[simp] theorem neg_value : -value a = value (-a) := rfl

@[simp] theorem neg_real : -real x = real (-x) := congrArg value (EReal.coe_neg x).symm

@[simp] theorem neg_undefined : -undefined = undefined := rfl

@[simp] theorem abs_undefined : Scalar.abs undefined = undefined := rfl

@[simp] theorem abs_real : Scalar.abs (real x) = real |x| := by
  have h : ((|x| : ℝ) : EReal) = max (x : EReal) (-x : EReal) := by
    rw [← EReal.coe_neg, abs_eq_max_neg]
    exact EReal.coe_strictMono.monotone.map_max
  exact congrArg value h.symm

@[simp] theorem ofNat_eq_real (n : ℕ) : (OfNat.ofNat n : Extended) = real n := rfl

@[simp] theorem nan_eq_undefined : (Scalar.nan : Extended) = undefined := rfl

@[simp] theorem exp_real : Scalar.exp (real x) = real (Real.exp x) := by
  refine congrArg value ?_
  rw [EReal.exp_coe, EReal.coe_ennreal_ofReal, max_eq_left (Real.exp_pos x).le]

theorem log_real (h : 0 < x) : Scalar.log (real x) = real (Real.log x) := by
  refine (if_neg (by simpa using h.le)).trans (congrArg value ?_)
  rw [EReal.toENNReal_of_ne_top (EReal.coe_ne_top x), EReal.toReal_coe,
    ENNReal.log_ofReal_of_pos h]

/-! ## Comparisons -/

@[simp] theorem value_lt_value : value a < value b ↔ a < b := .rfl

@[simp] theorem value_le_value : value a ≤ value b ↔ a ≤ b := .rfl

@[simp] theorem real_lt_real : real x < real y ↔ x < y := EReal.coe_lt_coe_iff

@[simp] theorem real_le_real : real x ≤ real y ↔ x ≤ y := EReal.coe_le_coe_iff

open Classical in
theorem beq_iff (s t : Extended) : (s == t) = true ↔ Holds (· = ·) s t := decide_eq_true_iff

@[simp] theorem not_undefined_lt (t : Extended) : ¬ undefined < t := id

@[simp] theorem not_undefined_le (t : Extended) : ¬ undefined ≤ t := id

@[simp] theorem not_lt_undefined (t : Extended) : ¬ t < undefined := by
  cases t <;> exact id

@[simp] theorem not_le_undefined (t : Extended) : ¬ t ≤ undefined := by
  cases t <;> exact id

@[simp] theorem isNaN_value (a : EReal) : Scalar.isNaN (value a) = false := by
  have h : (value a == value a) = true := (beq_iff _ _).2 (Eq.refl a)
  rw [Scalar.isNaN, h, Bool.not_true]

@[simp] theorem isNaN_real (x : ℝ) : Scalar.isNaN (real x) = false := isNaN_value x

@[simp] theorem isNaN_undefined : Scalar.isNaN undefined = true := by
  have h : ¬ (undefined == undefined) = true := (beq_iff _ _).not.2 id
  rw [Scalar.isNaN, Bool.eq_false_iff.2 h, Bool.not_false]

theorem exists_value {t : Extended} (h : Scalar.isNaN t = false) : ∃ a, t = value a := by
  cases t with
  | undefined =>
    rw [isNaN_undefined] at h
    cases h
  | value a => exact ⟨a, rfl⟩

@[simp] theorem toReal?_real (x : ℝ) : toReal? (real x) = some x := by
  simp [toReal?, real]

/-- A sample is infinite or undefined, or a real number. -/
theorem toReal?_cases (t : Extended) : toReal? t = none ∨ ∃ x, t = real x := by
  cases t with
  | undefined => exact .inl rfl
  | value a =>
    by_cases h : a = ⊤ ∨ a = ⊥
    · exact .inl (if_pos h)
    · rw [not_or] at h
      exact .inr ⟨a.toReal, congrArg value (EReal.coe_toReal h.1 h.2).symm⟩

theorem isFinite_eq (t : Extended) : Scalar.isFinite t = (toReal? t).isSome := rfl

@[simp] theorem isFinite_real (x : ℝ) : Scalar.isFinite (real x) = true := by
  rw [isFinite_eq, toReal?_real, Option.isSome_some]

theorem toReal?_neg (t : Extended) : toReal? (-t) = (toReal? t).map (-·) := by
  rcases toReal?_cases t with h | ⟨x, rfl⟩
  · cases t with
    | undefined => rfl
    | value a =>
      rw [h]
      have hinf : a = ⊤ ∨ a = ⊥ := by
        by_contra hno
        exact absurd ((if_neg hno).symm.trans h) (Option.some_ne_none _)
      refine if_pos ?_
      rcases hinf with rfl | rfl
      · exact .inr EReal.neg_top
      · exact .inl EReal.neg_bot
  · rw [neg_real, toReal?_real, toReal?_real, Option.map_some]

end

instance : OrderedScalar Extended where
  isNaN_nan := isNaN_undefined
  defined_of_le := by
    intro s t h
    cases s <;> cases t <;> simp at h ⊢
  total := by
    intro s t hs ht
    obtain ⟨a, rfl⟩ := exists_value hs
    obtain ⟨b, rfl⟩ := exists_value ht
    exact le_total a b
  trans := by
    intro s t u h h'
    cases s <;> cases t <;> cases u <;> simp at h h' ⊢
    exact h.trans h'
  lt_iff := by
    intro s t
    cases s <;> cases t <;> simp
    exact le_of_lt
  beq_iff := by
    intro s t
    rw [Extended.beq_iff]
    cases s <;> cases t <;> simp [Holds]
    exact le_antisymm_iff

/-- Numbers that compare both ways are equal. -/
theorem eq_of_le_of_le {s t : Extended} (h : s ≤ t) (h' : t ≤ s) : s = t := by
  cases s <;> cases t <;> simp at h h' ⊢
  exact le_antisymm h h'

theorem eq_of_same {s t : Extended} (h : Scalar.Same s t) : s = t := by
  rcases h with ⟨hs, ht⟩ | h
  · cases s <;> cases t <;> simp at hs ht ⊢
  · obtain ⟨hle, hge⟩ := OrderedScalar.beq_iff.1 h
    exact eq_of_le_of_le hle hge

instance : InvolutiveScalar Extended where
  neg_le_neg := by
    intro s t h
    cases s <;> cases t <;> simp at h ⊢
    exact h
  neg_zero_le := by simp
  neg_neg := by
    intro t
    cases t with
    | undefined => rfl
    | value a => rw [neg_value, neg_value, neg_neg]
  zero_le_neg := by simp
  abs_neg := by
    intro t
    cases t with
    | undefined => rfl
    | value a =>
      refine congrArg value ?_
      rw [neg_neg, max_comm]
  abs_same h := congrArg Scalar.abs (eq_of_same h)

/-! ## Clamping -/

@[simp] theorem larger_value (a b : EReal) :
    Scalar.larger (value a) (value b) = value (max a b) := by
  simp only [Scalar.larger, isNaN_value, Bool.false_eq_true, if_false, value_lt_value]
  split
  · rename_i h
    rw [max_eq_right h.le]
  · rename_i h
    rw [max_eq_left (not_lt.1 h)]

@[simp] theorem smaller_value (a b : EReal) :
    Scalar.smaller (value a) (value b) = value (min a b) := by
  simp only [Scalar.smaller, isNaN_value, Bool.false_eq_true, if_false, value_lt_value]
  split
  · rename_i h
    rw [min_eq_right h.le]
  · rename_i h
    rw [min_eq_left (not_lt.1 h)]

theorem clamp_value (a m : EReal) :
    Scalar.clamp (value a) (value m) = value (min (max a (-m)) m) := by
  rw [Scalar.clamp, neg_value, larger_value, smaller_value]

theorem zero_lt_value {m : EReal} : (0 : Extended) < value m ↔ 0 < m := by
  rw [ofNat_eq_real, real, value_lt_value, Nat.cast_zero, EReal.coe_zero]

/-- A positive limit leaves room on both sides of zero. -/
theorem exists_limit {limit : Extended} (h : 0 < limit) : ∃ m : EReal, limit = value m ∧ 0 < m := by
  obtain ⟨m, rfl⟩ := exists_value (Scalar.defined_of_lt h).2
  exact ⟨m, rfl, zero_lt_value.1 h⟩

theorem clamp_neg {s limit : Extended} (h : 0 < limit) (hs : Scalar.isNaN s = false) :
    Scalar.clamp (-s) limit = -Scalar.clamp s limit := by
  obtain ⟨a, rfl⟩ := exists_value hs
  obtain ⟨m, rfl, hm⟩ := exists_limit h
  have hroom : max m (-m) = m := max_eq_left ((EReal.neg_le_zero.2 hm.le).trans hm.le)
  rw [neg_value, clamp_value, clamp_value, neg_value, ← EReal.max_neg_neg, ← EReal.min_neg_neg,
    neg_neg, max_min_distrib_right, hroom]

/-- A number above zero is only lowered. -/
theorem clamp_le_self {limit : Extended} (h : 0 < limit) {x : ℝ} (hx : 0 ≤ x) :
    Scalar.clamp (real x) limit ≤ real x := by
  obtain ⟨m, rfl, hm⟩ := exists_limit h
  have hneg : -m ≤ (x : EReal) := (EReal.neg_le_zero.2 hm.le).trans (EReal.coe_nonneg.2 hx)
  rw [real, clamp_value, value_le_value]
  exact min_le_of_left_le (max_le le_rfl hneg)

/-! ## Precision -/

/-- The settings are those of single precision. -/
noncomputable instance : Precision Extended where
  relativePrecision := real (0.5 ^ 23)
  gridStep := real 1e-5
  absolutePrecision := real 1e-6
  narrowsGaps := false
  stepBound s t :=
    match s, t with
    | value a, value b => ⌊|b.toReal - a.toReal| / 1e-5⌋₊ + 1
    | _, _ => 0

@[simp] theorem gridStep_eq : (Precision.gridStep : Extended) = real 1e-5 := rfl

end Extended

end CurveSurvey

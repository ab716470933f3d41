import Mathlib.Algebra.Order.Floor.Semiring
import Mathlib.Algebra.Order.Round
import Mathlib.Analysis.SpecialFunctions.Log.Base
import CurveSurvey.Proofs.Stride

/-!
# Exact numbers

The real numbers with an undefined value, in which nothing is rounded.  What holds of
them is what a curve survey does when rounding is left aside.

* `Exact` is the type.  It has no infinities, so a quotient by zero is undefined, and so
  is a logarithm of a number that is not positive.
* The settings of its `Precision` are those of double precision.  `Exact.settings` are exact
  numbers with any others, and what is stated for an `Exact.Accuracy` holds of all of them.
* Sums, products and comparisons of real numbers are those of `ℝ`; these lemmas are for
  `simp`.
* The laws of `SignedScalar`, `SteadyPrecision` and `StridingPrecision` hold.
-/

namespace CurveSurvey

/-- A real number, or the undefined value. -/
inductive Exact where
  /-- The value of an operation that has none. -/
  | undefined
  /-- A number. -/
  | real (x : ℝ)

namespace Exact

/-- The value of a partial operation on one number. -/
def lift (f : ℝ → Exact) : Exact → Exact
  | undefined => undefined
  | real x => f x

/-- The value of a partial operation on two numbers. -/
def lift₂ (f : ℝ → ℝ → Exact) : Exact → Exact → Exact
  | real x, real y => f x y
  | _, _ => undefined

/-- Whether a relation holds of two numbers; it does not hold of an undefined one. -/
def Holds (r : ℝ → ℝ → Prop) : Exact → Exact → Prop
  | real x, real y => r x y
  | _, _ => False

/-- Whether there is a number. -/
def isReal : Exact → Bool
  | undefined => false
  | real _ => true

open Classical in
noncomputable instance : Scalar Exact where
  add := lift₂ fun x y => real (x + y)
  sub := lift₂ fun x y => real (x - y)
  mul := lift₂ fun x y => real (x * y)
  div := lift₂ fun x y => if y = 0 then undefined else real (x / y)
  neg := lift fun x => real (-x)
  lt := Holds (· < ·)
  le := Holds (· ≤ ·)
  beq s t := decide (Holds (· = ·) s t)
  ofScientific m s e := real (OfScientific.ofScientific m s e)
  decLt _ _ := inferInstance
  decLe _ _ := inferInstance
  ofNat n := real n
  nan := undefined
  infinity := undefined
  isFinite := isReal
  abs := lift fun x => real |x|
  sqrt := lift fun x => if x < 0 then undefined else real √x
  exp := lift fun x => real (Real.exp x)
  log := lift fun x => if x ≤ 0 then undefined else real (Real.log x)
  log10 := lift fun x => if x ≤ 0 then undefined else real (Real.logb 10 x)
  round := lift fun x => real (if x < 0 then -⌊-x + 0.5⌋ else ⌊x + 0.5⌋)

/-! ## Arithmetic -/

section

variable {x y : ℝ}

@[simp] theorem real_add_real : real x + real y = real (x + y) := rfl

@[simp] theorem real_sub_real : real x - real y = real (x - y) := rfl

@[simp] theorem real_mul_real : real x * real y = real (x * y) := rfl

theorem real_div_real (h : y ≠ 0) : real x / real y = real (x / y) := if_neg h

@[simp] theorem undefined_sub (t : Exact) : undefined - t = undefined := rfl

@[simp] theorem add_undefined (t : Exact) : t + undefined = undefined := by
  cases t <;> rfl

@[simp] theorem sub_undefined (t : Exact) : t - undefined = undefined := by
  cases t <;> rfl

@[simp] theorem mul_undefined (t : Exact) : t * undefined = undefined := by
  cases t <;> rfl

@[simp] theorem neg_undefined : -undefined = undefined := rfl

@[simp] theorem abs_undefined : Scalar.abs undefined = undefined := rfl

@[simp] theorem neg_real : -real x = real (-x) := rfl

@[simp] theorem abs_real : Scalar.abs (real x) = real |x| := rfl

@[simp] theorem ofNat_eq_real (n : ℕ) : (OfNat.ofNat n : Exact) = real n := rfl

@[simp] theorem ofScientific_eq_real (m : ℕ) (s : Bool) (e : ℕ) :
    (OfScientific.ofScientific m s e : Exact) = real (OfScientific.ofScientific m s e) := rfl

@[simp] theorem nan_eq_undefined : (Scalar.nan : Exact) = undefined := rfl

/-! ## Comparisons -/

@[simp] theorem real_lt_real : real x < real y ↔ x < y := .rfl

@[simp] theorem real_le_real : real x ≤ real y ↔ x ≤ y := .rfl

open Classical in
theorem beq_iff (s t : Exact) : (s == t) = true ↔ Holds (· = ·) s t := decide_eq_true_iff

@[simp] theorem real_beq_real : (real x == real y) = true ↔ x = y := beq_iff _ _

@[simp] theorem not_undefined_lt (t : Exact) : ¬ undefined < t := id

@[simp] theorem not_undefined_le (t : Exact) : ¬ undefined ≤ t := id

@[simp] theorem not_lt_undefined (t : Exact) : ¬ t < undefined := by
  cases t <;> exact id

@[simp] theorem not_le_undefined (t : Exact) : ¬ t ≤ undefined := by
  cases t <;> exact id

@[simp] theorem isNaN_real (x : ℝ) : Scalar.isNaN (real x) = false := by
  rw [Scalar.isNaN, real_beq_real.2 rfl, Bool.not_true]

@[simp] theorem isNaN_undefined : Scalar.isNaN undefined = true := by
  have h : ¬ (undefined == undefined) = true := (beq_iff _ _).not.2 id
  rw [Scalar.isNaN, Bool.eq_false_iff.2 h, Bool.not_false]

@[simp] theorem isFinite_real (x : ℝ) : Scalar.isFinite (real x) = true := rfl

theorem exists_real {t : Exact} (h : Scalar.isNaN t = false) : ∃ x, t = real x := by
  cases t with
  | undefined =>
    rw [isNaN_undefined] at h
    cases h
  | real x => exact ⟨x, rfl⟩

theorem exists_real_of_isFinite {t : Exact} (h : Scalar.isFinite t = true) : ∃ x, t = real x := by
  cases t with
  | undefined => cases h
  | real x => exact ⟨x, rfl⟩

@[simp] theorem larger_real : Scalar.larger (real x) (real y) = real (max x y) := by
  simp only [Scalar.larger, isNaN_real, Bool.false_eq_true, if_false, real_lt_real]
  split
  · rename_i h
    rw [max_eq_right h.le]
  · rename_i h
    rw [max_eq_left (not_lt.1 h)]

@[simp] theorem smaller_real : Scalar.smaller (real x) (real y) = real (min x y) := by
  simp only [Scalar.smaller, isNaN_real, Bool.false_eq_true, if_false, real_lt_real]
  split
  · rename_i h
    rw [min_eq_right h.le]
  · rename_i h
    rw [min_eq_left (not_lt.1 h)]

end

instance : SignedScalar Exact where
  isNaN_nan := isNaN_undefined
  defined_of_le := by
    intro s t h
    cases s <;> cases t <;> simp at h ⊢
  total := by
    intro s t hs ht
    obtain ⟨x, rfl⟩ := exists_real hs
    obtain ⟨y, rfl⟩ := exists_real ht
    exact le_total x y
  trans := by
    intro s t u h h'
    cases s <;> cases t <;> cases u <;> simp at h h' ⊢
    exact h.trans h'
  lt_iff := by
    intro s t
    cases s <;> cases t <;> simp
    exact le_of_lt
  beq_iff := by
    intro s t
    rw [Exact.beq_iff]
    cases s <;> cases t <;> simp [Holds]
    exact le_antisymm_iff
  neg_le_neg := by
    intro s t h
    cases s <;> cases t <;> simp at h ⊢
    exact h
  neg_zero_le := by simp

/-! ## Precision -/

/-- The settings are those of double precision. -/
noncomputable instance : Precision Exact where
  relativePrecision := real (0.5 ^ 52)
  gridStep := real 1e-6
  absolutePrecision := real 1e-10
  narrowsGaps := true
  stepBound s t :=
    match s, t with
    | real x, real y => ⌊|y - x| / 1e-6⌋₊ + 1
    | _, _ => 0

/-- Exact numbers with the given grid and relative precision. -/
@[reducible] noncomputable def settings (grid relative : ℝ) : Precision Exact where
  __ := (inferInstance : Precision Exact)
  gridStep := real grid
  relativePrecision := real relative

/-- How accurate exact numbers are taken to be. -/
class Accuracy where
  /-- The smallest step of a scan. -/
  grid : ℝ
  /-- The relative spacing of the numbers. -/
  relative : ℝ
  /-- The spacing is not negative. -/
  relative_nonneg : 0 ≤ relative

/-- Where an accuracy is given, it takes the place of that of double precision. -/
noncomputable scoped instance [Accuracy] : Precision Exact :=
  settings Accuracy.grid Accuracy.relative

/-- The accuracy of double precision. -/
@[reducible] noncomputable def Accuracy.double : Accuracy := ⟨1e-6, 0.5 ^ 52, by positivity⟩

@[simp] theorem gridStep_eq : (Precision.gridStep : Exact) = real 1e-6 := rfl

/-- The minimal step at a number is one, and at least that of the grid. -/
theorem exists_minimalStep (x : ℝ) :
    ∃ m, Precision.minimalStep (real x) = real m ∧ 1e-6 ≤ m :=
  ⟨max 1e-6 (|x| * 0.5 ^ 52), larger_real, le_max_left _ _⟩

instance : SteadyPrecision Exact where
  lt_of_add_lt := by
    intro s t h
    cases s with
    | undefined => exact absurd h (not_undefined_lt t)
    | real x =>
      obtain ⟨m, hm, hgrid⟩ := exists_minimalStep x
      cases t with
      | undefined => exact absurd h (not_lt_undefined _)
      | real y =>
        rw [hm, real_add_real, real_lt_real] at h
        rw [real_lt_real]
        linarith
  lt_of_lt_sub := by
    intro s t h
    cases s with
    | undefined => exact absurd h (not_lt_undefined t)
    | real x =>
      obtain ⟨m, hm, hgrid⟩ := exists_minimalStep x
      cases t with
      | undefined => exact absurd h (not_undefined_lt _)
      | real y =>
        rw [hm, real_sub_real, real_lt_real] at h
        rw [real_lt_real]
        linarith

/-- Every step that is not below the minimal one moves a number. -/
instance : StridingPrecision Exact where
  defined_gridStep := isNaN_real _
  isFinite_of_between := by
    intro a s b hlo hhi ha hb
    obtain ⟨x, rfl⟩ := exists_real (OrderedScalar.defined_of_le hlo).2
    exact isFinite_real x
  lt_add_step := by
    intro s step hs hle
    obtain ⟨x, rfl⟩ := exists_real_of_isFinite hs
    obtain ⟨m, hm, hgrid⟩ := exists_minimalStep x
    obtain ⟨d, rfl⟩ := exists_real (OrderedScalar.defined_of_le hle).2
    rw [hm, real_le_real] at hle
    simp only [ofNat_eq_real, real_mul_real, real_add_real, real_lt_real]
    norm_num at *
    linarith
  add_step_lt := by
    intro s step hs hle
    obtain ⟨x, rfl⟩ := exists_real_of_isFinite hs
    obtain ⟨m, hm, hgrid⟩ := exists_minimalStep x
    obtain ⟨d, rfl⟩ := exists_real (OrderedScalar.defined_of_le hle).2
    rw [hm, real_le_real] at hle
    simp only [ofNat_eq_real, neg_real, real_mul_real, real_add_real, real_lt_real]
    norm_num at *
    linarith

end Exact

end CurveSurvey

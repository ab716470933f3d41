import CurveSurvey.Precision

/-!
# The order of scalars

What is assumed of the numbers a curve is computed in, apart from the operations
that `Scalar` names.

* `OrderedScalar`: the defined numbers are ordered, and every comparison with an
  undefined number fails.
* `SignedScalar`: the negative turns the order around.
* `SteadyPrecision`: taking a minimal step never moves backward.

No rounding law is among them, so they hold of every binary floating-point
format, and of exact numbers with an undefined element as well.
-/

namespace CurveSurvey

/-- A scalar type whose defined numbers are ordered. -/
class OrderedScalar (K : Type) [Scalar K] : Prop where
  /-- The undefined value is undefined. -/
  isNaN_nan : Scalar.isNaN (Scalar.nan : K) = true
  /-- Only defined numbers compare. -/
  defined_of_le : ∀ {s t : K}, s ≤ t → Scalar.isNaN s = false ∧ Scalar.isNaN t = false
  /-- Any two defined numbers compare. -/
  total : ∀ {s t : K}, Scalar.isNaN s = false → Scalar.isNaN t = false → s ≤ t ∨ t ≤ s
  /-- Comparison is transitive. -/
  trans : ∀ {s t u : K}, s ≤ t → t ≤ u → s ≤ u
  /-- The strict order is the order without its converse. -/
  lt_iff : ∀ {s t : K}, s < t ↔ s ≤ t ∧ ¬ t ≤ s
  /-- Numbers are equal when they compare both ways. -/
  beq_iff : ∀ {s t : K}, (s == t) = true ↔ s ≤ t ∧ t ≤ s

/-- A scalar type whose numbers have negatives. -/
class SignedScalar (K : Type) [Scalar K] : Prop extends OrderedScalar K where
  /-- The negative turns the order around. -/
  neg_le_neg : ∀ {s t : K}, s ≤ t → -t ≤ -s
  /-- Zero is its own negative. -/
  neg_zero_le : (-0 : K) ≤ 0

/-- A precision whose minimal step never moves backward. -/
class SteadyPrecision (K : Type) [Precision K] : Prop extends OrderedScalar K where
  /-- What lies beyond a step to the right lies to the right. -/
  lt_of_add_lt : ∀ {x y : K}, x + Precision.minimalStep x < y → x < y
  /-- What lies beyond a step to the left lies to the left. -/
  lt_of_lt_sub : ∀ {x y : K}, y < x - Precision.minimalStep x → y < x

namespace Scalar

variable {K : Type} [Scalar K] [OrderedScalar K] {s t u : K}

/-! ## Comparisons -/

theorem le_of_lt (h : s < t) : s ≤ t := (OrderedScalar.lt_iff.1 h).1

theorem not_le_of_lt (h : s < t) : ¬ t ≤ s := (OrderedScalar.lt_iff.1 h).2

theorem le_refl_of_defined (h : isNaN s = false) : s ≤ s := by
  rcases OrderedScalar.total h h with h | h <;> exact h

theorem lt_of_not_le (hs : isNaN s = false) (ht : isNaN t = false) (h : ¬ t ≤ s) : s < t :=
  OrderedScalar.lt_iff.2 ⟨(OrderedScalar.total hs ht).resolve_right h, h⟩

theorem le_of_not_lt (hs : isNaN s = false) (ht : isNaN t = false) (h : ¬ t < s) : s ≤ t := by
  by_cases hle : s ≤ t
  · exact hle
  · exact absurd (lt_of_not_le ht hs hle) h

theorem lt_of_le_of_lt (h : s ≤ t) (h' : t < u) : s < u :=
  OrderedScalar.lt_iff.2 ⟨OrderedScalar.trans h (le_of_lt h'),
    fun hus => not_le_of_lt h' (OrderedScalar.trans hus h)⟩

theorem lt_of_lt_of_le (h : s < t) (h' : t ≤ u) : s < u :=
  OrderedScalar.lt_iff.2 ⟨OrderedScalar.trans (le_of_lt h) h',
    fun hus => not_le_of_lt h (OrderedScalar.trans h' hus)⟩

theorem lt_trans (h : s < t) (h' : t < u) : s < u := lt_of_lt_of_le h (le_of_lt h')

theorem lt_asymm (h : s < t) : ¬ t < s := fun h' => not_le_of_lt h (le_of_lt h')

theorem defined_of_lt (h : s < t) : isNaN s = false ∧ isNaN t = false :=
  OrderedScalar.defined_of_le (le_of_lt h)

/-- What is not above the smaller of two defined numbers is above neither. -/
theorem le_of_le_smaller (hs : isNaN s = false) (ht : isNaN t = false) (h : u ≤ smaller s t) :
    u ≤ s ∧ u ≤ t := by
  unfold smaller at h
  rw [hs] at h
  simp only [Bool.false_eq_true, if_false] at h
  split at h
  · rename_i hlt
    exact ⟨OrderedScalar.trans h (le_of_lt hlt), h⟩
  · rename_i hlt
    exact ⟨h, OrderedScalar.trans h (le_of_not_lt hs ht hlt)⟩

/-- A number that is not negative is not below its negative. -/
theorem neg_le_self {K : Type} [Scalar K] [SignedScalar K] {t : K} (h : 0 ≤ t) : -t ≤ t :=
  OrderedScalar.trans (SignedScalar.neg_le_neg h) (OrderedScalar.trans SignedScalar.neg_zero_le h)

end Scalar

end CurveSurvey

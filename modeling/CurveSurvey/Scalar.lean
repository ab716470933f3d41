/-!
# Scalars

A scan, an interval and a viewport are computed in a number type that has an
undefined value and whose arithmetic may round.  `Scalar` is what such a type
offers: the four operations, an order in which every comparison with an
undefined value fails, and the few functions that the step size, the
tolerances and the scale of a curve are made of.

* `Scalar.larger` and `Scalar.smaller` pick one of two numbers and pass over an
  undefined one.
* `Scalar.clamp` brings a number inside `±limit`, and an undefined one onto the
  lower end.

Nothing here fixes the arithmetic: binary floating point and exact numbers with
an undefined element are both instances.
-/

namespace CurveSurvey

/-- A number type with an undefined value, in which curves are computed. -/
class Scalar (K : Type) extends
    Add K, Sub K, Mul K, Div K, Neg K, LT K, LE K, BEq K, OfScientific K where
  /-- The strict order can be decided. -/
  decLt : DecidableLT K
  /-- The order can be decided. -/
  decLe : DecidableLE K
  /-- The number nearest to a natural number. -/
  ofNat : Nat → K
  /-- The undefined value. -/
  nan : K
  /-- Above every finite number. -/
  infinity : K
  /-- Neither infinite nor undefined. -/
  isFinite : K → Bool
  /-- The magnitude. -/
  abs : K → K
  /-- The square root, undefined below zero. -/
  sqrt : K → K
  /-- The natural exponential. -/
  exp : K → K
  /-- The natural logarithm. -/
  log : K → K
  /-- The decimal logarithm. -/
  log10 : K → K
  /-- The nearest whole number, halves going away from zero. -/
  round : K → K

attribute [reducible, instance] Scalar.decLt Scalar.decLe

/-- Whole literals denote the nearest number. -/
instance (priority := low) {K : Type} [Scalar K] {n : Nat} : OfNat K n := ⟨Scalar.ofNat n⟩

namespace Scalar

variable {K : Type} [Scalar K]

/-- The undefined value is the one that differs from itself. -/
def isNaN (t : K) : Bool := !(t == t)

/-- Neither finite nor undefined. -/
def isInfinite (t : K) : Bool := !isFinite t && !isNaN t

/-- The larger of two numbers: the defined one if the other is undefined, the
first if they are equal. -/
def larger (s t : K) : K := if isNaN s then t else if s < t then t else s

/-- The smaller of two numbers: the defined one if the other is undefined, the
first if they are equal. -/
def smaller (s t : K) : K := if isNaN s then t else if t < s then t else s

/-- The number of `[-limit, limit]` nearest to `t`; the lower end if `t` is
undefined. -/
def clamp (t limit : K) : K := smaller (larger t (-limit)) limit

/-- One divided by `t`. -/
def recip (t : K) : K := 1 / t

/-- The number itself if it is finite, the undefined value otherwise. -/
def finiteOrNaN (t : K) : K := if isFinite t then t else nan

end Scalar

end CurveSurvey

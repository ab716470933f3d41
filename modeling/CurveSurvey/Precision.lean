import CurveSurvey.Scalar

/-!
# Precisions

What a scan has to know about the accuracy of its numbers: how densely it can
sample, how closely it can refine, and from which magnitude on an ordinate
counts as zero.

* `Precision.nullTolerance` grows with the abscissa, and never falls below the
  square root of the relative precision.
* `Precision.minimalStep` is the spacing of the numbers at an abscissa, and
  never falls below `Precision.gridStep`.
* Single and double precision are the instances; `Widening` says which one
  checks the other.
-/

namespace CurveSurvey

/-- A scalar type with the settings that suit its accuracy. -/
class Precision (K : Type) extends Scalar K where
  /-- The relative spacing of the numbers. -/
  relativePrecision : K
  /-- The smallest step of a scan, and the grid that solutions are snapped to. -/
  gridStep : K
  /-- The absolute accuracy asked of a refinement. -/
  absolutePrecision : K
  /-- Whether a bracket with one undefined end is narrowed before it is given
  up. -/
  narrowsGaps : Bool
  /-- As many points as a walk from one number to the other can visit, when
  each of its steps is at least the minimal one. -/
  stepBound : K → K → Nat

namespace Precision

variable {K : Type} [Precision K]

/-- Ordinates below this magnitude count as zero at the abscissa `x`. -/
def nullTolerance (x : K) : K :=
  Scalar.sqrt relativePrecision * Scalar.larger (Scalar.abs x) 1

/-- The smallest step worth taking away from `x`. -/
def minimalStep (x : K) : K :=
  Scalar.larger gridStep (Scalar.abs x * relativePrecision)

/-- Whether the ordinate `y` counts as zero at the abscissa `x`. -/
def isNull (x y : K) : Bool := Scalar.abs y < nullTolerance x

end Precision

/-- Every number of `K` can be taken to the finer precision `P` unchanged. -/
class Widening (K : Type) (P : outParam Type) where
  /-- The same number in the finer precision. -/
  widen : K → P

/-! ## Double precision -/

instance : Scalar Float where
  decLt := fun s t => inferInstanceAs (Decidable (s < t))
  decLe := fun s t => inferInstanceAs (Decidable (s ≤ t))
  ofNat := Float.ofNat
  nan := 0.0 / 0.0
  infinity := 1.0 / 0.0
  isFinite := Float.isFinite
  abs := Float.abs
  sqrt := Float.sqrt
  exp := Float.exp
  log := Float.log
  log10 := Float.log10
  -- halves go away from zero on either side, so a negative number rounds as its magnitude does
  round := fun t => if t < 0 then -(-t).round else if 0 < t then t.round else t

/-- A monotone walk meets each of the doubles at most once. -/
instance : Precision Float where
  relativePrecision := Float.ofBits 0x3cb0000000000000
  gridStep := 1e-6
  absolutePrecision := 1e-10
  narrowsGaps := true
  stepBound := fun _ _ => UInt64.size

/-! ## Single precision -/

instance : Scalar Float32 where
  decLt := fun s t => inferInstanceAs (Decidable (s < t))
  decLe := fun s t => inferInstanceAs (Decidable (s ≤ t))
  ofNat := Float32.ofNat
  nan := 0.0 / 0.0
  infinity := 1.0 / 0.0
  isFinite := Float32.isFinite
  abs := Float32.abs
  sqrt := Float32.sqrt
  exp := Float32.exp
  log := Float32.log
  log10 := Float32.log10
  -- halves go away from zero on either side, so a negative number rounds as its magnitude does
  round := fun t => if t < 0 then -(-t).round else if 0 < t then t.round else t

/-- Narrowing is left out to keep single precision fast. -/
instance : Precision Float32 where
  relativePrecision := Float32.ofBits 0x34000000
  gridStep := 1e-5
  absolutePrecision := 1e-6
  narrowsGaps := false
  stepBound := fun _ _ => UInt32.size

instance : Widening Float32 Float := ⟨Float32.toFloat⟩

end CurveSurvey

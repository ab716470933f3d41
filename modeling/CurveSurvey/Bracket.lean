import CurveSurvey.Landmark
import CurveSurvey.Point
import CurveSurvey.Precision

/-!
# Brackets

Three samples in the order of a scan, and the tests that say what they show.
The tests look at the ordinates alone, except that `BracketTest.notable` divides
by the abscissa of the middle sample to tell an extremum from the noise of
cancelled digits.
-/

namespace CurveSurvey

/-- Three samples of a function, in the order of a scan. -/
structure Bracket (K : Type) where
  /-- The sample nearest to the start of the scan. -/
  first : Point K
  /-- The sample between the other two. -/
  middle : Point K
  /-- The newest sample. -/
  last : Point K

/-- What a bracket can be tested for. -/
inductive BracketTest where
  /-- The outer ordinates have strictly opposite signs. -/
  | oddRoot
  /-- An odd root, or an extremum, which may touch zero. -/
  | evenOrOddRoot
  /-- The middle ordinate is strictly below the outer ones. -/
  | minimum
  /-- The middle ordinate is strictly above the outer ones. -/
  | maximum
  /-- Exactly one of the outer ordinates is undefined. -/
  | discontinuity
  /-- A root, an extremum or a discontinuity; extrema within the noise do not
  count. -/
  | notable
  deriving DecidableEq, Repr

namespace Bracket

variable {K : Type}

/-- The same samples in the order of the opposite scan. -/
def reversed (b : Bracket K) : Bracket K := ⟨b.last, b.middle, b.first⟩

@[simp] theorem reversed_reversed (b : Bracket K) : b.reversed.reversed = b := rfl

section

variable [Scalar K]

/-- Two ordinates have strictly opposite signs. -/
def signsDiffer (s t : K) : Bool :=
  (decide (s < 0) && decide (0 < t)) || (decide (t < 0) && decide (0 < s))

/-- Exactly one of two samples is undefined. -/
def separates (p q : Point K) : Bool := Scalar.isNaN p.y != Scalar.isNaN q.y

/-- A root between outer ordinates of strictly opposite signs. -/
def oddRoot (b : Bracket K) : Interest := .given (signsDiffer b.first.y b.last.y) .root

/-- A middle ordinate strictly below the outer ones. -/
def minimum (b : Bracket K) : Interest :=
  .given (decide (b.middle.y < b.first.y) && decide (b.middle.y < b.last.y)) .localMinimum

/-- A middle ordinate strictly above the outer ones. -/
def maximum (b : Bracket K) : Interest :=
  .given (decide (b.first.y < b.middle.y) && decide (b.last.y < b.middle.y)) .localMaximum

/-- One defined and one undefined outer ordinate. -/
def discontinuity (b : Bracket K) : Interest := .given (separates b.first b.last) .discontinuity

/-- An odd root, or else an extremum. -/
def evenOrOddRoot (b : Bracket K) : Interest := .first [b.oddRoot, b.minimum, b.maximum]

/-- A root, a minimum, a maximum or a discontinuity, in this order. -/
def anyInterest (b : Bracket K) : Interest :=
  .first [b.oddRoot, b.minimum, b.maximum, b.discontinuity]

end

variable [Precision K]

/-- The rise of the first ordinate over the middle one is lost in the rounding of
numbers as large as the abscissa. -/
def isNoise (b : Bracket K) : Bool :=
  Scalar.abs ((b.first.y - b.middle.y) / b.middle.x) < Precision.relativePrecision

/-- Any interest but an extremum within the noise. -/
def notable (b : Bracket K) : Interest :=
  if b.anyInterest.isExtremum && b.isNoise then .none else b.anyInterest

end Bracket

/-- What a test finds in a bracket. -/
def BracketTest.classify {K : Type} [Precision K] (test : BracketTest) (b : Bracket K) : Interest :=
  match test with
  | .oddRoot => b.oddRoot
  | .evenOrOddRoot => b.evenOrOddRoot
  | .minimum => b.minimum
  | .maximum => b.maximum
  | .discontinuity => b.discontinuity
  | .notable => b.notable

end CurveSurvey

import CurveSurvey.Refinement.Descent
import CurveSurvey.Refinement.Dichotomy
import CurveSurvey.Refinement.SignChange

/-!
# Refinements

What turns the outer abscissae of an interesting bracket, in the order of the
scan, into a point.  An undefined point says that the bracket was a false alarm.
-/

namespace CurveSurvey

/-- The ways to refine a bracket. -/
inductive Refinement where
  /-- Brent's search for a sign change. -/
  | brentRoot
  /-- Brent's search for a minimum. -/
  | brentMinimum
  /-- Brent's search for a maximum. -/
  | brentMaximum
  /-- The Brent search that suits the interest; an extremum has to touch zero. -/
  | compositeRoot
  /-- Golden dichotomy with a number of steps. -/
  | dichotomy (iterations : Nat)
  /-- The far end of the bracket, as it is. -/
  | farEndpoint
  deriving DecidableEq, Repr

namespace Refinement

variable {K : Type} [Precision K]

/-- The point `p` if its ordinate counts as zero, the undefined point otherwise. -/
def touchingZero (p : Point K) : Point K :=
  if Precision.isNull p.x p.y then p else Point.undefined

/-- The root that a bracket of the given interest holds, if it is one. -/
def root (f : K → K) (a b : K) (interest : Interest) (tolerance : Tolerance K) : Point K :=
  match interest with
  | .root => SignChange.find f a b tolerance
  | .localMinimum => touchingZero (Descent.minimum f a b tolerance)
  | .localMaximum => touchingZero (Descent.maximum f a b tolerance)
  | _ => Point.undefined

/-- Refines the bracket of `f` from `a` to `b`, which shows `interest`. -/
def refine (r : Refinement) (f : K → K) (a b : K) (interest : Interest)
    (tolerance : Tolerance K) : Point K :=
  match r with
  | .brentRoot => SignChange.find f a b tolerance
  | .brentMinimum => Descent.minimum f a b tolerance
  | .brentMaximum => Descent.maximum f a b tolerance
  | .compositeRoot => root f a b interest tolerance
  | .dichotomy iterations => GoldenBracket.dichotomy f a b interest iterations
  | .farEndpoint => Point.sample f b

end Refinement

end CurveSurvey

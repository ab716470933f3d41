import CurveSurvey.Bracket
import CurveSurvey.Iteration

/-!
# Narrowing onto the defined side

A bracket of which exactly one end is undefined is bisected onto the border of
the undefined region, so that both of its ends become defined.  This is how a
root right beside such a region is found.
-/

namespace CurveSurvey

namespace Bracket

variable {K : Type} [Precision K]

/-- One bisection: keeps the half whose ends are separated, unless the bracket is
shorter than `least`. -/
def bisect (f : K → K) (least : K) (b : Bracket K) : Step (Bracket K) :=
  if Scalar.abs (b.last.x - b.first.x) < least then .stop b
  else
    let (lower, upper) :=
      if separates b.first b.middle then (b.first, b.middle) else (b.middle, b.last)
    .next ⟨lower, Point.sample f (0.5 * (lower.x + upper.x)), upper⟩

/-- Brings the undefined end next to the border of the undefined region, on the
defined side, and samples the middle anew. -/
def narrowToDefined (f : K → K) (maxSteps : Nat) (b : Bracket K) : Bracket K :=
  let border := Step.iterate (bisect f (Precision.minimalStep b.middle.x)) maxSteps b
  let (first, last) :=
    if Scalar.isNaN border.first.y then (border.last, b.last) else (b.first, border.first)
  ⟨first, Point.sample f (0.5 * (first.x + last.x)), last⟩

end Bracket

end CurveSurvey

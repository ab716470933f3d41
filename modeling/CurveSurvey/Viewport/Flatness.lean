import CurveSurvey.Point

/-!
# Horizontal asymptotes

Where a curve flattens after it was steep, on either side of a center.

* A side starts `Flatness.unknown`; a curve that was never steep has no
  asymptote.
* A steep slope makes it `Flatness.steep`, whatever it was before.
* The first flat slope after a steep one makes its point the candidate.
* Slopes within the hysteresis of the threshold change nothing, so that a curve
  whose slope stays near the threshold does not flicker.
-/

namespace CurveSurvey

/-- What is known of the flatness of a curve on one side. -/
inductive Flatness (K : Type) where
  /-- No steep slope was seen. -/
  | unknown
  /-- The last slope that counted was steep. -/
  | steep
  /-- The curve was steep and has been flat since this point. -/
  | flatFrom (p : Point K)

namespace Flatness

variable {K : Type} [Scalar K]

/-- The state after the first flat slope, seen at `p`.  Only a point at a finite
abscissa is a candidate: an infinite abscissa starts the side afresh. -/
def settleAt (p : Point K) : Flatness K :=
  if Scalar.isFinite p.x then .flatFrom p else if Scalar.isNaN p.x then .steep else .unknown

/-- Takes note of the magnitude of the slope at `p`; `low` and `high` are the ends
of the range of slopes that changes nothing. -/
def update (low high : K) (p : Point K) (slope : K) : Flatness K → Flatness K
  | .steep => if slope < low then settleAt p else .steep
  | state => if high < slope then .steep else state

/-- The point from which on the curve is flat, or the undefined point. -/
def candidate : Flatness K → Point K
  | .flatFrom p => p
  | _ => Point.undefined

end Flatness

/-- What is known of the flatness of a curve on both sides of a center. -/
structure Asymptotes (K : Type) where
  /-- Divides the sides. -/
  center : K
  /-- The slope at which a curve flattens. -/
  threshold : K
  /-- The half width of the range of slopes that changes nothing. -/
  hysteresis : K
  /-- Below the center. -/
  left : Flatness K := .unknown
  /-- From the center on. -/
  right : Flatness K := .unknown

namespace Asymptotes

variable {K : Type} [Scalar K]

/-- Takes note of the slope at `p`. -/
def update (a : Asymptotes K) (p : Point K) (slope : K) : Asymptotes K :=
  let note := Flatness.update (a.threshold - a.hysteresis) (a.threshold + a.hysteresis) p
    (Scalar.abs slope)
  if p.x < a.center then { a with left := note a.left } else { a with right := note a.right }

end Asymptotes

end CurveSurvey

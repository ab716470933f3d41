import CurveSurvey.Precision
import CurveSurvey.Viewport.Window

/-!
# The typical scale of a curve

Rare spikes should not set the scale of a window.  The ordinates above and below
zero are averaged apart, by the mean of their logarithms; each average, enlarged
by the factor `e` and kept within the sampled extrema, extends the magnitude
rectangle.
-/

namespace CurveSurvey

/-- The sum and number of logarithms, as an average of magnitudes is taken. -/
structure LogSum (K : Type) where
  /-- The sum of the logarithms. -/
  sum : K
  /-- Their number. -/
  count : K

namespace LogSum

variable {K : Type} [Scalar K]

/-- No logarithms yet. -/
def empty : LogSum K := ⟨0, 0⟩

/-- Adds the logarithm of a magnitude. -/
def add (s : LogSum K) (magnitude : K) : LogSum K := ⟨s.sum + Scalar.log magnitude, s.count + 1⟩

/-- The geometric mean of the magnitudes times `e`, if there are any. -/
def scale? (s : LogSum K) : Option K :=
  if 0 < s.count then some (Scalar.exp (s.sum / s.count + 1)) else none

end LogSum

/-- What the ordinates of a curve amount to. -/
structure MagnitudeTally (K : Type) where
  /-- The interval of all finite ordinates. -/
  extent : Interval K
  /-- The magnitudes of the ordinates below zero. -/
  below : LogSum K
  /-- The ordinates above zero. -/
  above : LogSum K

namespace MagnitudeTally

variable {K : Type} [Precision K]

/-- No ordinates yet. -/
def empty : MagnitudeTally K := ⟨Interval.unset, LogSum.empty, LogSum.empty⟩

/-- Adds an ordinate.  An infinite one is passed over, and one about zero counts
only toward the extent. -/
def add (limit : K) (t : MagnitudeTally K) (y : K) : MagnitudeTally K :=
  if Scalar.isInfinite y then t
  else
    let t := { t with extent := t.extent.extend y limit }
    if !decide (Precision.gridStep < Scalar.abs y) then t
    else if y < 0 then { t with below := t.below.add (Scalar.abs y) }
    else { t with above := t.above.add y }

/-- The upper end of the typical scale. -/
def upper (t : MagnitudeTally K) : K :=
  match t.above.scale? with
  | some scale => Scalar.smaller t.extent.upper scale
  | none => t.extent.upper

/-- The lower end of the typical scale. -/
def lower (t : MagnitudeTally K) : K :=
  match t.below.scale? with
  | some scale => Scalar.larger t.extent.lower (-scale)
  | none => t.extent.lower

end MagnitudeTally

namespace Viewport

variable {K : Type} [Precision K]

/-- The searched coordinate at evenly spaced parameters of the axis to be shown. -/
def axisSamples (v : Viewport K) (curve : Curve K) (vertical : Bool) : List K :=
  let axis := if vertical then v.sanitized.y else v.sanitized.x
  (spaced axis v.settings.sampleSize).map fun t => searched vertical (curve v.context t)

/-- Extends the magnitude rectangle by the typical scale of a curve. -/
def fitMagnitude (v : Viewport K) (curve : Curve K) (vertical : Bool) : Viewport K :=
  let tally :=
    (v.axisSamples curve vertical).foldl (MagnitudeTally.add v.limit) MagnitudeTally.empty
  let grow (i : Interval K) : Interval K :=
    (i.extend tally.upper v.limit).extend tally.lower v.limit
  let magnitude :=
    if vertical then { v.magnitude with x := grow v.magnitude.x }
    else { v.magnitude with y := grow v.magnitude.y }
  { v with magnitude := magnitude }

end Viewport

end CurveSurvey

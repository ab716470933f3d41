import CurveSurvey.Expression
import CurveSurvey.Rect
import CurveSurvey.Viewport.Settings

/-!
# Viewports

What is gathered about the window in which curves are to be shown.

* The *interesting* rectangle holds every point that must be visible.
* The *magnitude* rectangle tells the typical scale of the curves.
* The *forced* rectangle pins the axes that are set in it.
-/

namespace CurveSurvey

/-- What is known about the window in which curves are shown. -/
structure Viewport (K : Type) where
  /-- The interval that the parameter of a curve runs through. -/
  bounds : Interval K
  /-- The length of the vertical axis over that of the horizontal one when both
  have the same scale. -/
  ratio : K
  /-- No coordinate of the window is larger. -/
  limit : K
  /-- The context of every evaluation. -/
  context : Context
  /-- How the window is fitted. -/
  settings : Viewport.Settings K
  /-- Holds every point that must be visible. -/
  interesting : Rect K
  /-- The typical scale of the curves. -/
  magnitude : Rect K
  /-- Its set axes are shown as they are. -/
  forced : Rect K

namespace Viewport

variable {K : Type} [Scalar K]

/-- The viewport of curves whose parameter runs between two numbers, before
anything is known about them. -/
def new (start goal ratio : K) (context : Context) (limit : K)
    (settings : Settings K := Settings.standard) : Viewport K :=
  { bounds := Interval.between start goal
    ratio := ratio
    limit := limit
    context := context
    settings := settings
    interesting := Rect.unset
    magnitude := Rect.unset
    forced := Rect.unset }

/-- Changes the interval that the parameter runs through. -/
def setBounds (v : Viewport K) (start goal : K) : Viewport K :=
  { v with bounds := Interval.between start goal }

/-- Pins the set axes of a rectangle. -/
def setForced (v : Viewport K) (r : Rect K) : Viewport K := { v with forced := r }

/-! ## Points -/

/-- The coordinate of a point in which a curve is searched. -/
def searched (vertical : Bool) (p : Point K) : K := if vertical then p.x else p.y

/-- Extends a rectangle by a point, given as parameter and searched coordinate,
where it has a position. -/
def fitInto (limit : K) (vertical : Bool) (r : Rect K) (p : Point K) : Rect K :=
  r.extend (if vertical then p.flipped else p).finitePart limit

/-- Makes the points of a list visible. -/
def fitPoints (v : Viewport K) (vertical : Bool) (points : List (Point K)) : Viewport K :=
  { v with interesting := points.foldl (fitInto v.limit vertical) v.interesting }

/-- Points are made visible one after the other. -/
theorem fitPoints_append (v : Viewport K) (vertical : Bool) (l m : List (Point K)) :
    v.fitPoints vertical (l ++ m) = (v.fitPoints vertical l).fitPoints vertical m := by
  simp [fitPoints, List.foldl_append]

/-! ## Evenly spaced samples -/

/-- Evenly spaced numbers from the lower to the upper end of an interval; the last
is exactly the upper end. -/
def spaced (i : Interval K) (count : Nat) : List K :=
  let last := count - 1
  let step := i.length / Scalar.ofNat last
  (List.range count).map fun k =>
    if k = last then i.upper else i.lower + step * Scalar.ofNat k

@[simp] theorem length_spaced (i : Interval K) (count : Nat) : (spaced i count).length = count := by
  simp [spaced]

/-- Makes evenly spaced samples of a curve visible, which covers curves without
any landmark. -/
def fitFullFunction (v : Viewport K) (curve : Curve K) : Viewport K :=
  v.fitPoints false ((spaced v.bounds v.settings.sampleSize).map (curve v.context))

end Viewport

end CurveSurvey

import CurveSurvey.Viewport

/-!
# The displayable window

Turns what a viewport has gathered into a rectangle that can be shown: both axes
set, inside the limit, and not empty.

* `Viewport.sanitized` gives each axis that is unset or a point a length.
* `Viewport.pretty` grows it by the magnitude rectangle, and resizes at most one
  axis toward the ratio.
* `Viewport.window` moves the result inside the limit.
-/

namespace CurveSurvey

namespace Viewport

variable {K : Type} [Scalar K]

/-! ## Lengths for every axis -/

/-- The axis itself if it has a length.  Otherwise it is widened around its point,
or around zero: to `ratio` times the length of the other axis if that has one, to
the default length if not. -/
def sanitizeAxis (axis other : Interval K) (ratio : K) : Interval K :=
  let axis := if axis.isSet then axis else Interval.between 0 0
  if !axis.isPoint then axis
  else
    let c := axis.lower
    let otherLength : K := if other.isSet then other.length else 0
    let half := if otherLength == 0 then Interval.defaultHalfLength else ratio * 0.5 * otherLength
    Interval.between (c - half) (c + half)

/-- The interesting rectangle, or the forced axes, with a length for every axis. -/
def sanitized (v : Viewport K) : Rect K :=
  let x :=
    if v.forced.x.isSet then v.forced.x
    else sanitizeAxis v.interesting.x v.interesting.y (1 / v.ratio)
  let y :=
    if v.forced.y.isSet then v.forced.y
    else sanitizeAxis v.interesting.y x v.ratio
  ⟨x, y⟩

/-- The sanitized rectangle, grown by the magnitude rectangle. -/
def scaled (v : Viewport K) : Rect K :=
  (v.sanitized.extend ⟨v.magnitude.x.lower, v.magnitude.y.lower⟩ v.limit).extend
    ⟨v.magnitude.x.upper, v.magnitude.y.upper⟩ v.limit

/-! ## The ratio of the axes -/

/-- Gives an axis another length around its center, shifted where that keeps the
interesting interval inside. -/
def resizeAxis (axis interesting : Interval K) (length : K) : Interval K :=
  let c := axis.center
  let half := 0.5 * length
  if interesting.lower < c - half then
    Interval.between interesting.lower (interesting.lower + length)
  else if c + half < interesting.upper then
    Interval.between (interesting.upper - length) interesting.upper
  else Interval.between (c - half) (c + half)

/-- Whether an axis may be given the length `normal`: the curve still covers
enough of it, and the interesting interval fits. -/
def isResizable (v : Viewport K) (length normal : K) (interesting : Interval K) : Bool :=
  decide (normal * v.settings.minimalCoverage ≤ length) && decide (interesting.length ≤ normal)

/-- The scaled rectangle with at most one axis resized to the ratio.  When both
could be, the one that grows is; `force` resizes a free axis in any case. -/
def pretty (v : Viewport K) (force : Bool) : Rect K :=
  let r := v.scaled
  let xLength := r.x.length
  let yLength := r.y.length
  let xNormal := yLength / v.ratio
  let yNormal := xLength * v.ratio
  let xFree := !v.forced.x.isSet && (force || v.isResizable xLength xNormal v.interesting.x)
  let yFree := !v.forced.y.isSet && (force || v.isResizable yLength yNormal v.interesting.y)
  let resizeX := if xFree && yFree then decide (xLength < xNormal) else xFree
  let resizeY := if xFree && yFree then decide (yLength < yNormal) else yFree
  if resizeX then { r with x := resizeAxis r.x v.interesting.x xNormal }
  else if resizeY then { r with y := resizeAxis r.y v.interesting.y yNormal }
  else r

/-! ## The limit -/

/-- The interval with the ends of another one, moved inside `±limit` and at least
the minimal length long. -/
def displayable (i : Interval K) (limit : K) : Interval K :=
  (Interval.unset.setLower i.lower limit).setUpper i.upper limit

/-- The rectangle to show. -/
def window (v : Viewport K) (force : Bool) : Rect K :=
  let r := v.pretty force
  ⟨displayable r.x v.limit, displayable r.y v.limit⟩

/-- A displayable rectangle for any rectangle. -/
def sanitize (r : Rect K) (ratio limit : K) : Rect K :=
  window { new (-limit) limit ratio {} limit with interesting := r } false

/-- The window shown when nothing is known. -/
def defaultWindow (ratio limit : K) : Rect K := sanitize Rect.unset ratio limit

end Viewport

end CurveSurvey

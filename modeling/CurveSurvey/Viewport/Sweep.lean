import CurveSurvey.Solver
import CurveSurvey.Viewport
import CurveSurvey.Viewport.Flatness

/-!
# Sweeps

A curve is searched outward from the center of the bounds, first to the right
and then to the left, and every solution is made visible.

* `Sweep.fitSide` goes through the solutions on one side.  A side that reaches
  the point cap is taken to be endless, and the rectangle is rolled back to what
  it was after the first few of its points.
* The bracket around the center, which both sides leave out, is tested last.
* `Viewport.fitPointsOfInterest` adds the horizontal asymptotes of the sides that
  did not reach the cap.
* `Viewport.fitPointsOfInterestPrecise` ends a side where a value is missing only
  for lack of precision.
* `Viewport.fitIntersections` searches the difference of two curves.
-/

namespace CurveSurvey

/-- How a curve is swept, and what of it is shown. -/
structure Sweep (K : Type) where
  /-- The searched coordinate of the curve. -/
  f : Evaluator K
  /-- What the samples are tested for. -/
  test : BracketTest
  /-- How a point is refined. -/
  refinement : Refinement
  /-- Whether the finer precision has a value where this one has none. -/
  isLossAt : K → Bool
  /-- The point to show for a solution. -/
  shown : Point K → Point K

/-- What one side of a sweep leaves behind. -/
structure Side (K S : Type) where
  /-- The rectangle that shows the points of the side. -/
  rect : Rect K
  /-- The side reached the point cap. -/
  isEndless : Bool
  /-- The state of the observer. -/
  state : S

namespace Sweep

variable {K S : Type} [Precision K]

/-- A border of the undefined region at which only this precision has no value. -/
def endsAt (w : Sweep K) (c : Cursor K) : Bool :=
  c.interest == .discontinuity && Scalar.isNaN c.solution.y && w.isLossAt c.solution.x

/-- Makes the solutions on one side visible by `fit`, with a number of points left
until the cap; `snapshot` is the rectangle to go back to when the cap is reached.
It is taken when so many points are left that just those to show were found. -/
def fitSide (w : Sweep K) (solver : Solver K) (observe : Observer K S)
    (fit : Rect K → Point K → Rect K) (snapshotAt : Nat) :
    Nat → Cursor K → S → (snapshot r : Rect K) → Side K S
  | 0, _, state, snapshot, _ => { rect := snapshot, isEndless := true, state := state }
  | left + 1, c, state, snapshot, r =>
    let (c, state) := solver.nextObserved c w.f w.test w.refinement observe state
    if c.isExhausted || w.endsAt c then { rect := r, isEndless := false, state := state }
    else
      let r := fit r (w.shown c.solution)
      let snapshot := if left = snapshotAt then r else snapshot
      w.fitSide solver observe fit snapshotAt left c state snapshot r

end Sweep

/-- What a sweep leaves behind. -/
structure Swept (K S : Type) where
  /-- The viewport that shows the points found. -/
  viewport : Viewport K
  /-- The left side reached the point cap. -/
  leftEndless : Bool
  /-- The right side reached the point cap. -/
  rightEndless : Bool
  /-- The state of the observer. -/
  state : S

namespace Viewport

variable {K S : Type} [Precision K]

/-- Half the width of the bracket around the center `c` of the bounds. -/
def margin (v : Viewport K) (c : K) : K :=
  Scalar.larger v.settings.marginAroundZero (Scalar.abs (c * Precision.relativePrecision))

/-- The middle of the bracket around the center of the bounds, if the bracket is
notable. -/
def centralPoint? (v : Viewport K) (w : Sweep K) : Option (Point K) :=
  let c := v.bounds.center
  let d := v.margin c
  let sample (t : K) : Point K := Point.sample (w.f v.context) t
  let b : Bracket K := ⟨sample (c - d), sample c, sample (c + d)⟩
  if b.notable.isNone then none else some (w.shown b.middle)

/-- Makes the points on one side of the bounds visible. -/
def fitSide (v : Viewport K) (w : Sweep K) (vertical : Bool) (observe : Observer K S)
    (c : Cursor K) (state : S) (r : Rect K) : Side K S :=
  let cap := v.settings.maxPointsOnOneSide
  w.fitSide (Solver.standard v.context) observe (fitInto v.limit vertical)
    (cap - v.settings.maxPointsIfInfinite) cap c state Rect.unset r

/-- Sweeps both sides of the bounds and shows what is found. -/
def sweep (v : Viewport K) (w : Sweep K) (vertical : Bool) (observe : Observer K S)
    (state : S) : Swept K S :=
  let c := v.bounds.center
  let d := v.margin c
  let right :=
    v.fitSide w vertical observe (Cursor.new (c + d) v.bounds.upper) state v.interesting
  let left :=
    v.fitSide w vertical observe (Cursor.new (c - d) v.bounds.lower) right.state right.rect
  let v := { v with interesting := left.rect }
  { viewport := v.fitPoints vertical (v.centralPoint? w).toList
    leftEndless := left.isEndless
    rightEndless := right.isEndless
    state := left.state }

/-! ## Landmarks and asymptotes -/

/-- Takes note of the slope across every sampled bracket, at its newest sample. -/
def noteSlope (event : Event K) (a : Asymptotes K) : Asymptotes K :=
  match event with
  | .sampled ⟨first, _, last⟩ => a.update last ((last.y - first.y) / (last.x - first.x))
  | .refined .. => a

/-- The sweep for the landmarks of a curve. -/
def landmarkSweep (v : Viewport K) (curve : Curve K) (vertical : Bool) (isLossAt : K → Bool) :
    Sweep K :=
  { f := fun context t => searched vertical (curve context t)
    test := .notable
    refinement := .dichotomy v.settings.dichotomyIterations
    isLossAt := isLossAt
    shown := fun p => p }

/-- Shows the landmarks of a curve and its horizontal asymptotes. -/
def fitLandmarks (v : Viewport K) (curve : Curve K) (vertical : Bool) (isLossAt : K → Bool) :
    Viewport K :=
  let asymptotes : Asymptotes K :=
    { center := v.bounds.center
      threshold := v.settings.asymptoteThreshold
      hysteresis := v.settings.asymptoteHysteresis }
  let swept := v.sweep (v.landmarkSweep curve vertical isLossAt) vertical
    (Observer.listening noteSlope) asymptotes
  let left := if swept.leftEndless then [] else [swept.state.left.candidate]
  let right := if swept.rightEndless then [] else [swept.state.right.candidate]
  swept.viewport.fitPoints vertical (left ++ right)

/-- Shows the roots, extrema, discontinuities and horizontal asymptotes of a
curve.  A vertical curve is `x = f y`. -/
def fitPointsOfInterest (v : Viewport K) (curve : Curve K) (vertical : Bool) : Viewport K :=
  v.fitLandmarks curve vertical fun _ => false

/-- Shows the points of interest of a curve that is also given in a finer
precision; a side ends where only this precision has no value. -/
def fitPointsOfInterestPrecise {P : Type} [Scalar P] [Widening K P] (v : Viewport K)
    (curve : Curve K) (precise : Curve P) (vertical : Bool) : Viewport K :=
  v.fitLandmarks curve vertical fun t =>
    Scalar.isFinite (searched vertical (precise v.context (Widening.widen t)))

/-! ## Intersections -/

/-- The sweep for the crossings of two curves. -/
def crossingSweep (v : Viewport K) (curve₁ curve₂ : Curve K) (vertical : Bool) : Sweep K :=
  { f := fun context t =>
      searched vertical (curve₁ context t) - searched vertical (curve₂ context t)
    test := .evenOrOddRoot
    refinement := .farEndpoint
    isLossAt := fun _ => false
    shown := fun p => ⟨p.x, searched vertical (curve₁ v.context p.x)⟩ }

/-- Shows where two curves cross: for each crossing the point of the first curve
just past it. -/
def fitIntersections (v : Viewport K) (curve₁ curve₂ : Curve K) (vertical : Bool) : Viewport K :=
  (v.sweep (v.crossingSweep curve₁ curve₂ vertical) vertical Observer.silent ()).viewport

end Viewport

end CurveSurvey

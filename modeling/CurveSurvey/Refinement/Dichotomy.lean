import CurveSurvey.Bracket
import CurveSurvey.Iteration

/-!
# Golden dichotomy

A bracket of four samples, divided by the golden section on either side and
oriented along the scan.  Narrowing keeps a part that still shows any interest
and prefers the far one, so that its far end is the next place to scan from.

* `GoldenBracket.dichotomy` is the far end of the last bracket.  The ordinate of
  a root is zero, and that of an extremum is undefined when its flanks are
  steeper than the precision resolves: a pole is not an extremum.
-/

namespace CurveSurvey

/-- Four samples along a scan: the two ends and the golden sections.  The near
end lies to the right of the far one in a scan toward smaller abscissae. -/
structure GoldenBracket (K : Type) where
  /-- The end nearest to the start of the scan. -/
  near : Point K
  /-- The golden section nearest to the near end. -/
  innerNear : Point K
  /-- The golden section nearest to the far end. -/
  innerFar : Point K
  /-- The end the scan reaches last. -/
  far : Point K

namespace GoldenBracket

/-- The larger part of the golden section. -/
def inversePhi {K : Type} [Scalar K] : K := 0.6180339887498948

section

variable {K : Type} [Scalar K]

/-- The bracket of `f` from `near` to `far`. -/
def between (f : K → K) (near far : K) : GoldenBracket K :=
  let width := far - near
  { near := Point.sample f near
    innerNear := Point.sample f (near + (1 - inversePhi) * width)
    innerFar := Point.sample f (near + inversePhi * width)
    far := Point.sample f far }

/-- Moves the near end onto the near section. -/
def shrinkNear (f : K → K) (g : GoldenBracket K) : GoldenBracket K :=
  let width := g.far.x - g.innerNear.x
  { near := g.innerNear
    innerNear := g.innerFar
    innerFar := Point.sample f (g.innerNear.x + inversePhi * width)
    far := g.far }

/-- Moves the far end onto the far section. -/
def shrinkFar (f : K → K) (g : GoldenBracket K) : GoldenBracket K :=
  let width := g.innerFar.x - g.near.x
  { near := g.near
    innerNear := Point.sample f (g.near.x + (1 - inversePhi) * width)
    innerFar := g.innerNear
    far := g.innerFar }

/-- The three samples on the far side. -/
def farBracket (g : GoldenBracket K) : Bracket K := ⟨g.innerNear, g.innerFar, g.far⟩

/-- The three samples on the near side. -/
def nearBracket (g : GoldenBracket K) : Bracket K := ⟨g.near, g.innerNear, g.innerFar⟩

/-- One narrowing, onto the far side if it shows anything, else onto the near
side. -/
def narrow (f : K → K) (g : GoldenBracket K) : Step (GoldenBracket K) :=
  if !g.farBracket.anyInterest.isNone then .next (g.shrinkNear f)
  else if !g.nearBracket.anyInterest.isNone then .next (g.shrinkFar f)
  else .stop g

/-- The magnitude of the slope between two samples. -/
def steepness (p q : Point K) : K := Scalar.abs ((q.y - p.y) / (q.x - p.x))

end

variable {K : Type} [Precision K]

/-- The outer parts are steeper than the precision resolves. -/
def isPole (g : GoldenBracket K) : Bool :=
  Scalar.recip Precision.relativePrecision <
    Scalar.larger (steepness g.near g.innerNear) (steepness g.innerFar g.far)

/-- Where the bracket of `f` from `a` to `b`, which shows `interest`, narrows to
in a number of steps. -/
def dichotomy (f : K → K) (a b : K) (interest : Interest) (iterations : Nat) : Point K :=
  let g := Step.iterate (narrow f) iterations (between f a b)
  if interest == .root then g.far.withY 0
  else if interest.isExtremum && g.isPole then g.far.withY Scalar.nan
  else g.far

end GoldenBracket

end CurveSurvey

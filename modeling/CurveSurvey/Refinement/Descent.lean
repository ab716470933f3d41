import CurveSurvey.Iteration
import CurveSurvey.Point
import CurveSurvey.Precision

/-!
# Brent's search for a minimum

The search holds an interval and its three best samples.  Each step samples the
vertex of the parabola through them where that promises enough, and otherwise
the golden section of the longer part of the interval.

* `Descent.maximum` is the minimum of the opposite function, with its
  ordinate turned back.
-/

namespace CurveSurvey

/-- The state of a search for a minimum. -/
structure Descent (K : Type) where
  /-- The lower end of the interval searched. -/
  lower : K
  /-- The upper end of the interval searched. -/
  upper : K
  /-- The best sample. -/
  best : Point K
  /-- The second best sample. -/
  second : Point K
  /-- The second best sample before the current one. -/
  third : Point K
  /-- The last move. -/
  move : K
  /-- The move before the last. -/
  lastMove : K

namespace Descent

/-- The smaller part of the golden section. -/
def goldenFraction {K : Type} [Scalar K] : K := 0.3819660112501051

variable {K : Type} [Precision K]

/-- A magnitude with the sign of another number. -/
def signed (magnitude sign : K) : K :=
  if 0 ≤ sign then Scalar.abs magnitude else -Scalar.abs magnitude

/-- The state before the first step, with one sample at the golden section. -/
def start (f : K → K) (a b : K) : Descent K :=
  let (lower, upper) := if a ≤ b then (a, b) else (b, a)
  let p := Point.sample f (lower + goldenFraction * (upper - lower))
  { lower := lower, upper := upper, best := p, second := p, third := p, move := 0, lastMove := 0 }

/-- The middle of the interval searched. -/
def middle (s : Descent K) : K := 0.5 * (s.lower + s.upper)

/-- The least distance between two samples worth taking. -/
def accuracy (precision : K) (s : Descent K) : K :=
  Scalar.sqrt Precision.relativePrecision * Scalar.abs s.best.x + precision

/-- The move to the vertex of the parabola through the three samples, as a
fraction. -/
def parabola (s : Descent K) : K × K :=
  let r := (s.best.x - s.second.x) * (s.best.y - s.third.y)
  let q := (s.best.x - s.third.x) * (s.best.y - s.second.y)
  let p := (s.best.x - s.third.x) * q - (s.best.x - s.second.x) * r
  let q := 2 * (q - r)
  (if 0 < q then -p else p, Scalar.abs q)

/-- The move to the golden section of the longer part of the interval, and the
length of that part. -/
def goldenMove (s : Descent K) : K × K :=
  let part := if s.middle ≤ s.best.x then s.lower - s.best.x else s.upper - s.best.x
  (goldenFraction * part, part)

/-- The next move and the one to remember as the last.  The parabola is used
while it stays inside the interval and halves the move before the last. -/
def nextMove (accuracy : K) (s : Descent K) : K × K :=
  if accuracy < Scalar.abs s.lastMove then
    let (p, q) := s.parabola
    if decide (Scalar.abs p < Scalar.abs (0.5 * q * s.lastMove)) &&
        decide (q * (s.lower - s.best.x) < p) && decide (p < q * (s.upper - s.best.x)) then
      let move := p / q
      let u := s.best.x + move
      if decide (u - s.lower < 2 * accuracy) || decide (s.upper - u < 2 * accuracy) then
        (signed accuracy (s.middle - s.best.x), s.move)
      else (move, s.move)
    else s.goldenMove
  else s.goldenMove

/-- Where the next sample is taken: at least the accuracy away from the best. -/
def target (accuracy move : K) (s : Descent K) : K :=
  if accuracy ≤ Scalar.abs move then s.best.x + move else s.best.x + signed accuracy move

/-- Takes in a new sample: narrows the interval around the better of it and the
best one, and keeps the three best. -/
def place (s : Descent K) (u : Point K) : Descent K :=
  if u.y ≤ s.best.y then
    let s := if s.best.x ≤ u.x then { s with lower := s.best.x } else { s with upper := s.best.x }
    { s with third := s.second, second := s.best, best := u }
  else
    let s := if u.x < s.best.x then { s with lower := u.x } else { s with upper := u.x }
    if decide (u.y ≤ s.second.y) || s.second.x == s.best.x then
      { s with third := s.second, second := u }
    else if decide (u.y ≤ s.third.y) || s.third.x == s.best.x || s.third.x == s.second.x then
      { s with third := u }
    else s

/-- One step of the search. -/
def step (f : K → K) (precision : K) (s : Descent K) : Step (Descent K) :=
  let accuracy := s.accuracy precision
  if Scalar.abs (s.best.x - s.middle) ≤ 2 * accuracy - 0.5 * (s.upper - s.lower) then .stop s
  else
    let (move, lastMove) := s.nextMove accuracy
    let u := Point.sample f (s.target accuracy move)
    .next ({ s with move := move, lastMove := lastMove }.place u)

/-- A local minimum of `f` between `a` and `b`. -/
def minimum (f : K → K) (a b : K) (tolerance : Tolerance K) : Point K :=
  (Step.iterate (step f tolerance.precision) tolerance.maxIterations (start f a b)).best

/-- A local maximum of `f` between `a` and `b`. -/
def maximum (f : K → K) (a b : K) (tolerance : Tolerance K) : Point K :=
  let p := minimum (fun x => -f x) a b tolerance
  p.withY (-p.y)

end Descent

end CurveSurvey

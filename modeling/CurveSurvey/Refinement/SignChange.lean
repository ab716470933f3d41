import CurveSurvey.Bracket
import CurveSurvey.Iteration

/-!
# Brent's search for a sign change

The search holds an estimate, the estimate before it, and a counterpart at which
the function has the opposite sign.  Each step moves the estimate by inverse
quadratic interpolation or a secant where these promise enough, and otherwise to
the middle between estimate and counterpart.

* `SignChange.find` is undefined when the ends do not have strictly opposite
  signs, and also when the last ordinate is larger than both outer ones: a sign
  change across a pole narrows onto the pole.
-/

namespace CurveSurvey

/-- The state of a search for a sign change. -/
structure SignChange (K : Type) where
  /-- The estimate before the current one. -/
  previous : Point K
  /-- The current estimate. -/
  estimate : Point K
  /-- A sample whose sign is opposite to that of the estimate. -/
  counterpart : Point K
  /-- The last move. -/
  move : K
  /-- The move before the last. -/
  lastMove : K

namespace SignChange

variable {K : Type} [Precision K]

/-- The state before the first step. -/
def start (a b : Point K) : SignChange K :=
  let width := b.x - a.x
  { previous := a, estimate := b, counterpart := a, move := width, lastMove := width }

/-- Takes the previous estimate as counterpart when the estimate has come to the
counterpart's side. -/
def opposed (s : SignChange K) : SignChange K :=
  if decide (0 < s.estimate.y) == decide (0 < s.counterpart.y) then
    let width := s.estimate.x - s.previous.x
    { s with counterpart := s.previous, move := width, lastMove := width }
  else s

/-- Exchanges estimate and counterpart when the counterpart is nearer to zero. -/
def ordered (s : SignChange K) : SignChange K :=
  if Scalar.abs s.counterpart.y < Scalar.abs s.estimate.y then
    { s with previous := s.estimate, estimate := s.counterpart, counterpart := s.estimate }
  else s

/-- The accuracy that can be asked of the estimate. -/
def accuracy (precision : K) (s : SignChange K) : K :=
  2 * Precision.relativePrecision * Scalar.abs s.estimate.x + 0.5 * precision

/-- Half the way from the estimate to the counterpart. -/
def halfway (s : SignChange K) : K := 0.5 * (s.counterpart.x - s.estimate.x)

/-- The interpolated move as a fraction whose numerator is not below zero: by a
secant, or by an inverse parabola if the three samples are distinct. -/
def interpolation (s : SignChange K) : K × K :=
  let m := s.halfway
  let ratio := s.estimate.y / s.previous.y
  let (p, q) :=
    if s.previous.x == s.counterpart.x then (2 * m * ratio, 1 - ratio)
    else
      let q := s.previous.y / s.counterpart.y
      let r := s.estimate.y / s.counterpart.y
      (ratio * (2 * m * q * (q - r) - (s.estimate.x - s.previous.x) * (r - 1)),
        (q - 1) * (r - 1) * (ratio - 1))
  if 0 < p then (p, -q) else (-p, q)

/-- The next move and the one to remember as the last.  Interpolation is used
while it more than halves the last move and stays short of three quarters of the
way to the counterpart. -/
def nextMove (accuracy : K) (s : SignChange K) : K × K :=
  let m := s.halfway
  if decide (accuracy ≤ Scalar.abs s.lastMove) &&
      decide (Scalar.abs s.estimate.y < Scalar.abs s.previous.y) then
    let (p, q) := s.interpolation
    if 2 * p < Scalar.smaller (3 * m * q - Scalar.abs (accuracy * q))
        (Scalar.abs (s.lastMove * q)) then
      (p / q, s.move)
    else (m, m)
  else (m, m)

/-- Where the next estimate is sampled: at least the accuracy away. -/
def target (accuracy move : K) (s : SignChange K) : K :=
  if accuracy < Scalar.abs move then s.estimate.x + move
  else if 0 < s.halfway then s.estimate.x + accuracy
  else s.estimate.x - accuracy

/-- One step of the search. -/
def step (f : K → K) (precision : K) (s : SignChange K) : Step (SignChange K) :=
  let s := s.opposed.ordered
  let accuracy := s.accuracy precision
  if decide (Scalar.abs s.halfway ≤ accuracy) || s.estimate.y == 0 then .stop s
  else
    let (move, lastMove) := s.nextMove accuracy
    .next
      { previous := s.estimate
        estimate := Point.sample f (s.target accuracy move)
        counterpart := s.counterpart
        move := move
        lastMove := lastMove }

/-- The sign change of `f` between `a` and `b`, undefined if there is none or if
it is a pole. -/
def find (f : K → K) (a b : K) (tolerance : Tolerance K) : Point K :=
  let near := Point.sample f a
  let far := Point.sample f b
  if near.y == 0 then ⟨a, 0⟩
  else if far.y == 0 then ⟨b, 0⟩
  else if !Bracket.signsDiffer near.y far.y then Point.undefined
  else
    let bound := Scalar.smaller (Scalar.abs near.y) (Scalar.abs far.y)
    let final := Step.iterate (step f tolerance.precision) tolerance.maxIterations (start near far)
    let result := final.estimate
    if Scalar.abs result.y ≤ bound then result else Point.undefined

end SignChange

end CurveSurvey

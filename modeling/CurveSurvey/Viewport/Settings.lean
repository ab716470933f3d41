import CurveSurvey.Scalar

/-!
# Settings of a viewport

How many points and samples a viewport is fitted to, and how far it may be
resized.  The standard settings suit a display of about 320 pixels; each setter
refuses a value that cannot be used.
-/

namespace CurveSurvey

namespace Viewport

/-- The settings of a viewport. -/
structure Settings (K : Type) where
  /-- The number of evenly spaced samples of a curve. -/
  sampleSize : Nat
  /-- From this number of points on, a sweep takes them to be endless. -/
  maxPointsOnOneSide : Nat
  /-- How many of endless points are shown. -/
  maxPointsIfInfinite : Nat
  /-- Half the width of the bracket around the center of the bounds. -/
  marginAroundZero : K
  /-- The slope at which a curve flattens into a horizontal asymptote. -/
  asymptoteThreshold : K
  /-- The half width of the range of slopes around the threshold that changes
  nothing. -/
  asymptoteHysteresis : K
  /-- The number of steps by which a point is refined. -/
  dichotomyIterations : Nat
  /-- The share of a resized axis that the curve must cover. -/
  minimalCoverage : K
  deriving BEq

namespace Settings

/-- Why a setting cannot be used. -/
inductive Error where
  /-- There are fewer than two samples. -/
  | sampleSize
  /-- The points shown of endless ones are none, or as many as it takes to be
  endless. -/
  | pointCaps
  /-- The margin is not a finite positive number. -/
  | margin
  /-- The hysteresis is negative or reaches the threshold. -/
  | asymptote
  /-- The coverage is no share. -/
  | coverage
  deriving DecidableEq, Repr

/-- What is said of an unusable setting. -/
def Error.message : Error → String
  | .sampleSize => "sample_size must be at least 2"
  | .pointCaps => "max_points_if_infinite must be positive and below max_points_on_one_side"
  | .margin => "margin_around_zero must be finite and positive"
  | .asymptote => "asymptote hysteresis must be non-negative and below the threshold"
  | .coverage => "minimal_coverage must lie in (0, 1]"

variable {K : Type} [Scalar K]

/-- The settings for a display of about 320 pixels. -/
def standard : Settings K :=
  { sampleSize := 160
    maxPointsOnOneSide := 20
    maxPointsIfInfinite := 5
    marginAroundZero := 1e-2
    asymptoteThreshold := 0.2
    asymptoteHysteresis := 0.01
    dichotomyIterations := 9
    minimalCoverage := 0.3 }

/-- Sets the number of evenly spaced samples. -/
def withSampleSize (s : Settings K) (n : Nat) : Except Error (Settings K) :=
  if n < 2 then .error .sampleSize else .ok { s with sampleSize := n }

/-- Sets how many points count as endless, and how many of those are shown. -/
def withPointCaps (s : Settings K) (onOneSide ifInfinite : Nat) : Except Error (Settings K) :=
  if ifInfinite = 0 ∨ onOneSide ≤ ifInfinite then .error .pointCaps
  else .ok { s with maxPointsOnOneSide := onOneSide, maxPointsIfInfinite := ifInfinite }

/-- Sets half the width of the bracket around the center. -/
def withMarginAroundZero (s : Settings K) (margin : K) : Except Error (Settings K) :=
  if !Scalar.isFinite margin || decide (margin ≤ 0) then .error .margin
  else .ok { s with marginAroundZero := margin }

/-- Sets the slope of an asymptote and the hysteresis around it. -/
def withAsymptoteThreshold (s : Settings K) (threshold hysteresis : K) :
    Except Error (Settings K) :=
  if !Scalar.isFinite threshold || !Scalar.isFinite hysteresis || decide (hysteresis < 0) ||
      decide (threshold ≤ hysteresis) then
    .error .asymptote
  else .ok { s with asymptoteThreshold := threshold, asymptoteHysteresis := hysteresis }

/-- Sets the number of steps by which a point is refined. -/
def withDichotomyIterations (s : Settings K) (n : Nat) : Settings K :=
  { s with dichotomyIterations := n }

/-- Sets the share of a resized axis that the curve must cover. -/
def withMinimalCoverage (s : Settings K) (coverage : K) : Except Error (Settings K) :=
  if decide (0 < coverage) && decide (coverage ≤ 1) then
    .ok { s with minimalCoverage := coverage }
  else .error .coverage

end Settings

end Viewport

end CurveSurvey

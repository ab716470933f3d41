import CurveSurvey.Precision

/-!
# Settings of a scan

How closely a scan refines and how many samples it may take.  The settings of a
precision are fit for use; others pass through `Settings.validate`, which names
the first one that is not.
-/

namespace CurveSurvey

/-- The settings of a scan. -/
structure Settings (K : Type) where
  /-- The absolute accuracy asked of Brent's methods. -/
  absolutePrecision : K
  /-- Whether a bracket with one undefined end is narrowed before it is given
  up. -/
  narrowsGaps : Bool
  /-- The number of bisections such a narrowing may take. -/
  maxNarrowings : Nat
  /-- The number of samples a search may take. -/
  maxSamples : Nat
  /-- The number of steps Brent's methods may take. -/
  maxIterations : Nat
  deriving BEq

namespace Settings

/-- Why settings cannot be used. -/
inductive Error where
  /-- The accuracy is not a finite positive number. -/
  | precision
  /-- There are too few samples to make a bracket. -/
  | samples
  /-- Brent's methods may not take a single step. -/
  | iterations
  deriving DecidableEq, Repr

/-- What is said of unusable settings. -/
def Error.message : Error → String
  | .precision => "absolute_precision must be finite and positive"
  | .samples => "max_samples must be at least 3"
  | .iterations => "brent_max_iters must be positive"

/-- The settings that suit a precision. -/
def standard {K : Type} [Precision K] : Settings K :=
  { absolutePrecision := Precision.absolutePrecision
    narrowsGaps := Precision.narrowsGaps K
    maxNarrowings := 128
    maxSamples := 100000
    maxIterations := 100 }

variable {K : Type} [Scalar K]

/-- The settings themselves if they can be used, the first fault otherwise. -/
def validate (s : Settings K) : Except Error (Settings K) :=
  if !Scalar.isFinite s.absolutePrecision || decide (s.absolutePrecision ≤ 0) then
    .error .precision
  else if s.maxSamples < 3 then .error .samples
  else if s.maxIterations = 0 then .error .iterations
  else .ok s

/-- Validation changes nothing. -/
theorem eq_of_validate {s t : Settings K} (h : s.validate = .ok t) : t = s := by
  unfold validate at h
  split at h
  · cases h
  · split at h
    · cases h
    · split at h
      · cases h
      · cases h
        rfl

end Settings

end CurveSurvey

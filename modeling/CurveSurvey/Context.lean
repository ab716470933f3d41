/-!
# Evaluation contexts

The settings an evaluator needs beside the abscissa.  A scan never looks into
them: it hands them to every evaluation.
-/

namespace CurveSurvey

/-- How results that are not real are shown. -/
inductive ComplexFormat where
  /-- Such a result is undefined. -/
  | real
  /-- Real and imaginary part. -/
  | cartesian
  /-- Modulus and argument. -/
  | polar
  deriving DecidableEq, Repr, Inhabited

/-- The unit of the arguments of the trigonometric functions. -/
inductive AngleUnit where
  | radian
  | degree
  | gradian
  deriving DecidableEq, Repr, Inhabited

/-- The settings of an evaluation. -/
structure Context where
  /-- How results that are not real are shown. -/
  complexFormat : ComplexFormat := .real
  /-- The unit of angles. -/
  angleUnit : AngleUnit := .radian
  deriving DecidableEq, Repr, Inhabited

end CurveSurvey

/-!
# Landmarks of a curve

What makes a point of a curve worth showing, and such a point.
-/

namespace CurveSurvey

/-- What a bracket shows, and what a point found by a scan stands for. -/
inductive Interest where
  /-- Nothing of interest. -/
  | none
  | root
  | localMinimum
  | localMaximum
  /-- A border between where the function is defined and where it is not. -/
  | discontinuity
  /-- A root of the difference of two functions. -/
  | intersection
  deriving DecidableEq, Repr, Inhabited

namespace Interest

/-- Nothing of interest. -/
def isNone (i : Interest) : Bool := i == .none

/-- A local minimum or maximum. -/
def isExtremum (i : Interest) : Bool := i == .localMinimum || i == .localMaximum

/-- The interest `i` if the condition holds, nothing otherwise. -/
def given (condition : Bool) (i : Interest) : Interest := if condition then i else .none

/-- The first member of a list that is of interest. -/
def first (candidates : List Interest) : Interest :=
  (candidates.find? fun i => !i.isNone).getD .none

theorem isNone_iff {i : Interest} : i.isNone = true ↔ i = .none := by
  cases i <;> decide

@[simp] theorem given_true (i : Interest) : given true i = i := rfl

@[simp] theorem given_false (i : Interest) : given false i = .none := rfl

@[simp] theorem first_nil : first [] = .none := rfl

theorem first_cons (i : Interest) (rest : List Interest) :
    first (i :: rest) = if i = .none then first rest else i := by
  cases i <;> rfl

end Interest

/-- A point of a curve with what it stands for. -/
structure Landmark (K : Type) where
  /-- The abscissa. -/
  x : K
  /-- The ordinate. -/
  y : K
  /-- What the point stands for. -/
  interest : Interest

end CurveSurvey

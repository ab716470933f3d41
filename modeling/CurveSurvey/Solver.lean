import CurveSurvey.Expression
import CurveSurvey.Scan

/-!
# Solvers

A solver holds what many scans share: the context of every evaluation and the
numerical settings.  The progress of a scan is in the cursor, which every search
takes and returns.
-/

namespace CurveSurvey

/-- What many scans share. -/
structure Solver (K : Type) where
  /-- The context of every evaluation. -/
  context : Context
  /-- The numerical settings. -/
  settings : Settings K

namespace Solver

variable {K S : Type} [Precision K]

/-- The solver with the settings of the precision. -/
def standard (context : Context) : Solver K := ⟨context, Settings.standard⟩

/-- The scan that a search makes. -/
def scan (solver : Solver K) (c : Cursor K) (f : Evaluator K) (test : BracketTest)
    (refinement : Refinement) : Scan K :=
  { cursor := c, f := f solver.context, test := test, refinement := refinement
    settings := solver.settings }

/-- The next point where the test finds something and the refinement succeeds,
with every step shown to the observer. -/
def nextObserved (solver : Solver K) (c : Cursor K) (f : Evaluator K) (test : BracketTest)
    (refinement : Refinement) (observe : Observer K S) (state : S) : Cursor K × S :=
  (solver.scan c f test refinement).run observe state

/-- The next point where the test finds something and the refinement succeeds. -/
def next (solver : Solver K) (c : Cursor K) (f : Evaluator K) (test : BracketTest)
    (refinement : Refinement) : Cursor K :=
  (solver.nextObserved c f test refinement Observer.silent ()).1

/-- The next local minimum. -/
def nextMinimum (solver : Solver K) (c : Cursor K) (e : Expression K) : Cursor K :=
  solver.next c e.evaluate .minimum .brentMinimum

/-- The next local maximum. -/
def nextMaximum (solver : Solver K) (c : Cursor K) (e : Expression K) : Cursor K :=
  solver.next c e.evaluate .maximum .brentMaximum

end Solver

end CurveSurvey

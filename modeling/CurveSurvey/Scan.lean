import CurveSurvey.Cursor
import CurveSurvey.Refinement
import CurveSurvey.Scan.Event
import CurveSurvey.Scan.Narrowing
import CurveSurvey.Scan.Settings

/-!
# Scans

A scan samples a function from the position of a cursor toward its goal.  Each
new sample completes a bracket; an interesting one is refined, and the first
refined point that the cursor accepts is the solution.

* `Scan.classify` gives a bracket with one undefined end a second chance after
  narrowing it.
* `Scan.settle` moves a solution onto the grid of the precision where that does
  not make it worse.
* `Scan.run` is the cursor moved onto the solution, or exhausted, together with
  the state of the observer.
-/

namespace CurveSurvey

/-- What is scanned, for what, and how. -/
structure Scan (K : Type) where
  /-- Where the scan starts and ends. -/
  cursor : Cursor K
  /-- The function. -/
  f : K → K
  /-- What a bracket is tested for. -/
  test : BracketTest
  /-- How an interesting bracket is refined. -/
  refinement : Refinement
  /-- The numerical settings. -/
  settings : Settings K

namespace Scan

variable {K S : Type} [Precision K]

/-! ## One bracket -/

/-- The bracket as it is to be refined, with what it shows. -/
def classify (s : Scan K) (b : Bracket K) : Bracket K × Interest :=
  let interest := s.test.classify b
  if interest.isNone && s.settings.narrowsGaps && !b.discontinuity.isNone then
    let narrowed := b.narrowToDefined s.f s.settings.maxNarrowings
    (narrowed, s.test.classify narrowed)
  else (b, interest)

/-- The tolerance of the refinements. -/
def tolerance (s : Scan K) : Tolerance K :=
  { precision := s.settings.absolutePrecision, maxIterations := s.settings.maxIterations }

/-- The refined point of a bracket that shows `interest`. -/
def refine (s : Scan K) (b : Bracket K) (interest : Interest) : Point K :=
  s.refinement.refine s.f b.first.x b.last.x interest s.tolerance

/-- Whether a refined point is accepted as the solution. -/
def isValid (s : Scan K) (p : Point K) : Bool := Scalar.isFinite p.x && s.cursor.accepts p.x

/-- The multiple of the grid step nearest to `x`. -/
def onGrid (x : K) : K :=
  let scale := Scalar.recip (Precision.gridStep : K)
  Scalar.round (x * scale) / scale

/-- Whether the ordinate `y` is a better solution than the ordinate `refined`. -/
def improves (interest : Interest) (y refined : K) : Bool :=
  match interest with
  | .root => y == 0
  | .localMinimum => decide (y < refined)
  | .localMaximum => decide (refined < y)
  | _ => false

/-- The point to report for a refined one: its neighbour on the grid if the cursor
accepts that and it is no worse, the refined point otherwise. -/
def snapped (s : Scan K) (p : Point K) (interest : Interest) : Point K :=
  let x := onGrid p.x
  if x != p.x && s.cursor.accepts x then
    let y := s.f x
    if improves interest y p.y || y == p.y then ⟨x, y⟩ else p
  else p

/-- The cursor moved onto a refined point. -/
def settle (s : Scan K) (p : Point K) (interest : Interest) : Cursor K :=
  s.cursor.found (s.snapped p interest) interest

/-- Shows a bracket to the observer, tests and refines it.  There is a cursor if
this ends the scan. -/
def examine (s : Scan K) (observe : Observer K S) (b : Bracket K) (state : S) :
    Option (Cursor K) × S :=
  match observe (.sampled b) state with
  | (some .stop, state) => (some s.cursor.exhaust, state)
  | (some .ignore, state) => (none, state)
  | (none, state) =>
    let (b, interest) := s.classify b
    if interest.isNone then (none, state)
    else
      let p := s.refine b interest
      let valid := s.isValid p
      match observe (.refined p interest valid) state with
      | (some .stop, state) => (some s.cursor.exhaust, state)
      | (some .ignore, state) => (none, state)
      | (none, state) => if valid then (some (s.settle p interest), state) else (none, state)

/-! ## The walk -/

/-- The sample at `x`. -/
def sample (s : Scan K) (x : K) : Point K := Point.sample s.f x

/-- The sample that follows the one at `x`. -/
def following (s : Scan K) (x : K) : Point K := s.sample (s.cursor.nextX x s.cursor.goal)

/-- Whether `x` lies strictly between the start and the goal. -/
def isUnderway (s : Scan K) (x : K) : Bool :=
  decide (s.cursor.position < x) == decide (x < s.cursor.goal)

/-- Goes on from the last two samples, with a number of samples left to take. -/
def advance (s : Scan K) (observe : Observer K S) :
    Nat → Point K → Point K → S → Cursor K × S
  | 0, _, _, state => (s.cursor.exhaust, state)
  | left + 1, middle, last, state =>
    if s.isUnderway last.x then
      let next := s.following last.x
      match s.examine observe ⟨middle, last, next⟩ state with
      | (some cursor, state) => (cursor, state)
      | (none, state) => s.advance observe left last next state
    else (s.cursor.exhaust, state)

/-- The cursor after the scan, and the state of the observer. -/
def run (s : Scan K) (observe : Observer K S) (state : S) : Cursor K × S :=
  if s.cursor.isExhausted then (s.cursor, state)
  else
    let start := s.sample s.cursor.position
    s.advance observe (s.settings.maxSamples - 2) start (s.following start.x) state

/-- A cursor that is exhausted stays as it is, and the observer sees nothing. -/
theorem run_of_isExhausted (s : Scan K) (observe : Observer K S) (state : S)
    (h : s.cursor.isExhausted = true) : s.run observe state = (s.cursor, state) := by
  rw [run, if_pos h]

end Scan

end CurveSurvey

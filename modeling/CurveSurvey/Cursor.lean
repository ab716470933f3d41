import CurveSurvey.Landmark
import CurveSurvey.Point
import CurveSurvey.Precision

/-!
# Cursors

Where a scan stands.  A cursor goes from its position toward its goal, which may
lie on either side; a search returns it moved onto what it found, or exhausted.

* `Cursor.accepts` admits only abscissae strictly between the position, moved by
  one minimal step, and the goal: anything closer is the last solution again.
* `Cursor.nextX` is the adaptive step.  It grows by a twentieth while the
  abscissa has a usual magnitude and up to tenfold beyond, and stays between the
  minimal step and the maximal step of the cursor.
-/

namespace CurveSurvey

/-- How the last search of a cursor ended. -/
inductive Outcome (K : Type) where
  /-- There was no search yet. -/
  | pending
  /-- The position is a point of the given interest and ordinate. -/
  | found (interest : Interest) (ordinate : K)
  /-- Nothing is left before the goal. -/
  | exhausted

/-- The state of a scan between two searches. -/
structure Cursor (K : Type) where
  /-- Where the next search starts: the abscissa found last. -/
  position : K
  /-- Where the scan ends. -/
  goal : K
  /-- The largest step between two samples. -/
  maximalStep : K
  /-- How the last search ended. -/
  outcome : Outcome K

namespace Cursor

variable {K : Type}

/-- The last search found nothing. -/
def isExhausted (c : Cursor K) : Bool :=
  match c.outcome with
  | .exhausted => true
  | _ => false

/-- What the last search found. -/
def interest (c : Cursor K) : Interest :=
  match c.outcome with
  | .found interest _ => interest
  | _ => .none

/-- The last solution with what it stands for. -/
def landmark? (c : Cursor K) : Option (Landmark K) :=
  match c.outcome with
  | .found .none _ => none
  | .found interest ordinate => some ⟨c.position, ordinate, interest⟩
  | _ => none

/-- The cursor of a search that found nothing. -/
def exhaust (c : Cursor K) : Cursor K := { c with outcome := .exhausted }

/-- The same abscissa, presented as another interest with another ordinate. -/
def relabel (c : Cursor K) (interest : Interest) (ordinate : K) : Cursor K :=
  { c with outcome := .found interest ordinate }

@[simp] theorem exhaust_position (c : Cursor K) : c.exhaust.position = c.position := rfl

@[simp] theorem exhaust_goal (c : Cursor K) : c.exhaust.goal = c.goal := rfl

@[simp] theorem isExhausted_exhaust (c : Cursor K) : c.exhaust.isExhausted = true := rfl

@[simp] theorem interest_exhaust (c : Cursor K) : c.exhaust.interest = .none := rfl

@[simp] theorem landmark?_exhaust (c : Cursor K) : c.exhaust.landmark? = none := rfl

@[simp] theorem relabel_position (c : Cursor K) (interest : Interest) (ordinate : K) :
    (c.relabel interest ordinate).position = c.position := rfl

@[simp] theorem interest_relabel (c : Cursor K) (interest : Interest) (ordinate : K) :
    (c.relabel interest ordinate).interest = interest := rfl

theorem interest_of_isExhausted {c : Cursor K} (h : c.isExhausted = true) :
    c.interest = .none := by
  obtain ⟨position, goal, maximalStep, outcome⟩ := c
  cases outcome with
  | exhausted => rfl
  | pending => rfl
  | found interest ordinate => cases h

theorem landmark?_of_isExhausted {c : Cursor K} (h : c.isExhausted = true) :
    c.landmark? = none := by
  obtain ⟨position, goal, maximalStep, outcome⟩ := c
  cases outcome with
  | exhausted => rfl
  | pending => rfl
  | found interest ordinate => cases h

/-- There is a landmark exactly when the last search found something. -/
theorem isSome_landmark? (c : Cursor K) : c.landmark?.isSome = !c.interest.isNone := by
  obtain ⟨position, goal, maximalStep, outcome⟩ := c
  cases outcome with
  | pending => rfl
  | exhausted => rfl
  | found interest ordinate => cases interest <;> rfl

section

variable [Scalar K]

/-- The ordinate of the last solution, undefined if there is none. -/
def ordinate (c : Cursor K) : K :=
  match c.outcome with
  | .found _ ordinate => ordinate
  | _ => Scalar.nan

/-- The last solution, or the undefined point. -/
def solution (c : Cursor K) : Point K :=
  if c.interest.isNone then Point.undefined else ⟨c.position, c.ordinate⟩

/-- The sign of the moves of a scan: `1` toward larger abscissae, `-1` otherwise. -/
def direction (c : Cursor K) : K := if c.position < c.goal then 1 else -1

/-- Widens the scan by one maximal step on either side, so that what lies exactly
on its ends is then strictly inside. -/
def stretch (c : Cursor K) : Cursor K :=
  let step := c.direction * c.maximalStep
  { c with position := c.position - step, goal := c.goal + step }

end

variable [Precision K]

/-- A scan from `start` to `goal`.  Its largest step is a hundredth of the
distance; with an undefined end there is nothing to scan. -/
def new (start goal : K) : Cursor K :=
  { position := start
    goal := goal
    maximalStep := Scalar.larger Precision.gridStep (Scalar.abs (goal - start) / 100)
    outcome := if Scalar.isNaN start || Scalar.isNaN goal then .exhausted else .pending }

/-- Whether a search may report `x`: it lies more than a minimal step beyond the
position and strictly before the goal. -/
def accepts (c : Cursor K) (x : K) : Bool :=
  let step := Precision.minimalStep c.position
  if c.position < c.goal then decide (c.position + step < x) && decide (x < c.goal)
  else decide (c.goal < x) && decide (x < c.position - step)

/-- Moves the cursor onto a solution.  An ordinate that counts as zero becomes
zero. -/
def found (c : Cursor K) (p : Point K) (interest : Interest) : Cursor K :=
  { c with
    position := p.x
    outcome := .found interest (if Precision.isNull p.x p.y then 0 else p.y) }

@[simp] theorem found_position (c : Cursor K) (p : Point K) (interest : Interest) :
    (c.found p interest).position = p.x := rfl

@[simp] theorem found_goal (c : Cursor K) (p : Point K) (interest : Interest) :
    (c.found p interest).goal = c.goal := rfl

@[simp] theorem found_maximalStep (c : Cursor K) (p : Point K) (interest : Interest) :
    (c.found p interest).maximalStep = c.maximalStep := rfl

@[simp] theorem interest_found (c : Cursor K) (p : Point K) (interest : Interest) :
    (c.found p interest).interest = interest := rfl

@[simp] theorem isExhausted_found (c : Cursor K) (p : Point K) (interest : Interest) :
    (c.found p interest).isExhausted = false := rfl

/-- A solution may be presented as another interest. -/
theorem relabel_found (c : Cursor K) (p : Point K) (interest other : Interest) :
    (c.found p interest).relabel other (c.found p interest).ordinate = c.found p other := rfl

/-! ## The adaptive step -/

/-- By how many decimal orders a magnitude lies outside `[0.1, 100]`, when its
decimal logarithm is given. -/
def unusualOrders (magnitude : K) : K :=
  if magnitude < -1 then -1 - magnitude
  else if 2 < magnitude then magnitude - 2
  else 0

/-- The ratio of successive abscissae at a distance from the usual magnitudes:
1.05 there, and approaching 10 with the cube of the distance. -/
def growth (orders : K) : K :=
  10 - (10 - 1.05) * Scalar.exp (-1e-2 * (orders * (orders * orders)))

/-- The abscissa to sample after `x` on the way toward `toward`. -/
def nextX (c : Cursor K) (x toward : K) : K :=
  let sign : K := if x < toward then 1 else -1
  let least := Precision.minimalStep x
  let magnitude := Scalar.log10 (Scalar.abs x)
  if !Scalar.isFinite magnitude || decide (c.maximalStep ≤ least) then
    x + sign * least
  else
    let ratio := growth (unusualOrders magnitude)
    let towardZero := decide (x < toward) == decide (x < 0)
    let target := if towardZero then x / ratio else x * ratio
    let step := Scalar.smaller (Scalar.larger (Scalar.abs (target - x)) least) c.maximalStep
    x + sign * step

/-- Where no step may be larger than the least one, all steps are the least. -/
theorem nextX_of_maximalStep_le {c : Cursor K} {x : K}
    (h : c.maximalStep ≤ Precision.minimalStep x) (toward : K) :
    c.nextX x toward = x + (if x < toward then 1 else -1) * Precision.minimalStep x := by
  rw [nextX, if_pos (by simp [h])]

/-- The abscissae of a number of steps from `x` toward `toward`. -/
def walk (c : Cursor K) (x toward : K) : Nat → List K
  | 0 => []
  | count + 1 =>
    let next := c.nextX x toward
    next :: c.walk next toward count

@[simp] theorem length_walk (c : Cursor K) (x toward : K) (count : Nat) :
    (c.walk x toward count).length = count := by
  induction count generalizing x with
  | zero => rfl
  | succ n ih => simp [walk, ih]

end Cursor

end CurveSurvey

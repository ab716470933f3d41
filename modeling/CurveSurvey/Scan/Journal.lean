import CurveSurvey.Scan.Event

/-!
# Journals and rules

An observer that keeps a journal of a scan and answers by a list of rules.

* A `Journal` counts the events of each kind and keeps the first of them.
* A `Rule` answers one kind of event, within a range of their numbers and under
  conditions on the abscissa and the validity.
* `Rule.observer` lets the first rule that matches decide.
-/

namespace CurveSurvey

/-- The two kinds of events. -/
inductive Event.Kind where
  | sampled
  | refined
  deriving DecidableEq, Repr

namespace Event

variable {K : Type}

/-- The kind of an event. -/
def kind : Event K → Kind
  | .sampled _ => .sampled
  | .refined .. => .refined

/-- The newest abscissa that an event shows. -/
def abscissa : Event K → K
  | .sampled b => b.last.x
  | .refined p _ _ => p.x

/-- Whether an event shows a point that will be accepted; only a refinement can
tell. -/
def validity? : Event K → Option Bool
  | .sampled _ => none
  | .refined _ _ valid => some valid

end Event

/-- What an observer wrote down about a scan. -/
structure Journal (K : Type) where
  /-- The number of brackets. -/
  sampled : Nat := 0
  /-- The number of refinements. -/
  refined : Nat := 0
  /-- The first brackets. -/
  brackets : Array (Bracket K) := #[]
  /-- The first refinements: point, interest and validity. -/
  refinements : Array (Point K × Interest × Bool) := #[]

/-- How many events of each kind are written down. -/
structure Journal.Capacity where
  /-- The number of brackets. -/
  brackets : Nat
  /-- The number of refinements. -/
  refinements : Nat

namespace Journal

variable {K : Type}

/-- The number of events of a kind so far, which is the index of the next. -/
def count (j : Journal K) : Event.Kind → Nat
  | .sampled => j.sampled
  | .refined => j.refined

/-- Writes down an event. -/
def note (capacity : Capacity) (event : Event K) (j : Journal K) : Journal K :=
  match event with
  | .sampled b =>
    { j with
      sampled := j.sampled + 1
      brackets := if j.sampled < capacity.brackets then j.brackets.push b else j.brackets }
  | .refined p interest valid =>
    { j with
      refined := j.refined + 1
      refinements :=
        if j.refined < capacity.refinements then j.refinements.push (p, interest, valid)
        else j.refinements }

end Journal

/-- An answer to some events of one kind. -/
structure Rule (K : Type) where
  /-- The kind of event. -/
  on : Event.Kind
  /-- The answer. -/
  action : Action
  /-- The first index answered. -/
  start : Nat := 0
  /-- The last index answered, if there is one. -/
  stop : Option Nat := none
  /-- The abscissa is strictly below this. -/
  below : Option K := none
  /-- The abscissa is strictly above this. -/
  above : Option K := none
  /-- The validity is this. -/
  valid : Option Bool := none

namespace Rule

variable {K : Type} [Scalar K]

/-- Whether a rule answers an event with an index among those of its kind. -/
def applies (r : Rule K) (index : Nat) (event : Event K) : Bool :=
  r.on == event.kind && decide (r.start ≤ index) &&
    r.stop.all (fun last => decide (index ≤ last)) &&
    r.below.all (fun bound => decide (event.abscissa < bound)) &&
    r.above.all (fun bound => decide (bound < event.abscissa)) &&
    r.valid.all fun valid => event.validity? == some valid

/-- The observer that keeps a journal and answers by the first rule that
applies. -/
def observer (rules : List (Rule K)) (capacity : Journal.Capacity) : Observer K (Journal K) :=
  fun event j =>
    let rule := rules.find? fun r => r.applies (j.count event.kind) event
    (rule.map Rule.action, j.note capacity event)

end Rule

end CurveSurvey

import CurveSurvey.Bracket

/-!
# Events of a scan

A scan shows its observer every bracket before it is tested and every refined
point before it is accepted.  The observer may stop the scan or pass over what it
was shown, and carries a state of its own along.
-/

namespace CurveSurvey

/-- What a scan shows to its observer. -/
inductive Event (K : Type) where
  /-- A new sample completed a bracket, which is not tested yet. -/
  | sampled (bracket : Bracket K)
  /-- A bracket of the given interest was refined to a point, undefined if that
  failed; a valid point will be accepted. -/
  | refined (point : Point K) (interest : Interest) (valid : Bool)

/-- What an observer can ask for. -/
inductive Action where
  /-- End the scan without a solution. -/
  | stop
  /-- Do not test the bracket, or do not accept the refined point. -/
  | ignore
  deriving DecidableEq, Repr

/-- An observer with a state: its answer to an event, and the state it leaves. -/
abbrev Observer (K S : Type) := Event K → S → Option Action × S

namespace Observer

variable {K S : Type}

/-- The observer that never asks for anything. -/
def silent : Observer K S := fun _ s => (none, s)

/-- An observer that only takes note of the events. -/
def listening (note : Event K → S → S) : Observer K S := fun event s => (none, note event s)

end Observer

end CurveSurvey

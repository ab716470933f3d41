import CurveSurvey.Scalar

/-!
# Intervals

The interval that an axis shows.  An interval is *unset* until it is given a
value; extending it by a first value makes it the single point of that value.

* `Interval.extend` and `Interval.extendInterval` never shrink an interval, pass
  over undefined values, and keep every new end inside `±limit`.
* `Interval.setLower` and `Interval.setUpper` move one end and then see to it
  that the interval keeps the length `Interval.minimalLength`, which is small
  against its center.
-/

namespace CurveSurvey

/-- A closed interval; its ends are undefined while it is unset. -/
structure Interval (K : Type) where
  /-- The lower end. -/
  lower : K
  /-- The upper end. -/
  upper : K
  deriving BEq

namespace Interval

variable {K : Type} [Scalar K]

/-- The interval that holds no value yet. -/
def unset : Interval K := ⟨Scalar.nan, Scalar.nan⟩

/-- The interval between two ends, given in either order. -/
def between (s t : K) : Interval K := if t < s then ⟨t, s⟩ else ⟨s, t⟩

/-- Both ends are defined. -/
def isSet (i : Interval K) : Bool := !Scalar.isNaN i.lower && !Scalar.isNaN i.upper

/-- Both ends coincide. -/
def isPoint (i : Interval K) : Bool := i.lower == i.upper

/-- The distance from the lower to the upper end, undefined while unset. -/
def length (i : Interval K) : K := i.upper - i.lower

/-- The midpoint, halved before it is added so that it does not overflow. -/
def center (i : Interval K) : K := 0.5 * i.lower + 0.5 * i.upper

/-! ## Extension -/

/-- The smallest interval that holds `i` and the value `t` brought inside
`±limit`; an undefined `t` changes nothing. -/
def extend (i : Interval K) (t limit : K) : Interval K :=
  if Scalar.isNaN t then i
  else
    let t := Scalar.clamp t limit
    { lower := if Scalar.isNaN i.lower || decide (t < i.lower) then t else i.lower
      upper := if Scalar.isNaN i.upper || decide (i.upper < t) then t else i.upper }

/-- An undefined value changes nothing. -/
theorem extend_of_isNaN (i : Interval K) {t : K} (limit : K) (h : Scalar.isNaN t = true) :
    i.extend t limit = i := by
  rw [extend, if_pos h]

/-- The smallest interval that holds `i` and both ends of `j`. -/
def extendInterval (i j : Interval K) (limit : K) : Interval K :=
  (i.extend j.lower limit).extend j.upper limit

/-! ## Moving one end -/

/-- Half the length of an axis for which nothing gives a scale. -/
def defaultHalfLength : K := 10

/-- The smallest length an interval around `center` may have once one of its ends
has been set. -/
def minimalLength (center : K) : K := Scalar.larger 1e-5 (1e-5 * Scalar.abs center)

/-- Whether a set interval falls short of the minimal length around its center. -/
def isShort (i : Interval K) : Bool :=
  i.isSet && !decide (minimalLength i.center ≤ i.upper - i.lower)

/-- Moves the lower end to `t` inside `±limit`.  An interval that becomes too
short is lengthened upward, and pulled back if it then passes the limit. -/
def setLower (i : Interval K) (t limit : K) : Interval K :=
  let i := { i with lower := Scalar.clamp t limit }
  if i.isShort then
    let needed := minimalLength i.center
    let upper := i.lower + needed
    if limit < upper then ⟨limit - needed, limit⟩ else ⟨i.lower, upper⟩
  else i

/-- Moves the upper end to `t` inside `±limit`.  An interval that becomes too
short is lengthened downward, and pulled back if it then passes the limit. -/
def setUpper (i : Interval K) (t limit : K) : Interval K :=
  let i := { i with upper := Scalar.clamp t limit }
  if i.isShort then
    let needed := minimalLength i.center
    let lower := i.upper - needed
    if lower < -limit then ⟨-limit, -limit + needed⟩ else ⟨lower, i.upper⟩
  else i

end Interval

end CurveSurvey

import CurveSurvey.Interval
import CurveSurvey.Point

/-!
# Rectangles

A rectangle is an interval of abscissae and one of ordinates, each of which may
still be unset.  Extension treats the two axes apart: a point whose ordinate is
undefined still extends the interval of abscissae.
-/

namespace CurveSurvey

/-- A rectangle with sides along the axes. -/
structure Rect (K : Type) where
  /-- The interval of abscissae. -/
  x : Interval K
  /-- The interval of ordinates. -/
  y : Interval K
  deriving BEq

namespace Rect

variable {K : Type}

/-- The reflection across the first diagonal. -/
def flipped (r : Rect K) : Rect K := ⟨r.y, r.x⟩

@[simp] theorem flipped_flipped (r : Rect K) : r.flipped.flipped = r := rfl

variable [Scalar K]

/-- The rectangle that holds no point yet. -/
def unset : Rect K := ⟨Interval.unset, Interval.unset⟩

/-- Both axes are set. -/
def isSet (r : Rect K) : Bool := r.x.isSet && r.y.isSet

/-- Extends each axis by the component of `p` that belongs to it. -/
def extend (r : Rect K) (p : Point K) (limit : K) : Rect K :=
  ⟨r.x.extend p.x limit, r.y.extend p.y limit⟩

/-- Extends each axis by the same axis of `s`. -/
def extendRect (r s : Rect K) (limit : K) : Rect K :=
  ⟨r.x.extendInterval s.x limit, r.y.extendInterval s.y limit⟩

@[simp] theorem flipped_unset : (unset : Rect K).flipped = unset := rfl

/-- The axes are extended apart from each other, so extension commutes with the
reflection. -/
theorem flipped_extend (r : Rect K) (p : Point K) (limit : K) :
    (r.extend p limit).flipped = r.flipped.extend p.flipped limit := rfl

theorem flipped_extendRect (r s : Rect K) (limit : K) :
    (r.extendRect s limit).flipped = r.flipped.extendRect s.flipped limit := rfl

end Rect

end CurveSurvey

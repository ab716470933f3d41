import CurveSurvey.Scalar

/-!
# Points of the plane

A point is *undefined* as soon as one of its components is.  An undefined point
is also how a refinement says that its bracket was a false alarm.
-/

namespace CurveSurvey

/-- A point of the plane.  Two points are equal when their components are, so an
undefined point equals nothing. -/
structure Point (K : Type) where
  /-- The abscissa. -/
  x : K
  /-- The ordinate. -/
  y : K
  deriving BEq

namespace Point

variable {K : Type}

/-- The same abscissa with another ordinate. -/
def withY (p : Point K) (y : K) : Point K := { p with y }

/-- The reflection across the first diagonal. -/
def flipped (p : Point K) : Point K := ⟨p.y, p.x⟩

/-- The point of the graph of `f` above `x`. -/
def sample (f : K → K) (x : K) : Point K := ⟨x, f x⟩

@[simp] theorem flipped_flipped (p : Point K) : p.flipped.flipped = p := rfl

@[simp] theorem withY_x (p : Point K) (y : K) : (p.withY y).x = p.x := rfl

@[simp] theorem withY_y (p : Point K) (y : K) : (p.withY y).y = y := rfl

@[simp] theorem sample_x (f : K → K) (x : K) : (sample f x).x = x := rfl

@[simp] theorem sample_y (f : K → K) (x : K) : (sample f x).y = f x := rfl

variable [Scalar K]

/-- The point without any position. -/
def undefined : Point K := ⟨Scalar.nan, Scalar.nan⟩

/-- Neither component is undefined. -/
def isDefined (p : Point K) : Bool := !Scalar.isNaN p.x && !Scalar.isNaN p.y

/-- The components that carry a position; an infinite one does not. -/
def finitePart (p : Point K) : Point K := ⟨Scalar.finiteOrNaN p.x, Scalar.finiteOrNaN p.y⟩

theorem finitePart_flipped (p : Point K) : p.flipped.finitePart = p.finitePart.flipped := rfl

end Point

end CurveSurvey

import CurveSurvey.Context
import CurveSurvey.Point

/-!
# Expressions

What the search for roots sees of a symbolic expression: its values, the kind of
its outermost operation, and its operands.

* `Expression.plain` is an expression that shows nothing but its values; it can
  only be searched by sampling.
* `Expression.difference` is the plain difference of two expressions, whose
  roots are the abscissae where the two meet.
-/

namespace CurveSurvey

/-- The values of a function of one variable; it is undefined where its value is. -/
abbrev Evaluator (K : Type) := Context → K → K

/-- A curve given by a parameter.  The graph of `f` is `t ↦ (t, f t)`. -/
abbrev Curve (K : Type) := Context → K → Point K

/-- The outermost operations whose roots are known from those of the operands. -/
inductive Shape where
  /-- A product vanishes where one of its factors does. -/
  | product
  /-- Only the base of a power can vanish. -/
  | power
  /-- Only the radicand of a root can vanish. -/
  | nthRoot
  /-- Only the numerator of a quotient can vanish. -/
  | quotient
  /-- A magnitude vanishes exactly where its operand does. -/
  | absoluteValue
  /-- A hyperbolic sine vanishes exactly where its operand does. -/
  | hyperbolicSine
  /-- An opposite vanishes exactly where its operand does. -/
  | opposite
  /-- A square root vanishes exactly where its operand does. -/
  | squareRoot
  /-- Nothing is known. -/
  | other
  deriving DecidableEq, Repr, Inhabited

/-- How the roots of an expression follow from those of its operands. -/
inductive RootRule where
  /-- A root is a root of some operand at which the whole vanishes. -/
  | anyOperand
  /-- A root is a root of the first operand at which the whole vanishes. -/
  | firstOperand
  /-- The roots are those of the first operand. -/
  | sameAsOperand
  /-- Nothing is known. -/
  | unknown
  deriving DecidableEq, Repr

/-- The rule that an outermost operation follows. -/
def Shape.rootRule : Shape → RootRule
  | .product => .anyOperand
  | .power | .nthRoot | .quotient => .firstOperand
  | .absoluteValue | .hyperbolicSine | .opposite | .squareRoot => .sameAsOperand
  | .other => .unknown

/-- An expression as the search for roots sees it.  Values and structure are
independent: nothing forces the values to be those of the shape. -/
structure Expression (K : Type) where
  /-- The values. -/
  evaluate : Evaluator K
  /-- What is known of the values: `some false` if they never vanish, `some true`
  if they vanish everywhere. -/
  isNull : Context → Option Bool
  /-- The outermost operation. -/
  shape : Shape
  /-- The number of operands the expression claims to have. -/
  arity : Nat
  /-- The operands it can show, which may be fewer or more. -/
  operands : List (Expression K)

namespace Expression

variable {K : Type}

/-- A function without any known structure. -/
def plain (f : Evaluator K) : Expression K :=
  { evaluate := f, isNull := fun _ => none, shape := .other, arity := 0, operands := [] }

/-- The difference of two expressions, without any known structure. -/
def difference [Sub K] (e₁ e₂ : Expression K) : Expression K :=
  plain fun context x => e₁.evaluate context x - e₂.evaluate context x

/-- What passes from the operands of an expression to the expression itself holds of
every expression. -/
@[elab_as_elim]
theorem inductionOnOperands {P : Expression K → Prop}
    (step : ∀ e : Expression K, (∀ o ∈ e.operands, P o) → P e) : ∀ e, P e
  | ⟨evaluate, isNull, shape, arity, operands⟩ => by
    refine step _ fun o ho => ?_
    have : sizeOf o < sizeOf operands := List.sizeOf_lt_of_mem ho
    exact inductionOnOperands step o
termination_by e => sizeOf e
decreasing_by
  simp only [mk.sizeOf_spec] at *
  omega

end Expression

end CurveSurvey

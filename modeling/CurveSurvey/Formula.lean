import CurveSurvey.Expression
import CurveSurvey.Precision

/-!
# Formulas

A small language of expressions in one variable, evaluated in any precision that
has the elementary functions.

* `Formula.evaluate` computes a formula from the inside out, rounding after each
  operation.
* `Formula.toExpression` adds what the search for roots may know: products,
  powers, quotients and the functions that vanish with their argument show their
  operands, and a constant tells whether it is zero.
-/

namespace CurveSurvey

/-- A scalar type with the elementary functions. -/
class Elementary (K : Type) extends Scalar K where
  /-- The number nearest to a double. -/
  ofFloat : Float → K
  /-- The first number to the power of the second. -/
  pow : K → K → K
  /-- The hyperbolic sine. -/
  sinh : K → K
  /-- The arc tangent in radians. -/
  atan : K → K
  /-- The greatest whole number not above. -/
  floor : K → K
  /-- The sine of an angle in radians. -/
  sin : K → K
  /-- The cosine of an angle in radians. -/
  cos : K → K
  /-- The tangent of an angle in radians. -/
  tan : K → K

instance : Elementary Float where
  ofFloat := fun t => t
  pow := Float.pow
  sinh := Float.sinh
  atan := Float.atan
  floor := Float.floor
  sin := Float.sin
  cos := Float.cos
  tan := Float.tan

instance : Elementary Float32 where
  ofFloat := Float.toFloat32
  pow := Float32.pow
  sinh := Float32.sinh
  atan := Float32.atan
  floor := Float32.floor
  sin := Float32.sin
  cos := Float32.cos
  tan := Float32.tan

/-- The number of radians in a degree, and in a gradian; none for the radian
itself, which needs no conversion. -/
def AngleUnit.inRadians? : AngleUnit → Option Float
  | .radian => none
  | .degree => some (Float.ofBits 0x3f91df46a2529d39)
  | .gradian => some (Float.ofBits 0x3f9015bf9217271a)

/-- An angle of the given unit, in radians. -/
def AngleUnit.toRadians {K : Type} [Elementary K] (unit : AngleUnit) (angle : K) : K :=
  match unit.inRadians? with
  | none => angle
  | some k => angle * Elementary.ofFloat k

/-- The number that stands for a complex format in a formula. -/
def ComplexFormat.code : ComplexFormat → Nat
  | .real => 0
  | .cartesian => 1
  | .polar => 2

namespace Formula

/-- Operations on one argument. -/
inductive Unary where
  | sqrt
  | abs
  | neg
  | sinh
  | exp
  | ln
  | atan
  | floor
  | sin
  | cos
  | tan
  /-- The argument itself, with its structure hidden. -/
  | hide
  deriving DecidableEq, Repr

/-- Operations on two arguments. -/
inductive Binary where
  | add
  | sub
  | div
  | pow
  /-- The root of the first argument whose degree is the second. -/
  | root
  deriving DecidableEq, Repr

variable {K : Type} [Elementary K]

/-- The value of an operation on one argument. -/
def Unary.apply (op : Unary) (context : Context) (a : K) : K :=
  match op with
  | .sqrt => Scalar.sqrt a
  | .abs => Scalar.abs a
  | .neg => -a
  | .sinh => Elementary.sinh a
  | .exp => Scalar.exp a
  | .ln => Scalar.log a
  | .atan => Elementary.atan a
  | .floor => Elementary.floor a
  | .sin => Elementary.sin (context.angleUnit.toRadians a)
  | .cos => Elementary.cos (context.angleUnit.toRadians a)
  | .tan => Elementary.tan (context.angleUnit.toRadians a)
  | .hide => a

/-- The value of an operation on two arguments. -/
def Binary.apply (op : Binary) (a b : K) : K :=
  match op with
  | .add => a + b
  | .sub => a - b
  | .div => a / b
  | .pow => Elementary.pow a b
  | .root => Elementary.pow a (1 / b)

/-- What is known of an expression made by an operation on one argument. -/
def Unary.shape : Unary → Shape
  | .sqrt => .squareRoot
  | .abs => .absoluteValue
  | .neg => .opposite
  | .sinh => .hyperbolicSine
  | _ => .other

/-- What is known of an expression made by an operation on two arguments. -/
def Binary.shape : Binary → Shape
  | .div => .quotient
  | .pow => .power
  | .root => .nthRoot
  | _ => .other

end Formula

/-- An expression in one variable. -/
inductive Formula where
  /-- The variable. -/
  | var
  /-- A constant, kept in double precision. -/
  | constant (value : Float)
  /-- An operation on one argument. -/
  | unary (op : Formula.Unary) (a : Formula)
  /-- An operation on two arguments. -/
  | binary (op : Formula.Binary) (a b : Formula)
  /-- The product of any number of factors. -/
  | product (factors : List Formula)
  /-- The third argument where the first is below the second, the fourth
  elsewhere. -/
  | ifLess (a b yes no : Formula)
  /-- The number of the complex format. -/
  | complexFormat
  /-- The argument, with a claim on whether it vanishes. -/
  | claimNull (isNull : Option Bool) (a : Formula)
  /-- The first formula, presented as an operation on others. -/
  | shaped (shape : Shape) (whole : Formula) (operands : List Formula) (arity : Option Nat)

namespace Formula

/-! ## Values -/

section

variable {K : Type} [Elementary K]

mutual

/-- The value of a formula at `x`. -/
def evaluate (context : Context) (x : K) : Formula → K
  | .var => x
  | .constant value => Elementary.ofFloat value
  | .unary op a => op.apply context (evaluate context x a)
  | .binary op a b => op.apply (evaluate context x a) (evaluate context x b)
  | .product factors => multiply context x 1 factors
  | .ifLess a b yes no =>
    if evaluate context x a < evaluate context x b then evaluate context x yes
    else evaluate context x no
  | .complexFormat => Scalar.ofNat context.complexFormat.code
  | .claimNull _ a => evaluate context x a
  | .shaped _ whole _ _ => evaluate context x whole

/-- The product of a number and the values of formulas, from left to right. -/
def multiply (context : Context) (x : K) (start : K) : List Formula → K
  | [] => start
  | a :: rest => multiply context x (start * evaluate context x a) rest

end

/-- The factors are multiplied from left to right. -/
theorem multiply_eq_foldl (context : Context) (x start : K) (factors : List Formula) :
    multiply context x start factors =
      factors.foldl (fun product a => product * evaluate context x a) start := by
  induction factors generalizing start with
  | nil => rfl
  | cons a rest ih => rw [multiply, ih, List.foldl_cons]

end

/-! ## Structure -/

/-- Whether a formula is known to vanish everywhere, or never to vanish. -/
def isNull : Formula → Option Bool
  | .constant value => some (value == 0)
  | .claimNull isNull _ => isNull
  | _ => none

/-- What is known of the roots of a formula from its outermost operation. -/
def shape : Formula → Shape
  | .unary op _ => op.shape
  | .binary op _ _ => op.shape
  | .product _ => .product
  | .shaped shape _ _ _ => shape
  | _ => .other

/-- A formula with the operands it shows. -/
def node {K : Type} [Elementary K] (a : Formula) (arity : Nat) (operands : List (Expression K)) :
    Expression K :=
  { evaluate := fun context x => a.evaluate context x
    isNull := fun _ => a.isNull
    shape := a.shape
    arity := arity
    operands := operands }

mutual

/-- A formula as the search for roots sees it. -/
def toExpression (K : Type) [Elementary K] : Formula → Expression K
  | .unary op a => node (.unary op a) 1 [toExpression K a]
  | .binary op a b => node (.binary op a b) 2 [toExpression K a, toExpression K b]
  | .product factors => node (.product factors) factors.length (toExpressions K factors)
  | .ifLess a b yes no =>
    node (.ifLess a b yes no) 4
      [toExpression K a, toExpression K b, toExpression K yes, toExpression K no]
  | .claimNull isNull a => node (.claimNull isNull a) 1 [toExpression K a]
  | .shaped shape whole operands arity =>
    node (.shaped shape whole operands arity) (arity.getD operands.length)
      (toExpressions K operands)
  | .var => node .var 0 []
  | .constant value => node (.constant value) 0 []
  | .complexFormat => node .complexFormat 0 []

/-- The formulas of a list as the search for roots sees them. -/
def toExpressions (K : Type) [Elementary K] : List Formula → List (Expression K)
  | [] => []
  | a :: rest => toExpression K a :: toExpressions K rest

end

theorem toExpressions_eq_map (K : Type) [Elementary K] (formulas : List Formula) :
    toExpressions K formulas = formulas.map (toExpression K) := by
  induction formulas with
  | nil => rfl
  | cons a rest ih => rw [toExpressions, ih, List.map_cons]

/-- The structure shown to the search for roots does not change the values. -/
theorem evaluate_toExpression {K : Type} [Elementary K] (context : Context) (x : K)
    (a : Formula) : (toExpression K a).evaluate context x = a.evaluate context x := by
  cases a <;> rw [toExpression] <;> rfl

end Formula

end CurveSurvey

import CurveSurvey.Solver

/-!
# Roots and intersections

The search for a root follows the structure of an expression as far as it is
known and samples the rest.

* A product vanishes where one of its factors does, a power, a root or a quotient
  where its first operand does: `Solver.firstVanishing` takes the roots of an
  operand one after the other until the whole vanishes too, and
  `Solver.nearest` picks the closest of several.
* A magnitude, an opposite, a square root and a hyperbolic sine vanish exactly
  where their operand does, so the operand is searched in their place.
* Extrema that touch zero count as roots.
-/

namespace CurveSurvey

namespace Solver

variable {K : Type} [Precision K]

/-! ## Candidates -/

/-- The first solution of a search at which `isRoot` holds, if there is one among
the given number of solutions. -/
def firstVanishing (isRoot : K → Bool) (search : Cursor K → Cursor K) :
    Nat → Cursor K → Option K
  | 0, _ => none
  | left + 1, c =>
    let c := search c
    if c.isExhausted then none
    else if isRoot c.position then some c.position
    else firstVanishing isRoot search left c

/-- The first root of an operand, found by `search`, at which the whole
expression vanishes too. -/
def rootOfOperand (isRoot : K → Bool) (c : Cursor K) (search : Cursor K → Cursor K) :
    Option K :=
  firstVanishing isRoot search (Precision.stepBound c.position c.goal) c

/-- The number nearest to `position`, the first of several. -/
def nearest? (position : K) (candidates : List K) : Option K :=
  let distance (x : K) : K := Scalar.abs (x - position)
  candidates.foldl
    (fun best x =>
      match best with
      | none => some x
      | some b => if distance x < distance b then some x else some b)
    none

/-- The cursor moved onto a root, or exhausted if there is none. -/
def onRoot (c : Cursor K) : Option K → Cursor K
  | some x => c.found ⟨x, 0⟩ .root
  | none => c.exhaust

/-! ## Roots -/

/-- The next root of a function that is only sampled. -/
def sampledRoot (solver : Solver K) (f : Evaluator K) (isNull : Option Bool) (c : Cursor K) :
    Cursor K :=
  if isNull = some false then c.exhaust
  else
    let found := solver.next c f .evenOrOddRoot .compositeRoot
    if found.isExhausted then found else found.relabel .root found.ordinate

mutual

/-- The search for the next root of an expression. -/
def rootSearch (solver : Solver K) : Expression K → Cursor K → Cursor K
  | ⟨evaluate, isNull, shape, arity, operands⟩, c =>
    if c.isExhausted then c
    else
      let searches := operandSearches solver operands
      let isRoot (x : K) : Bool := Precision.isNull x (evaluate solver.context x)
      match shape.rootRule with
      | .anyOperand =>
        onRoot c (nearest? c.position
          ((searches.take arity).filterMap (rootOfOperand isRoot c)))
      | .firstOperand => onRoot c (searches.head?.bind (rootOfOperand isRoot c))
      | .sameAsOperand =>
        match searches with
        | search :: _ => search c
        | [] => solver.sampledRoot evaluate (isNull solver.context) c
      | .unknown => solver.sampledRoot evaluate (isNull solver.context) c

/-- The searches for the roots of several expressions. -/
def operandSearches (solver : Solver K) : List (Expression K) → List (Cursor K → Cursor K)
  | [] => []
  | e :: rest => rootSearch solver e :: operandSearches solver rest

end

theorem operandSearches_eq_map (solver : Solver K) (operands : List (Expression K)) :
    solver.operandSearches operands = operands.map solver.rootSearch := by
  induction operands with
  | nil => rfl
  | cons e rest ih => rw [operandSearches, ih, List.map_cons]

/-- One step of the search, in terms of the searches for the roots of the operands. -/
theorem rootSearch_eq (solver : Solver K) (e : Expression K) (c : Cursor K) :
    solver.rootSearch e c =
      if c.isExhausted then c
      else
        let isRoot (x : K) : Bool := Precision.isNull x (e.evaluate solver.context x)
        match e.shape.rootRule with
        | .anyOperand =>
          onRoot c (nearest? c.position
            (((e.operands.map solver.rootSearch).take e.arity).filterMap (rootOfOperand isRoot c)))
        | .firstOperand =>
          onRoot c ((e.operands.map solver.rootSearch).head?.bind (rootOfOperand isRoot c))
        | .sameAsOperand =>
          match e.operands with
          | o :: _ => solver.rootSearch o c
          | [] => solver.sampledRoot e.evaluate (e.isNull solver.context) c
        | .unknown => solver.sampledRoot e.evaluate (e.isNull solver.context) c := by
  obtain ⟨evaluate, isNull, shape, arity, operands⟩ := e
  rw [rootSearch, operandSearches_eq_map]
  cases operands <;> rfl

/-- The next root of an expression. -/
def nextRoot (solver : Solver K) (c : Cursor K) (e : Expression K) : Cursor K :=
  solver.rootSearch e c

/-! ## Intersections -/

/-- The next point where `e` meets another expression, of which the difference to
`e` is given.  Its ordinate is the value of `e`. -/
def nextIntersectionWith (solver : Solver K) (c : Cursor K) (e difference : Expression K) :
    Cursor K :=
  let found := solver.nextRoot c difference
  if found.interest == .root then
    found.relabel .intersection (e.evaluate solver.context found.position)
  else found

/-- The next point where two expressions meet.  Its ordinate is the value of the
first. -/
def nextIntersection (solver : Solver K) (c : Cursor K) (e₁ e₂ : Expression K) : Cursor K :=
  solver.nextIntersectionWith c e₁ (e₁.difference e₂)

end Solver

end CurveSurvey

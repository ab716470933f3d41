import CurveSurvey.Proofs.Exact
import CurveSurvey.Proofs.Numeric
import CurveSurvey.Proofs.Refinement

/-!
# The orientation of a bracket

Brent's search for a sign change may be given the ends of its bracket in either order.

* `SymmetricScalar` is all that this asks of the arithmetic: the magnitude of a difference,
  and of a multiple of it, does not depend on the order of its operands.
* `SignChange.Agrees` relates two searches that have come to the same samples, with moves of
  the same magnitudes.  One step keeps them together (`SignChange.Agrees.step`).
* `SignChange.agrees_start`: the first exchange of estimate and counterpart brings the searches
  from both ends together.
* `SignChange.find_comm` is the result.
-/

namespace CurveSurvey

/-- A scalar type in which the order of the operands of a difference decides its sign only. -/
class SymmetricScalar (K : Type) [Scalar K] : Prop extends OrderedScalar K where
  /-- A magnitude is defined where the number is. -/
  isNaN_abs : ∀ t : K, Scalar.isNaN (Scalar.abs t) = Scalar.isNaN t
  /-- A distance has no direction. -/
  abs_sub_comm : ∀ s t : K, Scalar.abs (t - s) = Scalar.abs (s - t)
  /-- Nor has a multiple of it. -/
  abs_sub_mul_comm : ∀ s t u : K, Scalar.abs ((t - s) * u) = Scalar.abs ((s - t) * u)

instance {K : Type} [Scalar K] [NumericScalar K] : SymmetricScalar K where
  isNaN_abs := NumericScalar.isNaN_abs
  abs_sub_comm s t := by
    rw [InvolutiveScalar.abs_same (Scalar.same_sub_comm s t), InvolutiveScalar.abs_neg]
  abs_sub_mul_comm s t u := by
    rw [InvolutiveScalar.abs_same (NumericScalar.mul_same (Scalar.same_sub_comm s t) u),
      NumericScalar.neg_mul, InvolutiveScalar.abs_neg]

instance : SymmetricScalar Exact where
  isNaN_abs t := by
    cases t with
    | undefined => rfl
    | real x => simp
  abs_sub_comm s t := by
    cases s <;> cases t <;> try rfl
    simp [abs_sub_comm]
  abs_sub_mul_comm s t u := by
    cases s <;> cases t <;> cases u <;> try rfl
    simp [abs_mul, abs_sub_comm]

namespace Scalar

variable {K : Type} [Scalar K]

/-- Two moves of the same length, whichever way they go. -/
structure EqualLength (m m' : K) : Prop where
  abs : abs m' = abs m
  /-- Multiples of them have the same length as well. -/
  abs_mul : ∀ u, Scalar.abs (m' * u) = Scalar.abs (m * u)

theorem EqualLength.refl (m : K) : EqualLength m m := ⟨rfl, fun _ => rfl⟩

theorem equalLength_sub [SymmetricScalar K] (s t : K) : EqualLength (s - t) (t - s) :=
  ⟨SymmetricScalar.abs_sub_comm s t, SymmetricScalar.abs_sub_mul_comm s t⟩

/-- The smaller of two numbers of which one is below the other. -/
theorem smaller_comm_of_lt [OrderedScalar K] {s t : K} (h : s < t) : smaller t s = smaller s t := by
  obtain ⟨hs, ht⟩ := defined_of_lt h
  have hleft : smaller s t = s := by
    simp [smaller, hs, lt_asymm h]
  have hright : smaller t s = s := by
    simp [smaller, ht, h]
  rw [hleft, hright]

end Scalar

namespace SignChange

open Scalar (EqualLength)

variable {K : Type} [Precision K] {f : K → K} {s t : SignChange K}

/-! ## Searches that stay together -/

/-- Two searches that have come to the same samples by moves of the same lengths. -/
structure Agrees (s t : SignChange K) : Prop where
  previous : t.previous = s.previous
  estimate : t.estimate = s.estimate
  counterpart : t.counterpart = s.counterpart
  move : EqualLength s.move t.move
  lastMove : EqualLength s.lastMove t.lastMove

namespace Agrees

theorem opposed (h : s.Agrees t) : s.opposed.Agrees t.opposed := by
  unfold SignChange.opposed
  rw [h.previous, h.estimate, h.counterpart]
  split
  · -- both searches forget their moves
    exact ⟨rfl, rfl, rfl, .refl _, .refl _⟩
  · exact h

theorem ordered (h : s.Agrees t) : s.ordered.Agrees t.ordered := by
  unfold SignChange.ordered
  rw [h.estimate, h.counterpart]
  split
  · exact ⟨rfl, rfl, rfl, h.move, h.lastMove⟩
  · exact h

theorem accuracy_eq (h : s.Agrees t) (precision : K) :
    t.accuracy precision = s.accuracy precision := by
  rw [accuracy, accuracy, h.estimate]

theorem halfway_eq (h : s.Agrees t) : t.halfway = s.halfway := by
  rw [halfway, halfway, h.counterpart, h.estimate]

theorem interpolation_eq (h : s.Agrees t) : t.interpolation = s.interpolation := by
  rw [interpolation, interpolation, h.halfway_eq, h.previous, h.estimate, h.counterpart]

theorem target_eq (h : s.Agrees t) (accuracy move : K) :
    t.target accuracy move = s.target accuracy move := by
  rw [target, target, h.halfway_eq, h.estimate]

/-- The next moves are one and the same, since the last ones enter by their lengths only; what
is remembered of the last ones has the same length. -/
theorem nextMove (h : s.Agrees t) (accuracy : K) :
    (t.nextMove accuracy).1 = (s.nextMove accuracy).1 ∧
      EqualLength (s.nextMove accuracy).2 (t.nextMove accuracy).2 := by
  unfold SignChange.nextMove
  rw [h.halfway_eq, h.interpolation_eq, h.previous, h.estimate, h.lastMove.abs]
  dsimp only
  rw [h.lastMove.abs_mul]
  split
  · split
    · exact ⟨rfl, h.move⟩
    · exact ⟨rfl, .refl _⟩
  · exact ⟨rfl, .refl _⟩

/-- A step keeps searches together that agree once their points are in their places. -/
theorem step (h : s.opposed.ordered.Agrees t.opposed.ordered) (precision : K) :
    Step.Related Agrees (fun s t => t.estimate = s.estimate)
      (SignChange.step f precision s) (SignChange.step f precision t) := by
  unfold SignChange.step
  generalize s.opposed.ordered = s at h ⊢
  generalize t.opposed.ordered = t at h ⊢
  obtain ⟨hmove, hlast⟩ := h.nextMove (s.accuracy precision)
  dsimp only
  rw [h.accuracy_eq, h.halfway_eq, hmove, h.target_eq, h.counterpart, h.estimate]
  split
  · exact .stop h.estimate
  · exact .next ⟨rfl, rfl, rfl, .refl _, hlast⟩

end Agrees

/-! ## Both orders -/

/-- The search from the larger ordinate takes the smaller one for its estimate at once, where
the search from the smaller one already has it. -/
theorem agrees_start [SymmetricScalar K] {p q : Point K}
    (hsigns : Bracket.signsDiffer p.y q.y = true) (hlt : Scalar.abs p.y < Scalar.abs q.y) :
    (start p q).opposed.ordered.Agrees (start q p).opposed.ordered := by
  have hpq : (start p q).opposed = start p q := by
    rw [opposed, if_neg]
    exact Bool.not_eq_true _ ▸ Bracket.sides_differ hsigns
  have hqp : (start q p).opposed = start q p := by
    rw [opposed, if_neg]
    rw [Bool.not_eq_true, Bool.beq_comm]
    exact Bracket.sides_differ hsigns
  have hswap : (start p q).ordered =
      { start p q with previous := q, estimate := p, counterpart := q } := if_pos hlt
  have hkeep : (start q p).ordered = start q p := if_neg (Scalar.lt_asymm hlt)
  rw [hpq, hqp, hswap, hkeep]
  exact ⟨rfl, rfl, rfl, Scalar.equalLength_sub _ _, Scalar.equalLength_sub _ _⟩

/-- Both searches end on the same estimate, provided that they take a step. -/
theorem estimate_after_comm [SymmetricScalar K] {a b : K} (precision : K) {n : Nat}
    (hn : 0 < n) (hsigns : Bracket.signsDiffer (f a) (f b) = true)
    (hlt : Scalar.abs (f a) < Scalar.abs (f b)) :
    (after f b a precision n).estimate = (after f a b precision n).estimate := by
  obtain ⟨n, rfl⟩ := Nat.exists_eq_succ_of_ne_zero hn.ne'
  have hfirst := Agrees.step (f := f)
    (agrees_start (p := Point.sample f a) (q := Point.sample f b) hsigns hlt) precision
  unfold after
  rw [Step.iterate_succ, Step.iterate_succ]
  generalize step f precision (start (Point.sample f a) (Point.sample f b)) = r at hfirst ⊢
  generalize step f precision (start (Point.sample f b) (Point.sample f a)) = r' at hfirst ⊢
  cases hfirst with
  | stop h => exact h
  | next h =>
    exact Step.iterate_related (P := fun _ => True) (fun _ _ h => h.estimate)
      (fun _ _ _ h => Agrees.step h.opposed.ordered precision) n h fun _ _ => trivial

theorem find_comm_of_lt [SymmetricScalar K] {a b : K} {tolerance : Tolerance K}
    (hpos : 0 < tolerance.maxIterations) (hsigns : Bracket.signsDiffer (f a) (f b) = true)
    (hlt : Scalar.abs (f a) < Scalar.abs (f b)) :
    find f b a tolerance = find f a b tolerance := by
  have hsigns' := Bracket.signsDiffer_comm (f a) (f b) ▸ hsigns
  have hestimate := estimate_after_comm tolerance.precision hpos hsigns hlt
  rw [find_of_signsDiffer tolerance hsigns, find_of_signsDiffer tolerance hsigns', hestimate,
    Scalar.smaller_comm_of_lt hlt]

/-- The order of the ends does not matter: if the function has strictly opposite signs and
different magnitudes at the ends, and at least one step may be taken, the same point is found
from either end. -/
theorem find_comm [SymmetricScalar K] (f : K → K) (a b : K) (tolerance : Tolerance K)
    (hsigns : Bracket.signsDiffer (f a) (f b) = true)
    (hne : (Scalar.abs (f a) == Scalar.abs (f b)) = false)
    (hpos : 0 < tolerance.maxIterations) :
    find f a b tolerance = find f b a tolerance := by
  obtain ⟨ha, hb⟩ := Bracket.defined_of_signsDiffer hsigns
  rw [← SymmetricScalar.isNaN_abs] at ha hb
  by_cases hlt : Scalar.abs (f a) < Scalar.abs (f b)
  · exact (find_comm_of_lt hpos hsigns hlt).symm
  · have hgt : Scalar.abs (f b) < Scalar.abs (f a) := by
      by_contra hgt
      rw [Scalar.beq_of_not_lt ha hb hlt hgt] at hne
      cases hne
    exact find_comm_of_lt hpos (Bracket.signsDiffer_comm (f a) (f b) ▸ hsigns) hgt

/-- The square root of two is found from either side. -/
theorem find_comm_parabola :
    Bracket.signsDiffer (1 * 1 - 2 : Float) (2 * 2 - 2) = true ∧
      (Scalar.abs (1 * 1 - 2 : Float) == Scalar.abs (2 * 2 - 2)) = false ∧
      find (fun x : Float => x * x - 2) 1 2 ⟨1e-10, 100⟩ =
        find (fun x => x * x - 2) 2 1 ⟨1e-10, 100⟩ := by
  have hsigns : Bracket.signsDiffer (1 * 1 - 2 : Float) (2 * 2 - 2) = true := by decide +kernel
  have hne : (Scalar.abs (1 * 1 - 2 : Float) == Scalar.abs (2 * 2 - 2)) = false := by
    decide +kernel
  exact ⟨hsigns, hne, find_comm _ 1 2 ⟨1e-10, 100⟩ hsigns hne (by decide)⟩

end SignChange

end CurveSurvey

import CurveSurvey.Proofs.Opposite
import CurveSurvey.Proofs.Termination

/-!
# Lists of solutions

What the list of the successive solutions of a search looks like.

* `Search.approach_solutions`: the abscissae lead from the position of the cursor to its goal.
* `Search.ShowsOnly` says that a search finds one kind of landmark, which holds of the searches
  for roots, minima, maxima and intersections.
* `solutions_eq_take`: a shorter list is the beginning of a longer one.
-/

namespace CurveSurvey

/-- Asking for fewer solutions gives the first ones of the same list. -/
theorem solutions_eq_take {K : Type} (search : Cursor K → Cursor K) (limit more : Nat)
    (c : Cursor K) :
    solutions search limit c = (solutions search (limit + more) c).take limit := by
  induction limit generalizing c with
  | zero => rfl
  | succ limit ih =>
    rw [Nat.add_right_comm, solutions, solutions]
    cases (search c).landmark? with
    | none => rfl
    | some p => exact congrArg (p :: ·) (ih (search c))

/-- A landmark of a cursor lies at its position, and is what the cursor has found. -/
theorem Cursor.of_landmark?_eq_some {K : Type} {c : Cursor K} {p : Landmark K}
    (h : c.landmark? = some p) :
    c.isExhausted = false ∧ p.x = c.position ∧ p.interest = c.interest := by
  obtain ⟨position, goal, maximalStep, outcome⟩ := c
  cases outcome with
  | pending => cases h
  | exhausted => cases h
  | found interest ordinate =>
    cases interest with
    | none => cases h
    | root | localMinimum | localMaximum | discontinuity | intersection =>
      cases h
      exact ⟨rfl, rfl, rfl⟩

namespace Search

variable {K : Type} [Precision K]

/-! ## Abscissae -/

theorem reported_of_isExhausted {c : Cursor K} (h : c.isExhausted = true)
    (calls : List (Solver K × Search K)) : reported c calls = [] := by
  induction calls with
  | nil => rfl
  | cons call calls ih =>
    obtain ⟨solver, search⟩ := call
    rw [reported, run_of_isExhausted solver search h, if_pos h, ih]

section

variable [SteadyPrecision K]

/-- The abscissae of the solutions are those that the searches report. -/
theorem map_x_solutions (solver : Solver K) (search : Search K) (limit : Nat) (c : Cursor K) :
    (solutions (search.run solver) limit c).map Landmark.x =
      reported c (List.replicate limit (solver, search)) := by
  induction limit generalizing c with
  | zero => rfl
  | succ limit ih =>
    rw [solutions, List.replicate_succ, reported]
    cases hfound : (search.run solver c).landmark? with
    | none =>
      have hex : (search.run solver c).isExhausted = true := by
        rw [← Bool.not_eq_false, ← isSome_landmark?_run, hfound]
        exact Bool.false_ne_true
      rw [if_pos hex, reported_of_isExhausted hex]
      rfl
    | some p =>
      obtain ⟨hex, hx, -⟩ := Cursor.of_landmark?_eq_some hfound
      simp only [hex, Bool.false_eq_true, if_false, List.map_cons, hx, ih]

/-- The solutions lead from the position of the cursor to its goal. -/
theorem approach_solutions (solver : Solver K) (search : Search K) (limit : Nat)
    (c : Cursor K) : Approach c ((solutions (search.run solver) limit c).map Landmark.x) := by
  rw [map_x_solutions]
  exact approach_reported _ c

end

/-! ## Kinds -/

/-- Whatever the search finds is of one kind. -/
def ShowsOnly (search : Search K) (kind : Interest) : Prop :=
  ∀ (solver : Solver K) (c : Cursor K), (search.run solver c).isExhausted = false →
    (search.run solver c).interest = kind

theorem ShowsOnly.interest_eq {search : Search K} {kind : Interest} (h : search.ShowsOnly kind)
    {solver : Solver K} {limit : Nat} {c : Cursor K} {p : Landmark K}
    (hp : p ∈ solutions (search.run solver) limit c) : p.interest = kind := by
  induction limit generalizing c with
  | zero => cases hp
  | succ limit ih =>
    rw [solutions] at hp
    cases hfound : (search.run solver c).landmark? with
    | none =>
      rw [hfound] at hp
      cases hp
    | some q =>
      obtain ⟨hex, -, hinterest⟩ := Cursor.of_landmark?_eq_some hfound
      rw [hfound] at hp
      rcases List.mem_cons.1 hp with rfl | hp
      · rw [hinterest]
        exact h solver c hex
      · exact ih hp

theorem interest_onRoot {c : Cursor K} {root : Option K}
    (h : (Solver.onRoot c root).isExhausted = false) : (Solver.onRoot c root).interest = .root := by
  cases root with
  | none => cases h
  | some x => rfl

theorem interest_sampledRoot {solver : Solver K} {f : Evaluator K} {isNull : Option Bool}
    {c : Cursor K} (h : (solver.sampledRoot f isNull c).isExhausted = false) :
    (solver.sampledRoot f isNull c).interest = .root := by
  unfold Solver.sampledRoot at h ⊢
  dsimp only at h ⊢
  split
  · rename_i hnull
    rw [if_pos hnull] at h
    cases h
  · rename_i hnull
    rw [if_neg hnull] at h
    split
    · rename_i hex
      rw [if_pos hex, hex] at h
      cases h
    · rfl

/-- The search that follows the structure of an expression finds roots only. -/
theorem showsOnly_root (e : Expression K) : (Search.root e).ShowsOnly .root := by
  intro solver
  show ∀ c, (solver.rootSearch e c).isExhausted = false → (solver.rootSearch e c).interest = .root
  induction e using Expression.inductionOnOperands with
  | step e ih =>
    intro c h
    rw [Solver.rootSearch_eq] at h ⊢
    cases hc : c.isExhausted with
    | true =>
      rw [if_pos hc, hc] at h
      cases h
    | false =>
      simp only [hc, Bool.false_eq_true, if_false] at h ⊢
      cases hrule : e.shape.rootRule with
      | anyOperand =>
        simp only [hrule] at h ⊢
        exact interest_onRoot h
      | firstOperand =>
        simp only [hrule] at h ⊢
        exact interest_onRoot h
      | sameAsOperand =>
        simp only [hrule] at h ⊢
        cases hoperands : e.operands with
        | nil =>
          simp only [hoperands] at h ⊢
          exact interest_sampledRoot h
        | cons o rest =>
          simp only [hoperands] at h ⊢
          exact ih o (hoperands ▸ List.mem_cons_self) c h
      | unknown =>
        simp only [hrule] at h ⊢
        exact interest_sampledRoot h

theorem showsOnly_minimum (e : Expression K) : (Search.minimum e).ShowsOnly .localMinimum :=
  fun solver _ h => solver.interest_next (fun _ => Interest.given_cases _ _) h

theorem showsOnly_maximum (e : Expression K) : (Search.maximum e).ShowsOnly .localMaximum :=
  fun solver _ h => solver.interest_next Bracket.maximum_cases h

theorem showsOnly_intersection (e other : Expression K) :
    (Search.intersection e other).ShowsOnly .intersection := by
  intro solver c h
  have hroot := showsOnly_root (e.difference other) solver c
  simp only [run, Solver.nextIntersection, Solver.nextIntersectionWith] at h hroot ⊢
  split
  · rfl
  · rename_i hnot
    rw [if_neg hnot] at h
    rw [hroot h] at hnot
    exact absurd rfl hnot

end Search

end CurveSurvey

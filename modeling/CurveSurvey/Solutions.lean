import CurveSurvey.Solver.Roots

/-!
# Successive solutions

Searching again from each solution lists all of them in the order of the scan.

* `solutions` is the list of the first few solutions of a search.
* `Solver.rootsBetween` lists the roots in a closed interval up to a limit, and
  says whether there are more.  It searches the interval stretched by one step on
  either side, so that roots on its ends are found.
-/

namespace CurveSurvey

variable {K : Type}

/-- The first solutions of a search, at most the given number. -/
def solutions (search : Cursor K → Cursor K) : Nat → Cursor K → List (Landmark K)
  | 0, _ => []
  | limit + 1, c =>
    let c := search c
    match c.landmark? with
    | none => []
    | some p => p :: solutions search limit c

/-- A search that finds nothing has no solutions. -/
theorem solutions_of_landmark?_eq_none {search : Cursor K → Cursor K} {c : Cursor K}
    (h : (search c).landmark? = none) (limit : Nat) : solutions search limit c = [] := by
  cases limit with
  | zero => rfl
  | succ n => simp [solutions, h]

theorem length_solutions_le (search : Cursor K → Cursor K) (limit : Nat) (c : Cursor K) :
    (solutions search limit c).length ≤ limit := by
  induction limit generalizing c with
  | zero => exact Nat.le_refl 0
  | succ n ih =>
    rw [solutions]
    split
    · exact Nat.zero_le _
    · exact Nat.succ_le_succ (ih _)

/-- Some of the roots in an interval. -/
structure RootList (K : Type) where
  /-- The roots in increasing order. -/
  roots : List K
  /-- The interval holds more roots. -/
  hasMore : Bool

namespace RootList

variable [Scalar K]

/-- The solutions of a search that lie in `[lower, upper]`, at most `limit`, among
the given number of solutions. -/
def collect (search : Cursor K → Cursor K) (lower upper : K) :
    Nat → Nat → Cursor K → RootList K
  | 0, _, _ => ⟨[], false⟩
  | left + 1, limit, c =>
    let c := search c
    match c.landmark? with
    | none => ⟨[], false⟩
    | some p =>
      if p.x < lower then collect search lower upper left limit c
      else if upper < p.x then ⟨[], false⟩
      else
        match limit with
        | 0 => ⟨[], true⟩
        | limit + 1 =>
          let rest := collect search lower upper left limit c
          { rest with roots := p.x :: rest.roots }

/-- No more roots are listed than asked for. -/
theorem length_roots_collect_le (search : Cursor K → Cursor K) (lower upper : K)
    (left limit : Nat) (c : Cursor K) :
    (collect search lower upper left limit c).roots.length ≤ limit := by
  induction left generalizing limit c with
  | zero => exact Nat.zero_le _
  | succ n ih =>
    rw [collect]
    split
    · exact Nat.zero_le _
    · split
      · exact ih _ _
      · split
        · exact Nat.zero_le _
        · cases limit with
          | zero => exact Nat.le_refl 0
          | succ limit => exact Nat.succ_le_succ (ih _ _)

end RootList

namespace Solver

variable [Precision K]

/-- How many roots are listed for display. -/
def displayedRoots : Nat := 10

/-- The roots of `e` in the closed interval between `a` and `b`, at most
`limit`. -/
def rootsBetween (solver : Solver K) (e : Expression K) (a b : K)
    (limit : Nat := displayedRoots) : RootList K :=
  let (lower, upper) := if a ≤ b then (a, b) else (b, a)
  let c := (Cursor.new lower upper).stretch
  let bound := Precision.stepBound c.position c.goal
  RootList.collect (solver.nextRoot · e) lower upper bound limit c

end Solver

end CurveSurvey

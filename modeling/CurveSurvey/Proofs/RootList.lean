import CurveSurvey.Proofs.Solutions
import CurveSurvey.Proofs.Stretch

/-!
# Lists of roots

The roots in a closed interval are the first ones of those that a scan of the stretched interval
finds and that lie in the interval.

* `RootList.Rising` is what makes it right to stop at the first root beyond the interval:
  abscissae go to the right, or else are to the left of the interval.
* `RootList.collect_eq`: of such a list, the roots in the interval are collected.
* `RootList.rising_of_approach`: the solutions of a stretched scan are such a list.  Between
  equal ends the scan goes to the left, but starts within a step of the grid.
* `Solver.rootsBetween_lists` is the result, for ends in any order and any limit.
-/

namespace CurveSurvey

/-! ## Complete lists -/

/-- A search has no more solutions than the bound on the length of a walk. -/
theorem Search.solutions_eq_take_stepBound {K : Type} [Precision K] [SteadyPrecision K]
    [BoundedPrecision K] (solver : Solver K) (search : Search K) (c : Cursor K) (count : Nat) :
    solutions (search.run solver) count c =
      (solutions (search.run solver) (Precision.stepBound c.position c.goal) c).take count := by
  rcases Nat.le_total count (Precision.stepBound c.position c.goal) with hle | hge
  · obtain ⟨more, hmore⟩ := Nat.le.dest hle
    rw [← hmore]
    exact solutions_eq_take _ count more c
  · obtain ⟨more, hmore⟩ := Nat.le.dest hge
    have hlength := BoundedPrecision.length_le_stepBound
      (search.approach_solutions solver count c)
    rw [List.length_map] at hlength
    have hall := solutions_eq_take (search.run solver) (Precision.stepBound c.position c.goal)
      more c
    rw [hmore, List.take_of_length_le hlength] at hall
    rw [hall, List.take_of_length_le (hlength.trans hge)]

namespace RootList

section

variable {K : Type}

/-- The first of a list of roots. -/
def firstOf (limit : Nat) (xs : List K) : RootList K := ⟨xs.take limit, decide (limit < xs.length)⟩

@[simp] theorem firstOf_nil (limit : Nat) : firstOf limit ([] : List K) = ⟨[], false⟩ := by
  simp [firstOf]

theorem firstOf_zero_cons (x : K) (xs : List K) : firstOf 0 (x :: xs) = ⟨[], true⟩ := by
  simp [firstOf]

theorem firstOf_succ_cons (limit : Nat) (x : K) (xs : List K) :
    firstOf (limit + 1) (x :: xs) =
      { firstOf limit xs with roots := x :: (firstOf limit xs).roots } := by
  simp [firstOf]

variable [Scalar K]

/-- Whether an abscissa lies in a closed interval. -/
def inside (lower upper x : K) : Bool := decide (lower ≤ x) && decide (x ≤ upper)

theorem inside_iff {lower upper x : K} : inside lower upper x = true ↔ lower ≤ x ∧ x ≤ upper := by
  rw [inside, Bool.and_eq_true, decide_eq_true_eq, decide_eq_true_eq]

/-- The abscissae of a list go to the right, apart from such that are to the left of an
interval. -/
def Rising (lower : K) (xs : List K) : Prop := xs.Pairwise fun x y => x < y ∨ ¬ lower ≤ y

variable {lower upper : K} {xs : List K}

theorem Rising.pairwise_inside (h : Rising lower xs) :
    (xs.filter (inside lower upper)).Pairwise (· < ·) := by
  refine (h.filter _).imp_of_mem fun {x y} _ hy hxy => ?_
  have hinside := inside_iff.1 (List.mem_filter.1 hy).2
  exact hxy.resolve_right fun hleft => hleft hinside.1

variable [OrderedScalar K]

/-- After a root to the right of the interval, there is none in it. -/
theorem Rising.filter_eq_nil {x : K} (h : Rising lower (x :: xs)) (hx : upper < x) :
    (x :: xs).filter (inside lower upper) = [] := by
  refine List.filter_eq_nil_iff.2 fun y hy hinside => ?_
  rw [inside_iff] at hinside
  rcases List.mem_cons.1 hy with rfl | hy
  · exact Scalar.not_le_of_lt hx hinside.2
  · rcases List.rel_of_pairwise_cons h hy with hlt | hleft
    · exact Scalar.not_le_of_lt (Scalar.lt_trans hx hlt) hinside.2
    · exact hleft hinside.1

/-- Skipping what is left of an interval, and stopping at the first root to the right of it,
collects the roots in the interval. -/
theorem collect_eq {search : Cursor K → Cursor K} {left limit : Nat} {c : Cursor K}
    (hlower : Scalar.isNaN lower = false) (hupper : Scalar.isNaN upper = false)
    (hdef : ∀ p ∈ solutions search left c, Scalar.isNaN p.x = false)
    (hrising : Rising lower ((solutions search left c).map Landmark.x)) :
    collect search lower upper left limit c =
      firstOf limit (((solutions search left c).map Landmark.x).filter (inside lower upper)) := by
  induction left generalizing limit c with
  | zero => simp [collect, solutions]
  | succ left ih =>
    rw [collect, solutions]
    rw [solutions] at hdef hrising
    dsimp only at *
    cases hfound : (search c).landmark? with
    | none => simp
    | some p =>
      rw [hfound] at hdef hrising
      have hp := hdef p List.mem_cons_self
      have hrest (limit : Nat) := @ih limit (search c)
        (fun q hq => hdef q (List.mem_cons_of_mem p hq)) hrising.of_cons
      simp only [List.map_cons]
      split
      · -- the root is skipped
        rename_i hleft
        rw [List.filter_cons_of_neg fun hin => Scalar.not_le_of_lt hleft (inside_iff.1 hin).1]
        exact hrest limit
      · rename_i hleft
        split
        · rename_i hright
          rw [Rising.filter_eq_nil hrising hright, firstOf_nil]
        · rename_i hright
          have hin : inside lower upper p.x = true := inside_iff.2
            ⟨Scalar.le_of_not_lt hlower hp hleft, Scalar.le_of_not_lt hp hupper hright⟩
          rw [List.filter_cons_of_pos hin]
          cases limit with
          | zero => rw [firstOf_zero_cons]
          | succ limit => rw [firstOf_succ_cons, ← hrest limit]

end

/-! ## The roots of a stretched scan -/

section

variable {K : Type} [Precision K] [StretchingPrecision K] {lower upper : K}

/-- In the direction of a stretched scan, the solutions go to the right, but between equal ends
there is no more than the first one that is not to their left. -/
theorem rising_of_approach (h : lower ≤ upper) {xs : List K}
    (hxs : Search.Approach (Cursor.new lower upper).stretch xs) : Rising lower xs := by
  obtain ⟨hlower, hupper⟩ := OrderedScalar.defined_of_le h
  unfold Search.Approach at hxs
  split at hxs
  · exact hxs.2.1.of_cons.imp Or.inl
  · rename_i hback
    obtain ⟨hchain, hpairs, hbefore⟩ := hxs
    have hposition : ∀ x ∈ xs, x < (Cursor.new lower upper).stretch.position :=
      fun x hx => List.rel_of_pairwise_cons hpairs hx
    have hsteps : xs.Pairwise fun x y => y < x - Precision.minimalStep x := by
      have htrans : IsTrans K fun x y => y < x - Precision.minimalStep x :=
        ⟨fun _ _ _ hxy hyz => Scalar.lt_trans (SteadyPrecision.lt_of_lt_sub hyz) hxy⟩
      exact (List.isChain_iff_pairwise.1 hchain).of_cons
    refine hsteps.imp_of_mem fun {x y} hx hy hstep => .inr fun hle => ?_
    by_cases hlt : lower < upper
    · -- both ends are defined, so the scan goes to the right
      exact hback ((Cursor.stretch_lt_iff hlower hupper (Scalar.defined_of_lt (hposition x hx)).2
        (Scalar.defined_of_lt (hbefore x hx)).1).2 hlt)
    · -- a second root that is not to the left would need more than one step of the grid
      have hequal := Scalar.le_of_not_lt hupper hlower hlt
      have hfirst := StretchingPrecision.sub_gridStep_le (Scalar.lt_of_le_of_lt hle hstep)
      rw [← Cursor.stretch_position_of_equal h hequal] at hfirst
      exact Scalar.not_le_of_lt (hposition x hx) hfirst

theorem defined_of_approach {c : Cursor K} {xs : List K} (hxs : Search.Approach c xs) :
    ∀ x ∈ xs, Scalar.isNaN x = false := by
  intro x hx
  unfold Search.Approach at hxs
  split at hxs
  · exact (Scalar.defined_of_lt (hxs.2.2 x hx)).1
  · exact (Scalar.defined_of_lt (hxs.2.2 x hx)).2

end

end RootList

/-! ## The roots in an interval -/

namespace Solver

open RootList

variable {K : Type} [Precision K]

/-- All roots that the scan of a stretched interval finds. -/
def stretchedRoots (solver : Solver K) (e : Expression K) (lower upper : K) : List K :=
  let c := (Cursor.new lower upper).stretch
  (solutions (solver.nextRoot · e) (Precision.stepBound c.position c.goal) c).map Landmark.x

/-- The ends may be given in any order. -/
theorem rootsBetween_of_not_le (solver : Solver K) (e : Expression K) {a b : K} (h : ¬ a ≤ b)
    (hle : b ≤ a) (n : Nat) : solver.rootsBetween e a b n = solver.rootsBetween e b a n := by
  simp only [rootsBetween, if_neg h, if_pos hle]

variable [StretchingPrecision K] {a b : K}

theorem rootsBetween_of_le (solver : Solver K) (e : Expression K) (h : a ≤ b) (n : Nat) :
    solver.rootsBetween e a b n =
      firstOf n ((solver.stretchedRoots e a b).filter (inside a b)) := by
  obtain ⟨ha, hb⟩ := OrderedScalar.defined_of_le h
  have happroach := (Search.root e).approach_solutions solver
    (Precision.stepBound (Cursor.new a b).stretch.position (Cursor.new a b).stretch.goal)
    (Cursor.new a b).stretch
  simp only [rootsBetween, if_pos h]
  exact collect_eq ha hb
    (fun p hp => defined_of_approach happroach p.x (List.mem_map_of_mem hp))
    (rising_of_approach h happroach)

variable [BoundedPrecision K]

/-- Of an interval given by its ends in any order, the roots are listed as follows.  The scan of
the stretched interval finds finitely many roots, and listed are the first ones of those that lie
in the interval, strictly from left to right.  There are more exactly when another root of the
scan lies in the interval, which is when asking for one more gives one more. -/
theorem rootsBetween_lists (solver : Solver K) (e : Expression K)
    (ha : Scalar.isNaN a = false) (hb : Scalar.isNaN b = false) :
    let lower := if a ≤ b then a else b
    let upper := if a ≤ b then b else a
    let all := solver.stretchedRoots e lower upper
    let found := all.filter (inside lower upper)
    (∀ count, (solutions (solver.nextRoot · e) count (Cursor.new lower upper).stretch).map
      Landmark.x = all.take count) ∧
    ∀ n,
      let listed := solver.rootsBetween e a b n
      let more := solver.rootsBetween e a b (n + 1)
      listed.roots.Pairwise (· < ·) ∧ (∀ x ∈ listed.roots, lower ≤ x ∧ x ≤ upper) ∧
        listed.roots.length ≤ n ∧ listed.roots = found.take n ∧
        (listed.hasMore = true ↔ n < found.length) ∧
        listed.roots <+: more.roots ∧
        (listed.hasMore = true ↔ more.roots.length = n + 1) := by
  intro lower upper all found
  have hle : lower ≤ upper := by
    by_cases h : a ≤ b
    · simp only [lower, upper, if_pos h, h]
    · simp only [lower, upper, if_neg h]
      exact (OrderedScalar.total ha hb).resolve_left h
  have hlisted (n : Nat) : solver.rootsBetween e a b n = firstOf n found := by
    rw [← solver.rootsBetween_of_le e hle]
    by_cases h : a ≤ b
    · simp only [lower, upper, if_pos h]
    · have hba := (OrderedScalar.total ha hb).resolve_left h
      simp only [lower, upper, if_neg h]
      exact solver.rootsBetween_of_not_le e h hba n
  have hrising : Rising lower all :=
    rising_of_approach hle ((Search.root e).approach_solutions solver _ _)
  refine ⟨fun count => ?_, fun n => ?_⟩
  · have hall := (Search.root e).solutions_eq_take_stepBound solver
      (Cursor.new lower upper).stretch count
    exact (congrArg (List.map Landmark.x) hall).trans List.map_take
  · intro listed more
    have hmore : more = firstOf (n + 1) found := hlisted (n + 1)
    have hhere : listed = firstOf n found := hlisted n
    rw [hhere, hmore]
    refine ⟨hrising.pairwise_inside.sublist (List.take_sublist n found), fun x hx => ?_,
      List.length_take_le n found, rfl, decide_eq_true_iff, ?_, ?_⟩
    · exact inside_iff.1 (List.mem_filter.1 (List.mem_of_mem_take hx)).2
    · exact List.take_prefix_take_left n.le_succ
    · simp only [firstOf, decide_eq_true_eq, List.length_take]
      omega

/-- The roots of a line in an interval that is given from right to left. -/
theorem rootsBetween_line :
    let solver : Solver Float := .standard {}
    let e : Expression Float := .plain fun _ x => x
    let listed := solver.rootsBetween e 1 (-1) 2
    let more := solver.rootsBetween e 1 (-1) (2 + 1)
    Scalar.isNaN (1 : Float) = false ∧ Scalar.isNaN (-1 : Float) = false ∧
      listed.roots.Pairwise (· < ·) ∧ listed.roots <+: more.roots ∧
      (listed.hasMore = true ↔ more.roots.length = 2 + 1) := by
  intro solver e listed more
  have hone : Scalar.isNaN (1 : Float) = false := by decide +kernel
  have hminus : Scalar.isNaN (-1 : Float) = false := by decide +kernel
  obtain ⟨hsorted, -, -, -, -, hprefix, hmore⟩ :=
    (rootsBetween_lists solver e hone hminus).2 2
  exact ⟨hone, hminus, hsorted, hprefix, hmore⟩

end Solver

end CurveSurvey

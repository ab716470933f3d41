import CurveSurvey.Proofs.Crossing
import CurveSurvey.Proofs.Stretch

/-!
# Histories of a cursor

What a cursor reports after any interleaving of searches and stretches.

* `Cursor.Call` is one thing that can be done with a cursor, and `Cursor.after` a whole history.
* `Cursor.exists_last_search`: a cursor that reports something went through a successful
  search, and was at most stretched since.
* `PaddingPrecision` is what is assumed of the arithmetic for stretching again and again: the
  ends of a scan stay apart.  Then `Cursor.iterate_stretch_position` says how far the position
  has moved.
* `Cursor.after_reports`: interest and ordinate are those of the last successful search, and so
  is the abscissa unless the scan was stretched since.
-/

namespace CurveSurvey

open Progress

/-! ## Stretching again and again -/

/-- A precision in which the ends of a scan stay apart when it is stretched. -/
class PaddingPrecision (K : Type) [Precision K] : Prop extends StretchingPrecision K where
  /-- A step to the left of the left end lies to the left of a step to the right of the right
  end. -/
  sub_step_lt_add_step : ∀ {x y step : K}, Precision.gridStep ≤ step → x < y →
    x - 1 * step < y + 1 * step

/-- No rounded step is undefined, even where it overflows. -/
theorem Machine.CoarseGrid.paddingPrecision {K : Type} [Precision K] [Machine K] {g : ℝ}
    (h : CoarseGrid K g) : PaddingPrecision K where
  __ := h.stretchingPrecision
  sub_step_lt_add_step := by
    intro x y step hstep hlt
    obtain ⟨hx, hy, hval⟩ := lt_iff_val.1 hlt
    have hdef : Scalar.isNaN (1 * step) = false :=
      (h.one.val_one_mul (le_iff_val.1 hstep).2.1).1
    have hpos := (h.val_pos hstep).1
    have hleft : Scalar.isNaN (x - 1 * step) = false := by
      rw [← Bool.not_eq_true, isNaN_sub_iff]
      simp [hx, hdef, (hval.trans_le le_top).ne, (bot_le.trans_lt hpos).ne']
    have hright : Scalar.isNaN (y + 1 * step) = false := by
      rw [← Bool.not_eq_true, isNaN_add_iff]
      simp [hy, hdef, (bot_le.trans_lt hval).ne', (bot_le.trans_lt hpos).ne']
    have hbefore := (le_iff_val.1 (sub_le_of_val_nonneg hleft hpos.le)).2.2
    have hafter := (le_iff_val.1 (le_add_of_val_nonneg hright hpos.le)).2.2
    exact lt_iff_val.2 ⟨hleft, hright, hbefore.trans_lt (hval.trans_le hafter)⟩

instance : PaddingPrecision Float := Machine.coarseGrid_double.paddingPrecision

instance : PaddingPrecision Float32 := Machine.coarseGrid_single.paddingPrecision

instance : PaddingPrecision Exact where
  sub_step_lt_add_step := by
    intro s t step hstep hlt
    obtain ⟨d, rfl, hd⟩ := Exact.exists_gridStep_le hstep
    obtain ⟨hs, ht⟩ := Scalar.defined_of_lt hlt
    obtain ⟨x, rfl⟩ := Exact.exists_real hs
    obtain ⟨y, rfl⟩ := Exact.exists_real ht
    simp only [Exact.ofNat_eq_real, Exact.real_mul_real, Exact.real_sub_real,
      Exact.real_add_real, Exact.real_lt_real] at hlt ⊢
    norm_num at *
    linarith

/-! ## Calls -/

namespace Cursor

variable {K : Type} [Precision K]

/-- What can be done with a cursor. -/
inductive Call (K : Type) where
  /-- A solver searches for something. -/
  | search (solver : Solver K) (sought : Search K)
  /-- The scan is stretched. -/
  | stretch

/-- The cursor that a call returns. -/
def Call.run (c : Cursor K) : Call K → Cursor K
  | .search solver sought => sought.run solver c
  | .stretch => c.stretch

/-- The cursor after a history of calls. -/
def after (c : Cursor K) (calls : List (Call K)) : Cursor K := calls.foldl Call.run c

/-! ## Stretches -/

section

variable (c : Cursor K) (k : ℕ)

theorem after_replicate_stretch : c.after (List.replicate k .stretch) = stretch^[k] c := by
  induction k generalizing c with
  | zero => rfl
  | succ k ih => exact ih c.stretch

theorem after_append (calls calls' : List (Call K)) :
    c.after (calls ++ calls') = (c.after calls).after calls' :=
  List.foldl_append

@[simp] theorem iterate_stretch_outcome : (stretch^[k] c).outcome = c.outcome := by
  induction k generalizing c with
  | zero => rfl
  | succ k ih => exact ih c.stretch

@[simp] theorem iterate_stretch_interest : (stretch^[k] c).interest = c.interest := by
  rw [interest, iterate_stretch_outcome, interest]

@[simp] theorem iterate_stretch_ordinate : (stretch^[k] c).ordinate = c.ordinate := by
  rw [ordinate, iterate_stretch_outcome, ordinate]

end

/-! ## How far stretches lead -/

theorem maximalStep_after [SteadyPrecision K] (c : Cursor K) (calls : List (Call K)) :
    (c.after calls).maximalStep = c.maximalStep := by
  induction calls generalizing c with
  | nil => rfl
  | cons call calls ih =>
    refine (ih (call.run c)).trans ?_
    cases call with
    | search solver sought => exact (Search.moves_run solver c sought).maximalStep
    | stretch => rfl

section

variable [PaddingPrecision K] {c : Cursor K}

/-- A stretched scan goes the same way. -/
theorem direction_stretch (hstep : Precision.gridStep ≤ c.maximalStep) :
    c.stretch.direction = c.direction := by
  by_cases h : c.position < c.goal
  · have hdir : c.direction = 1 := if_pos h
    rw [hdir]
    refine if_pos ?_
    simp only [stretch, hdir]
    exact PaddingPrecision.sub_step_lt_add_step hstep h
  · have hdir : c.direction = -1 := if_neg h
    rw [hdir]
    refine if_neg fun hlt => h ?_
    simp only [stretch, hdir] at hlt
    obtain ⟨hposition, hgoal⟩ := Scalar.defined_of_lt hlt
    exact Scalar.lt_of_le_of_lt (StretchingPrecision.le_sub_step hstep hposition)
      (Scalar.lt_of_lt_of_le hlt (StretchingPrecision.add_step_le hstep hgoal))

/-- One step back, the way a stretch takes it. -/
def back (c : Cursor K) (x : K) : K := x - c.direction * c.maximalStep

/-- The position after a number of stretches is as many maximal steps back. -/
theorem iterate_stretch_position (hstep : Precision.gridStep ≤ c.maximalStep) (k : ℕ) :
    (stretch^[k] c).position = c.back^[k] c.position := by
  induction k generalizing c with
  | zero => rfl
  | succ k ih =>
    have hback : c.stretch.back = c.back := by
      unfold back
      rw [direction_stretch hstep]
      rfl
    rw [Function.iterate_succ_apply, ih (c := c.stretch) hstep, hback]
    rfl

/-- A step back leads back, or is lost in rounding. -/
theorem along_back (hstep : Precision.gridStep ≤ c.maximalStep) {x : K}
    (hdef : Scalar.isNaN (c.back x) = false) : c.Along (c.back x) x := by
  unfold Along
  split
  · rename_i h
    have hdir : c.direction = 1 := if_pos h
    simp only [back, hdir] at hdef ⊢
    exact StretchingPrecision.sub_step_le hstep hdef
  · rename_i h
    have hdir : c.direction = -1 := if_neg h
    simp only [back, hdir] at hdef ⊢
    exact StretchingPrecision.le_sub_step hstep hdef

/-- Further steps back lead no closer than the first one. -/
theorem along_iterate_back (hstep : Precision.gridStep ≤ c.maximalStep) {x : K} (k : ℕ)
    (hdef : Scalar.isNaN (c.back^[k + 1] x) = false) : c.Along (c.back^[k + 1] x) (c.back x) := by
  induction k with
  | zero =>
    unfold Along
    split <;> exact Scalar.le_refl_of_defined hdef
  | succ k ih =>
    rw [Function.iterate_succ_apply'] at hdef ⊢
    have hlast := along_back hstep hdef
    exact hlast.trans (ih hlast.defined.2)

/-- Stretching moves the position, unless already the first step is lost in rounding. -/
theorem iterate_stretch_position_ne (hstep : Precision.gridStep ≤ c.maximalStep) {k : ℕ}
    (hk : 0 < k) (hmoves : (c.stretch.position == c.position) = false) :
    ((stretch^[k] c).position == c.position) = false := by
  obtain ⟨k, rfl⟩ := Nat.exists_eq_add_of_lt hk
  rw [zero_add, iterate_stretch_position hstep]
  rw [← Bool.not_eq_true, OrderedScalar.beq_iff] at hmoves ⊢
  rintro ⟨hle, hge⟩
  have hfirst := along_iterate_back hstep k (OrderedScalar.defined_of_le hle).1
  have hback := along_back hstep hfirst.defined.2
  refine hmoves ?_
  show c.back c.position ≤ c.position ∧ c.position ≤ c.back c.position
  unfold Along at hfirst hback
  split at hfirst
  · rw [if_pos ‹_›] at hback
    exact ⟨hback, OrderedScalar.trans hge hfirst⟩
  · rw [if_neg ‹_›] at hback
    exact ⟨OrderedScalar.trans hfirst hle, hback⟩

end

/-! ## The last successful search -/

theorem interest_new (start goal : K) : (new start goal).interest = .none := by
  unfold new
  split <;> rfl

/-- What is reported about a cursor that has an interest. -/
theorem reports_of_interest {c : Cursor K} (h : c.interest ≠ .none) :
    c.solution = ⟨c.position, c.ordinate⟩ ∧
      c.landmark? = some ⟨c.position, c.ordinate, c.interest⟩ := by
  constructor
  · rw [solution, if_neg (mt Interest.isNone_iff.1 h)]
  · obtain ⟨position, goal, maximalStep, outcome⟩ := c
    cases outcome with
    | pending => exact absurd rfl h
    | exhausted => exact absurd rfl h
    | found interest ordinate =>
      cases interest with
      | none => exact absurd rfl h
      | _ => rfl

omit [Precision K] in
/-- After a search, a history goes on with stretches alone, or there was no search. -/
theorem exists_last_search (calls : List (Call K)) :
    (∃ k, calls = List.replicate k .stretch) ∨
      ∃ before solver sought k,
        calls = before ++ .search solver sought :: List.replicate k .stretch := by
  induction calls using List.reverseRecOn with
  | nil => exact .inl ⟨0, rfl⟩
  | append_singleton calls call ih =>
    cases call with
    | search solver sought => exact .inr ⟨calls, solver, sought, 0, rfl⟩
    | stretch =>
      rcases ih with ⟨k, rfl⟩ | ⟨before, solver, sought, k, rfl⟩
      · exact .inl ⟨k + 1, (List.replicate_succ' ..).symm⟩
      · refine .inr ⟨before, solver, sought, k + 1, ?_⟩
        rw [List.replicate_succ', List.append_assoc, List.cons_append]

/-- A cursor that reports something went through a search that found it, and was at most
stretched since. -/
theorem exists_finds [SteadyPrecision K] {start goal : K} {calls : List (Call K)}
    (h : ((new start goal).after calls).interest ≠ .none) :
    ∃ before solver sought k,
      calls = before ++ .search solver sought :: List.replicate k .stretch ∧
      let found := sought.run solver ((new start goal).after before)
      (new start goal).after calls = stretch^[k] found ∧
        Finds ((new start goal).after before) found := by
  rcases exists_last_search calls with ⟨k, rfl⟩ | ⟨before, solver, sought, k, rfl⟩
  · rw [after_replicate_stretch, iterate_stretch_interest, interest_new] at h
    exact absurd rfl h
  have hafter : (new start goal).after
      (before ++ .search solver sought :: List.replicate k .stretch) =
      stretch^[k] (sought.run solver ((new start goal).after before)) := by
    rw [after_append, ← after_replicate_stretch]
    rfl
  rw [hafter, iterate_stretch_interest] at h
  refine ⟨before, solver, sought, k, rfl, hafter, ?_⟩
  refine (Search.moves_run solver _ sought).finds ?_
  rw [← Bool.not_eq_true]
  exact mt interest_of_isExhausted h

/-! ## A stretch after a search -/

open Machine

/-- The search for the change of sign of a step. -/
def stepSearch : Call Float :=
  .search (Solver.standard {}) (.plain Solver.plainStep.evaluate .oddRoot .compositeRoot)

theorem moves_stepSearch : Moves Solver.twoSteps (stepSearch.run Solver.twoSteps) :=
  Search.moves_run (Solver.standard {}) Solver.twoSteps
    (.plain Solver.plainStep.evaluate .oddRoot .compositeRoot)

theorem finds_stepSearch : Finds Solver.twoSteps (stepSearch.run Solver.twoSteps) := by
  refine moves_stepSearch.finds ?_
  refine (Solver.isExhausted_run_twoSteps ((Solver.standard {}).scan Solver.twoSteps
    Solver.plainStep.evaluate .oddRoot .compositeRoot) rfl (show 4 ≤ 100000 by decide)).trans ?_
  decide +kernel

/-- A step of the grid leads back from less than two such steps to one of them at most. -/
theorem sub_gridStep_lt {x : Float} (h : 1e-6 < x) (h' : x < 2e-6) : x - 1 * 1e-6 < x := by
  obtain ⟨a, ha⟩ := exists_represents (isFinite_of_lt_of_lt h h')
  have hgrid : Represents (1 * 1e-6 : Float) (4722366482869645 * 2 ^ (-72 : ℤ)) := by
    rw [show (1 * 1e-6 : Float) = Float.ofBits 0x3eb0c6f7a0b5ed8d by decide +kernel]
    exact represents_of_unpack
      (show unpack _ = .finite .positive 4722366482869645 (-72) (by decide) from rfl) rfl
  have hdouble : Represents (2e-6 : Float) (4722366482869645 * 2 ^ (-71 : ℤ)) := by
    rw [show (2e-6 : Float) = Float.ofBits 0x3ec0c6f7a0b5ed8d by decide +kernel]
    exact represents_of_unpack
      (show unpack _ = .finite .positive 4722366482869645 (-71) (by decide) from rfl) rfl
  have hlt := (ha.lt_iff hdouble).1 h'
  have hdiff := ha.sub hgrid
  have hle := hdiff.le_of_le (1 * 1e-6) hgrid.defined (by
    rw [hgrid.val_eq, EReal.coe_le_coe_iff]
    norm_num at *
    linarith)
  have hsmall : x - 1 * 1e-6 ≤ 1 * 1e-6 := le_iff_val.2 ⟨hdiff.defined, hgrid.defined, hle⟩
  exact Scalar.lt_of_le_of_lt hsmall (by rwa [show (1 * 1e-6 : Float) = 1e-6 by decide +kernel])

/-- The search leads to a point before the goal, and less than two steps of the grid away. -/
theorem position_stepSearch :
    let found := stepSearch.run Solver.twoSteps
    found.direction = 1 ∧ found.maximalStep = 1e-6 ∧ 1e-6 < found.position ∧
      found.position < 2e-6 := by
  intro found
  have hmoves : Moves Solver.twoSteps found := moves_stepSearch
  have haccepts := finds_stepSearch.2.2
  rw [accepts, if_pos (by decide +kernel), Bool.and_eq_true, decide_eq_true_eq,
    decide_eq_true_eq] at haccepts
  obtain ⟨hbeyond, hbefore⟩ := haccepts
  have hbefore' : found.position < 1.5e-6 := hbefore
  refine ⟨if_pos ?_, ?_, ?_, Scalar.lt_trans hbefore' (by decide +kernel)⟩
  · rw [hmoves.goal]
    exact hbefore
  · rw [hmoves.maximalStep]
    decide +kernel
  · rwa [show Solver.twoSteps.position + Precision.minimalStep Solver.twoSteps.position =
      (1e-6 : Float) by decide +kernel] at hbeyond

/-! ## What is reported -/

/-- A cursor that reports something reports what the last successful search found, moved back
by one maximal step for each stretch since: interest and ordinate are right in any case, and
the abscissa if there was no stretch.  After a stretch it is right only if the step is lost in
rounding. -/
theorem after_reports [PaddingPrecision K] (start goal : K) (calls : List (Call K))
    (h : ((new start goal).after calls).interest ≠ .none) :
    ∃ before solver sought k,
      calls = before ++ .search solver sought :: List.replicate k .stretch ∧
      let found := sought.run solver ((new start goal).after before)
      let c := (new start goal).after calls
      Finds ((new start goal).after before) found ∧
        found.solution = ⟨found.position, found.ordinate⟩ ∧
        found.landmark? = some ⟨found.position, found.ordinate, found.interest⟩ ∧
        c.solution = ⟨c.position, found.ordinate⟩ ∧
        c.landmark? = some ⟨c.position, found.ordinate, found.interest⟩ ∧
        c.position = found.back^[k] found.position ∧
        (k = 0 → c = found) ∧
        (0 < k → (found.back found.position == found.position) = false →
          (c.position == found.position) = false) := by
  obtain ⟨before, solver, sought, k, hcalls, hafter, hfinds⟩ := exists_finds h
  refine ⟨before, solver, sought, k, hcalls, ?_⟩
  intro found c
  have hc : c = stretch^[k] found := hafter
  have hinterest : c.interest = found.interest := by
    rw [hc, iterate_stretch_interest]
  have hordinate : c.ordinate = found.ordinate := by
    rw [hc, iterate_stretch_ordinate]
  have hstep : Precision.gridStep ≤ found.maximalStep := by
    rw [(Search.moves_run solver _ sought).maximalStep, maximalStep_after]
    exact gridStep_le_maximalStep start goal
  obtain ⟨hsolution, hlandmark⟩ := reports_of_interest hfinds.2.1
  obtain ⟨hsolution', hlandmark'⟩ := reports_of_interest h
  rw [← hordinate, ← hinterest]
  refine ⟨hfinds, ?_, ?_, hsolution', hlandmark', ?_, ?_, ?_⟩
  · rw [hsolution, hordinate]
  · rw [hlandmark, hordinate, hinterest]
  · rw [hc, iterate_stretch_position hstep]
  · rintro rfl
    exact hc
  · intro hk hmoves
    rw [hc]
    exact iterate_stretch_position_ne hstep hk hmoves

/-- The history of a search and a stretch. -/
theorem after_reports_stepSearch :
    let c := (new (0 : Float) 1.5e-6).after [stepSearch, .stretch]
    c.interest ≠ .none ∧ ∃ (found : Cursor Float) (k : ℕ), found.interest ≠ .none ∧
      c.solution = ⟨found.back^[k] found.position, found.ordinate⟩ := by
  intro c
  have hinterest : c.interest ≠ .none := finds_stepSearch.2.1
  obtain ⟨before, solver, sought, k, -, hfinds, -, -, hsolution, -, hposition, -⟩ :=
    after_reports (0 : Float) 1.5e-6 [stepSearch, .stretch] hinterest
  exact ⟨hinterest, _, k, hfinds.2.1, hposition ▸ hsolution⟩

/-- A scan that is stretched after the search that found its solution reports a solution that
was not found. -/
theorem stretch_moves_solution :
    let found := (new (0 : Float) 1.5e-6).after [stepSearch]
    let c := (new (0 : Float) 1.5e-6).after [stepSearch, .stretch]
    found.interest ≠ .none ∧ c.interest ≠ .none ∧ c.solution.x < found.solution.x := by
  intro found c
  have hinterest : found.interest ≠ .none := finds_stepSearch.2.1
  have hinterest' : c.interest ≠ .none := hinterest
  obtain ⟨hdirection, hmaximal, hlower, hupper⟩ := position_stepSearch
  refine ⟨hinterest, hinterest', ?_⟩
  rw [(reports_of_interest hinterest).1, (reports_of_interest hinterest').1]
  show found.position - found.direction * found.maximalStep < found.position
  rw [show found.direction = 1 from hdirection, show found.maximalStep = 1e-6 from hmaximal]
  exact sub_gridStep_lt hlower hupper

end Cursor

end CurveSurvey

import CurveSurvey.Proofs.Interval
import CurveSurvey.Proofs.Progress
import CurveSurvey.Proofs.Viewport.Settings
import CurveSurvey.Viewport.Sweep

/-!
# The points of a sweep

Fitting one side of a sweep goes back to a snapshot when the side reaches the
point cap.  Here the points are listed first and chosen afterwards.

* `Sweep.side` lists the points of one side up to the cap, and `Sweep.kept` is
  what is shown of them.
* `Viewport.fitSide_eq` says that going back to the snapshot shows exactly the
  kept points.  Neither the points nor the choice depend on the rectangle.
* `Viewport.sweep_eq` lists all points that a sweep shows.
* `Sweep.mem_side`: every point of a side stands for what some search found, at an
  abscissa that the first cursor accepts.
-/

namespace CurveSurvey

open Progress

namespace Sweep

variable {K S : Type} [Precision K]

/-- The points to show on one side, at most `cap`, and the state of the
observer. -/
def side (w : Sweep K) (solver : Solver K) (observe : Observer K S) :
    Nat → Cursor K → S → List (Point K) × S
  | 0, _, state => ([], state)
  | cap + 1, c, state =>
    let (c, state) := solver.nextObserved c w.f w.test w.refinement observe state
    if c.isExhausted || w.endsAt c then ([], state)
    else
      let (rest, state) := w.side solver observe cap c state
      (w.shown c.solution :: rest, state)

/-- The points of a side that are made visible. -/
def kept (settings : Viewport.Settings K) (points : List (Point K)) : List (Point K) :=
  if settings.maxPointsOnOneSide ≤ points.length then points.take settings.maxPointsIfInfinite
  else points

/-- Whatever is fitted, fitting a side amounts to fitting a list of points: those up
to the snapshot when the cap is reached, all of them otherwise. -/
theorem fitSide_eq (w : Sweep K) (solver : Solver K) (observe : Observer K S)
    (fit : Rect K → Point K → Rect K) (snapshotAt left : Nat) (c : Cursor K) (state : S)
    (snapshot r : Rect K) :
    w.fitSide solver observe fit snapshotAt left c state snapshot r =
      let (points, state) := w.side solver observe left c state
      { rect :=
          if points.length < left then points.foldl fit r
          else if left ≤ snapshotAt then snapshot
          else (points.take (left - snapshotAt)).foldl fit r
        isEndless := decide (left ≤ points.length)
        state := state } := by
  induction left generalizing c state snapshot r with
  | zero => simp [fitSide, side]
  | succ left ih =>
    rw [fitSide, side]
    dsimp only
    generalize solver.nextObserved c w.f w.test w.refinement observe state = found
    split
    · simp
    · rw [ih]
      generalize w.side solver observe left found.1 found.2 = rest
      obtain ⟨points, state⟩ := rest
      dsimp only
      simp only [List.length_cons, Nat.add_lt_add_iff_right, Nat.add_le_add_iff_right,
        List.foldl_cons]
      congr 1
      by_cases hlen : points.length < left
      · rw [if_pos hlen, if_pos hlen]
      · rw [if_neg hlen, if_neg hlen]
        rcases Nat.lt_trichotomy left snapshotAt with h | rfl | h
        · rw [if_pos (Nat.le_of_lt h), if_pos (Nat.succ_le_of_lt h), if_neg (Nat.ne_of_lt h)]
        · -- the snapshot is taken at this very point
          rw [if_pos (Nat.le_refl left), if_pos rfl, if_neg (Nat.not_succ_le_self left)]
          simp
        · rw [if_neg (Nat.not_le_of_lt h), if_neg (Nat.not_le_of_lt (Nat.lt_succ_of_lt h)),
            Nat.succ_sub (Nat.le_of_lt h), List.take_succ_cons, List.foldl_cons]

omit [Precision K] in
theorem mem_of_mem_kept {settings : Viewport.Settings K} {points : List (Point K)} {p : Point K}
    (h : p ∈ kept settings points) : p ∈ points := by
  unfold kept at h
  split at h
  · exact List.mem_of_mem_take h
  · exact h

/-- Something is kept of a side where something was found. -/
theorem kept_eq_nil_iff {settings : Viewport.Settings K} (hsettings : settings.Reachable)
    (points : List (Point K)) : kept settings points = [] ↔ points = [] := by
  have hpos := hsettings.caps.1.ne'
  unfold kept
  split
  · simp [hpos]
  · rfl

/-- A point of a side stands for what some search found on the way to the same goal. -/
theorem mem_side [SteadyPrecision K] {w : Sweep K} {solver : Solver K} {observe : Observer K S}
    {cap : Nat} {c : Cursor K} {state : S} {p : Point K}
    (h : p ∈ (w.side solver observe cap c state).1) :
    ∃ (c' : Cursor K) (state' : S), c'.goal = c.goal ∧
      let found := (solver.nextObserved c' w.f w.test w.refinement observe state').1
      Finds c' found ∧ c.accepts found.position = true ∧ p = w.shown found.solution := by
  induction cap generalizing c state with
  | zero => cases h
  | succ cap ih =>
    rw [side] at h
    have hmoves := (solver.scan c w.f w.test w.refinement).moves_run observe state
    dsimp only at h
    split at h
    · cases h
    · rename_i hnot
      simp only [Bool.or_eq_true, not_or, Bool.not_eq_true] at hnot
      have hfinds := hmoves.finds hnot.1
      rcases List.mem_cons.1 h with rfl | h
      · exact ⟨c, state, rfl, hfinds, hfinds.2.2, rfl⟩
      · obtain ⟨c', state', hgoal, hfound, haccepts, hp⟩ := ih h
        exact ⟨c', state', hgoal.trans hmoves.goal, hfound,
          Cursor.accepts_trans hmoves.goal hfinds.2.2 haccepts, hp⟩

/-- What is shown of a solution has its abscissa. -/
def KeepsAbscissae (w : Sweep K) : Prop := ∀ p, (w.shown p).x = p.x

/-- The first cursor accepts the abscissae of all points of a side. -/
theorem KeepsAbscissae.accepts_of_mem_side [SteadyPrecision K] {w : Sweep K}
    (hw : w.KeepsAbscissae) {solver : Solver K} {observe : Observer K S} {cap : Nat}
    {c : Cursor K} {state : S} {p : Point K} (h : p ∈ (w.side solver observe cap c state).1) :
    c.accepts p.x = true := by
  obtain ⟨c', state', -, hfinds, haccepts, rfl⟩ := mem_side h
  have hnone : ¬ Interest.isNone _ = true := mt Interest.isNone_iff.1 hfinds.2.1
  rwa [hw, Cursor.solution, if_neg hnone]

end Sweep

namespace Viewport

variable {K S : Type} [Precision K]

/-- The points on the right side of a sweep, and the state of the observer. -/
def rightSide (v : Viewport K) (w : Sweep K) (observe : Observer K S) (state : S) :
    List (Point K) × S :=
  let c := v.bounds.center
  w.side (Solver.standard v.context) observe v.settings.maxPointsOnOneSide
    (Cursor.new (c + v.margin c) v.bounds.upper) state

/-- The points on the left side of a sweep, and the state of the observer. -/
def leftSide (v : Viewport K) (w : Sweep K) (observe : Observer K S) (state : S) :
    List (Point K) × S :=
  let c := v.bounds.center
  w.side (Solver.standard v.context) observe v.settings.maxPointsOnOneSide
    (Cursor.new (c - v.margin c) v.bounds.lower) state

/-- All points that a sweep makes visible. -/
def sweptPoints (v : Viewport K) (w : Sweep K) (observe : Observer K S) (state : S) :
    List (Point K) :=
  let right := v.rightSide w observe state
  let left := v.leftSide w observe right.2
  Sweep.kept v.settings right.1 ++ Sweep.kept v.settings left.1 ++ (v.centralPoint? w).toList

theorem fitSide_eq (v : Viewport K) (hv : v.settings.Reachable) (w : Sweep K) (vertical : Bool)
    (observe : Observer K S) (c : Cursor K) (state : S) (r : Rect K) :
    v.fitSide w vertical observe c state r =
      let (points, state) :=
        w.side (Solver.standard v.context) observe v.settings.maxPointsOnOneSide c state
      { rect := (Sweep.kept v.settings points).foldl (fitInto v.limit vertical) r
        isEndless := decide (v.settings.maxPointsOnOneSide ≤ points.length)
        state := state } := by
  obtain ⟨hpos, hlt⟩ := hv.caps
  rw [fitSide, Sweep.fitSide_eq]
  dsimp only
  generalize w.side _ observe v.settings.maxPointsOnOneSide c state = found
  obtain ⟨points, state⟩ := found
  simp only [Sweep.kept]
  congr 1
  by_cases h : v.settings.maxPointsOnOneSide ≤ points.length
  · rw [if_neg (Nat.not_lt_of_le h), if_neg (by omega), if_pos h,
      show v.settings.maxPointsOnOneSide -
        (v.settings.maxPointsOnOneSide - v.settings.maxPointsIfInfinite) =
        v.settings.maxPointsIfInfinite by omega]
  · rw [if_pos (Nat.lt_of_not_le h), if_neg h]

/-- What a sweep shows is a list of points that is chosen without looking at the
rectangle. -/
theorem sweep_eq (v : Viewport K) (hv : v.settings.Reachable) (w : Sweep K) (vertical : Bool)
    (observe : Observer K S) (state : S) :
    v.sweep w vertical observe state =
      let right := v.rightSide w observe state
      let left := v.leftSide w observe right.2
      { viewport := v.fitPoints vertical (v.sweptPoints w observe state)
        leftEndless := decide (v.settings.maxPointsOnOneSide ≤ left.1.length)
        rightEndless := decide (v.settings.maxPointsOnOneSide ≤ right.1.length)
        state := left.2 } := by
  rw [sweep]
  simp only [fitSide_eq v hv, fitPoints, sweptPoints, List.foldl_append]
  rfl

end Viewport

end CurveSurvey

import CurveSurvey.Proofs.Coverage
import CurveSurvey.Proofs.Viewport.Crossings
import CurveSurvey.Proofs.Viewport.Forced
import CurveSurvey.Proofs.Viewport.Spacing
import CurveSurvey.Proofs.Viewport.Starts

/-!
# What is shown outside the bounds

The parameter of a curve is meant to run through the bounds of a viewport, but what is
shown may lie outside them.

* `Fit.covers_runs_iff`: the interesting axis keeps to the bounds exactly when every point
  that a call shows does.
* `Interval.Holds.of_accepts`: a side that starts inside the bounds finds nothing outside,
  and `Viewport.right_outside`, `Viewport.left_outside`: one that starts outside finds
  nothing inside.  In bounds that are narrower than the margin, the sides start outside.
* `Sweep.keeps_side` is the induction over what an observer is shown on a side.  The last
  sample of a bracket, of which an asymptote is made, may be past the end, but only by one
  step (`Viewport.stepPast_of_mem_asymptotePoints`).
* `Fit.bounds_exceeded_by` is the result, and `Fit.narrow_shows_outside` an interval where a
  step past its end is shown as a crossing.
-/

namespace CurveSurvey

open Machine

/-! ## Intervals -/

namespace Interval

/-- What is shown of a number keeps to an interval that holds it, if it is finite at all. -/
theorem covers_spot_finiteOrNaN_iff {i : Interval Float32} {t limit : Float32} :
    i.Covers (spot (Scalar.finiteOrNaN t) limit) ↔
      (Scalar.isFinite t = true → i.Holds (Scalar.clamp t limit)) := by
  unfold Scalar.finiteOrNaN spot
  split
  · rename_i hfinite
    obtain ⟨y, hy⟩ := exists_represents hfinite
    have hclamp : Scalar.isNaN (Scalar.clamp t limit) = false := Scalar.isNaN_clamp hy.defined
    simp [Covers, Holds, hy.defined, hfinite, hclamp]
  · rename_i hfinite
    rw [if_pos OrderedScalar.isNaN_nan]
    exact iff_of_true (covers_unset _) fun h => absurd h hfinite

end Interval

/-- What is accepted lies strictly between the position and the goal. -/
theorem Cursor.between_of_accepts {K : Type} [Precision K] [SteadyPrecision K] {c : Cursor K}
    {x : K} (h : c.accepts x = true) :
    c.position < x ∧ x < c.goal ∨ c.goal < x ∧ x < c.position := by
  unfold accepts at h
  dsimp only at h
  split at h
  · simp only [Bool.and_eq_true, decide_eq_true_eq] at h
    exact .inl ⟨SteadyPrecision.lt_of_add_lt h.1, h.2⟩
  · simp only [Bool.and_eq_true, decide_eq_true_eq] at h
    exact .inr ⟨h.1, SteadyPrecision.lt_of_lt_sub h.2⟩

namespace Interval.Holds

variable {K : Type} [Precision K] {i : Interval K} {c : Cursor K} {x : K}

/-- What lies between the position and the goal is in an interval that holds both. -/
theorem of_along [OrderedScalar K] (hposition : i.Holds c.position) (hgoal : i.Holds c.goal)
    (h : c.Along c.position x) (h' : c.Along x c.goal) : i.Holds x := by
  unfold Cursor.Along at h h'
  split at h
  · rw [if_pos ‹_›] at h'
    exact ⟨OrderedScalar.trans hposition.1 h, OrderedScalar.trans h' hgoal.2⟩
  · rw [if_neg ‹_›] at h'
    exact ⟨OrderedScalar.trans hgoal.1 h', OrderedScalar.trans h hposition.2⟩

/-- A search between two numbers of an interval finds nothing outside it. -/
theorem of_accepts [SteadyPrecision K] (hposition : i.Holds c.position) (hgoal : i.Holds c.goal)
    (h : c.accepts x = true) : i.Holds x := by
  rcases Cursor.between_of_accepts h with ⟨hlo, hhi⟩ | ⟨hlo, hhi⟩
  · exact ⟨OrderedScalar.trans hposition.1 (Scalar.le_of_lt hlo),
      OrderedScalar.trans (Scalar.le_of_lt hhi) hgoal.2⟩
  · exact ⟨OrderedScalar.trans hgoal.1 (Scalar.le_of_lt hlo),
      OrderedScalar.trans (Scalar.le_of_lt hhi) hposition.2⟩

end Interval.Holds

/-! ## What is shown of the abscissae -/

namespace Viewport

/-- What is shown of an abscissa, brought inside the limit, is not outside the bounds. -/
def Admits {K : Type} [Scalar K] (v : Viewport K) (t : K) : Prop :=
  Scalar.isFinite t = true → v.bounds.Holds (Scalar.clamp t v.limit)

variable {v : Viewport Float32} {t : Float32}

theorem covers_spot_iff :
    v.bounds.Covers (Interval.spot (Scalar.finiteOrNaN t) v.limit) ↔ v.Admits t :=
  Interval.covers_spot_finiteOrNaN_iff

theorem admits_of_holds (hlo : -v.limit ≤ v.bounds.lower) (hhi : v.bounds.upper ≤ v.limit)
    (h : v.bounds.Holds t) : v.Admits t := by
  intro _
  rwa [Interval.clamp_eq_self (OrderedScalar.trans hlo h.1) (OrderedScalar.trans h.2 hhi)]

theorem foldl_fitInto_x {K : Type} [Scalar K] [OrderedScalar K] (limit : K) (l : List (Point K))
    (r : Rect K) :
    (l.foldl (fitInto limit false) r).x =
      (l.map fun p => Interval.spot (Scalar.finiteOrNaN p.x) limit).foldl Interval.join r.x := by
  induction l generalizing r with
  | nil => rfl
  | cons p l ih =>
    rw [List.foldl_cons, ih, List.map_cons, List.foldl_cons, ← Interval.extend_eq_join]
    rfl

end Viewport

namespace Fit

open Viewport

/-- The interesting axis keeps to the bounds exactly when every point shown does. -/
theorem covers_runs_iff {v : Viewport Float32} (hv : v.settings.Reachable)
    (hnew : v.interesting = Rect.unset) {calls : List (Fit Float32)}
    (hcalls : ∀ fit ∈ calls, fit.isVertical = false) :
    v.bounds.Covers (runs v calls).interesting.x ↔
      ∀ fit ∈ calls, ∀ p ∈ fit.points v, v.Admits p.x := by
  rw [runs_eq v hv, hnew]
  dsimp only
  rw [Rect.foldl_join_x, Interval.covers_foldl_join_iff, List.map_map, List.forall_mem_map]
  refine (and_iff_right (Interval.covers_unset _)).trans (forall₂_congr fun fit hfit => ?_)
  rw [Function.comp_apply, contribution, run_eq_fitPoints (blank _ _ _ _) hv, hcalls fit hfit,
    points_blank]
  show v.bounds.Covers ((fit.points v).foldl (fitInto v.limit false) Rect.unset).x ↔ _
  rw [foldl_fitInto_x, Interval.covers_foldl_join_iff, List.forall_mem_map]
  refine (and_iff_right (Interval.covers_unset _)).trans (forall₂_congr fun p _ => ?_)
  exact covers_spot_iff

end Fit

/-! ## What an observer keeps -/

namespace Scan

variable {K S : Type} [Precision K] {s : Scan K} {note : Event K → S → S} {P : S → Prop}

/-- A bracket that ends one step after an abscissa between the position and the goal. -/
structure OnWay (s : Scan K) (b : Bracket K) : Prop where
  /-- The middle sample is not before the position. -/
  started : s.cursor.Along s.cursor.position b.middle.x
  /-- It is not past the goal. -/
  underway : s.cursor.Along b.middle.x s.cursor.goal
  /-- The last sample is the next one. -/
  step : b.last.x = s.cursor.nextX b.middle.x s.cursor.goal

variable [StridingPrecision K]

theorem keeps_advance (hstart : Scalar.isFinite s.cursor.position = true)
    (hgoal : Scalar.isFinite s.cursor.goal = true)
    (hsampled : ∀ b, s.OnWay b → ∀ state, P state → P (note (.sampled b) state))
    (hrefined : ∀ p i valid state, P state → P (note (.refined p i valid) state)) {left : Nat}
    {middle last : Point K} (hstride : s.Stride middle last) {state : S} (h : P state) :
    P (s.advance (Observer.listening note) left middle last state).2 := by
  induction left generalizing middle last state with
  | zero => exact h
  | succ left ih =>
    rw [advance]
    split
    · rename_i hunderway
      have honWay : s.OnWay ⟨middle, last, s.following last.x⟩ :=
        ⟨hstride.away.along, hstride.along_goal hgoal hunderway, rfl⟩
      have hexamine := s.examine_invariant (Observer.listening note) (hsampled _ honWay) hrefined h
      dsimp only
      split
      · rename_i heq
        rwa [heq] at hexamine
      · rename_i heq
        rw [heq] at hexamine
        exact ih (hstride.next hstart hgoal hunderway) hexamine
    · exact h

/-- What one bracket on the way keeps, and one refined point, the whole scan keeps. -/
theorem keeps_run (hstart : Scalar.isFinite s.cursor.position = true)
    (hgoal : Scalar.isFinite s.cursor.goal = true)
    (hsampled : ∀ b, s.OnWay b → ∀ state, P state → P (note (.sampled b) state))
    (hrefined : ∀ p i valid state, P state → P (note (.refined p i valid) state)) {state : S}
    (h : P state) : P (s.run (Observer.listening note) state).2 := by
  rw [run]
  split
  · exact h
  · exact keeps_advance hstart hgoal hsampled hrefined (s.stride_start hstart) h

end Scan

/-- What one search keeps from a position in an interval, the whole side keeps. -/
theorem Sweep.keeps_side {K S : Type} [Precision K] [SteadyPrecision K] {w : Sweep K}
    {solver : Solver K} {observe : Observer K S} {P : S → Prop} {i : Interval K} {c : Cursor K}
    (hsearch : ∀ c' : Cursor K, c'.goal = c.goal → c'.maximalStep = c.maximalStep →
      i.Holds c'.position → ∀ state, P state →
        P (solver.nextObserved c' w.f w.test w.refinement observe state).2)
    (hposition : i.Holds c.position) (hgoal : i.Holds c.goal) {cap : Nat} {state : S}
    (h : P state) : P (w.side solver observe cap c state).2 := by
  induction cap generalizing c state with
  | zero => exact h
  | succ cap ih =>
    have hkeeps := hsearch c rfl rfl hposition state h
    have hmoves := (solver.scan c w.f w.test w.refinement).moves_run observe state
    rw [side]
    dsimp only
    split
    · exact hkeeps
    · rename_i hnot
      simp only [Bool.or_eq_true, not_or, Bool.not_eq_true] at hnot
      refine ih (fun c' hgoal' hstep' => hsearch c' (hgoal'.trans hmoves.goal)
        (hstep'.trans hmoves.maximalStep)) ?_ (hmoves.goal ▸ hgoal) hkeeps
      exact hposition.of_accepts hgoal (hmoves.finds hnot.1).2.2

/-! ## Asymptotes -/

namespace Flatness

/-- Something holds of the abscissa from which on a curve is flat. -/
def At {K : Type} (P : K → Prop) : Flatness K → Prop
  | .flatFrom p => P p.x
  | _ => True

variable {K : Type} [Scalar K] {P : K → Prop}

theorem at_update {p : Point K} (hp : P p.x) (low high slope : K) {s : Flatness K} (h : s.At P) :
    (s.update low high p slope).At P := by
  cases s with
  | steep =>
    rw [update]
    split
    · unfold settleAt
      split
      · exact hp
      · split <;> trivial
    · trivial
  | unknown | flatFrom =>
    show Flatness.At P (if high < slope then .steep else _)
    split
    · trivial
    · exact h

end Flatness

/-- Something holds of both abscissae from which on a curve is flat. -/
def Asymptotes.At {K : Type} (P : K → Prop) (a : Asymptotes K) : Prop := a.left.At P ∧ a.right.At P

theorem Asymptotes.at_update {K : Type} [Scalar K] {P : K → Prop} {p : Point K} (hp : P p.x)
    (slope : K) {a : Asymptotes K} (h : a.At P) : (a.update p slope).At P := by
  unfold update
  dsimp only
  split
  · exact ⟨Flatness.at_update hp _ _ _ h.1, h.2⟩
  · exact ⟨h.1, Flatness.at_update hp _ _ _ h.2⟩

theorem Flatness.At.candidate {P : Float32 → Prop} {s : Flatness Float32} (h : s.At P)
    (hfinite : Scalar.isFinite s.candidate.x = true) : P s.candidate.x := by
  cases s with
  | flatFrom p => exact h
  | unknown | steep => cases hfinite

namespace Viewport

/-- Both sides start inside the bounds. -/
structure StartsInside {K : Type} [Precision K] (v : Viewport K) : Prop where
  /-- The right side does. -/
  right : v.bounds.Holds v.rightCursor.position
  /-- The left side does. -/
  left : v.bounds.Holds v.leftCursor.position

/-- An abscissa one step after one of the bounds, on either side. -/
def StepPast {K : Type} [Precision K] (v : Viewport K) (x : K) : Prop :=
  ∃ c ∈ [v.rightCursor, v.leftCursor], ∃ t, v.bounds.Holds t ∧ x = c.nextX t c.goal

theorem nextX_eq {K : Type} [Precision K] {c c' : Cursor K} (hgoal : c'.goal = c.goal)
    (hstep : c'.maximalStep = c.maximalStep) (x : K) : c'.nextX x c'.goal = c.nextX x c.goal := by
  unfold Cursor.nextX
  rw [hgoal, hstep]

section

variable {v : Viewport Float32} {w : Sweep Float32} {p : Point Float32}

/-! ## The points of a sweep -/

theorem holds_lower_upper {i : Interval Float32} {t : Float32} (h : i.Holds t) :
    i.Holds i.lower ∧ i.Holds i.upper := by
  have hle := OrderedScalar.trans h.1 h.2
  obtain ⟨hl, hu⟩ := OrderedScalar.defined_of_le hle
  exact ⟨⟨Scalar.le_refl_of_defined hl, hle⟩, hle, Scalar.le_refl_of_defined hu⟩

/-- A sweep that starts inside the bounds finds nothing outside. -/
theorem holds_of_mem_sweptPoints {S : Type} {observe : Observer Float32 S} {state : S}
    (hv : v.settings.Reachable) (hl : Scalar.isFinite v.bounds.lower = true)
    (hu : Scalar.isFinite v.bounds.upper = true) (hstart : v.StartsInside)
    (hw : w.KeepsAbscissae) (hp : p ∈ v.sweptPoints w observe state) : v.bounds.Holds p.x := by
  obtain ⟨hlower, hupper⟩ := holds_lower_upper hstart.right
  rw [sweptPoints, List.mem_append, List.mem_append] at hp
  rcases hp with (hright | hleft) | hcenter
  · exact hstart.right.of_accepts hupper (hw.accepts_of_mem_side (Sweep.mem_of_mem_kept hright))
  · exact hstart.left.of_accepts hlower (hw.accepts_of_mem_side (Sweep.mem_of_mem_kept hleft))
  · rw [centralPoint?_eq] at hcenter
    split at hcenter
    · cases hcenter
    · obtain rfl : p = w.shown (v.centralBracket w).middle := by simpa using hcenter
      obtain ⟨hleft, hright⟩ := center_between hv hl hu
      rw [hw]
      exact ⟨OrderedScalar.trans hstart.left.1 hleft, OrderedScalar.trans hright hstart.right.2⟩

/-- A right side that starts past the bounds finds nothing inside. -/
theorem right_outside {S : Type} {observe : Observer Float32 S} {state : S}
    (hw : w.KeepsAbscissae) (hpast : v.bounds.upper < v.rightCursor.position)
    (hp : p ∈ (v.rightSide w observe state).1) : v.bounds.upper < p.x := by
  rcases Cursor.between_of_accepts (hw.accepts_of_mem_side hp) with ⟨hlo, hhi⟩ | ⟨hlo, -⟩
  · exact absurd (Scalar.lt_trans hlo hhi) (Scalar.lt_asymm hpast)
  · exact hlo

/-- A left side that starts past the bounds finds nothing inside. -/
theorem left_outside {S : Type} {observe : Observer Float32 S} {state : S}
    (hw : w.KeepsAbscissae) (hpast : v.leftCursor.position < v.bounds.lower)
    (hp : p ∈ (v.leftSide w observe state).1) : p.x < v.bounds.lower := by
  rcases Cursor.between_of_accepts (hw.accepts_of_mem_side hp) with ⟨-, hhi⟩ | ⟨hlo, hhi⟩
  · exact hhi
  · exact absurd (Scalar.lt_trans hlo hhi) (Scalar.lt_asymm hpast)

/-! ## The asymptotes of a sweep -/

/-- One search notes slopes one step after abscissae of the bounds. -/
theorem at_stepPast_nextObserved {c c' : Cursor Float32} (hc : c ∈ [v.rightCursor, v.leftCursor])
    (hfinite : Scalar.isFinite c.goal = true) (hgoal : v.bounds.Holds c.goal)
    (hgoal' : c'.goal = c.goal) (hstep : c'.maximalStep = c.maximalStep)
    (hposition' : Scalar.isFinite c'.position = true) (hposition : v.bounds.Holds c'.position)
    {a : Asymptotes Float32} (h : a.At v.StepPast) :
    ((Solver.standard v.context).nextObserved c' w.f w.test w.refinement
      (Observer.listening noteSlope) a).2.At v.StepPast := by
  refine Scan.keeps_run (P := Asymptotes.At v.StepPast) hposition' (hgoal' ▸ hfinite) ?_ ?_ h
  · intro b hb a ha
    refine Asymptotes.at_update ⟨c, hc, b.middle.x, ?_, ?_⟩ _ ha
    · exact hposition.of_along (hgoal' ▸ hgoal) hb.started hb.underway
    · exact hb.step.trans (nextX_eq hgoal' hstep b.middle.x)
  · exact fun _ _ _ _ h => h

/-- One side notes slopes one step after abscissae of the bounds. -/
theorem at_stepPast_side (hl : Scalar.isFinite v.bounds.lower = true)
    (hu : Scalar.isFinite v.bounds.upper = true) {c : Cursor Float32}
    (hc : c ∈ [v.rightCursor, v.leftCursor]) (hposition : v.bounds.Holds c.position)
    (hgoal : v.bounds.Holds c.goal) {a : Asymptotes Float32} (h : a.At v.StepPast) :
    (w.side (Solver.standard v.context) (Observer.listening noteSlope)
      v.settings.maxPointsOnOneSide c a).2.At v.StepPast := by
  have hfinite : ∀ {t : Float32}, v.bounds.Holds t → Scalar.isFinite t = true := fun ht =>
    StridingPrecision.isFinite_of_between ht.1 ht.2 hl hu
  refine Sweep.keeps_side (P := Asymptotes.At v.StepPast) ?_ hposition hgoal h
  intro c' hgoal' hstep hposition' a ha
  exact at_stepPast_nextObserved hc (hfinite hgoal) hgoal hgoal' hstep (hfinite hposition')
    hposition' ha

/-- Every asymptote is one step after an abscissa of the bounds. -/
theorem stepPast_of_mem_asymptotePoints (hl : Scalar.isFinite v.bounds.lower = true)
    (hu : Scalar.isFinite v.bounds.upper = true) (hstart : v.StartsInside)
    (hp : p ∈ v.asymptotePoints w) (hfinite : Scalar.isFinite p.x = true) : v.StepPast p.x := by
  obtain ⟨hlower, hupper⟩ := holds_lower_upper hstart.right
  let start : Asymptotes Float32 :=
    { center := v.bounds.center
      threshold := v.settings.asymptoteThreshold
      hysteresis := v.settings.asymptoteHysteresis }
  have hright : (v.rightSide w (Observer.listening noteSlope) start).2.At v.StepPast :=
    at_stepPast_side hl hu (by simp) hstart.right hupper ⟨trivial, trivial⟩
  have hleft : (v.leftSide w (Observer.listening noteSlope)
      (v.rightSide w (Observer.listening noteSlope) start).2).2.At v.StepPast :=
    at_stepPast_side hl hu (by simp) hstart.left hlower hright
  rw [asymptotePoints, List.mem_append] at hp
  rcases hp with hp | hp
  · split at hp
    · cases hp
    · obtain rfl := List.mem_singleton.1 hp
      exact hleft.1.candidate hfinite
  · split at hp
    · cases hp
    · obtain rfl := List.mem_singleton.1 hp
      exact hleft.2.candidate hfinite

end

end Viewport

/-! ## Graphs -/

/-- The curve of a function of the abscissa. -/
def graph {K : Type} (f : Evaluator K) : Curve K := fun context t => ⟨t, f context t⟩

namespace Fit

open Viewport

variable {K : Type}

/-- A call for graphs. -/
inductive ForGraphs [Precision K] : Fit K → Prop where
  | fullFunction (f : Evaluator K) : ForGraphs (.fullFunction (graph f))
  | pointsOfInterest (f : Evaluator K) : ForGraphs (.pointsOfInterest (graph f) false)
  | pointsOfInterestPrecise {P : Type} [Scalar P] [Widening K P] (f : Evaluator K)
      (precise : Curve P) : ForGraphs (.pointsOfInterestPrecise (graph f) precise false)
  | intersections (f g : Evaluator K) : ForGraphs (.intersections (graph f) (graph g) false)

theorem ForGraphs.isVertical [Precision K] {fit : Fit K} (h : fit.ForGraphs) :
    fit.isVertical = false := by
  cases h <;> rfl

section

variable [Precision K]

/-- The abscissae at which a call takes evenly spaced samples. -/
def samples (v : Viewport K) : Fit K → List K
  | fullFunction _ => spaced v.bounds v.settings.sampleSize
  | _ => []

/-- The asymptotes that a call shows. -/
def asymptotes (v : Viewport K) : Fit K → List (Point K)
  | pointsOfInterest curve vertical =>
    v.asymptotePoints (v.landmarkSweep curve vertical fun _ => false)
  | pointsOfInterestPrecise curve precise vertical =>
    v.asymptotePoints (v.landmarkSweep curve vertical fun t =>
      Scalar.isFinite (searched vertical (precise v.context (Widening.widen t))))
  | _ => []

end

variable {v : Viewport Float32}

/-- Where the sides start inside the bounds, only samples and asymptotes can be outside. -/
theorem admits_points_iff (hv : v.settings.Reachable) (hl : Scalar.isFinite v.bounds.lower = true)
    (hu : Scalar.isFinite v.bounds.upper = true) (hlo : -v.limit ≤ v.bounds.lower)
    (hhi : v.bounds.upper ≤ v.limit) (hstart : v.StartsInside) {fit : Fit Float32}
    (hfit : fit.ForGraphs) :
    (∀ p ∈ fit.points v, v.Admits p.x) ↔
      (∀ t ∈ fit.samples v, v.Admits t) ∧ ∀ p ∈ fit.asymptotes v, v.Admits p.x := by
  have hswept : ∀ {S : Type} (w : Sweep Float32) (observe : Observer Float32 S) (state : S),
      w.KeepsAbscissae → ∀ p ∈ v.sweptPoints w observe state, v.Admits p.x :=
    fun _ _ _ hw _ hp => admits_of_holds hlo hhi (holds_of_mem_sweptPoints hv hl hu hstart hw hp)
  cases hfit with
  | fullFunction f => simp [points, samples, asymptotes, graph]
  | pointsOfInterest f | pointsOfInterestPrecise f precise =>
    simp only [points, samples, asymptotes, landmarkPoints, List.forall_mem_append,
      List.not_mem_nil, IsEmpty.forall_iff, implies_true, true_and]
    refine and_iff_right (hswept _ _ _ ?_)
    exact fun _ => rfl
  | intersections f g =>
    simp only [points, samples, asymptotes, List.not_mem_nil, IsEmpty.forall_iff, implies_true,
      and_true]
    refine iff_true_intro (hswept _ _ _ ?_)
    exact fun _ => rfl

theorem stepPast_of_mem_asymptotes (hl : Scalar.isFinite v.bounds.lower = true)
    (hu : Scalar.isFinite v.bounds.upper = true) (hstart : v.StartsInside) {fit : Fit Float32}
    {p : Point Float32} (hp : p ∈ fit.asymptotes v) (hfinite : Scalar.isFinite p.x = true) :
    v.StepPast p.x := by
  cases fit with
  | fullFunction | intersections => cases hp
  | pointsOfInterest | pointsOfInterestPrecise =>
    exact stepPast_of_mem_asymptotePoints hl hu hstart hp hfinite

/-- What calls for graphs show along the axis of the parameter.  Where the sides start inside
the bounds, all of it is, except for those samples and asymptotes that are not; every
asymptote is one step after an abscissa of the bounds.  Samples are inside unless the
bounds are very short or the samples very many.  A side that starts outside the bounds
finds nothing inside them. -/
theorem bounds_exceeded_by (v : Viewport Float32) (hv : v.settings.Reachable)
    (hnew : v.interesting = Rect.unset) (hl : Scalar.isFinite v.bounds.lower = true)
    (hu : Scalar.isFinite v.bounds.upper = true) (hlo : -v.limit ≤ v.bounds.lower)
    (hhi : v.bounds.upper ≤ v.limit) :
    (v.StartsInside → ∀ calls : List (Fit Float32), (∀ fit ∈ calls, fit.ForGraphs) →
      (v.bounds.Covers (runs v calls).interesting.x ↔ ∀ fit ∈ calls,
        (∀ t ∈ fit.samples v, v.Admits t) ∧ ∀ p ∈ fit.asymptotes v, v.Admits p.x) ∧
      ∀ fit ∈ calls, ∀ p ∈ fit.asymptotes v, Scalar.isFinite p.x = true → v.StepPast p.x) ∧
    (Scalar.isFinite v.bounds.length = true → 1e-20 ≤ v.bounds.length →
      v.settings.sampleSize ≤ 10 ^ 5 → ∀ fit : Fit Float32, ∀ t ∈ fit.samples v, v.Admits t) ∧
    (∀ w : Sweep Float32, w.KeepsAbscissae →
      ∀ (S : Type) (observe : Observer Float32 S) (state : S),
      (v.bounds.upper < v.rightCursor.position →
        ∀ p ∈ (v.rightSide w observe state).1, v.bounds.upper < p.x) ∧
      (v.leftCursor.position < v.bounds.lower →
        ∀ p ∈ (v.leftSide w observe state).1, p.x < v.bounds.lower)) := by
  refine ⟨fun hstart calls hcalls => ⟨?_, ?_⟩, ?_, ?_⟩
  · rw [covers_runs_iff hv hnew fun fit hfit => (hcalls fit hfit).isVertical]
    exact forall₂_congr fun fit hfit =>
      admits_points_iff hv hl hu hlo hhi hstart (hcalls fit hfit)
  · intro fit _ p hp hfinite
    exact stepPast_of_mem_asymptotes hl hu hstart hp hfinite
  · intro hfinite hlong hcount fit t ht
    cases fit with
    | fullFunction curve =>
      exact admits_of_holds hlo hhi (holds_of_mem_spaced hl hu hfinite hlong hcount ht)
    | pointsOfInterest | pointsOfInterestPrecise | intersections => cases ht
  · intro w hw S observe state
    exact ⟨fun hpast p hp => right_outside hw hpast hp, fun hpast p hp => left_outside hw hpast hp⟩

/-- A line and its crossing with the axis keep to the bounds. -/
theorem line_keeps_to_bounds :
    let v : Viewport Float32 := new (-10) 10 0.5 {} 1e8
    let line := graph fun _ (t : Float32) => t
    let axis := graph fun _ (_ : Float32) => 0
    v.StartsInside ∧
      v.bounds.Covers
        (runs v [fullFunction line, intersections line axis false]).interesting.x := by
  intro v line axis
  have hstart : v.StartsInside :=
    ⟨⟨by decide +kernel, by decide +kernel⟩, by decide +kernel, by decide +kernel⟩
  obtain ⟨hinside, hsamples, -⟩ := bounds_exceeded_by v .standard rfl (by decide +kernel)
    (by decide +kernel) (by decide +kernel) (by decide +kernel)
  have hsamples := hsamples (by decide +kernel) (by decide +kernel) (by decide)
  have hcalls : ∀ fit ∈ [fullFunction line, intersections line axis false], fit.ForGraphs := by
    simp only [List.forall_mem_cons]
    exact ⟨.fullFunction _, .intersections _ _, nofun⟩
  refine ⟨hstart, ((hinside hstart _ hcalls).1.2 fun fit hfit => ⟨hsamples fit, ?_⟩)⟩
  rcases List.mem_cons.1 hfit with rfl | hfit
  · exact nofun
  · obtain rfl := List.mem_singleton.1 hfit
    exact nofun

/-! ## A narrow viewport -/

/-- Bounds that are narrower than the margin. -/
def narrow : Viewport Float32 := new (-0.0095) 0.0095 0.5 {} 1e8

/-- A step past the bounds. -/
def step : Evaluator Float32 := fun _ t => if t < 0.009985 then -1 else 1

/-- The sweep for the crossings of the step with the axis. -/
def stepSweep : Sweep Float32 := narrow.crossingSweep (graph step) (graph fun _ _ => 0) false

/-- The first scan of its right side. -/
def stepScan : Scan Float32 := narrow.sideScan stepSweep narrow.rightCursor

/-- The largest step is the least one, so the steps do not grow. -/
theorem nextX_narrow :
    narrow.rightCursor.nextX 0.01 narrow.rightCursor.goal = 0.00999 ∧
      narrow.rightCursor.nextX 0.00999 narrow.rightCursor.goal = 0.00999 - 1e-5 := by
  have hcoarse : narrow.rightCursor.maximalStep ≤ 1e-5 := by decide +kernel
  constructor
  · rw [Cursor.nextX_of_maximalStep_le hcoarse]
    decide +kernel
  · rw [Cursor.nextX_of_maximalStep_le hcoarse]
    decide +kernel

/-- The step is found in the first bracket. -/
theorem rightSide_stepSweep : (narrow.rightSide stepSweep Observer.silent ()).1 ≠ [] := by
  let b : Bracket Float32 :=
    ⟨stepScan.sample 0.01, stepScan.sample 0.00999, stepScan.sample (0.00999 - 1e-5)⟩
  have hposition : narrow.rightCursor.position = 0.01 := by decide +kernel
  obtain ⟨hfirst, hsecond⟩ := nextX_narrow
  have hunderway : stepScan.isUnderway 0.00999 = true := by decide +kernel
  have hroot : stepScan.test.classify b = .root := by decide +kernel
  have hclassify : stepScan.classify b = (b, .root) := by
    rw [Scan.classify, hroot]
    rfl
  have hvalid : stepScan.isValid (stepScan.refine b .root) = true := by decide +kernel
  have hrun := stepScan.run_of_first_steps rfl (by decide) hposition hfirst hsecond hunderway
    hclassify rfl hvalid
  intro hnil
  have hexhausted : (stepScan.run Observer.silent ()).1.isExhausted = true :=
    (side_eq_nil_iff (fun _ => rfl) (by decide) _).1 hnil
  rw [hrun] at hexhausted
  cases hexhausted

/-- The step is past the bounds, and it is shown there. -/
theorem narrow_shows_outside :
    narrow.bounds.lower ≤ narrow.bounds.upper ∧
      ¬ narrow.bounds.Covers
        (runs narrow [intersections (graph step) (graph fun _ _ => 0) false]).interesting.x := by
  refine ⟨by decide +kernel, fun hcovers => ?_⟩
  have hreachable : narrow.settings.Reachable := .standard
  rw [covers_runs_iff hreachable rfl (by simp [isVertical])] at hcovers
  have hkept := mt (Sweep.kept_eq_nil_iff hreachable _).1 rightSide_stepSweep
  obtain ⟨p, hp⟩ := List.exists_mem_of_ne_nil _ hkept
  have hadmits := hcovers _ (List.mem_singleton_self _) p
    (List.mem_append_left _ (List.mem_append_left _ hp))
  have haccepts : narrow.rightCursor.accepts p.x = true :=
    Sweep.KeepsAbscissae.accepts_of_mem_side (fun _ => rfl) (Sweep.mem_of_mem_kept hp)
  have hback : ¬ narrow.rightCursor.position < narrow.rightCursor.goal := by decide +kernel
  have hbetween : narrow.bounds.upper < p.x ∧ p.x < narrow.rightCursor.position :=
    (Cursor.between_of_accepts haccepts).resolve_left fun h => hback (Scalar.lt_trans h.1 h.2)
  have hclamp : Scalar.clamp p.x narrow.limit = p.x := by
    refine Interval.clamp_eq_self ?_ ?_
    · exact OrderedScalar.trans (by decide +kernel) (Scalar.le_of_lt hbetween.1)
    · exact OrderedScalar.trans (Scalar.le_of_lt hbetween.2) (by decide +kernel)
  have hinside := (hadmits (Scan.isFinite_of_accepts haccepts)).2
  rw [hclamp] at hinside
  exact Scalar.not_le_of_lt hbetween.1 hinside

end Fit

end CurveSurvey

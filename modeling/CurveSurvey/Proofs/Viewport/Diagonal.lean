import CurveSurvey.Proofs.Viewport.Contributions
import CurveSurvey.Proofs.Viewport.Starts

/-!
# The two axes of a viewport

A vertical curve is a graph reflected across the first diagonal, so a fit of the reflected
curve with the opposite orientation finds the same parameters and shows the reflected points.

* `Viewport.Flips` says that two viewports differ in the axes only, and every step of a fit
  keeps it: fitting a point (`Viewport.Flips.fitPoints`), one side of a sweep
  (`Sweep.fitSide_flipped`), the whole sweep (`Viewport.Flips.sweep`).
* `Fit.flips_run` is the law for one call, and `Fit.interesting_runs_flipped` the one for a
  list of calls.
-/

namespace CurveSurvey

/-- The curve reflected across the first diagonal. -/
def Curve.flipped {K : Type} (curve : Curve K) : Curve K :=
  fun context t => (curve context t).flipped

/-- The side of a sweep with its rectangle reflected. -/
def Side.flipped {K S : Type} (side : Side K S) : Side K S :=
  { side with rect := side.rect.flipped }

/-! ## Points -/

namespace Viewport

section

variable {K : Type}

/-- A curve and its reflection have the same searched coordinate. -/
@[simp] theorem searched_flipped (vertical : Bool) (p : Point K) :
    searched (!vertical) p.flipped = searched vertical p := by
  cases vertical <;> rfl

variable [Scalar K]

/-- With the opposite orientation, a point extends the other axis. -/
theorem fitInto_not (limit : K) (vertical : Bool) (r : Rect K) (p : Point K) :
    fitInto limit (!vertical) r.flipped p = (fitInto limit vertical r p).flipped := by
  cases vertical <;> rfl

/-- The reflected point extends the other axis. -/
theorem fitInto_flipped (limit : K) (vertical : Bool) (r : Rect K) (p : Point K) :
    fitInto limit vertical r.flipped p.flipped = (fitInto limit vertical r p).flipped := by
  have hpoint : (if vertical then p.flipped.flipped else p.flipped).finitePart =
      (if vertical then p.flipped else p).finitePart.flipped := by
    rw [← Point.finitePart_flipped]
    cases vertical <;> rfl
  rw [fitInto, fitInto, Rect.flipped_extend, hpoint]

end

end Viewport

/-! ## Sweeps -/

/-- A side that shows its points in the reflected rectangle finds the same points and goes
back to the reflected snapshot. -/
theorem Sweep.fitSide_flipped {K S : Type} [Precision K] (w : Sweep K) (solver : Solver K)
    (observe : Observer K S) {fit fit' : Rect K → Point K → Rect K}
    (hfit : ∀ r p, fit' r.flipped p = (fit r p).flipped) (snapshotAt left : Nat) (c : Cursor K)
    (state : S) (snapshot r : Rect K) :
    w.fitSide solver observe fit' snapshotAt left c state snapshot.flipped r.flipped =
      (w.fitSide solver observe fit snapshotAt left c state snapshot r).flipped := by
  induction left generalizing c state snapshot r with
  | zero => rfl
  | succ left ih =>
    simp only [Sweep.fitSide]
    split
    · rfl
    · rw [hfit, ← ih]
      split <;> rfl

namespace Viewport

variable {K S : Type} [Precision K] {v v' : Viewport K}

/-- The second viewport is fitted as the first one is, and its interesting rectangle is the
reflection of the other. -/
structure Flips (v v' : Viewport K) : Prop where
  /-- The parameter runs through the same interval. -/
  bounds : v'.bounds = v.bounds
  /-- No coordinate is larger. -/
  limit : v'.limit = v.limit
  /-- Curves are evaluated in the same context. -/
  context : v'.context = v.context
  /-- The settings are the same. -/
  settings : v'.settings = v.settings
  /-- The axes are exchanged. -/
  interesting : v'.interesting = v.interesting.flipped

omit [Precision K] in
theorem Flips.withInteresting (h : Flips v v') (r : Rect K) :
    Flips { v with interesting := r } { v' with interesting := r.flipped } :=
  ⟨h.bounds, h.limit, h.context, h.settings, rfl⟩

/-- Points are fitted as they are, with the opposite orientation. -/
theorem Flips.fitPoints (h : Flips v v') (vertical : Bool) (points : List (Point K)) :
    Flips (v.fitPoints vertical points) (v'.fitPoints (!vertical) points) where
  bounds := h.bounds
  limit := h.limit
  context := h.context
  settings := h.settings
  interesting := by
    simp only [Viewport.fitPoints, h.interesting, h.limit]
    exact List.foldl_hom Rect.flipped (fitInto_not v.limit vertical)

/-- Reflected points are fitted with the same orientation. -/
theorem Flips.fitPoints_flipped (h : Flips v v') (vertical : Bool) (points : List (Point K)) :
    Flips (v.fitPoints vertical points) (v'.fitPoints vertical (points.map Point.flipped)) where
  bounds := h.bounds
  limit := h.limit
  context := h.context
  settings := h.settings
  interesting := by
    simp only [Viewport.fitPoints, h.interesting, h.limit, List.foldl_map]
    exact List.foldl_hom Rect.flipped fun r p => fitInto_flipped v.limit vertical r p

/-- One side of the bounds shows the same points on the other axis. -/
theorem Flips.fitSide (h : Flips v v') (w : Sweep K) (vertical : Bool) (observe : Observer K S)
    (c : Cursor K) (state : S) (r : Rect K) :
    v'.fitSide w (!vertical) observe c state r.flipped =
      (v.fitSide w vertical observe c state r).flipped := by
  simp only [Viewport.fitSide, h.context, h.limit, h.settings]
  exact w.fitSide_flipped _ observe (fitInto_not v.limit vertical) _ _ c state Rect.unset r

theorem Flips.rightCursor_eq (h : Flips v v') : v'.rightCursor = v.rightCursor := by
  rw [rightCursor, rightCursor, margin, margin, h.bounds, h.settings]

theorem Flips.leftCursor_eq (h : Flips v v') : v'.leftCursor = v.leftCursor := by
  rw [leftCursor, leftCursor, margin, margin, h.bounds, h.settings]

theorem Flips.centralPoint?_eq (h : Flips v v') (w : Sweep K) :
    v'.centralPoint? w = v.centralPoint? w := by
  rw [Viewport.centralPoint?_eq, Viewport.centralPoint?_eq, centralBracket, centralBracket,
    margin, margin, h.bounds, h.settings, h.context]

/-- What a sweep leaves behind, when its two sides are known. -/
theorem sweep_eq_of_sides {w : Sweep K} {vertical : Bool} {observe : Observer K S} {state : S}
    {right left : Side K S}
    (hright : v.fitSide w vertical observe v.rightCursor state v.interesting = right)
    (hleft : v.fitSide w vertical observe v.leftCursor right.state right.rect = left) :
    v.sweep w vertical observe state =
      { viewport := fitPoints { v with interesting := left.rect } vertical
          (v.centralPoint? w).toList
        leftEndless := left.isEndless
        rightEndless := right.isEndless
        state := left.state } := by
  subst hright hleft
  rfl

/-- A sweep with the opposite orientation shows the same points on the other axis, and leaves
the same behind beside the viewport. -/
theorem Flips.sweep (h : Flips v v') (w : Sweep K) (vertical : Bool) (observe : Observer K S)
    (state : S) :
    let swept := v.sweep w vertical observe state
    let swept' := v'.sweep w (!vertical) observe state
    Flips swept.viewport swept'.viewport ∧ swept'.leftEndless = swept.leftEndless ∧
      swept'.rightEndless = swept.rightEndless ∧ swept'.state = swept.state := by
  let right := v.fitSide w vertical observe v.rightCursor state v.interesting
  let left := v.fitSide w vertical observe v.leftCursor right.state right.rect
  have hright : v'.fitSide w (!vertical) observe v'.rightCursor state v'.interesting =
      right.flipped := by
    rw [h.rightCursor_eq, h.interesting]
    exact h.fitSide w vertical observe v.rightCursor state v.interesting
  have hleft : v'.fitSide w (!vertical) observe v'.leftCursor right.state right.rect.flipped =
      left.flipped := by
    rw [h.leftCursor_eq]
    exact h.fitSide w vertical observe v.leftCursor right.state right.rect
  have hswept := sweep_eq_of_sides
    (show v.fitSide w vertical observe v.rightCursor state v.interesting = right from rfl)
    (show v.fitSide w vertical observe v.leftCursor right.state right.rect = left from rfl)
  rw [hswept, sweep_eq_of_sides hright hleft, h.centralPoint?_eq]
  exact ⟨(h.withInteresting left.rect).fitPoints vertical _, rfl, rfl, rfl⟩

/-! ## Fits of a curve -/

omit [Precision K] in
theorem landmarkSweep_flipped (h : Flips v v') (curve : Curve K) (vertical : Bool)
    (isLossAt : K → Bool) :
    v'.landmarkSweep curve.flipped (!vertical) isLossAt =
      v.landmarkSweep curve vertical isLossAt := by
  simp only [landmarkSweep, Curve.flipped, searched_flipped, h.settings]

theorem crossingSweep_flipped (h : Flips v v') (curve₁ curve₂ : Curve K) (vertical : Bool) :
    v'.crossingSweep curve₁.flipped curve₂.flipped (!vertical) =
      v.crossingSweep curve₁ curve₂ vertical := by
  simp only [crossingSweep, Curve.flipped, searched_flipped, h.context]

/-- The landmarks and asymptotes of the reflected curve are shown on the other axis. -/
theorem Flips.fitLandmarks (h : Flips v v') (curve : Curve K) (vertical : Bool)
    (isLossAt : K → Bool) :
    Flips (v.fitLandmarks curve vertical isLossAt)
      (v'.fitLandmarks curve.flipped (!vertical) isLossAt) := by
  simp only [Viewport.fitLandmarks, landmarkSweep_flipped h, h.bounds, h.settings]
  obtain ⟨hviewport, hleft, hright, hstate⟩ :=
    h.sweep (v.landmarkSweep curve vertical isLossAt) vertical (Observer.listening noteSlope)
      { center := v.bounds.center
        threshold := v.settings.asymptoteThreshold
        hysteresis := v.settings.asymptoteHysteresis }
  rw [hleft, hright, hstate]
  exact hviewport.fitPoints vertical _

end Viewport

/-! ## Calls -/

namespace Fit

open Viewport

variable {K : Type} [Precision K] {v v' : Viewport K}

/-- The same call for the reflected curves, with the opposite orientation. -/
def flipped : Fit K → Fit K
  | fullFunction curve => fullFunction curve.flipped
  | pointsOfInterest curve vertical => pointsOfInterest curve.flipped (!vertical)
  | pointsOfInterestPrecise curve precise vertical =>
    pointsOfInterestPrecise curve.flipped precise.flipped (!vertical)
  | intersections curve₁ curve₂ vertical =>
    intersections curve₁.flipped curve₂.flipped (!vertical)

/-- One call, made for the reflected curves in the other viewport. -/
theorem flips_run (h : Flips v v') (fit : Fit K) : Flips (fit.run v) (fit.flipped.run v') := by
  cases fit with
  | fullFunction curve =>
    have hpoints := h.fitPoints_flipped false
      ((spaced v.bounds v.settings.sampleSize).map (curve v.context))
    rw [List.map_map] at hpoints
    simp only [run, flipped, fitFullFunction, h.bounds, h.settings, h.context]
    exact hpoints
  | pointsOfInterest curve vertical => exact h.fitLandmarks curve vertical _
  | pointsOfInterestPrecise curve precise vertical =>
    have hloss := h.fitLandmarks curve vertical fun t =>
      Scalar.isFinite (searched vertical (precise v.context (Widening.widen t)))
    simpa only [run, flipped, fitPointsOfInterestPrecise, Curve.flipped, searched_flipped,
      h.context] using hloss
  | intersections curve₁ curve₂ vertical =>
    simp only [run, flipped, fitIntersections, crossingSweep_flipped h]
    exact (h.sweep _ vertical Observer.silent ()).1

theorem flips_runs (h : Flips v v') (calls : List (Fit K)) :
    Flips (runs v calls) (runs v' (calls.map flipped)) := by
  induction calls generalizing v v' with
  | nil => exact h
  | cons fit calls ih => exact ih (flips_run h fit)

/-- The interesting rectangles of two fresh viewports are reflections of each other, when the
second one is fitted to the reflected curves with the opposite orientations.  The ratios
of the two may differ. -/
theorem interesting_runs_flipped (start goal ratio ratio' limit : K) (context : Context)
    (settings : Viewport.Settings K) (calls : List (Fit K)) :
    (runs (Viewport.new start goal ratio' context limit settings) (calls.map flipped)).interesting =
      (runs (Viewport.new start goal ratio context limit settings) calls).interesting.flipped :=
  have h : Flips (Viewport.new start goal ratio context limit settings)
      (Viewport.new start goal ratio' context limit settings) := ⟨rfl, rfl, rfl, rfl, rfl⟩
  (flips_runs h calls).interesting

end Fit

end CurveSurvey

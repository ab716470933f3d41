import CurveSurvey.Proofs.Machine
import CurveSurvey.Proofs.Viewport.Sides

/-!
# What each fit contributes

Every fit joins the interesting rectangle with a rectangle of its own, which
depends on the curves, the bounds, the settings, the context and the limit, and
on nothing that was gathered before.

* `Fit` is a call that extends the interesting rectangle, and `Fit.contribution`
  what it contributes.
* `Fit.run_eq` is the law for one call, and `Fit.runs_eq` the
  one for a list of calls.
* `Fit.bounding_box` gathers what follows: the order of the calls and their
  repetition do not matter, no axis shrinks, and all stays inside the limit.
-/

namespace CurveSurvey

/-! ## Rectangles -/

namespace Rect

variable {K : Type} [Scalar K]

/-- The smallest rectangle that holds two others. -/
def join (r s : Rect K) : Rect K := ⟨r.x.join s.x, r.y.join s.y⟩

/-- The rectangle that a point contributes. -/
def spot (p : Point K) (limit : K) : Rect K :=
  ⟨Interval.spot p.x limit, Interval.spot p.y limit⟩

/-- Both axes keep to `±limit`. -/
def Within (limit : K) (r : Rect K) : Prop :=
  Interval.Within limit r.x ∧ Interval.Within limit r.y

/-- No defined end of `r` is outside `s`. -/
def Covers (s r : Rect K) : Prop := s.x.Covers r.x ∧ s.y.Covers r.y

/-- The same rectangle numerically. -/
def Same (r s : Rect K) : Prop := r.x.Same s.x ∧ r.y.Same s.y

theorem foldl_join_x (l : List (Rect K)) (r : Rect K) :
    (l.foldl join r).x = (l.map Rect.x).foldl Interval.join r.x := by
  induction l generalizing r with
  | nil => rfl
  | cons s l ih => exact ih (r.join s)

theorem foldl_join_y (l : List (Rect K)) (r : Rect K) :
    (l.foldl join r).y = (l.map Rect.y).foldl Interval.join r.y := by
  induction l generalizing r with
  | nil => rfl
  | cons s l ih => exact ih (r.join s)

variable [OrderedScalar K]

theorem join_unset (r : Rect K) : r.join unset = r := by
  simp [join, unset, Interval.join_unset]

instance : Std.Associative (join (K := K)) where
  assoc r s t := by simp only [join, Interval.join_assoc]

theorem extend_eq_join (r : Rect K) (p : Point K) (limit : K) :
    r.extend p limit = r.join (spot p limit) := by
  simp only [extend, join, spot, Interval.extend_eq_join]

theorem within_unset (limit : K) : Within limit unset :=
  ⟨Interval.within_unset limit, Interval.within_unset limit⟩

theorem within_spot {limit : K} (h : -limit ≤ limit) (p : Point K) : Within limit (spot p limit) :=
  ⟨Interval.within_spot h p.x, Interval.within_spot h p.y⟩

theorem Within.join {limit : K} {r s : Rect K} (hr : Within limit r) (hs : Within limit s) :
    Within limit (r.join s) :=
  ⟨hr.1.join hs.1, hr.2.join hs.2⟩

theorem Within.foldl_join {limit : K} {l : List (Rect K)} (hl : ∀ s ∈ l, Within limit s)
    {r : Rect K} (hr : Within limit r) : Within limit (l.foldl Rect.join r) := by
  induction l generalizing r with
  | nil => exact hr
  | cons s l ih =>
    exact ih (fun t ht => hl t (List.mem_cons_of_mem _ ht)) (hr.join (hl s List.mem_cons_self))

theorem covers_join (r s : Rect K) : Covers (r.join s) r :=
  ⟨Interval.covers_join r.x s.x, Interval.covers_join r.y s.y⟩

theorem same_foldl_join {l l' : List (Rect K)} (h : ∀ s, s ∈ l ↔ s ∈ l') (r : Rect K) :
    Same (l.foldl join r) (l'.foldl join r) := by
  have hmap : ∀ (f : Rect K → Interval K) (i : Interval K), i ∈ l.map f ↔ i ∈ l'.map f := by
    intro f i
    simp [List.mem_map, h]
  constructor
  · rw [foldl_join_x, foldl_join_x]
    exact Interval.same_foldl_join (hmap Rect.x) r.x
  · rw [foldl_join_y, foldl_join_y]
    exact Interval.same_foldl_join (hmap Rect.y) r.y

end Rect

/-! ## Calls -/

/-- A call that extends the interesting rectangle. -/
inductive Fit (K : Type) where
  /-- Evenly spaced samples of a curve. -/
  | fullFunction (curve : Curve K)
  /-- The points of interest of a curve. -/
  | pointsOfInterest (curve : Curve K) (vertical : Bool)
  /-- The points of interest of a curve that is also given in a finer precision. -/
  | pointsOfInterestPrecise {P : Type} [Scalar P] [Widening K P] (curve : Curve K)
      (precise : Curve P) (vertical : Bool)
  /-- The points where two curves cross. -/
  | intersections (curve₁ curve₂ : Curve K) (vertical : Bool)

namespace Fit

open Viewport

variable {K : Type} [Precision K]

/-- The viewport after a call. -/
def run (v : Viewport K) : Fit K → Viewport K
  | fullFunction curve => v.fitFullFunction curve
  | pointsOfInterest curve vertical => v.fitPointsOfInterest curve vertical
  | pointsOfInterestPrecise curve precise vertical =>
    v.fitPointsOfInterestPrecise curve precise vertical
  | intersections curve₁ curve₂ vertical => v.fitIntersections curve₁ curve₂ vertical

/-- The viewport after a list of calls. -/
def runs (v : Viewport K) (calls : List (Fit K)) : Viewport K := calls.foldl run v

/-- A viewport that has not gathered anything. -/
def blank (bounds : Interval K) (settings : Viewport.Settings K) (context : Context) (limit : K) :
    Viewport K :=
  { bounds := bounds
    ratio := 1
    limit := limit
    context := context
    settings := settings
    interesting := Rect.unset
    magnitude := Rect.unset
    forced := Rect.unset }

/-- The rectangle that a call contributes: what it shows in a blank viewport. -/
def contribution (bounds : Interval K) (settings : Viewport.Settings K) (context : Context)
    (limit : K) (fit : Fit K) : Rect K :=
  (fit.run (blank bounds settings context limit)).interesting

/-- Whether the parameter of the searched curve is the ordinate. -/
def isVertical : Fit K → Bool
  | fullFunction _ => false
  | pointsOfInterest _ vertical => vertical
  | pointsOfInterestPrecise _ _ vertical => vertical
  | intersections _ _ vertical => vertical

end Fit

namespace Viewport

variable {K : Type} [Precision K]

/-- The asymptotes to show after a sweep for landmarks: on each side the candidate,
unless the side is endless. -/
def asymptotePoints (v : Viewport K) (w : Sweep K) : List (Point K) :=
  let start : Asymptotes K :=
    { center := v.bounds.center
      threshold := v.settings.asymptoteThreshold
      hysteresis := v.settings.asymptoteHysteresis }
  let right := v.rightSide w (Observer.listening noteSlope) start
  let left := v.leftSide w (Observer.listening noteSlope) right.2
  let cap := v.settings.maxPointsOnOneSide
  (if decide (cap ≤ left.1.length) then [] else [left.2.left.candidate]) ++
    (if decide (cap ≤ right.1.length) then [] else [left.2.right.candidate])

/-- All points that the search for landmarks makes visible. -/
def landmarkPoints (v : Viewport K) (curve : Curve K) (vertical : Bool) (isLossAt : K → Bool) :
    List (Point K) :=
  let w := v.landmarkSweep curve vertical isLossAt
  let start : Asymptotes K :=
    { center := v.bounds.center
      threshold := v.settings.asymptoteThreshold
      hysteresis := v.settings.asymptoteHysteresis }
  v.sweptPoints w (Observer.listening noteSlope) start ++ v.asymptotePoints w

theorem fitLandmarks_eq (v : Viewport K) (hv : v.settings.Reachable) (curve : Curve K)
    (vertical : Bool) (isLossAt : K → Bool) :
    v.fitLandmarks curve vertical isLossAt =
      v.fitPoints vertical (v.landmarkPoints curve vertical isLossAt) := by
  rw [fitLandmarks, sweep_eq v hv, landmarkPoints]
  dsimp only
  rw [fitPoints_append v vertical]
  rfl

end Viewport

namespace Fit

open Viewport

variable {K : Type} [Precision K]

/-- The points that a call makes visible. -/
def points (v : Viewport K) : Fit K → List (Point K)
  | fullFunction curve => (spaced v.bounds v.settings.sampleSize).map (curve v.context)
  | pointsOfInterest curve vertical => v.landmarkPoints curve vertical fun _ => false
  | pointsOfInterestPrecise curve precise vertical =>
    v.landmarkPoints curve vertical fun t =>
      Scalar.isFinite (searched vertical (precise v.context (Widening.widen t)))
  | intersections curve₁ curve₂ vertical =>
    v.sweptPoints (v.crossingSweep curve₁ curve₂ vertical) Observer.silent ()

/-- The points do not depend on what was gathered before. -/
theorem points_blank (v : Viewport K) (fit : Fit K) :
    fit.points (blank v.bounds v.settings v.context v.limit) = fit.points v := by
  cases fit <;> rfl

/-- A call makes a list of points visible. -/
theorem run_eq_fitPoints (v : Viewport K) (hv : v.settings.Reachable) (fit : Fit K) :
    fit.run v = v.fitPoints fit.isVertical (fit.points v) := by
  cases fit with
  | fullFunction curve => rfl
  | pointsOfInterest curve vertical => exact v.fitLandmarks_eq hv curve vertical _
  | pointsOfInterestPrecise curve precise vertical => exact v.fitLandmarks_eq hv curve vertical _
  | intersections curve₁ curve₂ vertical =>
    show (v.sweep (v.crossingSweep curve₁ curve₂ vertical) vertical Observer.silent ()).viewport = _
    rw [sweep_eq v hv]
    rfl

variable [OrderedScalar K]

/-- Fitting points joins the rectangle with what the points contribute. -/
theorem foldl_fitInto (limit : K) (vertical : Bool) (l : List (Point K)) (r : Rect K) :
    l.foldl (fitInto limit vertical) r =
      r.join (l.foldl (fitInto limit vertical) Rect.unset) := by
  have hjoin : ∀ s : Rect K, l.foldl (fitInto limit vertical) s =
      (l.map fun p => Rect.spot (if vertical then p.flipped else p).finitePart limit).foldl
        Rect.join s := by
    intro s
    rw [List.foldl_map]
    congr 1
    funext r p
    exact Rect.extend_eq_join _ _ _
  rw [hjoin, hjoin]
  conv_lhs => rw [← Rect.join_unset r]
  exact @List.foldl_assoc _ (Rect.join (K := K)) _ _ _ _

/-- A call joins the interesting rectangle with what it contributes, and changes
nothing else. -/
theorem run_eq (v : Viewport K) (hv : v.settings.Reachable) (fit : Fit K) :
    fit.run v =
      { v with
        interesting := v.interesting.join
          (fit.contribution v.bounds v.settings v.context v.limit) } := by
  rw [contribution, run_eq_fitPoints v hv,
    run_eq_fitPoints (blank v.bounds v.settings v.context v.limit) hv, points_blank, fitPoints,
    foldl_fitInto]
  rfl

/-- A list of calls joins the interesting rectangle with all that they contribute. -/
theorem runs_eq (v : Viewport K) (hv : v.settings.Reachable) (calls : List (Fit K)) :
    runs v calls =
      { v with
        interesting := (calls.map (contribution v.bounds v.settings v.context v.limit)).foldl
          Rect.join v.interesting } := by
  induction calls generalizing v with
  | nil => rfl
  | cons fit calls ih =>
    show runs (fit.run v) calls = _
    rw [run_eq v hv]
    exact ih { v with
      interesting := v.interesting.join
        (fit.contribution v.bounds v.settings v.context v.limit) } hv

theorem within_contribution {limit : K} (hlimit : -limit ≤ limit) (bounds : Interval K)
    {settings : Viewport.Settings K} (hs : settings.Reachable) (context : Context) (fit : Fit K) :
    Rect.Within limit (fit.contribution bounds settings context limit) := by
  rw [contribution, run_eq_fitPoints (blank bounds settings context limit) hs, fitPoints]
  generalize fit.points _ = l
  suffices h : ∀ r, Rect.Within limit r →
      Rect.Within limit (l.foldl (fitInto limit fit.isVertical) r) by
    exact h _ (Rect.within_unset limit)
  induction l with
  | nil => exact fun r hr => hr
  | cons p l ih =>
    intro r hr
    refine ih _ ?_
    rw [fitInto, Rect.extend_eq_join]
    exact hr.join (Rect.within_spot hlimit _)

end Fit

namespace Fit

variable {K : Type} [Precision K] [SignedScalar K]

/-- The interesting rectangle is the bounding box of independent contributions.  A
call joins it with a rectangle that does not depend on what was gathered before, and
changes nothing else; so the order of calls and repetitions do not matter, no axis
shrinks, and the defined ends stay in order inside the limit. -/
theorem bounding_box (v : Viewport K) (hsettings : v.settings.Reachable) (hlimit : 0 < v.limit) :
    (∀ fit : Fit K, fit.run v =
      { v with
        interesting := v.interesting.join
          (fit.contribution v.bounds v.settings v.context v.limit) }) ∧
    (∀ calls calls' : List (Fit K), (∀ fit, fit ∈ calls ↔ fit ∈ calls') →
      (runs v calls).interesting.Same (runs v calls').interesting) ∧
    (∀ fit : Fit K, (fit.run v).interesting.Covers v.interesting) ∧
    (v.interesting.Within v.limit →
      ∀ calls : List (Fit K), (runs v calls).interesting.Within v.limit) := by
  have hneg : -v.limit ≤ v.limit := by
    have h0 : (0 : K) ≤ v.limit := Scalar.le_of_lt hlimit
    exact OrderedScalar.trans (SignedScalar.neg_le_neg h0)
      (OrderedScalar.trans SignedScalar.neg_zero_le h0)
  refine ⟨?_, ?_, ?_, ?_⟩
  · intro fit
    exact run_eq v hsettings fit
  · intro calls calls' h
    rw [runs_eq v hsettings, runs_eq v hsettings]
    refine Rect.same_foldl_join ?_ v.interesting
    intro s
    simp [List.mem_map, h]
  · intro fit
    rw [run_eq v hsettings]
    exact Rect.covers_join _ _
  · intro hv calls
    rw [runs_eq v hsettings]
    refine Rect.Within.foldl_join ?_ hv
    intro s hs
    obtain ⟨fit, -, rfl⟩ := List.mem_map.1 hs
    exact within_contribution hneg v.bounds hsettings v.context fit

/-- A line and its reflection may be fitted in either order, and the line twice. -/
theorem same_line_and_reflection :
    let v : Viewport Float32 := Viewport.new (-1) 1 1 {} 100
    let line := Fit.fullFunction fun _ (t : Float32) => ⟨t, t⟩
    let reflection := Fit.fullFunction fun _ (t : Float32) => ⟨t, -t⟩
    (0 : Float32) < v.limit ∧
      (runs v [line, reflection]).interesting.Same (runs v [reflection, line, line]).interesting ∧
      (runs v [line, reflection]).interesting.Within v.limit := by
  intro v line reflection
  have hlimit : 0 < v.limit := by decide +kernel
  obtain ⟨-, hsame, -, hwithin⟩ := bounding_box v .standard hlimit
  refine ⟨hlimit, hsame _ _ fun fit => ?_, hwithin (Rect.within_unset _) _⟩
  simp [or_comm]

end Fit

end CurveSurvey

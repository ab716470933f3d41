import CurveSurvey.Proofs.Roots
import CurveSurvey.Proofs.Viewport.Contributions
import CurveSurvey.Proofs.Viewport.Starts
import Mathlib.Logic.Function.Iterate

/-!
# The point cap of a sweep

One side of a sweep takes one solution after another until it is over or reaches the
point cap.  Here the searches are iterated without any cap, and what the side shows is
read off the sequence.

* `Sweep.after` is where the side stands after a number of searches, `Sweep.IsOver` says
  when a search ends it, and `Sweep.yielded` lists the points of the first searches.
* `Sweep.side_add` takes the first searches off a side, so a side below the cap lists all
  solutions (`Sweep.side_of_endsAfter`), and one that reaches it the first ones
  (`Sweep.side_of_yields`).
* `Viewport.shows_up_to_cap` is the law: a side with fewer solutions than the cap shows all
  of them, any other one exactly the first few, whatever the snapshot was before.  The
  candidate for an asymptote is shown on the sides of the first kind.
-/

namespace CurveSurvey

namespace Sweep

variable {K S : Type} [Precision K]

/-! ## The sequence of searches -/

/-- Where one side stands after the next search: the cursor and the state of the
observer. -/
def next (w : Sweep K) (solver : Solver K) (observe : Observer K S) (now : Cursor K × S) :
    Cursor K × S :=
  solver.nextObserved now.1 w.f w.test w.refinement observe now.2

/-- Where one side stands after a number of searches. -/
def after (w : Sweep K) (solver : Solver K) (observe : Observer K S) (start : Cursor K × S)
    (n : Nat) : Cursor K × S :=
  (w.next solver observe)^[n] start

/-- A side is over: nothing was found, or a border of the undefined region at which the
finer precision has a value. -/
def IsOver (w : Sweep K) (c : Cursor K) : Prop :=
  c.isExhausted = true ∨
    c.interest = .discontinuity ∧ Scalar.isNaN c.solution.y = true ∧
      w.isLossAt c.solution.x = true

/-- Each of the first `n` searches yields a solution. -/
def Yields (w : Sweep K) (solver : Solver K) (observe : Observer K S) (start : Cursor K × S)
    (n : Nat) : Prop :=
  ∀ m < n, ¬ w.IsOver (w.after solver observe start (m + 1)).1

/-- There are exactly `n` solutions. -/
def EndsAfter (w : Sweep K) (solver : Solver K) (observe : Observer K S) (start : Cursor K × S)
    (n : Nat) : Prop :=
  w.Yields solver observe start n ∧ w.IsOver (w.after solver observe start (n + 1)).1

/-- The points to show for the first `n` solutions. -/
def yielded (w : Sweep K) (solver : Solver K) (observe : Observer K S) (start : Cursor K × S)
    (n : Nat) : List (Point K) :=
  (List.range n).map fun m => w.shown (w.after solver observe start (m + 1)).1.solution

variable {w : Sweep K} {solver : Solver K} {observe : Observer K S} {start : Cursor K × S}
  {n cap : Nat}

theorem after_succ : w.after solver observe start (n + 1) =
    w.after solver observe (w.next solver observe start) n := rfl

theorem isOver_iff {c : Cursor K} : w.IsOver c ↔ (c.isExhausted || w.endsAt c) = true := by
  simp [IsOver, endsAt, and_assoc]

theorem yields_succ_iff : w.Yields solver observe start (n + 1) ↔
    ¬ w.IsOver (w.next solver observe start).1 ∧
      w.Yields solver observe (w.next solver observe start) n :=
  Nat.forall_lt_succ_left

theorem yielded_succ : w.yielded solver observe start (n + 1) =
    w.shown (w.next solver observe start).1.solution ::
      w.yielded solver observe (w.next solver observe start) n := by
  simp only [yielded, List.range_succ_eq_map, List.map_cons, List.map_map]
  rfl

@[simp] theorem length_yielded : (w.yielded solver observe start n).length = n := by
  simp [yielded]

theorem take_yielded {k : Nat} (h : k ≤ n) :
    (w.yielded solver observe start n).take k = w.yielded solver observe start k := by
  simp [yielded, ← List.map_take, List.take_range, h]

/-- A side has as many solutions as the cap, or ends before. -/
theorem yields_or_endsAfter (w : Sweep K) (solver : Solver K) (observe : Observer K S)
    (start : Cursor K × S) (cap : Nat) :
    w.Yields solver observe start cap ∨ ∃ n < cap, w.EndsAfter solver observe start n := by
  induction cap with
  | zero => exact .inl fun m hm => absurd hm (Nat.not_lt_zero m)
  | succ cap ih =>
    rcases ih with hyields | ⟨n, hn, hends⟩
    · by_cases hover : w.IsOver (w.after solver observe start (cap + 1)).1
      · exact .inr ⟨cap, Nat.lt_succ_self cap, hyields, hover⟩
      · refine .inl fun m hm => ?_
        rcases Nat.lt_succ_iff_lt_or_eq.1 hm with hm | rfl
        · exact hyields m hm
        · exact hover
    · exact .inr ⟨n, Nat.lt_succ_of_lt hn, hends⟩

/-! ## What a side lists -/

theorem side_succ : w.side solver observe (cap + 1) start.1 start.2 =
    let now := w.next solver observe start
    if now.1.isExhausted || w.endsAt now.1 then ([], now.2)
    else
      let rest := w.side solver observe cap now.1 now.2
      (w.shown now.1.solution :: rest.1, rest.2) := rfl

/-- The first solutions of a side are listed before the rest. -/
theorem side_add (h : w.Yields solver observe start n) (left : Nat) :
    w.side solver observe (n + left) start.1 start.2 =
      let now := w.after solver observe start n
      let rest := w.side solver observe left now.1 now.2
      (w.yielded solver observe start n ++ rest.1, rest.2) := by
  induction n generalizing start with
  | zero => simp [after, yielded]
  | succ n ih =>
    obtain ⟨hnot, hyields⟩ := yields_succ_iff.1 h
    rw [Nat.succ_add, side_succ, yielded_succ, after_succ]
    dsimp only
    rw [if_neg (mt isOver_iff.2 hnot), ih hyields]
    rfl

/-- A side that reaches the cap lists the first solutions. -/
theorem side_of_yields (h : w.Yields solver observe start cap) :
    w.side solver observe cap start.1 start.2 =
      (w.yielded solver observe start cap, (w.after solver observe start cap).2) := by
  have hside := side_add h 0
  rw [Nat.add_zero] at hside
  simpa only [side, List.append_nil] using hside

/-- A side that ends below the cap lists all solutions. -/
theorem side_of_endsAfter (h : w.EndsAfter solver observe start n) (hn : n < cap) :
    w.side solver observe cap start.1 start.2 =
      (w.yielded solver observe start n, (w.after solver observe start (n + 1)).2) := by
  obtain ⟨left, rfl⟩ : ∃ left, cap = n + (left + 1) := ⟨cap - (n + 1), by omega⟩
  have hlast : w.after solver observe start (n + 1) =
      w.next solver observe (w.after solver observe start n) :=
    Function.iterate_succ_apply' _ n start
  have hover := isOver_iff.1 h.2
  rw [hlast] at hover ⊢
  rw [side_add h.1]
  dsimp only
  rw [side_succ, if_pos hover, List.append_nil]

/-- Where the cap is above the number of points to show, the snapshot that a side begins with
does not matter. -/
theorem fitSide_snapshot (w : Sweep K) (solver : Solver K) (observe : Observer K S)
    (fit : Rect K → Point K → Rect K) {snapshotAt left : Nat} (h : snapshotAt < left)
    (c : Cursor K) (state : S) (snapshot snapshot' r : Rect K) :
    w.fitSide solver observe fit snapshotAt left c state snapshot r =
      w.fitSide solver observe fit snapshotAt left c state snapshot' r := by
  simp only [fitSide_eq, if_neg (Nat.not_le_of_lt h)]

end Sweep

namespace Viewport

variable {K : Type} [Precision K]

/-- The asymptotes before a sweep. -/
def initialAsymptotes (v : Viewport K) : Asymptotes K :=
  { center := v.bounds.center
    threshold := v.settings.asymptoteThreshold
    hysteresis := v.settings.asymptoteHysteresis }

/-- One side of a sweep shows all its solutions if there are fewer than the cap, and then it is
not endless.  Otherwise it is endless and shows exactly the first few of them, and the snapshot
it goes back to is one of its own.  A search for landmarks shows the candidate for an asymptote
on the sides that are not endless. -/
theorem shows_up_to_cap (v : Viewport K) (hv : v.settings.Reachable) :
    (∀ {S : Type} (w : Sweep K) (vertical : Bool) (observe : Observer K S) (c : Cursor K)
        (state : S) (r : Rect K),
      let solver := Solver.standard v.context
      let cap := v.settings.maxPointsOnOneSide
      let few := v.settings.maxPointsIfInfinite
      let side := v.fitSide w vertical observe c state r
      let fitted (n : Nat) :=
        (w.yielded solver observe (c, state) n).foldl (fitInto v.limit vertical) r
      (w.Yields solver observe (c, state) cap ∨
          ∃ n < cap, w.EndsAfter solver observe (c, state) n) ∧
        (∀ n < cap, w.EndsAfter solver observe (c, state) n →
          side.rect = fitted n ∧ side.isEndless = false) ∧
        (w.Yields solver observe (c, state) cap →
          side.rect = fitted few ∧ side.isEndless = true) ∧
        ∀ snapshot, w.fitSide solver observe (fitInto v.limit vertical) (cap - few) cap c state
          snapshot r = side) ∧
      ∀ (curve : Curve K) (vertical : Bool),
        let shown (isLossAt : K → Bool) : Viewport K :=
          let w := v.landmarkSweep curve vertical isLossAt
          let observe := Observer.listening noteSlope
          let right := v.fitSide w vertical observe v.rightCursor v.initialAsymptotes v.interesting
          let left := v.fitSide w vertical observe v.leftCursor right.state right.rect
          { v with interesting := left.rect }.fitPoints vertical
            ((v.centralPoint? w).toList ++
              (if left.isEndless = false then [left.state.left.candidate] else []) ++
              if right.isEndless = false then [left.state.right.candidate] else [])
        v.fitPointsOfInterest curve vertical = shown (fun _ => false) ∧
          ∀ {P : Type} [Scalar P] [Widening K P] (precise : Curve P),
            v.fitPointsOfInterestPrecise curve precise vertical =
              shown fun t => Scalar.isFinite
                (searched vertical (precise v.context (Widening.widen t))) := by
  obtain ⟨hfew, hlt⟩ := hv.caps
  refine ⟨?_, ?_⟩
  · intro S w vertical observe c state r solver cap few side fitted
    refine ⟨w.yields_or_endsAfter solver observe (c, state) cap, ?_, ?_, ?_⟩
    · intro n hn hends
      have hside : w.side solver observe cap c state = _ := Sweep.side_of_endsAfter hends hn
      have hnot : ¬ cap ≤ n := Nat.not_le_of_lt hn
      simp only [side, fitted, fitSide_eq v hv]
      rw [hside]
      simp [Sweep.kept, cap, hnot]
    · intro hyields
      have hside : w.side solver observe cap c state = _ := Sweep.side_of_yields hyields
      simp only [side, fitted, fitSide_eq v hv]
      rw [hside]
      simp [Sweep.kept, cap, few, Sweep.take_yielded hlt.le]
    · intro snapshot
      exact w.fitSide_snapshot solver observe _ (by omega) c state snapshot Rect.unset r
  · intro curve vertical shown
    have hflag : ∀ (b : Bool) (l : List (Point K)),
        (if b = true then [] else l) = if b = false then l else [] := by
      intro b l
      cases b <;> rfl
    have hshown : ∀ isLossAt, v.fitLandmarks curve vertical isLossAt = shown isLossAt := by
      intro isLossAt
      simp only [shown]
      rw [List.append_assoc, fitPoints_append, ← hflag, ← hflag]
      rfl
    exact ⟨hshown _, fun precise => hshown _⟩

/-! ## The borders of a gap -/

/-- A function with a gap. -/
def gap : Evaluator Float32 :=
  fun _ t => if t < 1.5e-5 then 0 else if t < 3.5e-5 then Scalar.nan else 0

/-- A sweep for the borders of the gap, which may be there for lack of precision only. -/
def gapSweep (isLoss : Bool) : Sweep Float32 where
  f := gap
  test := .discontinuity
  refinement := .farEndpoint
  isLossAt := fun _ => isLoss
  shown := fun p => p

/-- A cursor before the gap. -/
def beforeGap : Cursor Float32 := .new 0 1e-4

/-- The cursor at the border where the gap begins. -/
def insideGap : Cursor Float32 := beforeGap.found ⟨2e-5, Scalar.nan⟩ .discontinuity

/-- A viewport to which two points are endless, and that shows one of them. -/
def twoCapped : Viewport Float32 :=
  .new (-1) 1 1 {} 100
    { Settings.standard with maxPointsOnOneSide := 2, maxPointsIfInfinite := 1 }

theorem reachable_twoCapped : twoCapped.settings.Reachable := by
  have h : (Settings.standard : Settings Float32).withPointCaps 2 1 = .ok twoCapped.settings := rfl
  exact .withPointCaps .standard h

/-- No step across the gap is larger than the least one. -/
theorem nextX_gap {c : Cursor Float32} (hgoal : c.goal = 1e-4) (hstep : c.maximalStep = 1e-5) :
    c.nextX 0 c.goal = 1e-5 ∧ c.nextX 1e-5 c.goal = 2e-5 ∧ c.nextX 2e-5 c.goal = 3e-5 ∧
      c.nextX 3e-5 c.goal = 4e-5 := by
  have hnext : ∀ x : Float32, (1e-5 : Float32) ≤ Precision.minimalStep x →
      c.nextX x c.goal = x + (if x < 1e-4 then 1 else -1) * Precision.minimalStep x := by
    intro x hx
    rw [Cursor.nextX_of_maximalStep_le (hstep ▸ hx), hgoal]
  refine ⟨?_, ?_, ?_, ?_⟩
  all_goals
    rw [hnext _ (by decide +kernel)]
    decide +kernel

/-- The search for a border of the gap. -/
def gapScan (c : Cursor Float32) : Scan Float32 :=
  (Solver.standard {}).scan c gap .discontinuity .farEndpoint

/-- The search before the gap comes to the border where it begins. -/
theorem run_beforeGap : ((gapScan beforeGap).run Observer.silent ()).1 = insideGap := by
  let s := gapScan beforeGap
  have hstep : beforeGap.maximalStep = 1e-5 := by decide +kernel
  obtain ⟨hy, hz, -, -⟩ := nextX_gap (c := beforeGap) rfl hstep
  have hb := s.classify_of_interest (b := ⟨s.sample 0, s.sample 1e-5, s.sample 2e-5⟩)
    (i := .discontinuity) (by decide +kernel) rfl
  rw [s.run_of_first_steps rfl (by decide) rfl hy hz (by decide +kernel) hb rfl
    (by decide +kernel)]
  rcases s.snapped_cases (s.sample 2e-5) .discontinuity with heq | ⟨heq, -, hbetter⟩
  · exact congrArg (beforeGap.found · .discontinuity) heq
  · -- nothing equals the undefined ordinate
    have hnan : Scalar.isNaN (s.sample 2e-5).y = true := by decide +kernel
    have hsame := hbetter.resolve_left (by simp [Scan.improves])
    rw [(Machine.beq_iff_val.1 hsame).2.1] at hnan
    cases hnan

theorem solution_insideGap : insideGap.solution = ⟨2e-5, Scalar.nan⟩ := by
  have hnull : ¬ Precision.isNull (2e-5 : Float32) Scalar.nan = true := by decide +kernel
  show Point.mk (2e-5 : Float32)
    (if Precision.isNull (2e-5 : Float32) Scalar.nan then 0 else Scalar.nan) = _
  rw [if_neg hnull]

/-- The search inside the gap comes to the border where it ends. -/
theorem run_insideGap : ∃ q : Point Float32,
    ((gapScan insideGap).run Observer.silent ()).1 = insideGap.found q .discontinuity := by
  let s := gapScan insideGap
  have hstep : insideGap.maximalStep = 1e-5 := by decide +kernel
  obtain ⟨-, -, hy, hz⟩ := nextX_gap (c := insideGap) rfl hstep
  have hb := s.classify_of_interest (b := ⟨s.sample 2e-5, s.sample 3e-5, s.sample 4e-5⟩)
    (i := .discontinuity) (by decide +kernel) rfl
  exact ⟨_, s.run_of_first_steps rfl (by decide) rfl hy hz (by decide +kernel) hb rfl
    (by decide +kernel)⟩

/-- Where the gap is real, both of its borders are found and only the first of them is shown.
Where it is there for lack of precision, the side is over before it shows anything. -/
theorem gap_shown_up_to_cap :
    twoCapped.settings.Reachable ∧
      let start := (beforeGap, ())
      let solver := Solver.standard twoCapped.context
      let side (isLoss : Bool) : Side Float32 Unit :=
        twoCapped.fitSide (gapSweep isLoss) false Observer.silent beforeGap () Rect.unset
      ((gapSweep false).Yields solver Observer.silent start 2 ∧
          (side false).rect = fitInto 100 false Rect.unset ⟨2e-5, Scalar.nan⟩ ∧
          (side false).isEndless = true) ∧
        (gapSweep true).EndsAfter solver Observer.silent start 0 ∧
          (side true).rect = Rect.unset ∧ (side true).isEndless = false := by
  refine ⟨reachable_twoCapped, ?_⟩
  intro start solver side
  obtain ⟨hsides, -⟩ := shows_up_to_cap twoCapped reachable_twoCapped
  have hfirst : ∀ isLoss : Bool,
      (gapSweep isLoss).next solver Observer.silent start = (insideGap, ()) :=
    fun isLoss => Prod.ext run_beforeGap rfl
  have hyields : (gapSweep false).Yields solver Observer.silent start 2 := by
    obtain ⟨q, hq⟩ := run_insideGap
    have hsecond : (gapSweep false).next solver Observer.silent (insideGap, ()) =
        (insideGap.found q .discontinuity, ()) := Prod.ext hq rfl
    rw [Sweep.yields_succ_iff, hfirst, Sweep.yields_succ_iff, hsecond]
    refine ⟨?_, ?_, fun m hm => absurd hm (Nat.not_lt_zero m)⟩
    · simp [Sweep.IsOver, insideGap, gapSweep]
    · simp [Sweep.IsOver, gapSweep]
  have hends : (gapSweep true).EndsAfter solver Observer.silent start 0 := by
    refine ⟨fun m hm => absurd hm (Nat.not_lt_zero m), .inr ?_⟩
    rw [Sweep.after_succ, hfirst]
    exact ⟨rfl, by decide +kernel, rfl⟩
  refine ⟨⟨hyields, ?_⟩, hends, ?_⟩
  · obtain ⟨-, -, hcapped, -⟩ :=
      hsides (gapSweep false) false Observer.silent beforeGap () Rect.unset
    obtain ⟨hrect, hendless⟩ := hcapped hyields
    refine ⟨?_, hendless⟩
    have hfew : (gapSweep false).yielded solver Observer.silent start 1 =
        [⟨2e-5, Scalar.nan⟩] := by
      rw [Sweep.yielded_succ, hfirst, ← solution_insideGap]
      rfl
    rw [hrect]
    exact congrArg (List.foldl (fitInto 100 false) Rect.unset) hfew
  · obtain ⟨-, hended, -, -⟩ := hsides (gapSweep true) false Observer.silent beforeGap () Rect.unset
    exact hended 0 (by decide) hends

end Viewport

end CurveSurvey

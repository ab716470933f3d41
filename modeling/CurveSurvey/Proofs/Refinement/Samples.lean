import CurveSurvey.Proofs.Order
import CurveSurvey.Proofs.Refinement

/-!
# The samples of a search for a minimum

The search remembers three samples, and returns the best of them.  Here all of its
samples are kept, and it is compared with them.

* `Descent.samples` lists them, the one at the golden section of the bracket first.
  They lie on the graph (`Descent.y_of_mem_samples`), and the search looks at the
  function nowhere else (`Descent.minimum_eq_of_samples`).
* `Descent.Leads` says that one sample is defined and that no defined sample lies
  below it.
* `Descent.leads_minimum`: the minimum leads its samples, provided that the first of them is
  defined.  An undefined best sample is never replaced (`Descent.minimum_of_undefined`).
* `Descent.minimum_noWorse_iff` is the result.  `Descent.minimum_in_hole` is a search that starts
  where the function is undefined and passes over all the numbers it finds.
-/

namespace CurveSurvey

namespace Descent

variable {K : Type} [Precision K]

/-! ## One step -/

/-- Where a search between `a` and `b` starts. -/
def goldenSection (a b : K) : K :=
  let (lower, upper) := if a ≤ b then (a, b) else (b, a)
  lower + goldenFraction * (upper - lower)

/-- The state in which the next sample is taken in. -/
def moved (precision : K) (s : Descent K) : Descent K :=
  let (move, lastMove) := s.nextMove (s.accuracy precision)
  { s with move := move, lastMove := lastMove }

/-- The sample that the next step takes. -/
def probe (f : K → K) (precision : K) (s : Descent K) : Point K :=
  Point.sample f (s.target (s.accuracy precision) (s.nextMove (s.accuracy precision)).1)

/-- The interval is as short around the best sample as it was asked to be. -/
def isSettled (precision : K) (s : Descent K) : Bool :=
  decide (Scalar.abs (s.best.x - s.middle) ≤ 2 * s.accuracy precision - 0.5 * (s.upper - s.lower))

theorem start_best (f : K → K) (a b : K) :
    (start f a b).best = Point.sample f (goldenSection a b) := rfl

@[simp] theorem moved_best (precision : K) (s : Descent K) : (s.moved precision).best = s.best :=
  rfl

/-- A step looks at the function at its probe only. -/
theorem step_eq (f : K → K) (precision : K) (s : Descent K) :
    step f precision s =
      if s.isSettled precision then .stop s
      else .next ((s.moved precision).place (s.probe f precision)) := by
  simp only [step, isSettled, decide_eq_true_eq]
  rfl

/-- A new sample becomes the best one unless it lies above, or cannot be compared. -/
theorem place_best (s : Descent K) (u : Point K) :
    (s.place u).best = if u.y ≤ s.best.y then u else s.best := by
  unfold place
  split
  · rfl
  · dsimp only
    split <;> split <;> try split
    all_goals rfl

/-! ## All steps -/

/-- The samples that a number of steps take. -/
def samplesFrom (f : K → K) (precision : K) : Nat → Descent K → List (Point K)
  | 0, _ => []
  | n + 1, s =>
    match step f precision s with
    | .stop _ => []
    | .next t => s.probe f precision :: samplesFrom f precision n t

/-- The samples of a search between `a` and `b`. -/
def samples (f : K → K) (a b : K) (tolerance : Tolerance K) : List (Point K) :=
  Point.sample f (goldenSection a b) ::
    samplesFrom f tolerance.precision tolerance.maxIterations (start f a b)

theorem y_of_mem_samplesFrom {f : K → K} {precision : K} {n : Nat} {s : Descent K} {p : Point K}
    (hp : p ∈ samplesFrom f precision n s) : p.y = f p.x := by
  induction n generalizing s with
  | zero => cases hp
  | succ n ih =>
    rw [samplesFrom] at hp
    split at hp
    · cases hp
    · rcases List.mem_cons.1 hp with rfl | hp
      · rfl
      · exact ih hp

/-- The samples lie on the graph. -/
theorem y_of_mem_samples {f : K → K} {a b : K} {tolerance : Tolerance K} {p : Point K}
    (hp : p ∈ samples f a b tolerance) : p.y = f p.x := by
  rcases List.mem_cons.1 hp with rfl | hp
  · rfl
  · exact y_of_mem_samplesFrom hp

theorem iterate_eq_of_samplesFrom {f g : K → K} {precision : K} {n : Nat} {s : Descent K}
    (h : ∀ p ∈ samplesFrom f precision n s, g p.x = p.y) :
    Step.iterate (step g precision) n s = Step.iterate (step f precision) n s := by
  induction n generalizing s with
  | zero => rfl
  | succ n ih =>
    rw [samplesFrom] at h
    rw [Step.iterate_succ, Step.iterate_succ]
    rw [step_eq] at h ⊢
    rw [step_eq]
    cases hsettled : s.isSettled precision with
    | true => rfl
    | false =>
      simp only [hsettled, Bool.false_eq_true, if_false] at h ⊢
      have hprobe : s.probe g precision = s.probe f precision := by
        have hy : g (s.probe f precision).x = (s.probe f precision).y := h _ List.mem_cons_self
        exact congrArg (Point.mk _) hy
      rw [hprobe]
      exact ih fun p hp => h p (List.mem_cons_of_mem _ hp)

/-- A function with the same samples has the same minimum. -/
theorem minimum_eq_of_samples {f g : K → K} {a b : K} {tolerance : Tolerance K}
    (h : ∀ p ∈ samples f a b tolerance, g p.x = p.y) :
    minimum g a b tolerance = minimum f a b tolerance := by
  have hfirst : g (goldenSection a b) = f (goldenSection a b) := h _ List.mem_cons_self
  have hstart : start g a b = start f a b := by
    have hsample : Point.sample g (goldenSection a b) = Point.sample f (goldenSection a b) :=
      congrArg (Point.mk _) hfirst
    exact congrArg (fun p => { start f a b with best := p, second := p, third := p }) hsample
  rw [minimum, minimum, hstart,
    iterate_eq_of_samplesFrom fun p hp => h p (List.mem_cons_of_mem _ hp)]

/-! ## The best of them -/

/-- A defined point of a list, with no defined point of the list below it. -/
structure Leads (p : Point K) (l : List (Point K)) : Prop where
  /-- The point is one of them. -/
  mem : p ∈ l
  /-- It is defined. -/
  defined : Scalar.isNaN p.y = false
  /-- It is not above any that is. -/
  le : ∀ q ∈ l, Scalar.isNaN q.y = false → p.y ≤ q.y

variable [OrderedScalar K]

theorem leads_singleton {p : Point K} (hp : Scalar.isNaN p.y = false) : Leads p [p] := by
  refine ⟨List.mem_singleton_self p, hp, ?_⟩
  rintro q hq -
  obtain rfl := List.mem_singleton.1 hq
  exact Scalar.le_refl_of_defined hp

/-- The leader of some points can stand for all of them. -/
theorem Leads.append {p q : Point K} {l m : List (Point K)} (hq : Leads q l)
    (hp : Leads p (q :: m)) : Leads p (l ++ m) := by
  refine ⟨?_, hp.defined, fun r hr hdef => ?_⟩
  · rcases List.mem_cons.1 hp.mem with rfl | hmem
    · exact List.mem_append_left m hq.mem
    · exact List.mem_append_right l hmem
  · rcases List.mem_append.1 hr with hr | hr
    · exact OrderedScalar.trans (hp.le q List.mem_cons_self hq.defined) (hq.le r hr hdef)
    · exact hp.le r (List.mem_cons_of_mem q hr) hdef

/-- A defined best sample and a new one are led by the one that is kept. -/
theorem leads_place {s : Descent K} (hs : Scalar.isNaN s.best.y = false) (u : Point K) :
    Leads (s.place u).best [s.best, u] := by
  rw [place_best]
  split
  · rename_i hle
    refine ⟨by simp, (OrderedScalar.defined_of_le hle).1, ?_⟩
    simp only [List.mem_cons, List.not_mem_nil, or_false]
    rintro q (rfl | rfl) hdef
    · exact hle
    · exact Scalar.le_refl_of_defined hdef
  · rename_i hnot
    refine ⟨by simp, hs, ?_⟩
    simp only [List.mem_cons, List.not_mem_nil, or_false]
    rintro q (rfl | rfl) hdef
    · exact Scalar.le_refl_of_defined hdef
    · exact Scalar.le_of_lt (Scalar.lt_of_not_le hs hdef hnot)

/-- The loop ends on the best of the sample it starts with and those it takes. -/
theorem leads_iterate (f : K → K) (precision : K) (n : Nat) {s : Descent K}
    (hs : Scalar.isNaN s.best.y = false) :
    Leads (Step.iterate (step f precision) n s).best (s.best :: samplesFrom f precision n s) := by
  induction n generalizing s with
  | zero => exact leads_singleton hs
  | succ n ih =>
    rw [Step.iterate_succ, samplesFrom, step_eq]
    cases s.isSettled precision with
    | true => exact leads_singleton hs
    | false =>
      have hkept := leads_place (s := s.moved precision) hs (s.probe f precision)
      exact hkept.append (ih hkept.defined)

/-- The minimum is the best sample of its search, if the first one is defined. -/
theorem leads_minimum (f : K → K) (a b : K) (tolerance : Tolerance K)
    (hstart : Scalar.isNaN (f (goldenSection a b)) = false) :
    Leads (minimum f a b tolerance) (samples f a b tolerance) :=
  leads_iterate f tolerance.precision tolerance.maxIterations (s := start f a b) hstart

/-! ## An undefined start -/

/-- A point is no worse than any of a list, an undefined one being worse than any number. -/
def NoWorse (p : Point K) (l : List (Point K)) : Prop :=
  ∀ q ∈ l, Scalar.isNaN q.y = false → p.y ≤ q.y

/-- Nothing compares with an undefined best sample, so that it stays the best. -/
theorem minimum_of_undefined (f : K → K) (a b : K) (tolerance : Tolerance K)
    (hstart : Scalar.isNaN (f (goldenSection a b)) = true) :
    minimum f a b tolerance = Point.sample f (goldenSection a b) := by
  refine Step.iterate_invariant
    (P := fun s : Descent K => s.best = Point.sample f (goldenSection a b)) ?_
    tolerance.maxIterations (start_best f a b)
  intro s hs
  rw [step_eq]
  split
  · exact hs
  · have hnot : ¬ (s.probe f tolerance.precision).y ≤ s.best.y := by
      intro hle
      have hdef := (OrderedScalar.defined_of_le hle).2
      rw [hs, Point.sample_y, hstart] at hdef
      cases hdef
    simp only [Step.state, place_best, moved_best, hnot, if_false]
    exact hs

/-- The minimum is a sample.  It is no worse than any other exactly when the first sample is
defined, or none is: an undefined first sample is returned whatever else is found. -/
theorem minimum_noWorse_iff (f : K → K) (a b : K) (tolerance : Tolerance K) :
    let p := minimum f a b tolerance
    let l := samples f a b tolerance
    p ∈ l ∧ p.y = f p.x ∧
      (NoWorse p l ↔ Scalar.isNaN (f (goldenSection a b)) = false ∨
        ∀ q ∈ l, Scalar.isNaN q.y = true) ∧
      (Scalar.isNaN (f (goldenSection a b)) = true → p = Point.sample f (goldenSection a b)) := by
  intro p l
  cases hstart : Scalar.isNaN (f (goldenSection a b)) with
  | false =>
    have hleads : Leads p l := leads_minimum f a b tolerance hstart
    exact ⟨hleads.mem, minimum_y f a b tolerance, iff_of_true hleads.le (.inl rfl), nofun⟩
  | true =>
    have hp : p = Point.sample f (goldenSection a b) := minimum_of_undefined f a b tolerance hstart
    refine ⟨hp ▸ List.mem_cons_self, minimum_y f a b tolerance, ?_, fun _ => hp⟩
    constructor
    · intro h
      refine .inr fun q hq => ?_
      by_contra hdef
      -- a number would have to be no better than the undefined result
      have hle := h q hq (Bool.eq_false_iff.2 hdef)
      have hresult := (OrderedScalar.defined_of_le hle).1
      rw [hp, Point.sample_y, hstart] at hresult
      cases hresult
    · rintro (h | h)
      · cases h
      · intro q hq hdef
        rw [h q hq] at hdef
        cases hdef

/-- The samples of a parabola are all numbers. -/
theorem minimum_noWorse_parabola :
    let f := fun x : Float => (x - 0.3) * (x - 0.3)
    Scalar.isNaN (f (goldenSection 2 (-1))) = false ∧
      NoWorse (minimum f 2 (-1) ⟨1e-10, 100⟩) (samples f 2 (-1) ⟨1e-10, 100⟩) := by
  intro f
  have hstart : Scalar.isNaN (f (goldenSection 2 (-1))) = false := by decide +kernel
  exact ⟨hstart, (minimum_noWorse_iff f 2 (-1) ⟨1e-10, 100⟩).2.2.1.2 (.inl hstart)⟩

/-- The distance from 1.013, with a hole in which the golden section of 1 and 1.02 lies. -/
def holed (x : Float) : Float := (x - 1.013).abs + 0 * ((x - 1.007) * (x - 1.008)).sqrt

/-- A search that starts in the hole finds numbers, and returns what it started with. -/
theorem minimum_in_hole :
    Scalar.isNaN (minimum holed 1 1.02 ⟨1e-10, 100⟩).y = true ∧
      (samples holed 1 1.02 ⟨1e-10, 100⟩).any (fun q => !Scalar.isNaN q.y) = true := by
  constructor <;> decide +kernel

end Descent

end CurveSurvey

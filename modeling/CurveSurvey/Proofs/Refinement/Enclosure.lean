import CurveSurvey.Proofs.Refinement.Orientation
import Mathlib.Order.Interval.Set.UnorderedInterval

/-!
# What a search for a sign change encloses

Brent's search samples between its estimate and the counterpart only, so that the interval
between these two shrinks.  That is a statement about exact numbers: where numbers are rounded,
the width of a very wide bracket may overflow.

* `SignChange.exists_share`: an interpolated move that passes its test does not lead past the
  counterpart, because the test fails on everything undefined.
* `SignChange.Keeps` is the invariant of the search.  Without a precision the next abscissa is
  undefined, so that an abscissa is between the ends, or there is no precision.
* `SignChange.enclosures` are the intervals that a search goes through
  (`SignChange.pairwise_enclosuresFrom`).
* `SignChange.Solves` is what any arithmetic guarantees of a point that was found, and
  `SignChange.find_sound` puts both together.
-/

namespace CurveSurvey

namespace Exact

/-! ## Segments -/

/-- The numbers from one end to the other, in either order; none if an end is undefined. -/
def segment : Exact → Exact → Set ℝ
  | real x, real y => Set.uIcc x y
  | _, _ => ∅

theorem segment_comm (s t : Exact) : segment s t = segment t s := by
  cases s with
  | undefined => cases t <;> rfl
  | real x =>
    cases t with
    | undefined => rfl
    | real y => exact Set.uIcc_comm x y

/-- Part of the way from `u` to `v` leads between them. -/
theorem add_share_mem (u v : ℝ) {share : ℝ} (hlo : 0 ≤ share) (hhi : share ≤ 1) :
    u + share * (v - u) ∈ Set.uIcc u v := by
  rw [Set.mem_uIcc]
  rcases le_total u v with h | h
  · have hway : 0 ≤ v - u := by linarith
    exact .inl ⟨by nlinarith, by nlinarith⟩
  · have hway : 0 ≤ u - v := by linarith
    exact .inr ⟨by nlinarith, by nlinarith⟩

theorem lt_of_lt_smaller {x y : ℝ} {t : Exact} (h : real x < Scalar.smaller (real y) t) :
    x < y := by
  cases t with
  | undefined => simpa [Scalar.smaller] using h
  | real z =>
    rw [smaller_real, real_lt_real] at h
    exact h.trans_le (min_le_left _ _)

/-- An abscissa between two ends; it may be undefined when the precision is. -/
inductive Kept (a b : ℝ) (precision : Exact) : Exact → Prop where
  /-- A number between the ends. -/
  | number {x : ℝ} (h : x ∈ Set.uIcc a b) : Kept a b precision (real x)
  /-- No number, for want of a precision. -/
  | undefined (h : precision = undefined) : Kept a b precision undefined

namespace Kept

variable {a b u v : ℝ} {precision t : Exact}

theorem mono (h : Kept u v precision t) (hu : u ∈ Set.uIcc a b) (hv : v ∈ Set.uIcc a b) :
    Kept a b precision t := by
  cases h with
  | number h => exact .number (Set.uIcc_subset_uIcc hu hv h)
  | undefined h => exact .undefined h

theorem segment_subset (h : Kept u v precision t) {w : ℝ} (hw : w ∈ Set.uIcc u v) :
    segment t (real w) ⊆ Set.uIcc u v := by
  cases h with
  | number h => exact Set.uIcc_subset_uIcc h hw
  | undefined h => exact Set.empty_subset _

end Kept

end Exact

namespace SignChange

open Exact (undefined real Kept)

open scoped Exact

/-! ## One move -/

/-- The fraction that passes the test is a share of the way. -/
theorem exists_share_of_lt {p q way least : ℝ} (hp : 0 ≤ p)
    (hlt : 2 * p < 3 * (1 / 2 * way) * q - |least|) :
    ∃ share, 0 ≤ share ∧ share ≤ 1 ∧ real p / real q = real (share * way) := by
  have hless : 2 * p < 3 / 2 * (q * way) := by
    linarith [abs_nonneg least]
  have hpos : 0 < q * way := by linarith
  have hq : q ≠ 0 := left_ne_zero_of_mul hpos.ne'
  have hway : way ≠ 0 := right_ne_zero_of_mul hpos.ne'
  refine ⟨p / (q * way), div_nonneg hp hpos.le, ?_, ?_⟩
  · rw [div_le_one hpos]
    linarith
  · rw [Exact.real_div_real hq]
    field_simp

section

variable [Exact.Accuracy] {a b u v : ℝ} {precision : Exact} {f : Exact → Exact}
  {s next : SignChange Exact}

/-- The numerator of an interpolated move is not below zero. -/
theorem interpolation_nonneg {p : ℝ} (h : s.interpolation.1 = real p) : 0 ≤ p := by
  rw [interpolation_eq_fraction] at h
  generalize s.fraction.1 = t at h
  cases t with
  | undefined => simp at h
  | real x =>
    simp only [Exact.ofNat_eq_real, Exact.real_lt_real, Nat.cast_zero] at h
    split at h
    · rename_i hx
      obtain rfl : x = p := by simpa using h
      exact hx.le
    · rename_i hx
      obtain rfl : -x = p := by simpa using h
      linarith

theorem halfway_eq_real (hu : s.estimate.x = real u) (hv : s.counterpart.x = real v) :
    s.halfway = real (1 / 2 * (v - u)) := by
  rw [halfway, hu, hv]
  norm_num

/-- Every move leads towards the counterpart, and not past it. -/
theorem exists_share (hu : s.estimate.x = real u) (hv : s.counterpart.x = real v)
    (accuracy : ℝ) : ∃ share, 0 ≤ share ∧ share ≤ 1 ∧
      (s.nextMove (real accuracy)).1 = real (share * (v - u)) := by
  have hhalfway := halfway_eq_real hu hv
  have hbisect : ∃ share : ℝ, 0 ≤ share ∧ share ≤ 1 ∧
      s.halfway = real (share * (v - u)) := ⟨1 / 2, by norm_num, by norm_num, hhalfway⟩
  unfold nextMove
  dsimp only
  split
  · split
    · rename_i hguard
      have hnonneg := fun p => interpolation_nonneg (s := s) (p := p)
      generalize s.interpolation = pq at hguard hnonneg
      obtain ⟨p, q⟩ := pq
      dsimp only at hguard hnonneg ⊢
      -- the test does not hold of anything undefined
      cases p with
      | undefined => exact absurd hguard (Exact.not_undefined_lt _)
      | real p =>
        cases q with
        | undefined => simp [Scalar.smaller] at hguard
        | real q =>
          rw [hhalfway] at hguard
          exact exists_share_of_lt (hnonneg p rfl) (Exact.lt_of_lt_smaller hguard)
    · exact hbisect
  · exact hbisect

/-- Without a precision there is no next estimate. -/
theorem target_of_undefined (s : SignChange Exact) (move : Exact) :
    s.target (s.accuracy undefined) move = undefined := by
  rw [accuracy, Exact.mul_undefined, Exact.add_undefined, target]
  simp only [Exact.not_undefined_lt, if_false, Exact.add_undefined, Exact.sub_undefined, ite_self]

/-- Where the next estimate is sampled, as long as the counterpart is out of reach. -/
theorem kept_target (hu : s.estimate.x = real u) (hv : s.counterpart.x = real v)
    (hfar : ¬ Scalar.abs s.halfway ≤ s.accuracy precision) :
    Kept u v precision (s.target (s.accuracy precision) (s.nextMove (s.accuracy precision)).1) := by
  cases precision with
  | undefined =>
    rw [target_of_undefined]
    exact .undefined rfl
  | real e =>
    obtain ⟨accuracy, haccuracy⟩ : ∃ accuracy, s.accuracy (real e) = real accuracy := by
      rw [SignChange.accuracy, hu]
      exact ⟨_, rfl⟩
    obtain ⟨share, hlo, hhi, hmove⟩ := exists_share hu hv accuracy
    rw [haccuracy, halfway_eq_real hu hv, Exact.abs_real, Exact.real_le_real, not_le] at hfar
    rw [haccuracy, hmove, target, hu, halfway_eq_real hu hv]
    simp only [Exact.abs_real, Exact.real_lt_real, Exact.ofNat_eq_real, Nat.cast_zero,
      Exact.real_add_real, Exact.real_sub_real]
    split
    · exact .number (Exact.add_share_mem u v hlo hhi)
    · rename_i hshort
      have hnonneg : 0 ≤ accuracy := (abs_nonneg _).trans (not_lt.1 hshort)
      split
      · rename_i hright
        rw [abs_of_pos hright] at hfar
        exact .number (Set.mem_uIcc_of_le (by linarith) (by linarith))
      · rename_i hleft
        rw [abs_of_nonpos (not_lt.1 hleft)] at hfar
        exact .number (Set.mem_uIcc_of_ge (by linarith) (by linarith))

/-! ## All moves -/

/-- The abscissae of a search lie between the ends. -/
structure Keeps (a b : ℝ) (precision : Exact) (s : SignChange Exact) : Prop where
  previous : Kept a b precision s.previous.x
  estimate : Kept a b precision s.estimate.x
  counterpart : Kept a b precision s.counterpart.x

theorem keeps_start :
    (start (Point.sample f (real a)) (Point.sample f (real b))).Keeps a b precision where
  previous := .number Set.left_mem_uIcc
  estimate := .number Set.right_mem_uIcc
  counterpart := .number Set.left_mem_uIcc

namespace Keeps

theorem opposed (h : s.Keeps a b precision) : s.opposed.Keeps a b precision := by
  unfold SignChange.opposed
  split
  · exact ⟨h.previous, h.estimate, h.previous⟩
  · exact h

theorem ordered (h : s.Keeps a b precision) : s.ordered.Keeps a b precision := by
  unfold SignChange.ordered
  split
  · exact ⟨h.estimate, h.counterpart, h.estimate⟩
  · exact h

omit [Exact.Accuracy] in
/-- The estimate and its counterpart are numbers, unless the precision is none. -/
theorem cases (h : s.Keeps a b precision) :
    precision = undefined ∨ ∃ u ∈ Set.uIcc a b, ∃ v ∈ Set.uIcc a b,
      s.estimate.x = real u ∧ s.counterpart.x = real v := by
  have hestimate := h.estimate
  have hcounterpart := h.counterpart
  generalize s.estimate.x = x at hestimate ⊢
  generalize s.counterpart.x = y at hcounterpart ⊢
  cases hestimate with
  | undefined hprecision => exact .inl hprecision
  | number hu =>
    cases hcounterpart with
    | undefined hprecision => exact .inl hprecision
    | number hv => exact .inr ⟨_, hu, _, hv, rfl, rfl⟩

theorem onward (h : s.Keeps a b precision)
    (hstep : SignChange.step f precision s = .next next) :
    next.Keeps a b precision := by
  obtain ⟨hfar, rfl⟩ := of_step_eq_next hstep
  have ht := h.opposed.ordered
  refine ⟨ht.estimate, ?_, ht.counterpart⟩
  rcases ht.cases with rfl | ⟨u, hu, v, hv, hestimate, hcounterpart⟩
  · rw [target_of_undefined]
    exact .undefined rfl
  · exact (kept_target hestimate hcounterpart hfar).mono hu hv

theorem step (h : s.Keeps a b precision) :
    (SignChange.step f precision s).state.Keeps a b precision := by
  cases hstep : SignChange.step f precision s with
  | stop last =>
    rw [of_step_eq_stop hstep]
    exact h.opposed.ordered
  | next next => exact h.onward hstep

end Keeps

/-! ## Nested intervals -/

/-- The numbers between the estimate and its counterpart. -/
def enclosure (s : SignChange Exact) : Set ℝ := Exact.segment s.estimate.x s.counterpart.x

/-- Which end is the estimate does not matter. -/
theorem enclosure_ordered (s : SignChange Exact) : s.ordered.enclosure = s.enclosure := by
  unfold ordered
  split
  · exact Exact.segment_comm _ _
  · rfl

/-- The counterpart is kept, or it becomes what was the estimate. -/
theorem enclosure_opposed_subset {i : Set ℝ}
    (hcounterpart : Exact.segment s.estimate.x s.counterpart.x ⊆ i)
    (hprevious : Exact.segment s.estimate.x s.previous.x ⊆ i) : s.opposed.enclosure ⊆ i := by
  unfold opposed
  split
  · exact hprevious
  · exact hcounterpart

/-- A step leads into the interval between the estimate and its counterpart. -/
theorem enclosure_step (h : s.Keeps a b precision) (hstep : step f precision s = .next next) :
    next.opposed.ordered.enclosure ⊆ s.opposed.ordered.enclosure := by
  obtain ⟨hfar, rfl⟩ := of_step_eq_next hstep
  have ht := h.opposed.ordered
  rw [enclosure_ordered]
  generalize s.opposed.ordered = t at hfar ht
  rcases ht.cases with rfl | ⟨u, -, v, -, hestimate, hcounterpart⟩
  · rw [target_of_undefined]
    exact enclosure_opposed_subset (Set.empty_subset _) (Set.empty_subset _)
  · have hkept := kept_target hestimate hcounterpart hfar
    have hway : t.enclosure = Set.uIcc u v := by
      rw [enclosure, hestimate, hcounterpart, Exact.segment]
    rw [hway]
    refine enclosure_opposed_subset ?_ ?_
    · rw [hcounterpart]
      exact hkept.segment_subset Set.right_mem_uIcc
    · rw [hestimate]
      exact hkept.segment_subset Set.left_mem_uIcc

/-- The intervals between estimate and counterpart that a number of steps go through, once the
points are in their places. -/
noncomputable def enclosuresFrom (f : Exact → Exact) (precision : Exact) :
    Nat → SignChange Exact → List (Set ℝ)
  | 0, _ => []
  | n + 1, s =>
    s.opposed.ordered.enclosure ::
      match step f precision s with
      | .stop _ => []
      | .next next => enclosuresFrom f precision n next

/-- The intervals that a search between `a` and `b` goes through. -/
noncomputable def enclosures (f : Exact → Exact) (a b : ℝ) (tolerance : Tolerance Exact) :
    List (Set ℝ) :=
  enclosuresFrom f tolerance.precision tolerance.maxIterations
    (start (Point.sample f (real a)) (Point.sample f (real b)))

/-- All of them are inside the first. -/
theorem subset_of_mem_enclosuresFrom {n : ℕ} (h : s.Keeps a b precision) {i : Set ℝ}
    (hi : i ∈ enclosuresFrom f precision n s) : i ⊆ s.opposed.ordered.enclosure := by
  induction n generalizing s with
  | zero => cases hi
  | succ n ih =>
    rw [enclosuresFrom] at hi
    rcases List.mem_cons.1 hi with rfl | hi
    · exact subset_rfl
    · cases hstep : step f precision s with
      | stop last =>
        rw [hstep] at hi
        cases hi
      | next next =>
        rw [hstep] at hi
        exact (ih (h.onward hstep) hi).trans (enclosure_step h hstep)

/-- Each of them is inside the ones before. -/
theorem pairwise_enclosuresFrom (h : s.Keeps a b precision) (n : ℕ) :
    (enclosuresFrom f precision n s).Pairwise fun outer inner => inner ⊆ outer := by
  induction n generalizing s with
  | zero => exact .nil
  | succ n ih =>
    rw [enclosuresFrom]
    cases hstep : step f precision s with
    | stop last => exact List.pairwise_singleton _ _
    | next next =>
      refine .cons (fun i hi => ?_) (ih (h.onward hstep))
      exact (subset_of_mem_enclosuresFrom (h.onward hstep) hi).trans (enclosure_step h hstep)

/-- The first of them is between the ends. -/
theorem enclosure_start (f : Exact → Exact) (a b : ℝ) :
    (start (Point.sample f (real a)) (Point.sample f (real b))).opposed.ordered.enclosure ⊆
      Set.uIcc a b := by
  rw [enclosure_ordered]
  refine enclosure_opposed_subset ?_ ?_ <;> exact (Set.uIcc_comm b a).subset

/-! ## What is found -/

/-- What is found in exact arithmetic lies between the ends. -/
theorem find_between (f : Exact → Exact) (a b : ℝ) (tolerance : Tolerance Exact)
    (h : (find f (real a) (real b) tolerance).isDefined = true) :
    ∃ x ∈ Set.uIcc a b, (find f (real a) (real b) tolerance).x = real x := by
  rcases find_ends f (real a) (real b) tolerance with ⟨hp, -⟩ | ⟨hp, -⟩ | hp | ⟨-, hp, -⟩
  · exact ⟨a, Set.left_mem_uIcc, by rw [hp]⟩
  · exact ⟨b, Set.right_mem_uIcc, by rw [hp]⟩
  · rw [hp] at h
    simp [Point.isDefined, Point.undefined] at h
  · rw [hp] at h ⊢
    have hkeeps : (after f (real a) (real b) tolerance.precision tolerance.maxIterations).Keeps a b
        tolerance.precision :=
      Step.iterate_invariant (fun _ hs => hs.step) _ keeps_start
    have hestimate := hkeeps.estimate
    generalize (after f (real a) (real b) tolerance.precision _).estimate = p at h hestimate ⊢
    obtain ⟨x, y⟩ := p
    cases hestimate with
    | number hx => exact ⟨_, hx, rfl⟩
    | undefined => simp [Point.isDefined] at h

end

/-- A point solves `f` between `a` and `b`: it is on the graph, and it is a zero at an end, or
no larger than the ends, which are on different sides of zero. -/
structure Solves {K : Type} [Scalar K] (f : K → K) (a b : K) (p : Point K) : Prop where
  on_graph : (p.y == f p.x) = true
  zero_or_smaller : (p.x = a ∨ p.x = b) ∧ (f p.x == 0) = true ∨
    Bracket.signsDiffer (f a) (f b) = true ∧
      Scalar.abs p.y ≤ Scalar.abs (f a) ∧ Scalar.abs p.y ≤ Scalar.abs (f b)

theorem find_solves {K : Type} [Precision K] [SymmetricScalar K] (f : K → K) (a b : K)
    (tolerance : Tolerance K) (h : (find f a b tolerance).isDefined = true) :
    Solves f a b (find f a b tolerance) := by
  have hends := find_ends f a b tolerance
  have hgraph := (onGraph_after f a b tolerance.precision tolerance.maxIterations).estimate
  generalize find f a b tolerance = p at h hends
  have hzero : ∀ x, (f x == 0) = true → ((0 : K) == f x) = true := fun x hx =>
    OrderedScalar.beq_iff.2 (OrderedScalar.beq_iff.1 hx).symm
  rcases hends with ⟨rfl, ha⟩ | ⟨rfl, hb⟩ | rfl | ⟨hsigns, rfl, hbound⟩
  · exact ⟨hzero a ha, .inl ⟨.inl rfl, ha⟩⟩
  · exact ⟨hzero b hb, .inl ⟨.inr rfl, hb⟩⟩
  · simp [Point.isDefined, Point.undefined, OrderedScalar.isNaN_nan] at h
  · obtain ⟨ha, hb⟩ := Bracket.defined_of_signsDiffer hsigns
    rw [← SymmetricScalar.isNaN_abs] at ha hb
    obtain ⟨hnear, hfar⟩ := Scalar.le_of_le_smaller ha hb hbound
    have hdef := (OrderedScalar.defined_of_le hnear).1
    rw [SymmetricScalar.isNaN_abs] at hdef
    refine ⟨?_, .inr ⟨hsigns, hnear, hfar⟩⟩
    rw [← hgraph]
    exact Scalar.beq_self hdef

/-- Whatever the arithmetic, a point that was found solves the function.  But for rounding it
lies between the ends, and so do the intervals that the search went through, each inside the
ones before, whatever the accuracy is. -/
theorem find_sound :
    (∀ {K : Type} [Precision K] [SymmetricScalar K] (f : K → K) (a b : K)
      (tolerance : Tolerance K), (find f a b tolerance).isDefined = true →
        Solves f a b (find f a b tolerance)) ∧
    ∀ [Exact.Accuracy] (f : Exact → Exact) (a b : ℝ) (tolerance : Tolerance Exact),
      ((find f (real a) (real b) tolerance).isDefined = true →
        ∃ x ∈ Set.uIcc a b, (find f (real a) (real b) tolerance).x = real x) ∧
      (∀ i ∈ enclosures f a b tolerance, i ⊆ Set.uIcc a b) ∧
        (enclosures f a b tolerance).Pairwise fun outer inner => inner ⊆ outer := by
  refine ⟨find_solves, fun f a b tolerance => ?_⟩
  refine ⟨find_between f a b tolerance, fun i hi => ?_, pairwise_enclosuresFrom keeps_start _⟩
  exact (subset_of_mem_enclosuresFrom keeps_start hi).trans (enclosure_start f a b)

/-- The middle of a bracket is found at once if the function is zero there. -/
theorem find_middle :
    find (fun x => x) (real (-1)) (real 1) ⟨real 1, 1⟩ = ⟨real 0, real 0⟩ := by
  have hsigns : Bracket.signsDiffer (real (-1)) (real 1) = true := by
    simp [Bracket.signsDiffer]
  have hstart : (start ⟨real (-1), real (-1)⟩ ⟨real 1, real 1⟩).opposed.ordered =
      start ⟨real (-1), real (-1)⟩ ⟨real 1, real 1⟩ := by
    simp [start, opposed, ordered]
  have haccuracy : accuracy (real 1) (start ⟨real (-1), real (-1)⟩ ⟨real 1, real 1⟩) =
      real (2 * 0.5 ^ 52 * |1| + 0.5 * 1) := rfl
  have hhalfway : halfway (start ⟨real (-1), real (-1)⟩ ⟨real 1, real 1⟩) = real (-1) := by
    norm_num [halfway, start]
  have hone : ¬ (real 1 == 0) = true := by
    simp
  have hafter :
      (after (fun x => x) (real (-1)) (real 1) (real 1) 1).estimate = ⟨real 0, real 0⟩ := by
    simp only [after, Step.iterate_succ, Step.iterate_zero, step, Point.sample, hstart, haccuracy,
      hhalfway, nextMove, target]
    norm_num [start, hone]
  rw [find_of_signsDiffer _ hsigns, hafter]
  simp

/-- A root of a parabola in double precision, and the middle of a line in exact numbers. -/
theorem find_sound_parabola_and_line :
    (let p := find (fun x : Float => x * x - 2) 1 2 ⟨1e-10, 100⟩
     p.isDefined = true ∧ (p.y == p.x * p.x - 2) = true) ∧
    (let p := find (fun x => x) (real (-1)) (real 1) ⟨real 1, 1⟩
     p.isDefined = true ∧ ∃ x ∈ Set.uIcc (-1) 1, p.x = real x) := by
  obtain ⟨hsolves, hbetween⟩ := find_sound
  have hroot : (find (fun x : Float => x * x - 2) 1 2 ⟨1e-10, 100⟩).isDefined = true := by
    decide +kernel
  have hmiddle : (find (fun x => x) (real (-1)) (real 1) ⟨real 1, 1⟩).isDefined = true := by
    rw [find_middle]
    simp [Point.isDefined]
  let _ := Exact.Accuracy.double
  exact ⟨⟨hroot, (hsolves _ _ _ _ hroot).on_graph⟩, hmiddle, (hbetween _ _ _ _).1 hmiddle⟩

end SignChange

end CurveSurvey

import Mathlib.Order.Bounds.Defs
import CurveSurvey.Proofs.Interval
import CurveSurvey.Proofs.Machine
import CurveSurvey.Rect

/-!
# What extensions gather

An interval that starts unset and is extended by numbers and by intervals, in whatever order,
ends as the span of the numbers that it was given.

* `Interval.Extension` is one of these operations, and `Interval.extended` applies a list of
  them.
* `Interval.covers_extended_iff`: an interval covers the result exactly when it covers the start
  and the place of every number that was given.  So the order of the operations and repetitions
  do not matter, and a group of them may be gathered apart
  (`Interval.same_extended_interval`).
* `Interval.isLeast_extended_lower` and `Interval.isGreatest_extended_upper`: the ends are the
  least and the greatest of these places, bit for bit.
* `Interval.extended_spans` puts this together, and says the same of the axes of a rectangle.
-/

namespace CurveSurvey

namespace Scalar

variable {K : Type} [Scalar K]

/-- The place of a defined number inside `±limit`: its own, or the end that it is beyond. -/
def confined (limit t : K) : K := if t < -limit then -limit else if limit < t then limit else t

theorem clamp_eq_confined [OrderedScalar K] {limit t : K} (h : -limit ≤ limit)
    (ht : isNaN t = false) : clamp t limit = confined limit t := by
  obtain ⟨hneg, hlim⟩ := OrderedScalar.defined_of_le h
  unfold clamp larger smaller confined
  rw [ht]
  simp only [Bool.false_eq_true, if_false]
  by_cases hlow : t < -limit
  · rw [if_pos hlow, if_pos hlow, hneg]
    simp only [Bool.false_eq_true, if_false]
    rw [if_neg fun hlt => not_le_of_lt hlt h]
  · rw [if_neg hlow, if_neg hlow, ht]
    simp only [Bool.false_eq_true, if_false]

end Scalar

namespace Interval

/-! ## Operations -/

/-- An operation that extends an interval. -/
inductive Extension (K : Type) where
  /-- Extension by one number, which may be undefined. -/
  | number (t : K)
  /-- Extension by both ends of an interval, each of which may be undefined. -/
  | interval (j : Interval K)

namespace Extension

variable {K : Type}

/-- The numbers that an operation gives. -/
def numbers : Extension K → List K
  | number t => [t]
  | interval j => [j.lower, j.upper]

/-- The interval after an operation. -/
def apply [Scalar K] (limit : K) (i : Interval K) : Extension K → Interval K
  | number t => i.extend t limit
  | interval j => i.extendInterval j limit

/-- An operation joins the interval with what each of its numbers contributes. -/
theorem apply_eq_foldl_join [Scalar K] [OrderedScalar K] (limit : K) (i : Interval K)
    (op : Extension K) :
    op.apply limit i = (op.numbers.map fun t => spot t limit).foldl join i := by
  cases op with
  | number t => exact extend_eq_join i t limit
  | interval j =>
    show (i.extend j.lower limit).extend j.upper limit = _
    rw [extend_eq_join, extend_eq_join]
    rfl

end Extension

variable {K : Type}

/-- All numbers that a list of operations gives. -/
def supplied (ops : List (Extension K)) : List K := ops.flatMap Extension.numbers

variable [Scalar K]

/-- The interval after a list of operations. -/
def extended (i : Interval K) (limit : K) (ops : List (Extension K)) : Interval K :=
  ops.foldl (Extension.apply limit) i

/-- The places inside `±limit` of the defined numbers that a list of operations gives. -/
def places (limit : K) (ops : List (Extension K)) : Set K :=
  {s | ∃ t ∈ supplied ops, Scalar.isNaN t = false ∧ Scalar.confined limit t = s}

variable [OrderedScalar K] {limit : K} {i k : Interval K} {ops : List (Extension K)}

/-- A list of operations joins the interval with what each of the numbers contributes. -/
theorem extended_eq_foldl_join (limit : K) (i : Interval K) (ops : List (Extension K)) :
    i.extended limit ops = ((supplied ops).map fun t => spot t limit).foldl join i := by
  induction ops generalizing i with
  | nil => rfl
  | cons op ops ih =>
    rw [supplied, List.flatMap_cons, List.map_append, List.foldl_append,
      ← Extension.apply_eq_foldl_join]
    exact ih (op.apply limit i)

/-- An interval covers the result exactly when it covers the start and what each of the numbers
contributes. -/
theorem covers_extended_iff : Covers k (i.extended limit ops) ↔
    Covers k i ∧ ∀ t ∈ supplied ops, Covers k (spot t limit) := by
  rw [extended_eq_foldl_join, covers_foldl_join_iff, List.forall_mem_map]

theorem covers_extended (limit : K) (i : Interval K) (ops : List (Extension K)) :
    Covers (i.extended limit ops) i :=
  (covers_extended_iff.1 (Covers.refl _)).1

/-- Undefined numbers change nothing. -/
theorem extended_of_undefined (h : ∀ t ∈ supplied ops, Scalar.isNaN t = true) :
    i.extended limit ops = i := by
  rw [extended_eq_foldl_join]
  generalize supplied ops = l at h
  induction l with
  | nil => rfl
  | cons t l ih =>
    obtain ⟨ht, hl⟩ := List.forall_mem_cons.1 h
    rw [List.map_cons, List.foldl_cons, spot_of_undefined ht, join_unset]
    exact ih hl

theorem within_extended (h : -limit ≤ limit) (hi : Within limit i) (ops : List (Extension K)) :
    Within limit (i.extended limit ops) := by
  rw [extended_eq_foldl_join]
  generalize supplied ops = l
  induction l generalizing i with
  | nil => exact hi
  | cons t l ih => exact ih (hi.join (within_spot h t))

/-! ## Order, repetition and grouping -/

/-- Only the defined numbers matter that the operations give. -/
theorem same_extended {ops' : List (Extension K)}
    (h : ∀ t, Scalar.isNaN t = false → (t ∈ supplied ops ↔ t ∈ supplied ops')) (limit : K)
    (i : Interval K) : Same (i.extended limit ops) (i.extended limit ops') := by
  have hside : ∀ {k : Interval K} {ops ops' : List (Extension K)},
      (∀ t, Scalar.isNaN t = false → t ∈ supplied ops → t ∈ supplied ops') →
        Covers k (i.extended limit ops') → Covers k (i.extended limit ops) := by
    intro k ops ops' hmem hk
    obtain ⟨hi, hl⟩ := covers_extended_iff.1 hk
    refine covers_extended_iff.2 ⟨hi, fun t ht => ?_⟩
    cases hnan : Scalar.isNaN t with
    | true =>
      rw [spot_of_undefined hnan]
      exact covers_unset k
    | false => exact hl t (hmem t hnan ht)
  exact same_of_covers_iff fun k =>
    ⟨hside fun t ht => (h t ht).2, hside fun t ht => (h t ht).1⟩

/-- The two ends of an interval inside the limit contribute what the interval does. -/
theorem covers_spots_iff {j : Interval K} (hj : Within limit j) :
    Covers k (spot j.lower limit) ∧ Covers k (spot j.upper limit) ↔ Covers k j := by
  rcases hj with ⟨hl, hu⟩ | ⟨hlo, hle, hhi⟩
  · rw [spot_of_undefined hl, spot_of_undefined hu]
    exact iff_of_true ⟨covers_unset k, covers_unset k⟩ (covers_of_isNaN hl hu k)
  · obtain ⟨hl, hu⟩ := OrderedScalar.defined_of_le hle
    rw [spot_eq_of_mem hlo (OrderedScalar.trans hle hhi),
      spot_eq_of_mem (OrderedScalar.trans hlo hle) hhi]
    constructor
    · rintro ⟨hlower, hupper⟩
      exact ⟨hlower.1, hupper.2⟩
    · rintro ⟨hlower, hupper⟩
      exact ⟨⟨fun _ => hlower hl, fun _ => OrderedScalar.trans hle (hupper hu)⟩,
        ⟨fun _ => OrderedScalar.trans (hlower hl) hle, fun _ => hupper hu⟩⟩

/-- A group of operations may be gathered apart, from an unset interval, and then be added as
one.  The two results may differ in the sign of a zero, of which the first one is kept. -/
theorem same_extended_interval (h : -limit ≤ limit) (i : Interval K)
    (before group after : List (Extension K)) :
    Same (i.extended limit (before ++ [.interval (unset.extended limit group)] ++ after))
      (i.extended limit (before ++ group ++ after)) := by
  have hgroup : ∀ k, Covers k (unset.extended limit group) ↔
      ∀ t ∈ supplied group, Covers k (spot t limit) := fun k =>
    covers_extended_iff.trans (and_iff_right (covers_unset k))
  have hnumbers : ∀ j : Interval K, supplied [.interval j] = [j.lower, j.upper] := fun _ => rfl
  refine same_of_covers_iff fun k => ?_
  rw [covers_extended_iff, covers_extended_iff]
  simp only [supplied, List.flatMap_append, List.forall_mem_append] at hgroup hnumbers ⊢
  rw [hnumbers, ← hgroup, ← covers_spots_iff (within_extended h (within_unset limit) group)]
  simp

/-! ## The ends -/

theorem spot_upper {K : Type} [Scalar K] (t limit : K) :
    (spot t limit).upper = (spot t limit).lower := by
  unfold spot
  split <;> rfl

/-- The foremost of all that is contributed is the place of a number. -/
theorem foremost_mem_places (before : K → K → Bool) (h : -limit ≤ limit)
    (hdef : ∃ t ∈ supplied ops, Scalar.isNaN t = false) :
    ((supplied ops).map fun t => (spot t limit).lower).foldl (Scalar.foremost before) Scalar.nan ∈
      places limit ops := by
  obtain ⟨t, ht, htdef⟩ := hdef
  have hmem := Scalar.mem_foldl_foremost before
    ((supplied ops).map fun t => (spot t limit).lower) Scalar.nan
  have hnan := (Scalar.isNaN_foldl_foremost before
    ((supplied ops).map fun t => (spot t limit).lower) Scalar.nan).1
  generalize ((supplied ops).map fun t => (spot t limit).lower).foldl (Scalar.foremost before)
    Scalar.nan = s at hmem hnan ⊢
  -- the fold starts undefined, and an undefined number is passed over
  have hs : Scalar.isNaN s = false := by
    refine eq_false_of_ne_true fun hs => ?_
    have hall := hnan hs _ (List.mem_cons_of_mem _ (List.mem_map_of_mem ht))
    rw [spot_of_defined htdef, Scalar.isNaN_clamp htdef] at hall
    cases hall
  rcases List.mem_cons.1 hmem with rfl | hmem
  · rw [OrderedScalar.isNaN_nan] at hs
    cases hs
  · obtain ⟨u, hu, rfl⟩ := List.mem_map.1 hmem
    have hudef : Scalar.isNaN u = false := by
      refine eq_false_of_ne_true fun hunan => ?_
      rw [spot_of_undefined hunan, unset, OrderedScalar.isNaN_nan] at hs
      cases hs
    exact ⟨u, hu, hudef, by rw [spot_of_defined hudef, Scalar.clamp_eq_confined h hudef]⟩

/-- No place is outside the result. -/
theorem extended_holds_places (h : -limit ≤ limit) (i : Interval K) {s : K}
    (hs : s ∈ places limit ops) :
    (i.extended limit ops).lower ≤ s ∧ s ≤ (i.extended limit ops).upper := by
  obtain ⟨t, ht, htdef, rfl⟩ := hs
  have hclamp : Scalar.isNaN (Scalar.clamp t limit) = false := Scalar.isNaN_clamp htdef
  obtain ⟨hlower, hupper⟩ := (covers_extended_iff.1 (Covers.refl (i.extended limit ops))).2 t ht
  rw [spot_of_defined htdef] at hlower hupper
  rw [← Scalar.clamp_eq_confined h htdef]
  exact ⟨hlower hclamp, hupper hclamp⟩

/-- The lower end is the least of the places. -/
theorem isLeast_extended_lower (h : -limit ≤ limit)
    (hdef : ∃ t ∈ supplied ops, Scalar.isNaN t = false) :
    IsLeast (places limit ops) (unset.extended limit ops).lower := by
  refine ⟨?_, fun s hs => (extended_holds_places h unset hs).1⟩
  rw [extended_eq_foldl_join, foldl_join_lower, List.map_map]
  exact foremost_mem_places Scalar.below h hdef

/-- The upper end is the greatest of the places. -/
theorem isGreatest_extended_upper (h : -limit ≤ limit)
    (hdef : ∃ t ∈ supplied ops, Scalar.isNaN t = false) :
    IsGreatest (places limit ops) (unset.extended limit ops).upper := by
  refine ⟨?_, fun s hs => (extended_holds_places h unset hs).2⟩
  rw [extended_eq_foldl_join, foldl_join_upper, List.map_map]
  simp only [Function.comp_def, spot_upper]
  exact foremost_mem_places Scalar.above h hdef

end Interval

/-! ## Rectangles -/

namespace Rect

/-- An operation that extends a rectangle. -/
inductive Extension (K : Type) where
  /-- Extension by a point, whose components may be undefined. -/
  | point (p : Point K)
  /-- Extension by another rectangle. -/
  | rect (s : Rect K)

namespace Extension

variable {K : Type}

/-- What an operation does to the interval of abscissae. -/
def onX : Extension K → Interval.Extension K
  | point p => .number p.x
  | rect s => .interval s.x

/-- What an operation does to the interval of ordinates. -/
def onY : Extension K → Interval.Extension K
  | point p => .number p.y
  | rect s => .interval s.y

/-- The rectangle after an operation. -/
def apply [Scalar K] (limit : K) (r : Rect K) : Extension K → Rect K
  | point p => r.extend p limit
  | rect s => r.extendRect s limit

theorem apply_eq [Scalar K] (limit : K) (r : Rect K) (op : Extension K) :
    op.apply limit r = ⟨op.onX.apply limit r.x, op.onY.apply limit r.y⟩ := by
  cases op <;> rfl

end Extension

variable {K : Type} [Scalar K]

/-- The rectangle after a list of operations. -/
def extended (r : Rect K) (limit : K) (ops : List (Extension K)) : Rect K :=
  ops.foldl (Extension.apply limit) r

/-- The axes are extended apart from each other. -/
theorem extended_eq (limit : K) (r : Rect K) (ops : List (Extension K)) :
    r.extended limit ops =
      ⟨r.x.extended limit (ops.map Extension.onX),
        r.y.extended limit (ops.map Extension.onY)⟩ := by
  induction ops generalizing r with
  | nil => rfl
  | cons op ops ih =>
    rw [extended, List.foldl_cons, Extension.apply_eq]
    exact ih _

end Rect

/-! ## The span of what was given -/

namespace Interval

variable {K : Type} [Scalar K] [SignedScalar K]

/-- Extension is a join.  From an unset interval, operations gather nothing if they give no
defined number, and otherwise the span of the places of the numbers that they give.  Neither the
order of the operations nor repetitions matter, a group of them may be gathered apart, and a set
interval only grows.  The axes of a rectangle are extended in this way, apart from each other. -/
theorem extended_spans {limit : K} (hlimit : 0 ≤ limit) :
    (∀ ops : List (Extension K), (∀ t ∈ supplied ops, Scalar.isNaN t = true) →
      unset.extended limit ops = unset) ∧
    (∀ ops : List (Extension K), (∃ t ∈ supplied ops, Scalar.isNaN t = false) →
      IsLeast (places limit ops) (unset.extended limit ops).lower ∧
        IsGreatest (places limit ops) (unset.extended limit ops).upper) ∧
    (∀ (i : Interval K) (ops ops' : List (Extension K)),
      (∀ t, Scalar.isNaN t = false → (t ∈ supplied ops ↔ t ∈ supplied ops')) →
      Same (i.extended limit ops) (i.extended limit ops')) ∧
    (∀ (i : Interval K) (before group after : List (Extension K)),
      Same (i.extended limit (before ++ [.interval (unset.extended limit group)] ++ after))
        (i.extended limit (before ++ group ++ after))) ∧
    (∀ (i : Interval K) (ops : List (Extension K)), i.lower ≤ i.upper →
      (i.extended limit ops).lower ≤ i.lower ∧ i.upper ≤ (i.extended limit ops).upper ∧
        (i.extended limit ops).lower ≤ (i.extended limit ops).upper) ∧
    ∀ (r : Rect K) (ops : List (Rect.Extension K)),
      r.extended limit ops = ⟨r.x.extended limit (ops.map Rect.Extension.onX),
        r.y.extended limit (ops.map Rect.Extension.onY)⟩ := by
  have hneg : -limit ≤ limit := Scalar.neg_le_self hlimit
  refine ⟨?_, ?_, ?_, ?_, ?_, ?_⟩
  · intro ops hops
    exact extended_of_undefined hops
  · intro ops hops
    exact ⟨isLeast_extended_lower hneg hops, isGreatest_extended_upper hneg hops⟩
  · intro i ops ops' h
    exact same_extended h limit i
  · intro i before group after
    exact same_extended_interval hneg i before group after
  · intro i ops hle
    obtain ⟨hl, hu⟩ := OrderedScalar.defined_of_le hle
    obtain ⟨hlower, hupper⟩ := covers_extended limit i ops
    exact ⟨hlower hl, hupper hu,
      OrderedScalar.trans (hlower hl) (OrderedScalar.trans hle (hupper hu))⟩
  · intro r ops
    exact Rect.extended_eq limit r ops

/-- A number beyond the limit, an interval of which only the upper end is set, and no number. -/
def mixedExtensions : List (Extension Float32) :=
  [.number 250, .interval ⟨Scalar.nan, -3⟩, .number Scalar.nan]

/-- They span the limit and the end that is set, also in the opposite order. -/
theorem extended_spans_mixed :
    (0 : Float32) ≤ 100 ∧
      (∃ t ∈ supplied mixedExtensions, Scalar.isNaN t = false) ∧
      unset.extended 100 mixedExtensions = ⟨-3, 100⟩ ∧
      IsLeast (places 100 mixedExtensions) (-3 : Float32) ∧
      IsGreatest (places 100 mixedExtensions) (100 : Float32) ∧
      Same (unset.extended 100 mixedExtensions.reverse) ⟨-3, 100⟩ := by
  have hlimit : (0 : Float32) ≤ 100 := by decide +kernel
  have hdef : ∃ t ∈ supplied mixedExtensions, Scalar.isNaN t = false :=
    ⟨250, List.mem_cons_self, by decide +kernel⟩
  have hends : unset.extended 100 mixedExtensions = ⟨-3, 100⟩ := by rfl
  obtain ⟨-, hspan, hsame, -⟩ := extended_spans hlimit
  obtain ⟨hleast, hgreatest⟩ := hspan mixedExtensions hdef
  have hreverse := hsame unset mixedExtensions.reverse mixedExtensions fun t _ => by
    simp [supplied]
  rw [hends] at hleast hgreatest hreverse
  exact ⟨hlimit, hdef, hends, hleast, hgreatest, hreverse⟩

end Interval

end CurveSurvey

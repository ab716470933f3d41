import Mathlib.Analysis.SpecialFunctions.Pow.Real
import CurveSurvey.Proofs.Extended
import CurveSurvey.Proofs.Interval.Negated
import CurveSurvey.Proofs.Viewport.Forced

/-!
# The magnitude of a curve

The typical scale of a curve, when nothing is rounded.  A curve may be undefined or infinite at any
parameter; only its finite samples count, and those about zero only toward the extent.

* `LogSum.scale?_ofList`: the mean of logarithms stands for the geometric mean.
* `MagnitudeTally.Counts` is what a tally knows of the numbers it has seen.  `Counts.add` is one
  sample and `Counts.foldl` all of them.
* `MagnitudeTally.add_negated`: a tally of the opposite samples is the opposite tally, so that
  what is true of the upper end is true of the lower one.
* `Viewport.fitMagnitude_typical` is the result.
-/

namespace CurveSurvey

open Extended (real value undefined)

theorem Scalar.smaller_cases {K : Type} [Scalar K] [OrderedScalar K] {s t : K}
    (hs : isNaN s = false) (ht : isNaN t = false) :
    smaller s t = s ∧ s ≤ t ∨ smaller s t = t ∧ t ≤ s := by
  unfold smaller
  rw [hs]
  by_cases hlt : t < s
  · exact .inr ⟨if_pos hlt, le_of_lt hlt⟩
  · exact .inl ⟨if_neg hlt, le_of_not_lt hs ht hlt⟩

/-! ## Means -/

/-- The number whose power is the product of a list. -/
noncomputable def geometricMean (l : List ℝ) : ℝ := l.prod ^ (1 / l.length : ℝ)

section

variable {l : List ℝ}

theorem exp_mean_log (h : ∀ x ∈ l, 0 < x) :
    Real.exp ((l.map Real.log).sum / l.length) = geometricMean l := by
  rw [geometricMean, Real.rpow_def_of_pos (List.prod_pos h),
    Real.log_list_prod fun x hx => (h x hx).ne', mul_one_div]

theorem geometricMean_pos (h : ∀ x ∈ l, 0 < x) : 0 < geometricMean l := by
  rw [← exp_mean_log h]
  exact Real.exp_pos _

/-- Some member of a list is not above the geometric mean. -/
theorem exists_le_geometricMean (hne : l ≠ []) (h : ∀ x ∈ l, 0 < x) :
    ∃ x ∈ l, x ≤ geometricMean l := by
  have hlength : (0 : ℝ) < l.length := Nat.cast_pos.2 (List.length_pos_of_ne_nil hne)
  have hsum : (l.map Real.log).sum ≤
      (l.map fun _ => (l.map Real.log).sum / l.length).sum := by
    rw [List.map_const', List.sum_replicate, nsmul_eq_mul, mul_div_cancel₀ _ hlength.ne']
  obtain ⟨x, hx, hle⟩ := List.exists_le_of_sum_le hne _ _ hsum
  refine ⟨x, hx, ?_⟩
  rw [← exp_mean_log h]
  exact (Real.log_le_iff_le_exp (h x hx)).1 hle

end

/-! ## Sums of logarithms -/

namespace LogSum

/-- The sum and number of the logarithms of a list. -/
noncomputable def ofList (l : List ℝ) : LogSum Extended :=
  ⟨real (l.map Real.log).sum, real l.length⟩

theorem ofList_nil : ofList [] = empty := by
  simp [ofList, empty]

theorem add_ofList (l : List ℝ) {x : ℝ} (h : 0 < x) :
    (ofList l).add (real x) = ofList (l ++ [x]) := by
  simp [ofList, LogSum.add, Extended.log_real h]

/-- The scale is the geometric mean, enlarged. -/
theorem scale?_ofList {l : List ℝ} (h : ∀ x ∈ l, 0 < x) :
    (ofList l).scale? = if l = [] then none else some (real (Real.exp 1 * geometricMean l)) := by
  unfold scale?
  cases l with
  | nil => simp [ofList]
  | cons x l =>
    have hlength : ((x :: l).length : ℝ) ≠ 0 := Nat.cast_ne_zero.2 (Nat.succ_ne_zero _)
    have hcount : (0 : Extended) < (ofList (x :: l)).count := by
      simp only [ofList, Extended.ofNat_eq_real, Extended.real_lt_real, Nat.cast_lt]
      exact Nat.zero_lt_succ _
    rw [if_pos hcount, if_neg (List.cons_ne_nil x l), ofList, Extended.real_div_real hlength,
      Extended.ofNat_eq_real, Extended.real_add_real, Extended.exp_real, Nat.cast_one, Real.exp_add,
      exp_mean_log h, mul_comm]

end LogSum

/-! ## Extents -/

namespace Interval

/-- The smallest interval that holds all numbers of a list, brought inside a limit. -/
structure IsExtent (limit : Extended) (l : List ℝ) (i : Interval Extended) : Prop where
  /-- It is unset if there are none. -/
  eq_unset : l = [] → i = unset
  /-- No number is below the lower end. -/
  lower_le : ∀ x ∈ l, i.lower ≤ Scalar.clamp (real x) limit
  /-- No number is above the upper end. -/
  le_upper : ∀ x ∈ l, Scalar.clamp (real x) limit ≤ i.upper
  /-- The lower end is that of a number. -/
  exists_lower : l ≠ [] → ∃ x ∈ l, i.lower = Scalar.clamp (real x) limit
  /-- The upper end is that of a number. -/
  exists_upper : l ≠ [] → ∃ x ∈ l, i.upper = Scalar.clamp (real x) limit

variable {limit : Extended} {l : List ℝ} {i : Interval Extended}

theorem isExtent_unset (limit : Extended) : IsExtent limit [] unset where
  eq_unset _ := rfl
  lower_le _ hx := nomatch hx
  le_upper _ hx := nomatch hx
  exists_lower hne := absurd rfl hne
  exists_upper hne := absurd rfl hne

/-- The foremost of an end and a number is the end of some number. -/
theorem exists_foremost (before : Extended → Extended → Bool) {s : Extended}
    (hs : l = [] → s = undefined) (hs' : l ≠ [] → ∃ y ∈ l, s = Scalar.clamp (real y) limit)
    (x : ℝ) : ∃ y ∈ l ++ [x], Scalar.foremost before s (Scalar.clamp (real x) limit) =
      Scalar.clamp (real y) limit := by
  have hx : x ∈ l ++ [x] := List.mem_append_right l List.mem_cons_self
  by_cases hl : l = []
  · refine ⟨x, hx, ?_⟩
    rw [hs hl]
    exact Scalar.foremost_of_isNaN_left Extended.isNaN_undefined
      (Scalar.isNaN_clamp (Extended.isNaN_real x))
  · rcases Scalar.foremost_eq_or before s (Scalar.clamp (real x) limit) with h | h
    · obtain ⟨y, hy, heq⟩ := hs' hl
      exact ⟨y, List.mem_append_left _ hy, h.trans heq⟩
    · exact ⟨x, hx, h⟩

/-- The join of an extent with a number is the extent of one number more. -/
theorem IsExtent.extend (h : IsExtent limit l i) (x : ℝ) :
    IsExtent limit (l ++ [x]) (i.extend (real x) limit) := by
  have hspot := spot_of_defined (Extended.isNaN_real x) limit
  have hdef : Scalar.isNaN (Scalar.clamp (real x) limit) = false :=
    Scalar.isNaN_clamp (Extended.isNaN_real x)
  obtain ⟨hlow, hhigh⟩ := covers_join_right i (spot (real x) limit)
  obtain ⟨hlow', hhigh'⟩ := covers_join i (spot (real x) limit)
  rw [hspot] at hlow hhigh hlow' hhigh'
  rw [extend_eq_join, hspot]
  refine ⟨fun hnil => by simp at hnil, fun y hy => ?_, fun y hy => ?_,
    fun _ => exists_foremost _ (fun hl => congrArg lower (h.eq_unset hl)) h.exists_lower x,
    fun _ => exists_foremost _ (fun hl => congrArg upper (h.eq_unset hl)) h.exists_upper x⟩
  · rcases List.mem_append.1 hy with hy | hy
    · have hle := h.lower_le y hy
      exact OrderedScalar.trans (hlow' (OrderedScalar.defined_of_le hle).1) hle
    · obtain rfl := List.mem_singleton.1 hy
      exact hlow hdef
  · rcases List.mem_append.1 hy with hy | hy
    · have hle := h.le_upper y hy
      exact OrderedScalar.trans hle (hhigh' (OrderedScalar.defined_of_le hle).2)
    · obtain rfl := List.mem_singleton.1 hy
      exact hhigh hdef

end Interval

/-! ## Tallies -/

namespace MagnitudeTally

/-- The numbers of a list above zero, without those about zero. -/
noncomputable def heights (l : List ℝ) : List ℝ := l.filter fun x => decide (1e-5 < x)

/-- The magnitudes of the numbers of a list below zero, without those about zero. -/
noncomputable def depths (l : List ℝ) : List ℝ := heights (l.map (-·))

variable {limit : Extended} {l : List ℝ} {t : MagnitudeTally Extended} {x : ℝ}

theorem mem_heights_iff : x ∈ heights l ↔ x ∈ l ∧ 1e-5 < x := by
  rw [heights, List.mem_filter, decide_eq_true_iff]

theorem pos_of_mem_heights : ∀ x ∈ heights l, 0 < x := by
  intro x hx
  have hlt := (mem_heights_iff.1 hx).2
  norm_num at hlt
  linarith

theorem heights_concat (l : List ℝ) (x : ℝ) :
    heights (l ++ [x]) = if 1e-5 < x then heights l ++ [x] else heights l := by
  rw [heights, List.filter_append, List.filter_singleton]
  by_cases h : (1e-5 : ℝ) < x
  · rw [if_pos h, decide_eq_true h]
    rfl
  · rw [if_neg h, decide_eq_false h]
    exact List.append_nil _

theorem depths_concat (l : List ℝ) (x : ℝ) :
    depths (l ++ [x]) = if 1e-5 < -x then depths l ++ [-x] else depths l := by
  rw [depths, List.map_append, List.map_singleton, heights_concat]
  rfl

/-- What a tally knows of the numbers it has seen. -/
structure Counts (limit : Extended) (l : List ℝ) (t : MagnitudeTally Extended) : Prop where
  /-- The interval of all of them. -/
  extent : t.extent.IsExtent limit l
  /-- Their logarithms below zero. -/
  below : t.below = LogSum.ofList (depths l)
  /-- Their logarithms above zero. -/
  above : t.above = LogSum.ofList (heights l)

theorem counts_empty (limit : Extended) : Counts limit [] empty where
  extent := Interval.isExtent_unset limit
  below := LogSum.ofList_nil.symm
  above := LogSum.ofList_nil.symm

/-- A real sample extends the extent, and is counted below or above zero. -/
theorem add_real (limit : Extended) (t : MagnitudeTally Extended) (x : ℝ) :
    t.add limit (real x) =
      if |x| ≤ 1e-5 then { t with extent := t.extent.extend (real x) limit }
      else if x < 0 then
        { t with
          extent := t.extent.extend (real x) limit
          below := t.below.add (real |x|) }
      else
        { t with
          extent := t.extent.extend (real x) limit
          above := t.above.add (real x) } := by
  have hinf : Scalar.isInfinite (real x) = false := by simp [Scalar.isInfinite]
  unfold add
  rw [hinf, if_neg Bool.false_ne_true]
  dsimp only
  rw [Extended.gridStep_eq, Extended.abs_real]
  simp only [Bool.not_eq_true', decide_eq_false_iff_not, Extended.real_lt_real, not_lt,
    Extended.ofNat_eq_real, Nat.cast_zero]

/-- A real sample is counted. -/
theorem Counts.add_real (h : Counts limit l t) (x : ℝ) :
    Counts limit (l ++ [x]) (t.add limit (real x)) := by
  have hextent := h.extent.extend x
  rw [MagnitudeTally.add_real]
  split
  · rename_i hle
    obtain ⟨hlow, hhigh⟩ := abs_le.1 hle
    refine ⟨hextent, ?_, ?_⟩
    · rw [depths_concat, if_neg (by linarith)]
      exact h.below
    · rw [heights_concat, if_neg (by linarith)]
      exact h.above
  · rename_i hlt
    rw [not_le] at hlt
    split
    · rename_i hneg
      rw [abs_of_neg hneg] at hlt ⊢
      refine ⟨hextent, ?_, ?_⟩
      · rw [depths_concat, if_pos hlt, ← LogSum.add_ofList _ (by linarith), ← h.below]
      · rw [heights_concat, if_neg (by norm_num at hlt ⊢; linarith)]
        exact h.above
    · rename_i hneg
      rw [abs_of_nonneg (not_lt.1 hneg)] at hlt
      refine ⟨hextent, ?_, ?_⟩
      · rw [depths_concat, if_neg (by norm_num at hlt ⊢; linarith)]
        exact h.below
      · rw [heights_concat, if_pos hlt,
          ← LogSum.add_ofList _ (lt_trans (by norm_num) hlt), ← h.above]

/-- What is not a real number changes nothing. -/
theorem add_eq_self {y : Extended} (h : y.toReal? = none) : t.add limit y = t := by
  have hfinite : Scalar.isFinite y = false := congrArg Option.isSome h
  cases y with
  | undefined =>
    unfold add
    rw [Interval.extend_of_isNaN _ limit Extended.isNaN_undefined]
    simp [Scalar.isInfinite]
  | value a =>
    have hinf : Scalar.isInfinite (value a) = true := by simp [Scalar.isInfinite, hfinite]
    exact if_pos hinf

theorem Counts.add (h : Counts limit l t) (y : Extended) :
    Counts limit (l ++ y.toReal?.toList) (t.add limit y) := by
  rcases y.toReal?_cases with hnone | ⟨x, rfl⟩
  · rw [hnone, add_eq_self hnone]
    simpa using h
  · rw [Extended.toReal?_real]
    exact h.add_real x

/-- All samples are counted. -/
theorem Counts.foldl (h : Counts limit l t) (ys : List Extended) :
    Counts limit (l ++ ys.filterMap Extended.toReal?) (ys.foldl (MagnitudeTally.add limit) t) := by
  induction ys generalizing l t with
  | nil => simpa using h
  | cons y ys ih =>
    have hrest := ih (h.add y)
    rw [List.append_assoc] at hrest
    rw [List.foldl_cons, List.filterMap_cons]
    cases hy : y.toReal? with
    | none => simpa [hy] using hrest
    | some x => simpa [hy] using hrest

/-! ## The upper end -/

theorem Counts.upper_eq (h : Counts limit l t) :
    t.upper = if heights l = [] then t.extent.upper
      else Scalar.smaller t.extent.upper (real (Real.exp 1 * geometricMean (heights l))) := by
  rw [upper, h.above, LogSum.scale?_ofList pos_of_mem_heights]
  split <;> simp_all

/-- What the upper end of the typical scale may be. -/
structure IsTypical (l : List ℝ) (i : Interval Extended) (s : Extended) : Prop where
  /-- It is not below the extent. -/
  lower_le : i.lower ≤ s
  /-- It is not above the extent. -/
  le_upper : s ≤ i.upper
  /-- It is not above the enlarged geometric mean. -/
  le_scale : heights l ≠ [] → s ≤ real (Real.exp 1 * geometricMean (heights l))
  /-- Unless it is that of the extent, it is above zero. -/
  eq_or_pos : s = i.upper ∨ 0 < s

theorem Counts.isTypical_upper (h : Counts limit l t) (hlimit : 0 < limit) (hne : l ≠ []) :
    IsTypical l t.extent t.upper := by
  have hordered : t.extent.lower ≤ t.extent.upper := by
    obtain ⟨x, hx, -⟩ := h.extent.exists_lower hne
    exact OrderedScalar.trans (h.extent.lower_le x hx) (h.extent.le_upper x hx)
  have hdef := (OrderedScalar.defined_of_le hordered).2
  rw [h.upper_eq]
  split
  · rename_i hnil
    exact ⟨hordered, Scalar.le_refl_of_defined hdef, fun hsome => absurd hnil hsome, .inl rfl⟩
  · rename_i hsome
    obtain ⟨x, hx, hle⟩ := exists_le_geometricMean hsome pos_of_mem_heights
    have hx0 := pos_of_mem_heights x hx
    have hlow : t.extent.lower ≤ real (Real.exp 1 * geometricMean (heights l)) := by
      have hxe : x ≤ Real.exp 1 * geometricMean (heights l) :=
        hle.trans (le_mul_of_one_le_left (hx0.le.trans hle) (Real.one_le_exp zero_le_one))
      exact OrderedScalar.trans (h.extent.lower_le x (mem_heights_iff.1 hx).1)
        (OrderedScalar.trans (Extended.clamp_le_self hlimit hx0.le) (Extended.real_le_real.2 hxe))
    have hpos : 0 < real (Real.exp 1 * geometricMean (heights l)) := by
      rw [Extended.ofNat_eq_real, Extended.real_lt_real, Nat.cast_zero]
      exact mul_pos (Real.exp_pos 1) (geometricMean_pos pos_of_mem_heights)
    rcases Scalar.smaller_cases hdef (Scalar.defined_of_lt hpos).2 with ⟨heq, hle⟩ | ⟨heq, hle⟩
    · rw [heq]
      exact ⟨hordered, Scalar.le_refl_of_defined hdef, fun _ => hle, .inl rfl⟩
    · rw [heq]
      exact ⟨hlow, hle, fun _ => Scalar.le_refl_of_defined (Scalar.defined_of_lt hpos).2, .inr hpos⟩

end MagnitudeTally

/-! ## Opposite samples -/

section

variable {K : Type} [Scalar K]

/-- The tally of the opposite samples. -/
def MagnitudeTally.negated (t : MagnitudeTally K) : MagnitudeTally K :=
  ⟨t.extent.negated, t.above, t.below⟩

/-- The curve with its searched coordinate turned into the opposite. -/
def Curve.negated (vertical : Bool) (curve : Curve K) : Curve K := fun context t =>
  let p := curve context t
  if vertical then ⟨-p.x, p.y⟩ else ⟨p.x, -p.y⟩

variable [InvolutiveScalar K]

theorem Scalar.neg_larger (s t : K) : -larger s t = smaller (-s) (-t) := by
  unfold larger smaller
  simp only [isNaN_neg, neg_lt_neg_iff]
  split
  · rfl
  · split <;> rfl

namespace MagnitudeTally

theorem negated_negated (t : MagnitudeTally K) : t.negated.negated = t := by
  simp only [negated, Interval.negated_negated]

end MagnitudeTally

end

section

variable {K : Type} [Precision K] [InvolutiveScalar K]

namespace MagnitudeTally

theorem upper_negated (t : MagnitudeTally K) : t.negated.upper = -t.lower := by
  simp only [upper, lower, negated, Interval.negated]
  cases t.below.scale? with
  | none => rfl
  | some scale =>
    dsimp only
    rw [Scalar.neg_larger, InvolutiveScalar.neg_neg]

theorem lower_negated (t : MagnitudeTally K) : t.negated.lower = -t.upper := by
  have h := upper_negated t.negated
  rw [negated_negated] at h
  rw [h, InvolutiveScalar.neg_neg]

end MagnitudeTally

omit [InvolutiveScalar K] in
theorem Viewport.axisSamples_negated (v : Viewport K) (curve : Curve K) (vertical : Bool) :
    v.axisSamples (curve.negated vertical) vertical =
      (v.axisSamples curve vertical).map (-·) := by
  unfold axisSamples
  rw [List.map_map]
  refine List.map_congr_left fun t _ => ?_
  cases vertical <;> rfl

end

variable {limit : Extended}

theorem Interval.extend_negated (hlimit : 0 < limit) (i : Interval Extended) (y : Extended) :
    i.negated.extend (-y) limit = (i.extend y limit).negated := by
  unfold extend
  rw [Scalar.isNaN_neg]
  split
  · rfl
  · rename_i hdef
    rw [Extended.clamp_neg hlimit (Bool.eq_false_iff.2 hdef)]
    simp only [negated, Scalar.isNaN_neg, Scalar.neg_lt_neg_iff, apply_ite (fun t : Extended => -t)]

namespace MagnitudeTally

/-- The opposite sample is counted on the other side. -/
theorem add_negated (hlimit : 0 < limit) (t : MagnitudeTally Extended) (y : Extended) :
    t.negated.add limit (-y) = (t.add limit y).negated := by
  rcases y.toReal?_cases with hnone | ⟨x, rfl⟩
  · rw [add_eq_self hnone, add_eq_self]
    rw [Extended.toReal?_neg, hnone]
    rfl
  · have hextent := Interval.extend_negated hlimit t.extent (real x)
    rw [Extended.neg_real] at hextent ⊢
    rw [add_real, add_real, abs_neg]
    split
    · rw [negated, negated, hextent]
    · rename_i hlt
      have hne : x ≠ 0 := fun hzero => hlt (by rw [hzero, abs_zero]; norm_num)
      rcases lt_or_gt_of_ne hne with hneg | hpos
      · rw [if_neg (by linarith), if_pos hneg, negated, negated, hextent, abs_of_neg hneg]
      · rw [if_pos (by linarith), if_neg (by linarith), negated, negated, hextent,
          abs_of_pos hpos]

theorem foldl_add_negated (hlimit : 0 < limit) (t : MagnitudeTally Extended)
    (ys : List Extended) :
    (ys.map (-·)).foldl (add limit) t.negated = (ys.foldl (add limit) t).negated := by
  induction ys generalizing t with
  | nil => rfl
  | cons y ys ih => rw [List.map_cons, List.foldl_cons, List.foldl_cons, add_negated hlimit, ih]

/-! ## Both ends -/

/-- The tally of a list of samples. -/
noncomputable def ofList (limit : Extended) (ys : List Extended) : MagnitudeTally Extended :=
  ys.foldl (add limit) empty

/-- The real numbers of a list. -/
noncomputable def reals (ys : List Extended) : List ℝ := ys.filterMap Extended.toReal?

theorem counts_ofList (limit : Extended) (ys : List Extended) :
    Counts limit (reals ys) (ofList limit ys) :=
  (counts_empty limit).foldl ys

theorem ofList_map_neg (hlimit : 0 < limit) (ys : List Extended) :
    ofList limit (ys.map (-·)) = (ofList limit ys).negated :=
  foldl_add_negated hlimit empty ys

theorem reals_map_neg (ys : List Extended) : reals (ys.map (-·)) = (reals ys).map (-·) := by
  rw [reals, reals, List.filterMap_map, List.map_filterMap]
  exact List.filterMap_congr fun y _ => Extended.toReal?_neg y

theorem mem_reals_iff {ys : List Extended} {x : ℝ} : x ∈ reals ys ↔ real x ∈ ys := by
  rw [reals, List.mem_filterMap]
  refine ⟨fun ⟨y, hy, hx⟩ => ?_, fun h => ⟨real x, h, Extended.toReal?_real x⟩⟩
  rcases y.toReal?_cases with hnone | ⟨z, rfl⟩
  · rw [hnone] at hx
    cases hx
  · rw [Extended.toReal?_real] at hx
    rwa [← Option.some.inj hx]

theorem reals_eq_nil_iff {ys : List Extended} :
    reals ys = [] ↔ ∀ y ∈ ys, Scalar.isFinite y = false := by
  rw [reals, List.filterMap_eq_nil_iff]
  refine forall₂_congr fun y _ => ?_
  rw [Extended.isFinite_eq, Option.isSome_eq_false_iff, Option.isNone_iff_eq_none]

variable {ys : List Extended}

/-- The lower end is the upper end of the opposite samples. -/
theorem isTypical_lower (hlimit : 0 < limit) (hne : reals ys ≠ []) :
    IsTypical ((reals ys).map (-·)) (ofList limit ys).extent.negated
      (-(ofList limit ys).lower) := by
  have hcounts := counts_ofList limit (ys.map (-·))
  rw [ofList_map_neg hlimit, reals_map_neg] at hcounts
  rw [← upper_negated]
  exact hcounts.isTypical_upper hlimit (by simpa using hne)

theorem upper_of_no_reals (h : reals ys = []) : (ofList limit ys).upper = undefined := by
  have hcounts := counts_ofList limit ys
  rw [h] at hcounts
  rw [hcounts.upper_eq, hcounts.extent.eq_unset rfl]
  rfl

theorem lower_of_no_reals (hlimit : 0 < limit) (h : reals ys = []) :
    (ofList limit ys).lower = undefined := by
  have hupper : (ofList limit (ys.map (-·))).upper = undefined :=
    upper_of_no_reals (by rw [reals_map_neg, h, List.map_nil])
  rw [ofList_map_neg hlimit, upper_negated] at hupper
  rw [← InvolutiveScalar.neg_neg (ofList limit ys).lower, hupper]
  rfl

/-- The ends of the typical scale are in order, inside the extent of the samples, and neither is
further from zero than the enlarged geometric mean on its side. -/
theorem ends_ofList (hlimit : 0 < limit) (hne : reals ys ≠ []) :
    let t := ofList limit ys
    t.extent.lower ≤ t.lower ∧ t.lower ≤ t.upper ∧ t.upper ≤ t.extent.upper ∧
      (heights (reals ys) ≠ [] →
        t.upper ≤ real (Real.exp 1 * geometricMean (heights (reals ys)))) ∧
      (depths (reals ys) ≠ [] →
        -real (Real.exp 1 * geometricMean (depths (reals ys))) ≤ t.lower) := by
  intro t
  have hupper := (counts_ofList limit ys).isTypical_upper hlimit hne
  have hlower := isTypical_lower hlimit hne
  have hlow : t.extent.lower ≤ t.lower := Scalar.neg_le_neg_iff.1 hlower.le_upper
  refine ⟨hlow, ?_, hupper.le_upper, hupper.le_scale, fun hsome => ?_⟩
  · rcases hupper.eq_or_pos with heq | hpos
    · rw [heq]
      exact Scalar.neg_le_neg_iff.1 hlower.lower_le
    · rcases hlower.eq_or_pos with heq | hneg
      · have heq' : t.lower = t.extent.lower := by
          rw [← InvolutiveScalar.neg_neg t.lower, heq, Interval.negated, InvolutiveScalar.neg_neg]
        rw [heq']
        exact hupper.lower_le
      · exact Scalar.le_of_lt (Scalar.lt_trans (Scalar.zero_lt_neg_iff.1 hneg) hpos)
  · have hle := SignedScalar.neg_le_neg (hlower.le_scale hsome)
    rwa [InvolutiveScalar.neg_neg] at hle

end MagnitudeTally

/-! ## The magnitude rectangle -/

/-- A rectangle with another searched axis. -/
def Rect.withAxis {K : Type} (vertical : Bool) (r : Rect K) (i : Interval K) : Rect K :=
  if vertical then { r with x := i } else { r with y := i }

/-- An unset interval is extended to two ends inside the limit. -/
theorem Interval.extend_extend_unset {lower upper : Extended} (hlo : -limit ≤ lower)
    (hle : lower ≤ upper) (hhi : upper ≤ limit) :
    ((unset : Interval Extended).extend upper limit).extend lower limit = ⟨lower, upper⟩ := by
  obtain ⟨hl, hu⟩ := OrderedScalar.defined_of_le hle
  have hfirst : (unset : Interval Extended).extend upper limit = ⟨upper, upper⟩ := by
    rw [extend_eq_join, spot_eq_of_mem (OrderedScalar.trans hlo hle) hhi]
    simp only [join, unset, Scalar.foremost_of_isNaN_left OrderedScalar.isNaN_nan hu]
  have hnot : Scalar.above lower upper = false :=
    decide_eq_false fun hlt => Scalar.not_le_of_lt hlt hle
  rw [hfirst, extend_eq_join, spot_eq_of_mem hlo (OrderedScalar.trans hle hhi), join]
  simp only [Scalar.foremost, hl, hu, hnot, Bool.false_eq_true, if_false, Bool.false_or]
  split
  · rfl
  · rename_i hlt
    have hge := Scalar.le_of_not_lt hu hl (of_decide_eq_false (Bool.eq_false_iff.2 hlt))
    rw [Extended.eq_of_le_of_le hle hge]

namespace Viewport

open MagnitudeTally (heights depths reals)

theorem fitMagnitude_eq (v : Viewport Extended) (curve : Curve Extended) (vertical : Bool) :
    let tally := MagnitudeTally.ofList v.limit (v.axisSamples curve vertical)
    v.fitMagnitude curve vertical =
      { v with
        magnitude := v.magnitude.withAxis vertical
          (((v.magnitude.axis vertical).extend tally.upper v.limit).extend
            tally.lower v.limit) } := by
  cases vertical <;> rfl

/-- The interval of two ends that a tally may have. -/
theorem extend_typical {limit : Extended} (hlimit : 0 < limit) (ys : List Extended) :
    let tally := MagnitudeTally.ofList limit ys
    (Interval.unset.extend tally.upper limit).extend tally.lower limit =
      ⟨tally.lower, tally.upper⟩ := by
  intro tally
  by_cases hne : reals ys = []
  · have hupper : tally.upper = undefined := MagnitudeTally.upper_of_no_reals hne
    have hlower : tally.lower = undefined := MagnitudeTally.lower_of_no_reals hlimit hne
    rw [hupper, hlower, Interval.extend_of_isNaN _ _ Extended.isNaN_undefined,
      Interval.extend_of_isNaN _ _ Extended.isNaN_undefined]
    rfl
  · obtain ⟨hlow, hle, hhigh, -⟩ := MagnitudeTally.ends_ofList hlimit hne
    have hextent := (MagnitudeTally.counts_ofList limit ys).extent
    obtain ⟨x, -, hx⟩ := hextent.exists_lower hne
    obtain ⟨y, -, hy⟩ := hextent.exists_upper hne
    have hroom : -limit ≤ limit := Scalar.neg_le_self (Scalar.le_of_lt hlimit)
    refine Interval.extend_extend_unset (OrderedScalar.trans ?_ hlow) hle
      (OrderedScalar.trans hhigh ?_)
    · rw [hx]
      exact (Scalar.clamp_mem (real x) hroom).1
    · rw [hy]
      exact (Scalar.clamp_mem (real y) hroom).2

/-- Fitting the magnitude of a curve along an axis that is unset gives it the typical scale of the
samples.  It stays unset exactly when no sample is finite; otherwise its ends are in order, between
the clamped samples, and neither is further from zero than `e` times the geometric mean of the
samples on its side, those about zero left out.  Nothing else changes, and the opposite curve gives
the opposite axis. -/
theorem fitMagnitude_typical (v : Viewport Extended) (curve : Curve Extended) (vertical : Bool)
    (hlimit : 0 < v.limit) (hunset : v.magnitude.axis vertical = Interval.unset) :
    let ys := v.axisSamples curve vertical
    let highs := heights (reals ys)
    let lows := depths (reals ys)
    ∃ axis : Interval Extended,
      v.fitMagnitude curve vertical =
        { v with magnitude := v.magnitude.withAxis vertical axis } ∧
      v.fitMagnitude (curve.negated vertical) vertical =
        { v with magnitude := v.magnitude.withAxis vertical axis.negated } ∧
      (axis = Interval.unset ↔ ∀ y ∈ ys, Scalar.isFinite y = false) ∧
      (axis ≠ Interval.unset → axis.lower ≤ axis.upper ∧
        (∃ y ∈ ys, Scalar.isFinite y = true ∧ Scalar.clamp y v.limit ≤ axis.lower) ∧
        ∃ y ∈ ys, Scalar.isFinite y = true ∧ axis.upper ≤ Scalar.clamp y v.limit) ∧
      (highs ≠ [] → axis.upper ≤ real (Real.exp 1 * geometricMean highs)) ∧
      (lows ≠ [] → -real (Real.exp 1 * geometricMean lows) ≤ axis.lower) := by
  intro ys highs lows
  have hends := extend_typical hlimit ys
  have hopposite := extend_typical hlimit (ys.map (-·))
  simp only [MagnitudeTally.ofList_map_neg hlimit, MagnitudeTally.upper_negated,
    MagnitudeTally.lower_negated] at hopposite
  refine ⟨⟨(MagnitudeTally.ofList v.limit ys).lower, (MagnitudeTally.ofList v.limit ys).upper⟩,
    ?_, ?_, ?_⟩
  · rw [fitMagnitude_eq, hunset, hends]
  · rw [fitMagnitude_eq, axisSamples_negated, hunset, MagnitudeTally.ofList_map_neg hlimit,
      MagnitudeTally.upper_negated, MagnitudeTally.lower_negated, hopposite]
    rfl
  rw [← MagnitudeTally.reals_eq_nil_iff]
  by_cases hne : reals ys = []
  · have hupper : (MagnitudeTally.ofList v.limit ys).upper = undefined :=
      MagnitudeTally.upper_of_no_reals hne
    have hhighs : highs = [] := congrArg heights hne
    have hlows : lows = [] := congrArg depths hne
    rw [hupper, MagnitudeTally.lower_of_no_reals hlimit hne]
    exact ⟨iff_of_true rfl hne, fun hset => absurd rfl hset, fun hsome => absurd hhighs hsome,
      fun hsome => absurd hlows hsome⟩
  · obtain ⟨hlow, hle, hhigh, hhighs, hlows⟩ := MagnitudeTally.ends_ofList hlimit hne
    have hextent := (MagnitudeTally.counts_ofList v.limit ys).extent
    obtain ⟨x, hx, hxlow⟩ := hextent.exists_lower hne
    obtain ⟨y, hy, hyhigh⟩ := hextent.exists_upper hne
    refine ⟨⟨fun heq => ?_, fun hnil => absurd hnil hne⟩, fun _ => ⟨hle, ?_, ?_⟩, hhighs, hlows⟩
    · have hdef := (OrderedScalar.defined_of_le hle).1
      have hlower : (MagnitudeTally.ofList v.limit ys).lower = Scalar.nan :=
        congrArg Interval.lower heq
      rw [hlower, OrderedScalar.isNaN_nan] at hdef
      cases hdef
    · exact ⟨real x, MagnitudeTally.mem_reals_iff.1 hx, Extended.isFinite_real x, hxlow ▸ hlow⟩
    · exact ⟨real y, MagnitudeTally.mem_reals_iff.1 hy, Extended.isFinite_real y, hyhigh ▸ hhigh⟩

/-- A line of height two is fitted without any limit. -/
theorem fitMagnitude_flat :
    let v : Viewport Extended := Viewport.new (-1) 1 1 {} (value ⊤)
    let curve : Curve Extended := fun _ t => ⟨t, real 2⟩
    0 < v.limit ∧ v.magnitude.axis false = Interval.unset ∧
      ∃ axis : Interval Extended, (v.fitMagnitude curve false).magnitude.y = axis ∧
        (v.fitMagnitude (curve.negated false) false).magnitude.y = axis.negated ∧
        axis ≠ Interval.unset := by
  intro v curve
  have hlimit : 0 < v.limit := Extended.zero_lt_value.2 EReal.zero_lt_top
  have hunset : v.magnitude.axis false = Interval.unset := rfl
  obtain ⟨axis, hfit, hopposite, hiff, -⟩ := fitMagnitude_typical v curve false hlimit hunset
  refine ⟨hlimit, hunset, axis, ?_, ?_, fun heq => ?_⟩
  · rw [hfit]
    rfl
  · rw [hopposite]
    rfl
  · have hlength : 0 < (spaced v.sanitized.x v.settings.sampleSize).length := by
      rw [length_spaced]
      exact Nat.succ_pos 159
    obtain ⟨t, ht⟩ := List.exists_mem_of_length_pos hlength
    have hfinite := hiff.1 heq (real 2) (List.mem_map.2 ⟨t, ht, rfl⟩)
    rw [Extended.isFinite_real] at hfinite
    cases hfinite

end Viewport

end CurveSurvey

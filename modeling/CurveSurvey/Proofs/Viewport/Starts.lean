import CurveSurvey.Proofs.Stride
import CurveSurvey.Proofs.Viewport.Limits
import CurveSurvey.Proofs.Viewport.Sides

/-!
# Where a sweep starts

The two sides of a sweep start a margin off the center of the bounds, and one more bracket
around the center joins them.

* `Viewport.rightCursor` and `Viewport.leftCursor` are the cursors that the sides begin
  with, and `Viewport.centralBracket` is the bracket between them.
* The margin is positive (`Viewport.margin_pos`), so the center lies between the two
  starts (`Viewport.center_between`).
-/

namespace CurveSurvey

open Machine

/-- The center of an interval between finite numbers is finite. -/
theorem Interval.isFinite_center {i : Interval Float32} (hl : Scalar.isFinite i.lower = true)
    (hu : Scalar.isFinite i.upper = true) : Scalar.isFinite i.center = true := by
  obtain ⟨l, hl⟩ := exists_represents hl
  obtain ⟨u, hu⟩ := exists_represents hu
  have hcenter : ∀ {limit : Float32} {m : ℝ}, Represents limit m → 1 ≤ m → |l| ≤ m → |u| ≤ m →
      Scalar.isFinite i.center = true := by
    intro limit m hm h1 hlm hum
    obtain ⟨c, hc, -⟩ := exists_center hl hu hm h1 hlm hum
    exact hc.isFinite
  rcases le_total |l| |u| with hle | hle
  · rcases le_total 1 |u| with h1 | h1
    · exact hcenter hu.abs h1 hle le_rfl
    · exact hcenter represents_one le_rfl (hle.trans h1) h1
  · rcases le_total 1 |l| with h1 | h1
    · exact hcenter hl.abs h1 le_rfl hle
    · exact hcenter represents_one le_rfl h1 (hle.trans h1)

namespace Viewport

section

variable {K : Type} [Precision K]

/-- The cursor of the right side of a sweep. -/
def rightCursor (v : Viewport K) : Cursor K :=
  .new (v.bounds.center + v.margin v.bounds.center) v.bounds.upper

/-- The cursor of the left side of a sweep. -/
def leftCursor (v : Viewport K) : Cursor K :=
  .new (v.bounds.center - v.margin v.bounds.center) v.bounds.lower

/-- The bracket around the center. -/
def centralBracket (v : Viewport K) (w : Sweep K) : Bracket K :=
  let c := v.bounds.center
  ⟨Point.sample (w.f v.context) (c - v.margin c), Point.sample (w.f v.context) c,
    Point.sample (w.f v.context) (c + v.margin c)⟩

variable {v : Viewport K} {w : Sweep K}

theorem centralPoint?_eq : v.centralPoint? w =
    if (v.centralBracket w).notable.isNone then none
    else some (w.shown (v.centralBracket w).middle) := rfl

end

/-! ## The margin -/

theorem Settings.Reachable.marginAroundZero_pos {s : Settings Float32} (h : s.Reachable) :
    (0 : Float32) < s.marginAroundZero := by
  induction h with
  | standard => decide +kernel
  | withSampleSize _ h ih =>
    unfold Settings.withSampleSize at h
    split at h <;> cases h
    exact ih
  | withPointCaps _ h ih =>
    unfold Settings.withPointCaps at h
    split at h <;> cases h
    exact ih
  | withMarginAroundZero _ h ih =>
    unfold Settings.withMarginAroundZero at h
    split at h
    · cases h
    · rename_i hmargin
      cases h
      simp only [Bool.or_eq_true, Bool.not_eq_true', decide_eq_true_eq, not_or,
        Bool.not_eq_false] at hmargin
      obtain ⟨m, hm⟩ := exists_represents hmargin.1
      exact Scalar.lt_of_not_le isNaN_zero hm.defined hmargin.2
  | withAsymptoteThreshold _ h ih =>
    unfold Settings.withAsymptoteThreshold at h
    split at h <;> cases h
    exact ih
  | withDichotomyIterations _ n ih => exact ih
  | withMinimalCoverage _ h ih =>
    unfold Settings.withMinimalCoverage at h
    split at h <;> cases h
    exact ih

/-- The margin around the center is positive. -/
theorem margin_pos {v : Viewport Float32} (hv : v.settings.Reachable) (c : Float32) :
    0 < v.margin c := by
  have hpos := hv.marginAroundZero_pos
  unfold margin Scalar.larger
  rw [(Scalar.defined_of_lt hpos).2]
  simp only [Bool.false_eq_true, if_false]
  split
  · rename_i hlt
    exact Scalar.lt_trans hpos hlt
  · exact hpos

/-- The center of the bounds is not outside the two starts. -/
theorem center_between {v : Viewport Float32} (hv : v.settings.Reachable)
    (hl : Scalar.isFinite v.bounds.lower = true) (hu : Scalar.isFinite v.bounds.upper = true) :
    v.leftCursor.position ≤ v.bounds.center ∧ v.bounds.center ≤ v.rightCursor.position := by
  obtain ⟨c, hc⟩ := exists_represents (Interval.isFinite_center hl hu)
  obtain ⟨-, hmargin, hpos⟩ := lt_iff_val.1 (margin_pos hv v.bounds.center)
  rw [val_zero] at hpos
  have hsum := hc.defined_add hmargin
  have hdiff : Scalar.isNaN (v.bounds.center - v.margin v.bounds.center) = false := by
    rw [← Bool.not_eq_true, isNaN_sub_iff]
    simp [hc.defined, hmargin, hc.val_eq]
  refine ⟨le_iff_val.2 ⟨hdiff, hc.defined, (result_sub hdiff).le_of_le _ hc.defined ?_⟩,
    le_iff_val.2 ⟨hc.defined, hsum, (result_add hsum).ge_of_ge _ hc.defined ?_⟩⟩
  · rw [sub_eq_add_neg]
    exact add_le_of_nonpos_right (by simpa using EReal.neg_le_neg_iff.2 hpos.le)
  · exact le_add_of_nonneg_right hpos.le

end Viewport

end CurveSurvey

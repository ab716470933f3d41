import CurveSurvey.Viewport.Settings

/-!
# Reachable settings of a viewport

The fields of the settings can only be changed by the setters, each of which
refuses what cannot be used.  What the setters check holds of all settings that
they can lead to (`Viewport.Settings.Reachable`).
-/

namespace CurveSurvey

namespace Viewport.Settings

variable {K : Type} [Scalar K]

/-- The settings that the setters can lead to. -/
inductive Reachable : Settings K → Prop where
  /-- Every sequence of settings begins with the standard ones. -/
  | standard : Reachable Settings.standard
  | withSampleSize {s t : Settings K} {n : Nat} (hs : Reachable s)
      (h : s.withSampleSize n = .ok t) : Reachable t
  | withPointCaps {s t : Settings K} {m n : Nat} (hs : Reachable s)
      (h : s.withPointCaps m n = .ok t) : Reachable t
  | withMarginAroundZero {s t : Settings K} {margin : K} (hs : Reachable s)
      (h : s.withMarginAroundZero margin = .ok t) : Reachable t
  | withAsymptoteThreshold {s t : Settings K} {threshold hysteresis : K} (hs : Reachable s)
      (h : s.withAsymptoteThreshold threshold hysteresis = .ok t) : Reachable t
  | withDichotomyIterations {s : Settings K} (hs : Reachable s) (n : Nat) :
      Reachable (s.withDichotomyIterations n)
  | withMinimalCoverage {s t : Settings K} {coverage : K} (hs : Reachable s)
      (h : s.withMinimalCoverage coverage = .ok t) : Reachable t

/-- Some points of an endless side are shown, and fewer than it takes to be endless. -/
theorem Reachable.caps {s : Settings K} (h : Reachable s) :
    0 < s.maxPointsIfInfinite ∧ s.maxPointsIfInfinite < s.maxPointsOnOneSide := by
  induction h with
  | standard => simp [Settings.standard]
  | withSampleSize _ h ih =>
    unfold Settings.withSampleSize at h
    split at h <;> cases h
    exact ih
  | withPointCaps _ h ih =>
    unfold Settings.withPointCaps at h
    split at h
    · cases h
    · rename_i hcaps
      cases h
      simpa [Nat.pos_iff_ne_zero] using hcaps
  | withMarginAroundZero _ h ih =>
    unfold Settings.withMarginAroundZero at h
    split at h <;> cases h
    exact ih
  | withAsymptoteThreshold _ h ih =>
    unfold Settings.withAsymptoteThreshold at h
    split at h <;> cases h
    exact ih
  | withDichotomyIterations _ n ih => exact ih
  | withMinimalCoverage _ h ih =>
    unfold Settings.withMinimalCoverage at h
    split at h <;> cases h
    exact ih

end Viewport.Settings

end CurveSurvey

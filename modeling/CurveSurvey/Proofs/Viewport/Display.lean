import CurveSurvey.Proofs.Viewport.Contributions
import CurveSurvey.Proofs.Viewport.Limits
import CurveSurvey.Viewport.Magnitude

/-!
# Every window can be shown

Whatever a viewport was told, and whichever curves it was fitted to, its window has
two axes that are set, inside the limit, and not empty.

* `Call` is anything that can be done to a viewport, `Call.runs` what a list of
  calls makes of it.
* `Viewport.Sound` is the invariant of all calls: the ends of no interval are the
  wrong way around.  The magnitude rectangle is not part of it, since extending an
  axis puts the ends in order whatever it is extended by.
* `Viewport.isProper_pretty` carries the ends through the infinities and undefined
  numbers up to the last step.
* `Call.always_displayable` is the result.
-/

namespace CurveSurvey

open Machine

/-! ## Ends in order -/

namespace Interval

section

variable {K : Type} [Scalar K]

/-- The ends are not the wrong way around; they may be undefined. -/
def Ordered (i : Interval K) : Prop := ¬ i.upper < i.lower

variable [OrderedScalar K] {i : Interval K}

theorem ordered_of_le (h : i.lower ≤ i.upper) : i.Ordered := fun hlt => Scalar.not_le_of_lt hlt h

theorem ordered_of_isNaN_lower (h : Scalar.isNaN i.lower = true) : i.Ordered := by
  intro hlt
  rw [(Scalar.defined_of_lt hlt).2] at h
  cases h

theorem ordered_of_isNaN_upper (h : Scalar.isNaN i.upper = true) : i.Ordered := by
  intro hlt
  rw [(Scalar.defined_of_lt hlt).1] at h
  cases h

theorem ordered_unset : (unset : Interval K).Ordered :=
  ordered_of_isNaN_lower OrderedScalar.isNaN_nan

theorem ordered_between (s t : K) : (between s t).Ordered := by
  unfold between
  split
  · rename_i hlt
    exact Scalar.lt_asymm hlt
  · rename_i hlt
    exact hlt

theorem Ordered.le (h : i.Ordered) (hset : i.isSet = true) : i.lower ≤ i.upper := by
  simp only [isSet, Bool.and_eq_true, Bool.not_eq_true'] at hset
  exact Scalar.le_of_not_lt hset.1 hset.2 h

/-- Joining with an interval inside a limit keeps the ends in order. -/
theorem Ordered.join {limit : K} {j : Interval K} (hi : i.Ordered) (hj : Within limit j) :
    (i.join j).Ordered := by
  rcases hj with ⟨hl, hu⟩ | ⟨-, hle, -⟩
  · simpa only [Ordered, Interval.join, Scalar.foremost_of_isNaN_right hl,
      Scalar.foremost_of_isNaN_right hu] using hi
  · obtain ⟨hl, hu⟩ := OrderedScalar.defined_of_le hle
    obtain ⟨hlow, hup⟩ := covers_join_right i j
    exact ordered_of_le (OrderedScalar.trans (hlow hl) (OrderedScalar.trans hle (hup hu)))

end

variable {i : Interval Float32}

theorem isProper_of_le (h : i.lower ≤ i.upper) : i.IsProper := .inr (.inl h)

theorem IsProper.ordered (h : i.IsProper) : i.Ordered := by
  rcases h with h | h | ⟨h, -⟩
  · exact ordered_of_isNaN_lower h
  · exact ordered_of_le h
  · exact ordered_of_isNaN_upper h

/-- Extending an interval puts its ends in order. -/
theorem IsProper.extend (h : i.IsProper) (t limit : Float32) : (i.extend t limit).IsProper := by
  cases ht : Scalar.isNaN t with
  | true =>
    rw [extend_of_isNaN i limit ht]
    exact h
  | false => exact isProper_of_le (extend_le ht i limit)

/-- An interval between two numbers is proper, unless only the second is undefined. -/
theorem isProper_between {s t : Float32}
    (h : Scalar.isNaN t = true → Scalar.isNaN s = true ∨ val s = ⊥) : (between s t).IsProper := by
  unfold between
  split
  · rename_i hlt
    exact isProper_of_le (Scalar.le_of_lt hlt)
  · rename_i hlt
    cases ht : Scalar.isNaN t with
    | true =>
      rcases h ht with hs | hs
      · exact .inl hs
      · exact .inr (.inr ⟨ht, hs⟩)
    | false =>
      cases hs : Scalar.isNaN s with
      | true => exact .inl hs
      | false => exact isProper_of_le (Scalar.le_of_not_lt hs ht hlt)

/-- Going up from an end. -/
theorem isProper_between_add {s t : Float32} (hs : Scalar.isNaN s = false)
    (ht : Scalar.isNaN t = false) (h : 0 ≤ val t) : (between s (s + t)).IsProper := by
  refine isProper_between fun hnan => .inr ?_
  rcases isNaN_add_iff.1 hnan with h' | h' | ⟨-, hbot⟩ | ⟨hbot, -⟩
  · rw [hs] at h'
    cases h'
  · rw [ht] at h'
    cases h'
  · rw [hbot] at h
    exact absurd h (by simp)
  · exact hbot

/-- Going the same way up and down from a center. -/
theorem isProper_between_sub_add (c : Float32) {half : Float32} (h : 0 ≤ val half) :
    (between (c - half) (c + half)).IsProper := by
  refine isProper_between fun hnan => ?_
  cases hdiff : Scalar.isNaN (c - half) with
  | true => exact .inl rfl
  | false =>
    right
    obtain ⟨hc, hhalf⟩ := defined_of_sub hdiff
    rcases isNaN_add_iff.1 hnan with h' | h' | ⟨-, hbot⟩ | ⟨hbot, htop⟩
    · rw [hc] at h'
      cases h'
    · rw [hhalf] at h'
      cases h'
    · rw [hbot] at h
      exact absurd h (by simp)
    · -- the center is at the lower infinity, and so is the point below it
      have hres := (result_sub hdiff).le_of_le c hc
      rw [hbot] at hres
      simpa using hres

/-! ## Lengths -/

/-- The length of an interval is not negative. -/
theorem Ordered.val_length_nonneg (h : i.Ordered) : 0 ≤ val i.length := by
  rw [length]
  cases hnan : Scalar.isNaN (i.upper - i.lower) with
  | true => rw [val_of_isNaN hnan]
  | false =>
    obtain ⟨hu, hl⟩ := defined_of_sub hnan
    have hle := (le_iff_val.1 (Scalar.le_of_not_lt hl hu h)).2.2
    have hinf : ¬ (val i.upper = ⊤ ∧ val i.lower = ⊤) ∧ ¬ (val i.upper = ⊥ ∧ val i.lower = ⊥) := by
      constructor <;> intro hboth
      · simp [isNaN_sub_iff.2 (.inr (.inr (.inl hboth)))] at hnan
      · simp [isNaN_sub_iff.2 (.inr (.inr (.inr hboth)))] at hnan
    rw [not_and_or, not_and_or] at hinf
    have := (result_sub hnan).ge_of_ge 0 isNaN_zero
      (by simpa using (EReal.sub_nonneg hinf.1 hinf.2).2 hle)
    simpa using this

end Interval

namespace Viewport

/-! ## The steps toward the window -/

/-- At most one axis is resized. -/
theorem pretty_eq_or {K : Type} [Scalar K] (v : Viewport K) (force : Bool) :
    v.pretty force = v.scaled ∨
      v.pretty force =
        ⟨resizeAxis v.scaled.x v.interesting.x (v.scaled.y.length / v.ratio), v.scaled.y⟩ ∨
      v.pretty force =
        ⟨v.scaled.x, resizeAxis v.scaled.y v.interesting.y (v.scaled.x.length * v.ratio)⟩ := by
  have hchoice : ∀ (resizeX resizeY : Bool) (r s t : Rect K),
      (if resizeX = true then s else if resizeY = true then t else r) = r ∨
        (if resizeX = true then s else if resizeY = true then t else r) = s ∨
          (if resizeX = true then s else if resizeY = true then t else r) = t := by
    intro resizeX resizeY r s t
    cases resizeX <;> cases resizeY <;> simp
  exact hchoice _ _ _ _ _

variable {v : Viewport Float32}

theorem val_half_nonneg : 0 ≤ val (0.5 : Float32) := by
  rw [represents_half.val_eq, EReal.coe_nonneg]
  norm_num

theorem val_defaultHalfLength_nonneg : 0 ≤ val (Interval.defaultHalfLength : Float32) := by
  have h : (0 : Float32) ≤ Interval.defaultHalfLength := by decide +kernel
  simpa using (le_iff_val.1 h).2.2

theorem isProper_sanitizeAxis {axis other : Interval Float32} {ratio : Float32}
    (haxis : axis.Ordered) (hother : other.Ordered) (hratio : 0 ≤ val ratio) :
    (sanitizeAxis axis other ratio).IsProper := by
  have hproper : (if axis.isSet = true then axis else Interval.between 0 0).IsProper := by
    split
    · rename_i h
      exact Interval.isProper_of_le (haxis.le h)
    · exact Interval.isProper_between fun h => absurd h (by simp)
  have hlength : 0 ≤ val (if other.isSet = true then other.length else 0) := by
    split
    · exact hother.val_length_nonneg
    · simp
  rw [sanitizeAxis]
  generalize (if axis.isSet = true then axis else Interval.between 0 0) = axis at hproper
  generalize (if other.isSet = true then other.length else 0) = otherLength at hlength
  split
  · exact hproper
  · refine Interval.isProper_between_sub_add axis.lower ?_
    split
    · exact val_defaultHalfLength_nonneg
    · exact val_mul_nonneg (val_mul_nonneg hratio val_half_nonneg) hlength

theorem isProper_resizeAxis (axis interesting : Interval Float32) {length : Float32}
    (h : 0 ≤ val length) : (resizeAxis axis interesting length).IsProper := by
  have hhalf : 0 ≤ val (0.5 * length) := val_mul_nonneg val_half_nonneg h
  rw [resizeAxis]
  split
  · rename_i hlt
    obtain ⟨hlower, hdiff⟩ := Scalar.defined_of_lt hlt
    -- an undefined length has an undefined half, and nothing is below that
    refine Interval.isProper_between_add hlower ?_ h
    cases hnan : Scalar.isNaN length with
    | false => rfl
    | true =>
      have := (defined_of_sub hdiff).2
      rw [isNaN_mul_of_right hnan] at this
      cases this
  · split
    · rename_i hlt
      refine Interval.isProper_between fun hnan => ?_
      rw [(Scalar.defined_of_lt hlt).2] at hnan
      cases hnan
    · exact Interval.isProper_between_sub_add _ hhalf

/-! ## The invariant -/

/-- What every call keeps. -/
structure Sound (v : Viewport Float32) : Prop where
  /-- The settings were made by the setters. -/
  settings : v.settings.Reachable
  /-- The ratio is positive. -/
  ratio_pos : 0 < v.ratio
  /-- The limit is at least one. -/
  one_le_limit : 1 ≤ v.limit
  /-- The limit is finite. -/
  isFinite_limit : Scalar.isFinite v.limit = true
  /-- The ends of the interesting rectangle are in order. -/
  interesting : v.interesting.x.Ordered ∧ v.interesting.y.Ordered
  /-- So are those of the forced one. -/
  forced : v.forced.x.Ordered ∧ v.forced.y.Ordered

theorem Sound.val_ratio_pos (h : v.Sound) : 0 < val v.ratio := by
  simpa using (lt_iff_val.1 h.ratio_pos).2.2

theorem Sound.isProper_sanitized (h : v.Sound) :
    v.sanitized.x.IsProper ∧ v.sanitized.y.IsProper := by
  have hone : 0 ≤ val (1 : Float32) := by
    rw [represents_one.val_eq, EReal.coe_nonneg]
    exact zero_le_one
  have hx : v.sanitized.x.IsProper := by
    rw [sanitized]
    dsimp only
    split
    · rename_i hset
      exact Interval.isProper_of_le (h.forced.1.le hset)
    · exact isProper_sanitizeAxis h.interesting.1 h.interesting.2
        (val_div_nonneg hone h.val_ratio_pos)
  refine ⟨hx, ?_⟩
  have hother := hx.ordered
  rw [sanitized] at hother ⊢
  dsimp only at hother ⊢
  split
  · rename_i hset
    exact Interval.isProper_of_le (h.forced.2.le hset)
  · exact isProper_sanitizeAxis h.interesting.2 hother h.val_ratio_pos.le

theorem Sound.isProper_scaled (h : v.Sound) : v.scaled.x.IsProper ∧ v.scaled.y.IsProper := by
  obtain ⟨hx, hy⟩ := h.isProper_sanitized
  exact ⟨(hx.extend _ _).extend _ _, (hy.extend _ _).extend _ _⟩

theorem Sound.isProper_pretty (h : v.Sound) (force : Bool) :
    (v.pretty force).x.IsProper ∧ (v.pretty force).y.IsProper := by
  obtain ⟨hx, hy⟩ := h.isProper_scaled
  have hxNormal : 0 ≤ val (v.scaled.y.length / v.ratio) :=
    val_div_nonneg hy.ordered.val_length_nonneg h.val_ratio_pos
  have hyNormal : 0 ≤ val (v.scaled.x.length * v.ratio) :=
    val_mul_nonneg hx.ordered.val_length_nonneg h.val_ratio_pos.le
  rcases v.pretty_eq_or force with heq | heq | heq
  · rw [heq]
    exact ⟨hx, hy⟩
  · rw [heq]
    exact ⟨isProper_resizeAxis _ _ hxNormal, hy⟩
  · rw [heq]
    exact ⟨hx, isProper_resizeAxis _ _ hyNormal⟩

/-- The value of a finite limit of at least one. -/
theorem Sound.exists_represents_limit (h : v.Sound) : ∃ m : ℝ, Represents v.limit m ∧ 1 ≤ m := by
  obtain ⟨m, hm⟩ := exists_represents h.isFinite_limit
  exact ⟨m, hm, (represents_one.le_iff hm).1 h.one_le_limit⟩

/-- The window of a sound viewport can be shown. -/
theorem Sound.isDisplayable_window (h : v.Sound) (force : Bool) :
    Interval.IsDisplayable v.limit (v.window force).x ∧
      Interval.IsDisplayable v.limit (v.window force).y := by
  obtain ⟨m, hm, h1⟩ := h.exists_represents_limit
  obtain ⟨hx, hy⟩ := h.isProper_pretty force
  exact ⟨Interval.isDisplayable_displayable hm h1 hx, Interval.isDisplayable_displayable hm h1 hy⟩

end Viewport

/-! ## Calls -/

/-- An axis as a caller gives it. -/
inductive GivenAxis (K : Type) where
  /-- An unset axis. -/
  | unset
  /-- The axis between two numbers, given in either order. -/
  | between (s t : K)

namespace GivenAxis

variable {K : Type} [Scalar K]

/-- The interval of an axis. -/
def interval : GivenAxis K → Interval K
  | unset => Interval.unset
  | between s t => Interval.between s t

theorem ordered_interval [OrderedScalar K] (a : GivenAxis K) : a.interval.Ordered := by
  cases a with
  | unset => exact Interval.ordered_unset
  | between s t => exact Interval.ordered_between s t

end GivenAxis

/-- Anything that can be done to a viewport. -/
inductive Call (K : Type) where
  /-- Changes the interval that the parameter runs through. -/
  | setBounds (start goal : K)
  /-- Pins the set axes. -/
  | setForced (x y : GivenAxis K)
  /-- Extends the interesting rectangle. -/
  | fit (f : Fit K)
  /-- Extends the magnitude rectangle. -/
  | fitMagnitude (curve : Curve K) (vertical : Bool)

namespace Call

section

variable {K : Type} [Precision K]

/-- The viewport after a call. -/
def run (v : Viewport K) : Call K → Viewport K
  | setBounds start goal => v.setBounds start goal
  | setForced x y => v.setForced ⟨x.interval, y.interval⟩
  | fit f => f.run v
  | fitMagnitude curve vertical => v.fitMagnitude curve vertical

/-- The viewport after a list of calls. -/
def runs (v : Viewport K) (calls : List (Call K)) : Viewport K := calls.foldl run v

end

variable {v : Viewport Float32}

theorem limit_run (v : Viewport Float32) (hv : v.settings.Reachable) (call : Call Float32) :
    (call.run v).limit = v.limit := by
  cases call with
  | setBounds start goal => rfl
  | setForced x y => rfl
  | fit f => rw [run, f.run_eq v hv]
  | fitMagnitude curve vertical => rfl

theorem sound_run (h : v.Sound) (call : Call Float32) : (call.run v).Sound := by
  have hlimit : -v.limit ≤ v.limit := by
    obtain ⟨m, hm, h1⟩ := h.exists_represents_limit
    exact (hm.neg.le_iff hm).2 (by linarith)
  cases call with
  | setBounds start goal => exact { h with }
  | setForced x y => exact { h with forced := ⟨x.ordered_interval, y.ordered_interval⟩ }
  | fit f =>
    rw [run, f.run_eq v h.settings]
    obtain ⟨hx, hy⟩ := Fit.within_contribution hlimit v.bounds h.settings v.context f
    exact { h with interesting := ⟨h.interesting.1.join hx, h.interesting.2.join hy⟩ }
  | fitMagnitude curve vertical => exact { h with }

theorem sound_runs (h : v.Sound) (calls : List (Call Float32)) :
    (runs v calls).Sound ∧ (runs v calls).limit = v.limit := by
  induction calls generalizing v with
  | nil => exact ⟨h, rfl⟩
  | cons call calls ih =>
    obtain ⟨hsound, hlimit⟩ := ih (sound_run h call)
    exact ⟨hsound, hlimit.trans (limit_run v h.settings call)⟩

/-- The window can be shown after any list of calls, and so can what any rectangle is
sanitized to. -/
theorem always_displayable {ratio limit : Float32} {settings : Viewport.Settings Float32}
    (hratio : 0 < ratio) (hlimit : 1 ≤ limit) (hfinite : Scalar.isFinite limit = true)
    (hsettings : settings.Reachable) :
    (∀ (start goal : Float32) (context : Context) (calls : List (Call Float32)) (force : Bool),
      let v := Viewport.new start goal ratio context limit settings
      let window := (runs v calls).window force
      window.x.IsDisplayable limit ∧ window.y.IsDisplayable limit) ∧
    ∀ x y : GivenAxis Float32,
      let window := Viewport.sanitize ⟨x.interval, y.interval⟩ ratio limit
      window.x.IsDisplayable limit ∧ window.y.IsDisplayable limit := by
  constructor
  · intro start goal context calls force v window
    have hv : v.Sound :=
      { settings := hsettings
        ratio_pos := hratio
        one_le_limit := hlimit
        isFinite_limit := hfinite
        interesting := ⟨Interval.ordered_unset, Interval.ordered_unset⟩
        forced := ⟨Interval.ordered_unset, Interval.ordered_unset⟩ }
    obtain ⟨hsound, heq⟩ := sound_runs hv calls
    have h := hsound.isDisplayable_window force
    rw [heq] at h
    exact h
  · intro x y window
    have hv : Viewport.Sound
        { Viewport.new (-limit) limit ratio {} limit with
          interesting := ⟨x.interval, y.interval⟩ } :=
      { settings := .standard
        ratio_pos := hratio
        one_le_limit := hlimit
        isFinite_limit := hfinite
        interesting := ⟨x.ordered_interval, y.ordered_interval⟩
        forced := ⟨Interval.ordered_unset, Interval.ordered_unset⟩ }
    exact hv.isDisplayable_window false

/-- An axis forced from one infinity to the other, and a curve without ordinates. -/
theorem displayable_infinite_axis :
    (0 : Float32) < 1 ∧ (1 : Float32) ≤ 100 ∧ Scalar.isFinite (100 : Float32) = true ∧
      let v := runs (Viewport.new (-1) 1 1 {} (100 : Float32))
        [.setForced (.between Scalar.infinity (-Scalar.infinity)) .unset,
          .fitMagnitude (fun _ t => ⟨t, Scalar.nan⟩) false]
      (v.window true).x.IsDisplayable 100 ∧ (v.window true).y.IsDisplayable 100 := by
  have hratio : (0 : Float32) < 1 := by decide +kernel
  have hlimit : (1 : Float32) ≤ 100 := by decide +kernel
  have hfinite : Scalar.isFinite (100 : Float32) = true := rfl
  refine ⟨hratio, hlimit, hfinite, ?_⟩
  exact (always_displayable hratio hlimit hfinite .standard).1 (-1) 1 {} _ true

end Call

end CurveSurvey

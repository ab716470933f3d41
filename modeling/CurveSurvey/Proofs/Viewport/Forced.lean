import CurveSurvey.Proofs.Distance
import CurveSurvey.Proofs.Viewport.Display

/-!
# Forced axes

A forced axis that can be shown as it is takes part in every step toward the window but
one: it is never resized, but it is still extended by the magnitude rectangle.

* `Interval.Showable` says that an axis can be shown as it is, and
  `Interval.Showable.displayable_eq` that it then is.
* `Viewport.window_axis_of_forced` is what the window makes of a forced axis.
* `Call.forced_axis_shown` is the result: after any list of calls a forced axis is shown
  as it is exactly when it covers the magnitudes, and so whenever no magnitudes were
  taken along it.  Otherwise it grows (`Call.forced_axis_grows`).
-/

namespace CurveSurvey

open Machine

/-! ## Axes that can be shown as they are -/

namespace Interval

section

variable {K : Type} [Scalar K]

/-- An axis that is set, inside the limit, and long enough for its center. -/
structure Showable (limit : K) (i : Interval K) : Prop where
  /-- The lower end is inside the limit. -/
  lower : -limit ≤ i.lower
  /-- The upper end is inside the limit. -/
  upper : i.upper ≤ limit
  /-- The axis is long enough. -/
  long : minimalLength i.center ≤ i.length

variable [OrderedScalar K] {limit : K} {i m : Interval K}

theorem Showable.isSet (h : Showable limit i) : i.isSet = true := by
  simp [Interval.isSet, (OrderedScalar.defined_of_le h.lower).2,
    (OrderedScalar.defined_of_le h.upper).1]

/-- What moving the ends of an unset axis to those of an axis inside the limit gives. -/
theorem displayable_eq_setUpper (hlo : -limit ≤ i.lower) (hhi : i.lower ≤ limit) :
    Viewport.displayable i limit = (⟨i.lower, Scalar.nan⟩ : Interval K).setUpper i.upper limit := by
  have hshort : isShort (⟨i.lower, Scalar.nan⟩ : Interval K) = false := by
    simp [isShort, Interval.isSet, OrderedScalar.isNaN_nan]
  rw [Viewport.displayable, setLower, clamp_eq_self hlo hhi]
  simp only [unset, hshort, Bool.false_eq_true, if_false]

/-- An axis inside the limit that is long enough is not changed by the limit. -/
theorem displayable_of_not_isShort (hlo : -limit ≤ i.lower) (hle : i.lower ≤ i.upper)
    (hhi : i.upper ≤ limit) (h : i.isShort = false) : Viewport.displayable i limit = i := by
  rw [displayable_eq_setUpper hlo (OrderedScalar.trans hle hhi), setUpper,
    clamp_eq_self (OrderedScalar.trans hlo hle) hhi]
  simp only [h, Bool.false_eq_true, if_false]

/-! ## Extension by an interval -/

theorem covers_extend (i : Interval K) (t limit : K) : Covers (i.extend t limit) i := by
  rw [extend_eq_join]
  exact covers_join i _

theorem covers_extend_spot (i : Interval K) (t limit : K) :
    Covers (i.extend t limit) (spot t limit) := by
  rw [extend_eq_join]
  exact covers_join_right i _

/-- A value inside an interval does not extend it. -/
theorem extend_eq_self {t : K} (hlo : -limit ≤ t) (hhi : t ≤ limit) (hl : i.lower ≤ t)
    (hu : t ≤ i.upper) : i.extend t limit = i := by
  have hnot : ¬ t < i.lower := fun h => Scalar.not_le_of_lt h hl
  have hnot' : ¬ i.upper < t := fun h => Scalar.not_le_of_lt h hu
  rw [extend, (OrderedScalar.defined_of_le hhi).1, clamp_eq_self hlo hhi]
  simp [(OrderedScalar.defined_of_le hl).1, (OrderedScalar.defined_of_le hu).2, hnot, hnot']

/-- An interval is not extended by what it covers. -/
theorem extendInterval_eq_self (hm : Within limit m) (h : Covers i m) :
    i.extendInterval m limit = i := by
  rcases hm with ⟨hl, hu⟩ | ⟨hlo, hle, hhi⟩
  · rw [extendInterval, extend_of_isNaN _ _ hl, extend_of_isNaN _ _ hu]
  · obtain ⟨hl, hu⟩ := OrderedScalar.defined_of_le hle
    have hlower := h.1 hl
    have hupper := h.2 hu
    rw [extendInterval, extend_eq_self hlo (OrderedScalar.trans hle hhi) hlower
      (OrderedScalar.trans hle hupper), extend_eq_self (OrderedScalar.trans hlo hle) hhi
      (OrderedScalar.trans hlower hle) hupper]

theorem covers_extendInterval (i m : Interval K) (limit : K) :
    Covers (i.extendInterval m limit) i :=
  (covers_extend _ _ _).trans (covers_extend _ _ _)

theorem covers_extendInterval_right (i : Interval K) (hm : Within limit m) :
    Covers (i.extendInterval m limit) m := by
  rcases hm with ⟨hl, hu⟩ | ⟨hlo, hle, hhi⟩
  · constructor <;> intro hdef
    · simp [hl] at hdef
    · simp [hu] at hdef
  · have hlower := (covers_extend (i.extend m.lower limit) m.upper limit).trans
      (covers_extend_spot i m.lower limit)
    have hupper := covers_extend_spot (i.extend m.lower limit) m.upper limit
    rw [spot_eq_of_mem hlo (OrderedScalar.trans hle hhi)] at hlower
    rw [spot_eq_of_mem (OrderedScalar.trans hlo hle) hhi] at hupper
    exact ⟨hlower.1, hupper.2⟩

theorem Within.extend (hlimit : -limit ≤ limit) (hi : Within limit i) (t : K) :
    Within limit (i.extend t limit) := by
  rw [extend_eq_join]
  exact hi.join (within_spot hlimit t)

end

section

variable {limit : Float32} {i m : Interval Float32}

theorem minimalLength_pos (c : Float32) : 0 < minimalLength c := by
  have hpos : (0 : Float32) < 1e-5 := by decide +kernel
  unfold minimalLength Scalar.larger
  rw [(Scalar.defined_of_lt hpos).2]
  simp only [Bool.false_eq_true, if_false]
  split
  · rename_i hlt
    exact Scalar.lt_trans hpos hlt
  · exact hpos

theorem Showable.lower_lt_upper (h : Showable limit i) : i.lower < i.upper := by
  have hpos := Scalar.lt_of_lt_of_le (minimalLength_pos i.center) h.long
  obtain ⟨-, hdef, hlt⟩ := lt_iff_val.1 hpos
  obtain ⟨hu, hl⟩ := defined_of_sub hdef
  refine lt_iff_val.2 ⟨hl, hu, ?_⟩
  by_contra hle
  have := (result_sub hdef).le_of_le 0 isNaN_zero (by
    rw [val_zero, EReal.sub_nonpos]
    exact not_lt.1 hle)
  exact absurd hlt (not_lt.2 this)

/-- An axis that can be shown as it is, is. -/
theorem Showable.displayable_eq (h : Showable limit i) : Viewport.displayable i limit = i := by
  refine displayable_of_not_isShort h.lower (Scalar.le_of_lt h.lower_lt_upper) h.upper ?_
  have hlong : minimalLength i.center ≤ i.upper - i.lower := h.long
  simp [isShort, hlong]

theorem val_sub_lt_of_not_le {r s t : Float32} (hdef : Scalar.isNaN (s - t) = false)
    (hr : Scalar.isNaN r = false) (h : ¬ r ≤ s - t) : val s - val t < val r := by
  by_contra hle
  exact h (le_iff_val.2 ⟨hr, hdef, (result_sub hdef).ge_of_ge r hr (not_lt.1 hle)⟩)

/-- An axis that is lengthened to be shown covers what it was. -/
theorem covers_displayable (hlo : -limit ≤ i.lower) (hlt : i.lower < i.upper)
    (hhi : i.upper ≤ limit) (hset : (Viewport.displayable i limit).isSet = true) :
    Covers (Viewport.displayable i limit) i := by
  obtain ⟨hl, hu, hval⟩ := lt_iff_val.1 hlt
  rw [displayable_eq_setUpper hlo (OrderedScalar.trans (Scalar.le_of_lt hlt) hhi), setUpper,
    clamp_eq_self (OrderedScalar.trans hlo (Scalar.le_of_lt hlt)) hhi] at hset ⊢
  dsimp only at hset ⊢
  split
  · rename_i hshort
    rw [if_pos hshort] at hset
    obtain ⟨-, hneeded, hpos⟩ := lt_iff_val.1 (minimalLength_pos i.center)
    have hnot : ¬ minimalLength i.center ≤ i.upper - i.lower := by
      simpa [isShort, Interval.isSet, hl, hu] using hshort
    generalize minimalLength i.center = needed at *
    have hlength := val_sub_lt_of_not_le (defined_sub_of_val_ne hu hl hval.ne') hneeded hnot
    split
    · -- the axis would pass the lower limit, so it is lengthened upward from there
      rename_i hpass
      rw [if_pos hpass] at hset
      obtain ⟨hdiff, hlimit, -⟩ := lt_iff_val.1 hpass
      have hsum : Scalar.isNaN (-limit + needed) = false := by
        simpa [Interval.isSet, hlimit] using hset
      have hbelow := val_sub_lt_of_not_le hdiff hlimit (Scalar.not_le_of_lt hpass)
      refine ⟨fun _ => hlo, fun _ => le_iff_val.2 ⟨hu, hsum, (result_add hsum).ge_of_ge _ hu ?_⟩⟩
      refine ((EReal.sub_lt_iff ?_ ?_).1 hbelow).le
      · exact .inr (bot_le.trans_lt hval).ne'
      · by_contra! hinf
        rw [isNaN_sub_iff.2 (.inr (.inr (.inl ⟨hinf.2, hinf.1⟩)))] at hdiff
        cases hdiff
    · rename_i hpass
      rw [if_neg hpass] at hset
      have hdiff : Scalar.isNaN (i.upper - needed) = false := by
        simpa [Interval.isSet, hu] using hset
      refine ⟨fun _ => le_iff_val.2 ⟨hdiff, hl, (result_sub hdiff).le_of_le _ hl ?_⟩,
        fun _ => Scalar.le_refl_of_defined hu⟩
      refine EReal.sub_le_of_le_add' ((EReal.sub_lt_iff ?_ ?_).1 hlength).le
      · exact .inr (bot_le.trans_lt hval).ne'
      · exact .inl (hval.trans_le le_top).ne
  · exact ⟨fun _ => Scalar.le_refl_of_defined hl, fun _ => Scalar.le_refl_of_defined hu⟩

/-- What extends an axis that can be shown as it is also shows. -/
theorem displayable_extendInterval_eq_iff (h : Showable limit i) (hm : Within limit m) :
    Viewport.displayable (i.extendInterval m limit) limit = i ↔ Covers i m := by
  constructor
  · intro heq
    have hle := Scalar.le_of_lt h.lower_lt_upper
    obtain ⟨hl, hu⟩ := OrderedScalar.defined_of_le hle
    have hlimit : -limit ≤ limit :=
      OrderedScalar.trans h.lower (OrderedScalar.trans hle h.upper)
    have hwithin : Within limit (i.extendInterval m limit) :=
      .extend hlimit (.extend hlimit (.inr ⟨h.lower, hle, h.upper⟩) m.lower) m.upper
    have hcovers := covers_extendInterval i m limit
    have hlower := hcovers.1 hl
    have hlt := Scalar.lt_of_le_of_lt hlower (Scalar.lt_of_lt_of_le h.lower_lt_upper (hcovers.2 hu))
    rcases hwithin with ⟨hnan, -⟩ | ⟨hlo, -, hhi⟩
    · rw [(OrderedScalar.defined_of_le hlower).1] at hnan
      cases hnan
    · have hshown := covers_displayable hlo hlt hhi (by rw [heq, h.isSet])
      rw [heq] at hshown
      exact hshown.trans (covers_extendInterval_right i hm)
  · intro hcovers
    rw [extendInterval_eq_self hm hcovers, h.displayable_eq]

end

end Interval

/-! ## Forced axes of a viewport -/

/-- The horizontal axis is the one along which a vertical curve is searched. -/
def Rect.axis {K : Type} (vertical : Bool) (r : Rect K) : Interval K :=
  if vertical then r.x else r.y

namespace Viewport

section

variable {K : Type} [Scalar K]

/-- A forced axis is not resized. -/
theorem pretty_axis_of_forced (v : Viewport K) (force vertical : Bool)
    (h : (v.forced.axis vertical).isSet = true) :
    (v.pretty force).axis vertical = v.scaled.axis vertical := by
  cases vertical with
  | true =>
    have hx : v.forced.x.isSet = true := h
    simp only [Rect.axis, if_true, pretty, hx, Bool.not_true, Bool.false_and, Bool.false_eq_true,
      if_false]
    split <;> rfl
  | false =>
    have hy : v.forced.y.isSet = true := h
    simp only [Rect.axis, Bool.false_eq_true, if_false, pretty, hy, Bool.not_true, Bool.false_and,
      Bool.and_false]
    split <;> rfl

/-- Before it is shown, a forced axis is extended by the magnitudes. -/
theorem scaled_axis_of_forced (v : Viewport K) (vertical : Bool)
    (h : (v.forced.axis vertical).isSet = true) :
    v.scaled.axis vertical =
      (v.forced.axis vertical).extendInterval (v.magnitude.axis vertical) v.limit := by
  cases vertical with
  | true =>
    have hx : v.sanitized.x = v.forced.x := if_pos h
    show (v.sanitized.x.extend _ _).extend _ _ = _
    rw [hx]
    rfl
  | false =>
    have hy : v.sanitized.y = v.forced.y := if_pos h
    show (v.sanitized.y.extend _ _).extend _ _ = _
    rw [hy]
    rfl

theorem window_axis (v : Viewport K) (force vertical : Bool) :
    (v.window force).axis vertical = displayable ((v.pretty force).axis vertical) v.limit := by
  cases vertical <;> rfl

/-- What the window makes of a forced axis. -/
theorem window_axis_of_forced (v : Viewport K) (force vertical : Bool)
    (h : (v.forced.axis vertical).isSet = true) :
    (v.window force).axis vertical =
      displayable ((v.forced.axis vertical).extendInterval (v.magnitude.axis vertical) v.limit)
        v.limit := by
  rw [window_axis, v.pretty_axis_of_forced force vertical h, v.scaled_axis_of_forced vertical h]

end

end Viewport

/-! ## Calls -/

namespace Call

section

variable {K : Type} [Precision K]

/-- What a call leaves as it is. -/
theorem limit_run_eq (v : Viewport K) (call : Call K) : (call.run v).limit = v.limit := by
  cases call with
  | setBounds start goal => rfl
  | setForced x y => rfl
  | fit f => cases f <;> rfl
  | fitMagnitude curve vertical => rfl

theorem limit_runs_eq (v : Viewport K) (calls : List (Call K)) :
    (runs v calls).limit = v.limit := by
  induction calls generalizing v with
  | nil => rfl
  | cons call calls ih => exact (ih (call.run v)).trans (limit_run_eq v call)

theorem forced_run_eq (v : Viewport K) {call : Call K} (h : ∀ x y, call ≠ .setForced x y) :
    (call.run v).forced = v.forced := by
  cases call with
  | setBounds start goal => rfl
  | setForced x y => exact absurd rfl (h x y)
  | fit f => cases f <;> rfl
  | fitMagnitude curve vertical => rfl

theorem forced_runs_eq (v : Viewport K) {calls : List (Call K)}
    (h : ∀ x y, .setForced x y ∉ calls) : (runs v calls).forced = v.forced := by
  induction calls generalizing v with
  | nil => rfl
  | cons call calls ih =>
    simp only [List.mem_cons, not_or, forall_and] at h
    refine (ih (call.run v) h.2).trans (forced_run_eq v ?_)
    rintro x y rfl
    exact h.1 x y rfl

theorem magnitude_run_eq (v : Viewport K) {call : Call K} {vertical : Bool}
    (h : ∀ curve, call ≠ .fitMagnitude curve vertical) :
    (call.run v).magnitude.axis vertical = v.magnitude.axis vertical := by
  cases call with
  | setBounds start goal => rfl
  | setForced x y => rfl
  | fit f => cases f <;> rfl
  | fitMagnitude curve other =>
    cases vertical <;> cases other
    · exact absurd rfl (h curve)
    · rfl
    · rfl
    · exact absurd rfl (h curve)

theorem magnitude_runs_eq (v : Viewport K) {calls : List (Call K)} {vertical : Bool}
    (h : ∀ curve, .fitMagnitude curve vertical ∉ calls) :
    (runs v calls).magnitude.axis vertical = v.magnitude.axis vertical := by
  induction calls generalizing v with
  | nil => rfl
  | cons call calls ih =>
    simp only [List.mem_cons, not_or, forall_and] at h
    refine (ih (call.run v) h.2).trans (magnitude_run_eq v ?_)
    rintro curve rfl
    exact h.1 curve rfl

variable [OrderedScalar K]

/-- The magnitudes are gathered inside the limit. -/
theorem within_magnitude_run {v : Viewport K} (hlimit : -v.limit ≤ v.limit) (call : Call K)
    (vertical : Bool) (h : Interval.Within v.limit (v.magnitude.axis vertical)) :
    Interval.Within v.limit ((call.run v).magnitude.axis vertical) := by
  cases call with
  | setBounds start goal => exact h
  | setForced x y => exact h
  | fit f => cases f <;> exact h
  | fitMagnitude curve other =>
    cases vertical <;> cases other
    · exact .extend hlimit (.extend hlimit h _) _
    · exact h
    · exact h
    · exact .extend hlimit (.extend hlimit h _) _

theorem within_magnitude_runs {v : Viewport K} (hlimit : -v.limit ≤ v.limit)
    (calls : List (Call K)) (vertical : Bool)
    (h : Interval.Within v.limit (v.magnitude.axis vertical)) :
    Interval.Within v.limit ((runs v calls).magnitude.axis vertical) := by
  induction calls generalizing v with
  | nil => exact h
  | cons call calls ih =>
    have hrun := within_magnitude_run hlimit call vertical h
    rw [← limit_run_eq v call] at hlimit hrun ⊢
    exact ih hlimit hrun

end

/-- A forced axis that can be shown as it is, is shown so exactly when it covers the
magnitudes that were taken along it, before or after it was forced; in particular when none
were.  Whether the other axis is forced, and whether resizing is, makes no difference. -/
theorem forced_axis_shown {start goal ratio limit : Float32} {context : Context}
    {settings : Viewport.Settings Float32} (before after : List (Call Float32))
    (x y : GivenAxis Float32) (hafter : ∀ x' y', .setForced x' y' ∉ after) (vertical : Bool)
    (h : Interval.Showable limit ((Rect.mk x.interval y.interval).axis vertical)) (force : Bool) :
    let axis := (Rect.mk x.interval y.interval).axis vertical
    let v := runs (Viewport.new start goal ratio context limit settings)
      (before ++ .setForced x y :: after)
    ((v.window force).axis vertical = axis ↔ axis.Covers (v.magnitude.axis vertical)) ∧
      ((∀ curve, .fitMagnitude curve vertical ∉ before ++ after) →
        (v.window force).axis vertical = axis) := by
  intro axis v
  have hlimit : v.limit = limit := limit_runs_eq _ _
  have hforced : v.forced.axis vertical = axis := by
    show (runs _ (before ++ .setForced x y :: after)).forced.axis vertical = axis
    rw [runs, List.foldl_append, List.foldl_cons]
    exact congrArg (Rect.axis vertical) (forced_runs_eq _ hafter)
  have hends : -limit ≤ limit :=
    OrderedScalar.trans h.lower (OrderedScalar.trans (Scalar.le_of_lt h.lower_lt_upper) h.upper)
  have hmagnitude : Interval.Within limit (v.magnitude.axis vertical) := by
    have hunset : Interval.Within limit ((Rect.unset : Rect Float32).axis vertical) := by
      cases vertical <;> exact Interval.within_unset limit
    exact within_magnitude_runs (v := Viewport.new start goal ratio context limit settings) hends
      (before ++ .setForced x y :: after) vertical hunset
  have hshown : (v.window force).axis vertical = axis ↔
      axis.Covers (v.magnitude.axis vertical) := by
    rw [v.window_axis_of_forced force vertical (by rw [hforced, h.isSet]), hforced, hlimit]
    exact Interval.displayable_extendInterval_eq_iff h hmagnitude
  refine ⟨hshown, fun hnone => hshown.2 ?_⟩
  have hunset : v.magnitude.axis vertical = Interval.unset := by
    refine (magnitude_runs_eq _ fun curve hmem => ?_).trans (by cases vertical <;> rfl)
    simp only [List.mem_append, List.mem_cons, reduceCtorEq, false_or] at hmem
    exact hnone curve (List.mem_append.2 hmem)
  rw [hunset]
  constructor <;> intro hdef <;> cases hdef

/-- A curve that runs along the horizontal axis. -/
def zeroCurve : Curve Float32 := fun _ t => ⟨t, 0⟩

/-- An axis that covers the magnitude of this curve is shown as it is forced. -/
theorem forced_axis_around_zero :
    (∀ x' y', .setForced x' y' ∉ [fitMagnitude zeroCurve false]) ∧
      Interval.Showable (1e8 : Float32) (GivenAxis.between (-1) 2).interval ∧
        let v := runs (Viewport.new (-10) 10 0.5 {} 1e8)
          [.setForced .unset (.between (-1) 2), .fitMagnitude zeroCurve false]
        (v.window true).y = (GivenAxis.between (-1) 2).interval := by
  have hafter : ∀ x' y', .setForced x' y' ∉ [fitMagnitude zeroCurve false] := by simp
  have hshowable : Interval.Showable (1e8 : Float32) (GivenAxis.between (-1) 2).interval :=
    ⟨by decide +kernel, by decide +kernel, by decide +kernel⟩
  refine ⟨hafter, hshowable, ?_⟩
  refine (forced_axis_shown [] [.fitMagnitude zeroCurve false] .unset (.between (-1) 2) hafter
    false hshowable true).1.2 ⟨fun _ => ?_, fun _ => ?_⟩
  · decide +kernel
  · decide +kernel

/-- An axis that does not cover it grows, although it is forced. -/
theorem forced_axis_grows :
    Interval.Showable (1e8 : Float32) (GivenAxis.between 1 2).interval ∧
      let v := runs (Viewport.new (-10) 10 0.5 {} 1e8)
        [.setForced (.between (-10) 10) (.between 1 2), .fitMagnitude zeroCurve false]
      (v.window false).y ≠ (GivenAxis.between 1 2).interval := by
  refine ⟨⟨by decide +kernel, by decide +kernel, by decide +kernel⟩, ?_⟩
  intro v heq
  have hlower : (v.window false).y.lower < (GivenAxis.between (1 : Float32) 2).interval.lower := by
    decide +kernel
  rw [heq] at hlower
  exact Scalar.lt_asymm hlower hlower

end Call

end CurveSurvey

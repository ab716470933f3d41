import CurveSurvey.Proofs.Exact
import CurveSurvey.Proofs.Viewport.Forced

/-!
# The window holds the interesting points

With exact numbers, no step toward the window loses an interesting point along an axis
that may follow the points.

* An axis without a length is widened around its point (`Viewport.covers_sanitizeAxis`).
* An axis is resized only where the interesting interval fits the new length or the axis
  grows (`Viewport.pretty_axis`), and it is then shifted onto the interesting interval
  (`Viewport.covers_resizeAxis`).
* The limit moves no end past the interesting interval, and neither does the minimal
  length (`Viewport.covers_displayable_of_covers`).
* `Viewport.window_covers_interesting` is the result.  Nothing is asked of the magnitudes,
  of the ends of the forced axes and of the settings.
-/

namespace CurveSurvey

open Exact

/-! ## Exact intervals -/

namespace Exact

@[simp] theorem clamp_real (x m : ℝ) :
    Scalar.clamp (real x) (real m) = real (min (max x (-m)) m) := by
  simp [Scalar.clamp]

@[simp] theorem between_real (x y : ℝ) :
    Interval.between (real x) (real y) = ⟨real (min x y), real (max x y)⟩ := by
  unfold Interval.between
  split
  · rename_i h
    rw [real_lt_real] at h
    rw [min_eq_right h.le, max_eq_left h.le]
  · rename_i h
    rw [real_lt_real, not_lt] at h
    rw [min_eq_left h, max_eq_right h]

end Exact

namespace Interval

@[simp] theorem isSet_real (a b : ℝ) : isSet (⟨real a, real b⟩ : Interval Exact) = true := by
  simp [isSet]

theorem exists_real_of_isSet {i : Interval Exact} (h : i.isSet = true) :
    ∃ a b, i = ⟨real a, real b⟩ := by
  simp only [isSet, Bool.and_eq_true, Bool.not_eq_true'] at h
  obtain ⟨a, ha⟩ := exists_real h.1
  obtain ⟨b, hb⟩ := exists_real h.2
  exact ⟨a, b, by rw [← ha, ← hb]⟩

/-- What covers an interval with two ends has two ends. -/
theorem covers_real_iff {j : Interval Exact} {a b : ℝ} :
    Covers j ⟨real a, real b⟩ ↔ ∃ c d, j = ⟨real c, real d⟩ ∧ c ≤ a ∧ b ≤ d := by
  constructor
  · rintro ⟨hl, hu⟩
    have hlower := hl (isNaN_real a)
    have hupper := hu (isNaN_real b)
    obtain ⟨c, hc⟩ := exists_real (OrderedScalar.defined_of_le hlower).1
    obtain ⟨d, hd⟩ := exists_real (OrderedScalar.defined_of_le hupper).2
    rw [hc] at hlower
    rw [hd] at hupper
    exact ⟨c, d, by rw [← hc, ← hd], hlower, hupper⟩
  · rintro ⟨c, d, rfl, hl, hu⟩
    exact ⟨fun _ => hl, fun _ => hu⟩

/-- An interval of exact numbers inside a limit has nothing to cover, or two ends in
order inside the limit. -/
theorem Within.cases {limit : Exact} {i : Interval Exact} (h : Within limit i) :
    (∀ j, Covers j i) ∨
      ∃ m a b, limit = real m ∧ i = ⟨real a, real b⟩ ∧ -m ≤ a ∧ a ≤ b ∧ b ≤ m := by
  rcases h with ⟨hl, hu⟩ | ⟨hlo, hle, hhi⟩
  · exact .inl (covers_of_isNaN hl hu)
  · obtain ⟨⟨a, ha⟩, ⟨b, hb⟩⟩ :=
      (OrderedScalar.defined_of_le hle).imp exists_real exists_real
    obtain ⟨m, hm⟩ := exists_real (OrderedScalar.defined_of_le hhi).2
    rw [ha, hm] at hlo
    rw [ha, hb] at hle
    rw [hb, hm] at hhi
    exact .inr ⟨m, a, b, hm, by rw [← ha, ← hb], hlo, hle, hhi⟩

/-- Covering makes no interval shorter. -/
theorem Covers.length_le {j : Interval Exact} {a b : ℝ} (h : Covers j ⟨real a, real b⟩) :
    (⟨real a, real b⟩ : Interval Exact).length ≤ j.length := by
  obtain ⟨c, d, rfl, hl, hu⟩ := covers_real_iff.1 h
  simp only [length, real_sub_real, real_le_real]
  linarith

end Interval

theorem Rect.Within.axis {K : Type} [Scalar K] {limit : K} {r : Rect K} (h : r.Within limit)
    (vertical : Bool) : Interval.Within limit (r.axis vertical) := by
  cases vertical
  · exact h.2
  · exact h.1

namespace Viewport

open CurveSurvey.Interval

variable {axis other i : Interval Exact} {limit : Exact}

/-! ## One axis -/

/-- An axis without a length is widened around its point. -/
theorem covers_sanitizeAxis (ratio : ℝ) (h : Within limit axis) :
    Covers (sanitizeAxis axis other (real ratio)) axis := by
  rcases h.cases with h | ⟨m, a, b, -, rfl, -, hle, -⟩
  · exact h _
  · unfold sanitizeAxis
    simp only [isSet_real, if_true, isPoint]
    split
    · exact covers_real_iff.2 ⟨a, b, rfl, le_rfl, le_rfl⟩
    · rename_i hpoint
      obtain rfl : a = b := by simpa using hpoint
      obtain ⟨n, hn⟩ : ∃ n, (if other.isSet then other.length else 0) = real n := by
        split
        · rename_i hset
          obtain ⟨c, d, rfl⟩ := exists_real_of_isSet hset
          exact ⟨d - c, rfl⟩
        · exact ⟨0, by simp⟩
      -- the half length is a number, so its sign does not matter
      obtain ⟨half, hhalf⟩ : ∃ half, (if real n == 0 then defaultHalfLength
          else real ratio * 0.5 * real n) = real half := by
        split
        · exact ⟨_, rfl⟩
        · exact ⟨_, rfl⟩
      rw [hn, hhalf]
      simp only [real_sub_real, real_add_real, between_real]
      refine covers_real_iff.2 ⟨_, _, rfl, ?_, ?_⟩
      · rcases le_total 0 half with h | h
        · exact (min_le_left _ _).trans (by linarith)
        · exact (min_le_right _ _).trans (by linarith)
      · rcases le_total 0 half with h | h
        · exact le_max_of_le_right (by linarith)
        · exact le_max_of_le_left (by linarith)

/-- A resized axis is shifted onto an interval that fits its new length. -/
theorem covers_resizeAxis {length : Exact} (hi : Within limit i) (h : Covers axis i)
    (hfits : i.length ≤ length) : Covers (resizeAxis axis i length) i := by
  rcases hi.cases with hi | ⟨m, a, b, -, rfl, -, hle, -⟩
  · exact hi _
  · obtain ⟨c, d, rfl, -, -⟩ := covers_real_iff.1 h
    obtain ⟨n, rfl⟩ := exists_real (OrderedScalar.defined_of_le hfits).2
    simp only [Interval.length, real_sub_real, real_le_real] at hfits
    unfold resizeAxis
    simp only [center, ofScientific_eq_real, real_mul_real, real_add_real, real_sub_real,
      real_lt_real, between_real]
    split
    · refine covers_real_iff.2 ⟨_, _, rfl, min_le_left _ _, le_max_of_le_right ?_⟩
      linarith
    · split
      · refine covers_real_iff.2 ⟨_, _, rfl, min_le_of_left_le ?_, le_max_right _ _⟩
        linarith
      · rename_i hlower hupper
        exact covers_real_iff.2
          ⟨_, _, rfl, min_le_of_left_le (not_lt.1 hlower), le_max_of_le_right (not_lt.1 hupper)⟩

/-- An axis moved inside the limit still holds what it held inside the limit, also when it
has to be lengthened. -/
theorem covers_displayable_of_covers (hi : Within limit i) (h : Covers axis i) :
    Covers (displayable axis limit) i := by
  rcases hi.cases with hi | ⟨m, a, b, rfl, rfl, hlo, hle, hhi⟩
  · exact hi _
  · obtain ⟨c, d, rfl, hc, hd⟩ := covers_real_iff.1 h
    have hlower : min (max c (-m)) m ≤ a := min_le_of_left_le (max_le hc hlo)
    have hupper : b ≤ min (max d (-m)) m := le_min (le_max_of_le_left hd) hhi
    have hset : (unset : Interval Exact).setLower (real c) (real m) =
        ⟨real (min (max c (-m)) m), undefined⟩ := by
      simp [setLower, isShort, Interval.isSet, unset]
    rw [displayable, hset, setUpper, clamp_real]
    generalize min (max c (-m)) m = l at hlower
    generalize min (max d (-m)) m = u at hupper
    dsimp only
    split
    · rename_i hshort
      obtain ⟨needed, hneeded⟩ :
          ∃ needed, minimalLength (center (⟨real l, real u⟩ : Interval Exact)) = real needed :=
        ⟨_, larger_real⟩
      have hlt : u - l < needed := by
        simpa [isShort, hneeded] using hshort
      simp only [hneeded, real_sub_real, neg_real, real_add_real, real_lt_real]
      split
      · rename_i hpass
        exact covers_real_iff.2 ⟨_, _, rfl, hlo, by linarith⟩
      · exact covers_real_iff.2 ⟨_, _, rfl, by linarith, hupper⟩
    · exact covers_real_iff.2 ⟨_, _, rfl, hlower, hupper⟩

/-! ## The choice of the axis to resize -/

section

variable {K : Type} [Scalar K]

/-- The length that the ratio asks of an axis, given the other one. -/
def normalLength (v : Viewport K) (vertical : Bool) : K :=
  if vertical then v.scaled.y.length / v.ratio else v.scaled.x.length * v.ratio

/-- Whether an axis is not forced and may be given that length. -/
def isFree (v : Viewport K) (force vertical : Bool) : Bool :=
  !(v.forced.axis vertical).isSet &&
    (force || v.isResizable (v.scaled.axis vertical).length (v.normalLength vertical)
      (v.interesting.axis vertical))

/-- Whether the choice falls on an axis, unless it has fallen on the other one. -/
def isChosen (v : Viewport K) (force vertical : Bool) : Bool :=
  if v.isFree force vertical && v.isFree force !vertical then
    decide ((v.scaled.axis vertical).length < v.normalLength vertical)
  else v.isFree force vertical

/-- The choice falls on a free axis, because the interesting interval fits the new length
or the axis grows, or because it has to follow the other one. -/
theorem reason_of_isChosen {v : Viewport K} {force vertical : Bool}
    (h : v.isChosen force vertical = true) :
    (v.forced.axis vertical).isSet = false ∧
      ((v.interesting.axis vertical).length ≤ v.normalLength vertical ∨
        (v.scaled.axis vertical).length < v.normalLength vertical ∨
        force = true ∧ (v.forced.axis !vertical).isSet = true) := by
  unfold isChosen at h
  split at h
  · rename_i hboth
    simp only [isFree, Bool.and_eq_true, Bool.not_eq_true'] at hboth
    exact ⟨hboth.1.1, .inr (.inl (of_decide_eq_true h))⟩
  · rename_i hboth
    simp only [h, Bool.true_and, Bool.not_eq_true] at hboth
    simp only [isFree, Bool.and_eq_true, Bool.not_eq_true', Bool.or_eq_true] at h
    obtain ⟨hforced, hforce | hfits⟩ := h
    · have : (v.forced.axis !vertical).isSet = true := by simpa [isFree, hforce] using hboth
      exact ⟨hforced, .inr (.inr ⟨hforce, this⟩)⟩
    · simp only [isResizable, Bool.and_eq_true, decide_eq_true_eq] at hfits
      exact ⟨hforced, .inl hfits.2⟩

theorem pretty_eq (v : Viewport K) (force : Bool) :
    v.pretty force =
      if v.isChosen force true then
        { v.scaled with x := resizeAxis v.scaled.x v.interesting.x (v.normalLength true) }
      else if v.isChosen force false then
        { v.scaled with y := resizeAxis v.scaled.y v.interesting.y (v.normalLength false) }
      else v.scaled := by
  have hcomm : v.isChosen force false = if v.isFree force true && v.isFree force false then
      decide (v.scaled.y.length < v.normalLength false) else v.isFree force false := by
    rw [Bool.and_comm]
    rfl
  rw [hcomm]
  rfl

/-- An axis is left as it was scaled, or it was chosen and is resized. -/
theorem pretty_axis (v : Viewport K) (force vertical : Bool) :
    (v.pretty force).axis vertical = v.scaled.axis vertical ∨
      v.isChosen force vertical = true ∧
      (v.pretty force).axis vertical = resizeAxis (v.scaled.axis vertical)
        (v.interesting.axis vertical) (v.normalLength vertical) := by
  rw [pretty_eq]
  split
  · rename_i hx
    cases vertical with
    | true => exact .inr ⟨hx, rfl⟩
    | false => exact .inl rfl
  · split
    · rename_i hy
      cases vertical with
      | true => exact .inl rfl
      | false => exact .inr ⟨hy, rfl⟩
    · exact .inl rfl

end

/-! ## The window -/

variable {v : Viewport Exact}

/-- The ratio of the axes, seen from the other axis, is a number as well. -/
theorem exists_ratios (hratio : 0 < v.ratio) :
    (∃ ρ, v.ratio = real ρ) ∧ ∃ ρ, 1 / v.ratio = real ρ := by
  obtain ⟨ρ, hρ⟩ := exists_real (OrderedScalar.defined_of_le (Scalar.le_of_lt hratio)).2
  rw [hρ] at hratio ⊢
  have hpos : 0 < ρ := by simpa using hratio
  exact ⟨⟨ρ, rfl⟩, _, real_div_real hpos.ne'⟩

/-- An axis that is not forced holds the interesting interval before it is resized. -/
theorem covers_scaled (hratio : 0 < v.ratio) (hwithin : v.interesting.Within v.limit)
    {vertical : Bool} (hfree : (v.forced.axis vertical).isSet = false) :
    Covers (v.scaled.axis vertical) (v.interesting.axis vertical) := by
  obtain ⟨⟨ρ, hρ⟩, σ, hσ⟩ := exists_ratios hratio
  cases vertical with
  | true =>
    have hx : v.sanitized.x = sanitizeAxis v.interesting.x v.interesting.y (1 / v.ratio) :=
      if_neg (Bool.eq_false_iff.1 hfree)
    refine (covers_extendInterval v.sanitized.x v.magnitude.x v.limit).trans ?_
    rw [hx, hσ]
    exact covers_sanitizeAxis σ hwithin.1
  | false =>
    have hy : v.sanitized.y = sanitizeAxis v.interesting.y v.sanitized.x v.ratio :=
      if_neg (Bool.eq_false_iff.1 hfree)
    refine (covers_extendInterval v.sanitized.y v.magnitude.y v.limit).trans ?_
    rw [hy, hρ]
    exact covers_sanitizeAxis ρ hwithin.2

/-- An axis that is not forced holds the interesting interval in the window, unless it has
to follow a forced one. -/
theorem covers_window_axis (hratio : 0 < v.ratio) (hwithin : v.interesting.Within v.limit)
    (vertical : Bool) {force : Bool} (hfree : (v.forced.axis vertical).isSet = false)
    (hfollows : force = true → (v.forced.axis !vertical).isSet = false) :
    Covers ((v.window force).axis vertical) (v.interesting.axis vertical) := by
  have hi := Rect.Within.axis hwithin vertical
  have hscaled := covers_scaled hratio hwithin hfree
  rw [window_axis]
  refine covers_displayable_of_covers hi ?_
  obtain hpretty | ⟨hchosen, hpretty⟩ := v.pretty_axis force vertical <;> rw [hpretty]
  · exact hscaled
  · refine (hi.cases.elim (fun hi => hi _) ?_)
    rintro ⟨m, a, b, -, heq, -⟩
    refine covers_resizeAxis hi hscaled ?_
    obtain ⟨-, hfits | hgrows | ⟨hforce, hother⟩⟩ := reason_of_isChosen hchosen
    · exact hfits
    · rw [heq] at hscaled ⊢
      exact OrderedScalar.trans hscaled.length_le (Scalar.le_of_lt hgrows)
    · rw [hfollows hforce] at hother
      cases hother

/-- The window holds the interesting interval along every axis that is not forced, and if
neither is, also when the ratio is kept in any case.  So every rectangle inside the limit
is held by the one that is shown for it. -/
theorem window_covers_interesting {ratio : Exact} (hratio : 0 < ratio) :
    (∀ v : Viewport Exact, v.ratio = ratio → v.limit = limit → v.interesting.Within limit →
      (∀ vertical, (v.forced.axis vertical).isSet = false →
        Covers ((v.window false).axis vertical) (v.interesting.axis vertical)) ∧
      ((∀ vertical, (v.forced.axis vertical).isSet = false) →
        (v.window true).Covers v.interesting)) ∧
    ∀ r : Rect Exact, r.Within limit → (sanitize r ratio limit).Covers r := by
  refine ⟨?_, ?_⟩
  · rintro v rfl rfl hwithin
    refine ⟨fun vertical hfree => covers_window_axis hratio hwithin vertical hfree nofun,
      fun hfree => ?_⟩
    exact ⟨covers_window_axis hratio hwithin true (hfree true) fun _ => hfree false,
      covers_window_axis hratio hwithin false (hfree false) fun _ => hfree true⟩
  · intro r hwithin
    have hfree : ∀ vertical, ((Rect.unset : Rect Exact).axis vertical).isSet = false := by
      intro vertical
      cases vertical <;> simp [Rect.axis, Rect.unset, Interval.isSet, unset]
    exact ⟨covers_window_axis hratio hwithin true (hfree true) nofun,
      covers_window_axis hratio hwithin false (hfree false) nofun⟩

/-- An upright segment stays in sight, also along its own axis when the other one is
forced elsewhere. -/
theorem window_covers_segment :
    let r : Rect Exact := ⟨⟨real 2, real 2⟩, ⟨real (-1), real 3⟩⟩
    let v : Viewport Exact :=
      { new (real (-5)) (real 5) (real 1) {} (real 100) with interesting := r }
    let pinned := { v with forced := ⟨⟨real 0, real 1⟩, unset⟩ }
    (0 : Exact) < v.ratio ∧ r.Within v.limit ∧ (v.window true).Covers r ∧
      Covers (pinned.window false).y r.y ∧ (sanitize r (real 1) (real 100)).Covers r := by
  intro r v pinned
  have hratio : (0 : Exact) < real 1 := by simp
  have hwithin : r.Within (real 100) := by
    constructor <;> right <;> norm_num [r]
  have hfree : ∀ vertical, (v.forced.axis vertical).isSet = false := by
    intro vertical
    cases vertical <;> simp [v, new, Rect.axis, Rect.unset, Interval.isSet, unset]
  obtain ⟨hv, hr⟩ := @window_covers_interesting (real 100) (real 1) hratio
  exact ⟨hratio, hwithin, (hv v rfl rfl hwithin).2 hfree,
    (hv pinned rfl rfl hwithin).1 false (hfree false), hr r hwithin⟩

end Viewport

end CurveSurvey

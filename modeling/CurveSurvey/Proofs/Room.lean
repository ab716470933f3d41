import CurveSurvey.Proofs.Exact
import CurveSurvey.Proofs.Nearest
import CurveSurvey.Proofs.Numeric

/-!
# The room before the goal

Every accepted abscissa leaves less room before the goal of a scan, by more than one step
of the grid.

* `PlacedPrecision` puts the numbers on the real line such that a minimal step is at
  least a step of the grid.  Double and single precision do, since a number beyond a
  rounded sum is also beyond the exact one, and so do the exact numbers.
* `Machine.CoarseGrid.isFinite_position_of_accepts`: nothing is accepted from an infinite position.
* `Cursor.room` is the number of steps before the goal, `Cursor.accepts_room` what one
  accepted abscissa takes away from it, and `Cursor.induction_on_found` the induction
  over the cursors that a chain of searches finds.
* `Search.Approach.length_le_room` bounds the length of such a chain, which gives the
  exact numbers a bound on the length of a walk.
-/

namespace CurveSurvey

open Progress

/-! ## Places -/

/-- A precision whose finite numbers have places on the real line. -/
class PlacedPrecision (K : Type) [Precision K] extends SteadyPrecision K, StridingPrecision K where
  /-- The real number that a finite number stands for. -/
  place : K → ℝ
  /-- The grid leads to the right. -/
  place_gridStep_pos : 0 < place Precision.gridStep
  /-- Larger numbers are farther to the right. -/
  place_lt : ∀ {x y : K}, Scalar.isFinite x = true → Scalar.isFinite y = true → x < y →
    place x < place y
  /-- A number beyond a minimal step to the right is beyond a step of the grid. -/
  place_lt_of_add_lt : ∀ {x y : K}, Scalar.isFinite x = true → Scalar.isFinite y = true →
    x + Precision.minimalStep x < y → place x + place Precision.gridStep < place y
  /-- A number beyond a minimal step to the left is beyond a step of the grid. -/
  place_lt_of_lt_sub : ∀ {x y : K}, Scalar.isFinite x = true → Scalar.isFinite y = true →
    y < x - Precision.minimalStep x → place y + place Precision.gridStep < place x

namespace Machine

variable {K : Type} [Precision K] [Machine K] {g : ℝ}

theorem CoarseGrid.gridStep_pos (h : CoarseGrid K g) : (0 : K) < Precision.gridStep := by
  refine ((⟨isNaN_zero, val_zero⟩ : Represents (0 : K) 0).lt_iff h.grid).2 ?_
  linarith [tiny_pos (K := K), h.coarse]

/-- A machine number beyond a rounded sum or difference is beyond the exact one. -/
@[reducible] noncomputable def CoarseGrid.placedPrecision (h : CoarseGrid K g) :
    PlacedPrecision K where
  __ := steadyPrecision h.gridStep_pos
  __ := h.stridingPrecision
  place t := (val t).toReal
  place_gridStep_pos := by
    rw [h.grid.val_eq, EReal.toReal_coe]
    linarith [tiny_pos (K := K), h.coarse]
  place_lt := by
    intro x y hx hy hlt
    obtain ⟨a, ha⟩ := exists_represents hx
    obtain ⟨b, hb⟩ := exists_represents hy
    rw [ha.val_eq, hb.val_eq]
    exact (ha.lt_iff hb).1 hlt
  place_lt_of_add_lt := by
    intro x y hx hy hlt
    obtain ⟨a, ha⟩ := exists_represents hx
    obtain ⟨b, hb⟩ := exists_represents hy
    obtain ⟨m, hm, hgm, -⟩ := h.minimalStep_ge ha
    rw [ha.val_eq, hb.val_eq, h.grid.val_eq]
    by_contra! hge
    have hsum := (ha.add hm).ge_of_ge y hb.defined (by
      rw [hb.val_eq, EReal.coe_le_coe_iff]
      exact hge.trans (add_le_add_right hgm a))
    exact absurd (lt_iff_val.1 hlt).2.2 (not_lt.2 hsum)
  place_lt_of_lt_sub := by
    intro x y hx hy hlt
    obtain ⟨a, ha⟩ := exists_represents hx
    obtain ⟨b, hb⟩ := exists_represents hy
    obtain ⟨m, hm, hgm, -⟩ := h.minimalStep_ge ha
    rw [ha.val_eq, hb.val_eq, h.grid.val_eq]
    by_contra! hge
    have hle : a ≤ b + g := hge
    have hdiff := (ha.sub hm).le_of_le y hb.defined (by
      rw [hb.val_eq, EReal.coe_le_coe_iff]
      linarith)
    exact absurd (lt_iff_val.1 hlt).2.2 (not_lt.2 hdiff)

end Machine

noncomputable instance : PlacedPrecision Float := Machine.coarseGrid_double.placedPrecision

noncomputable instance : PlacedPrecision Float32 := Machine.coarseGrid_single.placedPrecision

/-- The number itself; the undefined value has no place of its own. -/
def Exact.toReal : Exact → ℝ
  | .undefined => 0
  | .real x => x

noncomputable instance : PlacedPrecision Exact where
  place := Exact.toReal
  place_gridStep_pos := by
    rw [Exact.gridStep_eq]
    norm_num [Exact.toReal]
  place_lt := by
    intro s t hs ht hlt
    obtain ⟨x, rfl⟩ := Exact.exists_real_of_isFinite hs
    obtain ⟨y, rfl⟩ := Exact.exists_real_of_isFinite ht
    exact hlt
  place_lt_of_add_lt := by
    intro s t hs ht hlt
    obtain ⟨x, rfl⟩ := Exact.exists_real_of_isFinite hs
    obtain ⟨y, rfl⟩ := Exact.exists_real_of_isFinite ht
    obtain ⟨m, hm, hgrid⟩ := Exact.exists_minimalStep x
    rw [hm, Exact.real_add_real, Exact.real_lt_real] at hlt
    exact (add_le_add_right hgrid x).trans_lt hlt
  place_lt_of_lt_sub := by
    intro s t hs ht hlt
    obtain ⟨x, rfl⟩ := Exact.exists_real_of_isFinite hs
    obtain ⟨y, rfl⟩ := Exact.exists_real_of_isFinite ht
    obtain ⟨m, hm, hgrid⟩ := Exact.exists_minimalStep x
    rw [hm, Exact.real_sub_real, Exact.real_lt_real] at hlt
    simp only [Exact.gridStep_eq, Exact.toReal]
    linarith

/-! ## Infinite positions -/

namespace Machine

section

variable {K : Type} [Precision K] [Machine K] {x : K} {g : ℝ}

/-- A defined number is finite or one of the two infinities. -/
theorem isFinite_or_val_eq (h : Scalar.isNaN x = false) :
    Scalar.isFinite x = true ∨ val x = ⊤ ∨ val x = ⊥ := by
  rcases represents_or_infinite h with ⟨y, hy⟩ | ⟨sign, hsign⟩
  · exact .inl hy.isFinite
  · rw [val, hsign]
    cases sign with
    | positive => exact .inr (.inl rfl)
    | negative => exact .inr (.inr rfl)

variable [NumericScalar K]

/-- The minimal step at an infinity is infinite. -/
theorem CoarseGrid.val_minimalStep_of_infinite (h : CoarseGrid K g)
    (hdef : Scalar.isNaN x = false) (hx : val (Scalar.abs x) = ⊤) :
    val (Precision.minimalStep x) = ⊤ := by
  have hrel : (0 : ℝ) < 2 * roundoff K := mul_pos two_pos roundoff_pos
  have hprod : Scalar.isNaN (Scalar.abs x * Precision.relativePrecision) = false := by
    rw [NumericScalar.mul_comm]
    exact h.relative.defined_mul hrel.ne' (by rwa [isNaN_abs])
  have hval : val (Scalar.abs x * Precision.relativePrecision) = ⊤ := by
    rw [(result_mul hprod).val_eq (u := Scalar.abs x) (by rwa [isNaN_abs]), hx]
    rw [hx, h.relative.val_eq]
    exact EReal.top_mul_coe_of_pos hrel
  have hlt : (Precision.gridStep : K) < Scalar.abs x * Precision.relativePrecision := by
    rw [lt_iff_val, hval, h.grid.val_eq]
    exact ⟨h.grid.defined, hprod, EReal.coe_lt_top g⟩
  rw [Precision.minimalStep, Scalar.larger, h.grid.defined]
  simp only [Bool.false_eq_true, if_false, if_pos hlt, hval]

/-- Nothing is accepted from an infinite position. -/
theorem CoarseGrid.isFinite_position_of_accepts (h : CoarseGrid K g) {c : Cursor K}
    (haccepts : c.accepts x = true) : Scalar.isFinite c.position = true := by
  have hsteady : SteadyPrecision K := steadyPrecision h.gridStep_pos
  unfold Cursor.accepts at haccepts
  dsimp only at haccepts
  split at haccepts
  · simp only [Bool.and_eq_true, decide_eq_true_eq] at haccepts
    obtain ⟨hdef, -, hlt⟩ := lt_iff_val.1 (SteadyPrecision.lt_of_add_lt haccepts.1)
    rcases isFinite_or_val_eq hdef with hfinite | htop | hbot
    · exact hfinite
    · exact absurd (htop ▸ hlt) not_top_lt
    · have hstep := h.val_minimalStep_of_infinite hdef (by simp [hbot])
      have hnan := isNaN_add_iff.2 (.inr (.inr (.inr ⟨hbot, hstep⟩)))
      rw [(lt_iff_val.1 haccepts.1).1] at hnan
      cases hnan
  · simp only [Bool.and_eq_true, decide_eq_true_eq] at haccepts
    obtain ⟨-, hdef, hlt⟩ := lt_iff_val.1 (SteadyPrecision.lt_of_lt_sub haccepts.2)
    rcases isFinite_or_val_eq hdef with hfinite | htop | hbot
    · exact hfinite
    · have hstep := h.val_minimalStep_of_infinite hdef (by simp [htop])
      have hnan := isNaN_sub_iff.2 (.inr (.inr (.inl ⟨htop, hstep⟩)))
      rw [(lt_iff_val.1 haccepts.2).2.1] at hnan
      cases hnan
    · exact absurd (hbot ▸ hlt) not_lt_bot

end

end Machine

/-! ## The room before the goal -/

namespace Cursor

variable {K : Type} [Precision K]

/-- Both ends are finite. -/
def IsFinite (c : Cursor K) : Prop :=
  Scalar.isFinite c.position = true ∧ Scalar.isFinite c.goal = true

variable [PlacedPrecision K]

open PlacedPrecision

/-- How many steps of the grid fit between the position and the goal. -/
noncomputable def room (c : Cursor K) : ℝ :=
  |place c.goal - place c.position| / place (Precision.gridStep : K)

/-- A number of searches that the room is enough for, when only the last one finds
nothing. -/
def Affords (c : Cursor K) (n : ℕ) : Prop := (n : ℝ) ≤ c.room + 1

theorem room_nonneg (c : Cursor K) : 0 ≤ c.room :=
  div_nonneg (abs_nonneg _) place_gridStep_pos.le

/-- An accepted abscissa is finite and more than a step of the grid ahead. -/
theorem accepts_ahead {c : Cursor K} (hc : c.IsFinite) {x : K} (h : c.accepts x = true) :
    Scalar.isFinite x = true ∧
      (place c.position + place (Precision.gridStep : K) < place x ∧ place x < place c.goal ∨
        place x + place (Precision.gridStep : K) < place c.position ∧
          place c.goal < place x) := by
  unfold accepts at h
  dsimp only at h
  split at h
  · simp only [Bool.and_eq_true, decide_eq_true_eq] at h
    have hpos := SteadyPrecision.lt_of_add_lt h.1
    have hx := StridingPrecision.isFinite_of_between (Scalar.le_of_lt hpos) (Scalar.le_of_lt h.2)
      hc.1 hc.2
    exact ⟨hx, .inl ⟨place_lt_of_add_lt hc.1 hx h.1, place_lt hx hc.2 h.2⟩⟩
  · simp only [Bool.and_eq_true, decide_eq_true_eq] at h
    have hpos := SteadyPrecision.lt_of_lt_sub h.2
    have hx := StridingPrecision.isFinite_of_between (Scalar.le_of_lt h.1) (Scalar.le_of_lt hpos)
      hc.2 hc.1
    exact ⟨hx, .inr ⟨place_lt_of_lt_sub hc.1 hx h.2, place_lt hc.2 hx h.1⟩⟩

/-- An accepted abscissa takes more than one step away from the room. -/
theorem accepts_room {c c' : Cursor K} (hc : c.IsFinite) (hgoal : c'.goal = c.goal)
    (h : c.accepts c'.position = true) : c'.IsFinite ∧ c'.room + 1 < c.room := by
  obtain ⟨hx, hahead⟩ := accepts_ahead hc h
  refine ⟨⟨hx, hgoal ▸ hc.2⟩, ?_⟩
  have hgrid : 0 < place (Precision.gridStep : K) := place_gridStep_pos
  rw [room, room, hgoal, ← div_self hgrid.ne', ← add_div, div_lt_div_iff_of_pos_right hgrid]
  rcases hahead with ⟨hstep, hbefore⟩ | ⟨hstep, hbefore⟩
  · rw [abs_of_pos (by linarith), abs_of_pos (by linarith)]
    linarith
  · rw [abs_of_neg (by linarith), abs_of_neg (by linarith)]
    linarith

/-- What a search that finds something leaves has less room. -/
theorem room_of_moves {c c' : Cursor K} (hc : c.IsFinite) (h : Moves c c')
    (hfound : c'.isExhausted = false) : c'.IsFinite ∧ c'.room + 1 < c.room :=
  accepts_room hc h.goal (h.finds hfound).2.2

/-- To prove something of every cursor with finite ends, assume it of all those with less
room by more than one step. -/
theorem induction_on_found {P : Cursor K → Prop}
    (step : ∀ c : Cursor K, c.IsFinite →
      (∀ c' : Cursor K, c'.IsFinite → c'.room + 1 < c.room → P c') → P c)
    {c : Cursor K} (hc : c.IsFinite) : P c := by
  obtain ⟨n, hn⟩ := exists_nat_gt c.room
  induction n generalizing c with
  | zero => exact absurd hn (not_lt.2 (by simpa using c.room_nonneg))
  | succ n ih =>
    refine step c hc fun c' hc' hroom => ih hc' ?_
    push_cast at hn
    linarith

end Cursor

/-! ## The bound of the exact numbers -/

/-- The first abscissa of an approach is accepted, and the others approach from there. -/
theorem Search.Approach.uncons {K : Type} [Precision K] [SteadyPrecision K] {c : Cursor K} {x : K}
    {xs : List K} (h : Approach c (x :: xs)) :
    c.accepts x = true ∧ Approach { c with position := x } xs := by
  unfold Approach at h
  unfold Cursor.accepts
  split at h
  · rename_i hc
    obtain ⟨hchain, hpairs, hbefore⟩ := h
    have hx : x < c.goal := hbefore x List.mem_cons_self
    rw [List.isChain_cons_cons] at hchain
    refine ⟨by simp [hc, hx, hchain.1], ?_⟩
    rw [Approach, if_pos hx]
    exact ⟨hchain.2, hpairs.of_cons, fun y hy => hbefore y (List.mem_cons_of_mem x hy)⟩
  · rename_i hc
    obtain ⟨hchain, hpairs, hbefore⟩ := h
    have hx : c.goal < x := hbefore x List.mem_cons_self
    rw [List.isChain_cons_cons] at hchain
    refine ⟨by simp [hc, hx, hchain.1], ?_⟩
    rw [Approach, if_neg (Scalar.lt_asymm hx)]
    exact ⟨hchain.2, hpairs.of_cons, fun y hy => hbefore y (List.mem_cons_of_mem x hy)⟩

/-- No approach is longer than the room. -/
theorem Search.Approach.length_le_room {K : Type} [Precision K] [PlacedPrecision K] {c : Cursor K}
    (hc : c.IsFinite) {xs : List K} (h : Approach c xs) : (xs.length : ℝ) ≤ c.room := by
  induction xs generalizing c with
  | nil => simpa using c.room_nonneg
  | cons x xs ih =>
    obtain ⟨haccepts, hrest⟩ := h.uncons
    have hgoal : ({ c with position := x } : Cursor K).goal = c.goal := rfl
    obtain ⟨hfinite, hroom⟩ := Cursor.accepts_room hc hgoal haccepts
    have := ih hfinite hrest
    push_cast [List.length_cons]
    linarith

instance : BoundedPrecision Exact where
  length_le_stepBound := by
    intro c xs h
    cases xs with
    | nil => exact Nat.zero_le _
    | cons x xs =>
      obtain ⟨position, goal, maximalStep, outcome⟩ := c
      have haccepts := h.uncons.1
      -- with an undefined end, nothing would be accepted
      cases position with
      | undefined => simp [Cursor.accepts] at haccepts
      | real p =>
        cases goal with
        | undefined => simp [Cursor.accepts] at haccepts
        | real q =>
          have hroom := h.length_le_room ⟨rfl, rfl⟩
          exact (Nat.le_floor hroom).trans (Nat.le_succ _)

end CurveSurvey

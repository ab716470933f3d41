import CurveSurvey.Proofs.Viewport.Crossings

/-!
# Changes of sign under golden dichotomy

Golden dichotomy narrows onto a part of its bracket that shows any interest, the far part first,
also when it was called for a change of sign.  The outer samples of that part are the new ends, so
that the change of sign is kept as long as no other interest comes before it.

* `GoldenBracket.Straddles` says that the ends have strictly opposite signs.
* `GoldenBracket.Displaced` says which samples draw a bracket away from its change of sign: the far
  part shows none, but has an undefined section, or an extremum at the far one.
* `GoldenBracket.straddles_narrow_iff` is the step, and `GoldenBracket.straddles_after_iff` the run.
* `GoldenBracket.dichotomy_encloses_change` is the result.  `GoldenBracket.cubic_displaced` is a
  cubic whose only root is left behind for a minimum above zero.
-/

namespace CurveSurvey

namespace Interest

theorem isNone_first_cons (i : Interest) (rest : List Interest) :
    (first (i :: rest)).isNone = (i.isNone && (first rest).isNone) := by
  rw [first_cons]
  cases i <;> rfl

theorem isNone_given {condition : Bool} {i : Interest} (hi : i.isNone = false) :
    (given condition i).isNone = !condition := by
  cases condition with
  | false => rfl
  | true => exact hi

end Interest

namespace Bracket

variable {K : Type} [Scalar K] {b : Bracket K}

/-- A bracket shows no interest when its outer ordinates have no strictly opposite signs, its
middle one is no extremum, and its outer ones are both defined or both not. -/
theorem isNone_anyInterest_iff : b.anyInterest.isNone = true ↔
    signsDiffer b.first.y b.last.y = false ∧ ¬ b.IsExtremum ∧
      Scalar.isNaN b.first.y = Scalar.isNaN b.last.y := by
  unfold anyInterest oddRoot minimum maximum discontinuity IsExtremum separates
  simp only [Interest.isNone_first_cons, Interest.first_nil,
    Interest.isNone_given (i := .root) rfl, Interest.isNone_given (i := .localMinimum) rfl,
    Interest.isNone_given (i := .localMaximum) rfl, Interest.isNone_given (i := .discontinuity) rfl]
  simp [Interest.isNone, not_or, not_and_or, and_assoc, -not_and]

end Bracket

namespace GoldenBracket

section

variable {K : Type} [Scalar K] {f : K → K} {g : GoldenBracket K}

/-- The ends have strictly opposite signs. -/
def Straddles (g : GoldenBracket K) : Prop := Bracket.signsDiffer g.near.y g.far.y = true

/-- The far part shows no change of sign, but something else: a section is undefined, or the far
one is an extremum. -/
structure Displaced (g : GoldenBracket K) : Prop where
  /-- The signs at the outer samples of the far part are not strictly opposite. -/
  same_sign : Bracket.signsDiffer g.innerNear.y g.far.y = false
  /-- What there is instead. -/
  distraction : Scalar.isNaN g.innerNear.y = true ∨ Scalar.isNaN g.innerFar.y = true ∨
    g.farBracket.IsExtremum

theorem narrow_of_far (f : K → K) (h : g.farBracket.anyInterest.isNone = false) :
    g.narrow f = .next (g.shrinkNear f) := by
  rw [narrow, h]
  rfl

theorem narrow_of_near (f : K → K) (hfar : g.farBracket.anyInterest.isNone = true)
    (hnear : g.nearBracket.anyInterest.isNone = false) : g.narrow f = .next (g.shrinkFar f) := by
  rw [narrow, hfar, hnear]
  rfl

theorem narrow_of_none (f : K → K) (hfar : g.farBracket.anyInterest.isNone = true)
    (hnear : g.nearBracket.anyInterest.isNone = true) : g.narrow f = .stop g := by
  rw [narrow, hfar, hnear]
  rfl

end

variable {K : Type} [Scalar K] [OrderedScalar K] {f : K → K} {g : GoldenBracket K}

/-! ## One narrowing -/

/-- Two numbers that are not on different sides of zero, one of them above it. -/
theorem nonneg_of_pos {s t : K} (hdef : Scalar.isNaN s = false) (ht : 0 < t)
    (hsigns : Bracket.signsDiffer s t = false) : 0 ≤ s := by
  have hzero := (Scalar.defined_of_lt ht).1
  refine Scalar.le_of_not_lt hzero hdef fun hneg => ?_
  rw [Bracket.signsDiffer_iff.2 (.inl ⟨hneg, ht⟩)] at hsigns
  cases hsigns

/-- Two numbers that are not on different sides of zero, one of them below it. -/
theorem nonpos_of_neg {s t : K} (hdef : Scalar.isNaN s = false) (ht : t < 0)
    (hsigns : Bracket.signsDiffer s t = false) : s ≤ 0 := by
  have hzero := (Scalar.defined_of_lt ht).2
  refine Scalar.le_of_not_lt hdef hzero fun hpos => ?_
  rw [Bracket.signsDiffer_iff.2 (.inr ⟨ht, hpos⟩)] at hsigns
  cases hsigns

/-- Where the far part shows nothing and both sections are defined, the near part shows a change of
sign or nothing: its extremum would make one of the far part. -/
theorem signsDiffer_near (h : g.Straddles) (hfar : g.farBracket.anyInterest.isNone = true)
    (hnear : g.nearBracket.anyInterest.isNone = false) (hdef : Scalar.isNaN g.innerFar.y = false) :
    Bracket.signsDiffer g.near.y g.innerFar.y = true := by
  obtain ⟨hsame, hflat, hboth⟩ := Bracket.isNone_anyInterest_iff.1 hfar
  obtain ⟨hneardef, hfardef⟩ := Bracket.defined_of_signsDiffer h
  have hsection : Scalar.isNaN g.innerNear.y = false := hboth.trans hfardef
  by_contra hsigns
  rw [Bool.not_eq_true] at hsigns
  have hextremum : g.nearBracket.IsExtremum := by
    by_contra hnone
    have := Bracket.isNone_anyInterest_iff.2 ⟨hsigns, hnone, hneardef.trans hdef.symm⟩
    rw [hnear] at this
    cases this
  rw [Bracket.signsDiffer_comm] at hsigns
  rcases Bracket.signsDiffer_iff.1 h with ⟨hneg, hpos⟩ | ⟨hneg, hpos⟩
  · have hup := nonneg_of_pos hsection hpos hsame
    have hdown := nonpos_of_neg hdef hneg hsigns
    rcases hextremum with ⟨hlt, -⟩ | ⟨-, hlt⟩
    · exact Scalar.not_le_of_lt (Scalar.lt_trans hlt hneg) hup
    · exact hflat (.inl ⟨hlt, Scalar.lt_of_le_of_lt hdown hpos⟩)
  · have hdown := nonpos_of_neg hsection hneg hsame
    have hup := nonneg_of_pos hdef hpos hsigns
    rcases hextremum with ⟨-, hlt⟩ | ⟨hlt, -⟩
    · exact hflat (.inr ⟨hlt, Scalar.lt_of_lt_of_le hneg hup⟩)
    · exact Scalar.not_le_of_lt (Scalar.lt_trans hpos hlt) hdown

/-- Of a far part that shows something, a change of sign is not kept when there is none in it. -/
theorem straddles_shrinkNear_iff (h : g.Straddles)
    (hfar : g.farBracket.anyInterest.isNone = false) :
    (g.shrinkNear f).Straddles ↔ ¬ g.Displaced := by
  have hfardef := (Bracket.defined_of_signsDiffer h).2
  change Bracket.signsDiffer g.innerNear.y g.far.y = true ↔ _
  constructor
  · intro hsigns hdisplaced
    rw [hdisplaced.same_sign] at hsigns
    cases hsigns
  · intro hkept
    by_contra hsigns
    rw [Bool.not_eq_true] at hsigns
    refine hkept ⟨hsigns, ?_⟩
    by_contra hnothing
    rw [not_or, not_or, Bool.not_eq_true] at hnothing
    obtain ⟨hsection, -, hflat⟩ := hnothing
    have := Bracket.isNone_anyInterest_iff.2 ⟨hsigns, hflat, hsection.trans hfardef.symm⟩
    rw [hfar] at this
    cases this

/-- A far part that shows nothing displaces by an undefined section of its own only. -/
theorem displaced_iff_of_isNone (h : g.Straddles)
    (hfar : g.farBracket.anyInterest.isNone = true) :
    g.Displaced ↔ Scalar.isNaN g.innerFar.y = true := by
  obtain ⟨hsame, hflat, hboth⟩ := Bracket.isNone_anyInterest_iff.1 hfar
  have hsection : Scalar.isNaN g.innerNear.y = false :=
    hboth.trans (Bracket.defined_of_signsDiffer h).2
  constructor
  · rintro ⟨-, hundefined | hundefined | hextremum⟩
    · rw [hsection] at hundefined
      cases hundefined
    · exact hundefined
    · exact absurd hextremum hflat
  · intro hundefined
    exact ⟨hsame, .inr (.inl hundefined)⟩

/-- A narrowing loses a change of sign exactly when the bracket is displaced. -/
theorem straddles_narrow_iff (h : g.Straddles) :
    (g.narrow f).state.Straddles ↔ ¬ g.Displaced := by
  cases hfar : g.farBracket.anyInterest.isNone with
  | false =>
    rw [narrow_of_far f hfar]
    exact straddles_shrinkNear_iff h hfar
  | true =>
    rw [displaced_iff_of_isNone h hfar, Bool.not_eq_true]
    cases hnear : g.nearBracket.anyInterest.isNone with
    | false =>
      rw [narrow_of_near f hfar hnear]
      change Bracket.signsDiffer g.near.y g.innerFar.y = true ↔ _
      exact ⟨fun hsigns => (Bracket.defined_of_signsDiffer hsigns).2,
        signsDiffer_near h hfar hnear⟩
    | true =>
      obtain ⟨-, -, hends⟩ := Bracket.isNone_anyInterest_iff.1 hnear
      rw [narrow_of_none f hfar hnear]
      exact iff_of_true h (hends.symm.trans (Bracket.defined_of_signsDiffer h).1)

/-! ## All narrowings -/

/-- The ends keep strictly opposite signs for as long as no bracket is displaced. -/
theorem straddles_after_iff {a b : K} (h : Bracket.signsDiffer (f a) (f b) = true) (n : ℕ) :
    (∀ k ≤ n, (after f a b k).Straddles) ↔ ∀ k < n, ¬ (after f a b k).Displaced := by
  induction n with
  | zero =>
    refine iff_of_true (fun k hk => ?_) nofun
    rw [Nat.le_zero.1 hk]
    exact h
  | succ n ih =>
    rw [Nat.forall_lt_succ_right, ← ih]
    constructor
    · intro hall
      refine ⟨fun k hk => hall k (Nat.le_succ_of_le hk), ?_⟩
      have hnext := hall (n + 1) le_rfl
      rw [after_succ] at hnext
      exact (straddles_narrow_iff (hall n (Nat.le_succ n))).1 hnext
    · rintro ⟨hall, hkept⟩ k hk
      rcases Nat.le_succ_iff.1 hk with hk | rfl
      · exact hall k hk
      · rw [after_succ]
        exact (straddles_narrow_iff (hall n le_rfl)).2 hkept

end GoldenBracket

namespace GoldenBracket

variable {K : Type} [Precision K] [OrderedScalar K] {f : K → K}

/-- Golden dichotomy of a change of sign returns the far end of its last bracket as a zero.  Its
ends have strictly opposite signs after every narrowing exactly when no bracket is displaced, and
then the change of sign is between the point returned and the near end. -/
theorem dichotomy_encloses_change {a b : K} (h : Bracket.signsDiffer (f a) (f b) = true) (n : ℕ) :
    dichotomy f a b .root n = (after f a b n).far.withY 0 ∧
      ((∀ k ≤ n, (after f a b k).Straddles) ↔ ∀ k < n, ¬ (after f a b k).Displaced) ∧
      ((∀ k < n, ¬ (after f a b k).Displaced) →
        Bracket.signsDiffer (f (after f a b n).near.x) (f (dichotomy f a b .root n).x) = true) := by
  have hpoint : dichotomy f a b .root n = (after f a b n).far.withY 0 := rfl
  refine ⟨hpoint, straddles_after_iff h n, fun hkept => ?_⟩
  have hgraph := onGraph_after f a b n
  rw [hpoint, Point.withY_x, ← hgraph.near, ← hgraph.far]
  exact (straddles_after_iff h n).2 hkept n le_rfl

/-- A line is never displaced from its root. -/
theorem dichotomy_encloses_root_of_line :
    let f := fun x : Float => x - 0.3
    Bracket.signsDiffer (f 0) (f 1) = true ∧ (∀ k < 9, ¬ (after f 0 1 k).Displaced) ∧
      Bracket.signsDiffer (f (after f 0 1 9).near.x) (f (dichotomy f 0 1 .root 9).x) = true := by
  intro f
  have hsigns : Bracket.signsDiffer (f 0) (f 1) = true := by decide +kernel
  have hstraddles : ∀ k < 10, Bracket.signsDiffer (after f 0 1 k).near.y (after f 0 1 k).far.y =
      true := by decide +kernel
  obtain ⟨-, hiff, hencloses⟩ := dichotomy_encloses_change hsigns 9
  have hkept := hiff.1 fun k hk => hstraddles k (Nat.lt_succ_of_le hk)
  exact ⟨hsigns, hkept, hencloses hkept⟩

/-- A cubic with one root, at 1.002, and a minimum above zero, near 1.014. -/
def cubic (x : Float) : Float := (x - 1.002) * ((x - 1.014) * (x - 1.014) + 1e-5)

/-- The minimum of the cubic draws the bracket away from its root: after the first narrowing both
ends are positive, and after nine of them the point returned as a zero is near the minimum. -/
theorem cubic_displaced :
    Bracket.signsDiffer (cubic 1) (cubic 1.02) = true ∧
      0 < cubic (after cubic 1 1.02 1).near.x ∧ 0 < cubic (after cubic 1 1.02 1).far.x ∧
        1.01 < (after cubic 1 1.02 9).near.x ∧ 0 < cubic (dichotomy cubic 1 1.02 .root 9).x ∧
          ((dichotomy cubic 1 1.02 .root 9).y == 0) = true := by
  decide +kernel

end GoldenBracket

end CurveSurvey

import CurveSurvey.Proofs.Opposite
import CurveSurvey.Proofs.Refinement

/-!
# Symmetries of the bracket tests

What a test finds in a bracket when the samples are taken in the opposite order, and when their
ordinates are negated.

* `Bracket.anyInterest_reversed` and its companions: root, extremum and discontinuity look the
  same from both sides.
* `Bracket.IsLopsided`: an extremum that stands out of the noise on one flank only.  The noise is
  measured on the flank that comes first, so this is where the direction matters
  (`Bracket.notable_reversed_iff`).
* `Bracket.Opposes.classify_eq`: of the opposite of a bracket, the opposite test finds the
  opposite.
* `BracketTest.classify_symmetries` puts both together.
-/

namespace CurveSurvey

open Scalar (Same)

/-! ## Reversal -/

namespace Bracket

section

variable {K : Type} [Scalar K] (b : Bracket K)

theorem oddRoot_reversed : b.reversed.oddRoot = b.oddRoot := by
  rw [oddRoot, oddRoot, signsDiffer_comm]
  rfl

theorem minimum_reversed : b.reversed.minimum = b.minimum := by
  rw [minimum, minimum, Bool.and_comm]
  rfl

theorem maximum_reversed : b.reversed.maximum = b.maximum := by
  rw [maximum, maximum, Bool.and_comm]
  rfl

theorem discontinuity_reversed : b.reversed.discontinuity = b.discontinuity := by
  rw [discontinuity, discontinuity, separates, separates, bne_comm]
  rfl

theorem evenOrOddRoot_reversed : b.reversed.evenOrOddRoot = b.evenOrOddRoot := by
  rw [evenOrOddRoot, evenOrOddRoot, oddRoot_reversed, minimum_reversed, maximum_reversed]

theorem anyInterest_reversed : b.reversed.anyInterest = b.anyInterest := by
  rw [anyInterest, anyInterest, oddRoot_reversed, minimum_reversed, maximum_reversed,
    discontinuity_reversed]

end

variable {K : Type} [Precision K] (b : Bracket K)

/-- A bracket with an extremum that stands out of the noise on exactly one of its flanks. -/
def IsLopsided : Prop := b.anyInterest.isExtremum = true ∧ b.reversed.isNoise ≠ b.isNoise

/-- A direction that starts on the noisy flank of a lopsided bracket finds nothing, and the other
one finds the extremum. -/
theorem notable_of_isLopsided (h : b.IsLopsided) :
    b.notable = (if b.isNoise then .none else b.anyInterest) ∧
      b.reversed.notable = if b.isNoise then b.anyInterest else .none := by
  obtain ⟨hextremum, hne⟩ := h
  rw [notable, notable, anyInterest_reversed, hextremum, Bool.eq_not.2 hne]
  cases b.isNoise <;> exact ⟨rfl, rfl⟩

theorem notable_reversed_iff : b.reversed.notable = b.notable ↔ ¬ b.IsLopsided := by
  constructor
  · rintro heq h
    obtain ⟨hnotable, hreversed⟩ := b.notable_of_isLopsided h
    have hsome : b.anyInterest ≠ .none := fun hnone => by
      have hextremum := h.1
      rw [hnone] at hextremum
      cases hextremum
    rw [hnotable, hreversed] at heq
    split at heq
    · exact hsome heq
    · exact hsome heq.symm
  · intro h
    rw [notable, notable, anyInterest_reversed]
    cases hextremum : b.anyInterest.isExtremum with
    | false => rfl
    | true => rw [of_not_not fun hne => h ⟨hextremum, hne⟩]

/-- Only the noise on the flanks tells the directions apart. -/
theorem classify_reversed_iff (test : BracketTest) :
    test.classify b.reversed = test.classify b ↔ ¬ (test = .notable ∧ b.IsLopsided) := by
  cases test with
  | oddRoot => exact iff_of_true b.oddRoot_reversed fun h => nomatch h.1
  | evenOrOddRoot => exact iff_of_true b.evenOrOddRoot_reversed fun h => nomatch h.1
  | minimum => exact iff_of_true b.minimum_reversed fun h => nomatch h.1
  | maximum => exact iff_of_true b.maximum_reversed fun h => nomatch h.1
  | discontinuity => exact iff_of_true b.discontinuity_reversed fun h => nomatch h.1
  | notable => exact b.notable_reversed_iff.trans (not_congr (and_iff_right rfl).symm)

end Bracket

/-! ## Negation -/

/-- The test for the opposite of what a test looks for. -/
def BracketTest.opposite : BracketTest → BracketTest
  | .oddRoot => .oddRoot
  | .evenOrOddRoot => .evenOrOddRoot
  | .minimum => .maximum
  | .maximum => .minimum
  | .discontinuity => .discontinuity
  | .notable => .notable

/-- The bracket with all ordinates negated. -/
def Bracket.negated {K : Type} [Scalar K] (b : Bracket K) : Bracket K :=
  ⟨b.first.withY (-b.first.y), b.middle.withY (-b.middle.y), b.last.withY (-b.last.y)⟩

theorem Bracket.opposes_negated {K : Type} [Precision K] (b : Bracket K) : b.Opposes b.negated :=
  ⟨⟨rfl, .refl _⟩, ⟨rfl, .refl _⟩, ⟨rfl, .refl _⟩⟩

namespace Interest

theorem opposite_eq_none_iff {i : Interest} : i.opposite = .none ↔ i = .none := by
  cases i <;> decide

theorem isExtremum_opposite (i : Interest) : i.opposite.isExtremum = i.isExtremum := by
  cases i <;> rfl

theorem opposite_given (condition : Bool) (i : Interest) :
    (given condition i).opposite = given condition i.opposite := by
  cases condition <;> rfl

theorem first_concat (candidates : List Interest) (i : Interest) :
    first (candidates ++ [i]) = if first candidates = .none then i else first candidates := by
  induction candidates with
  | nil => cases i <;> rfl
  | cons j rest ih =>
    rw [List.cons_append, first_cons, first_cons]
    by_cases hj : j = .none
    · rw [if_pos hj, if_pos hj, ih]
    · rw [if_neg hj, if_neg hj, if_neg hj]

end Interest

variable {K : Type} [Precision K] {b b' : Bracket K}

/-- A discontinuity is the last thing to look for. -/
theorem Bracket.anyInterest_eq_evenOrOddRoot (b : Bracket K) :
    b.anyInterest = if b.evenOrOddRoot = .none then b.discontinuity else b.evenOrOddRoot :=
  Interest.first_concat [b.oddRoot, b.minimum, b.maximum] b.discontinuity

namespace Bracket.Opposes

theorem discontinuity_opposite [InvolutiveScalar K] (h : b.Opposes b') :
    b'.discontinuity = b.discontinuity.opposite := by
  rw [h.discontinuity_eq, discontinuity, Interest.opposite_given]
  rfl

theorem oddRoot_opposite [InvolutiveScalar K] (h : b.Opposes b') :
    b'.oddRoot = b.oddRoot.opposite := by
  rw [h.oddRoot_eq, oddRoot, Interest.opposite_given]
  rfl

theorem anyInterest_eq [InvolutiveScalar K] (h : b.Opposes b') :
    b'.anyInterest = b.anyInterest.opposite := by
  have hroot : b'.evenOrOddRoot = b.evenOrOddRoot.opposite := BracketTest.dual_evenOrOddRoot h
  rw [anyInterest_eq_evenOrOddRoot, anyInterest_eq_evenOrOddRoot, hroot, h.discontinuity_opposite]
  simp only [Interest.opposite_eq_none_iff]
  exact (apply_ite Interest.opposite _ _ _).symm

variable [NumericScalar K]

/-- A flank is as steep as its reflection. -/
theorem isNoise_eq (h : b.Opposes b') : b'.isNoise = b.isNoise := by
  have hrise : Same (b'.first.y - b'.middle.y) (-(b.first.y - b.middle.y)) :=
    (h.first.y.sub h.middle.y).trans (Scalar.same_neg_sub_neg _ _)
  rw [isNoise, isNoise, h.middle.x,
    InvolutiveScalar.abs_same (NumericScalar.div_same hrise b.middle.x), NumericScalar.neg_div,
    InvolutiveScalar.abs_neg]

theorem classify_eq (h : b.Opposes b') (test : BracketTest) :
    test.opposite.classify b' = (test.classify b).opposite := by
  cases test with
  | oddRoot => exact h.oddRoot_opposite
  | evenOrOddRoot => exact BracketTest.dual_evenOrOddRoot h
  | minimum => exact h.maximum_eq
  | maximum => exact h.minimum_eq
  | discontinuity => exact h.discontinuity_opposite
  | notable =>
    show b'.notable = b.notable.opposite
    rw [notable, notable, h.anyInterest_eq, h.isNoise_eq, Interest.isExtremum_opposite]
    split <;> rfl

end Bracket.Opposes

namespace BracketTest

variable [NumericScalar K]

/-- The tests have no direction, except that a noticeable extremum must stand out of the noise on
the flank that comes first: samples in the opposite order show the same unless the extremum does
so on one flank only, and then it is found from that flank.  Nor do they have a preferred sign:
of negated ordinates, the opposite test finds the opposite. -/
theorem classify_symmetries (test : BracketTest) (b : Bracket K) :
    (test.classify b.reversed = test.classify b ↔ ¬ (test = .notable ∧ b.IsLopsided)) ∧
      (b.IsLopsided →
        notable.classify b = (if b.isNoise then .none else b.anyInterest) ∧
          notable.classify b.reversed = if b.isNoise then b.anyInterest else .none) ∧
      test.opposite.classify b.negated = (test.classify b).opposite := by
  refine ⟨?_, ?_, ?_⟩
  · exact b.classify_reversed_iff test
  · exact b.notable_of_isLopsided
  · exact b.opposes_negated.classify_eq test

/-- A minimum that is level with the sample before it, but for the noise. -/
def unevenBracket : Bracket Float := ⟨⟨999999, 1e-12⟩, ⟨1000000, 0⟩, ⟨1000001, 1⟩⟩

/-- The minimum is found from the right only. -/
theorem classify_symmetries_uneven :
    unevenBracket.IsLopsided ∧
      notable.classify unevenBracket = .none ∧
      notable.classify unevenBracket.reversed = .localMinimum ∧
      minimum.classify unevenBracket.reversed = .localMinimum ∧
      maximum.classify unevenBracket.negated = .localMaximum := by
  have hlopsided : unevenBracket.IsLopsided := ⟨by decide +kernel, by decide +kernel⟩
  have hnoise : unevenBracket.isNoise = true := by decide +kernel
  have hany : unevenBracket.anyInterest = .localMinimum := by decide +kernel
  have hminimum : minimum.classify unevenBracket = .localMinimum := by decide +kernel
  obtain ⟨hreversed, hnotable, hnegated⟩ := classify_symmetries .minimum unevenBracket
  obtain ⟨hfirst, hlast⟩ := hnotable hlopsided
  rw [hnoise, if_pos rfl] at hfirst hlast
  rw [hminimum] at hreversed hnegated
  exact ⟨hlopsided, hfirst, hlast.trans hany, hreversed.2 nofun, hnegated⟩

/-- The direction matters for an extremum that stands out of the noise on one flank only, and a
test for one kind of extremum does not find the other kind in negated ordinates. -/
theorem symmetries_restricted :
    notable.classify unevenBracket.reversed ≠ notable.classify unevenBracket ∧
      minimum.classify unevenBracket.negated ≠ (minimum.classify unevenBracket).opposite := by
  constructor <;> decide +kernel

end BracketTest

end CurveSurvey

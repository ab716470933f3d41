import CurveSurvey.Proofs.Binary.Arithmetic

/-!
# Signs in binary arithmetic

Rounding to nearest treats both signs alike, so an operation on negatives gives the
negative result, except that two zeros of different signs add up to the positive zero.

* `Binary.Alike` identifies the two zeros and nothing else; it is the machine equality,
  with NaN equal to itself (`Binary.alike_iff`).
* Products and quotients carry the signs of their operands exactly (`Binary.mul_neg_left`,
  `Binary.div_neg_left`, `Binary.div_neg_right`), sums up to the sign of a zero
  (`Binary.alike_neg_add`).
* Operands may be replaced by alike ones, except that a zero divisor passes its sign on
  (`Binary.Alike.add`, `Binary.Alike.mul`, `Binary.Alike.div_left`,
  `Binary.Alike.div_right`).
-/

namespace CurveSurvey

namespace Binary

open Float.Model (Format UnpackedFloat)
open Float.Model.UnpackedFloat hiding compare round

variable {spec : Format} {a b c d : UnpackedFloat}

/-- The same float, up to the sign of a zero. -/
inductive Alike : UnpackedFloat → UnpackedFloat → Prop where
  /-- Every float is like itself. -/
  | refl (a : UnpackedFloat) : Alike a a
  /-- The two zeros are alike. -/
  | zero (s s' : Sign) : Alike (.zero s) (.zero s')

namespace Alike

theorem stored (h : Alike a b) : Alike (Binary.stored spec a) (Binary.stored spec b) := by
  cases h with
  | refl => exact .refl _
  | zero s s' =>
    rw [stored_zero, stored_zero]
    exact .zero s s'

theorem abs_eq (h : Alike a b) : a.abs = b.abs := by
  cases h <;> rfl

theorem isFinite_eq (h : Alike a b) : a.isFinite = b.isFinite := by
  cases h <;> rfl

end Alike

/-- Only the zeros are equal without being the same float. -/
theorem alike_iff : Alike a b ↔ a.beq b = true ∨ a = .notANumber ∧ b = .notANumber := by
  rw [beq_iff_ne_notANumber_and_eq]
  constructor
  · intro h
    cases h with
    | refl =>
      by_cases ha : a = .notANumber
      · exact .inr ⟨ha, ha⟩
      · exact .inl ⟨ha, ha, .inl rfl⟩
    | zero s s' =>
      refine .inl ⟨nofun, nofun, ?_⟩
      cases s <;> cases s' <;> simp
  · rintro (⟨-, -, rfl | ⟨rfl, rfl⟩ | ⟨rfl, rfl⟩⟩ | ⟨rfl, rfl⟩)
    · exact .refl a
    · exact .zero _ _
    · exact .zero _ _
    · exact .refl _

theorem abs_neg (a : UnpackedFloat) : a.neg.abs = a.abs := by
  cases a <;> rfl

/-! ## Products -/

theorem sign_neg_mul (s t : Sign) : -s * t = -(s * t) := by
  cases s <;> cases t <;> rfl

theorem sign_mul_comm (s t : Sign) : s * t = t * s := by
  cases s <;> cases t <;> rfl

theorem roundWithAccuracy_neg (s : Sign) (m : ℕ) (e : ℤ) (acc : Accuracy) :
    roundWithAccuracy spec (-s) m e acc = (roundWithAccuracy spec s m e acc).neg := by
  unfold roundWithAccuracy
  dsimp only
  split_ifs <;> rfl

theorem mul_comm (a b : UnpackedFloat) : mul spec a b = mul spec b a := by
  cases a <;> cases b <;>
    simp only [mul, sign_mul_comm, Nat.mul_comm, Int.add_comm]

theorem mul_neg_left (a b : UnpackedFloat) : mul spec a.neg b = (mul spec a b).neg := by
  rcases a with s | _ | s | ⟨s, m, e, hm⟩ <;> rcases b with t | _ | t | ⟨t, n, f, hn⟩ <;>
    simp only [mul, UnpackedFloat.neg, sign_neg_mul, roundWithAccuracy_neg]

theorem Alike.mul_left (h : Alike a b) (c : UnpackedFloat) :
    Alike (mul spec a c) (mul spec b c) := by
  cases h with
  | refl => exact .refl _
  | zero s s' =>
    cases c with
    | infinity | notANumber => exact .refl _
    | zero | finite => exact .zero _ _

/-! ## Quotients -/

theorem sign_neg_div (s t : Sign) : -s / t = -(s / t) := by
  cases s <;> cases t <;> rfl

theorem sign_div_neg (s t : Sign) : s / -t = -(s / t) := by
  cases s <;> cases t <;> rfl

theorem div_neg_left (a b : UnpackedFloat) : div spec a.neg b = (div spec a b).neg := by
  rcases a with s | _ | s | ⟨s, m, e, hm⟩ <;> rcases b with t | _ | t | ⟨t, n, f, hn⟩ <;>
    simp only [div, UnpackedFloat.neg, sign_neg_div, roundWithAccuracy_neg]

theorem div_neg_right (a b : UnpackedFloat) : div spec a b.neg = (div spec a b).neg := by
  rcases a with s | _ | s | ⟨s, m, e, hm⟩ <;> rcases b with t | _ | t | ⟨t, n, f, hn⟩ <;>
    simp only [div, UnpackedFloat.neg, sign_div_neg, roundWithAccuracy_neg]

theorem Alike.div_left (h : Alike a b) (c : UnpackedFloat) :
    Alike (div spec a c) (div spec b c) := by
  cases h with
  | refl => exact .refl _
  | zero s s' =>
    cases c with
    | zero | notANumber => exact .refl _
    | infinity | finite => exact .zero _ _

/-- A zero divisor passes its sign on. -/
theorem Alike.div_right (h : Alike a b) (c : UnpackedFloat) :
    div spec c a = div spec c b ∨ div spec c a = (div spec c b).neg := by
  cases h with
  | refl => exact .inl rfl
  | zero s s' =>
    by_cases hs : s = s'
    · rw [hs]
      exact .inl rfl
    · have hneg : .zero s = (UnpackedFloat.zero s').neg := by
        cases s <;> cases s' <;> first | rfl | exact absurd rfl hs
      rw [hneg]
      exact .inr (div_neg_right c _)

/-! ## Sums -/

theorem add_comm (a b : UnpackedFloat) : add spec a b = add spec b a := by
  cases a with
  | notANumber => cases b <;> rfl
  | infinity s =>
    cases b with
    | infinity t => cases s <;> cases t <;> rfl
    | notANumber | zero | finite => rfl
  | zero s =>
    cases b with
    | zero t => cases s <;> cases t <;> rfl
    | notANumber | infinity | finite => rfl
  | finite s m e hm =>
    cases b with
    | finite t n f hn => simp only [add, min_comm e f, Int.add_comm (s.apply _)]
    | notANumber | infinity | zero => rfl

theorem round_neg (s : Sign) (m : ℕ) (e : ℤ) :
    UnpackedFloat.round spec (-s) m e = (UnpackedFloat.round spec s m e).neg :=
  roundWithAccuracy_neg s _ _ _

/-- The sum of two numbers that cancel is zero, whichever their signs are. -/
theorem alike_normalize_neg (M e : ℤ) (z z' : Sign) :
    Alike (normalize spec (-M) e z) (normalize spec M e z').neg := by
  unfold UnpackedFloat.normalize
  rcases lt_trichotomy M 0 with h | rfl | h
  · rw [compare_lt_iff_lt.mpr h, compare_gt_iff_gt.mpr (by omega : -M > 0)]
    exact round_neg .negative _ _ ▸ .refl _
  · rw [neg_zero, compare_eq_iff_eq.mpr rfl]
    exact .zero z (-z')
  · rw [compare_gt_iff_gt.mpr h, compare_lt_iff_lt.mpr (by omega : -M < 0), neg_neg]
    exact round_neg .positive _ _ ▸ .refl _

theorem alike_neg_add (a b : UnpackedFloat) :
    Alike (add spec a.neg b.neg) (add spec a b).neg := by
  cases a with
  | notANumber => exact .refl _
  | infinity s =>
    cases b with
    | infinity t => cases s <;> cases t <;> exact .refl _
    | notANumber | zero | finite => exact .refl _
  | zero s =>
    cases b with
    | zero t => cases s <;> cases t <;> constructor
    | notANumber | infinity | finite => exact .refl _
  | finite s m e hm =>
    cases b with
    | finite t n f hn =>
      simp only [add, UnpackedFloat.neg, apply_neg, ← neg_add]
      exact alike_normalize_neg _ _ _ _
    | notANumber | infinity | zero => exact .refl _

theorem Alike.add_left (h : Alike a b) (c : UnpackedFloat) :
    Alike (add spec a c) (add spec b c) := by
  cases h with
  | refl => exact .refl _
  | zero s s' =>
    cases c with
    | infinity | notANumber | finite => exact .refl _
    | zero t =>
      cases s <;> cases s' <;> cases t <;> constructor

end Binary

end CurveSurvey

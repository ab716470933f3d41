import CurveSurvey.Proofs.Binary.Rounding

/-!
# Storing floats

A rounded number is stored in as many bits as its format has.  A float of the
format comes back unchanged, and a number that is too large comes back as
infinity.

* `Binary.stored` is what is left of a float after it was stored.
* `Binary.Nearest` is all that a program can rely on: storing a rounded number
  passes no float of the format, and is close unless it gave infinity.
-/

namespace CurveSurvey

namespace Binary

open Float.Model (Format UnpackedFloat)
open Float.Model.UnpackedFloat hiding compare round

variable {spec : Format}

/-! ## Packing -/

/-- From this exponent on a number is too large for the format. -/
def overflowExponent (spec : Format) : ℤ :=
  2 ^ spec.exponentBits - 1 - (spec.exponentBias + spec.mantissaBitsWithoutImplicit)

/-- The floats that the format has a bit pattern for. -/
def Representable (spec : Format) : UnpackedFloat → Prop
  | .finite _ m e _ => Fits spec m e ∧ e < overflowExponent spec
  | _ => True

theorem Representable.canonical {u : UnpackedFloat} (h : Representable spec u) :
    Canonical spec u := by
  rcases u with _ | _ | _ | _
  · trivial
  · trivial
  · trivial
  · exact h.1

theorem minExponent_eq (spec : Format) :
    spec.minExponent = 1 - (spec.exponentBias + spec.mantissaBitsWithoutImplicit) := by
  have : 1 ≤ 2 ^ (spec.exponentBits - 1) := Nat.one_le_two_pow
  simp only [Format.minExponent, Format.exponentBias, Format.mantissaBits]
  push_cast [this]
  ring

/-- A bit pattern is unpacked to a float that the format has. -/
theorem representable_unpack (he : 2 ≤ spec.exponentBits) (b : BitVec spec.numBits) :
    Representable spec (unpack spec b) := by
  have hmin := minExponent_eq spec
  have hover : (4 : ℤ) ≤ 2 ^ spec.exponentBits := by
    exact_mod_cast Nat.pow_le_pow_right two_pos he
  have hmant := (unpackMantissa b).isLt
  have hp : 2 ^ spec.mantissaBits = 2 ^ spec.mantissaBitsWithoutImplicit * 2 := by
    rw [Format.mantissaBits, Nat.add_comm, pow_succ]
  fun_cases unpack spec b with
  | case1 => trivial
  | case2 => trivial
  | case3 => trivial
  | case4 mvec evec e svec s hne hevec hm =>
    have h0 : evec.toNat = 0 := by rw [hevec]; rfl
    refine ⟨⟨?_, ?_, .inr ?_⟩, ?_⟩ <;> simp only [overflowExponent, e, h0, mvec] <;> omega
  | case5 mvec evec e svec s hne hevec =>
    have hnat : (1#1 ++ mvec).toNat = 2 ^ spec.mantissaBitsWithoutImplicit + mvec.toNat := by
      have := Nat.two_pow_add_eq_or_of_lt mvec.isLt 1
      simpa [BitVec.toNat_append, Nat.shiftLeft_eq] using this.symm
    have h0 : evec.toNat ≠ 0 := fun h => hevec (BitVec.eq_of_toNat_eq (by simpa using h))
    have h1 : evec.toNat < 2 ^ spec.exponentBits - 1 := by
      rw [BitVec.neg_one_eq_allOnes, ← ne_eq, ← BitVec.lt_allOnes_iff, BitVec.lt_def,
        BitVec.toNat_allOnes] at hne
      exact hne
    have h1' : (evec.toNat : ℤ) < 2 ^ spec.exponentBits - 1 := by
      have : 1 ≤ 2 ^ spec.exponentBits := Nat.one_le_two_pow
      have := (Nat.cast_lt (α := ℤ)).mpr h1
      push_cast [Nat.one_le_two_pow] at this
      exact this
    refine ⟨⟨?_, ?_, .inl ?_⟩, ?_⟩ <;> simp only [overflowExponent, e, hnat] <;> omega

/-- What is left of a float when it is stored. -/
def stored (spec : Format) (u : UnpackedFloat) : UnpackedFloat := unpack spec (pack spec u)

theorem unpack_packedInfinity (s : Sign) : unpack spec (packedInfinity spec s) = .infinity s := by
  simp [unpack, packedInfinity]

theorem biased_toNat {e : ℤ} (hmin : spec.minExponent ≤ e) :
    ((e + spec.exponentBias + spec.mantissaBitsWithoutImplicit).toNat : ℤ) =
      e + spec.exponentBias + spec.mantissaBitsWithoutImplicit := by
  rw [minExponent_eq] at hmin
  omega

theorem stored_of_representable {u : UnpackedFloat}
    (h : Representable spec u) : stored spec u = u := by
  have hp : 2 ^ spec.mantissaBits = 2 ^ spec.mantissaBitsWithoutImplicit * 2 := by
    rw [Format.mantissaBits, Nat.add_comm, pow_succ]
  unfold stored
  fun_cases pack spec u with
  | case1 => exact unpack_packedNaN
  | case2 s => exact unpack_packedInfinity s
  | case3 s => exact unpack_packedZero
  | case4 s m e hm biased hover =>
    exfalso
    have := biased_toNat h.1.le
    have := h.2
    have hover' : (2 : ℤ) ^ spec.exponentBits ≤ biased + 1 := by exact_mod_cast hover
    simp only [overflowExponent, biased] at *
    omega
  | case5 s m e hm bits biased hover hfull =>
    obtain ⟨⟨hlt, hmin, -⟩, -⟩ := h
    have hb := biased_toNat hmin
    rw [minExponent_eq] at hmin
    rw [hp] at hlt
    have hle : 2 ^ spec.mantissaBitsWithoutImplicit ≤ m := by
      have : bits = spec.mantissaBitsWithoutImplicit := by
        rw [Format.mantissaBits] at hfull
        omega
      exact this ▸ Nat.log2_self_le hm.ne'
    have hexp : (BitVec.ofNat spec.exponentBits biased).toNat = biased := by
      rw [BitVec.toNat_ofNat, Nat.mod_eq_of_lt (by omega)]
    have hmant : (1#1 ++ BitVec.ofNat spec.mantissaBitsWithoutImplicit m).toNat = m := by
      have := Nat.two_pow_add_eq_or_of_lt
        (BitVec.ofNat spec.mantissaBitsWithoutImplicit m).isLt 1
      rw [BitVec.toNat_ofNat, mul_one] at this
      rw [BitVec.toNat_append, BitVec.toNat_ofNat, BitVec.toNat_ofNat, Nat.shiftLeft_eq,
        Nat.mod_eq_of_lt (by decide), one_mul, ← this, Nat.mod_eq_sub_mod hle,
        Nat.mod_eq_of_lt (by omega)]
      omega
    unfold unpack
    simp only [unpackMantissa_packComponents, unpackExponent_packComponents,
      unpackSign_packComponents, Sign.ofBitVec_toBitVec, hexp, hmant]
    rw [if_neg, if_neg]
    · congr 1
      omega
    · intro h0
      rw [h0] at hexp
      simp at hexp
      omega
    · intro h1
      rw [h1, BitVec.neg_one_eq_allOnes, BitVec.toNat_allOnes] at hexp
      omega
  | case6 s m e hm bits biased hover hfull =>
    obtain ⟨⟨hlt, hmin, hm'⟩, -⟩ := h
    have hbits : m < 2 ^ spec.mantissaBitsWithoutImplicit := by
      rw [← Nat.log2_lt hm.ne']
      have := (Nat.log2_lt hm.ne').mpr hlt
      rw [Format.mantissaBits] at this hfull
      omega
    have hexp := hm'.resolve_left (not_le.mpr hbits)
    rw [minExponent_eq] at hexp
    have hmant : (BitVec.ofNat spec.mantissaBitsWithoutImplicit m).toNat = m := by
      rw [BitVec.toNat_ofNat, Nat.mod_eq_of_lt hbits]
    unfold unpack
    simp only [unpackMantissa_packComponents, unpackExponent_packComponents,
      unpackSign_packComponents, Sign.ofBitVec_toBitVec, hmant]
    rw [if_neg, if_pos trivial, dif_neg]
    · congr 1
      rw [hexp, BitVec.toNat_ofNat, Nat.zero_mod]
      push_cast
      ring
    · intro h0
      rw [h0] at hmant
      simp at hmant
      omega
    · intro h1
      have := congrArg BitVec.toNat h1
      simp [BitVec.neg_one_eq_allOnes] at this
      omega

/-- A number that is too large is stored as infinity. -/
theorem stored_of_overflow {s : Sign} {m : ℕ} {e : ℤ} (hm : 0 < m) (h : Fits spec m e)
    (hover : overflowExponent spec ≤ e) : stored spec (.finite s m e hm) = .infinity s := by
  have hb := biased_toNat h.le
  unfold stored pack
  rw [if_pos, unpack_packedInfinity]
  have : (2 : ℤ) ^ spec.exponentBits ≤
      (e + spec.exponentBias + spec.mantissaBitsWithoutImplicit).toNat + 1 := by
    rw [hb]
    rw [overflowExponent] at hover
    omega
  exact_mod_cast this

/-- What storing a rounded number amounts to: no float lies between the number and
the stored one, and the error is small unless the stored one is infinite. -/
structure Nearest (spec : Format) (x : EReal) (w : UnpackedFloat) : Prop where
  /-- The stored float is a number. -/
  defined : w ≠ .notANumber
  /-- Rounding up does not pass a float. -/
  le_of_le : ∀ y, Representable spec y → y ≠ .notANumber → x ≤ value y → value w ≤ value y
  /-- Rounding down does not pass a float. -/
  ge_of_ge : ∀ y, Representable spec y → y ≠ .notANumber → value y ≤ x → value y ≤ value w
  /-- Rounding is off by half a unit in the last place, or by half the smallest number. -/
  near : ∀ u v : ℝ, x = u → value w = v →
    |v - u| ≤ |u| / 2 ^ spec.mantissaBits + 2 ^ spec.minExponent / 2

/-- A number that is too large lies beyond every finite float. -/
theorem Representable.le_of_overflow {y : UnpackedFloat} (hy : Representable spec y) {m : ℕ}
    {e : ℤ} (hm : 0 < m) (h : Fits spec m e) (hover : overflowExponent spec ≤ e)
    (hle : ((m * 2 ^ e : ℝ) : EReal) ≤ value y) : value y = ⊤ := by
  have hpos := scaled_pos hm e
  rcases y with ⟨_ | _⟩ | _ | s | ⟨_ | _, k, f, hk⟩
  · exact absurd hle (not_le.mpr (EReal.bot_lt_coe _))
  · rfl
  · exact absurd (EReal.coe_nonpos.mp hle) (not_le.mpr hpos)
  · exact absurd (EReal.coe_nonpos.mp hle) (not_le.mpr hpos)
  · have : (m * 2 ^ e : ℝ) ≤ -(k * 2 ^ f) := EReal.coe_le_coe_iff.mp hle
    have := scaled_pos hk f
    linarith
  · have := hy.1.scaled_lt h (by have := hy.2; omega)
    exact absurd (EReal.coe_le_coe_iff.mp hle) (not_le.mpr this)

theorem representable_neg {u : UnpackedFloat} (h : Representable spec u) :
    Representable spec u.neg := by
  rcases u with _ | _ | _ | _ <;> exact h

theorem Rounds.nearest {x : ℝ} {r : UnpackedFloat} (h : Rounds spec x r) :
    Nearest spec x (stored spec r) := by
  by_cases hr : Representable spec r
  · rw [stored_of_representable hr]
    refine ⟨h.ne_notANumber, fun y hy hy' => h.le_of_le hy.canonical hy',
      fun y hy hy' => h.ge_of_ge hy.canonical hy', fun u v hu hv => ?_⟩
    obtain ⟨v', hv', hnear⟩ := h.near
    obtain rfl : x = u := EReal.coe_eq_coe_iff.mp hu
    obtain rfl : v' = v := EReal.coe_eq_coe_iff.mp (hv'.symm.trans hv)
    exact hnear
  · have hcan := h.canonical
    rcases r with _ | _ | _ | ⟨s, m, e, hm⟩
    · exact absurd trivial hr
    · exact absurd trivial hr
    · exact absurd trivial hr
    have hover : overflowExponent spec ≤ e := not_lt.mp fun hlt => hr ⟨hcan, hlt⟩
    rw [stored_of_overflow hm hcan hover]
    refine ⟨nofun, fun y hy hy' hle => ?_, fun y hy hy' hle => ?_, fun u v hu hv => ?_⟩
    · rcases s with _ | _
      · exact bot_le
      · have := h.le_of_le hy.canonical hy' hle
        exact (hy.le_of_overflow hm hcan hover this).ge
    · rcases s with _ | _
      · have := h.ge_of_ge hy.canonical hy' hle
        have := (representable_neg hy).le_of_overflow hm hcan hover
          (by rw [value_neg]; exact EReal.le_neg_of_le_neg (by simpa [value, signed] using this))
        rw [value_neg, EReal.neg_eq_top_iff] at this
        exact this.le
      · exact le_top
    · rcases s with _ | _
      · exact absurd hv (EReal.bot_ne_coe v)
      · exact absurd hv (EReal.top_ne_coe v)

end Binary

end CurveSurvey

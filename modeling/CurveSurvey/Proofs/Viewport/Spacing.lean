import CurveSurvey.Proofs.Viewport.Limits
import CurveSurvey.Viewport

/-!
# Evenly spaced samples

The step between the samples of an interval is rounded, and so are its multiples.  As long
as there are not too many samples for the precision, and the step has all its digits, the
roundings do not add up to a step, so that no sample gets past the last one.

* `Machine.result_ofNat`: counts are rounded like results.
* `Viewport.offset_le` adds up the roundings.
* `Viewport.holds_of_mem_spaced` is the result: no sample lies outside the interval.
-/

namespace CurveSurvey

open Machine

/-- A number is not outside the two ends. -/
def Interval.Holds {K : Type} [Scalar K] (i : Interval K) (t : K) : Prop :=
  i.lower ≤ t ∧ t ≤ i.upper

/-! ## Counts -/

namespace Machine

theorem result_toFloat32 (n : UInt64) : Result ((n.toNat : ℝ) : EReal) n.toFloat32 := by
  have h := Binary.rounds_normalize (format Float32) n.toNat 0 .positive
  rw [zpow_zero, mul_one, Int.cast_natCast] at h
  exact result_of_nearest h.nearest

/-- Counts are rounded like results. -/
theorem result_ofNat (n : ℕ) : Result ((n : ℝ) : EReal) (Scalar.ofNat n : Float32) := by
  by_cases h : n < 2 ^ 23
  · have hresult := result_toFloat32 n.toUInt64
    have htoNat : n.toUInt64.toNat = n := UInt64.toNat_ofNat_of_lt' (h.trans (by decide))
    rw [htoNat] at hresult
    have hroom : Represents (Float32.ofBits 0x4b000000) (2 ^ 23) := represents_of_unpack
      (show unpack _ = .finite .positive (2 ^ 23) 0 (by decide) from rfl) (by norm_num)
    obtain ⟨a, ha, -⟩ := hresult.exists_between represents_zero hroom n.cast_nonneg
      (by exact_mod_cast h.le)
    -- the count is multiplied by a power of ten, which is one
    have hscaled : (Scalar.ofNat n : Float32) = n.toUInt64.toFloat32 * Float32.ofBits 0x3f800000 :=
      dif_pos (show n < 2 ^ 23 ∧ 0 ≤ 10 by omega)
    have hone : Represents (Float32.ofBits 0x3f800000) 1 := represents_one
    have hprod := ha.mul hone
    rw [mul_one] at hprod
    have hval := hprod.val_eq ha.defined ha.val_eq.symm
    rw [hscaled]
    refine ⟨hprod.defined, ?_, ?_, ?_⟩ <;> rw [hval]
    · exact hresult.le_of_le
    · exact hresult.ge_of_ge
    · exact hresult.near
  · have hlarge : (Scalar.ofNat n : Float32) = ⟨Float32.Model.ofScientific n 0⟩ :=
      dif_neg (show ¬ (n < 2 ^ 23 ∧ 0 ≤ 10) by omega)
    rw [hlarge]
    exact result_of_nearest (Binary.rounds_ofScientific (by omega)).nearest

/-- A number stands for one real number. -/
theorem Represents.unique {t : Float32} {a b : ℝ} (h : Represents t a) (h' : Represents t b) :
    a = b :=
  EReal.coe_injective (h.val_eq.symm.trans h'.val_eq)

/-- A count of an addressable number of samples is finite. -/
theorem exists_represents_ofNat {n : ℕ} (h : n < 2 ^ 64) :
    ∃ n', Represents (Scalar.ofNat n : Float32) n' ∧ 0 ≤ n' ∧ (1 ≤ n → 1 ≤ n') ∧
      |n' - n| ≤ n * 1e-7 + 1e-40 := by
  have hresult := result_ofNat n
  have hroom : Represents (Float32.ofBits 0x5f800000) (2 ^ 64) := represents_of_unpack
    (show unpack _ = .finite .positive (2 ^ 23) 41 (by decide) from rfl) (by norm_num)
  obtain ⟨n', hn', hnonneg, -⟩ := hresult.exists_between represents_zero hroom n.cast_nonneg
    (by exact_mod_cast h.le)
  refine ⟨n', hn', hnonneg, fun hone => ?_, ?_⟩
  · obtain ⟨m, hm, hm1, -⟩ := hresult.exists_between represents_one hroom
      (by exact_mod_cast hone) (by exact_mod_cast h.le)
    rwa [hn'.unique hm]
  · simpa only [Nat.abs_cast] using hresult.near_single hn'

/-! ## Numbers with all digits -/

/-- The least number of single precision that has all its digits. -/
theorem represents_leastNormal : Represents (Float32.ofBits 0x00800000) (2 ^ (-126 : ℤ)) :=
  represents_of_unpack
    (show unpack _ = .finite .positive (2 ^ 23) (-149) (by decide) from rfl) (by norm_num)

/-- How far a rounded number may be from the exact one, to the last digit. -/
theorem Result.near_of_nonneg {t : Float32} {a b : ℝ} (h : Result (a : EReal) t)
    (ht : Represents t b) (ha : 0 ≤ a) : |b - a| ≤ a * 6e-8 + 8e-46 := by
  have hnear := h.near a b rfl ht.val_eq
  have hformat : format Float32 = .binary32 := rfl
  rw [hformat, abs_of_nonneg ha] at hnear
  norm_num [Float.Model.Format.mantissaBits, Float.Model.Format.minExponent] at hnear ⊢
  linarith

/-- A number with all its digits was not much smaller before it was rounded. -/
theorem Result.ge_of_normal {t : Float32} {a b : ℝ} (h : Result (a : EReal) t)
    (ht : Represents t b) (ha : 0 ≤ a) (hb : 4e-39 ≤ b) : b * (1 - 1e-6) ≤ a := by
  have := (abs_sub_le_iff.1 (h.near_of_nonneg ht ha)).1
  nlinarith

/-- Nor does it get much larger. -/
theorem Result.le_of_normal {t : Float32} {a b : ℝ} (h : Result (a : EReal) t)
    (ht : Represents t b) (ha : 4e-39 ≤ a) : b ≤ a * (1 + 3e-7) := by
  have := (abs_sub_le_iff.1 (h.near_of_nonneg ht (by linarith))).1
  nlinarith

end Machine

namespace Viewport

/-! ## The offset of a sample -/

/-- What the roundings of the length, of the two counts, of the step and of the product add
up to. -/
theorem offset_le {room length step n k n' k' offset : ℝ} (hroom : 0 ≤ room)
    (hlength : length ≤ room * (1 + 3e-7)) (hstep : step ≤ length / n' * (1 + 3e-7))
    (hstep0 : 0 ≤ step) (hoffset : offset ≤ step * k' * (1 + 3e-7))
    (hn : n * (1 - 2e-7) ≤ n') (hk : k' ≤ k * (1 + 2e-7)) (hk0 : 0 ≤ k) (hkn : k + 1 ≤ n)
    (hn5 : n ≤ 5e5) : offset ≤ room := by
  have hn' : 0 < n' := by nlinarith
  have hwhole : step * n ≤ room * (1 + 9e-7) := by
    have hstep' : step * n' ≤ length * (1 + 3e-7) := by
      rw [div_mul_eq_mul_div, le_div_iff₀ hn'] at hstep
      exact hstep
    have hcount : step * (n * (1 - 2e-7)) ≤ step * n' := mul_le_mul_of_nonneg_left hn hstep0
    nlinarith
  have hpart : k ≤ n * (1 - 2e-6) := by linarith
  calc offset ≤ step * k' * (1 + 3e-7) := hoffset
    _ ≤ step * (k * (1 + 2e-7)) * (1 + 3e-7) := by gcongr
    _ ≤ step * (n * (1 - 2e-6) * (1 + 2e-7)) * (1 + 3e-7) := by gcongr
    _ = step * n * ((1 - 2e-6) * (1 + 2e-7) * (1 + 3e-7)) := by ring
    _ ≤ room * (1 + 9e-7) * ((1 - 2e-6) * (1 + 2e-7) * (1 + 3e-7)) := by gcongr
    _ = room * ((1 + 9e-7) * ((1 - 2e-6) * (1 + 2e-7) * (1 + 3e-7))) := by ring
    _ ≤ room * 1 := by
      gcongr
      norm_num
    _ = room := mul_one room

section

variable {i : Interval Float32} {l u : ℝ}

/-- The length of an ordered interval is a number, if it does not overflow. -/
theorem exists_represents_length (hl : Represents i.lower l) (hu : Represents i.upper u)
    (hlu : l ≤ u) (hfinite : Scalar.isFinite i.length = true) :
    ∃ length, Represents i.length length ∧ 0 ≤ length := by
  obtain ⟨length, hlength⟩ := exists_represents hfinite
  have hnonneg := (hu.sub hl).ge_of_ge 0 isNaN_zero (by
    rw [val_zero]
    exact EReal.coe_nonneg.2 (sub_nonneg.2 hlu))
  refine ⟨length, hlength, ?_⟩
  rw [val_zero] at hnonneg
  exact EReal.coe_nonneg.1 (hnonneg.trans_eq hlength.val_eq)

/-- So is the step between its samples, which is not longer. -/
theorem exists_represents_step {length n' : ℝ} (hlength : Represents i.length length)
    (h0 : 0 ≤ length) {last : ℕ} (hn' : Represents (Scalar.ofNat last : Float32) n')
    (hn1 : 1 ≤ n') :
    Result ((length / n' : ℝ) : EReal) (i.length / Scalar.ofNat last) ∧
      ∃ step, Represents (i.length / Scalar.ofNat last) step ∧ 0 ≤ step ∧ step ≤ length := by
  have hquotient := hlength.div hn' (by linarith)
  exact ⟨hquotient, hquotient.exists_between represents_zero hlength
    (div_nonneg h0 (by linarith)) (div_le_self h0 hn1)⟩

/-- The offset of an inner sample is a number between zero and the exact length, if the step
has all its digits. -/
theorem exists_represents_offset (hl : Represents i.lower l) (hu : Represents i.upper u)
    (hlu : l ≤ u) (hfinite : Scalar.isFinite i.length = true) {k last : ℕ} (hk : k < last)
    (hlast : last ≤ 5 * 10 ^ 5)
    (hnormal : l = u ∨ Float32.ofBits 0x00800000 ≤ i.length / Scalar.ofNat last) :
    ∃ d, Represents (i.length / Scalar.ofNat last * Scalar.ofNat k : Float32) d ∧ 0 ≤ d ∧
      d ≤ u - l := by
  have hroom : 0 ≤ u - l := sub_nonneg.2 hlu
  obtain ⟨length, hlength, hlength0⟩ := exists_represents_length hl hu hlu hfinite
  obtain ⟨n, hn, -, hn1, hnnear⟩ := exists_represents_ofNat (n := last) (by omega)
  obtain ⟨k', hk', hk'0, hk'1, hknear⟩ := exists_represents_ofNat (n := k) (by omega)
  specialize hn1 (by omega)
  obtain ⟨hquotient, step, hstep, hstep0, hsteple⟩ :=
    exists_represents_step hlength hlength0 hn hn1
  have hprod := hstep.mul hk'
  have hprod0 : 0 ≤ step * k' := mul_nonneg hstep0 hk'0
  by_cases hzero : step * k' = 0
  · obtain ⟨d, hd, hd0, hd0'⟩ :=
      hprod.exists_between represents_zero represents_zero hzero.ge hzero.le
    exact ⟨d, hd, hd0, hd0'.trans hroom⟩
  have hnormalStep : 1e-38 ≤ step := by
    rcases hnormal with rfl | hle
    · -- the length of a point is zero, and so is its step
      rw [sub_self] at hroom
      have hexact := hu.sub hl
      rw [sub_self] at hexact
      obtain ⟨length', hlength', -, hlength'0⟩ :=
        hexact.exists_between represents_zero represents_zero le_rfl le_rfl
      obtain rfl := hlength.unique hlength'
      exact absurd (by rw [le_antisymm (hsteple.trans hlength'0) hstep0, zero_mul]) hzero
    · refine le_trans ?_ ((represents_leastNormal.le_iff hstep).1 hle)
      norm_num
  have hk1 : 1 ≤ k' := by
    refine hk'1 (Nat.pos_of_ne_zero ?_)
    rintro rfl
    exact hzero (by rw [hk'.unique represents_zero, mul_zero])
  have hlast5 : (last : ℝ) ≤ 5e5 := by
    calc (last : ℝ) ≤ ((5 * 10 ^ 5 : ℕ) : ℝ) := Nat.cast_le.2 hlast
      _ = 5e5 := by norm_num
  have hkn : (k : ℝ) + 1 ≤ last := by exact_mod_cast hk
  have hk0 : (0 : ℝ) ≤ k := k.cast_nonneg
  have hn : (last : ℝ) * (1 - 2e-7) ≤ n := by
    have := (abs_sub_le_iff.1 hnnear).2
    linarith
  have hk : k' ≤ k * (1 + 2e-7) := by
    have := (abs_sub_le_iff.1 hknear).1
    nlinarith
  -- the roundings, from the length to the product
  have hlengthle : length ≤ (u - l) * (1 + 3e-7) := by
    have := (hu.sub hl).ge_of_normal hlength hroom (by linarith)
    exact (hu.sub hl).le_of_normal hlength (by nlinarith)
  have hsteple' : step ≤ length / n * (1 + 3e-7) := by
    have := hquotient.ge_of_normal hstep (div_nonneg hlength0 (by linarith)) (by linarith)
    exact hquotient.le_of_normal hstep (by nlinarith)
  have hprodle : step * k' ≤ length :=
    offset_le hlength0 (by linarith) hsteple' hstep0 (by nlinarith) hn hk hk0 hkn hlast5
  obtain ⟨d, hd, hd0, -⟩ := hprod.exists_between represents_zero hlength hprod0 hprodle
  refine ⟨d, hd, hd0, ?_⟩
  exact offset_le hroom hlengthle hsteple' hstep0 (hprod.le_of_normal hd (by nlinarith)) hn hk
    hk0 hkn hlast5

/-! ## The samples -/

/-- A sample is the upper end or has an offset from the lower one. -/
theorem mem_spaced {count : ℕ} {t : Float32} (ht : t ∈ spaced i count) :
    t = i.upper ∨ ∃ k < count - 1,
      t = i.lower + i.length / Scalar.ofNat (count - 1) * Scalar.ofNat k := by
  obtain ⟨k, hk, rfl⟩ := List.mem_map.1 ht
  rw [List.mem_range] at hk
  split
  · exact .inl rfl
  · exact .inr ⟨k, by omega, rfl⟩

/-- No sample lies outside the interval, if it is a point or the step has all its digits. -/
theorem holds_of_step_normal (hl : Scalar.isFinite i.lower = true)
    (hu : Scalar.isFinite i.upper = true) (hle : i.lower ≤ i.upper)
    (hfinite : Scalar.isFinite i.length = true) {count : ℕ} (hcount : count ≤ 5 * 10 ^ 5)
    (hnormal : i.isPoint = true ∨ Float32.ofBits 0x00800000 ≤ i.length / Scalar.ofNat (count - 1))
    {t : Float32} (ht : t ∈ spaced i count) : i.Holds t := by
  obtain ⟨l, hl⟩ := exists_represents hl
  obtain ⟨u, hu⟩ := exists_represents hu
  have hlu := (hl.le_iff hu).1 hle
  rcases mem_spaced ht with rfl | ⟨k, hk, rfl⟩
  · exact ⟨hle, Scalar.le_refl_of_defined hu.defined⟩
  · obtain ⟨d, hoffset, hd0, hd⟩ := exists_represents_offset hl hu hlu hfinite hk (by omega)
      (hnormal.imp_left fun hpoint =>
        le_antisymm hlu ((hu.le_iff hl).1 (OrderedScalar.beq_iff.1 hpoint).2))
    obtain ⟨y, hy, hly, hyu⟩ := (hl.add hoffset).exists_between hl hu (by linarith) (by linarith)
    exact ⟨(hl.le_iff hy).2 hly, (hy.le_iff hu).2 hyu⟩

/-- No sample lies outside an interval that is not very short. -/
theorem holds_of_mem_spaced (hl : Scalar.isFinite i.lower = true)
    (hu : Scalar.isFinite i.upper = true) (hfinite : Scalar.isFinite i.length = true)
    (hlong : (1e-20 : Float32) ≤ i.length) {count : ℕ} (hcount : count ≤ 10 ^ 5) {t : Float32}
    (ht : t ∈ spaced i count) : i.Holds t := by
  obtain ⟨l, hl'⟩ := exists_represents hl
  obtain ⟨u, hu'⟩ := exists_represents hu
  obtain ⟨length, hlength⟩ := exists_represents hfinite
  have hlong' : 1e-21 ≤ length := by
    have hleast : Represents (1e-20 : Float32) (12379400 * 2 ^ (-90 : ℤ)) := represents_of_unpack
      (show unpack _ = .finite .positive 12379400 (-90) (by decide) from rfl) rfl
    exact le_trans (by norm_num) ((hleast.le_iff hlength).1 hlong)
  have hle : i.lower ≤ i.upper := by
    rw [hl'.le_iff hu']
    by_contra! hlt
    have hneg := (hu'.sub hl').le_of_le 0 isNaN_zero (by
      rw [val_zero]
      exact EReal.coe_nonpos.2 (sub_nonpos.2 hlt.le))
    rw [val_zero] at hneg
    have := EReal.coe_nonpos.1 (hlength.val_eq.symm.trans_le hneg)
    linarith
  rcases Nat.lt_or_ge 1 count with hmany | hfew
  · -- not even the shortest step falls short of the least number with all digits
    obtain ⟨n, hn, -, hn1, hnnear⟩ := exists_represents_ofNat (n := count - 1) (by omega)
    specialize hn1 (by omega)
    have hn2 : n ≤ 2e5 := by
      have hcount5 : ((count - 1 : ℕ) : ℝ) ≤ 1e5 := by
        calc ((count - 1 : ℕ) : ℝ) ≤ ((10 ^ 5 : ℕ) : ℝ) := Nat.cast_le.2 (by omega)
          _ = 1e5 := by norm_num
      have := (abs_sub_le_iff.1 hnnear).1
      linarith
    obtain ⟨hquotient, step, hstep, -⟩ := exists_represents_step hlength (by linarith) hn hn1
    refine holds_of_step_normal hl hu hle hfinite (by omega) (.inr ?_) ht
    refine le_iff_val.2 ⟨represents_leastNormal.defined, hstep.defined,
      hquotient.ge_of_ge _ represents_leastNormal.defined ?_⟩
    rw [represents_leastNormal.val_eq, EReal.coe_le_coe_iff, le_div_iff₀ (by linarith)]
    norm_num
    linarith
  · rcases mem_spaced ht with rfl | ⟨k, hk, -⟩
    · exact ⟨hle, Scalar.le_refl_of_defined hu'.defined⟩
    · omega

end

end Viewport

end CurveSurvey

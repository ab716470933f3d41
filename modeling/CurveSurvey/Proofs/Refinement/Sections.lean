import CurveSurvey.Proofs.Mirror
import CurveSurvey.Proofs.Padding
import CurveSurvey.Proofs.Refinement
import CurveSurvey.Proofs.Refinement.Drift

/-!
# Order of golden sections

A golden bracket computes one section anew and keeps the other, and narrowing multiplies how far
the section kept is off, relative to what is left of the bracket.

* `Machine.GoldenPrecision` says how close a format comes to the golden section; double and single
  precision are such.
* `Machine.exists_section_between`: the section of two numbers is between them, whatever is rounded.
  It is off by a few roundings (`Machine.Hull.exists_section`).
* `GoldenBracket.Follows` is the drift of a golden bracket after a number of narrowings, kept by
  each of them (`GoldenBracket.Follows.narrow`).
* `GoldenBracket.sections_in_order` is the result: a golden bracket stays between the ends it
  started from, and in order as long as it is wide.  `GoldenBracket.sections_out_of_order` is what
  becomes of one that is not.
-/

namespace CurveSurvey

open Scalar (Same Opposite)
open Golden (share nearDrift farDrift Tracks)

namespace Machine

variable {K : Type} [Precision K] [Machine K] {s t a b part width lo hi : K}
  {x y p q c d w m r M u τ : ℝ}

/-- A binary format that comes close to the golden section. -/
class GoldenPrecision (K : Type) [Precision K] [Machine K] : Prop where
  /-- There are at least ten bits. -/
  fine : roundoff K ≤ 1 / 1024
  /-- The larger part. -/
  larger : ∃ c, Represents (GoldenBracket.inversePhi : K) c ∧ |c - share| ≤ roundoff K
  /-- The smaller part. -/
  smaller : ∃ c, Represents (1 - GoldenBracket.inversePhi : K) c ∧
    |c - (1 - share)| ≤ roundoff K

/-! ## Values -/

/-- Two forms of one real number. -/
theorem Represents.same (hs : Represents s x) (ht : Represents t x) : Same s t :=
  .inr (beq_iff_val.2 ⟨hs.defined, ht.defined, hs.val_eq.trans ht.val_eq.symm⟩)

theorem val_eq_of_same (h : Same s t) (ht : Scalar.isNaN t = false) :
    Scalar.isNaN s = false ∧ val s = val t := by
  rcases h with ⟨-, hnan⟩ | heq
  · rw [ht] at hnan
    cases hnan
  · obtain ⟨hs, -, hval⟩ := beq_iff_val.1 heq
    exact ⟨hs, hval⟩

theorem Represents.of_same (hs : Represents s x) (h : Same t s) : Represents t x := by
  obtain ⟨hdef, hval⟩ := val_eq_of_same h hs.defined
  exact ⟨hdef, hval.trans hs.val_eq⟩

/-- A finite number is a multiple of the smallest one. -/
theorem Represents.exists_multiple (h : Represents t x) : ∃ k : ℤ, x = k * tiny K := by
  rcases Binary.eq_zero_or_finite (isNaN_eq_false_iff.1 h.defined) h.val_eq with
    ⟨-, -, rfl⟩ | ⟨sign, n, e, hn, hfinite, rfl⟩
  · exact ⟨0, by simp⟩
  have hfits : Binary.Fits (format K) n e := by
    have := canonical t
    rwa [hfinite] at this
  obtain ⟨j, hj⟩ := Int.le.dest hfits.le
  have hscaled : (n : ℝ) * 2 ^ e = ((n * 2 ^ j : ℕ) : ℤ) * tiny K := by
    rw [tiny, Binary.tiny, ← hj, zpow_add₀ two_ne_zero, zpow_natCast]
    push_cast
    ring
  rw [hscaled]
  cases sign with
  | positive => exact ⟨_, rfl⟩
  | negative => exact ⟨-_, by rw [Binary.signed, Int.cast_neg, neg_mul]⟩

theorem mul_tiny_le {i j : ℤ} (h : i ≤ j) : (i : ℝ) * tiny K ≤ j * tiny K :=
  mul_le_mul_of_nonneg_right (Int.cast_le.2 h) tiny_pos.le

theorem lt_of_mul_tiny_lt {i j : ℤ} (h : (i : ℝ) * tiny K < j * tiny K) : i < j := by
  by_contra hle
  exact not_le.2 h (mul_tiny_le (not_lt.1 hle))

/-- Rounding does not take a number below zero. -/
theorem Result.nonneg (h : Result (x : EReal) t) (ht : Represents t y) (hx : 0 ≤ x) : 0 ≤ y := by
  have := h.ge_of_ge 0 isNaN_zero (by rwa [val_zero, EReal.coe_nonneg])
  rwa [ht.val_eq, val_zero, EReal.coe_nonneg] at this

/-- Rounding does not take a number above zero. -/
theorem Result.nonpos (h : Result (x : EReal) t) (ht : Represents t y) (hx : x ≤ 0) : y ≤ 0 := by
  have := h.le_of_le 0 isNaN_zero (by rwa [val_zero, EReal.coe_nonpos])
  rwa [ht.val_eq, val_zero, EReal.coe_nonpos] at this

/-! ## One section -/

/-- What lies between two numbers with a finite difference is finite, and so are the differences
in it. -/
structure Hull (lo hi : K) (x y : ℝ) : Prop where
  lower : Represents lo x
  upper : Represents hi y
  le : x ≤ y
  finite : Scalar.isFinite (hi - lo) = true

/-- The error of one rounding between two numbers. -/
noncomputable def grain (K : Type) [Precision K] [Machine K] (x y : ℝ) : ℝ :=
  max |x| |y| * roundoff K + tiny K

theorem grain_pos : 0 < grain K x y :=
  add_pos_of_nonneg_of_pos (mul_nonneg (le_max_of_le_left (abs_nonneg x)) roundoff_pos.le) tiny_pos

theorem grain_min_max : grain K (min x y) (max x y) = grain K x y := by
  rcases le_total x y with h | h
  · rw [min_eq_left h, max_eq_right h]
  · rw [min_eq_right h, max_eq_left h, grain, grain, max_comm]

/-- A rounded part of a rounded width is not wider than the width. -/
theorem le_sub_of_part (hu : roundoff K ≤ 1 / 1024) (hs : Represents s p) (ht : Represents t q)
    (hpq : p ≤ q) (hw : Represents (t - s) w) (hpart : Represents part c) (hc0 : 0 ≤ c)
    (hc : c ≤ 5 / 8) (hm : Represents (part * (t - s)) m) : m ≤ q - p := by
  have htiny := tiny_pos (K := K)
  obtain ⟨i, hi⟩ := hs.exists_multiple
  obtain ⟨j, hj⟩ := ht.exists_multiple
  obtain ⟨k, hk⟩ := hm.exists_multiple
  by_contra hlt
  rw [not_le] at hlt
  have hw0 : 0 ≤ w := (ht.sub hs).nonneg hw (by linarith)
  have hwm : w ≤ m := by
    have := (ht.sub hs).le_of_le _ hm.defined (by
      rw [hm.val_eq]
      exact EReal.coe_le_coe_iff.2 hlt.le)
    rwa [hw.val_eq, hm.val_eq, EReal.coe_le_coe_iff] at this
  have hcw0 : 0 ≤ c * w := mul_nonneg hc0 hw0
  have hcw : c * w ≤ 5 / 8 * w := mul_le_mul_of_nonneg_right hc hw0
  have hm' : m ≤ c * w + c * w / 1024 + tiny K / 2 := by
    have herror := (abs_sub_le_iff.1 ((hpart.mul hw).error_le hm)).1
    rw [abs_of_nonneg hcw0] at herror
    linarith [mul_le_of_fine hu hcw0]
  -- so the width is that of neighbours, and there is no room for a part of it
  have hk2 : k < 2 := lt_of_mul_tiny_lt (K := K) (by push_cast; linarith)
  have hjk : j - i < k := lt_of_mul_tiny_lt (K := K) (by push_cast; linarith)
  have hji : (j : ℝ) * tiny K ≤ i * tiny K := mul_tiny_le (by omega)
  have hw1 : w ≤ 0 := (ht.sub hs).nonpos hw (by linarith)
  have hk1 : k < 1 := lt_of_mul_tiny_lt (K := K) (by push_cast; linarith)
  have hk0 : (k : ℝ) * tiny K ≤ (0 : ℤ) * tiny K := mul_tiny_le (by omega)
  rw [Int.cast_zero, zero_mul] at hk0
  linarith

/-- A part of a finite number is finite. -/
theorem exists_part (hw : Represents width w) (hpart : Represents part c) (hc0 : 0 ≤ c)
    (hc1 : c ≤ 1) : ∃ m, Represents (part * width) m ∧ (0 ≤ w → 0 ≤ m) := by
  have hzero : Represents (0 : K) 0 := ⟨isNaN_zero, val_zero⟩
  rcases le_total 0 w with hpos | hneg
  · obtain ⟨m, hm, hm0, -⟩ := (hpart.mul hw).exists_between hzero hw (mul_nonneg hc0 hpos)
      (mul_le_of_le_one_left hpos hc1)
    exact ⟨m, hm, fun _ => hm0⟩
  · obtain ⟨m, hm, -, hm0⟩ := (hpart.mul hw).exists_between hw hzero
      (by nlinarith) (mul_nonpos_of_nonneg_of_nonpos hc0 hneg)
    exact ⟨m, hm, fun hpos => (hpart.mul hw).nonneg hm (mul_nonneg hc0 hpos)⟩

/-- The section of two numbers in their order is between them. -/
theorem exists_section_of_le (hu : roundoff K ≤ 1 / 1024) (hs : Represents s p)
    (ht : Represents t q) (hpq : p ≤ q) (hw : Represents (t - s) w) (hpart : Represents part c)
    (hc0 : 0 ≤ c) (hc : c ≤ 5 / 8) :
    ∃ r, Represents (s + part * (t - s)) r ∧ p ≤ r ∧ r ≤ q := by
  obtain ⟨m, hm, hm0⟩ := exists_part hw hpart hc0 (by linarith)
  have hw0 : 0 ≤ w := (ht.sub hs).nonneg hw (by linarith)
  have hle := le_sub_of_part hu hs ht hpq hw hpart hc0 hc hm
  exact (hs.add hm).exists_between hs ht (by linarith [hm0 hw0]) (by linarith)

/-- What one more rounding makes of a number that was rounded already. -/
theorem abs_mul_le_of_near {z : ℝ} (hu : 0 < u) (hu' : u ≤ 1 / 1024) (hτ : 0 < τ)
    (h : |r - z| ≤ |z| * u + τ / 2) : |r| * u ≤ |z| * u + |z| * u / 1024 + τ / 2048 := by
  have hsize : |r| ≤ |z| + (|z| * u + τ / 2) := by
    linarith [abs_sub_abs_le_abs_sub r z]
  have hz := mul_le_of_fine hu' (mul_nonneg (abs_nonneg z) hu.le)
  have hτu := mul_le_of_fine hu' hτ.le
  have := mul_le_mul_of_nonneg_right hsize hu.le
  linarith

/-- The roundings of a section add up to a few of them. -/
theorem abs_section_sub_le (hu : 0 < u) (hu' : u ≤ 1 / 1024) (hτ : 0 < τ) (hp : |p| ≤ M)
    (hq : |q| ≤ M) (hc : |c| ≤ 5 / 8) (hd : |d| ≤ 5 / 8) (hcd : |c - d| ≤ u)
    (hw : |w - (q - p)| ≤ |q - p| * u + τ / 2) (hm : |m - c * w| ≤ |c * w| * u + τ / 2)
    (hr : |r - (p + m)| ≤ |p + m| * u + τ / 2) :
    |r - (p + d * (q - p))| ≤ 7 * (M * u + τ) := by
  have hM : 0 ≤ M * u := mul_nonneg ((abs_nonneg p).trans hp) hu.le
  have hdist : |q - p| * u ≤ 2 * (M * u) := by
    have := mul_le_mul_of_nonneg_right (abs_sub q p) hu.le
    have := mul_le_mul_of_nonneg_right hp hu.le
    have := mul_le_mul_of_nonneg_right hq hu.le
    linarith
  have hwidth := abs_mul_le_of_near hu hu' hτ hw
  have hprod : |c * w| * u ≤ 5 / 8 * (|w| * u) := by
    rw [abs_mul, mul_assoc]
    exact mul_le_mul_of_nonneg_right hc (mul_nonneg (abs_nonneg w) hu.le)
  have hpart := abs_mul_le_of_near hu hu' hτ hm
  have hsum : |p + m| * u ≤ M * u + |m| * u := by
    have := mul_le_mul_of_nonneg_right (abs_add_le p m) hu.le
    have := mul_le_mul_of_nonneg_right hp hu.le
    linarith
  have hshare : |(c - d) * w| ≤ |w| * u := by
    rw [abs_mul, mul_comm]
    exact mul_le_mul_of_nonneg_left hcd (abs_nonneg w)
  have hrest : |d * (w - (q - p))| ≤ 5 / 8 * (|q - p| * u + τ / 2) := by
    rw [abs_mul]
    exact mul_le_mul hd hw (abs_nonneg _) (by norm_num)
  -- the errors of the sum, of the product, of the part and of the width
  calc |r - (p + d * (q - p))|
      = |(r - (p + m)) + (m - c * w) + (c - d) * w + d * (w - (q - p))| := by ring_nf
    _ ≤ |(r - (p + m)) + (m - c * w) + (c - d) * w| + |d * (w - (q - p))| := abs_add_le _ _
    _ ≤ |r - (p + m)| + |m - c * w| + |(c - d) * w| + |d * (w - (q - p))| := by
        gcongr
        exact abs_add_three _ _ _
    _ ≤ 7 * (M * u + τ) := by linarith

/-! ## Widths -/

variable [NumericScalar K]

/-- A part of an interval is not wider than the interval. -/
theorem val_sub_le (hlo : Represents lo x) (hhi : Represents hi y) (hs : Represents s p)
    (ht : Represents t q) (hp : x ≤ p) (hq : q ≤ y) : val (t - s) ≤ val (hi - lo) := by
  rcases (sub_le_sub hq hp).lt_or_eq with hlt | heq
  · obtain ⟨r, hr, htr⟩ := ht.rounds_sub hs
    obtain ⟨r', hr', hhr⟩ := hhi.rounds_sub hlo
    rw [val, val, htr, hhr]
    exact hr.value_stored_le hr' hlt
  · -- rounding is the same for equal differences of equal numbers
    obtain rfl : q = y := by linarith
    obtain rfl : p = x := by linarith
    have hsame : Same (t - s) (hi - lo) := (ht.same hhi).sub (hs.same hlo)
    exact (val_eq_of_same hsame (hhi.sub hlo).defined).2.le

theorem Hull.exists_sub (h : Hull lo hi x y) (hs : Represents s p) (ht : Represents t q)
    (hp : p ∈ Set.Icc x y) (hq : q ∈ Set.Icc x y) : ∃ v, Represents (t - s) v := by
  obtain ⟨w, hw⟩ := exists_represents h.finite
  have hupper := val_sub_le h.lower h.upper hs ht hp.1 hq.2
  have hlower := val_sub_le h.lower h.upper ht hs hq.1 hp.2
  have hswap : val (t - s) = -val (s - t) := by
    rw [← val_neg]
    exact (val_eq_of_same (Scalar.same_sub_comm s t)
      (by rw [isNaN_neg, (hs.sub ht).defined])).2
  obtain ⟨v, hv, -, -⟩ := hw.neg.of_le_of_le hw (ht.sub hs).defined
    (by rwa [hswap, val_neg, EReal.neg_le_neg_iff]) hupper
  exact ⟨v, hv⟩

/-- The section of two numbers is between them, in either order. -/
theorem exists_section_between (hu : roundoff K ≤ 1 / 1024) (hs : Represents s p)
    (ht : Represents t q) (hw : Represents (t - s) w) (hpart : Represents part c) (hc0 : 0 ≤ c)
    (hc : c ≤ 5 / 8) : ∃ r, Represents (s + part * (t - s)) r ∧ r ∈ Set.uIcc p q := by
  rcases le_total p q with hpq | hqp
  · obtain ⟨r, hr, hlo, hhi⟩ := exists_section_of_le hu hs ht hpq hw hpart hc0 hc
    exact ⟨r, hr, Set.mem_uIcc_of_le hlo hhi⟩
  · -- the numbers with the opposite signs are in order
    have hw' : Represents (-t - -s) (-w) := hw.neg.of_same (Scalar.same_neg_sub_neg t s)
    obtain ⟨r, hr, hlo, hhi⟩ :=
      exists_section_of_le hu hs.neg ht.neg (neg_le_neg hqp) hw' hpart hc0 hc
    have hopposite : ∀ v : K, Opposite (-v) v := fun v =>
      .of_eq (InvolutiveScalar.neg_neg v).symm
    have hsection : Opposite (-s + part * (-t - -s)) (s + part * (t - s)) :=
      (hopposite s).add (((hopposite t).sub (hopposite s)).mul_left (.refl part))
    exact ⟨-r, hr.neg.of_same hsection, Set.mem_uIcc_of_ge (by linarith) (by linarith)⟩

/-- A section of two numbers of a hull is in the hull, and off by a few roundings. -/
theorem Hull.exists_section (h : Hull lo hi x y) (hu : roundoff K ≤ 1 / 1024)
    (hpart : ∃ c, Represents part c ∧ |c - d| ≤ roundoff K) (hd0 : 0.38 ≤ d) (hd1 : d ≤ 0.6181)
    (hs : Represents s p) (ht : Represents t q) (hp : p ∈ Set.Icc x y) (hq : q ∈ Set.Icc x y) :
    ∃ r ∈ Set.Icc x y, Represents (s + part * (t - s)) r ∧
      |r - (p + d * (q - p))| ≤ 7 * grain K x y := by
  obtain ⟨c, hc, hcd⟩ := hpart
  obtain ⟨hlow, hhigh⟩ := abs_sub_le_iff.1 hcd
  obtain ⟨w, hw⟩ := h.exists_sub hs ht hp hq
  obtain ⟨m, hm, -⟩ := exists_part hw hc (by linarith) (by linarith)
  obtain ⟨r, hr, hmem⟩ := exists_section_between hu hs ht hw hc (by linarith) (by linarith)
  refine ⟨r, Set.uIcc_subset_Icc hp hq hmem, hr, ?_⟩
  exact abs_section_sub_le roundoff_pos hu tiny_pos (abs_le_max_abs_abs hp.1 hp.2)
    (abs_le_max_abs_abs hq.1 hq.2) (abs_le.2 ⟨by linarith, by linarith⟩)
    (abs_le.2 ⟨by linarith, by linarith⟩) hcd ((ht.sub hs).error_le hw)
    ((hc.mul hw).error_le hm) ((hs.add hm).error_le hr)

/-- The section of the larger part after the first of two numbers. -/
theorem Hull.exists_far [GoldenPrecision K] (h : Hull lo hi x y) (hs : Represents s p)
    (ht : Represents t q) (hp : p ∈ Set.Icc x y) (hq : q ∈ Set.Icc x y) :
    ∃ r ∈ Set.Icc x y, Represents (s + GoldenBracket.inversePhi * (t - s)) r ∧
      |farDrift p r q| ≤ 7 * grain K x y :=
  h.exists_section GoldenPrecision.fine GoldenPrecision.larger (by linarith [Golden.lt_share])
    Golden.share_lt.le hs ht hp hq

/-- The section of the smaller part after the first of two numbers. -/
theorem Hull.exists_near [GoldenPrecision K] (h : Hull lo hi x y) (hs : Represents s p)
    (ht : Represents t q) (hp : p ∈ Set.Icc x y) (hq : q ∈ Set.Icc x y) :
    ∃ r ∈ Set.Icc x y, Represents (s + (1 - GoldenBracket.inversePhi) * (t - s)) r ∧
      |nearDrift p r q| ≤ 7 * grain K x y :=
  h.exists_section GoldenPrecision.fine GoldenPrecision.smaller (by linarith [Golden.share_lt])
    (by linarith [Golden.lt_share]) hs ht hp hq

instance : GoldenPrecision Float where
  fine := fineGrid_double.fine
  larger := by
    have hbits : (GoldenBracket.inversePhi : Float) = Float.ofBits 0x3fe3c6ef372fe94f := by
      decide +kernel
    rw [hbits]
    refine ⟨5566755282872655 * 2 ^ (-53 : ℤ), represents_of_unpack
      (show unpack _ = .finite .positive 5566755282872655 (-53) (by decide) from rfl)
      (by norm_num), Golden.abs_sub_share_le (by norm_num) ?_⟩
    norm_num [roundoff_double]
  smaller := by
    have hbits : (1 - GoldenBracket.inversePhi : Float) = Float.ofBits 0x3fd8722191a02d62 := by
      decide +kernel
    rw [hbits]
    refine ⟨1 - 5566755282872655 * 2 ^ (-53 : ℤ), represents_of_unpack
      (show unpack _ = .finite .positive 6880887943736674 (-54) (by decide) from rfl)
      (by norm_num), ?_⟩
    rw [sub_sub_sub_cancel_left, abs_sub_comm]
    refine Golden.abs_sub_share_le (by norm_num) ?_
    norm_num [roundoff_double]

instance : GoldenPrecision Float32 where
  fine := fineGrid_single.fine
  larger := by
    have hbits : (GoldenBracket.inversePhi : Float32) = Float32.ofBits 0x3f1e377a := by
      decide +kernel
    rw [hbits]
    refine ⟨10368890 * 2 ^ (-24 : ℤ), represents_of_unpack
      (show unpack _ = .finite .positive 10368890 (-24) (by decide) from rfl)
      (by norm_num), Golden.abs_sub_share_le (by norm_num) ?_⟩
    norm_num [roundoff_single]
  smaller := by
    have hbits : (1 - GoldenBracket.inversePhi : Float32) = Float32.ofBits 0x3ec3910c := by
      decide +kernel
    rw [hbits]
    refine ⟨1 - 10368890 * 2 ^ (-24 : ℤ), represents_of_unpack
      (show unpack _ = .finite .positive 12816652 (-25) (by decide) from rfl)
      (by norm_num), ?_⟩
    rw [sub_sub_sub_cancel_left, abs_sub_comm]
    refine Golden.abs_sub_share_le (by norm_num) ?_
    norm_num [roundoff_single]

end Machine

namespace GoldenBracket

open Machine

/-! ## Golden brackets -/

section

variable {K : Type} [Scalar K]

/-- The abscissae of the samples, from the near end to the far one. -/
def abscissae (g : GoldenBracket K) : List K :=
  [g.near.x, g.innerNear.x, g.innerFar.x, g.far.x]

/-- The samples are in the order of a scan from `a` to `b`. -/
def Ordered (a b : K) (g : GoldenBracket K) : Prop :=
  a ≤ b ∧ g.abscissae.Pairwise (· ≤ ·) ∨ b ≤ a ∧ g.abscissae.Pairwise (· ≥ ·)

instance (a b : K) (g : GoldenBracket K) : Decidable (g.Ordered a b) :=
  inferInstanceAs (Decidable (_ ∧ _ ∨ _ ∧ _))

/-- A number is between two others, in either order. -/
def Between (a b t : K) : Prop := a ≤ t ∧ t ≤ b ∨ b ≤ t ∧ t ≤ a

theorem narrow_state_cases (f : K → K) (g : GoldenBracket K) :
    (g.narrow f).state = g.shrinkNear f ∨ (g.narrow f).state = g.shrinkFar f ∨
      (g.narrow f).state = g := by
  unfold narrow
  split
  · exact .inl rfl
  · split
    · exact .inr (.inl rfl)
    · exact .inr (.inr rfl)

end

theorem dichotomy_x {K : Type} [Precision K] (f : K → K) (a b : K) (i : Interest) (n : ℕ) :
    (dichotomy f a b i n).x = (after f a b n).far.x := by
  unfold dichotomy
  dsimp only
  split
  · rfl
  · split <;> rfl

variable {K : Type} [Precision K] [Machine K] {g : GoldenBracket K} {a b lo hi : K}
  {x y u v s p q t width : ℝ} {n : ℕ}

/-! ## Samples that are placed -/

/-- The distance between the ends. -/
noncomputable def span (g : GoldenBracket K) : ℝ :=
  |(val g.far.x).toReal - (val g.near.x).toReal|

/-- The samples of a bracket are taken at numbers from `x` to `y`. -/
structure Places (x y : ℝ) (g : GoldenBracket K) (s p q t : ℝ) : Prop where
  near : s ∈ Set.Icc x y ∧ Represents g.near.x s
  innerNear : p ∈ Set.Icc x y ∧ Represents g.innerNear.x p
  innerFar : q ∈ Set.Icc x y ∧ Represents g.innerFar.x q
  far : t ∈ Set.Icc x y ∧ Represents g.far.x t

theorem Places.forall_mem (h : g.Places x y s p q t) :
    ∀ c ∈ g.abscissae, ∃ r ∈ Set.Icc x y, Represents c r := by
  simp only [abscissae, List.forall_mem_cons]
  exact ⟨⟨s, h.near⟩, ⟨p, h.innerNear⟩, ⟨q, h.innerFar⟩, ⟨t, h.far⟩, nofun⟩

theorem Places.span_eq (h : g.Places x y s p q t) : g.span = |t - s| := by
  rw [span, h.near.2.val_eq, h.far.2.val_eq, EReal.toReal_coe, EReal.toReal_coe]

/-- Numbers in the direction of a scan are samples in its order. -/
theorem Places.ordered (h : g.Places x y s p q t) (ha : Represents a u) (hb : Represents b v)
    (horder : 0 ≤ v - u ∧ s ≤ p ∧ p ≤ q ∧ q ≤ t ∨ v - u ≤ 0 ∧ p ≤ s ∧ q ≤ p ∧ t ≤ q) :
    g.Ordered a b := by
  obtain ⟨⟨-, hs⟩, ⟨-, hp⟩, ⟨-, hq⟩, ⟨-, ht⟩⟩ := h
  rw [Ordered, ha.le_iff hb, hb.le_iff ha]
  simp only [abscissae, List.pairwise_cons, List.forall_mem_cons, ge_iff_le, hs.le_iff hp,
    hs.le_iff hq, hs.le_iff ht, hp.le_iff hq, hp.le_iff ht, hq.le_iff ht, hp.le_iff hs,
    hq.le_iff hs, ht.le_iff hs, hq.le_iff hp, ht.le_iff hp, ht.le_iff hq]
  rcases horder with ⟨hab, hsp, hpq, hqt⟩ | ⟨hba, hps, hqp, htq⟩
  · exact .inl ⟨by linarith, ⟨hsp, by linarith, by linarith, nofun⟩,
      ⟨hpq, by linarith, nofun⟩, ⟨hqt, nofun⟩, nofun, .nil⟩
  · exact .inr ⟨by linarith, ⟨hps, by linarith, by linarith, nofun⟩,
      ⟨hqp, by linarith, nofun⟩, ⟨htq, nofun⟩, nofun, .nil⟩

/-- At most `n` narrowings have made a bracket from `x` to `y` of one of a given signed width. -/
def Follows (x y width : ℝ) (n : ℕ) (g : GoldenBracket K) : Prop :=
  ∃ k ≤ n, ∃ s p q t, g.Places x y s p q t ∧ Tracks (7 * grain K x y) width k s p q t

/-- A bracket that is wide for its number of narrowings is in the order of the scan, and it is wide
if that number is small. -/
theorem Follows.ordered (h : g.Follows x y (v - u) n) (ha : Represents a u)
    (hb : Represents b v) :
    (63 * ((n + 2) * grain K x y) ≤ g.span → g.Ordered a b) ∧
      (84 * ((n + 2) * grain K x y) ≤ share ^ n * |v - u| → g.Ordered a b) := by
  obtain ⟨k, hk, s, p, q, t, hplaces, htracks⟩ := h
  have hgrain : 0 < grain K x y := grain_pos
  have hpos : 0 < 7 * grain K x y := by positivity
  have hfew : ((k : ℝ) + 2) * grain K x y ≤ (n + 2) * grain K x y := by gcongr
  constructor
  · intro hwide
    rw [hplaces.span_eq] at hwide
    exact hplaces.ordered ha hb (htracks.ordered hpos (by linarith))
  · intro hwide
    exact hplaces.ordered ha hb (htracks.ordered hpos (htracks.le_abs hk hpos (by linarith)))

/-! ## Narrowing -/

section

variable [NumericScalar K] [GoldenPrecision K]

theorem follows_between (h : Hull lo hi x y) (f : K → K) (ha : Represents a s)
    (hb : Represents b t) (hs : s ∈ Set.Icc x y) (ht : t ∈ Set.Icc x y) :
    (between f a b).Follows x y (t - s) 0 := by
  obtain ⟨p, hp, hpr, hnear⟩ := h.exists_near ha hb hs ht
  obtain ⟨q, hq, hqr, hfar⟩ := h.exists_far ha hb hs ht
  exact ⟨0, le_rfl, s, p, q, t, ⟨⟨hs, ha⟩, ⟨hp, hpr⟩, ⟨hq, hqr⟩, ⟨ht, hb⟩⟩,
    Golden.tracks_zero hnear hfar⟩

/-- A narrowing computes one section and keeps the other, or ends the search. -/
theorem Follows.narrow (hull : Hull lo hi x y) (h : g.Follows x y width n) (f : K → K) :
    (g.narrow f).state.Follows x y width (n + 1) := by
  obtain ⟨k, hk, s, p, q, t, hplaces, htracks⟩ := h
  obtain ⟨⟨hs, hsr⟩, ⟨hp, hpr⟩, ⟨hq, hqr⟩, ⟨ht, htr⟩⟩ := hplaces
  rcases narrow_state_cases f g with heq | heq | heq
  · obtain ⟨r, hr, hrr, hdrift⟩ := hull.exists_far hpr htr hp ht
    rw [heq]
    exact ⟨k + 1, Nat.succ_le_succ hk, p, q, r, t,
      ⟨⟨hp, hpr⟩, ⟨hq, hqr⟩, ⟨hr, hrr⟩, ⟨ht, htr⟩⟩, htracks.shrinkNear hdrift⟩
  · obtain ⟨r, hr, hrr, hdrift⟩ := hull.exists_near hsr hqr hs hq
    rw [heq]
    exact ⟨k + 1, Nat.succ_le_succ hk, s, r, p, q,
      ⟨⟨hs, hsr⟩, ⟨hr, hrr⟩, ⟨hp, hpr⟩, ⟨hq, hqr⟩⟩, htracks.shrinkFar hdrift⟩
  · rw [heq]
    exact ⟨k, Nat.le_succ_of_le hk, s, p, q, t,
      ⟨⟨hs, hsr⟩, ⟨hp, hpr⟩, ⟨hq, hqr⟩, ⟨ht, htr⟩⟩, htracks⟩

theorem follows_after (h : Hull lo hi x y) (f : K → K) (ha : Represents a s)
    (hb : Represents b t) (hs : s ∈ Set.Icc x y) (ht : t ∈ Set.Icc x y) (n : ℕ) :
    (after f a b n).Follows x y (t - s) n := by
  induction n with
  | zero => exact follows_between h f ha hb hs ht
  | succ n ih =>
    rw [after_succ]
    exact ih.narrow h f

/-- What has become of a bracket after a number of narrowings, in either direction. -/
theorem exists_follows (f : K → K) (ha : Represents a x) (hb : Represents b y)
    (hwidth : Scalar.isFinite (b - a) = true) (n : ℕ) :
    (after f a b n).Follows (min x y) (max x y) (y - x) n := by
  rcases le_total x y with hxy | hyx
  · have hull : Hull a b x y := ⟨ha, hb, hxy, hwidth⟩
    rw [min_eq_left hxy, max_eq_right hxy]
    exact follows_after hull f ha hb ⟨le_rfl, hxy⟩ ⟨hxy, le_rfl⟩ n
  · have hfinite : Scalar.isFinite (a - b) = true := by
      rwa [NumericScalar.isFinite_same (Scalar.same_sub_comm b a), NumericScalar.isFinite_neg]
    have hull : Hull b a y x := ⟨hb, ha, hyx, hfinite⟩
    rw [min_eq_right hyx, max_eq_left hyx]
    exact follows_after hull f ha hb ⟨hyx, le_rfl⟩ ⟨le_rfl, hyx⟩ n

/-! ## The result -/

/-- However often it is narrowed, a golden bracket of a finite width is made of samples between the
ends it started from, and so is the point returned.  Its samples are in the order of the scan while
it is wider than the roundings of its narrowings, which it is for as long as the larger part of the
golden section, taken once for each of them, leaves that much of the width it started from.  (A
width that overflows has infinite sections.) -/
theorem sections_in_order (f : K → K) (ha : Represents a x) (hb : Represents b y)
    (hwidth : Scalar.isFinite (b - a) = true) (n : ℕ) :
    let g := after f a b n
    g.OnGraph f ∧ (∀ t ∈ g.abscissae, Between a b t) ∧
      (∀ i, Between a b (dichotomy f a b i n).x) ∧
        (63 * ((n + 2) * grain K x y) ≤ g.span → g.Ordered a b) ∧
          (84 * ((n + 2) * grain K x y) ≤ share ^ n * |y - x| → g.Ordered a b) := by
  intro g
  have hfollows := exists_follows f ha hb hwidth n
  have hordered := hfollows.ordered ha hb
  rw [grain_min_max] at hordered
  obtain ⟨k, -, s, p, q, t, hplaces, -⟩ := hfollows
  have hbetween : ∀ t ∈ g.abscissae, Between a b t := by
    intro t ht
    obtain ⟨v, hv, htv⟩ := hplaces.forall_mem t ht
    rw [Between, ha.le_iff htv, htv.le_iff hb, hb.le_iff htv, htv.le_iff ha]
    exact Set.mem_uIcc.1 hv
  refine ⟨onGraph_after f a b n, hbetween, fun i => ?_, hordered⟩
  rw [dichotomy_x]
  exact hbetween _ (by simp [abscissae, g])

end

/-- Fifty narrowings keep the order of a bracket from one to two. -/
theorem sections_in_order_fifty :
    Represents (1 : Float) 1 ∧ Represents (2 : Float) 2 ∧
      Scalar.isFinite (2 - 1 : Float) = true ∧
        84 * (((50 : ℕ) + 2) * grain Float 1 2) ≤ share ^ 50 * |(2 : ℝ) - 1| ∧
          (after (fun x : Float => x * x - 2) 1 2 50).Ordered 1 2 := by
  have hone : Represents (1 : Float) 1 := coarseGrid_double.one
  have htwo : Represents (2 : Float) 2 := represents_of_unpack
    (show unpack (2 : Float) = .finite .positive (2 ^ 52) (-51) (by decide) from rfl)
    (by norm_num)
  have hfinite : Scalar.isFinite (2 - 1 : Float) = true := by decide +kernel
  have hfew : 84 * (((50 : ℕ) + 2) * grain Float 1 2) ≤ share ^ 50 * |(2 : ℝ) - 1| := by
    have htiny : tiny Float ≤ 2 ^ (-53 : ℤ) := zpow_le_zpow_right₀ one_le_two (by decide)
    have hshare : (0.618 : ℝ) ^ 50 ≤ share ^ 50 :=
      pow_le_pow_left₀ (by norm_num) Golden.lt_share.le 50
    norm_num [grain, roundoff_double]
      at htiny hshare ⊢
    linarith
  exact ⟨hone, htwo, hfinite, hfew,
    (sections_in_order (fun x : Float => x * x - 2) hone htwo hfinite 50).2.2.2.2 hfew⟩

/-- A step of a function, between two neighbouring numbers. -/
def jump (x : Float) : Float := if x < 1.0080668788372717e-8 then -1 else 1

/-- Narrowings that alternate between the parts of a bracket multiply the drift of its sections,
and these end up out of order; the eightieth narrowing moves the far end away. -/
theorem sections_out_of_order :
    let stage := after jump (-1.2999999999999998e-6) 8.197550501037808e-7
    ¬ (stage 74).Ordered (-1.2999999999999998e-6) 8.197550501037808e-7 ∧
      (stage 79).far.x < (stage 80).far.x := by
  decide +kernel

end GoldenBracket

end CurveSurvey

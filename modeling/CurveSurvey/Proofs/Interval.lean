import CurveSurvey.Interval
import CurveSurvey.Proofs.Order

/-!
# Intervals as bounding boxes

Extending an interval by a value is joining it with the value, and joining is
associative, so that the interval gathered from many values is the join of what
they contribute.

* `Scalar.foremost` picks the end of a join.  It is stated for an arbitrary strict
  order, since upper ends are lower ends of the opposite order.
* `Interval.extend_eq_join` reduces extension to joins.
* `Interval.Within`, `Interval.Covers` and `Interval.Same` are what an interval
  keeps, what it never loses, and what it is numerically.
-/

namespace CurveSurvey

namespace Scalar

variable {K : Type} [Scalar K]

/-! ## The foremost of several numbers -/

/-- Of two numbers the one that comes first, where an undefined number is passed
over, and the first of two that are equal. -/
def foremost (before : K → K → Bool) (s t : K) : K :=
  if isNaN t then s else if isNaN s || before t s then t else s

/-- A strict order of the defined numbers in which incomparable ones are equal. -/
structure IsBefore (before : K → K → Bool) : Prop where
  /-- Only defined numbers compare. -/
  defined : ∀ {s t : K}, before s t = true → isNaN s = false ∧ isNaN t = false
  /-- Numbers compare in one way only. -/
  asymm : ∀ {s t : K}, before s t = true → before t s = false
  /-- A defined number is after the first or before the second of two that compare. -/
  weak : ∀ {s t u : K}, isNaN t = false → before s u = true → before s t = true ∨ before t u = true
  /-- Incomparable numbers are equal. -/
  beq : ∀ {s t : K}, isNaN s = false → isNaN t = false → before s t = false →
    before t s = false → (s == t) = true

theorem IsBefore.not_before_of_isNaN {before : K → K → Bool} (hb : IsBefore before) {s : K}
    (hs : isNaN s = true) (t : K) : before s t = false := by
  cases h : before s t with
  | false => rfl
  | true =>
    have := (hb.defined h).1
    simp [hs] at this

theorem IsBefore.not_before_trans {before : K → K → Bool} (hb : IsBefore before) {s t u : K}
    (ht : isNaN t = false) (hst : before s t = false) (htu : before t u = false) :
    before s u = false := by
  cases h : before s u with
  | false => rfl
  | true => rcases hb.weak ht h with h | h <;> simp [h] at hst htu

/-- Whether one number is below another. -/
def below (s t : K) : Bool := decide (s < t)

/-- Whether one number is above another. -/
def above (s t : K) : Bool := decide (t < s)

theorem beq_of_not_lt [OrderedScalar K] {s t : K} (hs : isNaN s = false) (ht : isNaN t = false)
    (h : ¬ s < t) (h' : ¬ t < s) : (s == t) = true :=
  OrderedScalar.beq_iff.2 ⟨le_of_not_lt hs ht h', le_of_not_lt ht hs h⟩

theorem lt_or_lt [OrderedScalar K] {s t u : K} (ht : isNaN t = false) (h : s < u) :
    s < t ∨ t < u := by
  obtain ⟨hs, hu⟩ := defined_of_lt h
  by_cases hst : s < t
  · exact .inl hst
  · exact .inr (lt_of_le_of_lt (le_of_not_lt ht hs hst) h)

theorem isBefore_below [OrderedScalar K] : IsBefore (below (K := K)) where
  defined h := defined_of_lt (of_decide_eq_true h)
  asymm h := decide_eq_false (lt_asymm (of_decide_eq_true h))
  weak ht h := by simpa [below] using lt_or_lt ht (of_decide_eq_true h)
  beq hs ht h h' := beq_of_not_lt hs ht (of_decide_eq_false h) (of_decide_eq_false h')

theorem isBefore_above [OrderedScalar K] : IsBefore (above (K := K)) where
  defined h := (defined_of_lt (of_decide_eq_true h)).symm
  asymm h := decide_eq_false (lt_asymm (of_decide_eq_true h))
  weak ht h := by simpa [above] using (lt_or_lt ht (of_decide_eq_true h)).symm
  beq hs ht h h' := beq_of_not_lt hs ht (of_decide_eq_false h') (of_decide_eq_false h)

section

variable {before : K → K → Bool} {s t u : K}

theorem foremost_of_isNaN_right (h : isNaN t = true) : foremost before s t = s := by
  simp [foremost, h]

theorem foremost_of_isNaN_left (h : isNaN s = true) (ht : isNaN t = false) :
    foremost before s t = t := by
  simp [foremost, h, ht]

theorem foremost_eq_or (before : K → K → Bool) (s t : K) :
    foremost before s t = s ∨ foremost before s t = t := by
  unfold foremost
  split
  · exact .inl rfl
  · split
    · exact .inr rfl
    · exact .inl rfl

theorem isNaN_foremost (before : K → K → Bool) (s t : K) :
    isNaN (foremost before s t) = (isNaN s && isNaN t) := by
  unfold foremost
  cases hs : isNaN s <;> cases ht : isNaN t <;> simp [hs, ht]
  split <;> assumption

/-- Three numbers may be compared in any grouping. -/
theorem foremost_assoc (hb : IsBefore before) (s t u : K) :
    foremost before (foremost before s t) u = foremost before s (foremost before t u) := by
  cases hu : isNaN u with
  | true => rw [foremost_of_isNaN_right hu, foremost_of_isNaN_right hu]
  | false =>
    cases ht : isNaN t with
    | true => rw [foremost_of_isNaN_right ht, foremost_of_isNaN_left ht hu]
    | false =>
      cases hs : isNaN s with
      | true =>
        rw [foremost_of_isNaN_left hs ht, foremost_of_isNaN_left hs]
        rw [isNaN_foremost, ht, Bool.false_and]
      | false =>
        -- all three are defined, so the order decides
        simp only [foremost, hs, ht, hu, Bool.false_eq_true, if_false, Bool.false_or]
        cases hts : before t s <;> cases hut : before u t <;>
          simp only [hs, ht, hu, hts, hut, Bool.false_eq_true, if_false, if_true, Bool.false_or]
        · cases hus : before u s with
          | false => rfl
          | true => rcases hb.weak ht hus with h | h <;> simp [h] at hts hut
        · rcases hb.weak hs hut with h | h
          · simp [h]
          · simp [hb.asymm h] at hts

/-- The foremost of two numbers is not after either of them. -/
theorem not_before_foremost (hb : IsBefore before) (s t : K) :
    before s (foremost before s t) = false ∧ before t (foremost before s t) = false := by
  have hirrefl : ∀ r : K, before r r = false := by
    intro r
    cases h : before r r with
    | false => rfl
    | true => simp [hb.asymm h] at h
  unfold foremost
  cases ht : isNaN t with
  | true => exact ⟨hirrefl s, hb.not_before_of_isNaN ht s⟩
  | false =>
    cases hs : isNaN s with
    | true => exact ⟨hb.not_before_of_isNaN hs t, hirrefl t⟩
    | false =>
      cases hts : before t s with
      | true => simpa [hirrefl] using hb.asymm hts
      | false => simpa [hirrefl] using hts

/-! ## The foremost of a list -/

theorem mem_foldl_foremost (before : K → K → Bool) (l : List K) (s : K) :
    l.foldl (foremost before) s ∈ s :: l := by
  induction l generalizing s with
  | nil => simp
  | cons t l ih =>
    rw [List.foldl_cons]
    rcases List.mem_cons.1 (ih (foremost before s t)) with h | h
    · rw [h]
      rcases foremost_eq_or before s t with h | h <;> simp [h]
    · simp [h]

theorem isNaN_foldl_foremost (before : K → K → Bool) (l : List K) (s : K) :
    isNaN (l.foldl (foremost before) s) = true ↔ ∀ t ∈ s :: l, isNaN t = true := by
  induction l generalizing s with
  | nil => simp
  | cons t l ih => simp [ih, isNaN_foremost, and_assoc]

/-- Nothing in a list is before the foremost of it. -/
theorem not_before_foldl_foremost (hb : IsBefore before) (l : List K) (s : K) :
    ∀ t ∈ s :: l, before t (l.foldl (foremost before) s) = false := by
  induction l generalizing s with
  | nil =>
    intro t ht
    obtain rfl : t = s := by simpa using ht
    simpa [foremost] using (not_before_foremost hb t t).1
  | cons u l ih =>
    have hfirst := ih (foremost before s u) _ List.mem_cons_self
    have hpair : ∀ t, t = s ∨ t = u → before t (l.foldl (foremost before) (foremost before s u)) =
        false := by
      intro t ht
      have hnot : before t (foremost before s u) = false := by
        rcases ht with rfl | rfl
        · exact (not_before_foremost hb _ _).1
        · exact (not_before_foremost hb _ _).2
      -- an undefined foremost means that neither of the two is defined
      cases hnan : isNaN (foremost before s u) with
      | false => exact hb.not_before_trans hnan hnot hfirst
      | true =>
        rw [isNaN_foremost, Bool.and_eq_true] at hnan
        refine hb.not_before_of_isNaN ?_ _
        rcases ht with rfl | rfl
        · exact hnan.1
        · exact hnan.2
    intro t ht
    simp only [List.mem_cons] at ht
    rcases ht with ht | ht | ht
    · exact hpair t (.inl ht)
    · exact hpair t (.inr ht)
    · exact ih (foremost before s u) t (List.mem_cons_of_mem _ ht)

/-- Two numbers that are both undefined or equal. -/
def Same (s t : K) : Prop := isNaN s = true ∧ isNaN t = true ∨ (s == t) = true

/-- The foremost of a list does not depend on its order or on repetitions. -/
theorem same_foldl_foremost (hb : IsBefore before) {l l' : List K} (h : ∀ t, t ∈ l ↔ t ∈ l')
    (s : K) : Same (l.foldl (foremost before) s) (l'.foldl (foremost before) s) := by
  have hmem : ∀ t, t ∈ s :: l ↔ t ∈ s :: l' := by
    intro t
    simp [h t]
  cases hnan : isNaN (l.foldl (foremost before) s) with
  | true =>
    refine .inl ⟨hnan, (isNaN_foldl_foremost before l' s).2 fun t ht => ?_⟩
    exact (isNaN_foldl_foremost before l s).1 hnan t ((hmem t).2 ht)
  | false =>
    have hnan' : isNaN (l'.foldl (foremost before) s) = false := by
      cases h' : isNaN (l'.foldl (foremost before) s) with
      | false => rfl
      | true =>
        rw [(isNaN_foldl_foremost before l s).2 fun t ht =>
          (isNaN_foldl_foremost before l' s).1 h' t ((hmem t).1 ht)] at hnan
        cases hnan
    refine .inr (hb.beq hnan hnan' ?_ ?_)
    · exact not_before_foldl_foremost hb l' s _ ((hmem _).1 (mem_foldl_foremost before l s))
    · exact not_before_foldl_foremost hb l s _ ((hmem _).2 (mem_foldl_foremost before l' s))

end

section

variable [OrderedScalar K] {s t : K}

theorem same_of_le (h : isNaN s = false → t ≤ s) (h' : isNaN t = false → s ≤ t) : Same s t := by
  cases hs : isNaN s with
  | true =>
    refine .inl ⟨hs, eq_true_of_ne_false fun ht => ?_⟩
    rw [(OrderedScalar.defined_of_le (h' ht)).1] at hs
    cases hs
  | false =>
    have hle := h hs
    exact .inr (OrderedScalar.beq_iff.2 ⟨h' (OrderedScalar.defined_of_le hle).1, hle⟩)

theorem foremost_below_le (h : isNaN s = false ∨ isNaN t = false) :
    (isNaN s = false → foremost below s t ≤ s) ∧ (isNaN t = false → foremost below s t ≤ t) := by
  have hdef : isNaN (foremost below s t) = false := by
    rw [isNaN_foremost]
    rcases h with h | h <;> simp [h]
  obtain ⟨hs, ht⟩ := not_before_foremost isBefore_below s t
  exact ⟨fun h => le_of_not_lt hdef h (of_decide_eq_false hs),
    fun h => le_of_not_lt hdef h (of_decide_eq_false ht)⟩

theorem le_foremost_above (h : isNaN s = false ∨ isNaN t = false) :
    (isNaN s = false → s ≤ foremost above s t) ∧ (isNaN t = false → t ≤ foremost above s t) := by
  have hdef : isNaN (foremost above s t) = false := by
    rw [isNaN_foremost]
    rcases h with h | h <;> simp [h]
  obtain ⟨hs, ht⟩ := not_before_foremost isBefore_above s t
  exact ⟨fun h => le_of_not_lt h hdef (of_decide_eq_false hs),
    fun h => le_of_not_lt h hdef (of_decide_eq_false ht)⟩

end

/-! ## Clamping -/

variable [OrderedScalar K] {t limit : K}

theorem isNaN_clamp (ht : isNaN t = false) : isNaN (clamp t limit) = false := by
  have hlarger : isNaN (larger t (-limit)) = false := by
    unfold larger
    rw [ht]
    simp only [Bool.false_eq_true, if_false]
    split
    · rename_i h
      exact (defined_of_lt h).2
    · exact ht
  unfold clamp smaller
  rw [hlarger]
  simp only [Bool.false_eq_true, if_false]
  split
  · rename_i h
    exact (defined_of_lt h).1
  · exact hlarger

/-- Every number is brought inside the limits, an undefined one onto the lower one. -/
theorem clamp_mem (t : K) (h : -limit ≤ limit) :
    -limit ≤ clamp t limit ∧ clamp t limit ≤ limit := by
  obtain ⟨hneg, hlim⟩ := OrderedScalar.defined_of_le h
  have hlarger : -limit ≤ larger t (-limit) := by
    unfold larger
    split
    · exact le_refl_of_defined hneg
    · rename_i ht
      split
      · exact le_refl_of_defined hneg
      · rename_i hlt
        exact le_of_not_lt hneg (Bool.not_eq_true _ ▸ ht) hlt
  have hdef := (OrderedScalar.defined_of_le hlarger).2
  unfold clamp smaller
  rw [hdef]
  simp only [Bool.false_eq_true, if_false]
  split
  · exact ⟨h, le_refl_of_defined hlim⟩
  · rename_i hlt
    exact ⟨hlarger, le_of_not_lt hdef hlim hlt⟩

end Scalar

/-! ## Joins -/

namespace Interval

variable {K : Type} [Scalar K]

/-- The smallest interval that holds two others, each of which may be unset. -/
def join (i j : Interval K) : Interval K :=
  ⟨Scalar.foremost Scalar.below i.lower j.lower, Scalar.foremost Scalar.above i.upper j.upper⟩

/-- The interval that a value contributes: its place inside `±limit`, or nothing. -/
def spot (t limit : K) : Interval K :=
  if Scalar.isNaN t then unset else ⟨Scalar.clamp t limit, Scalar.clamp t limit⟩

theorem spot_of_defined {t : K} (ht : Scalar.isNaN t = false) (limit : K) :
    spot t limit = ⟨Scalar.clamp t limit, Scalar.clamp t limit⟩ := if_neg (by simp [ht])

theorem spot_of_undefined {t : K} (ht : Scalar.isNaN t = true) (limit : K) :
    spot t limit = unset := if_pos ht

/-- The lower ends of joined intervals are joined like the intervals. -/
theorem foldl_join_lower (l : List (Interval K)) (i : Interval K) :
    (l.foldl join i).lower = (l.map lower).foldl (Scalar.foremost Scalar.below) i.lower := by
  induction l generalizing i with
  | nil => rfl
  | cons j l ih => exact ih (i.join j)

theorem foldl_join_upper (l : List (Interval K)) (i : Interval K) :
    (l.foldl join i).upper = (l.map upper).foldl (Scalar.foremost Scalar.above) i.upper := by
  induction l generalizing i with
  | nil => rfl
  | cons j l ih => exact ih (i.join j)

/-- Both ends are undefined, or they are in order inside `±limit`. -/
def Within (limit : K) (i : Interval K) : Prop :=
  Scalar.isNaN i.lower = true ∧ Scalar.isNaN i.upper = true ∨
    -limit ≤ i.lower ∧ i.lower ≤ i.upper ∧ i.upper ≤ limit

/-- The defined ends of `i` are not outside `j`. -/
def Covers (j i : Interval K) : Prop :=
  (Scalar.isNaN i.lower = false → j.lower ≤ i.lower) ∧
    (Scalar.isNaN i.upper = false → i.upper ≤ j.upper)

/-- The same interval numerically, whichever zeros and undefined values its ends are. -/
def Same (i j : Interval K) : Prop :=
  Scalar.Same i.lower j.lower ∧ Scalar.Same i.upper j.upper

/-- An unset interval is covered by every interval. -/
theorem covers_of_isNaN {i : Interval K} (hl : Scalar.isNaN i.lower = true)
    (hu : Scalar.isNaN i.upper = true) (j : Interval K) : Covers j i := by
  simp [Covers, hl, hu]

/-- The join is the smallest interval that covers both of its parts. -/
theorem Covers.join {i j k : Interval K} (hi : Covers k i) (hj : Covers k j) :
    Covers k (i.join j) := by
  constructor
  · intro h
    rcases Scalar.foremost_eq_or Scalar.below i.lower j.lower with heq | heq <;>
      simp only [Interval.join, heq] at h ⊢
    · exact hi.1 h
    · exact hj.1 h
  · intro h
    rcases Scalar.foremost_eq_or Scalar.above i.upper j.upper with heq | heq <;>
      simp only [Interval.join, heq] at h ⊢
    · exact hi.2 h
    · exact hj.2 h

variable [OrderedScalar K]

theorem join_unset (i : Interval K) : i.join unset = i := by
  simp [join, unset, Scalar.foremost, OrderedScalar.isNaN_nan]

theorem join_assoc (i j k : Interval K) : (i.join j).join k = i.join (j.join k) := by
  simp only [join, Scalar.foremost_assoc Scalar.isBefore_below,
    Scalar.foremost_assoc Scalar.isBefore_above]

/-- Extending an interval by a value joins it with what the value contributes. -/
theorem extend_eq_join (i : Interval K) (t limit : K) :
    i.extend t limit = i.join (spot t limit) := by
  unfold spot
  cases ht : Scalar.isNaN t with
  | true => rw [extend_of_isNaN i limit ht, if_pos rfl, join_unset]
  | false =>
    have hclamp : Scalar.isNaN (Scalar.clamp t limit) = false := Scalar.isNaN_clamp ht
    simp only [extend, ht, join, Scalar.foremost, hclamp, Scalar.below, Scalar.above,
      Bool.false_eq_true, if_false]

theorem clamp_eq_self {t limit : K} (hlo : -limit ≤ t) (hhi : t ≤ limit) :
    Scalar.clamp t limit = t := by
  have ht := (OrderedScalar.defined_of_le hhi).1
  unfold Scalar.clamp Scalar.larger Scalar.smaller
  simp only [ht, Bool.false_eq_true, if_false]
  rw [if_neg fun h => Scalar.not_le_of_lt h hlo, ht]
  simp only [Bool.false_eq_true, if_false]
  rw [if_neg fun h => Scalar.not_le_of_lt h hhi]

/-- A value inside the limit contributes itself. -/
theorem spot_eq_of_mem {t limit : K} (hlo : -limit ≤ t) (hhi : t ≤ limit) :
    spot t limit = ⟨t, t⟩ := by
  rw [spot_of_defined (OrderedScalar.defined_of_le hhi).1, clamp_eq_self hlo hhi]

/-! ## What joining keeps -/

theorem within_unset (limit : K) : Within limit unset :=
  .inl ⟨OrderedScalar.isNaN_nan, OrderedScalar.isNaN_nan⟩

theorem within_spot {limit : K} (h : -limit ≤ limit) (t : K) : Within limit (spot t limit) := by
  unfold spot
  cases ht : Scalar.isNaN t with
  | true => exact within_unset limit
  | false =>
    obtain ⟨hlo, hhi⟩ := Scalar.clamp_mem t h
    exact .inr ⟨hlo, Scalar.le_refl_of_defined (Scalar.isNaN_clamp ht), hhi⟩

theorem Within.join {limit : K} {i j : Interval K} (hi : Within limit i) (hj : Within limit j) :
    Within limit (i.join j) := by
  rcases hi with ⟨hil, hiu⟩ | ⟨hlo, hi, hhi⟩
  · rcases hj with ⟨hjl, hju⟩ | hj
    · left
      simp [Interval.join, Scalar.isNaN_foremost, hil, hiu, hjl, hju]
    · right
      have hdef := OrderedScalar.defined_of_le hj.2.1
      simpa only [Interval.join, Scalar.foremost_of_isNaN_left hil hdef.1,
        Scalar.foremost_of_isNaN_left hiu hdef.2] using hj
  · right
    rcases hj with ⟨hjl, hju⟩ | ⟨hlo', hj, hhi'⟩
    · simpa only [Interval.join, Scalar.foremost_of_isNaN_right hjl,
        Scalar.foremost_of_isNaN_right hju] using ⟨hlo, hi, hhi⟩
    · have hdef := OrderedScalar.defined_of_le hi
      refine ⟨?_, ?_, ?_⟩
      · rcases Scalar.foremost_eq_or Scalar.below i.lower j.lower with h | h <;>
          simpa only [Interval.join, h]
      · exact OrderedScalar.trans ((Scalar.foremost_below_le (.inl hdef.1)).1 hdef.1)
          (OrderedScalar.trans hi ((Scalar.le_foremost_above (.inl hdef.2)).1 hdef.2))
      · rcases Scalar.foremost_eq_or Scalar.above i.upper j.upper with h | h <;>
          simpa only [Interval.join, h]

theorem covers_join (i j : Interval K) : Covers (i.join j) i :=
  ⟨fun h => (Scalar.foremost_below_le (.inl h)).1 h,
    fun h => (Scalar.le_foremost_above (.inl h)).1 h⟩

theorem covers_join_right (i j : Interval K) : Covers (i.join j) j :=
  ⟨fun h => (Scalar.foremost_below_le (.inr h)).2 h,
    fun h => (Scalar.le_foremost_above (.inr h)).2 h⟩

/-- Once a defined number was added, the ends are in order. -/
theorem extend_le {t : K} (ht : Scalar.isNaN t = false) (i : Interval K) (limit : K) :
    (i.extend t limit).lower ≤ (i.extend t limit).upper := by
  have hclamp : Scalar.isNaN (Scalar.clamp t limit) = false := Scalar.isNaN_clamp ht
  rw [extend_eq_join, spot_of_defined ht]
  obtain ⟨hlow, hup⟩ := covers_join_right i ⟨Scalar.clamp t limit, Scalar.clamp t limit⟩
  exact OrderedScalar.trans (hlow hclamp) (hup hclamp)

theorem covers_unset (j : Interval K) : Covers j unset :=
  covers_of_isNaN OrderedScalar.isNaN_nan OrderedScalar.isNaN_nan j

theorem Covers.refl (i : Interval K) : Covers i i :=
  ⟨fun h => Scalar.le_refl_of_defined h, fun h => Scalar.le_refl_of_defined h⟩

theorem Covers.trans {i j k : Interval K} (h : Covers k j) (h' : Covers j i) : Covers k i := by
  constructor
  · intro hdef
    have hle := h'.1 hdef
    exact OrderedScalar.trans (h.1 (OrderedScalar.defined_of_le hle).1) hle
  · intro hdef
    have hle := h'.2 hdef
    exact OrderedScalar.trans hle (h.2 (OrderedScalar.defined_of_le hle).2)

/-- An interval covers a join exactly when it covers all of the parts. -/
theorem covers_foldl_join_iff {l : List (Interval K)} {i k : Interval K} :
    Covers k (l.foldl join i) ↔ Covers k i ∧ ∀ j ∈ l, Covers k j := by
  induction l generalizing i with
  | nil => simp
  | cons j l ih =>
    rw [List.foldl_cons, ih, List.forall_mem_cons]
    constructor
    · rintro ⟨h, hl⟩
      exact ⟨h.trans (covers_join i j), h.trans (covers_join_right i j), hl⟩
    · rintro ⟨hi, hj, hl⟩
      exact ⟨hi.join hj, hl⟩

/-- Intervals that the same intervals cover are the same. -/
theorem same_of_covers_iff {i j : Interval K} (h : ∀ k, Covers k i ↔ Covers k j) : Same i j := by
  have hij : Covers i j := (h i).1 (Covers.refl i)
  have hji : Covers j i := (h j).2 (Covers.refl j)
  constructor
  · exact Scalar.same_of_le hji.1 hij.1
  · exact Scalar.same_of_le (fun hi => hij.2 (OrderedScalar.defined_of_le (hji.2 hi)).2)
      fun hj => hji.2 (OrderedScalar.defined_of_le (hij.2 hj)).2

/-- A join depends neither on the order of its parts nor on repetitions. -/
theorem same_foldl_join {l l' : List (Interval K)} (h : ∀ j, j ∈ l ↔ j ∈ l') (i : Interval K) :
    Same (l.foldl join i) (l'.foldl join i) := by
  have hmap : ∀ (f : Interval K → K) (t : K), t ∈ l.map f ↔ t ∈ l'.map f := by
    intro f t
    simp [List.mem_map, h]
  constructor
  · rw [foldl_join_lower, foldl_join_lower]
    exact Scalar.same_foldl_foremost Scalar.isBefore_below (hmap lower) i.lower
  · rw [foldl_join_upper, foldl_join_upper]
    exact Scalar.same_foldl_foremost Scalar.isBefore_above (hmap upper) i.upper

end Interval

end CurveSurvey

import CurveSurvey.Proofs.Progress
import CurveSurvey.Proofs.Refinement

/-!
# What a reported root is

A root is either checked against the whole expression, or reported on the evidence
of the samples.

* `Expression.core` is the expression that is searched: operations that vanish
  exactly where their operand does are left out, and not looked at again.
* `Scan.RootAt` lists the evidence for a root that was found by sampling: an
  ordinate that counts as zero, a change of sign that the ordinate is no larger
  than, or an extremum that touches zero beside it on the grid.
* `Solver.rootSearch_reports` is the result: at a root the searched expression is
  defined, its ordinate is reported unless it counts as zero, and it does count as
  zero where the root was checked.
-/

namespace CurveSurvey

open Machine

/-! ## Ordinates that count as zero -/

namespace Precision

variable {K : Type} [Precision K] [Machine K] {x y : K}

theorem defined_of_isNull (h : isNull x y = true) : Scalar.isNaN y = false := by
  have hlt : Scalar.abs y < nullTolerance x := of_decide_eq_true h
  simpa using (Scalar.defined_of_lt hlt).1

@[simp] theorem isNull_neg_neg (x y : K) : isNull x (-(-y)) = isNull x y := by
  unfold isNull
  rw [decide_eq_decide, lt_iff_val, lt_iff_val]
  simp

theorem isNull_of_beq_zero [TolerantPrecision K] (hx : Scalar.isFinite x = true)
    (hy : (y == 0) = true) : isNull x y = true := by
  obtain ⟨hdef, -, hval⟩ := beq_iff_val.1 hy
  obtain ⟨-, htol, hpos⟩ := lt_iff_val.1 (TolerantPrecision.nullTolerance_pos hx)
  refine decide_eq_true (lt_iff_val.2 ⟨by simpa using hdef, htol, ?_⟩)
  rw [val_abs, hval]
  simpa using hpos

end Precision

namespace Scalar

variable {K : Type} [Scalar K] [Machine K] {s t : K}

theorem le_of_beq (h : (s == t) = true) : s ≤ t := (OrderedScalar.beq_iff.1 h).1

theorem abs_le_abs_of_beq (h : (s == t) = true) : abs s ≤ abs t := by
  obtain ⟨hs, ht, hval⟩ := beq_iff_val.1 h
  refine le_iff_val.2 ⟨by simpa using hs, by simpa using ht, ?_⟩
  rw [val_abs, val_abs, hval]

theorem abs_lt_of_pos {u : K} (h : 0 < t) (h' : t < u) : abs t < u := by
  obtain ⟨-, ht, hpos⟩ := lt_iff_val.1 h
  obtain ⟨-, hu, hlt⟩ := lt_iff_val.1 h'
  rw [val_zero] at hpos
  refine lt_iff_val.2 ⟨by simpa using ht, hu, ?_⟩
  rw [val_abs]
  have hneg : -val t < 0 := by simpa using EReal.neg_lt_neg_iff.2 hpos
  exact max_lt hlt (hneg.trans (hpos.trans hlt))

theorem neg_neg_le_iff : -(-s) ≤ t ↔ s ≤ t := by
  rw [le_iff_val, le_iff_val]
  simp

end Scalar

/-! ## Roots found by sampling -/

namespace Scan

section

variable {K : Type} [Precision K]

/-- Three successive samples of a scan, the first of them at `x`. -/
def samplesFrom (s : Scan K) (x : K) : Bracket K :=
  let middle := s.following x
  ⟨s.sample x, middle, s.following middle.x⟩

/-- Three successive samples, when the steps are known. -/
theorem samplesFrom_eq (s : Scan K) {x y z : K} (hy : s.cursor.nextX x s.cursor.goal = y)
    (hz : s.cursor.nextX y s.cursor.goal = z) :
    s.samplesFrom x = ⟨s.sample x, s.sample y, s.sample z⟩ := by
  subst hy hz
  rfl

/-- The abscissae that a scan can come to. -/
inductive Visits (s : Scan K) : K → Prop where
  /-- It starts at the position of its cursor. -/
  | start : s.Visits s.cursor.position
  /-- It goes on by the adaptive step. -/
  | next {x : K} (h : s.Visits x) : s.Visits (s.cursor.nextX x s.cursor.goal)

/-- The evidence for a root at `x`. -/
inductive RootAt (s : Scan K) (x : K) : Prop where
  /-- The ordinate counts as zero. -/
  | null (h : Precision.isNull x (s.f x) = true)
  /-- The ordinate is no larger than either end of a bracket of successive samples,
  narrowed onto its defined side, whose ends have strictly opposite signs. -/
  | signChange {t : K} (ht : s.Visits t) {b : Bracket K}
      (hb : s.classify (s.samplesFrom t) = (b, .root))
      (hsigns : Bracket.signsDiffer (s.f b.first.x) (s.f b.last.x) = true)
      (hfirst : Scalar.abs (s.f x) ≤ Scalar.abs (s.f b.first.x))
      (hlast : Scalar.abs (s.f x) ≤ Scalar.abs (s.f b.last.x))
  /-- It is the neighbour on the grid of the minimum of a bracket of successive samples
  that shows one, and no higher.  The minimum touches zero. -/
  | besideMinimum {t : K} (ht : s.Visits t) {b : Bracket K}
      (hb : s.classify (s.samplesFrom t) = (b, .localMinimum)) {p : Point K}
      (hp : p = Descent.minimum s.f b.first.x b.last.x s.tolerance)
      (hnull : Precision.isNull p.x (s.f p.x) = true)
      (hx : x = onGrid p.x) (hle : s.f x ≤ s.f p.x)
  /-- It is the neighbour on the grid of the maximum of a bracket of successive samples
  that shows one, and no lower.  The maximum touches zero. -/
  | besideMaximum {t : K} (ht : s.Visits t) {b : Bracket K}
      (hb : s.classify (s.samplesFrom t) = (b, .localMaximum)) {p : Point K}
      (hp : p = Descent.maximum s.f b.first.x b.last.x s.tolerance)
      (hnull : Precision.isNull p.x (s.f p.x) = true)
      (hx : x = onGrid p.x) (hle : s.f p.x ≤ s.f x)

/-- A cursor that a scan moved onto a root. -/
structure Reports (s : Scan K) (c : Cursor K) : Prop where
  /-- The function is defined there. -/
  defined : Scalar.isNaN (s.f c.position) = false
  /-- The ordinate is that of the function, or zero if it counts as zero. -/
  ordinate : c.ordinate =
    if Precision.isNull c.position (s.f c.position) then 0 else s.f c.position
  /-- There is evidence for the root. -/
  rootAt : s.RootAt c.position

/-- A bracket that shows something is not narrowed. -/
theorem classify_of_interest (s : Scan K) {b : Bracket K} {i : Interest}
    (hb : s.test.classify b = i) (hi : i.isNone = false) : s.classify b = (b, i) := by
  simp [classify, hb, hi]

/-- A scan that finds something in its first bracket settles on it. -/
theorem run_of_first_bracket (s : Scan K) (hs : s.cursor.isExhausted = false)
    (hsamples : 3 ≤ s.settings.maxSamples) {i : Interest} {b : Bracket K}
    (hunderway : s.isUnderway (s.following s.cursor.position).x = true)
    (hb : s.classify (s.samplesFrom s.cursor.position) = (b, i)) (hi : i.isNone = false)
    (hvalid : s.isValid (s.refine b i) = true) :
    (s.run Observer.silent ()).1 = s.settle (s.refine b i) i := by
  obtain ⟨n, hn⟩ : ∃ n, s.settings.maxSamples - 2 = n + 1 := ⟨s.settings.maxSamples - 3, by omega⟩
  have hexamine : s.examine Observer.silent (s.samplesFrom s.cursor.position) () =
      (some (s.settle (s.refine b i) i), ()) := by
    simp only [examine, Observer.silent, hb, hi, hvalid, Bool.false_eq_true, if_false, if_true]
  rw [run, if_neg (by simp [hs]), hn, advance]
  dsimp only [samplesFrom] at hexamine
  simp only [sample, Point.sample_x] at hexamine hunderway ⊢
  simp only [hunderway, if_true, hexamine]

/-- The same, when the steps are known. -/
theorem run_of_first_steps (s : Scan K) (hs : s.cursor.isExhausted = false)
    (hsamples : 3 ≤ s.settings.maxSamples) {x y z : K} (hx : s.cursor.position = x)
    (hy : s.cursor.nextX x s.cursor.goal = y) (hz : s.cursor.nextX y s.cursor.goal = z)
    (hunderway : s.isUnderway y = true) {i : Interest} {b : Bracket K}
    (hb : s.classify ⟨s.sample x, s.sample y, s.sample z⟩ = (b, i)) (hi : i.isNone = false)
    (hvalid : s.isValid (s.refine b i) = true) :
    (s.run Observer.silent ()).1 = s.settle (s.refine b i) i := by
  subst hx
  rw [← s.samplesFrom_eq hy hz] at hb
  rw [← hy] at hunderway
  exact s.run_of_first_bracket hs hsamples hunderway hb hi hvalid

theorem snapped_cases (s : Scan K) (p : Point K) (i : Interest) :
    s.snapped p i = p ∨
      s.snapped p i = s.sample (onGrid p.x) ∧ s.cursor.accepts (onGrid p.x) = true ∧
        (improves i (s.f (onGrid p.x)) p.y = true ∨ (s.f (onGrid p.x) == p.y) = true) := by
  unfold snapped
  dsimp only
  split
  · rename_i hx
    split
    · rename_i hbetter
      exact .inr ⟨rfl, (Bool.and_eq_true _ _ ▸ hx).2, by simpa using hbetter⟩
    · exact .inl rfl
  · exact .inl rfl

/-- The point reported for a sample is a sample. -/
theorem snapped_y (s : Scan K) {p : Point K} (hp : p.y = s.f p.x) (i : Interest) :
    (s.snapped p i).y = s.f (s.snapped p i).x := by
  rcases s.snapped_cases p i with heq | ⟨heq, -⟩
  · rw [heq, hp]
  · rw [heq]
    rfl

theorem reports_found_sample (s : Scan K) {x : K} (hdef : Scalar.isNaN (s.f x) = false)
    (h : s.RootAt x) (i : Interest) : s.Reports (s.cursor.found (s.sample x) i) :=
  ⟨hdef, rfl, h⟩

/-- A point that is settled on is reported as it is, or as its neighbour on the grid. -/
theorem reports_settle_of_snapped (s : Scan K) {p : Point K} {i : Interest}
    (hrefined : s.Reports (s.cursor.found p i))
    (hbeside : s.cursor.accepts (onGrid p.x) = true →
      improves i (s.f (onGrid p.x)) p.y = true ∨ (s.f (onGrid p.x) == p.y) = true →
      s.Reports (s.cursor.found (s.sample (onGrid p.x)) i)) : s.Reports (s.settle p i) := by
  rcases s.snapped_cases p i with heq | ⟨heq, hacc, hbetter⟩
  · rw [settle, heq]
    exact hrefined
  · rw [settle, heq]
    exact hbeside hacc hbetter

end

variable {K : Type} [Precision K] [Machine K]

theorem reports_found_null (s : Scan K) {p : Point K} (hp : Precision.isNull p.x p.y = true)
    (hf : Precision.isNull p.x (s.f p.x) = true) (i : Interest) :
    s.Reports (s.cursor.found p i) := by
  refine ⟨Precision.defined_of_isNull hf, ?_, .null hf⟩
  simp [Cursor.found, Cursor.ordinate, hp, hf]

/-- Only finite abscissae are accepted. -/
theorem isFinite_of_accepts {c : Cursor K} {x : K} (h : c.accepts x = true) :
    Scalar.isFinite x = true := by
  unfold Cursor.accepts at h
  dsimp only at h
  split at h
  · simp only [Bool.and_eq_true, decide_eq_true_eq] at h
    exact isFinite_of_lt_of_lt h.1 h.2
  · simp only [Bool.and_eq_true, decide_eq_true_eq] at h
    exact isFinite_of_lt_of_lt h.1 h.2

theorem isFinite_undefined : Scalar.isFinite (Point.undefined : Point K).x = false := by
  rw [isFinite_eq_unpack, Point.undefined, unpack_nan]
  rfl

/-- A refined extremum that is accepted touches zero. -/
theorem eq_of_isValid_touchingZero (s : Scan K) {p q : Point K}
    (h : s.isValid q = true) (hq : Refinement.touchingZero p = q) :
    q = p ∧ Precision.isNull q.x q.y = true := by
  subst hq
  rw [Refinement.touchingZero] at h ⊢
  split at h
  · rename_i hnull
    rw [if_pos hnull]
    exact ⟨rfl, hnull⟩
  · rw [isValid, isFinite_undefined, Bool.false_and] at h
    cases h

theorem reports_settle_minimum (s : Scan K) {t : K} (ht : s.Visits t) {b : Bracket K}
    (hb : s.classify (s.samplesFrom t) = (b, .localMinimum)) {p : Point K}
    (hp : p = Descent.minimum s.f b.first.x b.last.x s.tolerance)
    (hnull : Precision.isNull p.x p.y = true) : s.Reports (s.settle p .localMinimum) := by
  have hy : p.y = s.f p.x := by
    rw [hp]
    exact Descent.minimum_y _ _ _ _
  have hf : Precision.isNull p.x (s.f p.x) = true := hy ▸ hnull
  refine s.reports_settle_of_snapped (s.reports_found_null hnull hf _) fun _ hbetter => ?_
  have hle : s.f (onGrid p.x) ≤ s.f p.x :=
    hy ▸ hbetter.elim (fun hlt => Scalar.le_of_lt (of_decide_eq_true hlt)) Scalar.le_of_beq
  exact s.reports_found_sample (OrderedScalar.defined_of_le hle).1
    (.besideMinimum ht hb hp hf rfl hle) .localMinimum

theorem reports_settle_maximum (s : Scan K) {t : K} (ht : s.Visits t) {b : Bracket K}
    (hb : s.classify (s.samplesFrom t) = (b, .localMaximum)) {p : Point K}
    (hp : p = Descent.maximum s.f b.first.x b.last.x s.tolerance)
    (hnull : Precision.isNull p.x p.y = true) : s.Reports (s.settle p .localMaximum) := by
  have hy : p.y = -(-s.f p.x) := by
    rw [hp]
    exact Descent.maximum_y _ _ _ _
  have hf : Precision.isNull p.x (s.f p.x) = true := by simpa [hy] using hnull
  refine s.reports_settle_of_snapped (s.reports_found_null hnull hf _) fun _ hbetter => ?_
  have hle : s.f p.x ≤ s.f (onGrid p.x) := by
    rw [← Scalar.neg_neg_le_iff, ← hy]
    exact hbetter.elim (fun hlt => Scalar.le_of_lt (of_decide_eq_true hlt))
      fun hsame => (OrderedScalar.beq_iff.1 hsame).2
  exact s.reports_found_sample (OrderedScalar.defined_of_le hle).2
    (.besideMaximum ht hb hp hf rfl hle) .localMaximum

variable [TolerantPrecision K]

/-- An accepted zero is a root. -/
theorem reports_zero (s : Scan K) {x : K} (hx : s.cursor.accepts x = true)
    (hzero : (s.f x == 0) = true) (i : Interest) :
    s.Reports (s.cursor.found (s.sample x) i) := by
  have hnull := Precision.isNull_of_beq_zero (isFinite_of_accepts hx) hzero
  exact s.reports_found_null hnull hnull i

theorem reports_settle_signChange (s : Scan K) {t : K} (ht : s.Visits t) {b : Bracket K}
    (hb : s.classify (s.samplesFrom t) = (b, .root)) {p : Point K} (hvalid : s.isValid p = true)
    (hp : SignChange.find s.f b.first.x b.last.x s.tolerance = p) :
    s.Reports (s.settle p .root) := by
  rw [isValid, Bool.and_eq_true] at hvalid
  rcases SignChange.find_cases hp with rfl | ⟨x, rfl, hzero⟩ | ⟨hsigns, hy, hbound⟩
  · rw [isFinite_undefined] at hvalid
    cases hvalid.1
  · have hself : ((0 : K) == 0) = true := beq_iff_val.2 ⟨isNaN_zero, isNaN_zero, rfl⟩
    refine s.reports_settle_of_snapped ?_ fun hacc hbetter => ?_
    · exact s.reports_found_null (Precision.isNull_of_beq_zero hvalid.1 hself)
        (Precision.isNull_of_beq_zero hvalid.1 hzero) .root
    · exact s.reports_zero hacc (or_self_iff.1 hbetter) .root
  · have hends : Scalar.isNaN (Scalar.abs (s.f b.first.x)) = false ∧
        Scalar.isNaN (Scalar.abs (s.f b.last.x)) = false := by
      simpa using Bracket.defined_of_signsDiffer hsigns
    obtain ⟨hfirst, hlast⟩ := Scalar.le_of_le_smaller hends.1 hends.2 hbound
    refine s.reports_settle_of_snapped ?_ fun hacc hbetter => ?_
    · rw [hy] at hfirst hlast
      have hdef : Scalar.isNaN (s.f p.x) = false := by
        simpa using (OrderedScalar.defined_of_le hfirst).1
      have hsample : p = s.sample p.x := by
        rw [sample, Point.sample, ← hy]
      rw [hsample]
      exact s.reports_found_sample hdef (.signChange ht hb hsigns hfirst hlast) .root
    · rcases hbetter with hzero | hsame
      · exact s.reports_zero hacc hzero .root
      · have hle := Scalar.abs_le_abs_of_beq hsame
        have hdef : Scalar.isNaN (s.f (onGrid p.x)) = false := by
          simpa using (OrderedScalar.defined_of_le hle).1
        exact s.reports_found_sample hdef (.signChange ht hb hsigns
          (OrderedScalar.trans hle hfirst) (OrderedScalar.trans hle hlast)) .root

/-- A refined point that is accepted is reported as a root. -/
theorem reports_settle (s : Scan K) (hroot : s.refinement = .compositeRoot) {t : K}
    (ht : s.Visits t) {b : Bracket K} {i : Interest} (hb : s.classify (s.samplesFrom t) = (b, i))
    (hvalid : s.isValid (s.refine b i) = true) : s.Reports (s.settle (s.refine b i) i) := by
  generalize hp : s.refine b i = p at hvalid ⊢
  rw [refine, hroot, Refinement.refine] at hp
  cases i with
  | root => exact s.reports_settle_signChange ht hb hvalid hp
  | localMinimum =>
    obtain ⟨heq, hnull⟩ := s.eq_of_isValid_touchingZero hvalid hp
    exact s.reports_settle_minimum ht hb heq hnull
  | localMaximum =>
    obtain ⟨heq, hnull⟩ := s.eq_of_isValid_touchingZero hvalid hp
    exact s.reports_settle_maximum ht hb heq hnull
  | none | discontinuity | intersection =>
    have hundefined : Point.undefined = p := hp
    rw [← hundefined, isValid, isFinite_undefined, Bool.false_and] at hvalid
    cases hvalid

/-- A bracket of successive samples that ends the scan on a point ends it on a root. -/
theorem reports_examine (s : Scan K) (hroot : s.refinement = .compositeRoot) {t : K}
    (ht : s.Visits t) {c : Cursor K}
    (h : (s.examine Observer.silent (s.samplesFrom t) ()).1 = some c) : s.Reports c := by
  unfold examine Observer.silent at h
  dsimp only at h
  split at h
  · cases h
  · split at h
    · rename_i hvalid
      cases h
      exact s.reports_settle hroot ht rfl hvalid
    · cases h

theorem reports_advance (s : Scan K) (hroot : s.refinement = .compositeRoot) (left : Nat)
    {t : K} (ht : s.Visits t)
    (h : (s.advance Observer.silent left (s.sample t) (s.following t) ()).1.isExhausted = false) :
    s.Reports (s.advance Observer.silent left (s.sample t) (s.following t) ()).1 := by
  induction left generalizing t with
  | zero => cases h
  | succ left ih =>
    rw [advance] at h ⊢
    split
    · rename_i hunderway
      rw [if_pos hunderway] at h
      dsimp only at h ⊢
      generalize hexamine : s.examine Observer.silent
        ⟨s.sample t, s.following t, s.following (s.following t).x⟩ () = result at h ⊢
      obtain ⟨found, state⟩ := result
      cases found with
      | none => exact ih ht.next h
      | some c => exact s.reports_examine hroot ht (congrArg Prod.fst hexamine)
    · rename_i hunderway
      rw [if_neg hunderway] at h
      cases h

/-- A scan for roots that finds something reports a root. -/
theorem reports_run (s : Scan K) (hroot : s.refinement = .compositeRoot)
    (hs : s.cursor.isExhausted = false)
    (h : (s.run Observer.silent ()).1.isExhausted = false) :
    s.Reports (s.run Observer.silent ()).1 := by
  rw [run, if_neg (by simp [hs])] at h ⊢
  exact s.reports_advance hroot _ .start h

end Scan

/-! ## Roots of expressions -/

namespace Expression

variable {K : Type}

/-- The expression that a search for the roots of `e` looks at.  Operations that vanish
exactly where their operand does are left out. -/
def core : Expression K → Expression K
  | ⟨evaluate, isNull, shape, arity, []⟩ => ⟨evaluate, isNull, shape, arity, []⟩
  | ⟨evaluate, isNull, shape, arity, o :: rest⟩ =>
    if shape.rootRule = .sameAsOperand then o.core
    else ⟨evaluate, isNull, shape, arity, o :: rest⟩

theorem core_eq_self {e : Expression K}
    (h : e.shape.rootRule ≠ .sameAsOperand ∨ e.operands = []) : e.core = e := by
  obtain ⟨evaluate, isNull, shape, arity, operands⟩ := e
  cases operands with
  | nil => rw [core]
  | cons o rest => rw [core, if_neg (h.resolve_right (by simp))]

theorem core_eq_core {e o : Expression K} {rest : List (Expression K)}
    (h : e.shape.rootRule = .sameAsOperand) (ho : e.operands = o :: rest) : e.core = o.core := by
  obtain ⟨evaluate, isNull, shape, arity, operands⟩ := e
  subst ho
  rw [core, if_pos h]

/-- The roots of an expression are checked against the whole of it. -/
def checksRoots (e : Expression K) : Prop :=
  e.shape.rootRule = .anyOperand ∨ e.shape.rootRule = .firstOperand

end Expression

namespace Solver

variable {K : Type}

theorem isRoot_firstVanishing {isRoot : K → Bool} {search : Cursor K → Cursor K} {left : Nat}
    {c : Cursor K} {x : K} (h : firstVanishing isRoot search left c = some x) :
    isRoot x = true := by
  induction left generalizing c with
  | zero => cases h
  | succ left ih =>
    rw [firstVanishing] at h
    split at h
    · cases h
    · split at h
      · rename_i hroot
        cases h
        exact hroot
      · exact ih h

variable [Precision K]

/-- What is known of a root that a search for the roots of `e` reported. -/
structure Reports (solver : Solver K) (c : Cursor K) (e : Expression K) (c' : Cursor K) :
    Prop where
  /-- The expression is defined there. -/
  defined : Scalar.isNaN (e.evaluate solver.context c'.position) = false
  /-- The ordinate is that of the expression, or zero if it counts as zero. -/
  ordinate : c'.ordinate =
    if Precision.isNull c'.position (e.evaluate solver.context c'.position) then 0
    else e.evaluate solver.context c'.position
  /-- A checked root counts as zero. -/
  checked : e.checksRoots →
    Precision.isNull c'.position (e.evaluate solver.context c'.position) = true
  /-- There is evidence for any other root. -/
  sampled : ¬ e.checksRoots →
    (solver.scan c e.evaluate .evenOrOddRoot .compositeRoot).RootAt c'.position

variable [Machine K]

/-- A root at which the whole expression was checked. -/
theorem reports_onRoot (solver : Solver K) {c : Cursor K} {e : Expression K}
    (he : e.checksRoots) {root : Option K} (h : (onRoot c root).interest = .root)
    (hroot : ∀ x, root = some x → Precision.isNull x (e.evaluate solver.context x) = true) :
    solver.Reports c e (onRoot c root) := by
  cases root with
  | none => cases h
  | some x =>
    have hnull := hroot x rfl
    refine ⟨Precision.defined_of_isNull hnull, ?_, fun _ => hnull, fun hnot => absurd he hnot⟩
    simp [onRoot, Cursor.found, Cursor.ordinate, hnull]

variable [TolerantPrecision K]

/-- A root that was found by sampling. -/
theorem reports_sampledRoot (solver : Solver K) {c : Cursor K} (hc : c.isExhausted = false)
    {e : Expression K} (he : ¬ e.checksRoots) {isNull : Option Bool}
    (h : (solver.sampledRoot e.evaluate isNull c).interest = .root) :
    solver.Reports c e (solver.sampledRoot e.evaluate isNull c) := by
  rw [sampledRoot] at h ⊢
  split at h
  · cases h
  · rename_i hnull
    rw [if_neg hnull]
    dsimp only at h ⊢
    split at h
    · rename_i hex
      rw [Cursor.interest_of_isExhausted hex] at h
      cases h
    · rename_i hex
      rw [if_neg hex]
      have hfound := Scan.reports_run
        (solver.scan c e.evaluate .evenOrOddRoot .compositeRoot) rfl hc (Bool.not_eq_true _ ▸ hex)
      exact ⟨hfound.defined, hfound.ordinate, fun hchecks => absurd hchecks he,
        fun _ => hfound.rootAt⟩

/-- At a reported root the searched expression is defined, and its ordinate is reported
unless it counts as zero.  The root of a product, a power, a root or a quotient counts as
zero; there is evidence for any other one. -/
theorem rootSearch_reports (solver : Solver K) (e : Expression K) (c : Cursor K)
    (h : (solver.nextRoot c e).interest = .root) :
    solver.Reports c e.core (solver.nextRoot c e) := by
  unfold nextRoot at h ⊢
  induction e using Expression.inductionOnOperands with
  | step e ih =>
    rw [rootSearch_eq] at h ⊢
    cases hc : c.isExhausted with
    | true =>
      rw [if_pos hc, Cursor.interest_of_isExhausted hc] at h
      cases h
    | false =>
      simp only [hc, Bool.false_eq_true, if_false] at h ⊢
      cases hrule : e.shape.rootRule with
      | anyOperand =>
        simp only [hrule] at h ⊢
        rw [Expression.core_eq_self (.inl (by simp [hrule]))]
        refine solver.reports_onRoot (.inl hrule) h fun x hx => ?_
        obtain ⟨search, -, hroot⟩ := List.mem_filterMap.1 (mem_of_nearest? hx)
        have hnull := isRoot_firstVanishing hroot
        exact hnull
      | firstOperand =>
        simp only [hrule] at h ⊢
        rw [Expression.core_eq_self (.inl (by simp [hrule]))]
        refine solver.reports_onRoot (.inr hrule) h fun x hx => ?_
        obtain ⟨search, -, hroot⟩ := Option.bind_eq_some_iff.1 hx
        have hnull := isRoot_firstVanishing hroot
        exact hnull
      | sameAsOperand =>
        simp only [hrule] at h ⊢
        have hnot : ¬ e.checksRoots := by simp [Expression.checksRoots, hrule]
        cases hops : e.operands with
        | nil =>
          simp only [hops] at h ⊢
          rw [Expression.core_eq_self (.inr hops)]
          exact solver.reports_sampledRoot hc hnot h
        | cons o rest =>
          simp only [hops] at h ⊢
          rw [Expression.core_eq_core hrule hops]
          exact ih o (hops ▸ List.mem_cons_self) h
      | unknown =>
        simp only [hrule] at h ⊢
        have hnot : ¬ e.checksRoots := by simp [Expression.checksRoots, hrule]
        rw [Expression.core_eq_self (.inl (by simp [hrule]))]
        exact solver.reports_sampledRoot hc hnot h

/-! ## A jump -/

/-- A jump from `-1` to `1`. -/
def jump : Expression Float := .plain fun _ x => if x < 1.5e-6 then -1 else 1

/-- The square root of the jump, which is undefined before it. -/
def rootOfJump : Expression Float :=
  { evaluate := fun context x => Scalar.sqrt (jump.evaluate context x)
    isNull := fun _ => none
    shape := .squareRoot
    arity := 1
    operands := [jump] }

/-- A cursor on the way across the jump. -/
def acrossJump : Cursor Float := Cursor.new 0 3.5e-6

/-- The scan that meets the jump in its first bracket. -/
def jumpScan : Scan Float :=
  (Solver.standard {}).scan acrossJump jump.evaluate .evenOrOddRoot .compositeRoot

/-- The bracket that holds the jump. -/
def jumpBracket : Bracket Float := ⟨⟨0, -1⟩, ⟨1e-6, -1⟩, ⟨2e-6, 1⟩⟩

/-- The refined jump. -/
def jumpPoint : Point Float := jumpScan.refine jumpBracket .root

/-- The largest step is the least one, so the steps do not grow. -/
theorem nextX_acrossJump :
    acrossJump.nextX 0 3.5e-6 = 1e-6 ∧ acrossJump.nextX 1e-6 3.5e-6 = 2e-6 := by
  have hcoarse : acrossJump.maximalStep = 1e-6 := by decide +kernel
  constructor
  · rw [Cursor.nextX_of_maximalStep_le (by rw [hcoarse]; decide +kernel)]
    decide +kernel
  · rw [Cursor.nextX_of_maximalStep_le (by rw [hcoarse]; decide +kernel)]
    decide +kernel

theorem samplesFrom_jumpScan : jumpScan.samplesFrom 0 = jumpBracket := by
  have h0 : jumpScan.f 0 = -1 := by decide +kernel
  have h1 : jumpScan.f 1e-6 = -1 := by decide +kernel
  have h2 : jumpScan.f 2e-6 = 1 := by decide +kernel
  obtain ⟨hfirst, hsecond⟩ := nextX_acrossJump
  rw [jumpScan.samplesFrom_eq hfirst hsecond, Scan.sample, Scan.sample, Scan.sample, Point.sample,
    Point.sample, Point.sample, h0, h1, h2]
  rfl

theorem run_jumpScan : (jumpScan.run Observer.silent ()).1 = jumpScan.settle jumpPoint .root := by
  have hvalid : jumpScan.isValid jumpPoint = true := by decide +kernel
  refine jumpScan.run_of_first_bracket rfl (by decide) ?_ ?_ rfl hvalid
  · show jumpScan.isUnderway (acrossJump.nextX 0 3.5e-6) = true
    rw [nextX_acrossJump.1]
    decide +kernel
  · have hroot : jumpScan.test.classify jumpBracket = .root := by decide +kernel
    show jumpScan.classify (jumpScan.samplesFrom 0) = (jumpBracket, .root)
    rw [samplesFrom_jumpScan, Scan.classify, hroot]
    rfl

theorem nextRoot_eq_settle : (Solver.standard {}).nextRoot acrossJump jump =
    acrossJump.found (jumpScan.snapped jumpPoint .root) .root := by
  rw [nextRoot, rootSearch_eq]
  show (Solver.standard {}).sampledRoot jump.evaluate none acrossJump = _
  rw [sampledRoot, if_neg (by simp)]
  show (if (jumpScan.run Observer.silent ()).1.isExhausted = true
    then (jumpScan.run Observer.silent ()).1
    else (jumpScan.run Observer.silent ()).1.relabel .root
      (jumpScan.run Observer.silent ()).1.ordinate) = _
  rw [run_jumpScan, Scan.settle, if_neg (by simp), Cursor.relabel_found]
  rfl

/-- The jump is reported, with the ordinate before it. -/
theorem nextRoot_jump : ∃ q : Point Float,
    (Solver.standard {}).nextRoot acrossJump jump = acrossJump.found q .root ∧ q.y = -1 ∧
      jump.evaluate {} q.x = -1 ∧ Scalar.abs q.x < 1 := by
  have hy : jumpPoint.y = -1 := by decide +kernel
  refine ⟨jumpScan.snapped jumpPoint .root, nextRoot_eq_settle, ?_⟩
  rcases jumpScan.snapped_cases jumpPoint .root with heq | ⟨heq, hacc, hbetter⟩
  · rw [heq]
    exact ⟨hy, by decide +kernel, by decide +kernel⟩
  · -- wherever the grid is, the ordinate there is the one before the jump
    rw [heq]
    generalize Scan.onGrid jumpPoint.x = x at hacc hbetter
    have hbefore : jumpScan.f x = -1 := by
      rw [hy] at hbetter
      show (if x < 1.5e-6 then -1 else 1) = (-1 : Float)
      split
      · rfl
      · rename_i hlt
        have hafter : jumpScan.f x = 1 := if_neg hlt
        rw [hafter] at hbetter
        revert hbetter
        decide +kernel
    refine ⟨hbefore, hbefore, ?_⟩
    have hforward : acrossJump.position < acrossJump.goal := by decide +kernel
    have hacc' : acrossJump.accepts x = true := hacc
    simp only [Cursor.accepts, hforward, if_true, Bool.and_eq_true, decide_eq_true_eq] at hacc'
    have hpos : 0 < x := SteadyPrecision.lt_of_add_lt hacc'.1
    exact Scalar.abs_lt_of_pos hpos (Scalar.lt_trans hacc'.2 (by decide +kernel))

theorem nextRoot_rootOfJump :
    (Solver.standard {}).nextRoot acrossJump rootOfJump =
      (Solver.standard {}).nextRoot acrossJump jump := by
  have hpending : ¬ acrossJump.isExhausted = true := by decide
  rw [nextRoot, rootSearch_eq, if_neg hpending]
  rfl

/-- So not every reported root is a zero.  The ordinate at the jump is `-1`, and its square
root is not even defined there. -/
theorem jump_reported_as_root :
    let c := (Solver.standard {}).nextRoot acrossJump jump
    let c' := (Solver.standard {}).nextRoot acrossJump rootOfJump
    (c.interest = .root ∧ Precision.isNull c.position (jump.evaluate {} c.position) = false ∧
        c.ordinate = -1) ∧
      c'.interest = .root ∧ Scalar.isNaN (rootOfJump.evaluate {} c'.position) = true ∧
        c'.ordinate = -1 := by
  intro c c'
  obtain ⟨q, hnext, hqy, hy, hx⟩ := nextRoot_jump
  have hc : c = acrossJump.found q .root := hnext
  have hc' : c' = c := nextRoot_rootOfJump
  have hnull : Precision.isNull q.x (-1) = false := by
    rw [Precision.isNull, Precision.nullTolerance, Scalar.larger, (Scalar.defined_of_lt hx).1]
    simp only [hx, Bool.false_eq_true, if_false, if_true]
    decide +kernel
  have hordinate : (acrossJump.found q .root).ordinate = -1 := by
    show (if Precision.isNull q.x q.y then 0 else q.y) = (-1 : Float)
    rw [hqy, hnull]
    rfl
  have hsqrt : rootOfJump.evaluate {} q.x = Scalar.sqrt (-1) := congrArg Scalar.sqrt hy
  rw [hc', hc, Cursor.found_position, Cursor.interest_found, hy, hsqrt]
  exact ⟨⟨rfl, hnull, hordinate⟩, rfl, by decide +kernel, hordinate⟩

/-- The jump is defined where it is reported, and its ordinate is reported as it is. -/
theorem reports_jump :
    let c' := (Solver.standard {}).nextRoot acrossJump jump
    c'.interest = .root ∧ (Solver.standard {}).Reports acrossJump jump.core c' ∧
      ¬ jump.core.checksRoots := by
  intro c'
  obtain ⟨q, hnext, -⟩ := nextRoot_jump
  have hroot : c'.interest = .root := by
    show ((Solver.standard {}).nextRoot acrossJump jump).interest = .root
    rw [hnext]
    rfl
  refine ⟨hroot, rootSearch_reports (Solver.standard {}) jump acrossJump hroot, ?_⟩
  rw [Expression.core_eq_self (.inr rfl)]
  rintro (h | h) <;> cases h

end Solver

end CurveSurvey

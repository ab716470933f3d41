import CurveSurvey.Proofs.Opposite
import CurveSurvey.Proofs.Refinement.Samples

/-!
# What a reported extremum is

The bracket in which a scan ends shows an extremum at its middle sample.  The
refinement is given the ends of this bracket only, and takes samples of its own.

* `Scan.SearchesFor` says that a scan tests for extrema of one kind and refines them as
  such, and `Scan.searched` lists the abscissae at which the refinement looks.
* `Scan.ExtremumIn` is what is known of the extremum that is reported for a bracket: it
  is no worse than any of the samples of its refinement, and so no worse than the middle
  sample of the bracket whenever one of these is not.
* `Solver.extrema_lead_samples` is the result, for minima and for maxima.
* `Solver.notch_missed`: between the ends of a bracket the refinement may never come near
  the sample for which the bracket was chosen.
-/

namespace CurveSurvey

open Descent (goldenSection)

/-- Whether the ordinate `s` is strictly a better extremum than the ordinate `t`. -/
def Interest.Beats {K : Type} [Scalar K] (i : Interest) (s t : K) : Prop :=
  match i with
  | .localMinimum => s < t
  | .localMaximum => t < s
  | _ => False

/-- The ordinate that a search for an extremum makes small. -/
def Interest.depth {K : Type} [Scalar K] (i : Interest) (y : K) : K :=
  match i with
  | .localMaximum => -y
  | _ => y

/-- An interest that a condition gives is given for the condition. -/
theorem Interest.of_given {condition : Bool} {i j : Interest} (h : given condition i = j)
    (hj : j ≠ .none) : j = i ∧ condition = true := by
  cases condition with
  | true => exact ⟨h.symm, rfl⟩
  | false => exact absurd h.symm hj

theorem Scalar.le_iff_lt_or_beq {K : Type} [Scalar K] [OrderedScalar K] {s t : K} :
    s ≤ t ↔ s < t ∨ (s == t) = true := by
  constructor
  · intro hle
    by_cases hge : t ≤ s
    · exact .inr (OrderedScalar.beq_iff.2 ⟨hle, hge⟩)
    · exact .inl (OrderedScalar.lt_iff.2 ⟨hle, hge⟩)
  · rintro (hlt | heq)
    · exact Scalar.le_of_lt hlt
    · exact (OrderedScalar.beq_iff.1 heq).1

namespace Scan

section

variable {K : Type} [Precision K]

/-- A scan that tests for extrema of one kind and refines them as such. -/
inductive SearchesFor (s : Scan K) : Interest → Prop where
  /-- For minima. -/
  | minimum (htest : s.test = .minimum) (hrefinement : s.refinement = .brentMinimum) :
      SearchesFor s .localMinimum
  /-- For maxima. -/
  | maximum (htest : s.test = .maximum) (hrefinement : s.refinement = .brentMaximum) :
      SearchesFor s .localMaximum

/-- The abscissae at which the refinement of an extremum looks at the function. -/
def searched (s : Scan K) (i : Interest) (b : Bracket K) : List K :=
  (Descent.samples (fun x => i.depth (s.f x)) b.first.x b.last.x s.tolerance).map Point.x

/-- What is known of the extremum that is reported for a bracket. -/
structure ExtremumIn (s : Scan K) (i : Interest) (b : Bracket K) (c : Cursor K) : Prop where
  /-- It is of the kind that is searched for. -/
  interest : c.interest = i
  /-- The middle sample of the bracket is better than the first. -/
  beats_first : i.Beats b.middle.y b.first.y
  /-- It is better than the last. -/
  beats_last : i.Beats b.middle.y b.last.y
  /-- The ordinate is that of the function, or zero if it counts as zero. -/
  ordinate : c.ordinate =
    if Precision.isNull c.position (s.f c.position) then 0 else s.f c.position
  /-- The function is defined there, if it is where the refinement starts. -/
  defined : Scalar.isNaN (s.f (goldenSection b.first.x b.last.x)) = false →
    Scalar.isNaN (s.f c.position) = false
  /-- Then the extremum is no worse than any defined sample of the refinement. -/
  leads : Scalar.isNaN (s.f (goldenSection b.first.x b.last.x)) = false →
    ∀ x ∈ s.searched i b, Scalar.isNaN (s.f x) = false → NoWorse i (s.f c.position) (s.f x)
  /-- So it is no worse than the middle sample of the bracket, if one of these is not. -/
  leads_middle : Scalar.isNaN (s.f (goldenSection b.first.x b.last.x)) = false →
    ∀ x ∈ s.searched i b, NoWorse i (s.f x) b.middle.y → NoWorse i (s.f c.position) b.middle.y

/-- A scan reports an extremum for the last bracket that it shows, possibly narrowed. -/
def ReportsExtremum (s : Scan K) (i : Interest) (c : Cursor K) : Prop :=
  ∃ shown b, (Trace.brackets (s.trace Observer.silent ())).getLast? = some shown ∧
    s.classify shown = (b, i) ∧ s.ExtremumIn i b c

/-- A bracket is refined for what it shows, also after it was narrowed. -/
theorem test_classify (s : Scan K) (b : Bracket K) :
    s.test.classify (s.classify b).1 = (s.classify b).2 := by
  unfold classify
  dsimp only
  split <;> rfl

/-- What a test for extrema finds is an extremum, with the middle sample beyond both
others. -/
theorem SearchesFor.beats {s : Scan K} {i j : Interest} {b : Bracket K} (h : s.SearchesFor i)
    (hj : s.test.classify b = j) (hne : j ≠ .none) :
    j = i ∧ i.Beats b.middle.y b.first.y ∧ i.Beats b.middle.y b.last.y := by
  cases h with
  | minimum htest =>
    rw [htest] at hj
    simpa [Interest.Beats] using Interest.of_given hj hne
  | maximum htest =>
    rw [htest] at hj
    simpa [Interest.Beats] using Interest.of_given hj hne

variable [InvolutiveScalar K] {s : Scan K} {i : Interest}

/-- Extrema are compared by their depths. -/
theorem SearchesFor.noWorse_iff (h : s.SearchesFor i) {y y' : K} :
    NoWorse i y y' ↔ i.depth y ≤ i.depth y' := by
  cases h with
  | minimum => exact Scalar.le_iff_lt_or_beq.symm
  | maximum =>
    show (y' < y ∨ (y == y') = true) ↔ -y ≤ -y'
    rw [Scalar.neg_le_neg_iff, Scalar.le_iff_lt_or_beq, OrderedScalar.beq_iff,
      OrderedScalar.beq_iff, and_comm]

theorem SearchesFor.isNaN_depth (h : s.SearchesFor i) (y : K) :
    Scalar.isNaN (i.depth y) = Scalar.isNaN y := by
  cases h with
  | minimum => rfl
  | maximum => exact Scalar.isNaN_neg y

/-- The refined point is a sample, the one with the least depth that the search came to. -/
theorem SearchesFor.refine_eq (h : s.SearchesFor i) (b : Bracket K) :
    (s.refine b i).x =
        (Descent.minimum (fun x => i.depth (s.f x)) b.first.x b.last.x s.tolerance).x ∧
      (s.refine b i).y = s.f (s.refine b i).x := by
  cases h with
  | minimum _ hrefinement =>
    rw [refine, hrefinement]
    exact ⟨rfl, Descent.minimum_y _ _ _ _⟩
  | maximum _ hrefinement =>
    rw [refine, hrefinement]
    refine ⟨rfl, ?_⟩
    have hy := Descent.maximum_y s.f b.first.x b.last.x s.tolerance
    rwa [InvolutiveScalar.neg_neg] at hy

/-- No sample of the refinement is better than the refined point. -/
theorem SearchesFor.leads_refine (h : s.SearchesFor i) {b : Bracket K}
    (hstart : Scalar.isNaN (s.f (goldenSection b.first.x b.last.x)) = false) :
    Scalar.isNaN (s.refine b i).y = false ∧
      ∀ x ∈ s.searched i b, Scalar.isNaN (s.f x) = false →
        i.depth (s.refine b i).y ≤ i.depth (s.f x) := by
  obtain ⟨hx, hy⟩ := h.refine_eq b
  have hleads := Descent.leads_minimum (fun x => i.depth (s.f x)) b.first.x b.last.x s.tolerance
    (by rwa [h.isNaN_depth])
  have hdepth : (Descent.minimum (fun x => i.depth (s.f x)) b.first.x b.last.x s.tolerance).y =
      i.depth (s.refine b i).y := by
    rw [Descent.minimum_y, ← hx, ← hy]
  refine ⟨?_, fun x hmem hdef => ?_⟩
  · have hdefined := hleads.defined
    rwa [hdepth, h.isNaN_depth] at hdefined
  · obtain ⟨q, hq, rfl⟩ := List.mem_map.1 hmem
    have hqy : q.y = i.depth (s.f q.x) := Descent.y_of_mem_samples hq
    rw [← hdepth, ← hqy]
    refine hleads.le q hq ?_
    rwa [hqy, h.isNaN_depth]

/-- The reported point is no worse than the refined one. -/
theorem SearchesFor.depth_snapped_le (h : s.SearchesFor i) {p : Point K}
    (hp : Scalar.isNaN p.y = false) : i.depth (s.snapped p i).y ≤ i.depth p.y := by
  rcases s.snapped_cases p i with heq | ⟨heq, -, hbetter⟩
  · rw [heq]
    exact Scalar.le_refl_of_defined (by rwa [h.isNaN_depth])
  · rw [heq, ← h.noWorse_iff, sample, Point.sample_y]
    cases h <;> simpa [improves, NoWorse] using hbetter

/-- The extremum that is reported for a bracket leads the samples of its refinement. -/
theorem SearchesFor.extremumIn (h : s.SearchesFor i) {b : Bracket K} (hb : s.test.classify b = i) :
    s.ExtremumIn i b (s.settle (s.refine b i) i) := by
  have hne : i ≠ .none := by
    rintro rfl
    cases h
  obtain ⟨-, hfirst, hlast⟩ := h.beats hb hne
  have hy : (s.settle (s.refine b i) i).position = (s.snapped (s.refine b i) i).x ∧
      (s.snapped (s.refine b i) i).y = s.f (s.snapped (s.refine b i) i).x :=
    ⟨rfl, s.snapped_y (h.refine_eq b).2 i⟩
  have hled : Scalar.isNaN (s.f (goldenSection b.first.x b.last.x)) = false →
      ∀ x ∈ s.searched i b, Scalar.isNaN (s.f x) = false →
        NoWorse i (s.f (s.settle (s.refine b i) i).position) (s.f x) := by
    intro hstart x hx hdef
    obtain ⟨hrefined, hleads⟩ := h.leads_refine hstart
    rw [hy.1, ← hy.2, h.noWorse_iff]
    exact OrderedScalar.trans (h.depth_snapped_le hrefined) (hleads x hx hdef)
  refine
    { interest := rfl
      beats_first := hfirst
      beats_last := hlast
      ordinate := ?_
      defined := fun hstart => ?_
      leads := hled
      leads_middle := fun hstart x hx hmiddle => ?_ }
  · rw [hy.1, ← hy.2]
    rfl
  · have hle := h.depth_snapped_le (h.leads_refine hstart).1
    rw [hy.1, ← hy.2, ← h.isNaN_depth]
    exact (OrderedScalar.defined_of_le hle).1
  · have hle := h.noWorse_iff.1 hmiddle
    have hdef : Scalar.isNaN (s.f x) = false := by
      rw [← h.isNaN_depth]
      exact (OrderedScalar.defined_of_le hle).1
    exact h.noWorse_iff.2 (OrderedScalar.trans (h.noWorse_iff.1 (hled hstart x hx hdef)) hle)

/-- A scan for extrema that finds something reports an extremum. -/
theorem SearchesFor.reportsExtremum (h : s.SearchesFor i)
    (hfound : (s.run Observer.silent ()).1.isExhausted = false) :
    s.ReportsExtremum i (s.run Observer.silent ()).1 := by
  obtain ⟨shown, b, j, hlast, hclassify, hj, hsettle⟩ := s.run_settles Observer.silent () hfound
  have hb : s.test.classify b = j := by
    have hstored := s.test_classify shown
    rwa [hclassify] at hstored
  obtain ⟨rfl, -⟩ := h.beats hb hj
  exact ⟨shown, b, hlast, hclassify, hsettle ▸ h.extremumIn hb⟩

end

end Scan

namespace Solver

/-- Whenever a search for a minimum reports a point, the middle sample of the bracket that it
was found in lies strictly below both ends, and the ordinate is that of the expression, or
zero if it counts as zero.  If the expression is defined where the refinement starts, it is
defined at the reported abscissa, and no defined sample of the refinement lies below.  So the
point is not above the middle sample of the bracket whenever some sample of the refinement is
not.  The same holds for maxima, the other way up. -/
theorem extrema_lead_samples {K : Type} [Precision K] [InvolutiveScalar K] (solver : Solver K)
    (c : Cursor K) (e : Expression K) :
    ((solver.nextMinimum c e).isExhausted = false →
      (solver.scan c e.evaluate .minimum .brentMinimum).ReportsExtremum .localMinimum
        (solver.nextMinimum c e)) ∧
    ((solver.nextMaximum c e).isExhausted = false →
      (solver.scan c e.evaluate .maximum .brentMaximum).ReportsExtremum .localMaximum
        (solver.nextMaximum c e)) :=
  ⟨fun hfound => Scan.SearchesFor.reportsExtremum (.minimum rfl rfl) hfound,
    fun hfound => Scan.SearchesFor.reportsExtremum (.maximum rfl rfl) hfound⟩

/-! ## A notch -/

/-- A notch around `1e-6`, too narrow for the samples of a refinement. -/
def notch : Expression Float :=
  .plain fun _ x => if x < 9e-7 then 1 else if 1e-6 < x then 1 else -1

/-- The scan for the bottom of the notch, which its second sample meets. -/
def notchScan : Scan Float :=
  (Solver.standard {}).scan acrossJump notch.evaluate .minimum .brentMinimum

/-- The bracket that shows the notch. -/
def notchBracket : Bracket Float := ⟨⟨0, 1⟩, ⟨1e-6, -1⟩, ⟨2e-6, 1⟩⟩

/-- A scan with this cursor that finds something in its first bracket, without narrowing it,
ends there. -/
theorem acrossJump_first_bracket {s : Scan Float} (hs : s.cursor = acrossJump)
    (hsettings : s.settings = Settings.standard) {b : Bracket Float}
    (hsamples : ⟨s.sample 0, s.sample 1e-6, s.sample 2e-6⟩ = b) {i : Interest}
    (hi : i.isNone = false) (hb : s.test.classify b = i)
    (hvalid : s.isValid (s.refine b i) = true) :
    (s.run Observer.silent ()).1 = s.settle (s.refine b i) i ∧
      (Trace.brackets (s.trace Observer.silent ())).getLast? = some b ∧ s.classify b = (b, i) := by
  have hclassify := s.classify_of_interest hb hi
  obtain ⟨hfirst, hsecond⟩ := nextX_acrossJump
  have hunderway : s.isUnderway 1e-6 = true := by
    rw [Scan.isUnderway, hs]
    decide +kernel
  have henough : 3 ≤ s.settings.maxSamples := by
    rw [hsettings]
    decide
  have hposition : s.cursor.position = 0 := by rw [hs]; rfl
  have hgoal : s.cursor.goal = 3.5e-6 := by rw [hs]; rfl
  have hpending : s.cursor.isExhausted = false := by rw [hs]; rfl
  rw [← hs, ← hgoal] at hfirst hsecond
  subst hsamples
  have htrace := s.trace_of_first_steps hpending henough hposition hfirst hsecond hunderway
    hclassify hi hvalid
  refine ⟨s.run_of_first_steps hpending henough hposition hfirst hsecond hunderway hclassify hi
    hvalid, ?_, hclassify⟩
  rw [htrace]
  rfl

theorem notchBracket_eq :
    (⟨notchScan.sample 0, notchScan.sample 1e-6, notchScan.sample 2e-6⟩ : Bracket Float) =
      notchBracket := by
  have h0 : notchScan.f 0 = 1 := by decide +kernel
  have h1 : notchScan.f 1e-6 = -1 := by decide +kernel
  have h2 : notchScan.f 2e-6 = 1 := by decide +kernel
  rw [Scan.sample, Scan.sample, Scan.sample, Point.sample, Point.sample, Point.sample, h0, h1, h2]
  rfl

/-- The refinement comes to a valid point beside the notch. -/
theorem refine_notch :
    notchScan.isValid (notchScan.refine notchBracket .localMinimum) = true ∧
      (notchScan.refine notchBracket .localMinimum).y = 1 ∧
      Scalar.abs (notchScan.refine notchBracket .localMinimum).x < 1 := by
  decide +kernel

/-- The search for the notch ends in its bracket. -/
theorem run_notchScan :
    (notchScan.run Observer.silent ()).1 =
        notchScan.settle (notchScan.refine notchBracket .localMinimum) .localMinimum ∧
      (Trace.brackets (notchScan.trace Observer.silent ())).getLast? = some notchBracket ∧
      notchScan.classify notchBracket = (notchBracket, .localMinimum) :=
  acrossJump_first_bracket rfl rfl notchBracket_eq rfl (by decide +kernel) refine_notch.1

/-- The reported point lies beside the notch as well. -/
theorem snapped_notch : ∃ q : Point Float,
    notchScan.snapped (notchScan.refine notchBracket .localMinimum) .localMinimum = q ∧
      q.y = 1 ∧ Scalar.abs q.x < 1 := by
  rcases notchScan.snapped_cases (notchScan.refine notchBracket .localMinimum) .localMinimum with
    heq | ⟨heq, hacc, -⟩
  · exact ⟨_, heq, refine_notch.2⟩
  · refine ⟨_, heq, ?_⟩
    generalize Scan.onGrid (notchScan.refine notchBracket .localMinimum).x = x at hacc
    have hforward : acrossJump.position < acrossJump.goal := by decide +kernel
    have hacc' : acrossJump.accepts x = true := hacc
    simp only [Cursor.accepts, hforward, if_true, Bool.and_eq_true, decide_eq_true_eq] at hacc'
    have hbeyond : 1e-6 < x := by
      have hleast : acrossJump.position + Precision.minimalStep acrossJump.position = 1e-6 := by
        decide +kernel
      rw [← hleast]
      exact hacc'.1
    refine ⟨?_, Scalar.abs_lt_of_pos (SteadyPrecision.lt_of_add_lt hacc'.1)
      (Scalar.lt_trans hacc'.2 (by decide +kernel))⟩
    show (if x < 9e-7 then (1 : Float) else if 1e-6 < x then 1 else -1) = 1
    rw [if_pos hbeyond]
    split <;> rfl

/-- So a reported minimum can lie above the middle sample of its bracket: the refinement sees
nothing of the notch. -/
theorem notch_missed :
    let c := (Solver.standard {}).nextMinimum acrossJump notch
    c.isExhausted = false ∧
      (Trace.brackets (notchScan.trace Observer.silent ())).getLast? = some notchBracket ∧
      notchScan.classify notchBracket = (notchBracket, .localMinimum) ∧
      notchBracket.middle.y = -1 ∧ c.ordinate = 1 ∧ ¬ c.ordinate ≤ notchBracket.middle.y := by
  intro c
  obtain ⟨hrun, hlast, hclassify⟩ := run_notchScan
  obtain ⟨q, hsnapped, hy, hx⟩ := snapped_notch
  have hc : c = acrossJump.found q .localMinimum := by
    show (notchScan.run Observer.silent ()).1 = _
    rw [hrun, Scan.settle, hsnapped]
    rfl
  have hnull : Precision.isNull q.x 1 = false := by
    rw [Precision.isNull, Precision.nullTolerance, Scalar.larger, (Scalar.defined_of_lt hx).1]
    simp only [hx, Bool.false_eq_true, if_false, if_true]
    decide +kernel
  have hordinate : c.ordinate = 1 := by
    rw [hc]
    show (if Precision.isNull q.x q.y then 0 else q.y) = (1 : Float)
    rw [hy, hnull]
    rfl
  rw [hordinate, hc]
  exact ⟨rfl, hlast, hclassify, rfl, rfl, by decide +kernel⟩

/-- The search for the top of the hill ends in its first bracket. -/
theorem trace_hillScan :
    (Trace.brackets (hillScan.trace Observer.silent ())).getLast? = some hillBracket ∧
      hillScan.classify hillBracket = (hillBracket, .localMaximum) :=
  (acrossJump_first_bracket rfl rfl rfl rfl hillBracket_shows_top.1 hillBracket_shows_top.2).2

/-- The bottom beside the notch and the top of the hill are found, and their refinements start
where the functions are defined. -/
theorem notch_and_hill_lead_samples :
    let lowest := (Solver.standard {}).nextMinimum acrossJump notch
    let highest := (Solver.standard {}).nextMaximum acrossJump hill
    lowest.isExhausted = false ∧ notchScan.ReportsExtremum .localMinimum lowest ∧
      Scalar.isNaN (notch.evaluate {} lowest.position) = false ∧
      highest.isExhausted = false ∧ hillScan.ReportsExtremum .localMaximum highest ∧
      Scalar.isNaN (hill.evaluate {} highest.position) = false := by
  intro lowest highest
  have hlowest : lowest.isExhausted = false := by
    show (notchScan.run Observer.silent ()).1.isExhausted = false
    rw [run_notchScan.1]
    rfl
  have hhighest := isExhausted_nextMaximum_hill
  have hnotch := (extrema_lead_samples (Solver.standard {}) acrossJump notch).1 hlowest
  have hhill := (extrema_lead_samples (Solver.standard {}) acrossJump hill).2 hhighest
  refine ⟨hlowest, hnotch, ?_, hhighest, hhill, ?_⟩
  · obtain ⟨shown, b, hlast, hclassify, hin⟩ := hnotch
    obtain ⟨-, hlast', hclassify'⟩ := run_notchScan
    obtain rfl : notchBracket = shown := Option.some.inj (hlast'.symm.trans hlast)
    obtain rfl : notchBracket = b := congrArg Prod.fst (hclassify'.symm.trans hclassify)
    exact hin.defined (by decide +kernel)
  · obtain ⟨shown, b, hlast, hclassify, hin⟩ := hhill
    obtain ⟨hlast', hclassify'⟩ := trace_hillScan
    obtain rfl : hillBracket = shown := Option.some.inj (hlast'.symm.trans hlast)
    obtain rfl : hillBracket = b := congrArg Prod.fst (hclassify'.symm.trans hclassify)
    exact hin.defined (by decide +kernel)

end Solver

end CurveSurvey

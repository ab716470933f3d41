import CurveSurvey.Proofs.Numeric
import CurveSurvey.Proofs.Trace
import CurveSurvey.Solutions

/-!
# Searches of opposite functions

A scan cannot tell a function from its opposite, except that minima and maxima change
places.

* `Bracket.Opposes` relates what two opposite functions show at the same abscissae, and the
  tests of a bracket follow it (`BracketTest.Dual`).
* `Scan.Opposes` says that two scans differ in nothing but the sign of the ordinates;
  `Scan.Opposes.run` is the simulation.  How refinements compare is asked only of the
  brackets that a scan comes to.
* `Solver.max_min_dual` is the result for extrema.
-/

namespace CurveSurvey

open Scalar (Same)

/-- What a bracket shows when it is turned upside down. -/
def Interest.opposite : Interest → Interest
  | .none => .none
  | .root => .root
  | .localMinimum => .localMaximum
  | .localMaximum => .localMinimum
  | .discontinuity => .discontinuity
  | .intersection => .intersection

namespace Interest

@[simp] theorem isNone_opposite (i : Interest) : i.opposite.isNone = i.isNone := by
  cases i <;> rfl

end Interest

/-! ## Points and brackets -/

variable {K : Type} [Precision K] {p p' q q' : Point K} {b b' : Bracket K}

/-- Two points are reflections of one another across the axis of abscissae. -/
structure Point.Opposes (p q : Point K) : Prop where
  /-- The abscissa is the same. -/
  x : q.x = p.x
  /-- The ordinates are opposite numbers. -/
  y : Same q.y (-p.y)

/-- Two brackets are reflections of one another across the axis of abscissae. -/
structure Bracket.Opposes (b b' : Bracket K) : Prop where
  first : b.first.Opposes b'.first
  middle : b.middle.Opposes b'.middle
  last : b.last.Opposes b'.last

/-- The values of two functions are opposite numbers. -/
def Opposed (f g : K → K) : Prop := ∀ x, Same (g x) (-f x)

theorem Opposed.sample {f g : K → K} (h : Opposed f g) (x : K) :
    (Point.sample f x).Opposes (Point.sample g x) := ⟨rfl, h x⟩

/-! ## Cursors -/

namespace Cursor

/-- Two cursors that a search cannot tell apart. -/
structure Agrees (c c' : Cursor K) : Prop where
  position : c'.position = c.position
  goal : c'.goal = c.goal
  maximalStep : c'.maximalStep = c.maximalStep
  isExhausted : c'.isExhausted = c.isExhausted

/-- Two searches ended at the same abscissa with opposite ordinates, or both found nothing. -/
inductive Opposes : Cursor K → Cursor K → Prop where
  /-- Both are exhausted. -/
  | exhausted {c c' : Cursor K} (h : c.Agrees c') (hex : c.isExhausted = true) : Opposes c c'
  /-- Both found a point. -/
  | found {c c' : Cursor K} (h : c.Agrees c') {p q : Point K} (hpq : p.Opposes q) (i : Interest) :
    Opposes (c.found p i) (c'.found q i.opposite)

theorem Agrees.accepts_eq {c c' : Cursor K} (h : c.Agrees c') (x : K) :
    c'.accepts x = c.accepts x := by
  rw [accepts, accepts, h.position, h.goal]

theorem Agrees.nextX_eq {c c' : Cursor K} (h : c.Agrees c') (x toward : K) :
    c'.nextX x toward = c.nextX x toward := by
  rw [nextX, nextX, h.maximalStep]

theorem Opposes.agrees {c c' : Cursor K} (h : c.Opposes c') : c.Agrees c' := by
  cases h with
  | exhausted h _ => exact h
  | found h hpq i => exact ⟨hpq.x, h.goal, h.maximalStep, rfl⟩

/-- Either nothing was found, or there are landmarks at the same abscissa. -/
theorem Opposes.landmark?_cases {c c' : Cursor K} (h : c.Opposes c') :
    c.landmark? = none ∧ c'.landmark? = none ∨
      ∃ p q, c.landmark? = some p ∧ c'.landmark? = some q ∧ q.x = p.x := by
  cases h with
  | exhausted h hex =>
    exact .inl ⟨landmark?_of_isExhausted hex, landmark?_of_isExhausted (h.isExhausted ▸ hex)⟩
  | found h hpq i =>
    cases i with
    | none => exact .inl ⟨rfl, rfl⟩
    | root | localMinimum | localMaximum | discontinuity | intersection =>
      exact .inr ⟨_, _, rfl, rfl, hpq.x⟩

end Cursor

/-- Searches that go on alike from alike cursors list the same abscissae. -/
theorem abscissae_solutions {search search' : Cursor K → Cursor K}
    (hsearch : ∀ {c c' : Cursor K}, c.Agrees c' → (search c).Opposes (search' c')) (limit : Nat)
    {c c' : Cursor K} (h : c.Agrees c') :
    (solutions search' limit c').map Landmark.x = (solutions search limit c).map Landmark.x := by
  induction limit generalizing c c' with
  | zero => rfl
  | succ limit ih =>
    have hnext := hsearch h
    rw [solutions, solutions]
    rcases hnext.landmark?_cases with ⟨hnone, hnone'⟩ | ⟨p, q, hsome, hsome', hx⟩
    · rw [hnone, hnone']
    · simp only [hsome, hsome', List.map_cons, hx, ih hnext.agrees]

/-! ## Scans -/

omit [Precision K] in
theorem Interest.given_cases (condition : Bool) (i : Interest) :
    given condition i = .none ∨ given condition i = i := by
  cases condition with
  | true => exact .inr rfl
  | false => exact .inl rfl

theorem Bracket.maximum_cases (b : Bracket K) :
    b.maximum = .none ∨ b.maximum = .localMaximum :=
  Interest.given_cases _ _

/-- The second test finds in a bracket what the first one finds in its reflection. -/
def BracketTest.Dual (test test' : BracketTest) : Prop :=
  ∀ {K : Type} [Precision K] [InvolutiveScalar K] {b b' : Bracket K}, b.Opposes b' →
    test'.classify b' = (test.classify b).opposite

namespace Scan

/-- Two scans that differ in nothing but the sign of the ordinates. -/
structure Opposes (s s' : Scan K) : Prop where
  /-- They start and end at the same abscissae. -/
  cursor : s.cursor.Agrees s'.cursor
  /-- They scan opposite functions. -/
  values : Opposed s.f s'.f
  settings : s'.settings = s.settings
  test : s.test.Dual s'.test
  /-- They refine alike the brackets that are met. -/
  refine : ∀ {x : K} {b : Bracket K} {i : Interest}, s.Visits x →
    s.classify (s.samplesFrom x) = (b, i) → i.isNone = false →
    (s.refine b i).Opposes (s'.refine b i.opposite)

/-- A scan that nobody observes is determined by the abscissa it has come to. -/
theorem advance_silent (s : Scan K) (left : Nat) (x : K) :
    (s.advance Observer.silent (left + 1) (s.sample x) (s.following x) ()).1 =
      if s.isUnderway (s.following x).x then
        (s.examine Observer.silent (s.samplesFrom x) ()).1.getD
          (s.advance Observer.silent left (s.following x) (s.following (s.following x).x) ()).1
      else s.cursor.exhaust := by
  have hsamples : s.samplesFrom x =
      ⟨s.sample x, s.following x, s.following (s.following x).x⟩ := rfl
  rw [advance, hsamples]
  split
  · dsimp only
    generalize s.examine Observer.silent _ () = examined
    obtain ⟨found, -⟩ := examined
    cases found <;> rfl
  · rfl

theorem classify_snd (s : Scan K) (b : Bracket K) :
    ∃ b' : Bracket K, (s.classify b).2 = s.test.classify b' := by
  unfold classify
  dsimp only
  split
  · exact ⟨_, rfl⟩
  · exact ⟨_, rfl⟩

/-- What a scan reports is what its test found in a bracket. -/
theorem interest_run {S : Type} (s : Scan K) (hs : s.cursor.isExhausted = false)
    (observe : Observer K S) (state : S) (h : (s.run observe state).1.isExhausted = false) :
    (s.run observe state).1.interest ≠ .none ∧
      ∃ b : Bracket K, (s.run observe state).1.interest = s.test.classify b := by
  have hwalk := s.walked_run hs observe state
  rcases hwalk.outcome with ⟨p, i, hends, hfound⟩ | ⟨hnot, -⟩
  · rw [Trace.EndsOn, List.getLast?_eq_getElem?] at hends
    obtain ⟨-, -, b, -, -, narrowed, hclassify, hi, -⟩ := hwalk.paired _ p i true none hends
    obtain ⟨b', hb'⟩ := s.classify_snd b
    rw [hclassify] at hb'
    rw [hfound]
    exact ⟨hi, b', hb'⟩
  · rw [hnot] at h
    cases h

variable {s s' : Scan K}

namespace Opposes

theorem sample (h : s.Opposes s') (x : K) : (s.sample x).Opposes (s'.sample x) :=
  h.values.sample x

theorem following_eq (h : s.Opposes s') (x : K) :
    s'.following x = s'.sample (s.following x).x := by
  rw [Scan.following, h.cursor.nextX_eq, h.cursor.goal]
  rfl

theorem following (h : s.Opposes s') (x : K) : (s.following x).Opposes (s'.following x) := by
  rw [h.following_eq]
  exact h.sample _

theorem samplesFrom (h : s.Opposes s') (x : K) :
    (s.samplesFrom x).Opposes (s'.samplesFrom x) := by
  unfold Scan.samplesFrom
  dsimp only
  rw [(h.following x).x]
  exact ⟨h.sample x, h.following x, h.following _⟩

theorem isUnderway_eq (h : s.Opposes s') (x : K) : s'.isUnderway x = s.isUnderway x := by
  rw [isUnderway, isUnderway, h.cursor.position, h.cursor.goal]

theorem isValid_eq (h : s.Opposes s') (hp : p.Opposes q) : s'.isValid q = s.isValid p := by
  rw [isValid, isValid, hp.x, h.cursor.accepts_eq]

theorem exhaust (h : s.Opposes s') : s.cursor.exhaust.Opposes s'.cursor.exhaust :=
  .exhausted ⟨h.cursor.position, h.cursor.goal, h.cursor.maximalStep, rfl⟩ rfl

end Opposes

end Scan

/-! ## Tests -/

variable [InvolutiveScalar K]

theorem Point.opposes_undefined : (Point.undefined : Point K).Opposes Point.undefined := by
  refine ⟨rfl, .inl ⟨OrderedScalar.isNaN_nan, ?_⟩⟩
  rw [Scalar.isNaN_neg]
  exact OrderedScalar.isNaN_nan

namespace Point.Opposes

/-- Reflection turns the order of the ordinates around. -/
theorem lt_iff (hp : p.Opposes p') (hq : q.Opposes q') : p'.y < q'.y ↔ q.y < p.y := by
  rw [hp.y.lt_iff hq.y, Scalar.neg_lt_neg_iff]

theorem beq_eq (hp : p.Opposes p') (hq : q.Opposes q') : (p'.y == q'.y) = (p.y == q.y) := by
  rw [hp.y.beq_eq hq.y, Scalar.neg_beq_neg]

theorem isNaN_eq (hp : p.Opposes p') : Scalar.isNaN p'.y = Scalar.isNaN p.y := by
  rw [hp.y.isNaN_eq, Scalar.isNaN_neg]

theorem neg_iff (hp : p.Opposes p') : p'.y < 0 ↔ 0 < p.y := by
  rw [hp.y.lt_iff (.refl 0), Scalar.neg_lt_zero_iff]

theorem pos_iff (hp : p.Opposes p') : 0 < p'.y ↔ p.y < 0 := by
  rw [(Same.refl 0).lt_iff hp.y, Scalar.zero_lt_neg_iff]

theorem beq_zero (hp : p.Opposes p') : (p'.y == 0) = (p.y == 0) := by
  rw [hp.y.beq_eq (.refl 0), Scalar.neg_beq_zero]

theorem separates_eq (hp : p.Opposes p') (hq : q.Opposes q') :
    Bracket.separates p' q' = Bracket.separates p q := by
  rw [Bracket.separates, Bracket.separates, hp.isNaN_eq, hq.isNaN_eq]

theorem signsDiffer_eq (hp : p.Opposes p') (hq : q.Opposes q') :
    Bracket.signsDiffer p'.y q'.y = Bracket.signsDiffer p.y q.y := by
  simp only [Bracket.signsDiffer, hp.neg_iff, hp.pos_iff, hq.neg_iff, hq.pos_iff]
  rw [Bool.or_comm, Bool.and_comm (decide (0 < q.y)), Bool.and_comm (decide (0 < p.y))]

end Point.Opposes

namespace Bracket.Opposes

theorem oddRoot_eq (h : b.Opposes b') : b'.oddRoot = b.oddRoot := by
  rw [oddRoot, oddRoot, h.first.signsDiffer_eq h.last]

theorem minimum_eq (h : b.Opposes b') : b'.minimum = b.maximum.opposite := by
  simp only [minimum, maximum, h.middle.lt_iff h.first, h.middle.lt_iff h.last]
  cases decide (b.first.y < b.middle.y) <;> cases decide (b.last.y < b.middle.y) <;> rfl

theorem maximum_eq (h : b.Opposes b') : b'.maximum = b.minimum.opposite := by
  simp only [minimum, maximum, h.first.lt_iff h.middle, h.last.lt_iff h.middle]
  cases decide (b.middle.y < b.first.y) <;> cases decide (b.middle.y < b.last.y) <;> rfl

theorem discontinuity_eq (h : b.Opposes b') : b'.discontinuity = b.discontinuity := by
  rw [discontinuity, discontinuity, h.first.separates_eq h.last]

end Bracket.Opposes

/-- No bracket shows a minimum and a maximum. -/
theorem Bracket.minimum_or_maximum (b : Bracket K) : b.minimum = .none ∨ b.maximum = .none := by
  by_cases h : b.middle.y < b.first.y
  · refine .inr ?_
    rw [Bracket.maximum, decide_eq_false (Scalar.lt_asymm h)]
    rfl
  · refine .inl ?_
    rw [Bracket.minimum, decide_eq_false h]
    rfl

theorem BracketTest.dual_maximum : Dual .maximum .minimum := fun h => h.minimum_eq

theorem BracketTest.dual_evenOrOddRoot : Dual .evenOrOddRoot .evenOrOddRoot := by
  intro K _ _ b b' h
  show Interest.first [b'.oddRoot, b'.minimum, b'.maximum] =
    (Interest.first [b.oddRoot, b.minimum, b.maximum]).opposite
  rw [h.oddRoot_eq, h.minimum_eq, h.maximum_eq]
  simp only [Interest.first_cons, Interest.first_nil]
  rw [Bracket.oddRoot]
  -- without an odd root, one of the two extrema is left
  rcases b.minimum_or_maximum with hnone | hnone <;> rw [hnone]
  · cases Bracket.signsDiffer b.first.y b.last.y <;> cases b.maximum <;> rfl
  · cases Bracket.signsDiffer b.first.y b.last.y <;> cases b.minimum <;> rfl

/-! ## Narrowing -/

namespace Bracket.Opposes

variable {f g : K → K}

theorem bisect (hfg : Opposed f g) (least : K) (h : b.Opposes b') :
    Step.Related Opposes Opposes (b.bisect f least) (b'.bisect g least) := by
  unfold Bracket.bisect
  rw [h.first.x, h.last.x, h.first.separates_eq h.middle]
  by_cases hshort : Scalar.abs (b.last.x - b.first.x) < least
  · rw [if_pos hshort, if_pos hshort]
    exact .stop h
  · rw [if_neg hshort, if_neg hshort]
    cases separates b.first b.middle with
    | true =>
      simp only [if_true, h.first.x, h.middle.x]
      exact .next ⟨h.first, hfg.sample _, h.middle⟩
    | false =>
      simp only [Bool.false_eq_true, if_false, h.last.x, h.middle.x]
      exact .next ⟨h.middle, hfg.sample _, h.last⟩

theorem narrowToDefined (hfg : Opposed f g) (maxSteps : Nat) (h : b.Opposes b') :
    (b.narrowToDefined f maxSteps).Opposes (b'.narrowToDefined g maxSteps) := by
  unfold Bracket.narrowToDefined
  rw [h.middle.x]
  generalize Precision.minimalStep b.middle.x = least
  have hborder := Step.iterate_related (P := fun _ => True) (fun _ _ h => h)
    (fun _ _ _ h => bisect hfg least h) maxSteps h fun _ _ => trivial
  generalize Step.iterate (Bracket.bisect f least) maxSteps b = border at hborder ⊢
  generalize Step.iterate (Bracket.bisect g least) maxSteps b' = border' at hborder ⊢
  dsimp only
  rw [hborder.first.isNaN_eq]
  cases Scalar.isNaN border.first.y with
  | true =>
    simp only [if_true, hborder.last.x, h.last.x]
    exact ⟨hborder.last, hfg.sample _, h.last⟩
  | false =>
    simp only [Bool.false_eq_true, if_false, hborder.first.x, h.first.x]
    exact ⟨h.first, hfg.sample _, hborder.first⟩

end Bracket.Opposes

/-! ## Ordinates -/

theorem Point.Opposes.isNull_eq (hp : p.Opposes q) :
    Precision.isNull q.x q.y = Precision.isNull p.x p.y := by
  rw [Precision.isNull, Precision.isNull, hp.x, InvolutiveScalar.abs_same hp.y,
    InvolutiveScalar.abs_neg]

/-- What was found has opposite ordinates, also where they count as zero. -/
theorem Cursor.Opposes.of_found {c c' : Cursor K} (h : c.Opposes c')
    (hfound : c.isExhausted = false) :
    c'.interest = c.interest.opposite ∧ Same c'.ordinate (-c.ordinate) := by
  cases h with
  | exhausted h hex =>
    rw [hex] at hfound
    cases hfound
  | @found c c' h p q hpq i =>
    refine ⟨rfl, ?_⟩
    show Same (if Precision.isNull q.x q.y then 0 else q.y)
      (-if Precision.isNull p.x p.y then 0 else p.y)
    rw [hpq.isNull_eq]
    split
    · exact Scalar.same_neg_zero.symm
    · exact hpq.y

/-! ## The course of a scan -/

namespace Scan

variable {s s' : Scan K}

namespace Opposes

theorem classify (h : s.Opposes s') (hb : b.Opposes b') :
    (s.classify b).1.Opposes (s'.classify b').1 ∧
      (s'.classify b').2 = (s.classify b).2.opposite := by
  unfold Scan.classify
  dsimp only
  rw [h.test hb, h.settings, hb.discontinuity_eq, Interest.isNone_opposite]
  split
  · have hnarrowed := hb.narrowToDefined h.values s.settings.maxNarrowings
    exact ⟨hnarrowed, h.test hnarrowed⟩
  · exact ⟨hb, rfl⟩

theorem improves_eq (hp : p.Opposes p') (hq : q.Opposes q') (i : Interest) :
    improves i.opposite p'.y q'.y = improves i p.y q.y := by
  cases i with
  | root => exact hp.beq_zero
  | localMinimum => exact decide_eq_decide.2 (hq.lt_iff hp)
  | localMaximum => exact decide_eq_decide.2 (hp.lt_iff hq)
  | none | discontinuity | intersection => rfl

/-- A point is moved onto the grid exactly when its reflection is. -/
theorem snapped (h : s.Opposes s') (hp : p.Opposes q) (i : Interest) :
    (s.snapped p i).Opposes (s'.snapped q i.opposite) := by
  unfold Scan.snapped
  dsimp only
  rw [hp.x, h.cursor.accepts_eq]
  have hgrid := h.sample (onGrid p.x)
  have himproves := improves_eq hgrid hp i
  have hsame := hgrid.beq_eq hp
  simp only [Scan.sample, Point.sample_y] at himproves hsame
  rw [himproves, hsame]
  split
  · split
    · exact hgrid
    · exact hp
  · exact hp

theorem settle (h : s.Opposes s') (hp : p.Opposes q) (i : Interest) :
    (s.settle p i).Opposes (s'.settle q i.opposite) :=
  .found h.cursor (h.snapped hp i) i

/-- Either both scans end on a bracket, or neither does. -/
theorem examine (h : s.Opposes s') {x : K} (hx : s.Visits x) :
    Option.Rel Cursor.Opposes (s.examine Observer.silent (s.samplesFrom x) ()).1
      (s'.examine Observer.silent (s'.samplesFrom x) ()).1 := by
  obtain ⟨hb, hi⟩ := h.classify (h.samplesFrom x)
  have hrefine := fun b i => h.refine (b := b) (i := i) hx
  rw [examine_silent, examine_silent]
  generalize s.classify (s.samplesFrom x) = classified at hb hi hrefine ⊢
  generalize s'.classify (s'.samplesFrom x) = classified' at hb hi ⊢
  obtain ⟨b, i⟩ := classified
  obtain ⟨b', i'⟩ := classified'
  dsimp only at hb hi ⊢
  rw [hi, Interest.isNone_opposite]
  cases hnone : i.isNone with
  | true => exact .none
  | false =>
    have hp : (s.refine b i).Opposes (s'.refine b' i.opposite) := by
      -- the abscissae of the ends are all that a refinement sees of a bracket
      have hends : s'.refine b' i.opposite = s'.refine b i.opposite := by
        rw [Scan.refine, Scan.refine, hb.first.x, hb.last.x]
      exact hends ▸ hrefine b i rfl hnone
    simp only [Bool.false_eq_true, if_false, h.isValid_eq hp]
    cases s.isValid (s.refine b i) with
    | true => exact .some (h.settle hp i)
    | false => exact .none

theorem advance (h : s.Opposes s') (left : Nat) {x : K} (hx : s.Visits x) :
    (s.advance Observer.silent left (s.sample x) (s.following x) ()).1.Opposes
      (s'.advance Observer.silent left (s'.sample x) (s'.following x) ()).1 := by
  induction left generalizing x with
  | zero => exact h.exhaust
  | succ left ih =>
    have hexamine := h.examine hx
    have hrest := ih (x := (s.following x).x) (.next hx)
    have hnext := h.following_eq x
    rw [advance_silent, advance_silent, hnext, Scan.sample, Point.sample_x, h.isUnderway_eq]
    generalize (s.examine Observer.silent (s.samplesFrom x) ()).1 = outcome at hexamine ⊢
    generalize (s'.examine Observer.silent (s'.samplesFrom x) ()).1 = outcome' at hexamine ⊢
    split
    · cases hexamine with
      | some hc => exact hc
      | none => exact hrest
    · exact h.exhaust

/-- Scans of opposite functions take the same course. -/
theorem run (h : s.Opposes s') :
    (s.run Observer.silent ()).1.Opposes (s'.run Observer.silent ()).1 := by
  rw [Scan.run, Scan.run, h.cursor.isExhausted, h.settings]
  by_cases hex : s.cursor.isExhausted = true
  · rw [if_pos hex, if_pos hex]
    exact .exhausted h.cursor hex
  · rw [if_neg hex, if_neg hex]
    have hrun := h.advance (s.settings.maxSamples - 2) .start
    rw [h.cursor.position]
    exact hrun

end Opposes

end Scan

/-! ## Extrema -/

/-- The opposite of an expression. -/
def Expression.opposite (e : Expression K) : Expression K :=
  { evaluate := fun context x => -e.evaluate context x
    isNull := e.isNull
    shape := .opposite
    arity := 1
    operands := [e] }

namespace Solver

/-- A search for a maximum is a search for a minimum of the opposite. -/
theorem opposes_extrema (solver : Solver K) {c c' : Cursor K} (h : c.Agrees c')
    (e : Expression K) : (solver.nextMaximum c e).Opposes (solver.nextMinimum c' e.opposite) := by
  refine Scan.Opposes.run
    { cursor := h
      values := fun x => .refl _
      settings := rfl
      test := BracketTest.dual_maximum
      refine := fun {x b i} _ _ _ => ⟨rfl, ?_⟩ }
  exact .of_eq (InvolutiveScalar.neg_neg _).symm

omit [InvolutiveScalar K] in
/-- A search by a test that shows one interest only finds nothing else. -/
theorem interest_next (solver : Solver K) {c : Cursor K} {f : Evaluator K} {test : BracketTest}
    {refinement : Refinement} {i : Interest}
    (htest : ∀ b : Bracket K, test.classify b = .none ∨ test.classify b = i)
    (h : (solver.next c f test refinement).isExhausted = false) :
    (solver.next c f test refinement).interest = i := by
  cases hc : c.isExhausted with
  | true =>
    have hstays : solver.next c f test refinement = c :=
      congrArg Prod.fst (Scan.run_of_isExhausted _ Observer.silent () hc)
    rw [hstays, hc] at h
    cases h
  | false =>
    obtain ⟨hne, b, hb⟩ := Scan.interest_run (solver.scan c f test refinement) hc
      Observer.silent () h
    show (Scan.run _ Observer.silent ()).1.interest = _
    rw [hb] at hne ⊢
    exact (htest b).resolve_left hne

omit [InvolutiveScalar K] in
/-- A search for maxima finds nothing else. -/
theorem interest_nextMaximum (solver : Solver K) {c : Cursor K} {e : Expression K}
    (h : (solver.nextMaximum c e).isExhausted = false) :
    (solver.nextMaximum c e).interest = .localMaximum :=
  solver.interest_next Bracket.maximum_cases h

/-- The search for a maximum and the search for a minimum of the opposite expression are both
exhausted, or they report the same abscissa with opposite ordinates.  Going on from there,
they list the same abscissae. -/
theorem max_min_dual (solver : Solver K) (c : Cursor K) (e : Expression K) :
    let maximum := solver.nextMaximum c e
    let minimum := solver.nextMinimum c e.opposite
    minimum.isExhausted = maximum.isExhausted ∧ minimum.position = maximum.position ∧
      (maximum.isExhausted = false →
        maximum.interest = .localMaximum ∧ minimum.interest = .localMinimum ∧
          Same minimum.ordinate (-maximum.ordinate)) ∧
      ∀ limit, (solutions (solver.nextMinimum · e.opposite) limit c).map Landmark.x =
        (solutions (solver.nextMaximum · e) limit c).map Landmark.x := by
  intro maximum minimum
  have hdual : maximum.Opposes minimum := solver.opposes_extrema ⟨rfl, rfl, rfl, rfl⟩ e
  refine ⟨hdual.agrees.isExhausted, hdual.agrees.position, fun hfound => ?_, fun limit => ?_⟩
  · have hkind := solver.interest_nextMaximum hfound
    obtain ⟨hopposite, hordinate⟩ := hdual.of_found hfound
    rw [hkind] at hopposite
    exact ⟨hkind, hopposite, hordinate⟩
  · exact abscissae_solutions (fun h => solver.opposes_extrema h e) limit ⟨rfl, rfl, rfl, rfl⟩

/-- A hill with its top at `1.3e-6`. -/
def hill : Expression Float := .plain fun _ x => -Scalar.abs (x - 1.3e-6)

/-- The search for the top, which lies in the first bracket. -/
def hillScan : Scan Float :=
  (Solver.standard {}).scan acrossJump hill.evaluate .maximum .brentMaximum

/-- The bracket that shows the top. -/
def hillBracket : Bracket Float := ⟨hillScan.sample 0, hillScan.sample 1e-6, hillScan.sample 2e-6⟩

theorem hillBracket_shows_top :
    hillScan.test.classify hillBracket = .localMaximum ∧
      hillScan.isValid (hillScan.refine hillBracket .localMaximum) = true := by
  decide +kernel

theorem isExhausted_nextMaximum_hill :
    ((Solver.standard {}).nextMaximum acrossJump hill).isExhausted = false := by
  obtain ⟨hfirst, hsecond⟩ := nextX_acrossJump
  obtain ⟨htop, hvalid⟩ := hillBracket_shows_top
  have hunderway : hillScan.isUnderway 1e-6 = true := by decide +kernel
  have hclassify := hillScan.classify_of_interest htop rfl
  have hrun := hillScan.run_of_first_steps rfl (by decide) rfl hfirst hsecond hunderway hclassify
    rfl hvalid
  show (hillScan.run Observer.silent ()).1.isExhausted = false
  rw [hrun]
  rfl

/-- The top of the hill is found, and the bottom of the valley below it at the same
abscissa. -/
theorem hill_and_valley :
    let maximum := (Solver.standard {}).nextMaximum acrossJump hill
    let minimum := (Solver.standard {}).nextMinimum acrossJump hill.opposite
    minimum.isExhausted = false ∧ minimum.position = maximum.position ∧
      maximum.interest = .localMaximum ∧ minimum.interest = .localMinimum ∧
      Same minimum.ordinate (-maximum.ordinate) := by
  obtain ⟨hexhausted, hposition, hfound, -⟩ := max_min_dual (Solver.standard {}) acrossJump hill
  have hmaximum := isExhausted_nextMaximum_hill
  obtain ⟨hkind, hopposite, hordinate⟩ := hfound hmaximum
  exact ⟨hexhausted.trans hmaximum, hposition, hkind, hopposite, hordinate⟩

end Solver

end CurveSurvey

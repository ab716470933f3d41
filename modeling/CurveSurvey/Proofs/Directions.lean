import CurveSurvey.Proofs.Crossing
import CurveSurvey.Proofs.Reflection

/-!
# The two directions of a scan

* `Solver.mirror_law` is the law of opposite scans: they show and find the same, reflected,
  exactly when neither looks at a bracket with its middle on the end.
* `Solver.valley_behind_the_end` is an example of such a bracket, and of what it can bring
  out.
-/

namespace CurveSurvey

open Scalar (Same Opposite)

variable {K : Type} [Precision K]

/-! ## Reflected brackets -/

namespace Trace

/-- What is shown of a mirrored trace is mirrored, bracket by bracket. -/
theorem Mirrors.exists_bracket {t t' : Trace K} (h : t.Mirrors t') {b' : Bracket K}
    (hb' : b' ∈ brackets t') : ∃ b ∈ brackets t, b.Mirrors b' := by
  induction h with
  | nil => cases hb'
  | @cons event event' rest rest' hevent _ ih =>
    obtain ⟨shown, answer⟩ := event
    obtain ⟨shown', answer'⟩ := event'
    cases hevent.1 with
    | @sampled b c hbc =>
      rcases List.mem_cons.1 (show b' ∈ c :: brackets rest' from hb') with rfl | hrest
      · exact ⟨b, List.mem_cons_self, hbc⟩
      · obtain ⟨b, hb, hmirrors⟩ := ih hrest
        exact ⟨b, List.mem_cons_of_mem _ hb, hmirrors⟩
    | refined hp i valid => exact ih hb'

end Trace

/-- On the way toward larger abscissae, the middle of every bracket lies before the goal. -/
theorem Scan.Walked.middle_lt_goal [StridingPrecision K] {s : Scan K} {left : Nat}
    {middle last : Point K} {t : Trace K} {c : Cursor K} (hwalk : s.Walked left middle last t c)
    (h : s.Stride middle last) (hstart : Scalar.isFinite s.cursor.position = true)
    (hgoal : Scalar.isFinite s.cursor.goal = true) (hforward : s.cursor.position < s.cursor.goal) :
    ∀ b ∈ Trace.brackets t, b.middle.x < s.cursor.goal := by
  induction hwalk with
  | spent | arrived => nofun
  | ended hunderway ht =>
    intro b hb
    rw [ht.brackets_eq, List.mem_singleton] at hb
    subst hb
    exact (h.isUnderway_iff.1 hunderway).2 hforward
  | onward hunderway ht _ ih =>
    intro b hb
    rw [Trace.brackets_append, ht.brackets_eq] at hb
    rcases List.mem_cons.1 hb with rfl | hb
    · exact (h.isUnderway_iff.1 hunderway).2 hforward
    · exact ih (h.next hstart hgoal hunderway) b hb

/-- A scan that goes past its first bracket can find something in the second one. -/
theorem Scan.found_in_second_bracket (s : Scan K) (hs : s.cursor.isExhausted = false)
    (hsamples : 4 ≤ s.settings.maxSamples) {x y : K}
    (hx : (s.following s.cursor.position).x = x) (hy : (s.following x).x = y)
    (hfirst : s.isUnderway x = true) (hsecond : s.isUnderway y = true)
    (hpasses : s.settlesOn (s.samplesFrom s.cursor.position) = false)
    (hsettles : s.settlesOn (s.samplesFrom x) = true) :
    (s.run Observer.silent ()).1.isExhausted = false := by
  subst hx hy
  obtain ⟨n, hn⟩ : ∃ n, s.settings.maxSamples - 2 = n + 1 + 1 :=
    ⟨s.settings.maxSamples - 4, by omega⟩
  obtain ⟨c, hc, hfound⟩ := examine_of_settlesOn hsettles
  have hrest : (s.advance Observer.silent (n + 1) (s.following s.cursor.position)
      (s.following (s.following s.cursor.position).x) ()).1 = c := by
    refine (s.advance_silent n (s.following s.cursor.position).x).trans ?_
    rw [if_pos hsecond, hc]
    rfl
  rw [run, if_neg (by simp [hs]), hn]
  refine (congrArg Cursor.isExhausted (s.advance_silent (n + 1) s.cursor.position)).trans ?_
  rw [if_pos hfirst, examine_of_not_settlesOn hpasses, hrest]
  exact hfound

namespace Solver

/-- A scan of a function toward larger abscissae, and the scan of the mirrored function between
the opposite ends, which goes toward smaller ones.  In the first one, the middle of every
bracket lies strictly before the end.  If this is so in the opposite scan as well, and only
then, both show the same events and return the same cursor, reflected.  Otherwise the opposite
scan shows one more bracket, with its middle on the end, and the first scan finds nothing. -/
theorem mirror_law [ReflectingPrecision K] (solver : Solver K)
    (hvalid : solver.settings.validate = .ok solver.settings) {start goal : K}
    (hstart : Scalar.isFinite start = true) (hgoal : Scalar.isFinite goal = true)
    (hforward : start < goal) (f : Evaluator K)
    (hzero : Same (f solver.context (-0)) (f solver.context 0)) (test : BracketTest)
    {r : Refinement} (hr : r.Directed)
    (haway : r = .brentRoot → (solver.scan (Cursor.new start goal) f test r).InterpolatesAway) :
    let forth := solver.nextObserved (Cursor.new start goal) f test r Observer.silent.recorded
      ((), [])
    let back := solver.nextObserved (Cursor.new (-start) (-goal)) (fun context x => f context (-x))
      test r Observer.silent.recorded ((), [])
    (∀ b ∈ Trace.brackets forth.2.2, b.middle.x < goal) ∧
      ((∀ b ∈ Trace.brackets back.2.2, -goal < b.middle.x) ↔
        Trace.Mirrors forth.2.2 back.2.2 ∧ forth.1.Mirrors back.1) ∧
      (Trace.Mirrors forth.2.2 back.2.2 ∧ forth.1.Mirrors back.1 ∨
        forth.1.isExhausted = true ∧ ∃ u v b, back.2.2 = u ++ v ∧ Trace.Mirrors forth.2.2 u ∧
          Trace.brackets v = [b] ∧ (b.middle.x == -goal) = true) := by
  intro forth back
  let s := solver.scan (Cursor.new start goal) f test r
  let s' := solver.scan (Cursor.new (-start) (-goal)) (fun context x => f context (-x)) test r
  have hmirrors : s.Mirrors s' :=
    { cursor := Cursor.mirrors_new start goal
      values := mirrored_comp_neg hzero
      settings := rfl
      test := rfl
      refinement := rfl
      start := hstart
      goal := hgoal
      forward := hforward
      precision_pos := Settings.absolutePrecision_pos hvalid
      directed := hr
      away := haway }
  have hpending : s.cursor.isExhausted = false := by
    obtain ⟨hdef, hdef'⟩ := Scalar.defined_of_lt hforward
    show (Cursor.new start goal).isExhausted = false
    rw [Cursor.new, hdef, hdef']
    rfl
  have hbefore : ∀ b ∈ Trace.brackets forth.2.2, b.middle.x < goal :=
    (s.walked_run hpending Observer.silent ()).middle_lt_goal (s.stride_start hstart) hstart hgoal
      hforward
  have hcases : Trace.Mirrors forth.2.2 back.2.2 ∧ forth.1.Mirrors back.1 ∨
      forth.1.isExhausted = true ∧ ∃ u v b, back.2.2 = u ++ v ∧ Trace.Mirrors forth.2.2 u ∧
        Trace.brackets v = [b] ∧ (b.middle.x == -goal) = true := by
    have hrun : s.Reflected s' forth back := hmirrors.run
    generalize forth = forth at hrun ⊢
    generalize back = back at hrun ⊢
    cases hrun with
    | together hc ht => exact .inl ⟨ht, hc⟩
    | landed ht hv hb => exact .inr ⟨rfl, _, _, _, rfl, ht, hv, hb⟩
  refine ⟨hbefore, ⟨fun hback => ?_, fun hsame => ?_⟩, hcases⟩
  · refine hcases.resolve_right ?_
    rintro ⟨-, u, v, b, heq, -, hv, hb⟩
    have hmem : b ∈ Trace.brackets back.2.2 := by
      rw [heq, Trace.brackets_append, hv]
      exact List.mem_append_right _ List.mem_cons_self
    exact Scalar.not_le_of_lt (hback b hmem) (OrderedScalar.beq_iff.1 hb).1
  · intro b' hb'
    obtain ⟨b, hb, hbb'⟩ := hsame.1.exists_bracket hb'
    exact (Scalar.Opposite.lt_iff (.refl (-goal)) hbb'.middle.x).2 (hbefore b hb)

/-- The step across which a scan narrows by the golden section. -/
def stepScan : Scan Float :=
  (Solver.standard {}).scan twoSteps plainStep.evaluate .oddRoot (.dichotomy 4)

/-- The step is found in either direction. -/
theorem step_mirrored :
    (Settings.standard : Settings Float).validate = .ok Settings.standard ∧
      Scalar.isFinite (0 : Float) = true ∧ Scalar.isFinite (1.5e-6 : Float) = true ∧
      (0 : Float) < 1.5e-6 ∧ Same (plainStep.evaluate {} (-0)) (plainStep.evaluate {} 0) ∧
      let forth := (Solver.standard {}).nextObserved (Cursor.new 0 1.5e-6) plainStep.evaluate
        .oddRoot (.dichotomy 4) Observer.silent.recorded ((), [])
      let back := (Solver.standard {}).nextObserved (Cursor.new (-0) (-1.5e-6))
        (fun context x => plainStep.evaluate context (-x)) .oddRoot (.dichotomy 4)
        Observer.silent.recorded ((), [])
      forth.1.isExhausted = false ∧ Trace.Mirrors forth.2.2 back.2.2 ∧ forth.1.Mirrors back.1 := by
  have hstart : Scalar.isFinite (0 : Float) = true := by decide +kernel
  have hgoal : Scalar.isFinite (1.5e-6 : Float) = true := by decide +kernel
  have hforward : (0 : Float) < 1.5e-6 := by decide +kernel
  have hzero : Same (plainStep.evaluate {} (-0)) (plainStep.evaluate {} 0) :=
    .of_eq (by decide +kernel)
  have hfound : (stepScan.run Observer.silent.recorded ((), [])).1.isExhausted = false := by
    rw [Scan.run_recorded]
    refine (isExhausted_run_twoSteps stepScan rfl (show 4 ≤ 100000 by decide)).trans ?_
    decide +kernel
  obtain ⟨-, -, hcases⟩ := mirror_law (Solver.standard {}) standard_valid hstart hgoal hforward
    plainStep.evaluate hzero .oddRoot (.dichotomy 4) nofun
  refine ⟨standard_valid, hstart, hgoal, hforward, hzero, hfound, hcases.resolve_right ?_⟩
  rintro ⟨hex, -⟩
  exact Bool.false_ne_true (hfound.symm.trans hex)

/-! ## Landing on the end -/

/-- A valley with its bottom at `-3e-7`. -/
def valley : Evaluator Float := fun _ x => Scalar.abs (x + 3e-7)

/-- Its mirror image. -/
def valleyBack : Evaluator Float := fun context x => valley context (-x)

/-- The scan for the bottom that lands on zero with its second step. -/
def forthScan : Scan Float :=
  (Solver.standard {}).scan (Cursor.new (-2e-6) 0) valley .minimum (.dichotomy 9)

/-- The opposite scan. -/
def backScan : Scan Float :=
  (Solver.standard {}).scan (Cursor.new (-(-2e-6)) (-0)) valleyBack .minimum (.dichotomy 9)

theorem nextX_forthScan :
    forthScan.cursor.nextX (-2e-6) 0 = -1e-6 ∧ forthScan.cursor.nextX (-1e-6) 0 = 0 := by
  have hcoarse : forthScan.cursor.maximalStep = 1e-6 := by decide +kernel
  constructor
  · rw [Cursor.nextX_of_maximalStep_le (by rw [hcoarse]; decide +kernel)]
    decide +kernel
  · rw [Cursor.nextX_of_maximalStep_le (by rw [hcoarse]; decide +kernel)]
    decide +kernel

theorem nextX_backScan :
    backScan.cursor.nextX (-(-2e-6)) (-0) = 1e-6 ∧ backScan.cursor.nextX 1e-6 (-0) = 0 ∧
      backScan.cursor.nextX 0 (-0) = -1e-6 := by
  have hcoarse : backScan.cursor.maximalStep = 1e-6 := by decide +kernel
  refine ⟨?_, ?_, ?_⟩
  · rw [Cursor.nextX_of_maximalStep_le (by rw [hcoarse]; decide +kernel)]
    decide +kernel
  · rw [Cursor.nextX_of_maximalStep_le (by rw [hcoarse]; decide +kernel)]
    decide +kernel
  · rw [Cursor.nextX_of_maximalStep_le (by rw [hcoarse]; decide +kernel)]
    decide +kernel

theorem isExhausted_run_forthScan : (forthScan.run Observer.silent ()).1.isExhausted = true := by
  obtain ⟨hfirst, hsecond⟩ := nextX_forthScan
  have hunderway : forthScan.isUnderway (forthScan.cursor.nextX (-2e-6) 0) = true := by
    rw [hfirst]
    decide +kernel
  have harrived : forthScan.isUnderway
      (forthScan.cursor.nextX (forthScan.cursor.nextX (-2e-6) 0) 0) = false := by
    rw [hfirst, hsecond]
    decide +kernel
  rw [forthScan.isExhausted_run_of_two_steps rfl (show 4 ≤ 100000 by decide) hunderway harrived]
  have hpasses : forthScan.settlesOn (forthScan.samplesFrom (-2e-6)) = false := by
    rw [forthScan.samplesFrom_eq hfirst hsecond]
    decide +kernel
  exact congrArg not hpasses

theorem isExhausted_run_backScan : (backScan.run Observer.silent ()).1.isExhausted = false := by
  obtain ⟨hfirst, hsecond, hthird⟩ := nextX_backScan
  have hpasses : backScan.settlesOn (backScan.samplesFrom (-(-2e-6))) = false := by
    rw [backScan.samplesFrom_eq hfirst hsecond]
    decide +kernel
  have hsettles : backScan.settlesOn (backScan.samplesFrom 1e-6) = true := by
    rw [backScan.samplesFrom_eq hsecond hthird]
    decide +kernel
  -- the second sample is at the end, and the scan goes on
  exact backScan.found_in_second_bracket rfl (show 4 ≤ 100000 by decide) hfirst hsecond
    (by decide +kernel) (by decide +kernel) hpasses hsettles

/-- A sample on the end can make a difference.  The valley has its bottom before the end and
is seen in the bracket around the end, which only the opposite scan looks at. -/
theorem valley_behind_the_end :
    let forth := (Solver.standard {}).nextObserved (Cursor.new (-2e-6) 0) valley .minimum
      (.dichotomy 9) Observer.silent.recorded ((), [])
    let back := (Solver.standard {}).nextObserved (Cursor.new (-(-2e-6)) (-0))
      (fun context x => valley context (-x)) .minimum (.dichotomy 9)
      Observer.silent.recorded ((), [])
    forth.1.isExhausted = true ∧ back.1.isExhausted = false ∧ ¬ forth.1.Mirrors back.1 := by
  intro forth back
  have hforth : forth.1.isExhausted = true := by
    show (forthScan.run Observer.silent.recorded ((), [])).1.isExhausted = true
    rw [Scan.run_recorded]
    exact isExhausted_run_forthScan
  have hback : back.1.isExhausted = false := by
    show (backScan.run Observer.silent.recorded ((), [])).1.isExhausted = false
    rw [Scan.run_recorded]
    exact isExhausted_run_backScan
  refine ⟨hforth, hback, fun h => ?_⟩
  rw [h.isExhausted, hforth] at hback
  cases hback

end Solver

end CurveSurvey

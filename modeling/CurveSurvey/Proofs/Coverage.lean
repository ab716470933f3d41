import CurveSurvey.Proofs.Stride
import CurveSurvey.Proofs.Trace

/-!
# The brackets of a scan

A scan between finite ends leaves no gap: its brackets follow one another, each
beginning with the last two samples of the one before.

* `Scan.Stride` is what any two successive samples satisfy; the next sample satisfies
  it again (`Scan.Stride.next`) as long as the goal is not reached.
* `Scan.Unbroken` says that brackets follow one another strictly toward the goal.
* `Solver.no_gap` is the result: the brackets of a scan are unbroken, and when it ends
  of its own accord they span everything between the position and the goal.
-/

namespace CurveSurvey

/-- The second bracket begins with the last two samples of the first. -/
def Bracket.Overlaps {K : Type} (b b' : Bracket K) : Prop :=
  b'.first = b.middle ∧ b'.middle = b.last

/-- The abscissa lies between the ends of the bracket, in the direction of the scan. -/
def Cursor.Spans {K : Type} [Scalar K] (c : Cursor K) (b : Bracket K) (x : K) : Prop :=
  c.Along b.first.x x ∧ c.Along x b.last.x

namespace Scan

variable {K : Type} [Precision K]

/-- Two successive samples of a scan. -/
structure Stride (s : Scan K) (middle last : Point K) : Prop where
  /-- The first is a point of the curve. -/
  middle_eq : middle.y = s.f middle.x
  /-- So is the second. -/
  last_eq : last.y = s.f last.x
  /-- The second is strictly ahead of the first. -/
  ahead : s.cursor.Ahead middle.x last.x
  /-- It is strictly ahead of the start as well. -/
  away : s.cursor.Ahead s.cursor.position last.x

/-- Brackets that follow one another without a gap, beginning with two given samples. -/
structure Unbroken (s : Scan K) (middle last : Point K) (bs : List (Bracket K)) : Prop where
  /-- The first bracket begins with the given samples. -/
  starts : ∀ b ∈ bs.head?, b.first = middle ∧ b.middle = last
  /-- Every other one begins with the last two samples of the one before. -/
  linked : bs.IsChain Bracket.Overlaps
  /-- All samples are points of the curve. -/
  sampled : ∀ b ∈ bs, ∀ p ∈ [b.first, b.middle, b.last], p.y = s.f p.x
  /-- They move strictly toward the goal, and only the last one may be beyond it. -/
  onward : ∀ b ∈ bs, s.cursor.Ahead b.first.x b.middle.x ∧ s.cursor.Ahead b.middle.x b.last.x ∧
    s.cursor.Along b.middle.x s.cursor.goal

theorem unbroken_nil (s : Scan K) (middle last : Point K) : s.Unbroken middle last [] where
  starts := by simp
  linked := .nil
  sampled := by simp
  onward := by simp

variable {s : Scan K} {middle last : Point K}

/-- One more bracket in front leaves no gap. -/
theorem Unbroken.cons {bs : List (Bracket K)} (h : s.Stride middle last)
    (hnext : s.Stride last (s.following last.x)) (halong : s.cursor.Along last.x s.cursor.goal)
    (hbs : s.Unbroken last (s.following last.x) bs) :
    s.Unbroken middle last (⟨middle, last, s.following last.x⟩ :: bs) where
  starts := by simp
  linked := by
    refine List.isChain_cons.2 ⟨fun b hb => ?_, hbs.linked⟩
    exact hbs.starts b hb
  sampled := by
    intro b hb
    rcases List.mem_cons.1 hb with rfl | hb
    · simpa using ⟨h.middle_eq, h.last_eq, hnext.last_eq⟩
    · exact hbs.sampled b hb
  onward := by
    intro b hb
    rcases List.mem_cons.1 hb with rfl | hb
    · exact ⟨h.ahead, hnext.ahead, halong⟩
    · exact hbs.onward b hb

variable [StridingPrecision K]

/-! ## Two samples -/

theorem stride_start (hstart : Scalar.isFinite s.cursor.position = true) :
    s.Stride (s.sample s.cursor.position) (s.following s.cursor.position) where
  middle_eq := rfl
  last_eq := rfl
  ahead := Cursor.ahead_nextX hstart Iff.rfl
  away := Cursor.ahead_nextX hstart Iff.rfl

/-- A scan is underway as long as the goal lies on the side where it was at the start. -/
theorem Stride.isUnderway_iff (h : s.Stride middle last) :
    s.isUnderway last.x = true ↔ (last.x < s.cursor.goal ↔ s.cursor.position < s.cursor.goal) := by
  rw [isUnderway, beq_iff_eq, decide_eq_decide, h.away.position_lt_iff]
  exact Iff.comm

theorem Stride.along_goal (h : s.Stride middle last) (hgoal : Scalar.isFinite s.cursor.goal = true)
    (hunderway : s.isUnderway last.x = true) : s.cursor.Along last.x s.cursor.goal :=
  Cursor.along_goal h.away.defined.2 (Cursor.defined_of_isFinite hgoal)
    (h.isUnderway_iff.1 hunderway)

theorem Stride.goal_along (h : s.Stride middle last) (hgoal : Scalar.isFinite s.cursor.goal = true)
    (hunderway : s.isUnderway last.x = false) : s.cursor.Along s.cursor.goal last.x :=
  Cursor.goal_along h.away.defined.2 (Cursor.defined_of_isFinite hgoal)
    (mt h.isUnderway_iff.2 (by simp [hunderway]))

/-- While a scan is underway, the next two samples are again a stride. -/
theorem Stride.next (h : s.Stride middle last)
    (hstart : Scalar.isFinite s.cursor.position = true)
    (hgoal : Scalar.isFinite s.cursor.goal = true) (hunderway : s.isUnderway last.x = true) :
    s.Stride last (s.following last.x) := by
  have halong := h.along_goal hgoal hunderway
  have hahead : s.cursor.Ahead last.x (s.following last.x).x :=
    Cursor.ahead_nextX (Cursor.isFinite_of_along h.away.along halong hstart hgoal)
      (h.isUnderway_iff.1 hunderway)
  exact ⟨h.last_eq, rfl, hahead, h.away.trans hahead⟩

/-! ## The whole walk -/

section

variable {b : Bracket K} {bs : List (Bracket K)} {t : Trace K} {found : Option (Cursor K)}
  {left : Nat} {c : Cursor K}

/-- The brackets of a walk are unbroken. -/
theorem Walked.unbroken (hwalk : s.Walked left middle last t c) (h : s.Stride middle last)
    (hstart : Scalar.isFinite s.cursor.position = true)
    (hgoal : Scalar.isFinite s.cursor.goal = true) :
    s.Unbroken middle last (Trace.brackets t) := by
  induction hwalk with
  | spent | arrived => exact s.unbroken_nil _ _
  | ended hunderway ht =>
    rw [ht.brackets_eq]
    exact .cons h (h.next hstart hgoal hunderway) (h.along_goal hgoal hunderway)
      (s.unbroken_nil _ _)
  | onward hunderway ht _ ih =>
    have hnext := h.next hstart hgoal hunderway
    rw [Trace.brackets_append, ht.brackets_eq]
    exact .cons h hnext (h.along_goal hgoal hunderway) (ih hnext)

/-- How brackets cover what lies between a first abscissa and the goal. -/
def Covers (s : Scan K) (start : K) (bs : List (Bracket K)) : Prop :=
  (∃ b, bs.getLast? = some b ∧ s.cursor.Along s.cursor.goal b.last.x) ∧
    ∀ x, s.cursor.Along start x → s.cursor.Along x s.cursor.goal →
      ∃ b ∈ bs, s.cursor.Spans b x

theorem covers_singleton (h : s.cursor.Along s.cursor.goal b.last.x) :
    s.Covers b.first.x [b] :=
  ⟨⟨b, rfl, h⟩, fun _ hx hgoal => ⟨b, List.mem_singleton_self b, hx, hgoal.trans h⟩⟩

/-- A bracket in front covers what lies before the others. -/
theorem Covers.cons (h : s.Covers b.middle.x bs)
    (hahead : s.cursor.Ahead b.middle.x b.last.x) : s.Covers b.first.x (b :: bs) := by
  obtain ⟨⟨b', hlast, hreach⟩, hspans⟩ := h
  refine ⟨⟨b', by rw [List.getLast?_cons, hlast]; rfl, hreach⟩, ?_⟩
  intro x hx hgoal
  rcases s.cursor.along_total hx.defined.2 hahead.defined.1 with hle | hge
  · exact ⟨b, List.mem_cons_self, hx, hle.trans hahead.along⟩
  · obtain ⟨b', hmem, hspan⟩ := hspans x hge hgoal
    exact ⟨b', List.mem_cons_of_mem b hmem, hspan⟩

/-- A walk that ends of its own accord has reached the goal. -/
theorem Walked.reaches_goal (hwalk : s.Walked left middle last t c) (h : s.Stride middle last)
    (hstart : Scalar.isFinite s.cursor.position = true)
    (hgoal : Scalar.isFinite s.cursor.goal = true) (hc : c.isExhausted = true)
    (hstop : ∀ event, (event, some .stop) ∉ t) (hleft : (Trace.brackets t).length < left) :
    Trace.brackets t = [] ∧ s.cursor.Along s.cursor.goal last.x ∨
      s.Covers middle.x (Trace.brackets t) := by
  induction hwalk with
  | spent => cases hleft
  | arrived hunderway => exact .inl ⟨rfl, h.goal_along hgoal hunderway⟩
  | ended _ ht =>
    exfalso
    cases ht with
    | stopped | stoppedAt => simp at hstop
    | accepted => cases hc
  | @onward left middle last t u c hunderway ht _ ih =>
    have hnext := h.next hstart hgoal hunderway
    rw [Trace.brackets_append, ht.brackets_eq] at hleft ⊢
    simp only [List.mem_append, not_or, forall_and] at hstop
    rcases ih hnext hc hstop.2 (Nat.lt_of_succ_lt_succ hleft) with ⟨hnil, hreach⟩ | hcovers
    · rw [hnil]
      exact .inr (covers_singleton hreach)
    · exact .inr (hcovers.cons hnext.ahead)

end

end Scan

namespace Solver

/-- A scan between finite ends leaves no gap.  Its brackets begin at the position and
follow one another strictly toward the goal, and all samples are points of the curve.
If it finds nothing although the observer did not ask to stop and there were samples
left, then the last bracket reaches the goal, and every abscissa between the position and
the goal lies in a bracket; or the first step already reaches the goal. -/
theorem no_gap {K S : Type} [Precision K] [StridingPrecision K] (solver : Solver K) (c : Cursor K)
    (hstart : Scalar.isFinite c.position = true) (hgoal : Scalar.isFinite c.goal = true)
    (f : Evaluator K) (test : BracketTest) (refinement : Refinement) (observe : Observer K S)
    (state : S) :
    let s := solver.scan c f test refinement
    let t := s.trace observe state
    let c' := (solver.nextObserved c f test refinement observe state).1
    s.Unbroken (s.sample c.position) (s.following c.position) (Trace.brackets t) ∧
      (c.isExhausted = true → t = []) ∧
      (c.isExhausted = false → c'.isExhausted = true → (∀ event, (event, some .stop) ∉ t) →
        2 + (Trace.brackets t).length < solver.settings.maxSamples →
          Trace.brackets t = [] ∧ c.Along c.goal (c.nextX c.position c.goal) ∨
            s.Covers c.position (Trace.brackets t)) := by
  intro s t c'
  have hstride := s.stride_start hstart
  cases hc : c.isExhausted with
  | true =>
    have ht : t = [] := by
      show (s.run observe.recorded (state, [])).2.2 = []
      rw [s.run_of_isExhausted _ _ hc]
    rw [ht]
    exact ⟨s.unbroken_nil _ _, fun _ => rfl, nofun⟩
  | false =>
    have hwalk : s.Walked (solver.settings.maxSamples - 2) (s.sample c.position)
        (s.following c.position) t c' := s.walked_run hc observe state
    refine ⟨hwalk.unbroken hstride hstart hgoal, nofun, ?_⟩
    intro _ hexhausted hstop hleft
    exact hwalk.reaches_goal hstride hstart hgoal hexhausted hstop (by omega)

/-- A cursor that reaches its goal with the second step. -/
def twoSteps : Cursor Float := Cursor.new 0 1.5e-6

/-- The scan of a function that is nowhere zero. -/
def plainScan : Scan Float :=
  (Solver.standard {}).scan twoSteps (fun _ _ => 1) .oddRoot .compositeRoot

theorem nextX_twoSteps :
    twoSteps.nextX 0 1.5e-6 = 1e-6 ∧ twoSteps.nextX 1e-6 1.5e-6 = 2e-6 := by
  have hcoarse : twoSteps.maximalStep = 1e-6 := by decide +kernel
  constructor
  · rw [Cursor.nextX_of_maximalStep_le (by rw [hcoarse]; decide +kernel)]
    decide +kernel
  · rw [Cursor.nextX_of_maximalStep_le (by rw [hcoarse]; decide +kernel)]
    decide +kernel

/-- Its only bracket. -/
def plainBracket : Bracket Float := ⟨⟨0, 1⟩, ⟨1e-6, 1⟩, ⟨2e-6, 1⟩⟩

/-- Whoever observes the scan sees this bracket, and the scan ends in any case. -/
theorem run_plainScan_observed {S : Type} (observe : Observer Float S) (state : S) :
    plainScan.run observe state =
      (twoSteps.exhaust, (observe (.sampled plainBracket) state).2) := by
  obtain ⟨hfirst, hsecond⟩ := nextX_twoSteps
  have hunderway : plainScan.isUnderway 1e-6 = true := by decide +kernel
  have harrived : ¬ plainScan.isUnderway 2e-6 = true := by decide +kernel
  have hnext : plainScan.following 1e-6 = ⟨2e-6, 1⟩ := by
    show plainScan.sample (twoSteps.nextX 1e-6 1.5e-6) = _
    rw [hsecond]
    rfl
  have hclassify : plainScan.classify plainBracket = (plainBracket, .none) := by
    have hplain : plainScan.test.classify plainBracket = .none := by decide +kernel
    rw [Scan.classify, hplain]
    rfl
  have hlast : ∀ state : S, plainScan.advance observe (99996 + 1) ⟨1e-6, 1⟩ ⟨2e-6, 1⟩ state =
      (twoSteps.exhaust, state) := by
    intro state
    rw [Scan.advance, if_neg harrived]
    rfl
  rw [Scan.run, if_neg (by decide +kernel)]
  show plainScan.advance _ (99996 + 1 + 1) ⟨0, 1⟩ ⟨twoSteps.nextX 0 1.5e-6, 1⟩ _ = _
  rw [hfirst, Scan.advance, if_pos hunderway, hnext]
  dsimp only
  rw [show (⟨⟨0, 1⟩, ⟨1e-6, 1⟩, ⟨2e-6, 1⟩⟩ : Bracket Float) = plainBracket from rfl, Scan.examine,
    hclassify]
  obtain ⟨answer, state⟩ := observe (.sampled plainBracket) state
  rcases answer with _ | _ | _
  · exact hlast state
  · rfl
  · exact hlast state

theorem run_plainScan : plainScan.run Observer.silent.recorded ((), []) =
    (twoSteps.exhaust, (), [(.sampled plainBracket, none)]) :=
  run_plainScan_observed _ _

/-- The scan that finds nothing covers everything up to its goal. -/
theorem plainScan_covers :
    Scalar.isFinite twoSteps.position = true ∧ Scalar.isFinite twoSteps.goal = true ∧
      plainScan.Covers 0 [plainBracket] := by
  have hstart : Scalar.isFinite twoSteps.position = true := by decide +kernel
  have hgoal : Scalar.isFinite twoSteps.goal = true := by decide +kernel
  refine ⟨hstart, hgoal, ?_⟩
  have ht : plainScan.trace Observer.silent () = [(.sampled plainBracket, none)] := by
    rw [Scan.trace, run_plainScan]
  have hrun : (plainScan.run Observer.silent ()).1 = twoSteps.exhaust :=
    congrArg Prod.fst ((plainScan.run_recorded Observer.silent ()).symm.trans run_plainScan)
  have hgap := (no_gap (Solver.standard {}) twoSteps hstart hgoal (fun _ _ => 1) .oddRoot
    .compositeRoot Observer.silent ()).2.2
  change twoSteps.isExhausted = false → (plainScan.run Observer.silent ()).1.isExhausted = true →
    (∀ event, (event, some .stop) ∉ plainScan.trace Observer.silent ()) →
      2 + (Trace.brackets (plainScan.trace Observer.silent ())).length < 100000 →
        Trace.brackets (plainScan.trace Observer.silent ()) = [] ∧ _ ∨
          plainScan.Covers 0 (Trace.brackets (plainScan.trace Observer.silent ())) at hgap
  rw [ht, hrun] at hgap
  rcases hgap (by decide +kernel) rfl (by simp) (by decide) with ⟨hnil, -⟩ | hcovers
  · cases hnil
  · exact hcovers

end Solver

end CurveSurvey

import CurveSurvey.Proofs.Roots

/-!
# The trace of a scan

What an observer is shown during a scan, and what this says about the outcome.

* `Observer.recorded` notes every event with the answer to it, and `Scan.trace` is
  what it notes during one scan.
* `Scan.Examined` lists what one bracket can lead to, and `Scan.Walked` what a walk
  over several brackets can.  `Scan.walked_run` says that every scan is such a walk;
  all that is said of traces is proved by induction on it.  What a walk finds, it finds in
  the last bracket that it shows (`Scan.run_settles`).
* `Solver.trace_law` is the result: a scan finds something exactly when its last
  event is a valid point to which the observer did not object, and then reports that
  point or its neighbour on the grid.
-/

namespace CurveSurvey

/-! ## Records -/

/-- What an observer was shown, each event with the answer to it. -/
abbrev Trace (K : Type) := List (Event K × Option Action)

namespace Trace

variable {K : Type}

/-- The bracket that an event shows, if it shows one. -/
def bracket? : Event K × Option Action → Option (Bracket K)
  | (.sampled b, _) => some b
  | (.refined .., _) => none

/-- The brackets of a trace, in the order of the scan. -/
def brackets (t : Trace K) : List (Bracket K) := t.filterMap bracket?

theorem brackets_append (t u : Trace K) : brackets (t ++ u) = brackets t ++ brackets u :=
  List.filterMap_append

/-- The trace ends with a valid point to which the observer did not object. -/
def EndsOn (t : Trace K) (p : Point K) (i : Interest) : Prop :=
  t.getLast? = some (.refined p i true, none)

end Trace

/-- The observer that answers as another one does, and notes every event with the
answer to it. -/
def Observer.recorded {K S : Type} (observe : Observer K S) : Observer K (S × Trace K) :=
  fun event record =>
    let (answer, state) := observe event record.1
    (answer, state, record.2 ++ [(event, answer)])

namespace Scan

variable {K S : Type} [Precision K]

/-- What the observer is shown during a scan, with its answers. -/
def trace (s : Scan K) (observe : Observer K S) (state : S) : Trace K :=
  (s.run observe.recorded (state, [])).2.2

/-! ## One bracket -/

/-- A bracket shows an interest, possibly after it was narrowed, and is refined to a
point. -/
def Refines (s : Scan K) (b : Bracket K) (p : Point K) (i : Interest) : Prop :=
  ∃ narrowed, s.classify b = (narrowed, i) ∧ i ≠ .none ∧ p = s.refine narrowed i

/-- What is noted about a bracket, and the cursor if the scan ends with it. -/
inductive Examined (s : Scan K) (b : Bracket K) : Trace K → Option (Cursor K) → Prop where
  /-- The observer ended the scan before the bracket was tested. -/
  | stopped : Examined s b [(.sampled b, some .stop)] (some s.cursor.exhaust)
  /-- The observer passed over the bracket. -/
  | skipped : Examined s b [(.sampled b, some .ignore)] none
  /-- The bracket shows nothing. -/
  | plain : Examined s b [(.sampled b, none)] none
  /-- The observer ended the scan at the refined point. -/
  | stoppedAt {p : Point K} {i : Interest} (h : s.Refines b p i) :
      Examined s b [(.sampled b, none), (.refined p i (s.isValid p), some .stop)]
        (some s.cursor.exhaust)
  /-- The observer passed over the refined point. -/
  | skippedAt {p : Point K} {i : Interest} (h : s.Refines b p i) :
      Examined s b [(.sampled b, none), (.refined p i (s.isValid p), some .ignore)] none
  /-- The refined point is not valid. -/
  | rejected {p : Point K} {i : Interest} (h : s.Refines b p i) (hp : s.isValid p = false) :
      Examined s b [(.sampled b, none), (.refined p i false, none)] none
  /-- The refined point is the solution. -/
  | accepted {p : Point K} {i : Interest} (h : s.Refines b p i) (hp : s.isValid p = true) :
      Examined s b [(.sampled b, none), (.refined p i true, none)] (some (s.settle p i))

/-- Recording a bracket changes nothing, and what is noted is one of the cases. -/
theorem examined_examine (s : Scan K) (observe : Observer K S) (b : Bracket K) (state : S)
    (t : Trace K) :
    ∃ u, s.examine observe.recorded b (state, t) =
        ((s.examine observe b state).1, (s.examine observe b state).2, t ++ u) ∧
      s.Examined b u (s.examine observe b state).1 := by
  unfold examine
  simp only [Observer.recorded]
  obtain ⟨answer, state⟩ := observe (.sampled b) state
  cases answer with
  | some action =>
    cases action with
    | stop => exact ⟨_, rfl, .stopped⟩
    | ignore => exact ⟨_, rfl, .skipped⟩
  | none =>
    generalize hclassify : s.classify b = classified
    obtain ⟨narrowed, i⟩ := classified
    by_cases hi : i.isNone = true
    · simp only [hi, if_true]
      exact ⟨_, rfl, .plain⟩
    · have h : s.Refines b (s.refine narrowed i) i :=
        ⟨narrowed, hclassify, fun hnone => hi (Interest.isNone_iff.2 hnone), rfl⟩
      simp only [hi, List.append_assoc, List.singleton_append]
      generalize s.refine narrowed i = p at h ⊢
      obtain ⟨answer, state⟩ := observe (.refined p i (s.isValid p)) state
      cases answer with
      | some action =>
        cases action with
        | stop => exact ⟨_, rfl, .stoppedAt h⟩
        | ignore => exact ⟨_, rfl, .skippedAt h⟩
      | none =>
        cases hp : s.isValid p with
        | true => exact ⟨_, rfl, .accepted h hp⟩
        | false => exact ⟨_, rfl, .rejected h hp⟩

/-- What an observer keeps when it is shown a bracket, and a refined point, it keeps while the
bracket is examined. -/
theorem examine_invariant (s : Scan K) (observe : Observer K S) {P : S → Prop} {b : Bracket K}
    (hsampled : ∀ state, P state → P (observe (.sampled b) state).2)
    (hrefined : ∀ p i valid state, P state → P (observe (.refined p i valid) state).2) {state : S}
    (h : P state) : P (s.examine observe b state).2 := by
  have hafter := hsampled state h
  unfold examine
  generalize observe (.sampled b) state = answered at hafter
  obtain ⟨answer, state⟩ := answered
  rcases answer with _ | _ | _
  · generalize s.classify b = classified
    obtain ⟨narrowed, i⟩ := classified
    dsimp only
    split
    · exact hafter
    · have hlast := hrefined (s.refine narrowed i) i (s.isValid (s.refine narrowed i)) state hafter
      generalize observe (.refined _ _ _) state = answered at hlast ⊢
      obtain ⟨answer, state⟩ := answered
      rcases answer with _ | _ | _
      · dsimp only
        split <;> exact hlast
      · exact hlast
      · exact hlast
  · exact hafter
  · exact hafter

/-! ## One bracket without an observer -/

/-- A bracket ends a scan that nobody observes if it is refined to a valid point. -/
theorem examine_silent (s : Scan K) (b : Bracket K) :
    (s.examine Observer.silent b ()).1 =
      if (s.classify b).2.isNone then none
      else if s.isValid (s.refine (s.classify b).1 (s.classify b).2) then
        some (s.settle (s.refine (s.classify b).1 (s.classify b).2) (s.classify b).2)
      else none := by
  unfold examine Observer.silent
  dsimp only
  split
  · rfl
  · split <;> rfl

/-- What a bracket leads to without an observer. -/
def shown (s : Scan K) (b : Bracket K) : Trace K :=
  let (narrowed, i) := s.classify b
  if i.isNone then [(.sampled b, none)]
  else
    let p := s.refine narrowed i
    [(.sampled b, none), (.refined p i (s.isValid p), none)]

theorem brackets_shown (s : Scan K) (b : Bracket K) : Trace.brackets (s.shown b) = [b] := by
  unfold shown
  dsimp only
  split <;> rfl

theorem examine_recorded (s : Scan K) (b : Bracket K) (t : Trace K) :
    s.examine Observer.silent.recorded b ((), t) =
      ((s.examine Observer.silent b ()).1, (), t ++ s.shown b) := by
  rw [examine_silent]
  unfold examine shown Observer.recorded Observer.silent
  dsimp only
  generalize s.classify b = classified
  obtain ⟨narrowed, i⟩ := classified
  dsimp only
  split
  · rfl
  · rw [List.append_assoc]
    cases s.isValid (s.refine narrowed i) <;> rfl

/-! ## The walk -/

/-- What is noted on a walk with a number of samples left, of which the last two are
given, and the cursor it ends with. -/
inductive Walked (s : Scan K) : Nat → Point K → Point K → Trace K → Cursor K → Prop where
  /-- There are no samples left. -/
  | spent (middle last : Point K) : Walked s 0 middle last [] s.cursor.exhaust
  /-- The goal is reached. -/
  | arrived {left : Nat} {middle last : Point K} (h : s.isUnderway last.x = false) :
      Walked s (left + 1) middle last [] s.cursor.exhaust
  /-- The next bracket ends the scan. -/
  | ended {left : Nat} {middle last : Point K} {t : Trace K} {c : Cursor K}
      (h : s.isUnderway last.x = true)
      (ht : s.Examined ⟨middle, last, s.following last.x⟩ t (some c)) :
      Walked s (left + 1) middle last t c
  /-- The scan goes on after the next bracket. -/
  | onward {left : Nat} {middle last : Point K} {t u : Trace K} {c : Cursor K}
      (h : s.isUnderway last.x = true)
      (ht : s.Examined ⟨middle, last, s.following last.x⟩ t none)
      (rest : Walked s left last (s.following last.x) u c) :
      Walked s (left + 1) middle last (t ++ u) c

theorem walked_advance (s : Scan K) (observe : Observer K S) (left : Nat) (middle last : Point K)
    (state : S) (t : Trace K) :
    ∃ u, s.advance observe.recorded left middle last (state, t) =
        ((s.advance observe left middle last state).1,
          (s.advance observe left middle last state).2, t ++ u) ∧
      s.Walked left middle last u (s.advance observe left middle last state).1 := by
  induction left generalizing middle last state t with
  | zero => exact ⟨[], by simp [advance], .spent middle last⟩
  | succ left ih =>
    rw [advance, advance]
    cases hunderway : s.isUnderway last.x with
    | false => exact ⟨[], by simp, .arrived hunderway⟩
    | true =>
      simp only [if_true]
      obtain ⟨u, heq, hu⟩ :=
        s.examined_examine observe ⟨middle, last, s.following last.x⟩ state t
      rw [heq]
      generalize s.examine observe ⟨middle, last, s.following last.x⟩ state = examined at hu ⊢
      obtain ⟨found, state⟩ := examined
      cases found with
      | some c => exact ⟨u, rfl, .ended hunderway hu⟩
      | none =>
        obtain ⟨rest, heq, hrest⟩ := ih last (s.following last.x) state (t ++ u)
        refine ⟨u ++ rest, ?_, .onward hunderway hu hrest⟩
        rw [← List.append_assoc]
        exact heq

/-- Recording a scan changes neither its outcome nor what the observer makes of it. -/
theorem run_recorded (s : Scan K) (observe : Observer K S) (state : S) :
    s.run observe.recorded (state, []) =
      ((s.run observe state).1, (s.run observe state).2, s.trace observe state) := by
  rw [trace, run, run]
  split
  · rfl
  · obtain ⟨u, heq, -⟩ := s.walked_advance observe (s.settings.maxSamples - 2)
      (s.sample s.cursor.position) (s.following s.cursor.position) state []
    exact heq ▸ rfl

/-- Every scan is a walk from the position of its cursor. -/
theorem walked_run (s : Scan K) (hs : s.cursor.isExhausted = false) (observe : Observer K S)
    (state : S) :
    s.Walked (s.settings.maxSamples - 2) (s.sample s.cursor.position)
      (s.following s.cursor.position) (s.trace observe state) (s.run observe state).1 := by
  obtain ⟨u, heq, hu⟩ := s.walked_advance observe (s.settings.maxSamples - 2)
    (s.sample s.cursor.position) (s.following s.cursor.position) state []
  have hnot : ¬ s.cursor.isExhausted = true := by simp [hs]
  rw [trace, run, run, if_neg hnot, if_neg hnot]
  exact heq ▸ hu

/-- A scan that finds something in its first bracket shows this bracket and its refined
point. -/
theorem trace_of_first_steps (s : Scan K) (hs : s.cursor.isExhausted = false)
    (hsamples : 3 ≤ s.settings.maxSamples) {x y z : K} (hx : s.cursor.position = x)
    (hy : s.cursor.nextX x s.cursor.goal = y) (hz : s.cursor.nextX y s.cursor.goal = z)
    (hunderway : s.isUnderway y = true) {i : Interest} {b : Bracket K}
    (hb : s.classify ⟨s.sample x, s.sample y, s.sample z⟩ = (b, i)) (hi : i.isNone = false)
    (hvalid : s.isValid (s.refine b i) = true) :
    s.trace Observer.silent () =
      [(.sampled ⟨s.sample x, s.sample y, s.sample z⟩, none),
        (.refined (s.refine b i) i true, none)] := by
  obtain ⟨n, hn⟩ : ∃ n, s.settings.maxSamples - 2 = n + 1 := ⟨s.settings.maxSamples - 3, by omega⟩
  subst hx hy hz
  have hexamine : s.examine Observer.silent.recorded (s.samplesFrom s.cursor.position) ((), []) =
      (some (s.settle (s.refine b i) i), (),
        [(.sampled (s.samplesFrom s.cursor.position), none),
          (.refined (s.refine b i) i true, none)]) := by
    have hb' : s.classify (s.samplesFrom s.cursor.position) = (b, i) := hb
    simp only [examine, Observer.recorded, Observer.silent, hb', hi, hvalid, Bool.false_eq_true,
      if_false, if_true, List.nil_append, List.cons_append]
  rw [trace, run, if_neg (by simp [hs]), hn, advance]
  dsimp only [samplesFrom] at hexamine
  simp only [sample, following, Point.sample_x] at hexamine hunderway ⊢
  simp only [hunderway, if_true, hexamine]

/-! ## Brackets -/

section

variable {s : Scan K} {b : Bracket K} {t u : Trace K} {found : Option (Cursor K)} {left : Nat}
  {middle last p : Point K} {i : Interest} {c : Cursor K}

theorem Examined.brackets_eq (h : s.Examined b t found) : Trace.brackets t = [b] := by
  cases h <;> rfl

/-- A walk shows no more brackets than there are samples left. -/
theorem Walked.length_brackets_le (h : s.Walked left middle last t c) :
    (Trace.brackets t).length ≤ left := by
  induction h with
  | spent | arrived => exact Nat.zero_le _
  | ended _ ht =>
    rw [ht.brackets_eq]
    exact Nat.succ_le_succ (Nat.zero_le _)
  | onward _ ht _ ih =>
    rw [Trace.brackets_append, ht.brackets_eq]
    exact Nat.succ_le_succ ih

/-! ## Refined points -/

/-- Every refined point of a trace directly follows the bracket that it was refined from,
to which the observer did not object, and is shown with its validity. -/
def Paired (s : Scan K) (t : Trace K) : Prop :=
  ∀ (k : Nat) (p : Point K) (i : Interest) (valid : Bool) (answer : Option Action),
    t[k]? = some (.refined p i valid, answer) →
      valid = s.isValid p ∧
        ∃ j b, k = j + 1 ∧ t[j]? = some (.sampled b, none) ∧ s.Refines b p i

theorem paired_nil (s : Scan K) : s.Paired [] := by
  intro k p i valid answer hk
  simp at hk

theorem paired_singleton (s : Scan K) (b : Bracket K) (answer : Option Action) :
    s.Paired [(.sampled b, answer)] := by
  intro k p i valid answer hk
  cases k with
  | zero => simp at hk
  | succ k => simp at hk

theorem paired_pair (h : s.Refines b p i) (answer : Option Action) :
    s.Paired [(.sampled b, none), (.refined p i (s.isValid p), answer)] := by
  intro k p' i' valid answer' hk
  match k with
  | 0 => simp at hk
  | 1 =>
    obtain ⟨⟨rfl, rfl, rfl⟩, rfl⟩ := by simpa using hk
    exact ⟨rfl, 0, b, rfl, rfl, h⟩
  | k + 2 => simp at hk

theorem Paired.append (ht : s.Paired t) (hu : s.Paired u) : s.Paired (t ++ u) := by
  intro k p i valid answer hk
  by_cases hlt : k < t.length
  · rw [List.getElem?_append_left hlt] at hk
    obtain ⟨hvalid, j, b, rfl, hj, h⟩ := ht k p i valid answer hk
    refine ⟨hvalid, j, b, rfl, ?_, h⟩
    rwa [List.getElem?_append_left (Nat.lt_of_succ_lt hlt)]
  · rw [List.getElem?_append_right (Nat.le_of_not_lt hlt)] at hk
    obtain ⟨hvalid, j, b, hkj, hj, h⟩ := hu _ p i valid answer hk
    refine ⟨hvalid, t.length + j, b, by omega, ?_, h⟩
    rwa [List.getElem?_append_right (Nat.le_add_right _ _), Nat.add_sub_cancel_left]

theorem Examined.paired (h : s.Examined b t found) : s.Paired t := by
  cases h with
  | stopped | skipped | plain => exact s.paired_singleton b _
  | stoppedAt h | skippedAt h => exact paired_pair h _
  | rejected h hp | accepted h hp =>
    rw [← hp]
    exact paired_pair h none

theorem Walked.paired (h : s.Walked left middle last t c) : s.Paired t := by
  induction h with
  | spent | arrived => exact s.paired_nil
  | ended _ ht => exact ht.paired
  | onward _ ht _ ih => exact ht.paired.append ih

/-! ## The last event -/

theorem Examined.not_endsOn (h : s.Examined b t none) (p : Point K) (i : Interest) :
    ¬ Trace.EndsOn t p i := by
  intro hends
  cases h with
  | skipped | plain | skippedAt | rejected => simp [Trace.EndsOn] at hends

/-- A bracket that ends the scan without a solution does not end it on a valid point. -/
theorem Examined.outcome (h : s.Examined b t (some c)) :
    (∃ p i, Trace.EndsOn t p i ∧ c = s.settle p i) ∨
      c = s.cursor.exhaust ∧ ∀ p i, ¬ Trace.EndsOn t p i := by
  cases h with
  | stopped | stoppedAt => exact .inr ⟨rfl, by simp [Trace.EndsOn]⟩
  | accepted h hp => exact .inl ⟨_, _, rfl, rfl⟩

/-- A walk that ends on a valid point settles there, and any other walk finds nothing. -/
theorem Walked.outcome (h : s.Walked left middle last t c) :
    (∃ p i, Trace.EndsOn t p i ∧ c = s.settle p i) ∨
      c = s.cursor.exhaust ∧ ∀ p i, ¬ Trace.EndsOn t p i := by
  induction h with
  | spent | arrived => exact .inr ⟨rfl, by simp [Trace.EndsOn]⟩
  | ended _ ht => exact ht.outcome
  | @onward _ _ _ t u _ _ ht _ ih =>
    -- the last event is that of the rest, unless nothing is noted there
    have hlast : ∀ p i, Trace.EndsOn (t ++ u) p i ↔ Trace.EndsOn u p i := by
      intro p i
      unfold Trace.EndsOn
      rw [List.getLast?_append]
      cases hu : u.getLast? with
      | none => simpa [Trace.EndsOn] using ht.not_endsOn p i
      | some event => rfl
    simpa only [hlast] using ih

/-! ## Stops -/

theorem Examined.exhaust_of_stop (h : s.Examined b t found) {event : Event K}
    (hstop : (event, some .stop) ∈ t) : found = some s.cursor.exhaust := by
  cases h with
  | stopped | stoppedAt => rfl
  | skipped | plain | skippedAt | rejected | accepted => simp at hstop

/-- Nothing is found after the observer has ended the scan. -/
theorem Walked.exhaust_of_stop (h : s.Walked left middle last t c) {event : Event K}
    (hstop : (event, some .stop) ∈ t) : c = s.cursor.exhaust := by
  induction h with
  | spent | arrived => rfl
  | ended _ ht => exact Option.some.inj (ht.exhaust_of_stop hstop)
  | onward _ ht _ ih =>
    rcases List.mem_append.1 hstop with hstop | hstop
    · cases ht.exhaust_of_stop hstop
    · exact ih hstop

/-! ## The last bracket -/

/-- A bracket that ends the scan on a point is settled on as it is refined. -/
theorem Examined.settles (h : s.Examined b t (some c)) (hc : c.isExhausted = false) :
    ∃ narrowed i, s.classify b = (narrowed, i) ∧ i ≠ .none ∧
      c = s.settle (s.refine narrowed i) i := by
  cases h with
  | stopped | stoppedAt => cases hc
  | accepted h hp =>
    obtain ⟨narrowed, hclassify, hi, rfl⟩ := h
    exact ⟨narrowed, _, hclassify, hi, rfl⟩

/-- A walk that finds something settles in the last bracket that it shows. -/
theorem Walked.settles (h : s.Walked left middle last t c) (hc : c.isExhausted = false) :
    ∃ b narrowed i, (Trace.brackets t).getLast? = some b ∧ s.classify b = (narrowed, i) ∧
      i ≠ .none ∧ c = s.settle (s.refine narrowed i) i := by
  induction h with
  | spent | arrived => cases hc
  | ended _ ht =>
    obtain ⟨narrowed, i, hsettles⟩ := ht.settles hc
    refine ⟨_, narrowed, i, ?_, hsettles⟩
    rw [ht.brackets_eq]
    rfl
  | onward _ ht _ ih =>
    obtain ⟨b, narrowed, i, hlast, hsettles⟩ := ih hc
    refine ⟨b, narrowed, i, ?_, hsettles⟩
    rw [Trace.brackets_append, List.getLast?_append, hlast]
    rfl

end

/-- A scan that finds something settles in the last bracket that it shows. -/
theorem run_settles (s : Scan K) (observe : Observer K S) (state : S)
    (hfound : (s.run observe state).1.isExhausted = false) :
    ∃ b narrowed i, (Trace.brackets (s.trace observe state)).getLast? = some b ∧
      s.classify b = (narrowed, i) ∧ i ≠ .none ∧
        (s.run observe state).1 = s.settle (s.refine narrowed i) i := by
  have hs : s.cursor.isExhausted = false := by
    cases hs : s.cursor.isExhausted with
    | false => rfl
    | true =>
      rw [s.run_of_isExhausted observe state hs, hs] at hfound
      cases hfound
  exact (s.walked_run hs observe state).settles hfound

/-! ## What is reported -/

/-- Whether the ordinate `y` is no worse a solution than the ordinate `refined`. -/
def NoWorse (i : Interest) (y refined : K) : Prop :=
  match i with
  | .root => (y == 0) = true ∨ (y == refined) = true
  | .localMinimum => y < refined ∨ (y == refined) = true
  | .localMaximum => refined < y ∨ (y == refined) = true
  | _ => (y == refined) = true

/-- The points that may be reported for a refined one. -/
inductive ReportedAs (s : Scan K) (p : Point K) (i : Interest) : Point K → Prop where
  /-- The refined point itself. -/
  | refined : ReportedAs s p i p
  /-- The sample at its neighbour on the grid, if it is no worse. -/
  | onGrid (hvalid : s.cursor.accepts (onGrid p.x) = true)
      (h : NoWorse i (s.f (onGrid p.x)) p.y) : ReportedAs s p i (s.sample (onGrid p.x))

theorem reportedAs_snapped (s : Scan K) (p : Point K) (i : Interest) :
    s.ReportedAs p i (s.snapped p i) := by
  rcases s.snapped_cases p i with heq | ⟨heq, hvalid, hbetter⟩
  · rw [heq]
    exact .refined
  · rw [heq]
    refine .onGrid hvalid ?_
    cases i <;> simpa [improves, NoWorse] using hbetter

end Scan

namespace Solver

/-- The trace of a search tells how the search ended.  Recording it changes nothing.  There
are at most two brackets fewer than samples; a refined point directly follows its bracket,
and is shown as valid when it is finite and the cursor accepts it.  Something is found
exactly when the trace ends with a valid point to which the observer did not object: then
that point or its neighbour on the grid is reported.  In all other cases, and whenever the
observer asked to stop, the cursor is exhausted. -/
theorem trace_law {K S : Type} [Precision K] (solver : Solver K) (c : Cursor K)
    (hc : c.isExhausted = false) (f : Evaluator K) (test : BracketTest)
    (refinement : Refinement) (observe : Observer K S) (state : S) :
    let s := solver.scan c f test refinement
    let t := s.trace observe state
    let c' := (solver.nextObserved c f test refinement observe state).1
    solver.nextObserved c f test refinement observe.recorded (state, []) =
        (c', (solver.nextObserved c f test refinement observe state).2, t) ∧
      (Trace.brackets t).length ≤ solver.settings.maxSamples - 2 ∧
      s.Paired t ∧
      (∀ p i valid answer, (.refined p i valid, answer) ∈ t →
        (valid = true ↔ Scalar.isFinite p.x = true ∧ c.accepts p.x = true)) ∧
      (c'.isExhausted = false ↔ ∃ p i, Trace.EndsOn t p i) ∧
      (∀ p i, Trace.EndsOn t p i → ∃ q, s.ReportedAs p i q ∧ c' = c.found q i) ∧
      (c'.isExhausted = true → c' = c.exhaust) ∧
      (∀ event, (event, some .stop) ∈ t → c' = c.exhaust) := by
  intro s t c'
  have hwalk : s.Walked (solver.settings.maxSamples - 2) (s.sample c.position)
      (s.following c.position) t c' := s.walked_run hc observe state
  refine ⟨s.run_recorded observe state, hwalk.length_brackets_le, hwalk.paired, ?_, ?_, ?_, ?_, ?_⟩
  · intro p i valid answer hmem
    obtain ⟨k, hk⟩ := List.mem_iff_getElem?.1 hmem
    obtain ⟨hvalid, -⟩ := hwalk.paired k p i valid answer hk
    rw [hvalid, Scan.isValid, Bool.and_eq_true]
    rfl
  · rcases hwalk.outcome with ⟨p, i, hends, hc'⟩ | ⟨hc', hnot⟩
    · rw [hc']
      exact ⟨fun _ => ⟨p, i, hends⟩, fun _ => rfl⟩
    · rw [hc']
      constructor
      · intro hfound
        cases hfound
      · rintro ⟨p, i, hends⟩
        exact absurd hends (hnot p i)
  · intro p i hends
    rcases hwalk.outcome with ⟨p', i', hends', hc'⟩ | ⟨-, hnot⟩
    · obtain ⟨rfl, rfl⟩ : p = p' ∧ i = i' := by
        simpa [Trace.EndsOn] using hends.symm.trans hends'
      exact ⟨s.snapped p i, s.reportedAs_snapped p i, hc'⟩
    · exact absurd hends (hnot p i)
  · intro hex
    rcases hwalk.outcome with ⟨p, i, -, hc'⟩ | ⟨hc', -⟩
    · rw [hc'] at hex
      cases hex
    · exact hc'
  · intro event hstop
    exact hwalk.exhaust_of_stop hstop

/-- The jump is found, so the trace of the search for it ends with the point that is
reported. -/
theorem trace_ends_on_jump :
    acrossJump.isExhausted = false ∧
      let solver := Solver.standard {}
      let t := jumpScan.trace Observer.silent ()
      ∃ p i q, Trace.EndsOn t p i ∧ jumpScan.ReportedAs p i q ∧
        (solver.nextObserved acrossJump jump.evaluate .evenOrOddRoot .compositeRoot
          Observer.silent ()).1 = acrossJump.found q i := by
  refine ⟨rfl, ?_⟩
  obtain ⟨-, -, -, -, hfound, hreported, -⟩ := trace_law (Solver.standard {}) acrossJump rfl
    jump.evaluate .evenOrOddRoot .compositeRoot Observer.silent ()
  obtain ⟨p, i, hends⟩ := hfound.1 (congrArg Cursor.isExhausted run_jumpScan)
  obtain ⟨q, hq, hc'⟩ := hreported p i hends
  exact ⟨p, i, q, hends, hq, hc'⟩

end Solver

end CurveSurvey

import CurveSurvey.Proofs.Coverage

/-!
# Observers that change nothing

An observer that only passes over what the scan would have passed over itself is shown what
the silent observer is shown, and the scan ends in the same way.

* `Scan.Harmless` lists the harmless answers.
* `Scan.examine_alike` is the comparison at one bracket: where the answers are harmless, each
  way through the examination leaves what the silent one leaves.
* `Scan.run_alike` follows two scans side by side and keeps the recorded events equal.
* `Solver.nextObserved_of_harmless` is the result.
-/

namespace CurveSurvey

namespace Trace

variable {K : Type}

/-- What an observer was shown, without its answers. -/
def events (t : Trace K) : List (Event K) := t.map Prod.fst

theorem events_append (t u : Trace K) : events (t ++ u) = events t ++ events u :=
  List.map_append

/-- The brackets are among the events. -/
theorem brackets_of_events {t u : Trace K} (h : events t = events u) : brackets t = brackets u := by
  have hfactor : ∀ v : Trace K,
      brackets v = (events v).filterMap fun event => bracket? (event, none) := by
    intro v
    rw [brackets, events, List.filterMap_map]
    refine List.filterMap_congr fun answered _ => ?_
    obtain ⟨event, answer⟩ := answered
    cases event <;> rfl
  rw [hfactor, hfactor, h]

end Trace

namespace Scan

variable {K S : Type} [Precision K]

/-- The answers that leave a scan as it is: an event with the answer to it. -/
inductive Harmless (s : Scan K) : Event K × Option Action → Prop where
  /-- The observer asks for nothing. -/
  | unanswered (event : Event K) : Harmless s (event, none)
  /-- It passes over a bracket that shows nothing, also when it was narrowed. -/
  | plain {b : Bracket K} (h : (s.classify b).2 = .none) : Harmless s (.sampled b, some .ignore)
  /-- It passes over a refined point that is not valid. -/
  | invalid (p : Point K) (i : Interest) : Harmless s (.refined p i false, some .ignore)

theorem not_harmless_stop {s : Scan K} (event : Event K) : ¬ s.Harmless (event, some .stop) := nofun

theorem Harmless.of_ignored {s : Scan K} {p : Point K} {i : Interest} {valid : Bool}
    (h : s.Harmless (.refined p i valid, some .ignore)) : valid = false := by
  cases h
  rfl

/-- Harmless answers to a bracket change neither the outcome nor the events. -/
theorem examine_alike (s : Scan K) (observe : Observer K S) (b : Bracket K) (state : S)
    (t : Trace K) :
    ∃ u, s.examine observe.recorded b (state, t) =
        ((s.examine observe b state).1, (s.examine observe b state).2, t ++ u) ∧
      ((∀ answered ∈ u, s.Harmless answered) →
        (s.examine observe b state).1 = (s.examine Observer.silent b ()).1 ∧
          Trace.events u = Trace.events (s.shown b)) := by
  rw [examine_silent, shown]
  unfold examine
  simp only [Observer.recorded]
  obtain ⟨answer, state⟩ := observe (.sampled b) state
  cases answer with
  | some action =>
    cases action with
    | stop =>
      refine ⟨_, rfl, fun h => ?_⟩
      exact absurd (h _ List.mem_cons_self) (not_harmless_stop _)
    | ignore =>
      refine ⟨_, rfl, fun h => ?_⟩
      cases h _ List.mem_cons_self with
      | plain hplain =>
        rw [hplain]
        exact ⟨rfl, rfl⟩
  | none =>
    generalize s.classify b = classified
    obtain ⟨narrowed, i⟩ := classified
    dsimp only
    cases hi : i.isNone with
    | true => exact ⟨_, rfl, fun _ => ⟨rfl, rfl⟩⟩
    | false =>
      generalize s.refine narrowed i = p
      simp only [Bool.false_eq_true, if_false, List.append_assoc]
      generalize observe (.refined p i (s.isValid p)) state = answered
      obtain ⟨answer, state⟩ := answered
      cases answer with
      | some action =>
        cases action with
        | stop =>
          refine ⟨_, rfl, fun h => ?_⟩
          exact absurd (h _ (List.mem_append_right _ List.mem_cons_self)) (not_harmless_stop _)
        | ignore =>
          refine ⟨_, rfl, fun h => ?_⟩
          have hinvalid := (h _ (List.mem_append_right _ List.mem_cons_self)).of_ignored
          simp only [hinvalid]
          exact ⟨rfl, rfl⟩
      | none =>
        cases s.isValid p with
        | true => exact ⟨_, rfl, fun _ => ⟨rfl, rfl⟩⟩
        | false => exact ⟨_, rfl, fun _ => ⟨rfl, rfl⟩⟩

/-- Two recorded scans have come to the same cursor, and were shown the same. -/
structure Alike (observed : Cursor K × S × Trace K) (silent : Cursor K × Unit × Trace K) :
    Prop where
  cursor : observed.1 = silent.1
  events : Trace.events observed.2.2 = Trace.events silent.2.2

/-- Two walks over the same samples stay together while the answers are harmless. -/
theorem advance_alike (s : Scan K) (observe : Observer K S) (left : Nat) (middle last : Point K)
    (state : S) {t u : Trace K} (hevents : Trace.events t = Trace.events u)
    (h : ∀ answered ∈ (s.advance observe.recorded left middle last (state, t)).2.2,
      s.Harmless answered) :
    Alike (s.advance observe.recorded left middle last (state, t))
      (s.advance Observer.silent.recorded left middle last ((), u)) := by
  induction left generalizing middle last state t u with
  | zero => exact ⟨rfl, hevents⟩
  | succ left ih =>
    rw [advance] at h ⊢
    rw [advance]
    cases hunderway : s.isUnderway last.x with
    | false => exact ⟨rfl, hevents⟩
    | true =>
      simp only [hunderway, if_true] at h ⊢
      obtain ⟨v, hexamine, hv⟩ :=
        s.examine_alike observe ⟨middle, last, s.following last.x⟩ state t
      rw [hexamine] at h ⊢
      rw [examine_recorded]
      generalize s.examine observe ⟨middle, last, s.following last.x⟩ state = examined at h hv ⊢
      obtain ⟨found, state⟩ := examined
      cases found with
      | some c =>
        obtain ⟨hfound, hshown⟩ := hv fun answered ha => h answered (List.mem_append_right t ha)
        rw [← hfound]
        refine ⟨rfl, ?_⟩
        rw [Trace.events_append, Trace.events_append, hevents, hshown]
      | none =>
        -- what the rest of the walk adds to the record leaves this bracket in it
        obtain ⟨rest, hadvance, -⟩ :=
          s.walked_advance observe left last (s.following last.x) state (t ++ v)
        obtain ⟨hfound, hshown⟩ := hv fun answered ha => h answered (by
          dsimp only
          rw [hadvance]
          exact List.mem_append_left _ (List.mem_append_right t ha))
        rw [← hfound]
        refine ih last (s.following last.x) state ?_ h
        rw [Trace.events_append, Trace.events_append, hevents, hshown]

/-- An observer whose answers are harmless changes nothing. -/
theorem run_alike (s : Scan K) (observe : Observer K S) (state : S)
    (h : ∀ answered ∈ s.trace observe state, s.Harmless answered) :
    (s.run observe state).1 = (s.run Observer.silent ()).1 ∧
      Trace.events (s.trace observe state) = Trace.events (s.trace Observer.silent ()) := by
  have hrecorded : Alike (s.run observe.recorded (state, []))
      (s.run Observer.silent.recorded ((), [])) := by
    rw [trace] at h
    rw [run] at h ⊢
    rw [run]
    split
    · exact ⟨rfl, rfl⟩
    · rename_i hexhausted
      rw [if_neg hexhausted] at h
      exact s.advance_alike observe _ _ _ state rfl h
  rw [run_recorded, run_recorded] at hrecorded
  exact ⟨hrecorded.cursor, hrecorded.events⟩

/-! ## Observers that are always harmless -/

section

variable {P : S → Prop}

theorem advance_invariant (s : Scan K) (observe : Observer K S)
    (keeps : ∀ event state, P state → P (observe event state).2)
    (left : Nat) (middle last : Point K) {state : S} (h : P state) :
    P (s.advance observe left middle last state).2 := by
  induction left generalizing middle last state with
  | zero => exact h
  | succ left ih =>
    rw [advance]
    split
    · have hexamine := s.examine_invariant observe
        (b := ⟨middle, last, s.following last.x⟩) (keeps _) (fun p i valid => keeps _) h
      dsimp only
      generalize s.examine observe ⟨middle, last, s.following last.x⟩ state = examined at hexamine ⊢
      obtain ⟨found, state⟩ := examined
      cases found with
      | some c => exact hexamine
      | none => exact ih last (s.following last.x) hexamine
    · exact h

/-- What the observer keeps at every event, it keeps through the scan. -/
theorem run_invariant (s : Scan K) (observe : Observer K S)
    (keeps : ∀ event state, P state → P (observe event state).2)
    (state : S) (h : P state) : P (s.run observe state).2 := by
  rw [run]
  split
  · exact h
  · exact s.advance_invariant observe keeps _ _ _ h

end

/-- An observer that is harmless in every state is harmless during the scan. -/
theorem harmless_trace (s : Scan K) (observe : Observer K S)
    (h : ∀ event state, s.Harmless (event, (observe event state).1)) (state : S) :
    ∀ answered ∈ s.trace observe state, s.Harmless answered := by
  refine s.run_invariant observe.recorded
    (P := fun record => ∀ answered ∈ record.2, s.Harmless answered) ?_ (state, []) nofun
  intro event record hrecord answered ha
  rcases List.mem_append.1 ha with ha | ha
  · exact hrecord answered ha
  · obtain rfl := List.mem_singleton.1 ha
    exact h event record.1

/-- The observer that passes over whatever it may, and counts how often it does. -/
def sparing (s : Scan K) : Observer K Nat
  | .sampled b, n => if (s.classify b).2.isNone then (some .ignore, n + 1) else (none, n)
  | .refined _ _ valid, n => if valid then (none, n) else (some .ignore, n + 1)

theorem harmless_sparing (s : Scan K) (event : Event K) (n : Nat) :
    s.Harmless (event, (s.sparing event n).1) := by
  cases event with
  | sampled b =>
    rw [sparing]
    split
    · rename_i hplain
      exact .plain (Interest.isNone_iff.1 hplain)
    · exact .unanswered _
  | refined p i valid =>
    cases valid with
    | true => exact .unanswered _
    | false => exact .invalid p i

end Scan

namespace Solver

variable {K S : Type} [Precision K]

/-- An observer that was shown a scan and gave only harmless answers changes nothing: the scan
ends where the unobserved one ends, and shows the same. -/
theorem nextObserved_of_harmless (solver : Solver K) (c : Cursor K) (f : Evaluator K)
    (test : BracketTest) (refinement : Refinement) (observe : Observer K S) (state : S)
    (h : ∀ answered ∈ (solver.scan c f test refinement).trace observe state,
      (solver.scan c f test refinement).Harmless answered) :
    let s := solver.scan c f test refinement
    (solver.nextObserved c f test refinement observe state).1 = solver.next c f test refinement ∧
      Trace.brackets (s.trace observe state) = Trace.brackets (s.trace Observer.silent ()) ∧
        Trace.events (s.trace observe state) = Trace.events (s.trace Observer.silent ()) := by
  intro s
  obtain ⟨hcursor, hevents⟩ := s.run_alike observe state h
  exact ⟨hcursor, Trace.brackets_of_events hevents, hevents⟩

/-- The plain scan is not changed by the observer that passes over its only bracket. -/
theorem nextObserved_sparing :
    let s := plainScan
    (∀ answered ∈ s.trace s.sparing 0, s.Harmless answered) ∧
      (s.run s.sparing 0).2 = 1 ∧
        (s.run s.sparing 0).1 = (s.run Observer.silent ()).1 ∧
          Trace.brackets (s.trace s.sparing 0) = Trace.brackets (s.trace Observer.silent ()) := by
  intro s
  have hharmless : ∀ answered ∈ s.trace s.sparing 0, s.Harmless answered :=
    s.harmless_trace s.sparing s.harmless_sparing 0
  obtain ⟨hcursor, hbrackets, -⟩ := nextObserved_of_harmless (Solver.standard {}) twoSteps
    (fun _ _ => 1) .oddRoot .compositeRoot s.sparing 0 hharmless
  refine ⟨hharmless, ?_, hcursor, hbrackets⟩
  rw [run_plainScan_observed]
  have hplain : (s.classify plainBracket).2.isNone = true := by decide +kernel
  rw [Scan.sparing, if_pos hplain]

end Solver

end CurveSurvey

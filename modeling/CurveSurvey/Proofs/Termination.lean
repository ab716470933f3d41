import CurveSurvey.Proofs.Room
import CurveSurvey.Solutions

/-!
# Searches come to an end

Every search that finds something leaves less room before the goal, so the searches from
a cursor whose ends are finite find something only as often as there is room, and the
loops over the roots of an operand end although nothing counts their rounds.

* `Solver.Runs` is the search for a root as a recursion without any bound, in which every
  loop over the roots of an operand ends within the room of its cursor.
* `Solver.runs_iff`: this recursion always ends, with what the bounded one computes.
* `Search.answer` is what a sequence of searches finds, and `Search.exists_answers` says
  how often it finds something.
* `Search.searches_terminate` is the result.
-/

namespace CurveSurvey

/-! ## The recursion without a bound -/

namespace Solver

variable {K : Type} [Precision K] [PlacedPrecision K]

mutual

/-- `Runs solver e c c'` says that the search for the next root of `e` comes to an end with
`c'`, when the loops over the roots of the operands are not bounded but each of them gets
by with the searches that its cursor affords. -/
inductive Runs (solver : Solver K) : Expression K → Cursor K → Cursor K → Prop
  /-- There is nothing to search. -/
  | stays {e : Expression K} {c : Cursor K} (hc : c.isExhausted = true) : Runs solver e c c
  /-- Every operand is asked, and the nearest root is taken. -/
  | anyOperand {e : Expression K} {c : Cursor K} (count : Expression K → ℕ)
      (root : Expression K → Option K) (hc : c.isExhausted = false)
      (hrule : e.shape.rootRule = .anyOperand)
      (hloop : ∀ o ∈ e.operands.take e.arity,
        Loops solver (solver.vanishes e) o c (count o) (root o))
      (hcount : ∀ o ∈ e.operands.take e.arity, c.Affords (count o)) :
      Runs solver e c (onRoot c (nearest? c.position ((e.operands.take e.arity).filterMap root)))
  /-- The first operand is asked. -/
  | firstOperand {e o : Expression K} {rest : List (Expression K)} {c : Cursor K} {count : ℕ}
      {root : Option K} (hc : c.isExhausted = false) (hrule : e.shape.rootRule = .firstOperand)
      (hoperands : e.operands = o :: rest)
      (hloop : Loops solver (solver.vanishes e) o c count root) (hcount : c.Affords count) :
      Runs solver e c (onRoot c root)
  /-- The first operand is missing. -/
  | noOperand {e : Expression K} {c : Cursor K} (hc : c.isExhausted = false)
      (hrule : e.shape.rootRule = .firstOperand) (hoperands : e.operands = []) :
      Runs solver e c c.exhaust
  /-- The operand is searched in place of the expression. -/
  | sameAsOperand {e o : Expression K} {rest : List (Expression K)} {c c' : Cursor K}
      (hc : c.isExhausted = false) (hrule : e.shape.rootRule = .sameAsOperand)
      (hoperands : e.operands = o :: rest) (hsearch : Runs solver o c c') : Runs solver e c c'
  /-- The expression is sampled. -/
  | sampled {e : Expression K} {c : Cursor K} (hc : c.isExhausted = false)
      (hrule : e.shape.rootRule = .unknown ∨
        e.shape.rootRule = .sameAsOperand ∧ e.operands = []) :
      Runs solver e c (solver.sampledRoot e.evaluate (e.isNull solver.context) c)

/-- `Loops solver isRoot o c n root` says that the loop over the roots of the operand `o`
comes to an end after `n` searches, with the first root at which `isRoot` holds. -/
inductive Loops (solver : Solver K) :
    (K → Bool) → Expression K → Cursor K → ℕ → Option K → Prop
  /-- The operand has no further root. -/
  | exhausted {isRoot : K → Bool} {o : Expression K} {c c' : Cursor K}
      (hsearch : Runs solver o c c') (hc' : c'.isExhausted = true) : Loops solver isRoot o c 1 none
  /-- A root of the operand is one of the whole expression. -/
  | found {isRoot : K → Bool} {o : Expression K} {c c' : Cursor K} (hsearch : Runs solver o c c')
      (hc' : c'.isExhausted = false) (hroot : isRoot c'.position = true) :
      Loops solver isRoot o c 1 (some c'.position)
  /-- A root of the operand is none of the whole expression, and the loop goes on. -/
  | onward {isRoot : K → Bool} {o : Expression K} {c c' : Cursor K} {n : ℕ} {root : Option K}
      (hsearch : Runs solver o c c') (hc' : c'.isExhausted = false)
      (hroot : isRoot c'.position = false) (hloop : Loops solver isRoot o c' n root) :
      Loops solver isRoot o c (n + 1) root

end

/-! ## One step of the recursion -/

section

variable {solver : Solver K} {e o : Expression K} {rest : List (Expression K)} {c c' : Cursor K}

theorem runs_of_isExhausted (hc : c.isExhausted = true) : Runs solver e c c' ↔ c' = c := by
  constructor
  · intro h
    cases h <;> simp_all
  · rintro rfl
    exact .stays hc

theorem runs_of_anyOperand (hc : c.isExhausted = false) (hrule : e.shape.rootRule = .anyOperand) :
    Runs solver e c c' ↔ ∃ root : Expression K → Option K,
      (∀ o ∈ e.operands.take e.arity,
        ∃ n, c.Affords n ∧ Loops solver (solver.vanishes e) o c n (root o)) ∧
      c' = onRoot c (nearest? c.position ((e.operands.take e.arity).filterMap root)) := by
  constructor
  · intro h
    cases h
    case anyOperand count root _ _ hloop hcount =>
      exact ⟨root, fun o ho => ⟨count o, hcount o ho, hloop o ho⟩, rfl⟩
    all_goals simp_all
  · rintro ⟨root, hloop, rfl⟩
    choose! count hcount using hloop
    exact .anyOperand count root hc hrule (fun o ho => (hcount o ho).2) fun o ho => (hcount o ho).1

theorem runs_of_firstOperand (hc : c.isExhausted = false)
    (hrule : e.shape.rootRule = .firstOperand) (hoperands : e.operands = o :: rest) :
    Runs solver e c c' ↔ ∃ root,
      (∃ n, c.Affords n ∧ Loops solver (solver.vanishes e) o c n root) ∧ c' = onRoot c root := by
  constructor
  · intro h
    cases h
    case firstOperand o' rest' n root _ hoperands' _ hcount hloop =>
      obtain ⟨rfl, -⟩ := List.cons_eq_cons.1 (hoperands.symm.trans hoperands')
      exact ⟨root, ⟨n, hcount, hloop⟩, rfl⟩
    all_goals simp_all
  · rintro ⟨root, ⟨n, hcount, hloop⟩, rfl⟩
    exact .firstOperand hc hrule hoperands hloop hcount

theorem runs_of_noOperand (hc : c.isExhausted = false)
    (hrule : e.shape.rootRule = .firstOperand) (hoperands : e.operands = []) :
    Runs solver e c c' ↔ c' = c.exhaust := by
  constructor
  · intro h
    cases h <;> simp_all
  · rintro rfl
    exact .noOperand hc hrule hoperands

theorem runs_of_sameAsOperand (hc : c.isExhausted = false)
    (hrule : e.shape.rootRule = .sameAsOperand) (hoperands : e.operands = o :: rest) :
    Runs solver e c c' ↔ Runs solver o c c' := by
  constructor
  · intro h
    cases h
    case sameAsOperand o' rest' _ hoperands' _ hsearch =>
      obtain ⟨rfl, -⟩ := List.cons_eq_cons.1 (hoperands.symm.trans hoperands')
      exact hsearch
    all_goals simp_all
  · exact .sameAsOperand hc hrule hoperands

theorem runs_of_sampled (hc : c.isExhausted = false)
    (hrule : e.shape.rootRule = .unknown ∨
      e.shape.rootRule = .sameAsOperand ∧ e.operands = []) :
    Runs solver e c c' ↔
      c' = solver.sampledRoot e.evaluate (e.isNull solver.context) c := by
  constructor
  · intro h
    cases h <;> simp_all
  · rintro rfl
    exact .sampled hc hrule

end

/-! ## One loop -/

section

variable {solver : Solver K} {o : Expression K} {isRoot : K → Bool} {c : Cursor K}

theorem affords_one (c : Cursor K) : c.Affords 1 := by
  have := c.room_nonneg
  simpa [Cursor.Affords] using this

/-- A loop comes to an end if the searches of the operand do. -/
theorem exists_loops
    (hruns : ∀ c : Cursor K, c.IsFinite → Runs solver o c (solver.rootSearch o c))
    (hc : c.IsFinite) : ∃ n root, c.Affords n ∧ Loops solver isRoot o c n root := by
  refine Cursor.induction_on_found
    (P := fun c => ∃ n root, c.Affords n ∧ Loops solver isRoot o c n root) (fun c hc ih => ?_) hc
  cases hex : (solver.rootSearch o c).isExhausted with
  | true => exact ⟨1, none, affords_one c, .exhausted (hruns c hc) hex⟩
  | false =>
    cases hroot : isRoot (solver.rootSearch o c).position with
    | true => exact ⟨1, _, affords_one c, .found (hruns c hc) hex hroot⟩
    | false =>
      obtain ⟨hfinite, hroom⟩ := Cursor.room_of_moves hc (solver.moves_rootSearch o c) hex
      obtain ⟨n, root, hn, hloop⟩ := ih _ hfinite hroom
      refine ⟨n + 1, root, ?_, .onward (hruns c hc) hex hroot hloop⟩
      unfold Cursor.Affords at *
      push_cast
      linarith

/-- A loop that comes to an end agrees with every bounded one that gets as far. -/
theorem Loops.firstVanishing_eq
    (hruns : ∀ c c' : Cursor K, c.IsFinite → Runs solver o c c' → c' = solver.rootSearch o c)
    {n : ℕ} {root : Option K} (hc : c.IsFinite) (h : Loops solver isRoot o c n root) {bound : ℕ}
    (hle : n ≤ bound) : firstVanishing isRoot (solver.rootSearch o) bound c = root := by
  induction n generalizing c bound with
  | zero => cases h
  | succ n ih =>
    obtain ⟨bound, rfl⟩ : ∃ k, bound = k + 1 := ⟨bound - 1, by omega⟩
    rw [firstVanishing]
    cases h with
    | exhausted hsearch hex =>
      rw [← hruns c _ hc hsearch, if_pos hex]
    | found hsearch hex hroot =>
      simp [← hruns c _ hc hsearch, hex, hroot]
    | onward hsearch hex hroot hloop =>
      obtain rfl := hruns c _ hc hsearch
      obtain ⟨hfinite, -⟩ := Cursor.room_of_moves hc (solver.moves_rootSearch o c) hex
      simpa [hex, hroot] using ih hfinite hloop (Nat.le_of_succ_le_succ hle)

variable [BoundedPrecision K]

/-- Nothing is gained by a larger bound on the number of searches. -/
theorem firstVanishing_stepBound_add (solver : Solver K) (o : Expression K) (isRoot : K → Bool)
    (c : Cursor K) (more : ℕ) :
    firstVanishing isRoot (solver.rootSearch o)
        (Precision.stepBound c.position c.goal + more) c =
      rootOfOperand isRoot c (solver.rootSearch o) := by
  have hlength := BoundedPrecision.length_le_stepBound
    (solver.approach_rootsFrom o c (Precision.stepBound c.position c.goal + more))
  rw [rootOfOperand, firstVanishing_eq_find?, firstVanishing_eq_find?,
    solver.rootsFrom_eq_take o c (Precision.stepBound c.position c.goal) more,
    List.take_of_length_le hlength]

/-- The unbounded loop comes to an end, and only with what the bounded one finds. -/
theorem loops_iff
    (hruns : ∀ c : Cursor K, c.IsFinite → ∀ c', Runs solver o c c' ↔ c' = solver.rootSearch o c)
    (hc : c.IsFinite) (root : Option K) :
    (∃ n, c.Affords n ∧ Loops solver isRoot o c n root) ↔
      root = rootOfOperand isRoot c (solver.rootSearch o) := by
  have hunique : ∀ {n root}, Loops solver isRoot o c n root →
      root = rootOfOperand isRoot c (solver.rootSearch o) := by
    intro n root hloop
    rw [← solver.firstVanishing_stepBound_add o isRoot c n]
    exact (hloop.firstVanishing_eq (fun c c' hc => (hruns c hc c').1) hc
      (Nat.le_add_left _ _)).symm
  constructor
  · rintro ⟨n, -, hloop⟩
    exact hunique hloop
  · rintro rfl
    obtain ⟨n, root, hn, hloop⟩ : ∃ n root, c.Affords n ∧ Loops solver isRoot o c n root :=
      exists_loops (fun c hc => (hruns c hc _).2 rfl) hc
    exact ⟨n, hn, hunique hloop ▸ hloop⟩

end

/-! ## The whole recursion -/

variable [BoundedPrecision K]

/-- The search without bounds comes to an end, and only with what the bounded one finds. -/
theorem runs_iff (solver : Solver K) (e : Expression K) :
    ∀ c : Cursor K, c.IsFinite → ∀ c', Runs solver e c c' ↔ c' = solver.rootSearch e c := by
  induction e using Expression.inductionOnOperands with
  | step e ih =>
    intro c hc c'
    have hloops : ∀ o ∈ e.operands, ∀ root,
        (∃ n, c.Affords n ∧ Loops solver (solver.vanishes e) o c n root) ↔
          root = rootOfOperand (solver.vanishes e) c (solver.rootSearch o) :=
      fun o ho => loops_iff (ih o ho) hc
    rw [rootSearch_eq]
    cases hex : c.isExhausted with
    | true => exact runs_of_isExhausted hex
    | false =>
      cases hrule : e.shape.rootRule with
      | anyOperand =>
        rw [runs_of_anyOperand hex hrule, ← List.map_take]
        show _ ↔ c' = onRoot c (nearest? c.position (((e.operands.take e.arity).map
          solver.rootSearch).filterMap (rootOfOperand (solver.vanishes e) c)))
        rw [List.filterMap_map]
        constructor
        · rintro ⟨root, hroot, rfl⟩
          have heq : ∀ o ∈ e.operands.take e.arity,
              root o = rootOfOperand (solver.vanishes e) c (solver.rootSearch o) := fun o ho =>
            (hloops o (List.mem_of_mem_take ho) _).1 (hroot o ho)
          rw [List.filterMap_congr heq]
          rfl
        · rintro rfl
          exact ⟨_, fun o ho => (hloops o (List.mem_of_mem_take ho) _).2 rfl, rfl⟩
      | firstOperand =>
        cases hoperands : e.operands with
        | nil => exact runs_of_noOperand hex hrule hoperands
        | cons o rest =>
          rw [runs_of_firstOperand hex hrule hoperands]
          simp only [hloops o (hoperands ▸ List.mem_cons_self), exists_eq_left]
          rfl
      | sameAsOperand =>
        cases hoperands : e.operands with
        | nil => exact runs_of_sampled hex (.inr ⟨hrule, hoperands⟩)
        | cons o rest =>
          rw [runs_of_sameAsOperand hex hrule hoperands]
          exact ih o (hoperands ▸ List.mem_cons_self) c hc c'
      | unknown => exact runs_of_sampled hex (.inl hrule)

end Solver

/-! ## Sequences of searches -/

namespace Search

variable {K : Type} [Precision K]

/-- A search from an exhausted cursor leaves it as it is. -/
theorem run_of_isExhausted (solver : Solver K) (search : Search K) {c : Cursor K}
    (h : c.isExhausted = true) : search.run solver c = c := by
  have hscan : ∀ {S : Type} (f : Evaluator K) (test : BracketTest) (refinement : Refinement)
      (observe : Observer K S) (state : S),
      (solver.nextObserved c f test refinement observe state).1 = c := fun f test refinement _ _ =>
    congrArg Prod.fst ((solver.scan c f test refinement).run_of_isExhausted _ _ h)
  have hintersection : ∀ e difference : Expression K,
      solver.nextIntersectionWith c e difference = c := by
    intro e difference
    rw [Solver.nextIntersectionWith, solver.nextRoot_of_isExhausted difference h]
    simp only [Cursor.interest_of_isExhausted h]
    rfl
  cases search with
  | observed f test refinement observe state => exact hscan f test refinement observe state
  | plain f test refinement => exact hscan f test refinement Observer.silent ()
  | root e => exact solver.nextRoot_of_isExhausted e h
  | minimum e => exact hscan e.evaluate .minimum .brentMinimum Observer.silent ()
  | maximum e => exact hscan e.evaluate .maximum .brentMaximum Observer.silent ()
  | intersection e₁ e₂ => exact hintersection e₁ (e₁.difference e₂)
  | intersectionWith e difference => exact hintersection e difference

/-- The cursor after a number of searches, each of which starts from the cursor that the
one before left. -/
def cursorAfter : Cursor K → (ℕ → Solver K × Search K) → ℕ → Cursor K
  | c, _, 0 => c
  | c, calls, k + 1 => cursorAfter ((calls 0).2.run (calls 0).1 c) (fun j => calls (j + 1)) k

theorem cursorAfter_of_isExhausted {c : Cursor K} (h : c.isExhausted = true)
    (calls : ℕ → Solver K × Search K) (k : ℕ) : cursorAfter c calls k = c := by
  induction k generalizing calls with
  | zero => rfl
  | succ k ih => rw [cursorAfter, run_of_isExhausted _ _ h, ih]

/-- The answers to a sequence of searches: what each of them found. -/
def answer (c : Cursor K) (calls : ℕ → Solver K × Search K) (k : ℕ) : Option (Landmark K) :=
  (cursorAfter c calls (k + 1)).landmark?

/-- The first solutions of a search are its first answers. -/
theorem length_solutions_eq (solver : Solver K) (search : Search K) {c : Cursor K} {N : ℕ}
    (h : ∀ k, (answer c (fun _ => (solver, search)) k).isSome = true ↔ k < N) (limit : ℕ) :
    (solutions (search.run solver) limit c).length = min limit N := by
  induction limit generalizing c N with
  | zero => simp [solutions]
  | succ limit ih =>
    have hfirst : ((search.run solver c).landmark?).isSome = true ↔ 0 < N := h 0
    rw [solutions]
    cases hanswer : (search.run solver c).landmark? with
    | none =>
      rw [hanswer] at hfirst
      obtain rfl : N = 0 := by simpa using hfirst
      simp
    | some p =>
      rw [hanswer] at hfirst
      obtain ⟨N, rfl⟩ : ∃ n, N = n + 1 := ⟨N - 1, by simp at hfirst; omega⟩
      have hrest : ∀ k, (answer (search.run solver c) (fun _ => (solver, search)) k).isSome = true ↔
          k < N := fun k => (h (k + 1)).trans Nat.add_lt_add_iff_right
      simp only [List.length_cons, ih hrest]
      omega

theorem isSome_landmark?_run [SteadyPrecision K] {solver : Solver K} {search : Search K}
    {c : Cursor K} :
    (search.run solver c).landmark?.isSome = true ↔ (search.run solver c).isExhausted = false := by
  cases hex : (search.run solver c).isExhausted with
  | true => simp [Cursor.landmark?_of_isExhausted hex]
  | false =>
    have hinterest := ((moves_run solver c search).finds hex).2.1
    rw [Cursor.isSome_landmark?, Bool.eq_false_iff.2 (mt Interest.isNone_iff.1 hinterest)]
    simp

variable [PlacedPrecision K]

/-- The searches of a sequence find something as long as there is room, and after the
first one that finds nothing none of them does. -/
theorem exists_answers {c : Cursor K} (hc : c.IsFinite) (calls : ℕ → Solver K × Search K) :
    ∃ N : ℕ, (N : ℝ) ≤ c.room ∧ ∀ k, (answer c calls k).isSome = true ↔ k < N := by
  refine Cursor.induction_on_found (P := fun c => ∀ calls, ∃ N : ℕ, (N : ℝ) ≤ c.room ∧
    ∀ k, (answer c calls k).isSome = true ↔ k < N) (fun c hc ih calls => ?_) hc calls
  cases hex : ((calls 0).2.run (calls 0).1 c).isExhausted with
  | true =>
    refine ⟨0, by simpa using c.room_nonneg, fun k => ?_⟩
    rw [answer, cursorAfter, cursorAfter_of_isExhausted hex, Cursor.landmark?_of_isExhausted hex]
    simp
  | false =>
    obtain ⟨hfinite, hroom⟩ := Cursor.room_of_moves hc (moves_run _ c _) hex
    obtain ⟨N, hN, hanswers⟩ := ih _ hfinite hroom fun j => calls (j + 1)
    refine ⟨N + 1, by push_cast; linarith, fun k => ?_⟩
    cases k with
    | zero => exact iff_of_true (isSome_landmark?_run.2 hex) N.succ_pos
    | succ k => exact (hanswers k).trans Nat.add_lt_add_iff_right.symm

variable [BoundedPrecision K]

/-- Searches from a cursor with finite ends come to an end.

* The search for a root, with no bound on any loop, always ends, and with what the bounded
  one computes; each loop makes at most one search more than there is room for.
* Every search that finds something goes more than a step of the grid ahead.
* Whichever searches are made one after the other, they find something a number of times
  that there is room for, and never again after that; so the solutions of a search are as
  many, however many are asked for. -/
theorem searches_terminate {c : Cursor K} (hc : c.IsFinite) :
    (∀ (solver : Solver K) (e : Expression K) (c' : Cursor K),
      solver.Runs e c c' ↔ c' = solver.nextRoot c e) ∧
    (∀ (solver : Solver K) (search : Search K), (search.run solver c).isExhausted = false →
      (search.run solver c).IsFinite ∧
        PlacedPrecision.place (Precision.gridStep : K) <
          |PlacedPrecision.place (search.run solver c).position -
            PlacedPrecision.place c.position|) ∧
    (∀ calls : ℕ → Solver K × Search K, ∃ N : ℕ, (N : ℝ) ≤ c.room ∧
      ∀ k, (answer c calls k).isSome = true ↔ k < N) ∧
    ∀ (solver : Solver K) (search : Search K), ∃ N : ℕ, (N : ℝ) ≤ c.room ∧
      ∀ limit, (solutions (search.run solver) limit c).length = min limit N := by
  refine ⟨fun solver e c' => solver.runs_iff e c hc c', ?_, exists_answers hc, ?_⟩
  · intro solver search hex
    have hmoves := moves_run solver c search
    obtain ⟨hx, hahead⟩ := Cursor.accepts_ahead hc (hmoves.finds hex).2.2
    refine ⟨⟨hx, hmoves.goal ▸ hc.2⟩, ?_⟩
    rcases hahead with ⟨hstep, -⟩ | ⟨hstep, -⟩
    · exact lt_of_lt_of_le (by linarith) (le_abs_self _)
    · exact lt_of_lt_of_le (by linarith) (neg_le_abs _)
  · intro solver search
    obtain ⟨N, hN, hanswers⟩ := exists_answers hc fun _ => (solver, search)
    exact ⟨N, hN, length_solutions_eq solver search hanswers⟩

/-- The search for the roots of a line through zero, asked again and again. -/
theorem line_search_terminates :
    let c := Cursor.new (-1 : Float32) 1
    let line : Search Float32 := .root (.plain fun _ x => x)
    c.IsFinite ∧ ∃ N : ℕ, (N : ℝ) ≤ c.room ∧
      ∀ limit, (solutions (line.run (Solver.standard {})) limit c).length = min limit N := by
  intro c line
  have hends : Scalar.isFinite (-1 : Float32) = true ∧ Scalar.isFinite (1 : Float32) = true := by
    decide +kernel
  have hc : c.IsFinite := hends
  exact ⟨hc, (searches_terminate hc).2.2.2 (Solver.standard {}) line⟩

end Search

end CurveSurvey

import CurveSurvey.Proofs.Machine
import CurveSurvey.Solver.Roots

/-!
# Progress of searches

What a search can make of a cursor, whichever function or expression it looks
at and whatever its observer asks for.

* `Progress.Stays`, `Progress.Ends` and `Progress.Finds` are the three ways a
  search can turn out, and `Progress.Moves` says that one of them is the case.
* `Scan.moves_run` is the law for one scan, and `Solver.moves_rootSearch` the one
  for the search that follows the structure of an expression.
* Acceptance is transitive (`Cursor.accepts_trans`), so a chain of searches goes
  strictly toward the goal by more than a minimal step at a time.
-/

namespace CurveSurvey

namespace Progress

variable {K : Type} [Precision K]

/-- The cursor was exhausted, and is left as it is. -/
def Stays (c c' : Cursor K) : Prop := c.isExhausted = true ∧ c' = c

/-- The search came to its end without a solution, where it began. -/
def Ends (c c' : Cursor K) : Prop :=
  c.isExhausted = false ∧ c'.isExhausted = true ∧ c'.position = c.position ∧
    c'.interest = .none ∧ Scalar.isNaN c'.ordinate = true

/-- The search found something at an abscissa that the cursor accepts. -/
def Finds (c c' : Cursor K) : Prop :=
  c'.isExhausted = false ∧ c'.interest ≠ .none ∧ c.accepts c'.position = true

/-- What every search keeps, and the three ways it can turn out. -/
structure Moves (c c' : Cursor K) : Prop where
  /-- The goal stays. -/
  goal : c'.goal = c.goal
  /-- The largest step stays. -/
  maximalStep : c'.maximalStep = c.maximalStep
  /-- The search had nothing to do, found nothing, or found something. -/
  outcome : Stays c c' ∨ Ends c c' ∨ Finds c c'

/-- No search can turn out in two ways. -/
theorem exclusive (c c' : Cursor K) :
    ¬ (Stays c c' ∧ Ends c c') ∧ ¬ (Stays c c' ∧ Finds c c') ∧ ¬ (Ends c c' ∧ Finds c c') := by
  refine ⟨?_, ?_, ?_⟩
  · rintro ⟨⟨h, -⟩, h', -⟩
    simp [h] at h'
  · rintro ⟨⟨h, rfl⟩, h', -⟩
    simp [h] at h'
  · rintro ⟨⟨-, h, -⟩, h', -⟩
    simp [h] at h'

theorem Moves.finds {c c' : Cursor K} (h : Moves c c') (h' : c'.isExhausted = false) :
    Finds c c' := by
  rcases h.outcome with ⟨hc, rfl⟩ | ⟨-, hc, -⟩ | h
  · simp [hc] at h'
  · simp [hc] at h'
  · exact h

theorem moves_self {c : Cursor K} (h : c.isExhausted = true) : Moves c c :=
  ⟨rfl, rfl, .inl ⟨h, rfl⟩⟩

theorem moves_found {c : Cursor K} {p : Point K} {i : Interest} (hi : i ≠ .none)
    (hp : c.accepts p.x = true) : Moves c (c.found p i) :=
  ⟨rfl, rfl, .inr (.inr ⟨rfl, hi, hp⟩)⟩

/-- A solution may be presented as something else. -/
theorem Moves.relabel {c c' : Cursor K} (h : Moves c c') (h' : c'.isExhausted = false)
    {i : Interest} (hi : i ≠ .none) (y : K) : Moves c (c'.relabel i y) :=
  ⟨h.goal, h.maximalStep, .inr (.inr ⟨rfl, hi, (h.finds h').2.2⟩)⟩

theorem moves_exhaust [OrderedScalar K] {c : Cursor K} (h : c.isExhausted = false) :
    Moves c c.exhaust :=
  ⟨rfl, rfl, .inr (.inl ⟨h, rfl, rfl, rfl, OrderedScalar.isNaN_nan⟩)⟩

end Progress

open Progress

/-! ## One scan -/

namespace Scan

variable {K S : Type} [Precision K]

/-- A point moved onto the grid is accepted as well. -/
theorem accepts_snapped (s : Scan K) {p : Point K} (h : s.cursor.accepts p.x = true)
    (i : Interest) : s.cursor.accepts (s.snapped p i).x = true := by
  unfold snapped
  dsimp only
  split
  · rename_i hx
    split
    · exact (Bool.and_eq_true _ _ ▸ hx).2
    · exact h
  · exact h

theorem moves_settle (s : Scan K) {p : Point K} (h : s.isValid p = true) {i : Interest}
    (hi : i ≠ .none) : Moves s.cursor (s.settle p i) := by
  have hp : s.cursor.accepts p.x = true := by
    simp only [isValid, Bool.and_eq_true] at h
    exact h.2
  exact moves_found hi (s.accepts_snapped hp i)

variable [OrderedScalar K]

/-- A bracket ends the scan either without a solution or on an accepted one. -/
theorem moves_examine (s : Scan K) (observe : Observer K S) (b : Bracket K) (state : S)
    (hs : s.cursor.isExhausted = false) {c : Cursor K}
    (h : (s.examine observe b state).1 = some c) : Moves s.cursor c := by
  unfold examine at h
  split at h
  · cases h
    exact moves_exhaust hs
  · cases h
  · dsimp only at h
    split at h
    · cases h
    · rename_i hi
      split at h
      · cases h
        exact moves_exhaust hs
      · cases h
      · split at h
        · rename_i hvalid
          cases h
          exact s.moves_settle hvalid fun hnone => hi (Interest.isNone_iff.2 hnone)
        · cases h

theorem moves_advance (s : Scan K) (observe : Observer K S) (hs : s.cursor.isExhausted = false)
    (left : Nat) (middle last : Point K) (state : S) :
    Moves s.cursor (s.advance observe left middle last state).1 := by
  induction left generalizing middle last state with
  | zero => exact moves_exhaust hs
  | succ left ih =>
    rw [advance]
    split
    · dsimp only
      split
      · rename_i h
        exact s.moves_examine observe _ state hs (congrArg Prod.fst h)
      · exact ih _ _ _
    · exact moves_exhaust hs

theorem moves_run (s : Scan K) (observe : Observer K S) (state : S) :
    Moves s.cursor (s.run observe state).1 := by
  rw [run]
  split
  · rename_i h
    exact moves_self h
  · rename_i h
    exact s.moves_advance observe (Bool.not_eq_true _ ▸ h) _ _ _ _

end Scan

/-! ## Acceptance -/

namespace Cursor

variable {K : Type} [Precision K] [SteadyPrecision K]

/-- What is accepted from an accepted abscissa is accepted from the start. -/
theorem accepts_trans {c c' : Cursor K} (hgoal : c'.goal = c.goal)
    (h : c.accepts c'.position = true) {x : K} (hx : c'.accepts x = true) :
    c.accepts x = true := by
  simp only [accepts, hgoal] at h hx ⊢
  by_cases hc : c.position < c.goal
  · simp only [hc, if_true, Bool.and_eq_true, decide_eq_true_eq] at h ⊢
    simp only [h.2, if_true, Bool.and_eq_true, decide_eq_true_eq] at hx
    exact ⟨Scalar.lt_trans h.1 (SteadyPrecision.lt_of_add_lt hx.1), hx.2⟩
  · simp only [hc, if_false, Bool.and_eq_true, decide_eq_true_eq] at h ⊢
    simp only [Scalar.lt_asymm h.1, if_false, Bool.and_eq_true, decide_eq_true_eq] at hx
    exact ⟨hx.1, Scalar.lt_trans (SteadyPrecision.lt_of_lt_sub hx.2) h.2⟩

end Cursor

/-! ## Roots -/

namespace Solver

variable {K : Type} [Precision K]

/-- The nearest candidate is one of them. -/
theorem mem_of_nearest? {position x : K} {candidates : List K}
    (h : nearest? position candidates = some x) : x ∈ candidates := by
  revert x
  unfold nearest?
  refine List.foldlRecOn (motive := fun best => ∀ {x}, best = some x → x ∈ candidates)
    candidates _ ?_ ?_
  · intro x hx
    cases hx
  · intro best hbest a ha x hx
    dsimp only at hx
    split at hx
    · cases hx
      exact ha
    · split at hx
      · cases hx
        exact ha
      · exact hbest hx

variable [SteadyPrecision K]

/-- Searching on from solution to solution ends on an accepted abscissa. -/
theorem accepts_firstVanishing {isRoot : K → Bool} {search : Cursor K → Cursor K}
    (hsearch : ∀ c, Moves c (search c)) {left : Nat} {c : Cursor K} {x : K}
    (h : firstVanishing isRoot search left c = some x) : c.accepts x = true := by
  induction left generalizing c with
  | zero => cases h
  | succ left ih =>
    rw [firstVanishing] at h
    split at h
    · cases h
    · rename_i hc
      have hfinds := (hsearch c).finds (Bool.not_eq_true _ ▸ hc)
      split at h
      · cases h
        exact hfinds.2.2
      · exact Cursor.accepts_trans (hsearch c).goal hfinds.2.2 (ih h)

theorem moves_onRoot {c : Cursor K} (hc : c.isExhausted = false) {root : Option K}
    (h : ∀ x, root = some x → c.accepts x = true) : Moves c (onRoot c root) := by
  cases root with
  | none => exact moves_exhaust hc
  | some x => exact moves_found nofun (h x rfl)

theorem moves_next (solver : Solver K) (c : Cursor K) (f : Evaluator K) (test : BracketTest)
    (refinement : Refinement) : Moves c (solver.next c f test refinement) :=
  (solver.scan c f test refinement).moves_run Observer.silent ()

theorem moves_sampledRoot (solver : Solver K) (f : Evaluator K) (isNull : Option Bool)
    {c : Cursor K} (hc : c.isExhausted = false) : Moves c (solver.sampledRoot f isNull c) := by
  rw [sampledRoot]
  split
  · exact moves_exhaust hc
  · have h := solver.moves_next c f .evenOrOddRoot .compositeRoot
    dsimp only
    split
    · exact h
    · rename_i hfound
      exact h.relabel (i := .root) (Bool.not_eq_true _ ▸ hfound) (by decide) _

theorem moves_rootSearch (solver : Solver K) (e : Expression K) :
    ∀ c : Cursor K, Moves c (solver.rootSearch e c) := by
  induction e using Expression.inductionOnOperands with
  | step e ih =>
    intro c
    have hops : ∀ search ∈ e.operands.map solver.rootSearch, ∀ c, Moves c (search c) := by
      intro search hmem
      obtain ⟨o, ho, rfl⟩ := List.mem_map.1 hmem
      exact ih o ho
    rw [rootSearch_eq]
    cases hc : c.isExhausted with
    | true => exact moves_self hc
    | false =>
      simp only [Bool.false_eq_true, if_false]
      split
      · refine moves_onRoot hc fun x hx => ?_
        obtain ⟨search, hmem, hroot⟩ := List.mem_filterMap.1 (mem_of_nearest? hx)
        exact accepts_firstVanishing (hops search (List.mem_of_mem_take hmem)) hroot
      · refine moves_onRoot hc fun x hx => ?_
        obtain ⟨search, hmem, hroot⟩ := Option.bind_eq_some_iff.1 hx
        exact accepts_firstVanishing (hops search (List.mem_of_mem_head? hmem)) hroot
      · split
        · rename_i o rest heq
          exact ih o (heq ▸ List.mem_cons_self) c
        · exact solver.moves_sampledRoot _ _ hc
      · exact solver.moves_sampledRoot _ _ hc

theorem moves_nextIntersectionWith (solver : Solver K) (c : Cursor K)
    (e difference : Expression K) : Moves c (solver.nextIntersectionWith c e difference) := by
  have h : Moves c (solver.nextRoot c difference) := solver.moves_rootSearch difference c
  unfold nextIntersectionWith
  dsimp only
  split
  · rename_i hroot
    refine h.relabel (i := .intersection) ?_ (by decide) _
    -- an exhausted cursor has no interest, so this one is not exhausted
    cases hex : (solver.nextRoot c difference).isExhausted with
    | false => rfl
    | true =>
      rw [Cursor.interest_of_isExhausted hex] at hroot
      cases hroot
  · exact h

end Solver

/-! ## Any search -/

/-- A call of a solver: which search is made, for what, and who watches it. -/
inductive Search (K : Type) where
  /-- A sampled function, shown to an observer in some state. -/
  | observed {S : Type} (f : Evaluator K) (test : BracketTest) (refinement : Refinement)
      (observe : Observer K S) (state : S)
  /-- A sampled function. -/
  | plain (f : Evaluator K) (test : BracketTest) (refinement : Refinement)
  /-- The root of an expression. -/
  | root (e : Expression K)
  /-- The minimum of an expression. -/
  | minimum (e : Expression K)
  /-- The maximum of an expression. -/
  | maximum (e : Expression K)
  /-- Where two expressions meet. -/
  | intersection (e₁ e₂ : Expression K)
  /-- Where an expression meets another one, of which the difference is given. -/
  | intersectionWith (e difference : Expression K)

namespace Search

/-- A new front element that is related to the old one is related to the whole list. -/
theorem pairwise_cons_cons {K : Type} {R : K → K → Prop}
    (htrans : ∀ x y z, R x y → R y z → R x z) {x y : K} {xs : List K} (h : R x y)
    (hxs : (y :: xs).Pairwise R) : (x :: y :: xs).Pairwise R := by
  refine List.Pairwise.cons (fun z hz => ?_) hxs
  rcases List.mem_cons.1 hz with rfl | hz
  · exact h
  · exact htrans x y z h (List.rel_of_pairwise_cons hxs hz)

variable {K : Type} [Precision K]

/-- The cursor after a search. -/
def run (solver : Solver K) (c : Cursor K) : Search K → Cursor K
  | observed f test refinement observe state =>
    (solver.nextObserved c f test refinement observe state).1
  | plain f test refinement => solver.next c f test refinement
  | root e => solver.nextRoot c e
  | minimum e => solver.nextMinimum c e
  | maximum e => solver.nextMaximum c e
  | intersection e₁ e₂ => solver.nextIntersection c e₁ e₂
  | intersectionWith e difference => solver.nextIntersectionWith c e difference

/-- The abscissae that a chain of searches reports, each of which starts from the
cursor that the one before left. -/
def reported : Cursor K → List (Solver K × Search K) → List K
  | _, [] => []
  | c, (solver, search) :: rest =>
    let c' := search.run solver c
    if c'.isExhausted then reported c' rest else c'.position :: reported c' rest

/-- A list of abscissae on the way from the position of a cursor to its goal: each
lies beyond a minimal step from the one before it, strictly farther than all of
them, and strictly before the goal. -/
def Approach (c : Cursor K) (xs : List K) : Prop :=
  if c.position < c.goal then
    (c.position :: xs).IsChain (fun x y => x + Precision.minimalStep x < y) ∧
      (c.position :: xs).Pairwise (fun x y => x < y) ∧ ∀ x ∈ xs, x < c.goal
  else
    (c.position :: xs).IsChain (fun x y => y < x - Precision.minimalStep x) ∧
      (c.position :: xs).Pairwise (fun x y => y < x) ∧ ∀ x ∈ xs, c.goal < x

variable [SteadyPrecision K]

theorem moves_run (solver : Solver K) (c : Cursor K) (search : Search K) :
    Moves c (search.run solver c) := by
  cases search with
  | observed f test refinement observe state =>
    exact (solver.scan c f test refinement).moves_run observe state
  | plain f test refinement => exact solver.moves_next c f test refinement
  | root e => exact solver.moves_rootSearch e c
  | minimum e => exact solver.moves_next c e.evaluate .minimum .brentMinimum
  | maximum e => exact solver.moves_next c e.evaluate .maximum .brentMaximum
  | intersection e₁ e₂ => exact solver.moves_nextIntersectionWith c e₁ (e₁.difference e₂)
  | intersectionWith e difference => exact solver.moves_nextIntersectionWith c e difference

/-- An accepted abscissa, and an approach that goes on from there, are an approach. -/
theorem approach_cons {c c' : Cursor K} (hgoal : c'.goal = c.goal)
    (h : c.accepts c'.position = true) {xs : List K} (hxs : Approach c' xs) :
    Approach c (c'.position :: xs) := by
  simp only [Cursor.accepts, Approach, hgoal] at *
  by_cases hc : c.position < c.goal
  · simp only [hc, if_true, Bool.and_eq_true, decide_eq_true_eq] at h ⊢
    simp only [h.2, if_true] at hxs
    obtain ⟨hchain, hpairs, hbefore⟩ := hxs
    have hlt := SteadyPrecision.lt_of_add_lt h.1
    refine ⟨List.isChain_cons_cons.2 ⟨h.1, hchain⟩,
      pairwise_cons_cons ?_ hlt hpairs, ?_⟩
    · intro _ _ _ hxy hyz
      exact Scalar.lt_trans hxy hyz
    · simpa using ⟨h.2, hbefore⟩
  · simp only [hc, if_false, Bool.and_eq_true, decide_eq_true_eq] at h ⊢
    simp only [Scalar.lt_asymm h.1, if_false] at hxs
    obtain ⟨hchain, hpairs, hbefore⟩ := hxs
    have hlt := SteadyPrecision.lt_of_lt_sub h.2
    refine ⟨List.isChain_cons_cons.2 ⟨h.2, hchain⟩,
      pairwise_cons_cons ?_ hlt hpairs, ?_⟩
    · intro _ _ _ hxy hyz
      exact Scalar.lt_trans hyz hxy
    · simpa using ⟨h.1, hbefore⟩

theorem approach_reported (calls : List (Solver K × Search K)) (c : Cursor K) :
    Approach c (reported c calls) := by
  induction calls generalizing c with
  | nil =>
    simp only [reported, Approach]
    split <;> simp
  | cons call rest ih =>
    obtain ⟨solver, search⟩ := call
    have hmoves := moves_run solver c search
    rw [reported]
    split
    · rename_i hex
      -- nothing was reported, and the next search starts where this one did
      have hpos : (search.run solver c).position = c.position := by
        rcases hmoves.outcome with ⟨-, hc⟩ | ⟨-, -, hpos, -⟩ | ⟨hc, -⟩
        · rw [hc]
        · exact hpos
        · rw [hex] at hc
          cases hc
      have := ih (search.run solver c)
      simpa only [Approach, hpos, hmoves.goal] using this
    · rename_i hex
      exact approach_cons hmoves.goal (hmoves.finds (Bool.not_eq_true _ ▸ hex)).2.2
        (ih (search.run solver c))

/-- Every search stays on an exhausted cursor, ends, or finds something that the
cursor accepts, and only one of these; so every chain of searches approaches the
goal. -/
theorem searches_progress (c : Cursor K) :
    (∀ (solver : Solver K) (search : Search K),
      let c' := search.run solver c
      c'.goal = c.goal ∧ c'.maximalStep = c.maximalStep ∧
        (Stays c c' ∨ Ends c c' ∨ Finds c c') ∧
        ¬ (Stays c c' ∧ Ends c c') ∧ ¬ (Stays c c' ∧ Finds c c') ∧ ¬ (Ends c c' ∧ Finds c c')) ∧
    ∀ calls : List (Solver K × Search K), Approach c (reported c calls) := by
  constructor
  · intro solver search
    have h := moves_run solver c search
    exact ⟨h.goal, h.maximalStep, h.outcome, exclusive c _⟩
  · intro calls
    exact approach_reported calls c

/-- The search for the root of a line from `-1` either ends or finds something. -/
theorem line_ends_or_finds :
    let c := Cursor.new (-1 : Float) 1
    let c' := (Search.root (.plain fun _ x => x)).run (Solver.standard {}) c
    c.isExhausted = false ∧ c'.goal = 1 ∧ (Ends c c' ∨ Finds c c') := by
  intro c c'
  obtain ⟨hgoal, -, houtcome, -⟩ :=
    (searches_progress c).1 (Solver.standard {}) (.root (.plain fun _ x => x))
  refine ⟨rfl, hgoal, houtcome.resolve_left ?_⟩
  rintro ⟨hex, -⟩
  cases hex

end Search

end CurveSurvey

import CurveSurvey.Proofs.Distance
import CurveSurvey.Proofs.Roots

/-!
# The nearest root

Where the roots of an expression are among those of its operands, the search reports
the nearest one at which the whole expression vanishes too.

* `Solver.rootsFrom` are the roots of an operand in the order in which a chain of
  searches reports them.  They lead away from the cursor, so the first one that passes
  the test is the nearest one of this operand (`Solver.rootOfOperand_some`).
* No chain of searches is longer than `Precision.stepBound`: this is
  `BoundedPrecision`, of which single and double precision are instances.
* `Solver.nearest_root` is the result.  It speaks of candidates only, so the order of
  the operands does not matter but for candidates at equal distance.
-/

namespace CurveSurvey

/-! ## The length of a walk -/

/-- A precision in which the bound on the length of a walk holds. -/
class BoundedPrecision (K : Type) [Precision K] : Prop where
  /-- A strictly monotone walk cannot have more points than there are numbers. -/
  length_le_stepBound : ∀ {c : Cursor K} {xs : List K}, Search.Approach c xs →
    xs.length ≤ Precision.stepBound c.position c.goal

theorem Search.Approach.nodup {K : Type} [Precision K] [OrderedScalar K] {c : Cursor K}
    {xs : List K} (h : Approach c xs) : xs.Nodup := by
  unfold Approach at h
  split at h
  · refine (List.pairwise_cons.1 h.2.1).2.imp ?_
    rintro x _ hlt rfl
    exact Scalar.lt_asymm hlt hlt
  · refine (List.pairwise_cons.1 h.2.1).2.imp ?_
    rintro x _ hlt rfl
    exact Scalar.lt_asymm hlt hlt

/-- A list without repetitions is no longer than the number of codes for its elements. -/
theorem length_le_of_nodup {K : Type} {n : ℕ} {xs : List K} (h : xs.Nodup) (code : K → Fin n)
    (hcode : Function.Injective code) : xs.length ≤ n := by
  have := (h.map hcode).length_le_card
  rwa [List.length_map, Fintype.card_fin] at this

instance : BoundedPrecision Float where
  length_le_stepBound h := by
    refine length_le_of_nodup h.nodup (fun t => t.toModel.toBits.toFin) ?_
    rintro ⟨⟨s, hs⟩⟩ ⟨⟨t, ht⟩⟩ hcode
    obtain rfl : s = t := UInt64.toFin_inj.1 hcode
    rfl

instance : BoundedPrecision Float32 where
  length_le_stepBound h := by
    refine length_le_of_nodup h.nodup (fun t => t.toModel.toBits.toFin) ?_
    rintro ⟨⟨s, hs⟩⟩ ⟨⟨t, ht⟩⟩ hcode
    obtain rfl : s = t := UInt32.toFin_inj.1 hcode
    rfl

/-! ## Distances along a walk -/

/-- The computed distance from the position of a cursor. -/
def Cursor.distance {K : Type} [Scalar K] (c : Cursor K) (x : K) : K :=
  Scalar.abs (x - c.position)

theorem Search.Approach.distance_le {K : Type} [Precision K] [DistanceOrdered K] {c : Cursor K}
    {xs : List K} (h : Approach c xs) :
    (∀ x ∈ xs, Scalar.isNaN (c.distance x) = false) ∧
      xs.Pairwise (fun x y => c.distance x ≤ c.distance y) := by
  unfold Approach at h
  split at h
  · obtain ⟨-, hpairs, hbefore⟩ := h
    obtain ⟨hpos, hxs⟩ := List.pairwise_cons.1 hpairs
    constructor
    · intro x hx
      exact (OrderedScalar.defined_of_le
        (DistanceOrdered.distance_le_of_lt (hpos x hx) (hbefore x hx))).1
    · refine hxs.imp_of_mem fun {x y} hx _ hlt => ?_
      exact DistanceOrdered.distance_le_of_lt (hpos x hx) hlt
  · obtain ⟨-, hpairs, hbefore⟩ := h
    obtain ⟨hpos, hxs⟩ := List.pairwise_cons.1 hpairs
    constructor
    · intro x hx
      exact (OrderedScalar.defined_of_le
        (DistanceOrdered.distance_le_of_gt (hpos x hx) (hbefore x hx))).1
    · refine hxs.imp_of_mem fun {x y} hx _ hlt => ?_
      exact DistanceOrdered.distance_le_of_gt (hpos x hx) hlt

/-- The first element that passes a test comes before all others that pass it. -/
theorem rel_of_find? {K : Type} {R : K → K → Prop} {p : K → Bool} {l : List K} {x : K}
    (h : l.find? p = some x) (hl : l.Pairwise R) (hx : R x x) {y : K} (hy : y ∈ l)
    (hp : p y = true) : R x y := by
  induction l with
  | nil => cases hy
  | cons a l ih =>
    rw [List.pairwise_cons] at hl
    cases ha : p a with
    | true =>
      obtain rfl : a = x := by simpa [ha] using h
      rcases List.mem_cons.1 hy with rfl | hy
      · exact hx
      · exact hl.1 y hy
    | false =>
      rw [List.find?_cons, ha] at h
      rcases List.mem_cons.1 hy with rfl | hy
      · rw [ha] at hp
        cases hp
      · exact ih h hl.2 hy

namespace Solver

variable {K : Type} [Precision K]

/-! ## The roots of an operand -/

/-- The roots of an expression in the order in which a number of searches reports them,
each of which starts from the one found before. -/
def rootsFrom (solver : Solver K) (o : Expression K) (c : Cursor K) (count : Nat) : List K :=
  Search.reported c (List.replicate count (solver, .root o))

theorem nextRoot_of_isExhausted (solver : Solver K) (o : Expression K) {c : Cursor K}
    (h : c.isExhausted = true) : solver.nextRoot c o = c := by
  rw [nextRoot, rootSearch_eq, if_pos h]

theorem rootsFrom_of_isExhausted (solver : Solver K) (o : Expression K) {c : Cursor K}
    (h : c.isExhausted = true) (count : Nat) : solver.rootsFrom o c count = [] := by
  induction count with
  | zero => rfl
  | succ count ih =>
    have hrun : (Search.root o).run solver c = c := solver.nextRoot_of_isExhausted o h
    rw [rootsFrom, List.replicate_succ, Search.reported, hrun, if_pos h]
    exact ih

theorem rootsFrom_succ (solver : Solver K) (o : Expression K) (c : Cursor K) (count : Nat) :
    solver.rootsFrom o c (count + 1) =
      if (solver.nextRoot c o).isExhausted then []
      else (solver.nextRoot c o).position :: solver.rootsFrom o (solver.nextRoot c o) count := by
  rw [rootsFrom, List.replicate_succ, Search.reported]
  show (if (solver.nextRoot c o).isExhausted then solver.rootsFrom o (solver.nextRoot c o) count
    else _) = _
  split
  · rename_i h
    exact solver.rootsFrom_of_isExhausted o h count
  · rfl

/-- The first root that passes a test, in terms of the list of roots. -/
theorem firstVanishing_eq_find? (solver : Solver K) (o : Expression K) (isRoot : K → Bool)
    (c : Cursor K) (count : Nat) :
    firstVanishing isRoot (solver.rootSearch o) count c =
      (solver.rootsFrom o c count).find? isRoot := by
  induction count generalizing c with
  | zero => rfl
  | succ count ih =>
    rw [rootsFrom_succ, firstVanishing]
    show (if (solver.nextRoot c o).isExhausted then none
      else if isRoot (solver.nextRoot c o).position then some (solver.nextRoot c o).position
      else firstVanishing isRoot (solver.rootSearch o) count (solver.nextRoot c o)) = _
    split
    · rfl
    · cases hroot : isRoot (solver.nextRoot c o).position with
      | true => simp [hroot]
      | false => simpa [hroot] using ih (solver.nextRoot c o)

/-- Fewer searches report the first ones of the same roots. -/
theorem rootsFrom_eq_take (solver : Solver K) (o : Expression K) (c : Cursor K)
    (count more : Nat) :
    solver.rootsFrom o c count = (solver.rootsFrom o c (count + more)).take count := by
  induction count generalizing c with
  | zero => rfl
  | succ count ih =>
    rw [Nat.add_right_comm, rootsFrom_succ, rootsFrom_succ]
    split
    · rfl
    · rw [List.take_succ_cons, ← ih]

variable [SteadyPrecision K]

/-- The roots lead from the position of the cursor to its goal. -/
theorem approach_rootsFrom (solver : Solver K) (o : Expression K) (c : Cursor K) (count : Nat) :
    Search.Approach c (solver.rootsFrom o c count) :=
  Search.approach_reported _ c

variable [BoundedPrecision K]

/-- No root is beyond the bound on the number of searches. -/
theorem mem_rootsFrom_stepBound {solver : Solver K} {o : Expression K} {c : Cursor K} {count : Nat}
    {x : K} (h : x ∈ solver.rootsFrom o c count) :
    x ∈ solver.rootsFrom o c (Precision.stepBound c.position c.goal) := by
  rcases Nat.le_total count (Precision.stepBound c.position c.goal) with hle | hge
  · obtain ⟨more, hmore⟩ := Nat.le.dest hle
    rw [solver.rootsFrom_eq_take o c count more, hmore] at h
    exact List.mem_of_mem_take h
  · obtain ⟨more, rfl⟩ := Nat.le.dest hge
    have hlength := BoundedPrecision.length_le_stepBound
      (solver.approach_rootsFrom o c (Precision.stepBound c.position c.goal + more))
    rwa [solver.rootsFrom_eq_take o c _ more, List.take_of_length_le hlength]

/-! ## The first root of an operand that the whole expression shares -/

/-- Whether the value of an expression counts as zero. -/
def vanishes (solver : Solver K) (e : Expression K) (x : K) : Bool :=
  Precision.isNull x (e.evaluate solver.context x)

/-- An abscissa that counts as a root of an expression: a chain of searches for the roots of
an operand `o` comes to it, and the whole expression vanishes there. -/
def RootThrough (solver : Solver K) (c : Cursor K) (e o : Expression K) (x : K) : Prop :=
  (∃ count, x ∈ solver.rootsFrom o c count) ∧ solver.vanishes e x = true

/-- Nothing is missed if an operand has no root that the whole expression shares. -/
theorem rootOfOperand_none {solver : Solver K} {c : Cursor K} {e o : Expression K}
    (h : rootOfOperand (solver.vanishes e) c (solver.rootSearch o) = none) (x : K) :
    ¬ solver.RootThrough c e o x := by
  rintro ⟨⟨count, hx⟩, hnull⟩
  rw [rootOfOperand, firstVanishing_eq_find?, List.find?_eq_none] at h
  exact h x (mem_rootsFrom_stepBound hx) hnull

/-- The first root of an operand that the whole expression shares is the nearest one. -/
theorem rootOfOperand_some [DistanceOrdered K] {solver : Solver K} {c : Cursor K}
    {e o : Expression K} {x : K}
    (h : rootOfOperand (solver.vanishes e) c (solver.rootSearch o) = some x) :
    solver.RootThrough c e o x ∧ Scalar.isNaN (c.distance x) = false ∧
      ∀ y, solver.RootThrough c e o y → c.distance x ≤ c.distance y := by
  rw [rootOfOperand, firstVanishing_eq_find?] at h
  have hmem := List.mem_of_find?_eq_some h
  obtain ⟨hdefined, hpairs⟩ := (solver.approach_rootsFrom o c _).distance_le
  have hx := hdefined x hmem
  refine ⟨⟨⟨_, hmem⟩, List.find?_some h⟩, hx, ?_⟩
  rintro y ⟨⟨count, hy⟩, hnull⟩
  exact rel_of_find? h hpairs (Scalar.le_refl_of_defined hx) (mem_rootsFrom_stepBound hy) hnull

/-! ## The nearest of several -/

section

variable {K : Type} [Precision K]

/-- One more candidate at the end is chosen if it is strictly nearer. -/
theorem nearest?_concat (position : K) (l : List K) (y : K) :
    nearest? position (l ++ [y]) =
      match nearest? position l with
      | none => some y
      | some b =>
        if Scalar.abs (y - position) < Scalar.abs (b - position) then some y else some b := by
  rw [nearest?, List.foldl_append]
  rfl

variable [OrderedScalar K]

/-- No candidate is nearer than the chosen one. -/
theorem nearest?_spec (c : Cursor K) {l : List K}
    (hl : ∀ x ∈ l, Scalar.isNaN (c.distance x) = false) :
    (nearest? c.position l = none → l = []) ∧
      ∀ x, nearest? c.position l = some x → ∀ y ∈ l, c.distance x ≤ c.distance y := by
  induction l using List.reverseRecOn with
  | nil => exact ⟨fun _ => rfl, nofun⟩
  | append_singleton l y ih =>
    have hy := hl y (by simp)
    obtain ⟨hnone, hsome⟩ := ih fun x hx => hl x (by simp [hx])
    rw [nearest?_concat]
    cases hbest : nearest? c.position l with
    | none =>
      obtain rfl := hnone hbest
      refine ⟨nofun, ?_⟩
      rintro x hx z hz
      obtain rfl : y = x := Option.some.inj hx
      obtain rfl : z = y := by simpa using hz
      exact Scalar.le_refl_of_defined hy
    | some b =>
      have hb := hl b (by simp [mem_of_nearest? hbest])
      dsimp only
      split
      · rename_i hlt
        refine ⟨nofun, ?_⟩
        intro x hx z hz
        obtain rfl : y = x := Option.some.inj hx
        rcases List.mem_append.1 hz with hz | hz
        · exact OrderedScalar.trans (Scalar.le_of_lt hlt) (hsome b hbest z hz)
        · obtain rfl : z = y := by simpa using hz
          exact Scalar.le_refl_of_defined hy
      · rename_i hlt
        refine ⟨nofun, ?_⟩
        intro x hx z hz
        obtain rfl : b = x := Option.some.inj hx
        rcases List.mem_append.1 hz with hz | hz
        · exact hsome b hbest z hz
        · obtain rfl : z = y := by simpa using hz
          exact Scalar.le_of_not_lt hb hy hlt

end

end Solver

namespace Expression

/-- The operands whose roots the search looks at, where it checks the whole expression: all
factors of a product, and the first operand otherwise. -/
def searched {K : Type} (e : Expression K) : List (Expression K) :=
  match e.shape.rootRule with
  | .anyOperand => e.operands.take e.arity
  | _ => e.operands.take 1

end Expression

namespace Solver

variable {K : Type} [Precision K]

/-- Where the whole expression is checked, the search takes the nearest of the roots of
the operands. -/
theorem nextRoot_eq_onRoot (solver : Solver K) {e : Expression K} (he : e.checksRoots)
    {c : Cursor K} (hc : c.isExhausted = false) :
    solver.nextRoot c e = onRoot c (nearest? c.position (e.searched.filterMap fun o =>
      rootOfOperand (solver.vanishes e) c (solver.rootSearch o))) := by
  rw [nextRoot, rootSearch_eq, if_neg (by simp [hc]), Expression.searched]
  rcases he with hrule | hrule
  · simp only [hrule]
    rw [← List.map_take, List.filterMap_map]
    rfl
  · simp only [hrule]
    cases e.operands with
    | nil => rfl
    | cons o rest =>
      simp only [List.map_cons, List.head?_cons, List.take_succ_cons, List.take_zero,
        Option.bind_some]
      show onRoot c (rootOfOperand (solver.vanishes e) c (solver.rootSearch o)) = _
      cases h : rootOfOperand (solver.vanishes e) c (solver.rootSearch o) with
      | none => simp [h, nearest?]
      | some x => simp [h, nearest?]

/-- An abscissa that counts as a root of an expression, through any of the operands that
are searched. -/
def Candidate (solver : Solver K) (c : Cursor K) (e : Expression K) (x : K) : Prop :=
  ∃ o ∈ e.searched, solver.RootThrough c e o x

/-- The candidates do not depend on the order of the operands. -/
theorem candidate_iff_of_perm (solver : Solver K) (c : Cursor K) {e e' : Expression K}
    (heval : ∀ x, e'.evaluate solver.context x = e.evaluate solver.context x)
    (hperm : e'.searched.Perm e.searched) (x : K) :
    solver.Candidate c e' x ↔ solver.Candidate c e x := by
  simp only [Candidate, RootThrough, vanishes, heval, hperm.mem_iff]

variable [SteadyPrecision K] [BoundedPrecision K] [DistanceOrdered K]

/-- The search moves the cursor onto the nearest candidate, or exhausts it if there is none. -/
theorem nextRoot_cases (solver : Solver K) {e : Expression K} (he : e.checksRoots)
    {c : Cursor K} (hc : c.isExhausted = false) :
    (∃ x, solver.Candidate c e x ∧ Scalar.isNaN (c.distance x) = false ∧
        (∀ y, solver.Candidate c e y → c.distance x ≤ c.distance y) ∧
        solver.nextRoot c e = c.found ⟨x, 0⟩ .root) ∨
      (∀ x, ¬ solver.Candidate c e x) ∧ solver.nextRoot c e = c.exhaust := by
  rw [solver.nextRoot_eq_onRoot he hc]
  generalize hroots : (e.searched.filterMap fun o =>
    rootOfOperand (solver.vanishes e) c (solver.rootSearch o)) = roots
  have hmem : ∀ x, x ∈ roots ↔ ∃ o ∈ e.searched,
      rootOfOperand (solver.vanishes e) c (solver.rootSearch o) = some x := by
    simp [← hroots]
  have hdefined : ∀ x ∈ roots, Scalar.isNaN (c.distance x) = false := by
    intro x hx
    obtain ⟨o, -, hroot⟩ := (hmem x).1 hx
    exact (rootOfOperand_some hroot).2.1
  obtain ⟨hnone, hsome⟩ := nearest?_spec c hdefined
  cases hnearest : nearest? c.position roots with
  | none =>
    refine .inr ⟨?_, rfl⟩
    rintro x ⟨o, ho, hx⟩
    cases hroot : rootOfOperand (solver.vanishes e) c (solver.rootSearch o) with
    | none => exact rootOfOperand_none hroot x hx
    | some y =>
      have hy := (hmem y).2 ⟨o, ho, hroot⟩
      rw [hnone hnearest] at hy
      cases hy
  | some x =>
    have hx := mem_of_nearest? hnearest
    obtain ⟨o, ho, hroot⟩ := (hmem x).1 hx
    refine .inl ⟨x, ⟨o, ho, (rootOfOperand_some hroot).1⟩, hdefined x hx, ?_, rfl⟩
    rintro y ⟨o', ho', hy⟩
    cases hroot' : rootOfOperand (solver.vanishes e) c (solver.rootSearch o') with
    | none => exact absurd hy (rootOfOperand_none hroot' y)
    | some z =>
      have hz := (hmem z).2 ⟨o', ho', hroot'⟩
      exact OrderedScalar.trans (hsome x hnearest z hz) ((rootOfOperand_some hroot').2.2 y hy)

/-- The nearest root.  Where the roots of an expression are among those of its operands, the
next root is found exactly when there is a candidate.  Then a candidate is reported as a
root with ordinate zero, and no candidate is nearer.  Otherwise the cursor is exhausted.
Another expression with the same values and the same operands in another order finds a
root exactly when this one does, and at an equal distance. -/
theorem nearest_root (solver : Solver K) (e : Expression K) (he : e.checksRoots) (c : Cursor K)
    (hc : c.isExhausted = false) :
    let c' := solver.nextRoot c e
    (c'.isExhausted = false ↔ ∃ x, solver.Candidate c e x) ∧
      (c'.isExhausted = false →
        c' = c.found ⟨c'.position, 0⟩ .root ∧ c'.interest = .root ∧ c'.ordinate = 0 ∧
          solver.Candidate c e c'.position ∧
            ∀ y, solver.Candidate c e y → c.distance c'.position ≤ c.distance y) ∧
      (c'.isExhausted = true → c' = c.exhaust) ∧
      ∀ e' : Expression K, e'.checksRoots →
        (∀ x, e'.evaluate solver.context x = e.evaluate solver.context x) →
          e'.searched.Perm e.searched →
            (solver.nextRoot c e').isExhausted = c'.isExhausted ∧
              (c'.isExhausted = false →
                (c.distance (solver.nextRoot c e').position == c.distance c'.position) = true) := by
  intro c'
  have hcases := solver.nextRoot_cases he hc
  refine ⟨?_, ?_, ?_, ?_⟩
  · rcases hcases with ⟨x, hx, -, -, heq⟩ | ⟨hnone, heq⟩
    · exact iff_of_true (congrArg Cursor.isExhausted heq) ⟨x, hx⟩
    · refine iff_of_false ?_ fun ⟨x, hx⟩ => hnone x hx
      rw [show c' = c.exhaust from heq]
      nofun
  · intro hfound
    rcases hcases with ⟨x, hx, -, hnearest, heq⟩ | ⟨-, heq⟩
    · rw [show c' = c.found ⟨x, 0⟩ .root from heq]
      refine ⟨rfl, rfl, ?_, hx, hnearest⟩
      simp [Cursor.found, Cursor.ordinate]
    · rw [show c' = c.exhaust from heq] at hfound
      cases hfound
  · intro hexhausted
    rcases hcases with ⟨x, -, -, -, heq⟩ | ⟨-, heq⟩
    · rw [show c' = c.found ⟨x, 0⟩ .root from heq] at hexhausted
      cases hexhausted
    · exact heq
  · intro e' he' heval hperm
    have hiff := solver.candidate_iff_of_perm c heval hperm
    rcases hcases with ⟨x, hx, -, hnearest, heq⟩ | ⟨hnone, heq⟩
    · rcases solver.nextRoot_cases he' hc with ⟨x', hx', -, hnearest', heq'⟩ | ⟨hnone', -⟩
      · rw [show c' = c.found ⟨x, 0⟩ .root from heq, heq']
        refine ⟨rfl, fun _ => OrderedScalar.beq_iff.2 ⟨?_, ?_⟩⟩
        · exact hnearest' x ((hiff x).2 hx)
        · exact hnearest x' ((hiff x').1 hx')
      · exact absurd ((hiff x).2 hx) (hnone' x)
    · rcases solver.nextRoot_cases he' hc with ⟨x', hx', -⟩ | ⟨-, heq'⟩
      · exact absurd ((hiff x').1 hx') (hnone x')
      · rw [show c' = c.exhaust from heq, heq']
        exact ⟨rfl, nofun⟩

/-- The product of the jump and zero. -/
def jumpTimesZero : Expression Float :=
  { evaluate := fun context x => jump.evaluate context x * 0
    isNull := fun _ => none
    shape := .product
    arity := 2
    operands := [jump, .plain fun _ _ => 0] }

/-- The jump is a candidate, so the search for the root of the product finds the nearest one. -/
theorem nearest_root_of_product :
    jumpTimesZero.checksRoots ∧ acrossJump.isExhausted = false ∧
      let solver := Solver.standard {}
      let c' := solver.nextRoot acrossJump jumpTimesZero
      c'.interest = .root ∧ c'.ordinate = 0 ∧
        ∀ y, solver.Candidate acrossJump jumpTimesZero y →
          acrossJump.distance c'.position ≤ acrossJump.distance y := by
  refine ⟨.inl rfl, rfl, ?_⟩
  obtain ⟨hfound, hnearest, -⟩ :=
    nearest_root (Solver.standard {}) jumpTimesZero (.inl rfl) acrossJump rfl
  obtain ⟨q, hnext, -, hy, hx⟩ := nextRoot_jump
  have hroots : q.x ∈ (Solver.standard {}).rootsFrom jump acrossJump 1 := by
    rw [rootsFrom_succ, hnext]
    exact List.mem_cons_self
  have hvanishes : (Solver.standard {}).vanishes jumpTimesZero q.x = true := by
    show Precision.isNull q.x (jump.evaluate {} q.x * 0) = true
    rw [hy, Precision.isNull, Precision.nullTolerance, Scalar.larger, (Scalar.defined_of_lt hx).1]
    simp only [hx, Bool.false_eq_true, if_false, if_true]
    decide +kernel
  have hcandidate : (Solver.standard {}).Candidate acrossJump jumpTimesZero q.x :=
    ⟨jump, List.mem_cons_self, ⟨1, hroots⟩, hvanishes⟩
  obtain ⟨-, hinterest, hordinate, -, hall⟩ := hnearest (hfound.2 ⟨q.x, hcandidate⟩)
  exact ⟨hinterest, hordinate, hall⟩

end Solver

end CurveSurvey

import CurveSurvey.Proofs.Landmarks
import CurveSurvey.Proofs.Numeric

/-!
# Jumping between landmarks

A reader who jumps on and on from one end of an interval sees every abscissa of the landmarks in
it, and sees the same ones backward from the other end.

* `Landmarks.Shows`: what is seen by jumping until nothing is left.
* `Landmarks.Heading` is the direction of a walk.  All lemmas are for either direction, but for
  `Landmarks.IsForemost.concat_right` and `Landmarks.IsForemost.concat_left`: of the points that
  share an abscissa, both directions take the one they come to first.
* `Landmarks.finds_firstToward` is one jump.
* `Landmarks.exists_shows` is a whole walk: it ends, since every jump leaves fewer points ahead.
* `Landmarks.jumps_agree` puts the walks in the two directions together.
-/

namespace CurveSurvey

theorem Scalar.beq_or_lt_of_le {K : Type} [Scalar K] [OrderedScalar K] {s t : K} (h : s ≤ t) :
    (s == t) = true ∨ s < t := by
  by_cases hge : t ≤ s
  · exact .inl (OrderedScalar.beq_iff.2 ⟨h, hge⟩)
  · exact .inr (OrderedScalar.lt_iff.2 ⟨h, hge⟩)

namespace Landmarks

variable {K : Type}

/-! ## Walks -/

/-- Jumping on and on from an abscissa shows the points of a list, and then nothing more. -/
inductive Shows (jump : K → Option (Landmark K)) : K → List (Landmark K) → Prop where
  /-- Nothing is ahead. -/
  | done {x : K} (h : jump x = none) : Shows jump x []
  /-- The next jump starts from the point that was found. -/
  | next {x : K} {p : Landmark K} {ps : List (Landmark K)} (h : jump x = some p)
      (rest : Shows jump p.x ps) : Shows jump x (p :: ps)

theorem Shows.unique {jump : K → Option (Landmark K)} {x : K} {ps qs : List (Landmark K)}
    (hp : Shows jump x ps) (hq : Shows jump x qs) : ps = qs := by
  induction hp generalizing qs with
  | done h =>
    cases hq with
    | done => rfl
    | next h' => simp [h] at h'
  | next h rest ih =>
    cases hq with
    | done h' => simp [h] at h'
    | next h' rest' =>
      obtain rfl := Option.some.inj (h.symm.trans h')
      rw [ih rest']

variable [Scalar K]

/-- What a jump from `x` may find among the points of a list: none if none is ahead, otherwise
one that is ahead of `x` and behind all others ahead, up to those at its own abscissa. -/
def Finds (Ahead : K → K → Prop) (l : List (Landmark K)) (x : K) : Option (Landmark K) → Prop
  | none => ∀ q ∈ l, ¬ Ahead x q.x
  | some p => p ∈ l ∧ Ahead x p.x ∧ ∀ q ∈ l, Ahead x q.x → (p.x == q.x) = true ∨ Ahead p.x q.x

/-- A walk whose jumps find what is ahead ends, goes in one direction, and meets every abscissa
ahead of its start. -/
theorem exists_shows (Ahead : K → K → Prop) (Stands : K → Prop)
    (htrans : ∀ x y z, Ahead x y → Ahead y z → Ahead x z) (hirrefl : ∀ x, ¬ Ahead x x)
    {l : List (Landmark K)} {jump : K → Option (Landmark K)}
    (hjump : ∀ x, Stands x → Finds Ahead l x (jump x)) (hstands : ∀ p ∈ l, Stands p.x) {x : K}
    (hx : Stands x) :
    ∃ ps, Shows jump x ps ∧ (x :: ps.map Landmark.x).Pairwise Ahead ∧
      (∀ p ∈ ps, ∃ y, Stands y ∧ jump y = some p) ∧
      ∀ q ∈ l, Ahead x q.x → ∃ p ∈ ps, (p.x == q.x) = true := by
  classical
  -- the induction is on how many points are ahead
  induction hn : (l.filter fun q => decide (Ahead x q.x)).length using Nat.strong_induction_on
    generalizing x with
  | _ n ih =>
    have hfinds := hjump x hx
    cases hp : jump x with
    | none =>
      rw [hp] at hfinds
      exact ⟨[], .done hp, List.pairwise_singleton _ x, List.forall_mem_nil _,
        fun q hq hahead => absurd hahead (hfinds q hq)⟩
    | some p =>
      rw [hp] at hfinds
      obtain ⟨hmem, hahead, hbehind⟩ := hfinds
      have hfewer : (l.filter fun q => decide (Ahead p.x q.x)).length < n := by
        have hagain : (l.filter fun q => decide (Ahead p.x q.x)) =
            (l.filter fun q => decide (Ahead x q.x)).filter fun q => decide (Ahead p.x q.x) := by
          rw [List.filter_filter]
          refine List.filter_congr fun q _ => ?_
          rw [← Bool.decide_and, decide_eq_decide]
          exact ⟨fun h => ⟨h, htrans _ _ _ hahead h⟩, And.left⟩
        rw [hagain, ← hn]
        exact List.length_filter_lt_length_iff_exists.2
          ⟨p, List.mem_filter.2 ⟨hmem, decide_eq_true hahead⟩, by simp [hirrefl]⟩
      obtain ⟨ps, hshows, hpairs, hfrom, hall⟩ := ih _ hfewer (hstands p hmem) rfl
      refine ⟨p :: ps, .next hp hshows, ?_, List.forall_mem_cons.2 ⟨⟨x, hx, hp⟩, hfrom⟩, ?_⟩
      · refine List.pairwise_cons.2 ⟨List.forall_mem_cons.2 ⟨hahead, fun y hy => ?_⟩, hpairs⟩
        exact htrans _ _ _ hahead (List.rel_of_pairwise_cons hpairs hy)
      · intro q hq hq'
        rcases hbehind q hq hq' with hsame | hbeyond
        · exact ⟨p, List.mem_cons_self, hsame⟩
        · obtain ⟨r, hr, hsame⟩ := hall q hq hbeyond
          exact ⟨r, List.mem_cons_of_mem p hr, hsame⟩

/-! ## Directions -/

/-- The points of a list that lie strictly between two abscissae. -/
def strictlyBetween (lower upper : K) (l : List (Landmark K)) : List (Landmark K) :=
  l.filter fun p => decide (lower < p.x) && decide (p.x < upper)

/-- The points of a list that lie at one abscissa. -/
def standingAt (x : K) (l : List (Landmark K)) : List (Landmark K) := l.filter fun p => p.x == x

/-- The direction of a walk. -/
inductive Heading where
  /-- Toward greater abscissae. -/
  | right
  /-- Toward smaller abscissae. -/
  | left

namespace Heading

/-- An abscissa is ahead of another one. -/
def Ahead : Heading → K → K → Prop
  | right, x, y => x < y
  | left, x, y => y < x

/-- An abscissa is not behind another one. -/
def Along : Heading → K → K → Prop
  | right, x, y => x ≤ y
  | left, x, y => y ≤ x

/-- The end of an interval at which a walk starts. -/
def origin : Heading → K → K → K
  | right, lower, _ => lower
  | left, _, upper => upper

/-- The end of an interval that a walk goes to. -/
def goal : Heading → K → K → K
  | right, _, upper => upper
  | left, lower, _ => lower

/-- Where a walk between two ends can stand.  From an abscissa that is also the goal, the next jump
is to the right. -/
def Stands : Heading → K → K → K → Prop
  | right, lower, upper, x => lower ≤ x ∧ x ≤ upper
  | left, lower, upper, x => lower < x ∧ x ≤ upper

/-- The points between an abscissa and the goal. -/
def rest : Heading → K → K → K → List (Landmark K) → List (Landmark K)
  | right, _, upper, x, l => strictlyBetween x upper l
  | left, lower, _, x, l => strictlyBetween lower x l

/-- The point of a list that a jump takes. -/
def foremost? : Heading → List (Landmark K) → Option (Landmark K)
  | right, l => leftmost? l
  | left, l => rightmost? l

/-- Of two points, the second of which is later in a list, the one that a jump takes. -/
def better : Heading → Landmark K → Landmark K → Landmark K
  | right, p, q => if q.x < p.x then q else p
  | left, p, q => if q.x < p.x then p else q

/-- The point of a list that a walk in this direction comes to first. -/
def first? : Heading → List (Landmark K) → Option (Landmark K)
  | right, l => l.head?
  | left, l => l.getLast?

end Heading

variable {lower upper x : K} {l : List (Landmark K)} {p q : Landmark K} {d : Heading}

theorem mem_strictlyBetween : p ∈ strictlyBetween lower upper l ↔
    p ∈ l ∧ lower < p.x ∧ p.x < upper := by
  simp [strictlyBetween]

theorem standingAt_concat (x : K) (l : List (Landmark K)) (q : Landmark K) :
    standingAt x (l ++ [q]) = standingAt x l ++ if q.x == x then [q] else [] := by
  rw [standingAt, List.filter_append, List.filter_singleton, Bool.cond_eq_ite]
  rfl

theorem foremost?_concat (d : Heading) (l : List (Landmark K)) (q : Landmark K) :
    d.foremost? (l ++ [q]) = some ((d.foremost? l).elim q fun p => d.better p q) := by
  cases d with
  | right => cases l <;> simp [Heading.foremost?, Heading.better, leftmost?, List.foldl_append]
  | left => cases l <;> simp [Heading.foremost?, Heading.better, rightmost?, List.foldl_append]

theorem foremost?_eq_none_iff : d.foremost? l = none ↔ l = [] := by
  cases d with
  | right => cases l <;> simp [Heading.foremost?, leftmost?]
  | left => cases l <;> simp [Heading.foremost?, rightmost?]

/-- No point of a list is behind this one, and of those that share its abscissa it is the first
that a walk comes to. -/
structure IsForemost (d : Heading) (l : List (Landmark K)) (p : Landmark K) : Prop where
  along : ∀ q ∈ l, d.Along p.x q.x
  first : d.first? (standingAt p.x l) = some p

theorem IsForemost.mem (h : IsForemost d l p) : p ∈ l := by
  cases d with
  | right => exact List.mem_of_mem_filter (List.mem_of_mem_head? h.first)
  | left => exact List.mem_of_mem_filter (List.mem_of_getLast? h.first)

variable [OrderedScalar K]

namespace Heading

variable {x y z : K}

theorem Ahead.trans (h : d.Ahead x y) (h' : d.Ahead y z) : d.Ahead x z := by
  cases d with
  | right => exact Scalar.lt_trans h h'
  | left => exact Scalar.lt_trans h' h

theorem along_self (d : Heading) (h : Scalar.isNaN x = false) : d.Along x x := by
  cases d <;> exact Scalar.le_refl_of_defined h

theorem not_ahead_self (d : Heading) (x : K) : ¬ d.Ahead x x := by
  cases d <;> exact fun h => Scalar.lt_asymm h h

theorem Along.beq_or_ahead (h : d.Along x y) : (x == y) = true ∨ d.Ahead x y := by
  cases d with
  | right => exact Scalar.beq_or_lt_of_le h
  | left =>
    refine (Scalar.beq_or_lt_of_le h).imp_left fun hsame => ?_
    exact OrderedScalar.beq_iff.2 (OrderedScalar.beq_iff.1 hsame).symm

/-- A walk starts at one end of an interval, with the whole interval ahead. -/
theorem stands_origin (d : Heading) (h : lower < upper) :
    d.Stands lower upper (d.origin lower upper) := by
  obtain ⟨hlower, hupper⟩ := Scalar.defined_of_lt h
  cases d with
  | right => exact ⟨Scalar.le_refl_of_defined hlower, Scalar.le_of_lt h⟩
  | left => exact ⟨h, Scalar.le_refl_of_defined hupper⟩

theorem stands_of_mem (hp : p ∈ strictlyBetween lower upper l) : d.Stands lower upper p.x := by
  obtain ⟨-, hlower, hupper⟩ := mem_strictlyBetween.1 hp
  cases d with
  | right => exact ⟨Scalar.le_of_lt hlower, Scalar.le_of_lt hupper⟩
  | left => exact ⟨hlower, Scalar.le_of_lt hupper⟩

omit [OrderedScalar K] in
theorem ahead_origin (hp : p ∈ strictlyBetween lower upper l) :
    d.Ahead (d.origin lower upper) p.x := by
  cases d with
  | right => exact (mem_strictlyBetween.1 hp).2.1
  | left => exact (mem_strictlyBetween.1 hp).2.2

theorem mem_rest_iff (hx : d.Stands lower upper x) :
    p ∈ d.rest lower upper x l ↔ p ∈ strictlyBetween lower upper l ∧ d.Ahead x p.x := by
  cases d with
  | right =>
    refine mem_strictlyBetween.trans ⟨fun ⟨hmem, hp, hp'⟩ => ⟨?_, hp⟩, fun ⟨hmem, hp⟩ => ?_⟩
    · exact mem_strictlyBetween.2 ⟨hmem, Scalar.lt_of_le_of_lt hx.1 hp, hp'⟩
    · exact ⟨(mem_strictlyBetween.1 hmem).1, hp, (mem_strictlyBetween.1 hmem).2.2⟩
  | left =>
    refine mem_strictlyBetween.trans ⟨fun ⟨hmem, hp, hp'⟩ => ⟨?_, hp'⟩, fun ⟨hmem, hp⟩ => ?_⟩
    · exact mem_strictlyBetween.2 ⟨hmem, hp, Scalar.lt_of_lt_of_le hp' hx.2⟩
    · exact ⟨(mem_strictlyBetween.1 hmem).1, (mem_strictlyBetween.1 hmem).2.1, hp⟩

end Heading

/-! ## The point a jump takes -/

theorem standingAt_eq_nil (h : ∀ q ∈ l, x < q.x ∨ q.x < x) : standingAt x l = [] := by
  refine List.filter_eq_nil_iff.2 fun q hq hsame => ?_
  obtain ⟨hle, hge⟩ := OrderedScalar.beq_iff.1 hsame
  rcases h q hq with hlt | hlt
  · exact Scalar.not_le_of_lt hlt hle
  · exact Scalar.not_le_of_lt hlt hge

/-- Collecting keeps the points at one abscissa in their order. -/
theorem standingAt_ofList (h : Placed l) (x : K) :
    standingAt x (ofList l).points = standingAt x l := by
  rw [standingAt, filter_ofList _ h]
  refine ofList_of_inOrder (List.pairwise_iff_forall_sublist.2 fun {p q} hsub => ?_)
  have hp := List.of_mem_filter (hsub.subset List.mem_cons_self)
  have hq := List.of_mem_filter (hsub.subset (List.mem_cons_of_mem p List.mem_cons_self))
  exact OrderedScalar.trans (OrderedScalar.beq_iff.1 hp).1 (OrderedScalar.beq_iff.1 hq).2

theorem standingAt_strictlyBetween (hp : p ∈ strictlyBetween lower upper l) :
    standingAt p.x (strictlyBetween lower upper l) = standingAt p.x l := by
  obtain ⟨-, hlower, hupper⟩ := mem_strictlyBetween.1 hp
  rw [standingAt, strictlyBetween, List.filter_filter]
  refine List.filter_congr fun q _ => ?_
  cases hsame : q.x == p.x with
  | false => rfl
  | true =>
    obtain ⟨hle, hge⟩ := OrderedScalar.beq_iff.1 hsame
    rw [decide_eq_true (Scalar.lt_of_lt_of_le hlower hge),
      decide_eq_true (Scalar.lt_of_le_of_lt hle hupper)]
    rfl

theorem standingAt_rest (hp : p ∈ d.rest lower upper x l) :
    standingAt p.x (d.rest lower upper x l) = standingAt p.x l := by
  cases d <;> exact standingAt_strictlyBetween hp

theorem isForemost_singleton (h : Scalar.isNaN p.x = false) : IsForemost d [p] p where
  along := List.forall_mem_singleton.2 (d.along_self h)
  first := by
    have hstanding : standingAt p.x [p] = [p] := by simp [standingAt, Scalar.beq_self h]
    rw [hstanding]
    cases d <;> rfl

/-- To the right, a point that is added to a list is taken if it is to the left of all others. -/
theorem IsForemost.concat_right (h : IsForemost .right l p) (hp : Scalar.isNaN p.x = false)
    (hq : Scalar.isNaN q.x = false) : IsForemost .right (l ++ [q]) (Heading.right.better p q) := by
  unfold Heading.better
  dsimp only
  split
  · rename_i hlt
    have hbefore : ∀ r ∈ l, q.x < r.x := fun r hr => Scalar.lt_of_lt_of_le hlt (h.along r hr)
    constructor
    · refine List.forall_mem_append.2 ⟨fun r hr => Scalar.le_of_lt (hbefore r hr), ?_⟩
      exact List.forall_mem_singleton.2 (Heading.right.along_self hq)
    · rw [standingAt_concat, standingAt_eq_nil fun r hr => .inl (hbefore r hr),
        if_pos (Scalar.beq_self hq)]
      rfl
  · rename_i hlt
    constructor
    · refine List.forall_mem_append.2 ⟨h.along, List.forall_mem_singleton.2 ?_⟩
      exact Scalar.le_of_not_lt hp hq hlt
    · have hfirst : (standingAt p.x l).head? = some p := h.first
      rw [standingAt_concat, Heading.first?, List.head?_append, hfirst]
      rfl

/-- To the left, a point that is added to a list is taken unless it is to the left of another. -/
theorem IsForemost.concat_left (h : IsForemost .left l p) (hp : Scalar.isNaN p.x = false)
    (hq : Scalar.isNaN q.x = false) : IsForemost .left (l ++ [q]) (Heading.left.better p q) := by
  unfold Heading.better
  dsimp only
  split
  · rename_i hlt
    constructor
    · refine List.forall_mem_append.2 ⟨h.along, List.forall_mem_singleton.2 ?_⟩
      exact Scalar.le_of_lt hlt
    · have hother : ¬ (q.x == p.x) = true := fun hsame =>
        Scalar.not_le_of_lt hlt (OrderedScalar.beq_iff.1 hsame).2
      rw [standingAt_concat, if_neg hother, List.append_nil]
      exact h.first
  · rename_i hlt
    have hpq := Scalar.le_of_not_lt hp hq hlt
    constructor
    · refine List.forall_mem_append.2 ⟨fun r hr => OrderedScalar.trans (h.along r hr) hpq, ?_⟩
      exact List.forall_mem_singleton.2 (Heading.left.along_self hq)
    · rw [standingAt_concat, if_pos (Scalar.beq_self hq), Heading.first?, List.getLast?_concat]

theorem IsForemost.concat (h : IsForemost d l p) (hp : Scalar.isNaN p.x = false)
    (hq : Scalar.isNaN q.x = false) : IsForemost d (l ++ [q]) (d.better p q) := by
  cases d with
  | right => exact h.concat_right hp hq
  | left => exact h.concat_left hp hq

theorem isForemost_of_foremost? (h : Placed l) (hp : d.foremost? l = some p) :
    IsForemost d l p := by
  induction l using List.reverseRecOn generalizing p with
  | nil => cases d <;> cases hp
  | append_singleton l q ih =>
    obtain ⟨hl, hq⟩ := List.forall_mem_append.1 h
    replace hq : Scalar.isNaN q.x = false := hq q List.mem_cons_self
    rw [foremost?_concat] at hp
    obtain rfl := Option.some.inj hp
    cases hb : d.foremost? l with
    | none =>
      obtain rfl := foremost?_eq_none_iff.1 hb
      exact isForemost_singleton hq
    | some b =>
      have hforemost := ih hl hb
      exact hforemost.concat (hl b hforemost.mem) hq

theorem IsForemost.of_ofList (h : Placed l) (hp : IsForemost d (ofList l).points p) :
    IsForemost d l p where
  along q hq := hp.along q (mem_ofList_iff.2 hq)
  first := standingAt_ofList h p.x ▸ hp.first

/-! ## One jump -/

variable {points : List (Landmark K)} {start goal : K}

theorem strictlyBetween_ofKind_ofList (h : Placed points) (kind : Interest) (lower upper : K) :
    strictlyBetween lower upper ((ofList points).ofKind kind) =
      (ofList (strictlyBetween lower upper (ofKind ⟨points⟩ kind))).points := by
  have hkind : Placed (ofKind ⟨points⟩ kind) := fun p hp => h p (List.mem_of_mem_filter hp)
  rw [ofKind, filter_ofList _ h]
  exact filter_ofList _ hkind

/-- A jump takes the foremost point of what is left of the way. -/
theorem firstToward_eq (h : Placed points) (kind : Interest) (hx : d.Stands start goal x) :
    (ofList points).firstToward x (d.goal start goal) kind =
      d.foremost? (ofList (d.rest start goal x (ofKind ⟨points⟩ kind))).points := by
  cases d with
  | right =>
    rw [Heading.rest, ← strictlyBetween_ofKind_ofList h]
    exact if_pos hx.2
  | left =>
    rw [Heading.rest, ← strictlyBetween_ofKind_ofList h]
    exact if_neg (Scalar.not_le_of_lt hx.1)

theorem placed_strictlyBetween (lower upper : K) (l : List (Landmark K)) :
    Placed (strictlyBetween lower upper l) := fun _ hp =>
  (Scalar.defined_of_lt (mem_strictlyBetween.1 hp).2.1).2

theorem placed_rest (d : Heading) (lower upper x : K) (l : List (Landmark K)) :
    Placed (d.rest lower upper x l) := by
  cases d <;> exact placed_strictlyBetween _ _ _

theorem isForemost_firstToward (h : Placed points) {kind : Interest} (hx : d.Stands start goal x)
    (hp : (ofList points).firstToward x (d.goal start goal) kind = some p) :
    IsForemost d (d.rest start goal x (ofKind ⟨points⟩ kind)) p := by
  have hplaced := placed_rest d start goal x (ofKind ⟨points⟩ kind)
  rw [firstToward_eq h kind hx] at hp
  exact (isForemost_of_foremost? hplaced.ofList hp).of_ofList hplaced

omit [OrderedScalar K] in
theorem ofList_eq_nil_iff {l : List (Landmark K)} : (ofList l).points = [] ↔ l = [] := by
  refine ⟨fun h => ?_, fun h => ?_⟩
  · exact List.nil_perm.1 (h ▸ ofList_perm l)
  · rw [h]
    rfl

theorem firstToward_eq_none_iff (h : Placed points) (kind : Interest)
    (hx : d.Stands start goal x) :
    (ofList points).firstToward x (d.goal start goal) kind = none ↔
      d.rest start goal x (ofKind ⟨points⟩ kind) = [] := by
  rw [firstToward_eq h kind hx, foremost?_eq_none_iff, ofList_eq_nil_iff]

theorem finds_firstToward (h : Placed points) (kind : Interest) (hx : d.Stands start goal x) :
    Finds d.Ahead (strictlyBetween start goal (ofKind ⟨points⟩ kind)) x
      ((ofList points).firstToward x (d.goal start goal) kind) := by
  cases hjump : (ofList points).firstToward x (d.goal start goal) kind with
  | none =>
    intro q hq hahead
    have hnil := (firstToward_eq_none_iff h kind hx).1 hjump
    exact List.ne_nil_of_mem ((Heading.mem_rest_iff hx).2 ⟨hq, hahead⟩) hnil
  | some p =>
    have hforemost := isForemost_firstToward h hx hjump
    obtain ⟨hmem, hahead⟩ := (Heading.mem_rest_iff hx).1 hforemost.mem
    refine ⟨hmem, hahead, fun q hq hq' => ?_⟩
    exact (hforemost.along q ((Heading.mem_rest_iff hx).2 ⟨hq, hq'⟩)).beq_or_ahead

/-! ## Both walks -/

/-- The walk from one end of an interval to the other, in either direction. -/
theorem exists_walk (h : Placed points) (kind : Interest) (hlt : start < goal) (d : Heading) :
    let all := ofKind ⟨points⟩ kind
    ∃ ps, Shows ((ofList points).firstToward · (d.goal start goal) kind)
        (d.origin start goal) ps ∧
      (ps.map Landmark.x).Pairwise d.Ahead ∧
      (∀ q ∈ strictlyBetween start goal all, ∃ p ∈ ps, (p.x == q.x) = true) ∧
      ∀ p ∈ ps, p ∈ strictlyBetween start goal all ∧ d.first? (standingAt p.x all) = some p := by
  intro all
  obtain ⟨ps, hshows, hpairs, hfrom, hall⟩ := exists_shows d.Ahead (d.Stands start goal)
    (fun _ _ _ => Heading.Ahead.trans) d.not_ahead_self
    (fun x hx => finds_firstToward h kind hx) (fun p hp => Heading.stands_of_mem hp)
    (d.stands_origin hlt)
  refine ⟨ps, hshows, hpairs.tail, fun q hq => hall q hq (Heading.ahead_origin hq), fun p hp => ?_⟩
  obtain ⟨y, hy, hjump⟩ := hfrom p hp
  have hforemost := isForemost_firstToward h hy hjump
  refine ⟨((Heading.mem_rest_iff hy).1 hforemost.mem).1, ?_⟩
  rw [← standingAt_rest hforemost.mem]
  exact hforemost.first

/-- Two lists from left to right that meet the same abscissae do so in step. -/
theorem forall₂_of_same_abscissae {ps qs : List (Landmark K)}
    (hps : (ps.map Landmark.x).Pairwise (· < ·)) (hqs : (qs.map Landmark.x).Pairwise (· < ·))
    (hpq : ∀ p ∈ ps, ∃ q ∈ qs, (p.x == q.x) = true)
    (hqp : ∀ q ∈ qs, ∃ p ∈ ps, (p.x == q.x) = true) :
    List.Forall₂ (fun p q => (p.x == q.x) = true) ps qs := by
  induction ps generalizing qs with
  | nil =>
    have hnil : qs = [] := List.eq_nil_iff_forall_not_mem.2 fun q hq => by simpa using hqp q hq
    rw [hnil]
    exact .nil
  | cons p ps ih =>
    cases qs with
    | nil => simpa using hpq p List.mem_cons_self
    | cons q qs =>
      rw [List.map_cons, List.pairwise_cons, List.forall_mem_map] at hps hqs
      have hle : p.x ≤ q.x := by
        obtain ⟨r, hr, hsame⟩ := hqp q List.mem_cons_self
        obtain ⟨hle, -⟩ := OrderedScalar.beq_iff.1 hsame
        rcases List.mem_cons.1 hr with rfl | hr
        · exact hle
        · exact Scalar.le_of_lt (Scalar.lt_of_lt_of_le (hps.1 r hr) hle)
      have hge : q.x ≤ p.x := by
        obtain ⟨r, hr, hsame⟩ := hpq p List.mem_cons_self
        obtain ⟨-, hge⟩ := OrderedScalar.beq_iff.1 hsame
        rcases List.mem_cons.1 hr with rfl | hr
        · exact hge
        · exact Scalar.le_of_lt (Scalar.lt_of_lt_of_le (hqs.1 r hr) hge)
      refine .cons (OrderedScalar.beq_iff.2 ⟨hle, hge⟩) (ih hps.2 hqs.2 ?_ ?_)
      -- what meets an abscissa further to the right is not the first point
      · intro r hr
        obtain ⟨m, hm, hsame⟩ := hpq r (List.mem_cons_of_mem p hr)
        rcases List.mem_cons.1 hm with rfl | hm
        · have hback := OrderedScalar.trans (OrderedScalar.beq_iff.1 hsame).1 hge
          exact absurd hback (Scalar.not_le_of_lt (hps.1 r hr))
        · exact ⟨m, hm, hsame⟩
      · intro r hr
        obtain ⟨m, hm, hsame⟩ := hqp r (List.mem_cons_of_mem q hr)
        rcases List.mem_cons.1 hm with rfl | hm
        · have hback := OrderedScalar.trans (OrderedScalar.beq_iff.1 hsame).2 hle
          exact absurd hback (Scalar.not_le_of_lt (hqs.1 r hr))
        · exact ⟨m, hm, hsame⟩

/-- Jumping from `start` toward `goal` shows every abscissa of the points of a kind strictly
between them, from left to right, each by the first point that has it.  Jumping back from `goal`
shows the same abscissae from right to left, each by the last point that has it.  Both show
nothing if there is no such point. -/
theorem jumps_agree (h : Placed points) (kind : Interest) (hlt : start < goal) :
    let l := ofList points
    let all := ofKind ⟨points⟩ kind
    let between := strictlyBetween start goal all
    ∃ forward backward : List (Landmark K),
      (∀ ps, Shows (l.firstToward · goal kind) start ps ↔ ps = forward) ∧
      (∀ ps, Shows (l.firstToward · start kind) goal ps ↔ ps = backward) ∧
      (forward.map Landmark.x).Pairwise (· < ·) ∧
      (∀ q ∈ between, ∃ p ∈ forward, (p.x == q.x) = true) ∧
      (∀ p ∈ forward, p ∈ between ∧ (standingAt p.x all).head? = some p) ∧
      List.Forall₂ (fun p q => (p.x == q.x) = true) backward forward.reverse ∧
      (∀ p ∈ backward, p ∈ between ∧ (standingAt p.x all).getLast? = some p) ∧
      (l.firstToward start goal kind = none ↔ between = []) ∧
      (l.firstToward goal start kind = none ↔ between = []) := by
  intro l all between
  obtain ⟨ps, hps, hinc, hpall, hpfirst⟩ := exists_walk h kind hlt .right
  obtain ⟨qs, hqs, hdec, hqall, hqlast⟩ := exists_walk h kind hlt .left
  have hsame : List.Forall₂ (fun p q => (p.x == q.x) = true) qs.reverse ps := by
    refine forall₂_of_same_abscissae ?_ hinc (fun q hq => ?_) fun p hp => ?_
    · rw [List.map_reverse]
      exact List.pairwise_reverse.2 hdec
    · obtain ⟨p, hp, hsame⟩ := hpall q (hqlast q (List.mem_reverse.1 hq)).1
      exact ⟨p, hp, OrderedScalar.beq_iff.2 (OrderedScalar.beq_iff.1 hsame).symm⟩
    · obtain ⟨q, hq, hsame⟩ := hqall p (hpfirst p hp).1
      exact ⟨q, List.mem_reverse.2 hq, hsame⟩
  refine ⟨ps, qs, fun rs => ⟨fun hr => hr.unique hps, fun hr => hr ▸ hps⟩,
    fun rs => ⟨fun hr => hr.unique hqs, fun hr => hr ▸ hqs⟩, hinc, hpall, hpfirst, ?_, hqlast,
    firstToward_eq_none_iff h kind (Heading.right.stands_origin hlt),
    firstToward_eq_none_iff h kind (Heading.left.stands_origin hlt)⟩
  rw [← List.forall₂_reverse_iff, List.reverse_reverse]
  exact hsame

/-- Two roots share an abscissa: the walk to the right shows the first of them, and the walk back
the second. -/
theorem jumps_over_double_root :
    let points : List (Landmark Float) :=
      [⟨2, 0, .root⟩, ⟨1, 4, .root⟩, ⟨1, 5, .root⟩, ⟨1, 6, .localMaximum⟩]
    Placed points ∧ (0 : Float) < 3 ∧
      ∃ forward backward : List (Landmark Float),
        Shows ((ofList points).firstToward · 3 .root) 0 forward ∧
        Shows ((ofList points).firstToward · 0 .root) 3 backward ∧
        (∃ p ∈ forward, (p.x == 1) = true ∧
          (standingAt p.x (ofKind ⟨points⟩ .root)).head? = some p) ∧
        List.Forall₂ (fun p q => (p.x == q.x) = true) backward forward.reverse := by
  intro points
  have hplaced : Placed points := by
    simp only [points, Placed, List.forall_mem_cons]
    exact ⟨by decide +kernel, by decide +kernel, by decide +kernel, by decide +kernel,
      List.forall_mem_nil _⟩
  have hlt : (0 : Float) < 3 := by decide +kernel
  obtain ⟨forward, backward, hforward, hbackward, -, hmeets, hfirst, hsame, -⟩ :=
    jumps_agree hplaced .root hlt
  have hmem : (⟨1, 4, .root⟩ : Landmark Float) ∈
      strictlyBetween 0 3 (ofKind ⟨points⟩ .root) := by
    refine mem_strictlyBetween.2 ⟨?_, by decide +kernel, by decide +kernel⟩
    simp [points, ofKind]
  obtain ⟨p, hp, hone⟩ := hmeets _ hmem
  exact ⟨hplaced, hlt, forward, backward, (hforward _).2 rfl, (hbackward _).2 rfl,
    ⟨p, hp, hone, (hfirst p hp).2⟩, hsame⟩

end Landmarks

end CurveSurvey

import CurveSurvey.Landmarks
import CurveSurvey.Proofs.Solutions

/-!
# Collected landmarks

A survey lists the landmarks of every kind from left to right.  Selecting one kind of it gives
back what the scan for this kind found.

* `Landmarks.inOrder_ofList` and `Landmarks.ofList_perm`: collecting sorts by abscissa, and
  loses no point.
* `Landmarks.filter_ofList`: selecting points of a collection is collecting the selected points,
  since collecting keeps the order of points at one abscissa.
* `Landmarks.ofList_append`: two lists put together are the stable merge of both.
* `Landmarks.survey_agrees` is what follows for a survey in either direction.
-/

namespace CurveSurvey

namespace Landmarks

variable {K : Type}

section

variable [Scalar K]

/-- The points of a list stand from left to right. -/
def InOrder (l : List (Landmark K)) : Prop := l.Pairwise fun p q => p.x ≤ q.x

/-- Every point of a list has an abscissa. -/
def Placed (l : List (Landmark K)) : Prop := ∀ p ∈ l, Scalar.isNaN p.x = false

/-- Whether a point is not to the right of another one. -/
def notAfter (p q : Landmark K) : Bool := decide (p.x ≤ q.x)

/-- The merge of lists that stand from left to right.  Of points at one abscissa, those of an
earlier list come first. -/
def merged (lists : List (List (Landmark K))) : List (Landmark K) :=
  lists.foldr (fun l m => l.merge m notAfter) []

theorem ofList_cons (p : Landmark K) (l : List (Landmark K)) :
    (ofList (p :: l)).points = insert p (ofList l).points := rfl

/-! ## Inserting a point -/

theorem mem_insert_iff {p q : Landmark K} {l : List (Landmark K)} :
    q ∈ insert p l ↔ q = p ∨ q ∈ l := by
  rw [(insert_perm p l).mem_iff, List.mem_cons]

theorem mem_ofList_iff {q : Landmark K} {l : List (Landmark K)} :
    q ∈ (ofList l).points ↔ q ∈ l := (ofList_perm l).mem_iff

theorem Placed.tail {p : Landmark K} {l : List (Landmark K)} (h : Placed (p :: l)) : Placed l :=
  fun q hq => h q (List.mem_cons_of_mem p hq)

theorem Placed.ofList {l : List (Landmark K)} (h : Placed l) : Placed (ofList l).points :=
  fun p hp => h p (mem_ofList_iff.1 hp)

/-- A point that is to the right of all others comes last. -/
theorem insert_of_forall_lt {p : Landmark K} {l : List (Landmark K)} (h : ∀ q ∈ l, q.x < p.x) :
    insert p l = l ++ [p] := by
  induction l with
  | nil => rfl
  | cons q l ih =>
    rw [insert, if_pos (h q List.mem_cons_self), ih fun r hr => h r (List.mem_cons_of_mem q hr)]
    rfl

/-- A list that goes from right to left is turned around. -/
theorem ofList_of_decreasing {l : List (Landmark K)} (h : l.Pairwise fun p q => q.x < p.x) :
    (ofList l).points = l.reverse := by
  induction l with
  | nil => rfl
  | cons p l ih =>
    rw [List.pairwise_cons] at h
    rw [ofList_cons, ih h.2, List.reverse_cons]
    exact insert_of_forall_lt fun q hq => h.1 q (List.mem_reverse.1 hq)

variable [OrderedScalar K]

/-- A point that is not to the right of any other comes first. -/
theorem insert_of_forall_le {p : Landmark K} {l : List (Landmark K)} (h : ∀ q ∈ l, p.x ≤ q.x) :
    insert p l = p :: l := by
  cases l with
  | nil => rfl
  | cons q l => rw [insert, if_neg fun hlt => Scalar.not_le_of_lt hlt (h q List.mem_cons_self)]

/-- A list from left to right is collected as it is. -/
theorem ofList_of_inOrder {l : List (Landmark K)} (h : InOrder l) : (ofList l).points = l := by
  induction l with
  | nil => rfl
  | cons p l ih =>
    obtain ⟨hp, hl⟩ := List.pairwise_cons.1 h
    rw [ofList_cons, ih hl]
    exact insert_of_forall_le hp

theorem InOrder.insert {p : Landmark K} {l : List (Landmark K)} (h : InOrder l)
    (hp : Scalar.isNaN p.x = false) (hl : Placed l) : InOrder (insert p l) := by
  induction l with
  | nil => exact List.pairwise_singleton _ p
  | cons q l ih =>
    obtain ⟨hq, hrest⟩ := List.pairwise_cons.1 h
    rw [Landmarks.insert]
    split
    · rename_i hlt
      refine List.pairwise_cons.2 ⟨fun r hr => ?_, ih hrest hl.tail⟩
      rcases mem_insert_iff.1 hr with rfl | hr
      · exact Scalar.le_of_lt hlt
      · exact hq r hr
    · rename_i hlt
      have hpq := Scalar.le_of_not_lt hp (hl q List.mem_cons_self) hlt
      refine List.pairwise_cons.2 ⟨fun r hr => ?_, h⟩
      rcases List.mem_cons.1 hr with rfl | hr
      · exact hpq
      · exact OrderedScalar.trans hpq (hq r hr)

/-- Collected points stand from left to right. -/
theorem inOrder_ofList {l : List (Landmark K)} (h : Placed l) : InOrder (ofList l).points := by
  induction l with
  | nil => exact List.Pairwise.nil
  | cons p l ih =>
    exact (ih h.tail).insert (h p List.mem_cons_self) h.tail.ofList

/-! ## Selecting points -/

theorem filter_insert {select : Landmark K → Bool} {p : Landmark K} {l : List (Landmark K)}
    (h : InOrder l) (hp : Scalar.isNaN p.x = false) (hl : Placed l) :
    (insert p l).filter select =
      if select p then insert p (l.filter select) else l.filter select := by
  induction l with
  | nil => cases hsel : select p <;> simp [insert, hsel]
  | cons q l ih =>
    obtain ⟨hq, hrest⟩ := List.pairwise_cons.1 h
    have hq' := hl q List.mem_cons_self
    rw [insert]
    split
    · rename_i hlt
      rw [List.filter_cons, List.filter_cons, ih hrest hl.tail]
      cases select q <;> cases select p <;> simp [insert, hlt]
    · rename_i hlt
      -- nothing that is left of the list is to the left of the point
      have hpq := Scalar.le_of_not_lt hp hq' hlt
      have hfirst : ∀ r ∈ (q :: l).filter select, p.x ≤ r.x := by
        intro r hr
        rcases List.mem_cons.1 (List.mem_of_mem_filter hr) with rfl | hr
        · exact hpq
        · exact OrderedScalar.trans hpq (hq r hr)
      rw [insert_of_forall_le hfirst, List.filter_cons]

/-- Selecting points of a collection is collecting the selected points. -/
theorem filter_ofList (select : Landmark K → Bool) {l : List (Landmark K)} (h : Placed l) :
    (ofList l).points.filter select = (ofList (l.filter select)).points := by
  induction l with
  | nil => rfl
  | cons p l ih =>
    rw [ofList_cons, filter_insert (inOrder_ofList h.tail) (h p List.mem_cons_self) h.tail.ofList,
      ih h.tail, List.filter_cons]
    cases select p <;> rfl

/-! ## Merging lists -/

omit [OrderedScalar K] in
theorem merge_cons_of_le {p q : Landmark K} (h : p.x ≤ q.x) (l m : List (Landmark K)) :
    (p :: l).merge (q :: m) notAfter = p :: l.merge (q :: m) notAfter := by
  rw [List.cons_merge_cons, notAfter, if_pos (decide_eq_true h)]

theorem merge_cons_of_lt {p q : Landmark K} (h : q.x < p.x) (l m : List (Landmark K)) :
    (p :: l).merge (q :: m) notAfter = q :: (p :: l).merge m notAfter := by
  rw [List.cons_merge_cons, notAfter,
    if_neg (by simpa using Scalar.not_le_of_lt h)]

/-- A point is inserted into a list as the merge of both. -/
theorem insert_eq_merge {p : Landmark K} (hp : Scalar.isNaN p.x = false)
    {m : List (Landmark K)} (hm : Placed m) : insert p m = [p].merge m notAfter := by
  induction m with
  | nil => rw [insert, List.merge_right]
  | cons r m ih =>
    rw [insert]
    split
    · rename_i hlt
      rw [merge_cons_of_lt hlt, ih hm.tail]
    · rename_i hlt
      rw [merge_cons_of_le (Scalar.le_of_not_lt hp (hm r List.mem_cons_self) hlt),
        List.nil_merge]

/-- A point is inserted into a merge as it is into the first list. -/
theorem insert_merge {p : Landmark K} (hp : Scalar.isNaN p.x = false) {l m : List (Landmark K)}
    (hl : Placed l) (hm : Placed m) :
    insert p (l.merge m notAfter) = (insert p l).merge m notAfter := by
  induction l generalizing m with
  | nil =>
    rw [List.nil_merge]
    exact insert_eq_merge hp hm
  | cons q l ihl =>
    have hq := hl q List.mem_cons_self
    induction m with
    | nil => rw [List.merge_right, List.merge_right]
    | cons r m ihm =>
      have hr := hm r List.mem_cons_self
      replace ihm := ihm hm.tail
      by_cases hqp : q.x < p.x
      · -- the first list keeps its head
        have hcons : insert p (q :: l) = q :: insert p l := by rw [insert, if_pos hqp]
        rw [hcons] at ihm ⊢
        by_cases hrq : r.x < q.x
        · rw [merge_cons_of_lt hrq, merge_cons_of_lt hrq, insert,
            if_pos (Scalar.lt_trans hrq hqp), ihm]
        · have hqr := Scalar.le_of_not_lt hq hr hrq
          rw [merge_cons_of_le hqr, merge_cons_of_le hqr, insert, if_pos hqp, ihl hl.tail hm]
      · -- the point becomes the head of the first list
        have hpq := Scalar.le_of_not_lt hp hq hqp
        have hcons : insert p (q :: l) = p :: q :: l := by rw [insert, if_neg hqp]
        rw [hcons] at ihm ⊢
        by_cases hrp : r.x < p.x
        · rw [merge_cons_of_lt (Scalar.lt_of_lt_of_le hrp hpq), merge_cons_of_lt hrp, insert,
            if_pos hrp, ihm]
        · rw [merge_cons_of_le (Scalar.le_of_not_lt hp hr hrp)]
          by_cases hrq : r.x < q.x
          · rw [merge_cons_of_lt hrq, insert, if_neg hrp]
          · rw [merge_cons_of_le (Scalar.le_of_not_lt hq hr hrq), insert, if_neg hqp]

/-- Collecting two lists put together is merging what is collected of each. -/
theorem ofList_append {l m : List (Landmark K)} (hl : Placed l) (hm : Placed m) :
    (ofList (l ++ m)).points = (ofList l).points.merge (ofList m).points notAfter := by
  induction l with
  | nil => simp [ofList]
  | cons p l ih =>
    rw [List.cons_append, ofList_cons, ofList_cons, ih hl.tail]
    exact insert_merge (hl p List.mem_cons_self) hl.tail.ofList hm.ofList

/-- Collecting any number of lists put together is merging what is collected of each. -/
theorem ofList_flatten {lists : List (List (Landmark K))} (h : ∀ l ∈ lists, Placed l) :
    (ofList lists.flatten).points = merged (lists.map fun l => (ofList l).points) := by
  induction lists with
  | nil => rfl
  | cons l lists ih =>
    have hrest : ∀ m ∈ lists, Placed m := fun m hm => h m (List.mem_cons_of_mem l hm)
    have hplaced : Placed lists.flatten := by
      intro p hp
      obtain ⟨m, hm, hp⟩ := List.mem_flatten.1 hp
      exact hrest m hm p hp
    rw [List.flatten_cons, ofList_append (h l List.mem_cons_self) hplaced, ih hrest]
    rfl

end

/-! ## One kind -/

theorem ofKind_none (l : Landmarks K) : l.ofKind .none = l.points :=
  List.filter_eq_self.2 fun _ _ => rfl

theorem ofKind_append (l m : List (Landmark K)) (kind : Interest) :
    ofKind ⟨l ++ m⟩ kind = ofKind ⟨l⟩ kind ++ ofKind ⟨m⟩ kind := List.filter_append l m

theorem ofKind_eq_self {l : List (Landmark K)} {kind : Interest}
    (h : ∀ p ∈ l, p.interest = kind) : ofKind ⟨l⟩ kind = l := by
  refine List.filter_eq_self.2 fun p hp => ?_
  simp [h p hp]

theorem ofKind_eq_nil {l : List (Landmark K)} {kind : Interest} (h : ∀ p ∈ l, p.interest = kind)
    (other : Interest) (hother : other ≠ .none) (hne : kind ≠ other) : ofKind ⟨l⟩ other = [] := by
  refine List.filter_eq_nil_iff.2 fun p hp => ?_
  simp [Interest.isNone, h p hp, hother, hne]

/-- Of lists that hold one kind each, selecting a kind gives back the list that holds it. -/
theorem ofKind_of_kinds {roots minima maxima meetings : List (Landmark K)}
    (hroots : ∀ p ∈ roots, p.interest = .root)
    (hminima : ∀ p ∈ minima, p.interest = .localMinimum)
    (hmaxima : ∀ p ∈ maxima, p.interest = .localMaximum)
    (hmeetings : ∀ p ∈ meetings, p.interest = .intersection) :
    let all : Landmarks K := ⟨roots ++ minima ++ maxima ++ meetings⟩
    all.ofKind .root = roots ∧ all.ofKind .localMinimum = minima ∧
      all.ofKind .localMaximum = maxima ∧ all.ofKind .intersection = meetings := by
  intro all
  simp only [all, ofKind_append]
  refine ⟨?_, ?_, ?_, ?_⟩
  · rw [ofKind_eq_self hroots, ofKind_eq_nil hminima .root nofun nofun,
      ofKind_eq_nil hmaxima .root nofun nofun, ofKind_eq_nil hmeetings .root nofun nofun]
    simp only [List.append_nil]
  · rw [ofKind_eq_self hminima, ofKind_eq_nil hroots .localMinimum nofun nofun,
      ofKind_eq_nil hmaxima .localMinimum nofun nofun,
      ofKind_eq_nil hmeetings .localMinimum nofun nofun]
    simp only [List.append_nil, List.nil_append]
  · rw [ofKind_eq_self hmaxima, ofKind_eq_nil hroots .localMaximum nofun nofun,
      ofKind_eq_nil hminima .localMaximum nofun nofun,
      ofKind_eq_nil hmeetings .localMaximum nofun nofun]
    simp only [List.append_nil, List.nil_append]
  · rw [ofKind_eq_self hmeetings, ofKind_eq_nil hroots .intersection nofun nofun,
      ofKind_eq_nil hminima .intersection nofun nofun,
      ofKind_eq_nil hmaxima .intersection nofun nofun]
    simp only [List.nil_append]

/-! ## Surveys -/

section

variable [Precision K]

/-- What one of the scans of a survey finds. -/
def scanned (solver : Solver K) (start goal : K) (search : Search K) : List (Landmark K) :=
  solutions (search.run solver) perKind (Cursor.new start goal)

/-- What the scans of a survey find, one scan after the other. -/
def gathered (solver : Solver K) (e : Expression K) (others : List (Expression K))
    (start goal : K) : List (Landmark K) :=
  scanned solver start goal (.root e) ++ scanned solver start goal (.minimum e) ++
    scanned solver start goal (.maximum e) ++
    others.flatMap fun other => scanned solver start goal (.intersection e other)

/-- The solutions of a scan from `start` to `goal`, listed from left to right. -/
def leftToRight (start goal : K) (l : List (Landmark K)) : List (Landmark K) :=
  if start < goal then l else l.reverse

theorem leftToRight_perm (start goal : K) (l : List (Landmark K)) :
    (leftToRight start goal l).Perm l := by
  unfold leftToRight
  split
  · exact List.Perm.refl l
  · exact List.reverse_perm l

/-- Of what is gathered, selecting a kind gives back what the scan for this kind finds. -/
theorem ofKind_gathered (solver : Solver K) (e : Expression K) (others : List (Expression K))
    (start goal : K) :
    let all : Landmarks K := ⟨gathered solver e others start goal⟩
    all.ofKind .root = scanned solver start goal (.root e) ∧
      all.ofKind .localMinimum = scanned solver start goal (.minimum e) ∧
      all.ofKind .localMaximum = scanned solver start goal (.maximum e) ∧
      all.ofKind .intersection =
        others.flatMap fun other => scanned solver start goal (.intersection e other) := by
  refine ofKind_of_kinds (fun _ hp => (Search.showsOnly_root e).interest_eq hp)
    (fun _ hp => (Search.showsOnly_minimum e).interest_eq hp)
    (fun _ hp => (Search.showsOnly_maximum e).interest_eq hp) fun p hp => ?_
  obtain ⟨other, -, hp⟩ := List.mem_flatMap.1 hp
  exact (Search.showsOnly_intersection e other).interest_eq hp

variable [SteadyPrecision K] {solver : Solver K} {e : Expression K} {start goal : K}

/-- The solutions of a scan lie strictly between its ends. -/
theorem between_of_mem_scanned {search : Search K} (h : start < goal ∨ goal < start)
    {p : Landmark K} (hp : p ∈ scanned solver start goal search) :
    start < p.x ∧ p.x < goal ∨ goal < p.x ∧ p.x < start := by
  have happroach := search.approach_solutions solver perKind (Cursor.new start goal)
  have hx := List.mem_map_of_mem (f := Landmark.x) hp
  rcases h with hlt | hgt
  · obtain ⟨-, hpairs, hbefore⟩ := (if_pos hlt).mp happroach
    exact .inl ⟨List.rel_of_pairwise_cons hpairs hx, hbefore _ hx⟩
  · obtain ⟨-, hpairs, hbefore⟩ := (if_neg (Scalar.lt_asymm hgt)).mp happroach
    exact .inr ⟨hbefore _ hx, List.rel_of_pairwise_cons hpairs hx⟩

theorem between_of_mem_gathered {others : List (Expression K)} (h : start < goal ∨ goal < start)
    {p : Landmark K} (hp : p ∈ gathered solver e others start goal) :
    start < p.x ∧ p.x < goal ∨ goal < p.x ∧ p.x < start := by
  simp only [gathered, List.mem_append, List.mem_flatMap] at hp
  rcases hp with ((hp | hp) | hp) | ⟨other, -, hp⟩
  · exact between_of_mem_scanned h hp
  · exact between_of_mem_scanned h hp
  · exact between_of_mem_scanned h hp
  · exact between_of_mem_scanned h hp

theorem placed_of_between {l : List (Landmark K)}
    (h : ∀ p ∈ l, start < p.x ∧ p.x < goal ∨ goal < p.x ∧ p.x < start) : Placed l := by
  intro p hp
  rcases h p hp with ⟨-, hlt⟩ | ⟨hlt, -⟩
  · exact (Scalar.defined_of_lt hlt).1
  · exact (Scalar.defined_of_lt hlt).2

/-- What one scan finds is collected in the order of the scan, or in the opposite one. -/
theorem ofList_scanned (search : Search K) (h : start < goal ∨ goal < start) :
    (ofList (scanned solver start goal search)).points =
      leftToRight start goal (scanned solver start goal search) := by
  have happroach := search.approach_solutions solver perKind (Cursor.new start goal)
  rcases h with hlt | hgt
  · obtain ⟨-, hpairs, -⟩ := (if_pos hlt).mp happroach
    rw [leftToRight, if_pos hlt]
    exact ofList_of_inOrder ((List.pairwise_map.1 hpairs.tail).imp Scalar.le_of_lt)
  · obtain ⟨-, hpairs, -⟩ := (if_neg (Scalar.lt_asymm hgt)).mp happroach
    rw [leftToRight, if_neg (Scalar.lt_asymm hgt)]
    exact ofList_of_decreasing (List.pairwise_map.1 hpairs.tail)

/-- The scans for intersections are merged. -/
theorem ofList_crossings (others : List (Expression K)) (h : start < goal ∨ goal < start) :
    (ofList (others.flatMap fun other =>
      scanned solver start goal (.intersection e other))).points =
      merged (others.map fun other =>
        leftToRight start goal (scanned solver start goal (.intersection e other))) := by
  rw [List.flatMap_def, ofList_flatten, List.map_map]
  · exact congrArg merged (List.map_congr_left fun other _ => ofList_scanned _ h)
  · intro l hl
    obtain ⟨other, -, rfl⟩ := List.mem_map.1 hl
    exact placed_of_between fun p hp => between_of_mem_scanned h hp

/-- A survey stands from left to right, strictly between its ends.  Its roots, minima and maxima
are what the scans for these find one after the other, and its intersections the merge of what
the scans for them find; nothing else is in it. -/
theorem survey_agrees (solver : Solver K) (e : Expression K) (others : List (Expression K))
    (h : start < goal ∨ goal < start) :
    let l := survey solver e others start goal
    let found (search : Cursor K → Cursor K) : List (Landmark K) :=
      leftToRight start goal (solutions search perKind (Cursor.new start goal))
    let meetings := others.map fun other => found (solver.nextIntersection · e other)
    InOrder l.points ∧
      (∀ p ∈ l.points, start < p.x ∧ p.x < goal ∨ goal < p.x ∧ p.x < start) ∧
      l.ofKind .root = found (solver.nextRoot · e) ∧
      l.ofKind .localMinimum = found (solver.nextMinimum · e) ∧
      l.ofKind .localMaximum = found (solver.nextMaximum · e) ∧
      l.ofKind .intersection = merged meetings ∧
      l.ofKind .none = l.points ∧
      l.points.Perm (found (solver.nextRoot · e) ++ found (solver.nextMinimum · e) ++
        found (solver.nextMaximum · e) ++ meetings.flatten) := by
  intro l found meetings
  have hbetween : ∀ p ∈ gathered solver e others start goal, _ :=
    fun p hp => between_of_mem_gathered h hp
  have hplaced := placed_of_between hbetween
  have hl : l = ofList (gathered solver e others start goal) := rfl
  have hkind (kind : Interest) : l.ofKind kind =
      (ofList (ofKind ⟨gathered solver e others start goal⟩ kind)).points := by
    rw [hl]
    exact filter_ofList _ hplaced
  obtain ⟨hroots, hminima, hmaxima, hcrossings⟩ := ofKind_gathered solver e others start goal
  refine ⟨inOrder_ofList hplaced, fun p hp => hbetween p (mem_ofList_iff.1 hp), ?_, ?_, ?_, ?_,
    ofKind_none l, ?_⟩
  · rw [hkind, hroots]
    exact ofList_scanned (.root e) h
  · rw [hkind, hminima]
    exact ofList_scanned (.minimum e) h
  · rw [hkind, hmaxima]
    exact ofList_scanned (.maximum e) h
  · rw [hkind, hcrossings]
    exact ofList_crossings others h
  · refine (ofList_perm _).trans (((((leftToRight_perm ..).append (leftToRight_perm ..)).append
      (leftToRight_perm ..)).append ?_).symm)
    rw [← List.flatMap_def]
    exact List.Perm.flatMap_left others fun _ _ => leftToRight_perm ..

/-- A line surveyed from right to left, with its negative: its root and their intersection are
listed from left to right. -/
theorem survey_line :
    let solver : Solver Float := .standard {}
    let e : Expression Float := .plain fun _ x => x
    let other : Expression Float := .plain fun _ x => -x
    let c := Cursor.new (1 : Float) (-1)
    let l := survey solver e [other] 1 (-1)
    (-1 : Float) < 1 ∧ InOrder l.points ∧
      l.ofKind .root = (solutions (solver.nextRoot · e) perKind c).reverse ∧
      l.ofKind .intersection =
        merged [(solutions (solver.nextIntersection · e other) perKind c).reverse] := by
  intro solver e other c l
  have hlt : (-1 : Float) < 1 := by decide +kernel
  have hback (found : List (Landmark Float)) : leftToRight 1 (-1) found = found.reverse :=
    if_neg (by decide +kernel)
  obtain ⟨horder, -, hroots, -, -, hcrossings, -⟩ := survey_agrees solver e [other] (.inr hlt)
  refine ⟨hlt, horder, hroots.trans (hback _), ?_⟩
  calc l.ofKind .intersection
      = merged [leftToRight 1 (-1) (solutions (solver.nextIntersection · e other) perKind c)] :=
        hcrossings
    _ = merged [(solutions (solver.nextIntersection · e other) perKind c).reverse] := by
        rw [hback]

end

end Landmarks

end CurveSurvey

import CurveSurvey.Solutions

/-!
# Landmarks

The roots, extrema and intersections of a function over an interval, sorted by
abscissa.

* `Landmarks.ofList` keeps the order of points that share an abscissa.
* `Landmarks.firstToward` is how a reader jumps from one landmark to the next, in
  either direction.
-/

namespace CurveSurvey

/-- Points of a function, sorted by abscissa. -/
structure Landmarks (K : Type) where
  /-- The points from left to right. -/
  points : List (Landmark K)

namespace Landmarks

variable {K : Type}

/-! ## Selection -/

/-- The points of one kind; `Interest.none` stands for every kind. -/
def ofKind (l : Landmarks K) (kind : Interest) : List (Landmark K) :=
  l.points.filter fun p => kind.isNone || p.interest == kind

section

variable [Scalar K]

/-- The first point of a list that has the smallest abscissa. -/
def leftmost? : List (Landmark K) → Option (Landmark K)
  | [] => none
  | p :: rest => some (rest.foldl (fun best q => if q.x < best.x then q else best) p)

/-- The last point of a list that has the largest abscissa. -/
def rightmost? : List (Landmark K) → Option (Landmark K)
  | [] => none
  | p :: rest => some (rest.foldl (fun best q => if q.x < best.x then best else q) p)

/-- The point of one kind that is closest to `start` among those strictly between
`start` and `goal`. -/
def firstToward (l : Landmarks K) (start goal : K) (kind : Interest) : Option (Landmark K) :=
  let between (lower upper : K) : List (Landmark K) :=
    (l.ofKind kind).filter fun p => decide (lower < p.x) && decide (p.x < upper)
  if start ≤ goal then leftmost? (between start goal) else rightmost? (between goal start)

/-! ## Collection -/

/-- Puts a point before the points of a sorted list that are not to its left. -/
def insert (p : Landmark K) : List (Landmark K) → List (Landmark K)
  | [] => [p]
  | q :: rest => if q.x < p.x then q :: insert p rest else p :: q :: rest

/-- The points of a list, sorted by abscissa. -/
def ofList (points : List (Landmark K)) : Landmarks K := ⟨points.foldr insert []⟩

theorem insert_perm (p : Landmark K) (l : List (Landmark K)) : (insert p l).Perm (p :: l) := by
  induction l with
  | nil => exact List.Perm.refl _
  | cons q rest ih =>
    rw [insert]
    split
    · exact (ih.cons q).trans (List.Perm.swap p q rest)
    · exact List.Perm.refl _

/-- Sorting loses no point and adds none. -/
theorem ofList_perm (points : List (Landmark K)) : (ofList points).points.Perm points := by
  unfold ofList
  induction points with
  | nil => exact List.Perm.refl _
  | cons p rest ih => exact (insert_perm p _).trans (ih.cons p)

end

variable [Precision K]

/-- How many points of each kind are collected. -/
def perKind : Nat := 64

/-- The landmarks of `e` between two abscissae, with its intersections with each
of the others. -/
def survey (solver : Solver K) (e : Expression K) (others : List (Expression K))
    (start goal : K) : Landmarks K :=
  let c := Cursor.new start goal
  let collect (search : Cursor K → Cursor K) : List (Landmark K) := solutions search perKind c
  ofList
    (collect (solver.nextRoot · e) ++ collect (solver.nextMinimum · e) ++
      collect (solver.nextMaximum · e) ++
      others.flatMap fun other => collect (solver.nextIntersection · e other))

end Landmarks

end CurveSurvey

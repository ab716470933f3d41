import CurveSurvey.Proofs.Stretch
import CurveSurvey.Viewport.Flatness
import CurveSurvey.Viewport.Settings

/-!
# Where a curve flattens

A side of a curve is remembered in three states, but its candidate can be read off the slopes that
were noted on it, however many they are and however they are mixed with those of the other side.

* `SlopeNote.SettlesAt`: the first flat note after the last steep one.
* `Flatness.runs_of_last` is the state after a last steep note.  What comes before that note is
  forgotten, since no slope is both steep and flat.
* `Asymptotes.updates_eq`: each side hears its own notes only, and of these no undefined slope.
* `Asymptotes.candidates_settle` is the result.
-/

namespace CurveSurvey

/-- The slope of a curve, as it is noted at a point. -/
structure SlopeNote (K : Type) where
  /-- Where the slope was seen. -/
  point : Point K
  /-- The slope, which may be undefined. -/
  slope : K

namespace SlopeNote

variable {K : Type} [Scalar K]

/-- The slope is above the range that changes nothing. -/
def isSteep (high : K) (n : SlopeNote K) : Bool := decide (high < Scalar.abs n.slope)

/-- The slope is below the range that changes nothing. -/
def isFlat (low : K) (n : SlopeNote K) : Bool := decide (Scalar.abs n.slope < low)

/-- The first flat note after the last steep one of a list. -/
def SettlesAt (low high : K) (notes : List (SlopeNote K)) (m : SlopeNote K) : Prop :=
  ∃ before n after, notes = before ++ n :: after ∧ n.isSteep high = true ∧
    (∀ k ∈ after, k.isSteep high = false) ∧ after.find? (isFlat low) = some m

/-- A list has no steep note, or a last one. -/
theorem exists_last_steep (high : K) (notes : List (SlopeNote K)) :
    (∀ n ∈ notes, n.isSteep high = false) ∨
      ∃ before n after, notes = before ++ n :: after ∧ n.isSteep high = true ∧
        ∀ k ∈ after, k.isSteep high = false := by
  induction notes with
  | nil => exact .inl fun n hn => nomatch hn
  | cons n notes ih =>
    rcases ih with hnone | ⟨before, m, after, rfl, hm, hafter⟩
    · cases hn : n.isSteep high with
      | true => exact .inr ⟨[], n, notes, rfl, hn, hnone⟩
      | false => exact .inl (List.forall_mem_cons.2 ⟨hn, hnone⟩)
    · exact .inr ⟨n :: before, m, after, rfl, hm, hafter⟩

variable [OrderedScalar K] {low high : K} {n : SlopeNote K}

theorem isFlat_of_isSteep (h : low ≤ high) (hn : n.isSteep high = true) : n.isFlat low = false := by
  refine decide_eq_false fun hflat => ?_
  have hsteep : high < Scalar.abs n.slope := of_decide_eq_true hn
  exact Scalar.not_le_of_lt (Scalar.lt_trans hsteep hflat) h

end SlopeNote

open SlopeNote (SettlesAt)

/-! ## One side -/

namespace Flatness

variable {K : Type} [Scalar K] {low high : K} {notes before after : List (SlopeNote K)}
  {n m : SlopeNote K} {p : Point K}

/-- The state of a side after a list of notes. -/
def runs (low high : K) (state : Flatness K) (notes : List (SlopeNote K)) : Flatness K :=
  notes.foldl (fun s n => s.update low high n.point (Scalar.abs n.slope)) state

theorem update_unknown (hn : n.isSteep high = false) :
    update low high n.point (Scalar.abs n.slope) .unknown = .unknown :=
  if_neg (of_decide_eq_false hn)

theorem update_flatFrom (hn : n.isSteep high = false) :
    update low high n.point (Scalar.abs n.slope) (.flatFrom p) = .flatFrom p :=
  if_neg (of_decide_eq_false hn)

/-- Without a steep note, nothing becomes of a side that never was steep. -/
theorem runs_unknown (h : ∀ n ∈ notes, n.isSteep high = false) :
    runs low high .unknown notes = .unknown := by
  induction notes with
  | nil => rfl
  | cons n notes ih =>
    obtain ⟨hn, hnotes⟩ := List.forall_mem_cons.1 h
    rw [runs, List.foldl_cons, update_unknown hn]
    exact ih hnotes

/-- Without a steep note, a candidate stays. -/
theorem runs_flatFrom (h : ∀ n ∈ notes, n.isSteep high = false) :
    runs low high (.flatFrom p) notes = .flatFrom p := by
  induction notes with
  | nil => rfl
  | cons n notes ih =>
    obtain ⟨hn, hnotes⟩ := List.forall_mem_cons.1 h
    rw [runs, List.foldl_cons, update_flatFrom hn]
    exact ih hnotes

/-- Without another steep note, the first flat one after a steep one gives the candidate. -/
theorem runs_steep (hfinite : ∀ n ∈ notes, Scalar.isFinite n.point.x = true)
    (h : ∀ n ∈ notes, n.isSteep high = false) :
    runs low high .steep notes =
      ((notes.find? (SlopeNote.isFlat low)).map fun m => .flatFrom m.point).getD .steep := by
  induction notes with
  | nil => rfl
  | cons n notes ih =>
    obtain ⟨-, hnotes⟩ := List.forall_mem_cons.1 h
    obtain ⟨hn, hfinite⟩ := List.forall_mem_cons.1 hfinite
    rw [runs, List.foldl_cons, List.find?_cons]
    cases hflat : n.isFlat low with
    | true =>
      have hupdate : update low high n.point (Scalar.abs n.slope) .steep = .flatFrom n.point := by
        rw [update, if_pos (of_decide_eq_true hflat), settleAt, if_pos hn]
      rw [hupdate]
      exact runs_flatFrom hnotes
    | false =>
      have hupdate : update low high n.point (Scalar.abs n.slope) .steep = .steep :=
        if_neg (of_decide_eq_false hflat)
      rw [hupdate]
      exact ih hfinite hnotes

variable [OrderedScalar K]

/-- A steep note makes a side steep, whatever it was before. -/
theorem update_of_isSteep (h : low ≤ high) (hn : n.isSteep high = true) (s : Flatness K) :
    s.update low high n.point (Scalar.abs n.slope) = .steep := by
  cases s with
  | steep => exact if_neg (of_decide_eq_false (SlopeNote.isFlat_of_isSteep h hn))
  | unknown | flatFrom p => exact if_pos (of_decide_eq_true hn)

/-- After its last steep note, a side is steep until the first flat one. -/
theorem runs_of_last (h : low ≤ high)
    (hfinite : ∀ n ∈ after, Scalar.isFinite n.point.x = true) (hn : n.isSteep high = true)
    (hafter : ∀ k ∈ after, k.isSteep high = false) (s : Flatness K) :
    runs low high s (before ++ n :: after) =
      ((after.find? (SlopeNote.isFlat low)).map fun m => .flatFrom m.point).getD .steep := by
  rw [runs, List.foldl_append, List.foldl_cons, update_of_isSteep h hn]
  exact runs_steep hfinite hafter

/-- A side settles on the point of a note exactly when the notes do. -/
theorem runs_eq_flatFrom_iff (h : low ≤ high)
    (hfinite : ∀ n ∈ notes, Scalar.isFinite n.point.x = true) :
    runs low high .unknown notes = .flatFrom p ↔ ∃ m, SettlesAt low high notes m ∧ m.point = p := by
  constructor
  · intro hruns
    rcases SlopeNote.exists_last_steep high notes with hnone | ⟨before, n, after, rfl, hn, hafter⟩
    · rw [runs_unknown hnone] at hruns
      cases hruns
    · rw [runs_of_last h (fun k hk => hfinite k (by simp [hk])) hn hafter] at hruns
      cases hfind : after.find? (SlopeNote.isFlat low) with
      | none =>
        rw [hfind] at hruns
        cases hruns
      | some m =>
        rw [hfind] at hruns
        cases hruns
        exact ⟨m, ⟨before, n, after, rfl, hn, hafter, hfind⟩, rfl⟩
  · rintro ⟨m, ⟨before, n, after, rfl, hn, hafter, hfind⟩, rfl⟩
    rw [runs_of_last h (fun k hk => hfinite k (by simp [hk])) hn hafter, hfind]
    rfl

end Flatness

/-! ## Both sides -/

namespace SlopeNote

variable {K : Type} [Scalar K]

/-- The notes below a center. -/
def leftOf (center : K) (notes : List (SlopeNote K)) : List (SlopeNote K) :=
  notes.filter fun n => decide (n.point.x < center)

/-- The notes from a center on. -/
def rightOf (center : K) (notes : List (SlopeNote K)) : List (SlopeNote K) :=
  notes.filter fun n => decide (center ≤ n.point.x)

/-- The notes of which the slope is a number. -/
def sloped (notes : List (SlopeNote K)) : List (SlopeNote K) :=
  notes.filter fun n => !Scalar.isNaN n.slope

end SlopeNote

open SlopeNote (leftOf rightOf sloped)

section

variable {K : Type} [Scalar K] [Machine K] {low high : K} {notes : List (SlopeNote K)}

/-- An undefined slope changes nothing. -/
theorem Flatness.update_of_isNaN {n : SlopeNote K} (h : Scalar.isNaN n.slope = true)
    (s : Flatness K) : s.update low high n.point (Scalar.abs n.slope) = s := by
  have hnan : Scalar.isNaN (Scalar.abs n.slope) = true := by rwa [Machine.isNaN_abs]
  have hsteep : ¬ high < Scalar.abs n.slope := fun hlt => by
    rw [(Scalar.defined_of_lt hlt).2] at hnan
    cases hnan
  have hflat : ¬ Scalar.abs n.slope < low := fun hlt => by
    rw [(Scalar.defined_of_lt hlt).1] at hnan
    cases hnan
  cases s with
  | steep => exact if_neg hflat
  | unknown | flatFrom p => exact if_neg hsteep

/-- A side hears no undefined slope. -/
theorem Flatness.runs_sloped (s : Flatness K) :
    s.runs low high (sloped notes) = s.runs low high notes := by
  induction notes generalizing s with
  | nil => rfl
  | cons n notes ih =>
    cases hn : Scalar.isNaN n.slope with
    | true =>
      have hsloped : sloped (n :: notes) = sloped notes := by simp [sloped, hn]
      rw [hsloped, runs, runs, List.foldl_cons, update_of_isNaN hn]
      exact ih s
    | false =>
      have hsloped : sloped (n :: notes) = n :: sloped notes := by simp [sloped, hn]
      rw [hsloped]
      exact ih _

end

namespace Asymptotes

/-- What is known after a list of notes. -/
def updates {K : Type} [Scalar K] (a : Asymptotes K) (notes : List (SlopeNote K)) : Asymptotes K :=
  notes.foldl (fun a n => a.update n.point n.slope) a

variable {K : Type} [Scalar K] {center threshold hysteresis : K} {notes : List (SlopeNote K)}

/-- Each side hears its own notes. -/
theorem updates_eq [OrderedScalar K] {a : Asymptotes K} (hcenter : Scalar.isNaN a.center = false)
    (hnotes : ∀ n ∈ notes, Scalar.isNaN n.point.x = false) :
    a.updates notes =
      { a with
        left := a.left.runs (a.threshold - a.hysteresis) (a.threshold + a.hysteresis)
          (leftOf a.center notes)
        right := a.right.runs (a.threshold - a.hysteresis) (a.threshold + a.hysteresis)
          (rightOf a.center notes) } := by
  induction notes generalizing a with
  | nil => rfl
  | cons n notes ih =>
    obtain ⟨hn, hnotes⟩ := List.forall_mem_cons.1 hnotes
    rw [updates, List.foldl_cons]
    by_cases hlt : n.point.x < a.center
    · have hleft : leftOf a.center (n :: notes) = n :: leftOf a.center notes := by
        simp [leftOf, hlt]
      have hright : rightOf a.center (n :: notes) = rightOf a.center notes := by
        simp [rightOf, Scalar.not_le_of_lt hlt]
      rw [hleft, hright, update, if_pos hlt]
      exact ih hcenter hnotes
    · have hle := Scalar.le_of_not_lt hcenter hn hlt
      have hleft : leftOf a.center (n :: notes) = leftOf a.center notes := by
        simp [leftOf, hlt]
      have hright : rightOf a.center (n :: notes) = n :: rightOf a.center notes := by
        simp [rightOf, hle]
      rw [hleft, hright, update, if_neg hlt]
      exact ih hcenter hnotes

/-- What the setter accepts leaves no slope that is both steep and flat. -/
theorem low_le_high [Machine K] {settings accepted : Viewport.Settings K}
    (h : settings.withAsymptoteThreshold threshold hysteresis = .ok accepted) :
    threshold - hysteresis ≤ threshold + hysteresis := by
  unfold Viewport.Settings.withAsymptoteThreshold at h
  split at h
  · cases h
  · rename_i haccepted
    simp only [Bool.or_eq_true, Bool.not_eq_true', not_or, Bool.not_eq_false,
      decide_eq_true_eq] at haccepted
    obtain ⟨⟨⟨hthreshold, hhysteresis⟩, hnonneg⟩, -⟩ := haccepted
    obtain ⟨t, ht⟩ := Machine.exists_represents hthreshold
    obtain ⟨r, hr⟩ := Machine.exists_represents hhysteresis
    have hval : 0 ≤ Machine.val hysteresis := by
      have hle := Scalar.le_of_not_lt Machine.isNaN_zero hr.defined hnonneg
      simpa using (Machine.le_iff_val.1 hle).2.2
    exact OrderedScalar.trans (Machine.sub_le_of_val_nonneg (ht.sub hr).defined hval)
      (Machine.le_add_of_val_nonneg (ht.add hr).defined hval)

/-- A side has a candidate at a finite abscissa exactly when its notes settle, and then the
candidate is where they do. -/
theorem candidate_runs [Machine K] {low high : K} (h : low ≤ high) (notes : List (SlopeNote K))
    (hfinite : ∀ n ∈ notes, Scalar.isFinite n.point.x = true) :
    let state := Flatness.runs low high .unknown notes
    (Scalar.isFinite state.candidate.x = true ↔ ∃ m, SettlesAt low high notes m) ∧
      ∀ m, SettlesAt low high notes m → state.candidate = m.point := by
  intro state
  have hsettles (m : SlopeNote K) (hm : SettlesAt low high notes m) : state = .flatFrom m.point :=
    (Flatness.runs_eq_flatFrom_iff h hfinite).2 ⟨m, hm, rfl⟩
  refine ⟨⟨fun hcandidate => ?_, fun ⟨m, hm⟩ => ?_⟩, fun m hm => ?_⟩
  · cases hstate : state with
    | flatFrom p =>
      obtain ⟨m, hm, -⟩ := (Flatness.runs_eq_flatFrom_iff h hfinite).1 hstate
      exact ⟨m, hm⟩
    | unknown | steep =>
      rw [hstate, Machine.isFinite_eq_unpack] at hcandidate
      change (Machine.unpack (Scalar.nan : K)).isFinite = true at hcandidate
      rw [Machine.unpack_nan] at hcandidate
      cases hcandidate
  · rw [hsettles m hm]
    obtain ⟨before, n, after, rfl, -, -, hfind⟩ := hm
    exact hfinite m (by simp [List.mem_of_find?_eq_some hfind])
  · rw [hsettles m hm]
    rfl

/-- For every threshold and hysteresis that the settings accept, and every list of notes at finite
abscissae, there is a candidate on a side exactly when a note of this side is steep and a later
one, after the last steep one, is flat; the candidate is the first such note.

A side depends on nothing but its own notes with defined slopes, in their order: what is noted on
the other side, undefined slopes, and the way the notes are mixed make no difference. -/
theorem candidates_settle [Machine K] {settings accepted : Viewport.Settings K}
    (haccepted : settings.withAsymptoteThreshold threshold hysteresis = .ok accepted)
    (hcenter : Scalar.isNaN center = false)
    (hfinite : ∀ n ∈ notes, Scalar.isFinite n.point.x = true) :
    let start : Asymptotes K := { center, threshold, hysteresis }
    let known := start.updates notes
    let settlesAt := SettlesAt (threshold - hysteresis) (threshold + hysteresis)
    (Scalar.isFinite known.left.candidate.x = true ↔ ∃ m, settlesAt (leftOf center notes) m) ∧
      (∀ m, settlesAt (leftOf center notes) m → known.left.candidate = m.point) ∧
      (Scalar.isFinite known.right.candidate.x = true ↔ ∃ m, settlesAt (rightOf center notes) m) ∧
      (∀ m, settlesAt (rightOf center notes) m → known.right.candidate = m.point) ∧
      ∀ others : List (SlopeNote K), (∀ n ∈ others, Scalar.isFinite n.point.x = true) →
        (sloped (leftOf center others) = sloped (leftOf center notes) →
          (start.updates others).left = known.left) ∧
        (sloped (rightOf center others) = sloped (rightOf center notes) →
          (start.updates others).right = known.right) := by
  intro start known settlesAt
  have hdefined (l : List (SlopeNote K)) (hl : ∀ n ∈ l, Scalar.isFinite n.point.x = true) :
      ∀ n ∈ l, Scalar.isNaN n.point.x = false := by
    intro n hn
    obtain ⟨x, hx⟩ := Machine.exists_represents (hl n hn)
    exact hx.defined
  have hupdates (l : List (SlopeNote K)) (hl : ∀ n ∈ l, Scalar.isFinite n.point.x = true) :=
    updates_eq (a := start) hcenter (hdefined l hl)
  have hknown := hupdates notes hfinite
  have hrange := low_le_high haccepted
  obtain ⟨hleftIff, hleft⟩ := candidate_runs hrange (leftOf center notes)
    fun n hn => hfinite n (List.mem_of_mem_filter hn)
  obtain ⟨hrightIff, hright⟩ := candidate_runs hrange (rightOf center notes)
    fun n hn => hfinite n (List.mem_of_mem_filter hn)
  simp only [known, hknown]
  refine ⟨hleftIff, hleft, hrightIff, hright, fun others hothers => ?_⟩
  rw [hupdates others hothers]
  refine ⟨fun hsame => ?_, fun hsame => ?_⟩
  · show Flatness.runs _ _ _ (leftOf center others) = Flatness.runs _ _ _ (leftOf center notes)
    rw [← Flatness.runs_sloped, hsame, Flatness.runs_sloped]
  · show Flatness.runs _ _ _ (rightOf center others) = Flatness.runs _ _ _ (rightOf center notes)
    rw [← Flatness.runs_sloped, hsame, Flatness.runs_sloped]

/-! ## A curve with one asymptote -/

/-- A curve that is steep at one, flat from two on, and has no slope on the left. -/
def levelling : List (SlopeNote Float32) :=
  [⟨⟨1, 0⟩, 1⟩, ⟨⟨-1, 5⟩, Scalar.nan⟩, ⟨⟨2, 1⟩, 0.1⟩, ⟨⟨3, 1.1⟩, 0.05⟩]

/-- The curve has an asymptote from two on. -/
theorem levelling_settles :
    let start : Asymptotes Float32 := { center := 0, threshold := 0.2, hysteresis := 0.01 }
    (∃ accepted, (Viewport.Settings.standard : Viewport.Settings Float32).withAsymptoteThreshold
        0.2 0.01 = .ok accepted) ∧
      Scalar.isNaN (0 : Float32) = false ∧
      (∀ n ∈ levelling, Scalar.isFinite n.point.x = true) ∧
      (start.updates levelling).right.candidate = ⟨2, 1⟩ := by
  intro start
  have haccepted : (Viewport.Settings.standard : Viewport.Settings Float32).withAsymptoteThreshold
      0.2 0.01 = .ok { Viewport.Settings.standard with
        asymptoteThreshold := 0.2, asymptoteHysteresis := 0.01 } :=
    if_neg (by decide +kernel)
  have hcenter : Scalar.isNaN (0 : Float32) = false := Machine.isNaN_zero
  have hfinite : ∀ n ∈ levelling, Scalar.isFinite n.point.x = true := by
    simp only [levelling, List.forall_mem_cons]
    decide +kernel
  have hsides :
      (0 : Float32) ≤ 1 ∧ ¬ (0 : Float32) ≤ -1 ∧ (0 : Float32) ≤ 2 ∧ (0 : Float32) ≤ 3 := by
    decide +kernel
  have hright : rightOf 0 levelling = [⟨⟨1, 0⟩, 1⟩, ⟨⟨2, 1⟩, 0.1⟩, ⟨⟨3, 1.1⟩, 0.05⟩] := by
    simp [rightOf, levelling, hsides]
  refine ⟨⟨_, haccepted⟩, hcenter, hfinite, ?_⟩
  refine (candidates_settle haccepted hcenter hfinite).2.2.2.1 ⟨⟨2, 1⟩, 0.1⟩ ?_
  rw [hright]
  refine ⟨[], ⟨⟨1, 0⟩, 1⟩, [⟨⟨2, 1⟩, 0.1⟩, ⟨⟨3, 1.1⟩, 0.05⟩], rfl, by decide +kernel, ?_, ?_⟩
  · simp only [List.forall_mem_cons]
    decide +kernel
  · exact List.find?_cons_of_pos (by decide +kernel)

end Asymptotes

end CurveSurvey

import XYAnnotation.Annotations.EdgeHits
import XYAnnotation.Library.Noted

namespace XYAnnotation

open Library QPointF

section Disc

variable (K : Type*) [Field K] [LinearOrder K]

def Circle.Contains (c : Circle) (x y : K) : Prop := (x - c.x) ^ 2 + (y - c.y) ^ 2 ≤ (c.r : K) ^ 2

/-- Some point of the segment lies in the closed disc. -/
def Circle.Meets (c : Circle) (p1 p2 : QPointF) : Prop :=
  ∃ u : K, 0 ≤ u ∧ u ≤ 1 ∧ c.Contains K (p1.x + u * (p2.x - p1.x)) (p1.y + u * (p2.y - p1.y))

variable [IsStrictOrderedRing K]

theorem Circle.outside_iff (c : Circle) (p : QPointF) :
    ¬ c.Contains K p.x p.y ↔ c.r ^ 2 < (c.x - p.x) ^ 2 + (c.y - p.y) ^ 2 := by
  have turned : ((p.x : K) - c.x) ^ 2 + ((p.y : K) - c.y) ^ 2 = ((c.x : K) - p.x) ^ 2 + ((c.y : K) - p.y) ^ 2 := by ring
  rw [Contains, turned, not_le]
  norm_cast

theorem Circle.meets_iff (c : Circle) (p1 p2 : QPointF) (first : ¬ c.Contains K p1.x p1.y)
    (last : ¬ c.Contains K p2.x p2.y) :
    c.Meets K p1 p2 ↔
      ((c.x - p1.x) * (p2.y - p1.y) - (c.y - p1.y) * (p2.x - p1.x)) ^ 2 ≤
          ((p2.x - p1.x) ^ 2 + (p2.y - p1.y) ^ 2) * c.r ^ 2 ∧
        0 < (c.x - p1.x) * (p2.x - p1.x) + (c.y - p1.y) * (p2.y - p1.y) ∧
        0 < (c.x - p1.x - (p2.x - p1.x)) * -(p2.x - p1.x) + (c.y - p1.y - (p2.y - p1.y)) * -(p2.y - p1.y) := by
  have point : ∀ u : K, c.Contains K (p1.x + u * (p2.x - p1.x)) (p1.y + u * (p2.y - p1.y)) ↔
      ((c.x : K) - p1.x - u * (p2.x - p1.x)) ^ 2 + ((c.y : K) - p1.y - u * (p2.y - p1.y)) ^ 2 ≤ (c.r : K) ^ 2 := by
    intro u
    have turned : ((p1.x : K) + u * (p2.x - p1.x) - c.x) ^ 2 + ((p1.y : K) + u * (p2.y - p1.y) - c.y) ^ 2 =
        ((c.x : K) - p1.x - u * (p2.x - p1.x)) ^ 2 + ((c.y : K) - p1.y - u * (p2.y - p1.y)) ^ 2 := by ring
    rw [Contains, turned]
  rw [outside_iff] at first last
  have start : (c.r : K) ^ 2 < ((c.x : K) - p1.x) ^ 2 + ((c.y : K) - p1.y) ^ 2 := by exact_mod_cast first
  have stop : (c.r : K) ^ 2 < ((c.x : K) - p1.x - (p2.x - p1.x)) ^ 2 + ((c.y : K) - p1.y - (p2.y - p1.y)) ^ 2 := by
    rw [sub_sub_sub_cancel_right, sub_sub_sub_cancel_right]
    exact_mod_cast last
  unfold Meets
  simp only [point]
  rw [segment_meets_iff start stop]
  norm_cast

end Disc

/-- The test of a segment against a circle is exact, for the rational points of the segment as for the real ones: the
    ends are outside and some point is in the closed disc. -/
theorem judge_exact (K : Type*) [Field K] [LinearOrder K] [IsStrictOrderedRing K] (p1 p2 : QPointF) (c : Circle) :
    judge p1 p2 c = true ↔ ¬ c.Contains K p1.x p1.y ∧ ¬ c.Contains K p2.x p2.y ∧ c.Meets K p1 p2 := by
  rw [judge_iff, ← Circle.outside_iff K, ← Circle.outside_iff K]
  constructor
  · rintro ⟨⟨first, last⟩, crosses⟩
    exact ⟨first, last, (c.meets_iff K p1 p2 first last).mpr crosses⟩
  · rintro ⟨first, last, meets⟩
    exact ⟨⟨first, last⟩, (c.meets_iff K p1 p2 first last).mp meets⟩

theorem tangent_judged : judge ⟨-2, 1⟩ ⟨2, 1⟩ ⟨1, 0, 0⟩ = true := by
  rw [judge_exact ℝ]
  refine ⟨?_, ?_, 1 / 2, ?_⟩ <;> norm_num [Circle.Contains]

section Foot

variable {pt a b : QPointF}

/-- A point on the line through `a` and `b`, straight across from `pt`. -/
def IsFoot (pt a b f : QPointF) : Prop := (∃ u, f = between a b u) ∧ Orthogonal (pt - f) (b - a)

/-- The point of the line through `a` and `b` that is nearest to `pt`. -/
def IsNearest (pt a b f : QPointF) : Prop :=
  (∃ u, f = between a b u) ∧ ∀ u, pt.distance f ≤ pt.distance (between a b u)

def divide (a b : ℚ) : Option ℚ := if b = 0 then none else some (a / b)

/-- `GetFootOfPerpendicular` with a division that has no result when the divisor is 0. -/
def checkedFoot (pt first last : QPointF) : Option QPointF :=
  let dx := first.x - last.x
  let dy := first.y - last.y
  if |dx| < 0x00000001 ∧ |dy| < 0x00000001 then some first
  else do
    let u := (pt.x - first.x) * (first.x - last.x) + (pt.y - first.y) * (first.y - last.y)
    let u ← divide u (dx * dx + dy * dy)
    some ⟨first.x + u * dx, first.y + u * dy⟩

theorem between_zero (a b : QPointF) : between a b 0 = a := by
  ext
  · simp [between]
  · simp [between]

theorem long_of_ne (distinct : a ≠ b) : 0 < (b.x - a.x) ^ 2 + (b.y - a.y) ^ 2 := by
  by_contra short
  have zero : (b.x - a.x) ^ 2 + (b.y - a.y) ^ 2 = 0 := le_antisymm (not_lt.mp short) (by positivity)
  rw [add_eq_zero_iff_of_nonneg (sq_nonneg _) (sq_nonneg _)] at zero
  apply distinct
  ext
  · exact (sub_eq_zero.mp (pow_eq_zero_iff two_ne_zero |>.mp zero.1)).symm
  · exact (sub_eq_zero.mp (pow_eq_zero_iff two_ne_zero |>.mp zero.2)).symm

theorem isFoot_between_iff (distinct : a ≠ b) (u : ℚ) : IsFoot pt a b (between a b u) ↔ u = footPart pt a b := by
  rw [← orthogonal_iff (long_of_ne distinct) u, IsFoot]
  exact and_iff_right ⟨u, rfl⟩

theorem distance_between_le_iff (pt a b : QPointF) (u v : ℚ) :
    pt.distance (between a b u) ≤ pt.distance (between a b v) ↔
      (pt.x - a.x - u * (b.x - a.x)) ^ 2 + (pt.y - a.y - u * (b.y - a.y)) ^ 2 ≤
        (pt.x - a.x - v * (b.x - a.x)) ^ 2 + (pt.y - a.y - v * (b.y - a.y)) ^ 2 := by
  rw [distance_le_iff]
  simp only [between, add_x, add_y, smul_x, smul_y, sub_x, sub_y, sub_add_eq_sub_sub]

theorem isNearest_between_iff (distinct : a ≠ b) (u : ℚ) :
    IsNearest pt a b (between a b u) ↔ u = footPart pt a b := by
  have nearest : IsNearest pt a b (between a b u) ↔
      ∀ v, pt.distance (between a b u) ≤ pt.distance (between a b v) := and_iff_right ⟨u, rfl⟩
  rw [nearest, footPart, ← nearest_iff (long_of_ne distinct)]
  exact forall_congr' fun v => distance_between_le_iff pt a b u v

theorem foot_between (pt a b : QPointF) :
    ∃ u, getFootOfPerpendicular pt a b = between a b u ∧ (Apart a b → u = footPart pt a b) ∧ (¬ Apart a b → u = 0) := by
  by_cases apart : Apart a b
  · exact ⟨footPart pt a b, getFootOfPerpendicular_apart apart, fun _ => rfl, fun close => absurd apart close⟩
  · refine ⟨0, ?_, fun far => absurd far apart, fun _ => rfl⟩
    rw [getFootOfPerpendicular_close apart, between_zero]

theorem footPart_eq_iff (distinct : a ≠ b) {u : ℚ} (far : Apart a b → u = footPart pt a b) (close : ¬ Apart a b → u = 0) :
    u = footPart pt a b ↔ Apart a b ∨ Orthogonal (pt - a) (b - a) := by
  by_cases apart : Apart a b
  · exact iff_of_true (far apart) (.inl apart)
  · rw [close apart, ← orthogonal_iff (long_of_ne distinct), between_zero]
    exact (or_iff_right apart).symm

theorem checkedFoot_eq (pt a b : QPointF) : checkedFoot pt a b = some (getFootOfPerpendicular pt a b) := by
  by_cases apart : Apart a b
  · have below : (a.x - b.x) * (a.x - b.x) + (a.y - b.y) * (a.y - b.y) ≠ 0 := by
      have long := apart.long.ne'
      have same : (a.x - b.x) * (a.x - b.x) + (a.y - b.y) * (a.y - b.y) = (b.x - a.x) ^ 2 + (b.y - a.y) ^ 2 := by ring
      rw [same]
      exact long
    unfold checkedFoot getFootOfPerpendicular
    simp only [if_neg ((apart_iff a b).mp apart), divide, if_neg below]
    rfl
  · rw [apart_iff, not_not] at apart
    unfold checkedFoot getFootOfPerpendicular
    rw [if_pos apart, if_pos apart]

end Foot

/-- A comparison that `isEdgeHavPt` makes: the ends of the edge, and the point that `pt` is compared with. -/
structure Comparison where
  first : QPointF
  last : QPointF
  foot : QPointF
  deriving DecidableEq

namespace Shape

open Noted

variable {shape : Shape} {pt : QPointF}

/-- The loop of `Shape::isEdgeHavPt`, which notes its comparisons. -/
def comparedLoop (points : YPolygonPoints) (pt : QPointF) (pos : ℤ) : List ℕ → Noted Comparison Fault (Bool × ℤ)
  | [] => pure (false, pos)
  | i :: rest => do
    let first ← unnoted (points.at i)
    let last ← unnoted (edgeEnd points i)
    if judge first last ⟨senseDis, pt.x, pt.y⟩ then do
      let foot := getFootOfPerpendicular pt first last
      note ⟨first, last, foot⟩
      if (pt - foot).manhattanLength ≤ senseDis then pure (true, i + 1) else comparedLoop points pt pos rest
    else comparedLoop points pt pos rest

def comparedEdges (shape : Shape) (pt : QPointF) (pos : ℤ) : Noted Comparison Fault (Bool × ℤ) :=
  if shape.testsEdges then
    if shape.points.size < 2 then pure (false, pos)
    else comparedLoop shape.points pt pos (List.range shape.points.size)
  else pure (false, pos)

theorem comparedLoop_result (points : YPolygonPoints) (pt : QPointF) (pos : ℤ) (indices : List ℕ) :
    (comparedLoop points pt pos indices).result = edgeLoop points pt pos indices := by
  induction indices with
  | nil => rfl
  | cons i rest ih =>
    rw [comparedLoop, edgeLoop, bind_result, unnoted_result]
    congr 1
    funext first
    rw [bind_result, unnoted_result]
    congr 1
    funext last
    by_cases judged : judge first last ⟨senseDis, pt.x, pt.y⟩ = true
    · by_cases near : (pt - getFootOfPerpendicular pt first last).manhattanLength ≤ senseDis
      · simp [judged, near, edgeHasPt]
        rfl
      · simp [judged, near, edgeHasPt, ih]
        rfl
    · simp [judged, edgeHasPt, ih]

theorem comparedEdges_result (shape : Shape) (pt : QPointF) (pos : ℤ) :
    (shape.comparedEdges pt pos).result = shape.isEdgeHavPtRef pt pos := by
  unfold comparedEdges isEdgeHavPtRef
  split
  · split
    · rfl
    · exact comparedLoop_result _ _ _ _
  · rfl

def Reaches (shape : Shape) (pt : QPointF) (k : ℕ) : Prop := ∀ i < k, ¬ shape.HitAt pt i

/-- `isEdgeHavPt` comes to this edge, and `judge` lets it through. -/
structure Compares (shape : Shape) (pt a b : QPointF) : Prop where
  tests : shape.testsEdges = true
  two : 2 ≤ shape.pointCount
  edge : ∃ k, shape.IsEdge k a b ∧ shape.Reaches pt k ∧ judge a b ⟨senseDis, pt.x, pt.y⟩ = true

theorem hitAt_edge {k : ℕ} {a b : QPointF} (edge : shape.IsEdge k a b) :
    shape.HitAt pt k ↔ edgeHasPt pt (a, b) = true := by
  rw [edgeHasPt_iff]
  constructor
  · rintro ⟨first, last, same, hit⟩
    obtain rfl := Option.some.inj (same.1.symm.trans edge.1)
    obtain rfl := Option.some.inj (same.2.symm.trans edge.2)
    exact hit
  · exact fun hit => ⟨a, b, edge, hit⟩

theorem Reaches.next {k : ℕ} {a b : QPointF} (reached : shape.Reaches pt k) (edge : shape.IsEdge k a b)
    (missed : edgeHasPt pt (a, b) = false) : shape.Reaches pt (k + 1) := by
  intro i before hit
  rcases Nat.lt_succ_iff_lt_or_eq.mp before with earlier | rfl
  · exact reached i earlier hit
  · rw [(hitAt_edge edge).mp hit] at missed
    cases missed

theorem comparedLoop_cons {points : YPolygonPoints} {pos : ℤ} {i : ℕ} {rest : List ℕ} {a b : QPointF}
    (first : points.at i = .ok a) (last : edgeEnd points i = .ok b) (Holds : Comparison → Prop) :
    (∀ comparison ∈ (comparedLoop points pt pos (i :: rest)).entries, Holds comparison) ↔
      (judge a b ⟨senseDis, pt.x, pt.y⟩ = true → Holds ⟨a, b, getFootOfPerpendicular pt a b⟩) ∧
        (edgeHasPt pt (a, b) = false →
          ∀ comparison ∈ (comparedLoop points pt pos rest).entries, Holds comparison) := by
  rw [comparedLoop, first, last]
  change (∀ comparison ∈ (if judge a b ⟨senseDis, pt.x, pt.y⟩ = true then _ else _ :
    Noted Comparison Fault (Bool × ℤ)).entries, Holds comparison) ↔ _
  by_cases judged : judge a b ⟨senseDis, pt.x, pt.y⟩ = true
  · rw [if_pos judged, bind_entries]
    by_cases near : (pt - getFootOfPerpendicular pt a b).manhattanLength ≤ senseDis
    · simp [judged, near, edgeHasPt]
    · simp [judged, near, edgeHasPt]
  · rw [if_neg judged]
    simp [judged, edgeHasPt]

theorem comparedLoop_entries (shape : Shape) (pt : QPointF) (pos : ℤ) (k m : ℕ) (rest : k + m = shape.points.size)
    (reached : shape.Reaches pt k) (Holds : Comparison → Prop) :
    (∀ comparison ∈ (comparedLoop shape.points pt pos (List.range' k m)).entries, Holds comparison) ↔
      ∀ j a b, k ≤ j → shape.IsEdge j a b → shape.Reaches pt j → judge a b ⟨senseDis, pt.x, pt.y⟩ = true →
        Holds ⟨a, b, getFootOfPerpendicular pt a b⟩ := by
  induction m generalizing k with
  | zero =>
    refine iff_of_true (by simp [comparedLoop]) ?_
    intro j a b after edge
    have inside := (List.getElem?_eq_some_iff.mp edge.1).1
    unfold YPolygonPoints.size at rest
    omega
  | succ m ih =>
    have inside : k < shape.points.oriPoints.length := by
      unfold YPolygonPoints.size at rest
      omega
    obtain ⟨a, b, first, last, found⟩ := edge_read shape.points inside
    have edge : shape.IsEdge k a b := isEdge_iff.mpr found
    rw [List.range'_succ, comparedLoop_cons first last]
    constructor
    · rintro ⟨here, later⟩ j c d after other reaches judged
      rcases Nat.eq_or_lt_of_le after with rfl | beyond
      · obtain rfl := Option.some.inj (other.1.symm.trans edge.1)
        obtain rfl := Option.some.inj (other.2.symm.trans edge.2)
        exact here judged
      · have missed : edgeHasPt pt (a, b) = false :=
          Bool.eq_false_iff.mpr fun hit => reaches k beyond ((hitAt_edge edge).mpr hit)
        have further := ih (k + 1) (by omega) (reached.next edge missed)
        exact further.mp (later missed) j c d beyond other reaches judged
    · intro all
      refine ⟨fun judged => all k a b le_rfl edge reached judged, fun missed => ?_⟩
      rw [ih (k + 1) (by omega) (reached.next edge missed)]
      intro j c d after
      exact all j c d (by omega)

/-- `isEdgeHavPt` compares at the edges that its loop comes to and `judge` lets through. -/
theorem comparedEdges_entries (shape : Shape) (pt : QPointF) (pos : ℤ) (Holds : Comparison → Prop) :
    (∀ comparison ∈ (shape.comparedEdges pt pos).entries, Holds comparison) ↔
      ∀ a b, shape.Compares pt a b → Holds ⟨a, b, getFootOfPerpendicular pt a b⟩ := by
  unfold comparedEdges
  by_cases tests : shape.testsEdges = true
  · by_cases short : shape.points.size < 2
    · rw [if_pos tests, if_pos short]
      refine iff_of_true (by simp) ?_
      intro a b compares
      exact absurd compares.two (not_le.mpr short)
    · have start : shape.Reaches pt 0 := fun i before => absurd before (Nat.not_lt_zero i)
      rw [if_pos tests, if_neg short, List.range_eq_range',
        comparedLoop_entries shape pt pos 0 shape.points.size (Nat.zero_add _) start]
      constructor
      · rintro all a b ⟨_, _, k, edge, reaches, judged⟩
        exact all k a b (Nat.zero_le k) edge reaches judged
      · intro all k a b _ edge reaches judged
        exact all a b ⟨tests, not_lt.mp short, k, edge, reaches, judged⟩
  · rw [if_neg tests]
    refine iff_of_true (by simp) ?_
    intro a b compares
    exact absurd compares.tests tests

end Shape

/-- `GetFootOfPerpendicular` never divides by 0. It returns the foot, the nearest point of the line, exactly when the
    ends are at least 1 apart in x or y or the first end is the foot; what `isEdgeHavPt` compares with is always the
    nearest point exactly when the edges that it compares at have their ends so far apart. -/
theorem foot_of_perpendicular_iff (pt : QPointF) :
    (∀ first last, first ≠ last →
      checkedFoot pt first last = some (getFootOfPerpendicular pt first last) ∧
      (IsFoot pt first last (getFootOfPerpendicular pt first last) ↔
        Apart first last ∨ Orthogonal (pt - first) (last - first)) ∧
      (IsNearest pt first last (getFootOfPerpendicular pt first last) ↔
        Apart first last ∨ Orthogonal (pt - first) (last - first))) ∧
    ∀ (shape : Shape) (pos : ℤ),
      (shape.comparedEdges pt pos).result = shape.isEdgeHavPtRef pt pos ∧
      ((∀ comparison ∈ (shape.comparedEdges pt pos).entries,
          IsNearest pt comparison.first comparison.last comparison.foot) ↔
        ∀ first last, shape.Compares pt first last → Apart first last) := by
  have nearest : ∀ first last, first ≠ last →
      (IsNearest pt first last (getFootOfPerpendicular pt first last) ↔
        Apart first last ∨ Orthogonal (pt - first) (last - first)) := by
    intro first last distinct
    obtain ⟨u, found, far, close⟩ := foot_between pt first last
    rw [found, isNearest_between_iff distinct]
    exact footPart_eq_iff distinct far close
  constructor
  · intro first last distinct
    refine ⟨checkedFoot_eq pt first last, ?_, nearest first last distinct⟩
    obtain ⟨u, found, far, close⟩ := foot_between pt first last
    rw [found, isFoot_between_iff distinct]
    exact footPart_eq_iff distinct far close
  · intro shape pos
    refine ⟨shape.comparedEdges_result pt pos, ?_⟩
    rw [Shape.comparedEdges_entries]
    refine forall_congr' fun first => forall_congr' fun last => forall_congr' fun compares => ?_
    -- `judge` has seen `pt` beyond the first end, so that end is not the foot.
    obtain ⟨k, _, _, judged⟩ := compares.edge
    obtain ⟨_, _, ahead, _⟩ := (judge_iff first last _).mp judged
    have distinct : first ≠ last := by
      rintro rfl
      simp at ahead
    have slanted : ¬ Orthogonal (pt - first) (last - first) := fun across => ahead.ne' across
    rw [nearest first last distinct]
    exact or_iff_left slanted

theorem long_segment_foot :
    (⟨0, 0⟩ : QPointF) ≠ ⟨10, 0⟩ ∧ IsNearest ⟨3, 4⟩ ⟨0, 0⟩ ⟨10, 0⟩ (getFootOfPerpendicular ⟨3, 4⟩ ⟨0, 0⟩ ⟨10, 0⟩) := by
  have distinct : (⟨0, 0⟩ : QPointF) ≠ ⟨10, 0⟩ := by decide +kernel
  have apart : Apart ⟨0, 0⟩ ⟨10, 0⟩ := .inl (by norm_num)
  exact ⟨distinct, ((foot_of_perpendicular_iff ⟨3, 4⟩).1 ⟨0, 0⟩ ⟨10, 0⟩ distinct).2.2.mpr (.inl apart)⟩

def roof : Shape := .ofPoints .polygon [⟨-2 / 5, 8⟩, ⟨2 / 5, 8⟩, ⟨100, 100⟩]

theorem short_edge_foot_missed :
    getFootOfPerpendicular ⟨0, 0⟩ ⟨-2 / 5, 8⟩ ⟨2 / 5, 8⟩ = ⟨-2 / 5, 8⟩ ∧
      ¬ IsFoot ⟨0, 0⟩ ⟨-2 / 5, 8⟩ ⟨2 / 5, 8⟩ ⟨-2 / 5, 8⟩ ∧
      roof.comparedEdges ⟨0, 0⟩ (-1) = ⟨.ok (false, -1), [⟨⟨-2 / 5, 8⟩, ⟨2 / 5, 8⟩, ⟨-2 / 5, 8⟩⟩]⟩ ∧
      ¬ IsNearest ⟨0, 0⟩ ⟨-2 / 5, 8⟩ ⟨2 / 5, 8⟩ ⟨-2 / 5, 8⟩ ∧
      ((⟨0, 0⟩ : QPointF) - between ⟨-2 / 5, 8⟩ ⟨2 / 5, 8⟩ (1 / 2)).manhattanLength ≤ senseDis ∧
      roof.isEdgeHavPtRef ⟨0, 0⟩ (-1) = .ok (false, -1) := by
  have compared : (roof.comparedEdges ⟨0, 0⟩ (-1)).result = .ok (false, -1) ∧
      (roof.comparedEdges ⟨0, 0⟩ (-1)).entries = [⟨⟨-2 / 5, 8⟩, ⟨2 / 5, 8⟩, ⟨-2 / 5, 8⟩⟩] := by decide +kernel
  refine ⟨by decide +kernel, ?_, ?_, ?_, by decide +kernel, ?_⟩
  · rintro ⟨_, across⟩
    exact absurd across (by unfold Orthogonal; decide +kernel)
  · rw [← compared.1, ← compared.2]
  · rintro ⟨_, nearest⟩
    have middle : distance ⟨0, 0⟩ (between ⟨-2 / 5, 8⟩ ⟨2 / 5, 8⟩ 0) ≤
        distance ⟨0, 0⟩ (between ⟨-2 / 5, 8⟩ ⟨2 / 5, 8⟩ (1 / 2)) := by
      rw [between_zero]
      exact nearest (1 / 2)
    rw [distance_between_le_iff] at middle
    exact absurd middle (by decide +kernel)
  · rw [← Shape.comparedEdges_result]
    exact compared.1

end XYAnnotation

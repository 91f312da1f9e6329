import XYAnnotation.Annotations.Positions
import XYAnnotation.Library.Projection

namespace XYAnnotation

open Library

namespace QPointF

noncomputable def distance (p q : QPointF) : ℝ := √(((p.x - q.x) ^ 2 + (p.y - q.y) ^ 2 : ℚ) : ℝ)

def between (a b : QPointF) (u : ℚ) : QPointF := a + u • (b - a)

def Orthogonal (v w : QPointF) : Prop := v.x * w.x + v.y * w.y = 0

theorem lt_distance_iff (p q : QPointF) {s : ℚ} (nonneg : 0 ≤ s) :
    (s : ℝ) < p.distance q ↔ s ^ 2 < (p.x - q.x) ^ 2 + (p.y - q.y) ^ 2 := by
  rw [distance, Real.lt_sqrt (by exact_mod_cast nonneg)]
  norm_cast

theorem distance_le_iff (p q r : QPointF) :
    p.distance q ≤ p.distance r ↔ (p - q).x ^ 2 + (p - q).y ^ 2 ≤ (p - r).x ^ 2 + (p - r).y ^ 2 := by
  unfold distance
  rw [Real.sqrt_le_sqrt_iff (by positivity)]
  norm_cast

end QPointF

open QPointF

/-- Both ends are farther away than the sense distance, the projection of `p` lies strictly between them, and it is
    within the sense distance. -/
def NearEdge (p a b : QPointF) : Prop :=
  senseDis < p.distance a ∧ senseDis < p.distance b ∧
    ∃ u : ℚ, 0 < u ∧ u < 1 ∧ Orthogonal (p - between a b u) (b - a) ∧
      (p - between a b u).manhattanLength ≤ senseDis

/-- Two points that `GetFootOfPerpendicular` does not take for one. -/
def Apart (a b : QPointF) : Prop := 1 ≤ |a.x - b.x| ∨ 1 ≤ |a.y - b.y|

section Edge

variable {p a b : QPointF}

theorem manhattan_le_sq {v : QPointF} {s : ℚ} (near : v.manhattanLength ≤ s) : v.x ^ 2 + v.y ^ 2 ≤ s ^ 2 :=
  sq_add_sq_le near

theorem Apart.long (apart : Apart a b) : 0 < (b.x - a.x) ^ 2 + (b.y - a.y) ^ 2 := by
  rcases apart with across | down
  · have wide : 0 < (b.x - a.x) ^ 2 := by
      rw [← sq_abs, abs_sub_comm]
      positivity
    linarith [sq_nonneg (b.y - a.y)]
  · have high : 0 < (b.y - a.y) ^ 2 := by
      rw [← sq_abs, abs_sub_comm]
      positivity
    linarith [sq_nonneg (b.x - a.x)]

def footPart (p a b : QPointF) : ℚ := foot (p.x - a.x) (p.y - a.y) (b.x - a.x) (b.y - a.y)

theorem apart_iff (a b : QPointF) : Apart a b ↔ ¬ (|a.x - b.x| < 0x00000001 ∧ |a.y - b.y| < 0x00000001) := by
  rw [not_and_or, not_lt, not_lt, Apart]

theorem getFootOfPerpendicular_apart (apart : Apart a b) :
    getFootOfPerpendicular p a b = between a b (footPart p a b) := by
  have below : (a.x - b.x) * (a.x - b.x) + (a.y - b.y) * (a.y - b.y) = (b.x - a.x) ^ 2 + (b.y - a.y) ^ 2 := by ring
  have turned : (p.x - a.x) * (a.x - b.x) + (p.y - a.y) * (a.y - b.y) =
      -((p.x - a.x) * (b.x - a.x) + (p.y - a.y) * (b.y - a.y)) := by ring
  unfold getFootOfPerpendicular
  rw [if_neg ((apart_iff a b).mp apart)]
  simp only [below, turned, neg_div]
  ext
  · simp only [between, footPart, foot, add_x, smul_x, sub_x]
    ring
  · simp only [between, footPart, foot, add_y, smul_y, sub_y]
    ring

theorem getFootOfPerpendicular_close (close : ¬ Apart a b) : getFootOfPerpendicular p a b = a := by
  rw [apart_iff, not_not] at close
  unfold getFootOfPerpendicular
  exact if_pos close

theorem orthogonal_iff (long : 0 < (b.x - a.x) ^ 2 + (b.y - a.y) ^ 2) (u : ℚ) :
    Orthogonal (p - between a b u) (b - a) ↔ u = footPart p a b := by
  rw [footPart, ← perpendicular_iff long.ne']
  simp only [Orthogonal, between, sub_x, sub_y, add_x, add_y, smul_x, smul_y, sub_add_eq_sub_sub]

theorem nearEdge_iff (apart : Apart a b) :
    NearEdge p a b ↔ (senseDis < p.distance a ∧ senseDis < p.distance b) ∧
      (0 < footPart p a b ∧ footPart p a b < 1) ∧
      (p - between a b (footPart p a b)).manhattanLength ≤ senseDis := by
  constructor
  · rintro ⟨first, last, u, low, high, orthogonal, near⟩
    obtain rfl := (orthogonal_iff apart.long u).mp orthogonal
    exact ⟨⟨first, last⟩, ⟨low, high⟩, near⟩
  · rintro ⟨⟨first, last⟩, ⟨low, high⟩, near⟩
    exact ⟨first, last, _, low, high, (orthogonal_iff apart.long _).mpr rfl, near⟩

theorem outside_iff (p a : QPointF) :
    (senseDis : ℝ) < p.distance a ↔
      ¬ (a.x - p.x) * (a.x - p.x) + (a.y - p.y) * (a.y - p.y) ≤ senseDis * senseDis := by
  have turned : (a.x - p.x) * (a.x - p.x) + (a.y - p.y) * (a.y - p.y) = (p.x - a.x) ^ 2 + (p.y - a.y) ^ 2 := by ring
  rw [lt_distance_iff p a (by norm_num [senseDis]), turned, not_le, sq senseDis]

theorem judge_iff (a b : QPointF) (c : Circle) :
    judge a b c = true ↔
      (c.r ^ 2 < (c.x - a.x) ^ 2 + (c.y - a.y) ^ 2 ∧ c.r ^ 2 < (c.x - b.x) ^ 2 + (c.y - b.y) ^ 2) ∧
      ((c.x - a.x) * (b.y - a.y) - (c.y - a.y) * (b.x - a.x)) ^ 2 ≤ ((b.x - a.x) ^ 2 + (b.y - a.y) ^ 2) * c.r ^ 2 ∧
      0 < (c.x - a.x) * (b.x - a.x) + (c.y - a.y) * (b.y - a.y) ∧
      0 < (c.x - a.x - (b.x - a.x)) * -(b.x - a.x) + (c.y - a.y - (b.y - a.y)) * -(b.y - a.y) := by
  have outside : ∀ e : QPointF, c.r ^ 2 < (c.x - e.x) ^ 2 + (c.y - e.y) ^ 2 ↔
      ¬ (e.x - c.x) * (e.x - c.x) + (e.y - c.y) * (e.y - c.y) ≤ c.r * c.r := by
    intro e
    have turned : (e.x - c.x) * (e.x - c.x) + (e.y - c.y) * (e.y - c.y) = (c.x - e.x) ^ 2 + (c.y - e.y) ^ 2 := by ring
    rw [turned, not_le, sq c.r]
  have area : ((a.y - b.y) * c.x + (b.x - a.x) * c.y + (a.x * b.y - b.x * a.y)) *
      ((a.y - b.y) * c.x + (b.x - a.x) * c.y + (a.x * b.y - b.x * a.y)) =
      ((c.x - a.x) * (b.y - a.y) - (c.y - a.y) * (b.x - a.x)) ^ 2 := by ring
  have sides : ((a.y - b.y) * (a.y - b.y) + (b.x - a.x) * (b.x - a.x)) * c.r * c.r =
      ((b.x - a.x) ^ 2 + (b.y - a.y) ^ 2) * c.r ^ 2 := by ring
  have turn : (c.x - b.x) * (a.x - b.x) + (c.y - b.y) * (a.y - b.y) =
      (c.x - a.x - (b.x - a.x)) * -(b.x - a.x) + (c.y - a.y - (b.y - a.y)) * -(b.y - a.y) := by ring
  rw [outside, outside, ← area, ← sides, ← turn]
  unfold judge
  simp only [Bool.and_eq_true, Bool.or_eq_true, decide_eq_true_eq]
  split
  · rename_i both
    simp [both.1]
  · split
    · rename_i one
      constructor
      · intro never
        cases never
      · rintro ⟨⟨first, last⟩, _⟩
        exact absurd one (by simp only [first, last, or_self, not_false_eq_true])
    · rename_i neither
      rw [not_or] at neither
      split
      · rename_i beyond
        constructor
        · intro never
          cases never
        · rintro ⟨_, reaches, _⟩
          exact absurd reaches (not_le.mpr beyond)
      · rename_i reaches
        rw [Bool.and_eq_true, decide_eq_true_eq, decide_eq_true_eq]
        exact ⟨fun angles => ⟨neither, not_lt.mp reaches, angles⟩, fun all => all.2.2⟩

theorem reaches_of_near (p a b : QPointF) (apart : Apart a b)
    (near : (p - between a b (footPart p a b)).manhattanLength ≤ senseDis) :
    ((p.x - a.x) * (b.y - a.y) - (p.y - a.y) * (b.x - a.x)) ^ 2 ≤
      ((b.x - a.x) ^ 2 + (b.y - a.y) ^ 2) * senseDis ^ 2 := by
  have height := manhattan_le_sq near
  simp only [between, sub_x, sub_y, add_x, add_y, smul_x, smul_y, sub_add_eq_sub_sub] at height
  rw [cross_sq apart.long.ne']
  exact mul_le_mul_of_nonneg_left height apart.long.le

/-- The hit test of one edge. An edge whose ends are less than 1 apart both ways is never hit: its foot is an end. -/
theorem edgeHasPt_iff (p a b : QPointF) : edgeHasPt p (a, b) = true ↔ Apart a b ∧ NearEdge p a b := by
  rw [edgeHasPt, Bool.and_eq_true, decide_eq_true_eq, judge_iff, ← lt_distance_iff p a (by norm_num [senseDis]),
    ← lt_distance_iff p b (by norm_num [senseDis])]
  by_cases apart : Apart a b
  · rw [getFootOfPerpendicular_apart apart, nearEdge_iff apart]
    unfold footPart
    rw [foot_pos_iff apart.long, foot_lt_one_iff apart.long]
    constructor
    · rintro ⟨⟨ends, _, angles⟩, near⟩
      exact ⟨apart, ends, angles, near⟩
    · rintro ⟨_, ends, angles, near⟩
      exact ⟨⟨ends, reaches_of_near p a b apart near, angles⟩, near⟩
  · rw [getFootOfPerpendicular_close apart]
    constructor
    · rintro ⟨⟨⟨first, _⟩, _⟩, near⟩
      rw [lt_distance_iff p a (by norm_num [senseDis])] at first
      exact absurd (manhattan_le_sq near) (not_le.mpr first)
    · rintro ⟨distinct, _⟩
      exact absurd distinct apart

end Edge

section Edges

variable {points : List QPointF}

theorem edges_length (points : List QPointF) : (edges points).length = points.length := by
  cases points <;> simp [edges]

theorem secondEnd_getElem? {k : ℕ} (inside : k < points.length) :
    (points.tail ++ points.take 1)[k]? = points[(k + 1) % points.length]? := by
  by_cases last : k + 1 = points.length
  · have front : k - (points.length - 1) = 0 := by omega
    rw [last, Nat.mod_self, List.getElem?_append_right (by rw [List.length_tail]; omega), List.length_tail, front,
      List.getElem?_take_of_lt (by omega)]
  · rw [Nat.mod_eq_of_lt (by omega), List.getElem?_append_left (by rw [List.length_tail]; omega), List.getElem?_tail]

theorem edges_getElem?_iff {k : ℕ} {a b : QPointF} :
    (edges points)[k]? = some (a, b) ↔ points[k]? = some a ∧ points[(k + 1) % points.length]? = some b := by
  rw [edges, List.getElem?_zip_eq_some]
  constructor
  · rintro ⟨first, second⟩
    obtain ⟨inside, _⟩ := List.getElem?_eq_some_iff.mp first
    rw [secondEnd_getElem? inside] at second
    exact ⟨first, second⟩
  · rintro ⟨first, second⟩
    obtain ⟨inside, _⟩ := List.getElem?_eq_some_iff.mp first
    rw [← secondEnd_getElem? inside] at second
    exact ⟨first, second⟩

end Edges

namespace Shape

variable {shape : Shape} {p : QPointF}

def testsEdges (shape : Shape) : Bool :=
  match shape.type with
  | .line | .curve => false
  | _ => true

def edgeEnd (points : YPolygonPoints) (i : ℕ) : Except Fault QPointF :=
  if i + 1 < points.size then points.at (i + 1) else points.at 0

/-- The loop of `Shape::isEdgeHavPt`; `pos` is what the reference parameter holds before. -/
def edgeLoop (points : YPolygonPoints) (point : QPointF) (pos : ℤ) : List ℕ → Except Fault (Bool × ℤ)
  | [] => .ok (false, pos)
  | i :: rest => do
    let first ← points.at i
    let last ← edgeEnd points i
    if edgeHasPt point (first, last) then .ok (true, i + 1) else edgeLoop points point pos rest

/-- `isEdgeHavPt` with its reference parameter. -/
def isEdgeHavPtRef (shape : Shape) (point : QPointF) (pos : ℤ) : Except Fault (Bool × ℤ) :=
  if shape.testsEdges then
    if shape.points.size < 2 then .ok (false, pos)
    else edgeLoop shape.points point pos (List.range shape.points.size)
  else .ok (false, pos)

def edgeAnswer (pos : ℤ) : Option ℕ → Bool × ℤ
  | some found => (true, found)
  | none => (false, pos)

theorem at_natCast (points : YPolygonPoints) {i : ℕ} (inside : i < points.oriPoints.length) :
    points.at i = .ok points.oriPoints[i] := by
  have bound : ¬ (points.size : ℤ) < i := by
    unfold YPolygonPoints.size
    omega
  rw [YPolygonPoints.at, if_neg bound, QVector.at_natCast points.oriPoints i inside]

theorem edge_read (points : YPolygonPoints) {i : ℕ} (inside : i < points.oriPoints.length) :
    ∃ a b, points.at i = .ok a ∧ edgeEnd points i = .ok b ∧ (edges points.oriPoints)[i]? = some (a, b) := by
  unfold edgeEnd YPolygonPoints.size
  by_cases more : i + 1 < points.oriPoints.length
  · have read : points.at (i + 1) = .ok points.oriPoints[i + 1] := by exact_mod_cast at_natCast points more
    refine ⟨_, _, at_natCast points inside, (if_pos more).trans read, ?_⟩
    rw [edges_getElem?_iff, Nat.mod_eq_of_lt more]
    exact ⟨List.getElem?_eq_getElem inside, List.getElem?_eq_getElem more⟩
  · have start : 0 < points.oriPoints.length := by omega
    have read : points.at 0 = .ok points.oriPoints[0] := by exact_mod_cast at_natCast points start
    have last : i + 1 = points.oriPoints.length := by omega
    refine ⟨_, _, at_natCast points inside, (if_neg more).trans read, ?_⟩
    rw [edges_getElem?_iff, last, Nat.mod_self]
    exact ⟨List.getElem?_eq_getElem inside, List.getElem?_eq_getElem start⟩

theorem edgeLoop_eq (points : YPolygonPoints) (point : QPointF) (pos : ℤ) (k m : ℕ) (rest : k + m = points.size) :
    edgeLoop points point pos (List.range' k m) =
      .ok (edgeAnswer pos ((((edges points.oriPoints).drop k).findIdx? (edgeHasPt point)).map (k + · + 1))) := by
  induction m generalizing k with
  | zero =>
    have done : (edges points.oriPoints).drop k = [] := by
      rw [List.drop_eq_nil_iff, edges_length]
      unfold YPolygonPoints.size at rest
      omega
    rw [done]
    rfl
  | succ m ih =>
    have inside : k < points.oriPoints.length := by
      unfold YPolygonPoints.size at rest
      omega
    obtain ⟨a, b, first, last, edge⟩ := edge_read points inside
    obtain ⟨here, value⟩ := List.getElem?_eq_some_iff.mp edge
    have later := ih (k + 1) (by omega)
    rw [List.range'_succ, List.drop_eq_getElem_cons here, value, List.findIdx?_cons, edgeLoop, first, last]
    change (if edgeHasPt point (a, b) then _ else edgeLoop points point pos (List.range' (k + 1) m)) = _
    rw [later]
    cases edgeHasPt point (a, b) with
    | true => rfl
    | false =>
      have shifted : ∀ j, k + 1 + j + 1 = k + (j + 1) + 1 := fun j => by omega
      simp [Option.map_map, Function.comp_def, shifted]

/-- The loop finds what the list of edges shows, reads in range and leaves `pos` alone when it finds nothing. -/
theorem isEdgeHavPtRef_eq (shape : Shape) (point : QPointF) (pos : ℤ) :
    shape.isEdgeHavPtRef point pos = .ok (edgeAnswer pos (shape.isEdgeHavPt point)) := by
  have loop := edgeLoop_eq shape.points point pos 0 shape.points.size (by omega)
  rw [List.drop_zero, ← List.range_eq_range'] at loop
  simp only [Nat.zero_add] at loop
  unfold isEdgeHavPtRef isEdgeHavPt testsEdges
  rw [loop]
  cases shape.type with
  | line => rfl
  | curve => rfl
  | rectangle | polygon | polyline | none => simp only [if_true]; split <;> rfl

/-- Edge `k`: from point `k` to the next one, from the last one back to point 0. -/
def IsEdge (shape : Shape) (k : ℕ) (a b : QPointF) : Prop :=
  shape.points.oriPoints[k]? = some a ∧ shape.points.oriPoints[(k + 1) % shape.pointCount]? = some b

def HitAt (shape : Shape) (p : QPointF) (k : ℕ) : Prop := ∃ a b, shape.IsEdge k a b ∧ Apart a b ∧ NearEdge p a b

theorem isEdge_iff {k : ℕ} {a b : QPointF} : shape.IsEdge k a b ↔ (edges shape.points.oriPoints)[k]? = some (a, b) :=
  edges_getElem?_iff.symm

theorem hitAt_iff {k : ℕ} : shape.HitAt p k ↔
    ∃ inside : k < (edges shape.points.oriPoints).length, edgeHasPt p (edges shape.points.oriPoints)[k] = true := by
  constructor
  · rintro ⟨a, b, edge, hit⟩
    obtain ⟨inside, value⟩ := List.getElem?_eq_some_iff.mp (isEdge_iff.mp edge)
    refine ⟨inside, ?_⟩
    rw [value]
    exact (edgeHasPt_iff p a b).mpr hit
  · rintro ⟨inside, hit⟩
    exact ⟨_, _, isEdge_iff.mpr (List.getElem?_eq_getElem inside), (edgeHasPt_iff p _ _).mp hit⟩

theorem isEdgeHavPt_eq (tests : shape.testsEdges = true) (two : 2 ≤ shape.pointCount) (p : QPointF) :
    shape.isEdgeHavPt p = ((edges shape.points.oriPoints).findIdx? (edgeHasPt p)).map (· + 1) := by
  have enough : ¬ shape.points.size < 2 := not_lt.mpr two
  unfold testsEdges at tests
  unfold isEdgeHavPt
  cases type : shape.type with
  | line | curve =>
    rw [type] at tests
    cases tests
  | rectangle | polygon | polyline | none => exact if_neg enough

theorem isEdgeHavPt_some_iff (tests : shape.testsEdges = true) (two : 2 ≤ shape.pointCount) {pos : ℕ} :
    shape.isEdgeHavPt p = some pos ↔ ∃ k, IsLeast {k | shape.HitAt p k} k ∧ pos = k + 1 := by
  rw [isEdgeHavPt_eq tests two, Option.map_eq_some_iff]
  refine exists_congr fun k => ?_
  rw [List.findIdx?_eq_some_iff_getElem, eq_comm (a := pos)]
  refine and_congr_left fun _ => ?_
  constructor
  · rintro ⟨inside, hit, earlier⟩
    refine ⟨hitAt_iff.mpr ⟨inside, hit⟩, ?_⟩
    intro j found
    obtain ⟨_, hit'⟩ := hitAt_iff.mp found
    by_contra before
    exact earlier j (not_le.mp before) hit'
  · rintro ⟨found, least⟩
    obtain ⟨inside, hit⟩ := hitAt_iff.mp found
    refine ⟨inside, hit, ?_⟩
    intro j before hit'
    have found' : shape.HitAt p j := hitAt_iff.mpr ⟨before.trans inside, hit'⟩
    exact absurd (least found') (not_le.mpr before)

theorem isEdgeHavPt_none_iff (tests : shape.testsEdges = true) (two : 2 ≤ shape.pointCount) :
    shape.isEdgeHavPt p = none ↔ ∀ k, ¬ shape.HitAt p k := by
  rw [isEdgeHavPt_eq tests two, Option.map_eq_none_iff, List.findIdx?_eq_none_iff]
  constructor
  · intro missed k found
    obtain ⟨inside, hit⟩ := hitAt_iff.mp found
    have miss := missed _ (List.getElem_mem inside)
    rw [hit] at miss
    cases miss
  · intro missed edge member
    obtain ⟨k, inside, rfl⟩ := List.getElem_of_mem member
    by_contra hit
    exact missed k (hitAt_iff.mpr ⟨inside, Bool.of_not_eq_false hit⟩)

/-- `vertex` has become a point of its own between the ends of edge `k`. -/
def SplitsEdge (shape result : Shape) (k : ℕ) (vertex : QPointF) : Prop :=
  (∃ a b, shape.IsEdge k a b ∧ result.IsEdge k a vertex ∧ result.IsEdge (k + 1) vertex b) ∧
    result.points.oriPoints.eraseIdx (k + 1) = shape.points.oriPoints

theorem insertPoint_within (inserts : shape.inserts = true) (vertex : QPointF) {pos : ℕ} (inside : pos ≤ shape.pointCount) :
    ∃ result, shape.insertPoint vertex pos = .ok result ∧
      result.points.oriPoints = shape.points.oriPoints.insertIdx pos vertex := by
  have after := shape.pointsAfter_insert vertex pos
  have call := shape.call_insertPoint vertex pos
  rw [if_pos ⟨inserts, by omega⟩, Int.toNat_natCast] at after
  have completes : ∃ result, shape.call (.insertPoint vertex pos) = .ok result := by
    rw [call, if_pos inserts]
    unfold pointCount at inside
    by_cases before : (pos : ℤ) < shape.points.size ∧ (0 : ℤ) ≤ pos
    · obtain ⟨points, inserted⟩ := YPolygonPoints.insert_inside shape.points vertex before.2 (le_of_lt before.1)
      rw [if_pos before, inserted]
      exact ⟨_, rfl⟩
    · rw [if_neg before, if_pos (by omega)]
      exact ⟨_, rfl⟩
  obtain ⟨result, done⟩ := completes
  rw [pointsAfter_ok done] at after
  exact ⟨result, done, after⟩

theorem insertIdx_splits {result : Shape} {k : ℕ} {vertex : QPointF} (inside : k < shape.pointCount)
    (inserted : result.points.oriPoints = shape.points.oriPoints.insertIdx (k + 1) vertex) :
    shape.SplitsEdge result k vertex := by
  unfold pointCount YPolygonPoints.size at inside
  have count : result.points.oriPoints.length = shape.points.oriPoints.length + 1 := by
    rw [inserted, List.length_insertIdx_of_le_length (by omega)]
  have around : (k + 1) % shape.points.oriPoints.length < shape.points.oriPoints.length := Nat.mod_lt _ (by omega)
  refine ⟨⟨shape.points.oriPoints[k], shape.points.oriPoints[(k + 1) % shape.points.oriPoints.length],
    ⟨List.getElem?_eq_getElem inside, List.getElem?_eq_getElem around⟩, ⟨?_, ?_⟩, ⟨?_, ?_⟩⟩, ?_⟩
  · rw [inserted, List.getElem?_insertIdx_of_lt (by omega), List.getElem?_eq_getElem inside]
  · unfold pointCount YPolygonPoints.size
    rw [count, Nat.mod_eq_of_lt (by omega), inserted, List.getElem?_insertIdx_self, if_pos (by omega)]
  · rw [inserted, List.getElem?_insertIdx_self, if_pos (by omega)]
  · unfold pointCount YPolygonPoints.size
    rw [count, ← List.getElem?_eq_getElem around, inserted]
    by_cases last : k + 1 = shape.points.oriPoints.length
    · rw [last, Nat.mod_self, Nat.mod_self, List.getElem?_insertIdx_of_lt (by omega)]
    · rw [Nat.mod_eq_of_lt (by omega), Nat.mod_eq_of_lt (by omega), List.getElem?_insertIdx_of_gt (by omega),
        Nat.add_sub_cancel]
  · rw [inserted, List.eraseIdx_insertIdx_self]

theorem HitAt.inside {k : ℕ} (hit : shape.HitAt p k) : k < shape.pointCount := by
  obtain ⟨a, b, edge, _⟩ := hit
  exact (List.getElem?_eq_some_iff.mp edge.1).1

/-- The hit test of a shape whose neighbouring points are at least 1 apart in one direction, and what an insertion at
    the answer does. -/
theorem edge_hit_specified (shape : Shape) (tests : shape.testsEdges = true) (two : 2 ≤ shape.pointCount)
    (apart : ∀ k a b, shape.IsEdge k a b → Apart a b) (p : QPointF) (pos : ℤ) :
    ∃ answer after, shape.isEdgeHavPtRef p pos = .ok (answer, after) ∧
      (answer = true ↔ ∃ k a b, shape.IsEdge k a b ∧ NearEdge p a b) ∧
      (answer = true → ∃ k : ℕ, IsLeast {k | ∃ a b, shape.IsEdge k a b ∧ NearEdge p a b} k ∧ after = k + 1 ∧
        (shape.inserts = true → ∀ vertex, ∃ result, shape.insertPoint vertex after = .ok result ∧
          shape.SplitsEdge result k vertex)) ∧
      (answer = false → after = pos) := by
  have hits : ∀ k, (∃ a b, shape.IsEdge k a b ∧ NearEdge p a b) ↔ shape.HitAt p k := by
    intro k
    constructor
    · rintro ⟨a, b, edge, near⟩
      exact ⟨a, b, edge, apart k a b edge, near⟩
    · rintro ⟨a, b, edge, _, near⟩
      exact ⟨a, b, edge, near⟩
  simp only [hits]
  rw [isEdgeHavPtRef_eq]
  cases found : shape.isEdgeHavPt p with
  | none =>
    have missed := (isEdgeHavPt_none_iff tests two).mp found
    refine ⟨false, pos, rfl, ?_, ?_, fun _ => rfl⟩
    · simp [missed]
    · intro never
      cases never
  | some after =>
    obtain ⟨k, least, rfl⟩ := (isEdgeHavPt_some_iff tests two).mp found
    refine ⟨true, (k + 1 : ℕ), rfl, iff_of_true rfl ⟨k, least.1⟩, ?_, ?_⟩
    · intro _
      refine ⟨k, least, by push_cast; rfl, ?_⟩
      intro inserts vertex
      have inside := HitAt.inside least.1
      obtain ⟨result, done, inserted⟩ := insertPoint_within inserts vertex (Nat.succ_le_of_lt inside)
      exact ⟨result, done, insertIdx_splits inside inserted⟩
    · intro never
      cases never

def ofPoints (type : DrawMode) (points : List QPointF) : Shape :=
  { new type with points := ⟨points, points, ⟨0, 0⟩, rfl⟩ }

theorem ofPoints_isEdge {type : DrawMode} {points : List QPointF} {k : ℕ} {a b : QPointF}
    (edge : (ofPoints type points).IsEdge k a b) : (a, b) ∈ edges points :=
  List.mem_of_getElem? (isEdge_iff.mp edge)

def square : Shape := ofPoints .polygon [⟨0, 0⟩, ⟨100, 0⟩, ⟨100, 100⟩, ⟨0, 100⟩]

theorem square_apart {k : ℕ} {a b : QPointF} (edge : square.IsEdge k a b) : Apart a b := by
  have sides : ∀ side ∈ edges [⟨0, 0⟩, ⟨100, 0⟩, ⟨100, 100⟩, ⟨0, 100⟩],
      1 ≤ |side.1.x - side.2.x| ∨ 1 ≤ |side.1.y - side.2.y| := by decide +kernel
  exact sides (a, b) (ofPoints_isEdge edge)

theorem square_closing_edge_hit :
    ∃ answer after, square.isEdgeHavPtRef ⟨5, 50⟩ (-1) = .ok (answer, after) ∧ answer = true ∧ after = 4 ∧
      ∃ result, square.insertPoint ⟨5, 50⟩ after = .ok result ∧ square.SplitsEdge result 3 ⟨5, 50⟩ := by
  obtain ⟨answer, after, done, _, hit, _⟩ := edge_hit_specified square (by decide) (by decide)
    (fun _ _ _ => square_apart) ⟨5, 50⟩ (-1)
  have computed : square.isEdgeHavPtRef ⟨5, 50⟩ (-1) = .ok (true, 4) := by decide +kernel
  obtain ⟨rfl, rfl⟩ := Prod.mk.inj (Except.ok.inj (done.symm.trans computed))
  obtain ⟨k, _, position, inserted⟩ := hit rfl
  obtain rfl : k = 3 := by omega
  exact ⟨true, 4, done, rfl, rfl, inserted (by decide) ⟨5, 50⟩⟩

end Shape

end XYAnnotation

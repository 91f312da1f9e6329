import XYAnnotation.Annotations.Editing
import XYAnnotation.Library.Loops

namespace XYAnnotation

inductive Marker
  | activeRect (pos : QPointF)
  | closedEllipse (pos : QPointF)
  | openEllipse (pos : QPointF)
  deriving DecidableEq, Repr

inductive Path
  | rect (p1 p2 : QPointF)
  | segment (p1 p2 : QPointF)
  | polygon (points : List QPointF) (closedSubpath : Bool)
  | curve (points : List QPointF)
  deriving DecidableEq, Repr

/-- What a shape puts on the canvas. Line widths and brushes are left out. -/
structure Picture where
  path : Path
  pen : QColor
  markers : List Marker
  filled : Bool
  deriving DecidableEq, Repr

namespace Shape

def white : QColor := ⟨255, 255, 255⟩

def openColor : QColor := ⟨0, 255, 0⟩

variable (shape : Shape)

def pen : QColor :=
  if shape.isClosed then if shape.isSelect then white else shape.color else openColor

def filled : Bool := shape.isActive || shape.isSelect || decide (shape.controlPtActive ≥ 0)

def marker (i : ℕ) (pos : QPointF) : Marker :=
  if shape.isClosed then if shape.controlPtActive = i then .activeRect pos else .closedEllipse pos
  else .openEllipse pos

def markers (points : List QPointF) : Except Fault (List Marker) :=
  (List.range points.length).mapM fun i : ℕ => do
    let pos ← QVector.at points i
    .ok (shape.marker i pos)

def shownPoints (isdisEndPt : Bool) : List QPointF :=
  if isdisEndPt then shape.points.oriPoints ++ [shape.disPoit] else shape.points.oriPoints

def lerpAt (t : ℚ) (points : List QPointF) (i : ℕ) : Except Fault (List QPointF) := do
  let a ← QVector.at points i
  let b ← QVector.at points (i + 1)
  .ok (points.set i ((1 - t) • a + t • b))

/-- `deCasteljau`, which overwrites its copy of the points in place. -/
def deCasteljau (controlPoints : List QPointF) (t : ℚ) : Except Fault QPointF := do
  let n := controlPoints.length
  let points ← (List.range' 1 (n - 1)).foldlM (fun (points : List QPointF) (k : ℕ) =>
    (List.range (n - k)).foldlM (lerpAt t) points) controlPoints
  QVector.at points 0

def numSteps : ℕ := 100

/-- `YRectangle::draw`, `yLine::draw`, `yCurve::draw`, `YPolygon::draw` and `YPolyline::draw`. The
    first three draw nothing without a point. -/
def draw (isdisEndPt : Bool) : Except Fault (Option Picture) :=
  let points := shape.shownPoints isdisEndPt
  match shape.type with
  | .rectangle =>
    if shape.points.size = 0 then .ok none else do
      let p1 ← QVector.at points 0
      let p2 ← QVector.at points 1
      let markers ← shape.markers points
      .ok (some ⟨.rect p1 p2, shape.pen, markers, shape.filled⟩)
  | .line =>
    if shape.points.size = 0 then .ok none else do
      let p1 ← QVector.at points 0
      let p2 ← QVector.at points 1
      let markers ← shape.markers points
      .ok (some ⟨.segment p1 p2, shape.pen, markers, false⟩)
  | .curve =>
    if shape.points.size = 0 then .ok none else do
      let p1 ← QVector.at points 0
      let path ← (List.range' 1 numSteps).mapM fun i : ℕ => deCasteljau points (i / numSteps)
      let markers ← shape.markers points
      .ok (some ⟨.curve (p1 :: path), shape.color, markers, false⟩)
  | .polygon | .none => do
    let markers ← shape.markers points
    .ok (some ⟨.polygon points shape.isClosed, shape.pen, markers, shape.filled⟩)
  | .polyline => do
    let markers ← shape.markers points
    .ok (some ⟨.polygon points false, shape.pen, markers, false⟩)

open Library

theorem markers_completes (points : List QPointF) : ∃ markers, shape.markers points = .ok markers := by
  rw [markers, mapM_completes]
  intro i member
  have bound : i < points.length := List.mem_range.mp member
  refine ⟨shape.marker i points[i], ?_⟩
  rw [QVector.at_natCast points i bound]
  rfl

theorem lerpAt_completes (t : ℚ) {points : List QPointF} {i : ℕ} (bound : i + 1 < points.length) :
    ∃ next, lerpAt t points i = .ok next ∧ next.length = points.length := by
  have low : i < points.length := by omega
  have second : QVector.at points (i + 1) = .ok points[i + 1] := by
    exact_mod_cast QVector.at_natCast points (i + 1) bound
  refine ⟨points.set i ((1 - t) • points[i] + t • points[i + 1]), ?_, List.length_set⟩
  rw [lerpAt, QVector.at_natCast points i low, second]
  rfl

theorem deCasteljau_completes {controlPoints : List QPointF} (nonempty : controlPoints ≠ []) (t : ℚ) :
    ∃ point, deCasteljau controlPoints t = .ok point := by
  have rounds : ∃ points, (List.range' 1 (controlPoints.length - 1)).foldlM
      (fun (points : List QPointF) (k : ℕ) => (List.range (controlPoints.length - k)).foldlM (lerpAt t) points)
      controlPoints = .ok points ∧ points.length = controlPoints.length := by
    apply foldlM_completes (fun points : List QPointF => points.length = controlPoints.length) _ rfl
    intro points k round length
    have first : 1 ≤ k := (List.mem_range'_1.mp round).1
    have inner : ∃ next, (List.range (controlPoints.length - k)).foldlM (lerpAt t) points = .ok next ∧
        next.length = controlPoints.length := by
      apply foldlM_completes (fun points : List QPointF => points.length = controlPoints.length) _ length
      intro points i member length
      have bound : i < controlPoints.length - k := List.mem_range.mp member
      obtain ⟨next, done, same⟩ := lerpAt_completes t (show i + 1 < points.length by omega)
      exact ⟨next, done, same.trans length⟩
    exact inner
  obtain ⟨points, done, length⟩ := rounds
  have positive : 0 < points.length := by
    rw [length]
    exact List.length_pos_iff.mpr nonempty
  refine ⟨points[0], ?_⟩
  rw [deCasteljau, done]
  exact QVector.at_natCast points 0 positive

theorem at_completes_iff (points : List QPointF) (i : ℕ) :
    (∃ point, QVector.at points i = .ok point) ↔ i < points.length := by
  constructor
  · rintro ⟨point, read⟩
    obtain ⟨_, found⟩ := QVector.at_completes read
    exact (List.getElem?_eq_some_iff.mp found).1
  · intro bound
    exact ⟨points[i], QVector.at_natCast points i bound⟩

theorem shownPoints_length (isdisEndPt : Bool) :
    (shape.shownPoints isdisEndPt).length = shape.pointCount + if isdisEndPt then 1 else 0 := by
  cases isdisEndPt <;> simp [shownPoints, pointCount, YPolygonPoints.size]

theorem corners_complete_iff (points : List QPointF) (picture : QPointF → QPointF → List Marker → Option Picture) :
    (∃ result, (do
      let p1 ← QVector.at points 0
      let p2 ← QVector.at points 1
      let markers ← shape.markers points
      .ok (picture p1 p2 markers) : Except Fault (Option Picture)) = .ok result) ↔ 1 < points.length := by
  constructor
  · rintro ⟨result, done⟩
    obtain ⟨p1, _, rest⟩ := bind_completes done
    obtain ⟨p2, second, _⟩ := bind_completes rest
    exact (at_completes_iff points 1).mp ⟨p2, second⟩
  · intro bound
    obtain ⟨p1, first⟩ := (at_completes_iff points 0).mpr (by omega)
    obtain ⟨p2, second⟩ := (at_completes_iff points 1).mpr bound
    obtain ⟨markers, drawn⟩ := shape.markers_completes points
    refine ⟨picture p1 p2 markers, ?_⟩
    simp only [Nat.cast_zero, Nat.cast_one] at first second
    rw [first, second, drawn]
    rfl

theorem corners_draw_iff (isdisEndPt : Bool) (picture : QPointF → QPointF → List Marker → Option Picture) :
    (∃ result, (if shape.points.size = 0 then .ok none else do
      let p1 ← QVector.at (shape.shownPoints isdisEndPt) 0
      let p2 ← QVector.at (shape.shownPoints isdisEndPt) 1
      let markers ← shape.markers (shape.shownPoints isdisEndPt)
      .ok (picture p1 p2 markers) : Except Fault (Option Picture)) = .ok result) ↔
      (shape.pointCount = 1 → isdisEndPt = true) := by
  by_cases empty : shape.points.size = 0
  · have none : shape.pointCount ≠ 1 := by
      unfold pointCount
      omega
    simp [empty, none]
  · rw [if_neg empty, corners_complete_iff, shownPoints_length]
    have some : shape.pointCount ≠ 0 := empty
    cases isdisEndPt <;> simp <;> omega

theorem curve_draw_completes (isdisEndPt : Bool) (curve : shape.type = .curve) :
    ∃ picture, shape.draw isdisEndPt = .ok picture := by
  unfold draw
  simp only [curve]
  split
  · exact ⟨none, rfl⟩
  · rename_i some
    have positive : 0 < (shape.shownPoints isdisEndPt).length := by
      rw [shownPoints_length]
      unfold pointCount
      omega
    obtain ⟨p1, first⟩ := (at_completes_iff (shape.shownPoints isdisEndPt) 0).mpr positive
    obtain ⟨path, drawn⟩ : ∃ path, (List.range' 1 numSteps).mapM (fun i : ℕ =>
        deCasteljau (shape.shownPoints isdisEndPt) (i / numSteps)) = .ok path := by
      rw [mapM_completes]
      intro i _
      exact deCasteljau_completes (List.length_pos_iff.mp positive) _
    obtain ⟨markers, marked⟩ := shape.markers_completes (shape.shownPoints isdisEndPt)
    refine ⟨Option.some ⟨.curve (p1 :: path), shape.color, markers, false⟩, ?_⟩
    simp only [Nat.cast_zero] at first
    rw [first, drawn, marked]
    rfl

theorem draw_completes_iff (isdisEndPt : Bool) :
    (∃ picture, shape.draw isdisEndPt = .ok picture) ↔
      (shape.type.twoPoint = true → shape.pointCount = 1 → isdisEndPt = true) := by
  obtain ⟨markers, marked⟩ := shape.markers_completes (shape.shownPoints isdisEndPt)
  cases type : shape.type with
  | rectangle =>
    simp only [draw, type, DrawMode.twoPoint, forall_const]
    exact shape.corners_draw_iff isdisEndPt fun p1 p2 markers => some ⟨.rect p1 p2, shape.pen, markers, shape.filled⟩
  | line =>
    simp only [draw, type, DrawMode.twoPoint, forall_const]
    exact shape.corners_draw_iff isdisEndPt fun p1 p2 markers => some ⟨.segment p1 p2, shape.pen, markers, false⟩
  | curve => exact iff_of_true (shape.curve_draw_completes isdisEndPt type) (by simp [DrawMode.twoPoint])
  | polygon =>
    simp only [draw, type, marked]
    exact iff_of_true ⟨_, rfl⟩ (by simp [DrawMode.twoPoint])
  | polyline =>
    simp only [draw, type, marked]
    exact iff_of_true ⟨_, rfl⟩ (by simp [DrawMode.twoPoint])
  | none =>
    simp only [draw, type, marked]
    exact iff_of_true ⟨_, rfl⟩ (by simp [DrawMode.twoPoint])

end Shape

end XYAnnotation

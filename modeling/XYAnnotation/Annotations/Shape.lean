import XYAnnotation.Qt.Values

namespace XYAnnotation

inductive DrawMode
  | rectangle
  | line
  | curve
  | polygon
  | polyline
  | none
  deriving DecidableEq, Repr

def DrawMode.twoPoint : DrawMode → Bool
  | .rectangle | .line => true
  | _ => false

structure LabelProperty where
  label : String
  color : QColor
  visible : Bool
  id : ℤ
  groupId : ℤ
  description : String
  deriving DecidableEq, Repr

namespace LabelProperty

def defaultColor : QColor := ⟨0, 0, 0⟩

def default : LabelProperty := ⟨"", defaultColor, true, -1, 0, "description"⟩

/-- `LabelProperty(label, color, visible, id)`: group and description keep the initialisers
    of the class. -/
def make (label : String) (color : QColor) (visible : Bool) (id : ℤ) : LabelProperty :=
  ⟨label, color, visible, id, 0, "description"⟩

/-- `operator =`, which does not copy `m_groupId` and `m_description`. -/
def assign (this label : LabelProperty) : LabelProperty :=
  { this with
    color := label.color
    id := label.id
    label := label.label
    visible := label.visible }

end LabelProperty

/-- The vertices of a shape twice: `imgPoints` with the origin in the image's corner, `oriPoints`
    with the origin in its centre. Both are private, and every method changes them in step. -/
structure YPolygonPoints where
  imgPoints : List QPointF
  oriPoints : List QPointF
  offset : QPointF
  inStep : imgPoints.length = oriPoints.length
  deriving DecidableEq, Repr

namespace YPolygonPoints

def empty : YPolygonPoints := ⟨[], [], ⟨0, 0⟩, rfl⟩

def size (points : YPolygonPoints) : ℕ := points.oriPoints.length

def setImgWH (points : YPolygonPoints) (width height : ℕ) : YPolygonPoints :=
  { points with offset := ⟨width / 2, height / 2⟩ }

def append (points : YPolygonPoints) (point : QPointF) : YPolygonPoints :=
  { points with
    oriPoints := points.oriPoints ++ [point]
    imgPoints := points.imgPoints ++ [point + points.offset]
    inStep := by simp [points.inStep] }

def «at» (points : YPolygonPoints) (idx : ℤ) : Except Fault QPointF :=
  if points.size < idx then .error .idxOutOfRange else QVector.at points.oriPoints idx

def replace (points : YPolygonPoints) (point : QPointF) (pos : ℤ) : Except Fault YPolygonPoints :=
  if points.size < pos then .error .idxOutOfRange
  else if 0 ≤ pos ∧ pos < points.size then
    .ok { points with
      oriPoints := points.oriPoints.set pos.toNat point
      imgPoints := points.imgPoints.set pos.toNat (point + points.offset)
      inStep := by simp [points.inStep] }
  else .error .outOfRange

def insert (points : YPolygonPoints) (point : QPointF) (pos : ℤ) : Except Fault YPolygonPoints :=
  if points.size < pos then .error .idxOutOfRange
  else if 0 ≤ pos then
    .ok { points with
      oriPoints := points.oriPoints.insertIdx pos.toNat point
      imgPoints := points.imgPoints.insertIdx pos.toNat (point + points.offset)
      inStep := by simp [List.length_insertIdx, points.inStep] }
  else .error .outOfRange

def erase (points : YPolygonPoints) (idx : ℤ) : Except Fault YPolygonPoints :=
  if points.size ≤ idx then .error .idxOutOfRange
  else if 0 ≤ idx then
    .ok { points with
      oriPoints := points.oriPoints.eraseIdx idx.toNat
      imgPoints := points.imgPoints.eraseIdx idx.toNat
      inStep := by simp [List.length_eraseIdx, points.inStep] }
  else .error .outOfRange

end YPolygonPoints

def senseDis : ℚ := 8

structure Shape where
  points : YPolygonPoints
  type : DrawMode
  color : QColor
  name : String
  id : ℤ
  isClosed : Bool
  isDrag : Bool
  isPress : Bool
  isActive : Bool
  isSelect : Bool
  controlPtActive : ℤ
  disPoit : QPointF
  label : LabelProperty
  deriving DecidableEq, Repr

section Geometry

def getFootOfPerpendicular (pt first last : QPointF) : QPointF :=
  let dx := first.x - last.x
  let dy := first.y - last.y
  if |dx| < 0x00000001 ∧ |dy| < 0x00000001 then first
  else
    let u := (pt.x - first.x) * (first.x - last.x) + (pt.y - first.y) * (first.y - last.y)
    let u := u / (dx * dx + dy * dy)
    ⟨first.x + u * dx, first.y + u * dy⟩

structure Circle where
  r : ℚ
  x : ℚ
  y : ℚ

def judge (p1 p2 : QPointF) (c : Circle) : Bool :=
  let flag1 := decide ((p1.x - c.x) * (p1.x - c.x) + (p1.y - c.y) * (p1.y - c.y) ≤ c.r * c.r)
  let flag2 := decide ((p2.x - c.x) * (p2.x - c.x) + (p2.y - c.y) * (p2.y - c.y) ≤ c.r * c.r)
  if flag1 && flag2 then false
  else if flag1 || flag2 then false
  else
    let A := p1.y - p2.y
    let B := p2.x - p1.x
    let C := p1.x * p2.y - p2.x * p1.y
    let dist1 := A * c.x + B * c.y + C
    let dist1 := dist1 * dist1
    let dist2 := (A * A + B * B) * c.r * c.r
    if dist1 > dist2 then false
    else
      let angle1 := (c.x - p1.x) * (p2.x - p1.x) + (c.y - p1.y) * (p2.y - p1.y)
      let angle2 := (c.x - p2.x) * (p1.x - p2.x) + (c.y - p2.y) * (p1.y - p2.y)
      decide (angle1 > 0) && decide (angle2 > 0)

/-- The edges of a closed polygon: point `i` with point `i + 1`, the last point with point 0. -/
def edges (points : List QPointF) : List (QPointF × QPointF) :=
  points.zip (points.tail ++ points.take 1)

def edgeHasPt (point : QPointF) (edge : QPointF × QPointF) : Bool :=
  judge edge.1 edge.2 ⟨senseDis, point.x, point.y⟩ &&
    decide ((point - getFootOfPerpendicular point edge.1 edge.2).manhattanLength ≤ senseDis)

end Geometry

namespace Shape

def new (type : DrawMode) : Shape :=
  { points := .empty, type, color := LabelProperty.defaultColor, name := "", id := 0,
    isClosed := false, isDrag := false, isPress := false, isActive := false, isSelect := false,
    controlPtActive := -1, disPoit := ⟨0, 0⟩, label := .default }

def drawModeToStr : DrawMode → String
  | .rectangle => "rectangle"
  | .line => "line"
  | .curve => "curve"
  | .polygon => "polygon"
  | .none => "none"
  | .polyline => ""

def typeToString : DrawMode → String
  | .rectangle => "Rectangle"
  | .line => "Line"
  | .curve => "Curve"
  | .polygon => "Ploygon"
  | .polyline | .none => ""

def pointCount (shape : Shape) : ℕ := shape.points.size

def setName (shape : Shape) (name : String) : Shape := { shape with name }
def setIsClosed (shape : Shape) (isClosed : Bool) : Shape := { shape with isClosed }
def setIsDrag (shape : Shape) (isDrag : Bool) : Shape := { shape with isDrag }
def setIsPress (shape : Shape) (isPress : Bool) : Shape := { shape with isPress }
def setIsActive (shape : Shape) (isActive : Bool) : Shape := { shape with isActive }
def setIsSelect (shape : Shape) (isSelect : Bool) : Shape := { shape with isSelect }
def setControlPtActive (shape : Shape) (active : ℤ) : Shape := { shape with controlPtActive := active }
def updateEndPt (shape : Shape) (point : QPointF) : Shape := { shape with disPoit := point }

def setimgWH (shape : Shape) (img : QImage) : Shape :=
  { shape with points := shape.points.setImgWH img.width img.height }

def setLabel (shape : Shape) (label : LabelProperty) : Shape :=
  { shape with label := shape.label.assign label, color := label.color }

def appendPoint (shape : Shape) (point : QPointF) : Shape :=
  { shape with points := shape.points.append point }

def deletePoint (shape : Shape) (index : ℤ) : Except Fault Shape :=
  if index ≥ shape.points.size then .ok shape else do
    let points ← shape.points.erase index
    .ok { shape with points }

def isPtsHavPt (shape : Shape) (pt : QPointF) : Option ℕ :=
  shape.points.oriPoints.findIdx? fun vertex => decide ((vertex - pt).manhattanLength ≤ senseDis)

/-- `isEdgeHavPt`: where a vertex would be inserted on the first edge that is hit. Lines and
    curves refuse. -/
def isEdgeHavPt (shape : Shape) (point : QPointF) : Option ℕ :=
  match shape.type with
  | .line | .curve => none
  | _ =>
    if shape.points.size < 2 then none
    else ((edges shape.points.oriPoints).findIdx? (edgeHasPt point)).map (· + 1)

/-- `isAreaHavPt`; `containsPoint` is the winding test of `QPolygonF`. -/
def isAreaHavPt (containsPoint : List QPointF → QPointF → Bool) (shape : Shape) (pt : QPointF) : Bool :=
  match shape.type with
  | .rectangle =>
    match shape.points.oriPoints with
    | p1 :: p2 :: _ => rectContains p1 p2 pt
    | _ => false
  | .line | .curve | .polyline => false
  | .polygon | .none => containsPoint shape.points.oriPoints pt

def updatePoint (shape : Shape) (point : QPointF) (pos : ℤ) : Except Fault Shape :=
  if pos < shape.points.size ∧ 0 ≤ pos then do
    let points ← shape.points.replace point pos
    .ok { shape with points }
  else .error .posOutOfRange

def insertPoint (shape : Shape) (point : QPointF) (pos : ℤ) : Except Fault Shape :=
  match shape.type with
  | .rectangle | .line | .curve => .ok shape
  | _ =>
    if pos < shape.points.size ∧ 0 ≤ pos then do
      let points ← shape.points.insert point pos
      .ok { shape with points }
    else if pos = shape.points.size then .ok { shape with points := shape.points.append point }
    else .ok shape

def move (shape : Shape) (delta : QPointF) : Except Fault Shape := do
  let points ← (List.range shape.points.size).foldlM (fun (points : YPolygonPoints) (i : ℕ) => do
    let vertex ← points.at i
    points.replace (vertex + delta) i) shape.points
  .ok { shape with points }

end Shape

def ShapeFactory.create : DrawMode → Option Shape
  | .none => Option.none
  | type => some (Shape.new type)

end XYAnnotation

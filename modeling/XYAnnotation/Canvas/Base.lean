import XYAnnotation.Annotations.Shape
import XYAnnotation.Library.FreshName

namespace XYAnnotation

inductive TaskMode
  | detection
  | segmentation
  deriving DecidableEq, Repr

inductive OperatMode
  | draw
  | edit
  deriving DecidableEq, Repr

abbrev ShapeId := ℕ

abbrev ShapePtr := Option ShapeId

/-- The canvas with the shape objects it points to. `heap` holds every shape made so far at its
    address and `next` is the first address not used yet. -/
structure CanvasBase where
  heap : ShapeId → Shape
  next : ShapeId
  image : Option QImage
  shapeList : List ShapeId
  currentIndex : ℤ
  task : TaskMode
  operat : OperatMode
  draw : DrawMode
  lastPressPos : QPointF
  activePoint : ℤ
  insertPoint : ℤ
  mouseDrag : Bool

section Image

variable (img : QImage)

def mapToImg (pt : QPointF) : QPointF := pt + ⟨(img.width / 2 : ℕ), (img.height / 2 : ℕ)⟩

def mapFromImg (pt : QPointF) : QPointF := pt - ⟨(img.width / 2 : ℕ), (img.height / 2 : ℕ)⟩

def penLineWidth : ℚ := 2

def bindImgEdge (pt : QPointF) : QPointF :=
  let point := mapToImg img pt
  let edge := 2 * penLineWidth / 3
  let w := if point.x ≥ img.width - edge then img.width - edge else point.x
  let w := if w ≤ edge then edge else w
  let h := if point.y ≥ img.height - edge then img.height - edge else point.y
  let h := if h ≤ edge then edge else h
  mapFromImg img ⟨w, h⟩

def dragMargin : ℚ := 5 * penLineWidth / 3

def beyondX (delta point : QPointF) : Bool :=
  decide (point.x + delta.x > img.width - dragMargin) || decide (point.x + delta.x < dragMargin)

def beyondY (delta point : QPointF) : Bool :=
  decide (point.y + delta.y > img.height - dragMargin) || decide (point.y + delta.y < dragMargin)

def isCloseToEdge (shape : Shape) (delta : QPointF) : Bool × QPointF :=
  match shape.points.imgPoints.find? fun point => beyondX img delta point || beyondY img delta point with
  | none => (false, delta)
  | some point => (true, ⟨if beyondX img delta point then 0 else delta.x,
      if beyondY img delta point then 0 else delta.y⟩)

end Image

namespace CanvasBase

/-- The canvas as `CanvasView` and `Window::initMenu` set it up. -/
def fresh : CanvasBase :=
  { heap := fun _ => Shape.new .none, next := 0, image := none, shapeList := [], currentIndex := -1,
    task := .segmentation, operat := .draw, draw := .polygon, lastPressPos := ⟨0, 0⟩,
    activePoint := -1, insertPoint := -1, mouseDrag := false }

def getImage (c : CanvasBase) : Except Fault QImage :=
  match c.image with
  | none => .error .imageIsNull
  | some img => .ok img

def setImage (c : CanvasBase) (img : Option QImage) : Except Fault CanvasBase :=
  match img with
  | none => .error .imageIsNull
  | some img => .ok { c with image := some img }

def modifyShape (c : CanvasBase) (shape : ShapeId) (f : Shape → Shape) : CanvasBase :=
  { c with heap := Function.update c.heap shape (f (c.heap shape)) }

def allocate (c : CanvasBase) (shape : Shape) : CanvasBase :=
  { c with heap := Function.update c.heap c.next shape, next := c.next + 1 }

def currentShape (c : CanvasBase) : Except Fault ShapePtr :=
  if c.currentIndex = -1 then .ok none
  else do
    let shape ← QVector.at c.shapeList c.currentIndex
    .ok (some shape)

def currentShapeName (c : CanvasBase) : Except Fault String :=
  if c.currentIndex = -1 then .ok ""
  else do
    let shape ← QVector.at c.shapeList c.currentIndex
    .ok (c.heap shape).name

def names (c : CanvasBase) : List String := c.shapeList.map fun shape => (c.heap shape).name

def indexOf (c : CanvasBase) (shapeName : String) : ℤ :=
  match c.names.findIdx? (· == shapeName) with
  | some i => i
  | none => -1

def numbered (name : String) (i : ℕ) : String := if i > 0 then name ++ QString.number i else name

def uniqueName (c : CanvasBase) (name : String) : String :=
  numbered name
    (Library.firstFree (fun i => c.indexOf (numbered name i) == -1) c.shapeList.length 0)

def setCurrentShape (c : CanvasBase) (index : ℤ) : Except Fault CanvasBase := do
  let c := { c with currentIndex := index }
  let _ ← c.currentShape
  .ok c

def addShape (c : CanvasBase) (shape : ShapePtr) : Except Fault (CanvasBase × String) :=
  match shape with
  | none => .error .nullPointer
  | some shape => do
    let name := c.uniqueName (Shape.typeToString (c.heap shape).type)
    let c := { c with shapeList := c.shapeList ++ [shape] }
    let c := c.modifyShape shape (·.setName name)
    let c ← c.setCurrentShape (c.shapeList.length - 1)
    .ok (c, name)

def deleteShape (c : CanvasBase) (shapeName : String) : Except Fault CanvasBase :=
  let index := c.indexOf shapeName
  if index = -1 then .ok c
  else
    let removed := { c with shapeList := c.shapeList.eraseIdx index.toNat }
    if index ≤ c.currentIndex then
      setCurrentShape { removed with currentIndex := -1 }
        (if index = removed.shapeList.length then index - 1 else index)
    else .ok removed

def addPoint (c : CanvasBase) (shape : ShapePtr) (point : QPointF) : CanvasBase × String :=
  match shape with
  | none => (c, "")
  | some shape =>
    let c := c.modifyShape shape (·.appendPoint point)
    (c, QString.number ((c.heap shape).points.size - 1))

def deletePoint (c : CanvasBase) (shape : ShapePtr) (pointName : String) : Except Fault CanvasBase :=
  match shape with
  | none => .error .nullPointer
  | some shape => do
    let deleted ← (c.heap shape).deletePoint (QString.toInt pointName)
    .ok (c.modifyShape shape fun _ => deleted)

def shape (c : CanvasBase) (shapeName : String) : Except Fault ShapePtr :=
  if c.indexOf shapeName = -1 then .ok none
  else do
    let shape ← QVector.at c.shapeList (c.indexOf shapeName)
    .ok (some shape)

/-- `clean` without the undo stack. The current index is left as it is. -/
def clean (c : CanvasBase) : CanvasBase := { c with image := none, shapeList := [] }

end CanvasBase

end XYAnnotation

import XYAnnotation.Canvas.Commands
import XYAnnotation.Library.Loops

namespace XYAnnotation

open Library

/-- What the user answers in the label dialog: a text and the random colour it gets, or nothing. -/
abbrev DialogReply := Option (String × QColor)

namespace CanvasBase

def orNone : Option ℕ → ℤ
  | some pos => pos
  | none => -1

section Edit

variable (containsPoint : List QPointF → QPointF → Bool) (pixPos : QPointF)

def editable (c : CanvasBase) (shape : ShapeId) : Bool :=
  (c.heap shape).isClosed && (c.heap shape).label.visible

def pressShape (c : CanvasBase) (shape : ShapeId) : Except Fault (CanvasBase × Bool) :=
  if !c.editable shape then .ok (c, false)
  else
    let onEdge := if c.draw = .polygon ∨ c.draw = .polyline then (c.heap shape).isEdgeHavPt pixPos else none
    match onEdge with
    | some pos => .ok ({ c with insertPoint := pos, mouseDrag := true }.modifyShape shape
        fun s => (s.setIsPress true).setControlPtActive pos, true)
    | none =>
      match (c.heap shape).isPtsHavPt pixPos with
      | some pos => .ok ({ c with activePoint := pos, mouseDrag := true }.modifyShape shape
          fun s => (s.setIsPress true).setIsSelect false, true)
      | none =>
        if (c.heap shape).isAreaHavPt containsPoint pixPos then
          .ok ({ c with lastPressPos := pixPos }.modifyShape shape
            fun s => (s.setIsDrag true).setIsSelect true, true)
        else .ok (c.modifyShape shape (·.setIsSelect false), false)

def editPress (c : CanvasBase) : Except Fault CanvasBase :=
  if c.mouseDrag then .ok c
  else loop (pressShape containsPoint pixPos) { c with activePoint := -1, insertPoint := -1 } c.shapeList

def releaseShape (c : CanvasBase) (shape : ShapeId) : Except Fault (CanvasBase × Bool) :=
  if !c.editable shape then .ok (c, false)
  else .ok (c.modifyShape shape fun s =>
    (if s.isPress then (s.setControlPtActive (-1)).setIsPress false else s.setControlPtActive (-1)).setIsDrag false,
    false)

def hoverShape (c : CanvasBase) (shape : ShapeId) : Except Fault (CanvasBase × Bool) :=
  if !c.editable shape then .ok (c, false)
  else
    let onVertex := (c.heap shape).isPtsHavPt pixPos
    let c := c.modifyShape shape (·.setControlPtActive (orNone onVertex))
    if (c.heap shape).isPress || onVertex.isSome || ((c.heap shape).isEdgeHavPt pixPos).isSome then .ok (c, false)
    else .ok (c.modifyShape shape (·.setIsActive ((c.heap shape).isAreaHavPt containsPoint pixPos)), false)

/-- An exception inside the loop of `mouseMoveEvent` ends it; what was done before stays. -/
def orCaught (c : CanvasBase) (changed : Except Fault Shape) (keep : Shape → CanvasBase) :
    Except Fault (CanvasBase × Bool) :=
  match changed with
  | .ok shape => .ok (keep shape, true)
  | .error fault => if fault.isException then .ok (c, true) else .error fault

def moveShape (img : QImage) (c : CanvasBase) (shape : ShapeId) : Except Fault (CanvasBase × Bool) :=
  if !c.editable shape then .ok (c, false)
  else
    let c := if (c.heap shape).isAreaHavPt containsPoint pixPos then c
      else c.modifyShape shape (·.setIsActive false)
    let s := c.heap shape
    if c.insertPoint ≥ 0 ∧ s.isPress then
      c.orCaught (s.insertPoint pixPos c.insertPoint) fun s =>
        { c with activePoint := c.insertPoint, insertPoint := -1 }.modifyShape shape fun _ => s
    else if c.mouseDrag ∧ s.isPress then
      c.orCaught (s.updatePoint pixPos c.activePoint) fun s => c.modifyShape shape fun _ => s
    else if s.isDrag then
      let movePos := (isCloseToEdge img s (pixPos - c.lastPressPos)).2
      c.orCaught (s.move movePos) fun s => { c with lastPressPos := pixPos }.modifyShape shape fun _ => s
    else .ok (c, false)

end Edit

end CanvasBase

namespace Canvas2D

def modifyShape (c : Canvas2D) (shape : ShapeId) (f : Shape → Shape) : Canvas2D :=
  { c with toCanvasBase := c.toCanvasBase.modifyShape shape f }

def slotSetProperty (c : Canvas2D) (reply : DialogReply) (shape : ShapeId) : Canvas2D :=
  match reply with
  | none => c
  | some (name, color) =>
    if name.isEmpty then c
    else c.modifyShape shape fun s => s.setLabel (.make name color true s.id)

def startsShape (c : Canvas2D) (shape : ShapePtr) : Bool :=
  decide (c.currentIndex = -1) || c.shapeList.isEmpty ||
    match shape with
    | none => false
    | some shape => (c.heap shape).isClosed

def cornerPoint (c : Canvas2D) (pixPos : QPointF) (reply : DialogReply) : Except Fault Canvas2D := do
  let c ← CanvasView.addPoint c pixPos
  match ← c.currentShape with
  | none => .error .nullPointer
  | some shape =>
    let c := c.modifyShape shape (·.updateEndPt pixPos)
    if (c.heap shape).points.size > 1 then
      .ok ((c.modifyShape shape (·.setIsClosed true)).slotSetProperty reply shape)
    else .ok c

def pathPoint (c : Canvas2D) (pixPos : QPointF) : Except Fault Canvas2D := do
  let c ← CanvasView.addPoint c pixPos
  match ← c.currentShape with
  | none => .error .nullPointer
  | some shape => .ok (c.modifyShape shape (·.updateEndPt pixPos))

/-- The draw branch of `mousePressEvent` once a shape is there to take the point. It goes by the
    draw mode of the canvas, not by the type of the shape. -/
def drawPoint (c : Canvas2D) (pixPos : QPointF) (reply : DialogReply) : Except Fault Canvas2D :=
  match c.draw with
  | .polygon => CanvasView.addPoint c pixPos
  | .rectangle => c.cornerPoint pixPos reply
  | .line => c.cornerPoint pixPos reply
  | .curve => c.pathPoint pixPos
  | .polyline => c.pathPoint pixPos
  | .none => .ok c

def drawPress (c : Canvas2D) (pixPos : QPointF) (reply : DialogReply) : Except Fault Canvas2D := do
  let shape ← c.currentShape
  if c.currentIndex ≥ 0 ∧ shape = none then .ok c
  else if c.startsShape shape then do
    let c ← CanvasView.addShape c
    c.drawPoint pixPos reply
  else c.drawPoint pixPos reply

section Handlers

variable (containsPoint : List QPointF → QPointF → Bool)

def mousePressEvent (c : Canvas2D) (pos : QPointF) (leftButton : Bool) (reply : DialogReply) :
    Except Fault Canvas2D := do
  let img ← c.getImage
  let pixPos := bindImgEdge img pos
  match c.task, leftButton, c.operat with
  | .segmentation, true, .draw => c.drawPress pixPos reply
  | .segmentation, true, .edit => do
    let base ← c.toCanvasBase.editPress containsPoint pixPos
    .ok { c with toCanvasBase := base }
  | _, _, _ => .ok c

def mouseReleaseEvent (c : Canvas2D) : Except Fault Canvas2D :=
  match c.image, c.task, c.operat with
  | some _, .segmentation, .edit => do
    let base := if c.mouseDrag then { c.toCanvasBase with mouseDrag := false, activePoint := -1 } else c.toCanvasBase
    let base ← loop CanvasBase.releaseShape base base.shapeList
    .ok { c with toCanvasBase := base }
  | _, _, _ => .ok c

/-- `mouseDoubleClickEvent`. The handler of the base class is that of `QGraphicsItem`, which
    passes the event on to `mousePressEvent`. -/
def mouseDoubleClickEvent (c : Canvas2D) (pos : QPointF) (leftButton : Bool) (reply : DialogReply) :
    Except Fault Canvas2D :=
  match c.task, c.operat with
  | .segmentation, .draw => do
    match ← c.currentShape with
    | none => .ok c
    | some shape =>
      if (c.heap shape).pointCount > 2 then do
        let deleted ← (c.heap shape).deletePoint ((c.heap shape).pointCount - 1)
        let c := c.modifyShape shape fun _ => deleted.setIsClosed true
        (c.slotSetProperty reply shape).mousePressEvent containsPoint pos leftButton reply
      else c.mousePressEvent containsPoint pos leftButton reply
  | _, _ => c.mousePressEvent containsPoint pos leftButton reply

def hoverMoveEvent (c : Canvas2D) (pos : QPointF) : Except Fault Canvas2D :=
  match c.image, c.task, c.operat with
  | some img, .segmentation, .draw => do
    match ← c.currentShape with
    | none => .ok c
    | some shape =>
      if c.startsShape (some shape) then .ok c
      else .ok (c.modifyShape shape (·.updateEndPt (bindImgEdge img pos)))
  | some img, .segmentation, .edit => do
    let base ← loop (CanvasBase.hoverShape containsPoint (bindImgEdge img pos)) c.toCanvasBase c.shapeList
    .ok { c with toCanvasBase := base }
  | _, _, _ => .ok c

def mouseMoveEvent (c : Canvas2D) (pos : QPointF) : Except Fault Canvas2D :=
  match c.image, c.task, c.operat with
  | some img, .segmentation, .edit => do
    let base ← loop (CanvasBase.moveShape containsPoint (bindImgEdge img pos) img) c.toCanvasBase c.shapeList
    .ok { c with toCanvasBase := base }
  | _, _, _ => .ok c

def keyPressEvent (c : Canvas2D) (enter : Bool) (reply : DialogReply) : Except Fault Canvas2D :=
  match c.task, c.operat, enter with
  | .segmentation, .draw, true => do
    match ← c.currentShape with
    | none => .ok c
    | some shape =>
      if (c.heap shape).pointCount > 2 then
        .ok ((c.modifyShape shape (·.setIsClosed true)).slotSetProperty reply shape)
      else .ok c
  | _, _, _ => .ok c

end Handlers

end Canvas2D

/-- What can happen to a canvas that shows one image. -/
inductive CanvasEvent
  | mousePress (pos : QPointF) (leftButton : Bool) (reply : DialogReply)
  | mouseRelease (pos : QPointF)
  | mouseDoubleClick (pos : QPointF) (leftButton : Bool) (reply : DialogReply)
  | hoverMove (pos : QPointF)
  | mouseMove (pos : QPointF)
  | keyPress (enter : Bool) (reply : DialogReply)
  | undo
  | redo
  | changeDrawMode (mode : DrawMode)
  | changeOperatMode (mode : OperatMode)
  | creatPolygon

def Canvas2D.handle (containsPoint : List QPointF → QPointF → Bool) (c : Canvas2D) :
    CanvasEvent → Except Fault Canvas2D
  | .mousePress pos leftButton reply => c.mousePressEvent containsPoint pos leftButton reply
  | .mouseRelease _ => c.mouseReleaseEvent
  | .mouseDoubleClick pos leftButton reply => c.mouseDoubleClickEvent containsPoint pos leftButton reply
  | .hoverMove pos => c.hoverMoveEvent containsPoint pos
  | .mouseMove pos => c.mouseMoveEvent containsPoint pos
  | .keyPress enter reply => c.keyPressEvent enter reply
  | .undo => c.undo
  | .redo => c.redo
  | .changeDrawMode mode => .ok { c with draw := mode }
  | .changeOperatMode mode => .ok { c with operat := mode }
  | .creatPolygon => CanvasView.addShape c

end XYAnnotation

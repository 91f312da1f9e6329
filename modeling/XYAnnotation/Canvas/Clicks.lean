import XYAnnotation.Annotations.Positions
import XYAnnotation.Canvas.ClosedShapes
import XYAnnotation.Canvas.CurrentIndex

namespace XYAnnotation.Canvas2D

open Library

variable (containsPoint : List QPointF → QPointF → Bool) {c d : Canvas2D} {img : QImage} {shape : ShapeId}

section Presses

theorem addPoint_ok (current : c.currentShape = .ok (some shape)) (pixPos : QPointF) :
    ∃ d, CanvasView.addPoint c pixPos = .ok d := by
  unfold CanvasView.addPoint
  rw [current]
  exact ⟨_, rfl⟩

theorem drawPoint_ok (current : c.currentShape = .ok (some shape)) (pixPos : QPointF) (reply : DialogReply) :
    ∃ d, c.drawPoint pixPos reply = .ok d := by
  obtain ⟨next, added⟩ := addPoint_ok current pixPos
  obtain ⟨_, still, _⟩ := addPoint_takes current added
  have path : ∃ d, c.pathPoint pixPos = .ok d := by
    unfold pathPoint
    simp only [added, still, Bind.bind, Except.bind]
    exact ⟨_, rfl⟩
  have corner : ∃ d, c.cornerPoint pixPos reply = .ok d := by
    unfold cornerPoint
    simp only [added, still, Bind.bind, Except.bind]
    split
    · exact ⟨_, rfl⟩
    · exact ⟨_, rfl⟩
  unfold drawPoint
  split
  · exact ⟨next, added⟩
  · exact corner
  · exact corner
  · exact path
  · exact path
  · exact ⟨c, rfl⟩

theorem addShape_ok (loaded : c.image = some img) (mode : c.draw ≠ .none) :
    ∃ d, CanvasView.addShape c = .ok d := by
  have made : ShapeFactory.create c.draw = some (Shape.new c.draw) := by
    cases known : c.draw <;> first | rfl | exact absurd known mode
  simp only [CanvasView.addShape, made, CanvasBase.getImage, loaded, Bind.bind, Except.bind, push, UndoStack.push,
    Command.methods, Command.redo, CanvasBase.addShape_eq]
  exact ⟨_, rfl⟩

theorem TakesPoint.currentShape {pixPos : QPointF} {closes : Bool} (takes : TakesPoint shape pixPos closes c d) :
    d.currentShape = c.currentShape := by
  rw [CanvasBase.currentShape, CanvasBase.currentShape, takes.base.currentIndex, takes.base.shapeList]
  rfl

/-- What a press does that starts a shape: the new shape is the last one and current, and has the one point. -/
structure Begins (pixPos : QPointF) (c d : Canvas2D) : Prop where
  next : d.next = c.next + 1
  image : d.image = c.image
  task : d.task = c.task
  operat : d.operat = c.operat
  draw : d.draw = c.draw
  shapeList : d.shapeList = c.shapeList ++ [c.next]
  currentIndex : d.currentIndex = c.shapeList.length
  type : (d.heap c.next).type = c.draw
  points : (d.heap c.next).points.oriPoints = [pixPos]
  isClosed : (d.heap c.next).isClosed = false
  others : ∀ other, other ≠ c.next → SameOutline (c.heap other) (d.heap other)
  done : d.undoStack.done.length = c.undoStack.done.length + 2
  undone : d.undoStack.undone = []

theorem begins_of_takes {pixPos : QPointF} {begun : Canvas2D} (added : CanvasView.addShape c = .ok begun)
    (takes : TakesPoint c.next pixPos false begun d) : Begins pixPos c d := by
  obtain ⟨img, _, _, base, stack⟩ := addShape_completes added
  have fresh := started_heap_next c.toCanvasBase img
  have outline := takes.outline
  rw [base, fresh.1, fresh.2.1, fresh.2.2] at outline
  have same := takes.base
  rw [base] at same
  refine ⟨same.next, same.image, same.task, same.operat, same.draw, same.shapeList, same.currentIndex, outline.2.1,
    ?_, outline.2.2, ?_, ?_, ?_⟩
  · rw [outline.1]
    rfl
  · intro other different
    exact takes.started_other added different
  · rw [takes.undoStack, stack]
    rfl
  · rw [takes.undoStack]

theorem mouseRelease_draw (operat : c.operat = .draw) : c.mouseReleaseEvent = .ok c := by
  unfold mouseReleaseEvent
  split
  · rename_i edit
    rw [operat] at edit
    cases edit
  · rfl

section Drawing

variable (loaded : c.image = some img) (task : c.task = .segmentation) (operat : c.operat = .draw)
include loaded task operat

theorem mousePress_draw (pos : QPointF) (reply : DialogReply) :
    c.mousePressEvent containsPoint pos true reply = c.drawPress (bindImgEdge img pos) reply := by
  simp only [mousePressEvent, CanvasBase.getImage, loaded, task, operat, Bind.bind, Except.bind]

theorem mousePress_takes (mode : c.draw ≠ .none) (current : c.currentShape = .ok (some shape))
    (opened : (c.heap shape).isClosed = false) (pos : QPointF) (reply : DialogReply) :
    ∃ d, c.mousePressEvent containsPoint pos true reply = .ok d ∧
      TakesPoint shape (bindImgEdge img pos) (closesAt c.draw (c.heap shape).pointCount) c d := by
  have index : c.currentIndex ≠ -1 := by
    intro absent
    rw [CanvasBase.currentShape, if_pos absent] at current
    cases current
  have nonempty : c.shapeList ≠ [] := List.ne_nil_of_mem (currentShape_mem current)
  have goesOn : c.startsShape (some shape) = false := by simp [startsShape, index, nonempty, opened]
  obtain ⟨d, drawn⟩ := drawPoint_ok current (bindImgEdge img pos) reply
  refine ⟨d, ?_, ?_⟩
  · rw [mousePress_draw containsPoint loaded task operat]
    simp [drawPress, current, goesOn, Bind.bind, Except.bind, drawn]
  · rcases drawPoint_completes current drawn with ⟨none, _⟩ | ⟨_, takes⟩
    · exact absurd none mode
    · exact takes

theorem mousePress_starts (mode : c.draw ≠ .none)
    (starts : c.currentIndex = -1 ∨ ∃ shape, c.currentShape = .ok (some shape) ∧ (c.heap shape).isClosed = true)
    (pos : QPointF) (reply : DialogReply) :
    ∃ d, c.mousePressEvent containsPoint pos true reply = .ok d ∧ Begins (bindImgEdge img pos) c d := by
  obtain ⟨begun, added⟩ := addShape_ok loaded mode
  obtain ⟨_, _, _, base, _⟩ := addShape_completes added
  have current : begun.currentShape = .ok (some c.next) := by
    rw [base]
    exact started_currentShape _ _
  have count : (begun.heap c.next).pointCount = 0 := by
    rw [base, Shape.pointCount, (started_heap_next _ _).1]
    rfl
  have sameMode : begun.draw = c.draw := by
    rw [base]
    rfl
  obtain ⟨d, drawn⟩ := drawPoint_ok current (bindImgEdge img pos) reply
  refine ⟨d, ?_, ?_⟩
  · rw [mousePress_draw containsPoint loaded task operat]
    rcases starts with index | ⟨shape, read, closed⟩
    · have read : c.currentShape = .ok none := by rw [CanvasBase.currentShape, if_pos index]
      simp [drawPress, read, startsShape, index, added, Bind.bind, Except.bind, drawn]
    · simp [drawPress, read, startsShape, closed, added, Bind.bind, Except.bind, drawn]
  · apply begins_of_takes added
    rcases drawPoint_completes current drawn with ⟨none, _⟩ | ⟨_, takes⟩
    · exact absurd (sameMode ▸ none) mode
    · rw [count] at takes
      simpa [closesAt] using takes

end Drawing

end Presses

section DoubleClick

variable {pos : QPointF} {first second : DialogReply}

/-- What the double click does before the base class takes over. -/
structure Ends (shape : ShapeId) (c d : Canvas2D) : Prop where
  next : d.next = c.next
  image : d.image = c.image
  task : d.task = c.task
  operat : d.operat = c.operat
  draw : d.draw = c.draw
  shapeList : d.shapeList = c.shapeList
  currentShape : d.currentShape = c.currentShape
  points : (d.heap shape).points.oriPoints = (c.heap shape).points.oriPoints.dropLast
  isClosed : (d.heap shape).isClosed = true

theorem ends_of_still (points : YPolygonPoints) (last : points.oriPoints = (c.heap shape).points.oriPoints.dropLast)
    (still : Still (c.modifyShape shape fun s => { s with points, isClosed := true }) d) : Ends shape c d := by
  have outline := still.base.outline shape
  rw [modifyShape, CanvasBase.modifyShape_heap_same] at outline
  refine ⟨still.base.next, still.base.image, still.base.task, still.base.operat, still.base.draw,
    still.base.shapeList, ?_, ?_, outline.isClosed⟩
  · rw [CanvasBase.currentShape, CanvasBase.currentShape, still.base.currentIndex, still.base.shapeList]
    rfl
  · rw [outline.points]
    exact last

theorem mouseDoubleClick_again (task : c.task = .segmentation) (operat : c.operat = .draw)
    (current : c.currentShape = .ok (some shape)) (many : 2 < (c.heap shape).pointCount) (pos : QPointF)
    (leftButton : Bool) (reply : DialogReply) :
    ∃ finished, Ends shape c finished ∧ c.mouseDoubleClickEvent containsPoint pos leftButton reply =
      finished.mousePressEvent containsPoint pos leftButton reply := by
  have last : ((c.heap shape).pointCount : ℤ) - 1 = ((c.heap shape).pointCount - 1 : ℕ) := by omega
  obtain ⟨deleted, done, taken⟩ := (c.heap shape).deletePoint_natCast ((c.heap shape).pointCount - 1)
  rw [← last] at done
  have kept : deleted.setIsClosed true = { c.heap shape with points := deleted.points, isClosed := true } := by
    rcases Shape.deletePoint_completes done with ⟨_, rfl⟩ | ⟨_, points, _, rfl⟩
    · rfl
    · rfl
  refine ⟨(c.modifyShape shape fun _ => deleted.setIsClosed true).slotSetProperty reply shape, ?_, ?_⟩
  · refine ends_of_still deleted.points ?_ ?_
    · rw [taken, Shape.pointCount, YPolygonPoints.size, List.eraseIdx_length_sub_one]
    · rw [kept]
      exact slotSetProperty_still (c.modifyShape shape fun s =>
        { s with points := deleted.points, isClosed := true }) reply shape
  · simp only [mouseDoubleClickEvent, task, operat, current, Bind.bind, Except.bind, if_pos many, done]

/-- The events a double click is delivered as. -/
def doubleClick (pos : QPointF) (leftButton : Bool) (first second : DialogReply) : List CanvasEvent :=
  [.mousePress pos leftButton first, .mouseRelease pos, .mouseDoubleClick pos leftButton second, .mouseRelease pos]

def FinishesExactly (containsPoint : List QPointF → QPointF → Bool) (c : Canvas2D) (shape : ShapeId)
    (events : List CanvasEvent) : Prop :=
  ∃ d, run (handle containsPoint) c events = .ok d ∧ d.shapeList = c.shapeList ∧ (d.heap shape).isClosed = true ∧
    (d.heap shape).points.oriPoints = (c.heap shape).points.oriPoints

theorem closesAt_path {mode : DrawMode} (path : mode = .polygon ∨ mode = .polyline ∨ mode = .curve) (count : ℕ) :
    mode ≠ .none ∧ closesAt mode count = false := by
  rcases path with rfl | rfl | rfl <;> exact ⟨by decide, rfl⟩

theorem Begins.currentShape {pixPos : QPointF} (begins : Begins pixPos c d) : d.currentShape = .ok (some c.next) := by
  rw [CanvasBase.currentShape, begins.currentIndex, begins.shapeList, if_neg (by omega)]
  simp [QVector.at, Bind.bind, Except.bind]

theorem doubleClick_starts_another (loaded : c.image = some img) (task : c.task = .segmentation)
    (operat : c.operat = .draw) (path : c.draw = .polygon ∨ c.draw = .polyline ∨ c.draw = .curve)
    (current : c.currentShape = .ok (some shape)) (opened : (c.heap shape).isClosed = false)
    (many : 3 ≤ (c.heap shape).pointCount) :
    ∃ d, run (handle containsPoint) c (doubleClick pos true first second) = .ok d ∧
      d.shapeList = c.shapeList ++ [c.next] ∧ d.currentShape = .ok (some c.next) ∧
      (d.heap c.next).points.oriPoints = [bindImgEdge img pos] ∧ (d.heap c.next).isClosed = false ∧
      (shape ≠ c.next → (d.heap shape).isClosed = true ∧
        (d.heap shape).points.oriPoints = (c.heap shape).points.oriPoints) := by
  have mode := closesAt_path path
  obtain ⟨pressed, press, takes⟩ := mousePress_takes containsPoint loaded task operat (mode 0).1 current opened pos first
  have taken := takes.outline
  have count : (pressed.heap shape).pointCount = (c.heap shape).pointCount + 1 := by
    rw [Shape.pointCount, taken.1, YPolygonPoints.size_append]
    rfl
  obtain ⟨finished, ends, again⟩ := mouseDoubleClick_again containsPoint (takes.base.task.trans task)
    (takes.base.operat.trans operat) (takes.currentShape.trans current) (by omega) pos true second
  have sameMode : finished.draw ≠ .none := by
    rw [ends.draw, takes.base.draw]
    exact (mode 0).1
  have drawing : finished.operat = .draw := ends.operat.trans (takes.base.operat.trans operat)
  obtain ⟨d, restarted, begins⟩ := mousePress_starts containsPoint (ends.image.trans (takes.base.image.trans loaded))
    (ends.task.trans (takes.base.task.trans task)) drawing sameMode
    (.inr ⟨shape, ends.currentShape.trans (takes.currentShape.trans current), ends.isClosed⟩) pos second
  have next : finished.next = c.next := ends.next.trans takes.base.next
  have list : finished.shapeList = c.shapeList := ends.shapeList.trans takes.base.shapeList
  refine ⟨d, ?_, ?_, ?_, ?_, ?_, ?_⟩
  · simp only [doubleClick, run, handle, press, mouseRelease_draw (takes.base.operat.trans operat), again, restarted,
      mouseRelease_draw (begins.operat.trans drawing), Bind.bind, Except.bind]
  · rw [begins.shapeList, next, list]
  · rw [begins.currentShape, next]
  · rw [← next]
    exact begins.points
  · rw [← next]
    exact begins.isClosed
  · intro older
    have same := begins.others shape (next ▸ older)
    refine ⟨same.isClosed.trans ends.isClosed, ?_⟩
    rw [same.points, ends.points, taken.1]
    exact List.dropLast_concat

theorem mousePress_right (loaded : c.image = some img) (pos : QPointF) (reply : DialogReply) :
    c.mousePressEvent containsPoint pos false reply = .ok c := by
  simp [mousePressEvent, CanvasBase.getImage, loaded, Bind.bind, Except.bind]

/-- No double click finishes just the shape: with the left button another shape is started, and with another button
    the shape loses a vertex that the press did not give it. -/
theorem doubleClick_never_finishes (c : Canvas2D) (shape : ShapeId)
    (task : c.task = .segmentation) (operat : c.operat = .draw)
    (path : c.draw = .polygon ∨ c.draw = .polyline ∨ c.draw = .curve)
    (current : c.currentShape = .ok (some shape)) (opened : (c.heap shape).isClosed = false)
    (many : 3 ≤ (c.heap shape).pointCount) (pos : QPointF) (leftButton : Bool) (first second : DialogReply) :
    ¬ FinishesExactly containsPoint c shape (doubleClick pos leftButton first second) := by
  rintro ⟨d, ran, list, _, points⟩
  obtain ⟨pressed, press, _⟩ := run_cons_ok ran
  obtain ⟨img, read, _⟩ := bind_completes press
  have loaded := getImage_completes read
  cases leftButton with
  | true =>
    obtain ⟨other, done, longer, _⟩ := doubleClick_starts_another containsPoint loaded task operat path current opened
      many
    rw [ran] at done
    cases done
    rw [list] at longer
    simpa using congrArg List.length longer
  | false =>
    obtain ⟨finished, ends, again⟩ := mouseDoubleClick_again containsPoint task operat current many pos false second
    have drawing : finished.operat = .draw := ends.operat.trans operat
    simp only [doubleClick, run, handle, mousePress_right containsPoint loaded, mouseRelease_draw operat, again,
      mousePress_right containsPoint (ends.image.trans loaded), mouseRelease_draw drawing, Bind.bind, Except.bind]
      at ran
    cases ran
    have shorter := congrArg List.length (points.symm.trans ends.points)
    rw [List.length_dropLast] at shorter
    unfold Shape.pointCount YPolygonPoints.size at many
    omega

def triangleDrawn : Canvas2D :=
  { loaded blankImage with
    heap := fun _ => (((Shape.new .polygon).appendPoint ⟨-20, -20⟩).appendPoint ⟨20, -20⟩).appendPoint ⟨0, 20⟩
    next := 1
    shapeList := [0]
    currentIndex := 0 }

theorem triangle_not_finished :
    ¬ FinishesExactly (fun _ _ => false) triangleDrawn 0 (doubleClick ⟨30, 30⟩ true none none) :=
  doubleClick_never_finishes (fun _ _ => false) triangleDrawn 0 rfl rfl (.inl rfl) rfl rfl (by decide) ⟨30, 30⟩ true
    none none

/-- Three presses draw a triangle. The double click closes it and leaves a second shape with one point. -/
theorem doubleClick_adds_shape :
    ∃ c, run (handle fun _ _ => false) (loaded blankImage) [.mousePress ⟨-20, -20⟩ true none,
        .mousePress ⟨20, -20⟩ true none, .mousePress ⟨0, 20⟩ true none] = .ok c ∧
      c.task = .segmentation ∧ c.operat = .draw ∧ c.draw = .polygon ∧ c.currentShape = .ok (some 0) ∧
      (c.heap 0).isClosed = false ∧ (c.heap 0).pointCount = 3 ∧
      ¬ FinishesExactly (fun _ _ => false) c 0 (doubleClick ⟨30, 30⟩ true none none) := by
  have observed : (do
      let c ← run (handle fun _ _ => false) (loaded blankImage) [.mousePress ⟨-20, -20⟩ true none,
        .mousePress ⟨20, -20⟩ true none, .mousePress ⟨0, 20⟩ true none]
      let d ← run (handle fun _ _ => false) c (doubleClick ⟨30, 30⟩ true none none)
      .ok (c.drawn, c.draw, (c.heap 0).isClosed, (c.heap 0).pointCount, decide (d.shapeList = c.shapeList)) :
        Except Fault _) = .ok (some 0, .polygon, false, 3, false) := by decide +kernel
  obtain ⟨c, drawn, rest⟩ := bind_completes observed
  obtain ⟨d, clicked, values⟩ := bind_completes rest
  simp only [Except.ok.injEq, Prod.mk.injEq] at values
  obtain ⟨found, draw, isClosed, count, longer⟩ := values
  obtain ⟨task, operat, current⟩ := drawn_completes found
  refine ⟨c, drawn, task, operat, draw, current, isClosed, count, ?_⟩
  rintro ⟨other, ran, same, _⟩
  rw [clicked] at ran
  cases ran
  exact of_decide_eq_false longer same

end DoubleClick

end XYAnnotation.Canvas2D

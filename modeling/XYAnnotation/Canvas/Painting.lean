import XYAnnotation.Annotations.Draw
import XYAnnotation.Canvas.Handlers

namespace XYAnnotation

open Library

namespace CanvasBase

/-- `drawShape`: the pictures of the shapes. `paintShapes` has the cross as well. -/
def drawShape (c : CanvasBase) : Except Fault (List (Option Picture)) :=
  match c.task with
  | .detection => .ok []
  | .segmentation => c.shapeList.mapM fun shape =>
      (c.heap shape).draw (decide (c.operat = .draw) && !(c.heap shape).isClosed)

end CanvasBase

/-- Two points, or one point with the preview point shown, are there when a corner is read. -/
def Shape.PaintedIn (operat : OperatMode) (s : Shape) : Prop :=
  s.type.twoPoint = true → s.pointCount = 1 → operat = .draw ∧ s.isClosed = false

theorem SameOutline.paintedIn {s t : Shape} (same : SameOutline s t) (operat : OperatMode) :
    t.PaintedIn operat ↔ s.PaintedIn operat := by
  unfold Shape.PaintedIn Shape.pointCount
  rw [same.points, same.type, same.isClosed]

namespace CanvasBase

def Paintable (c : CanvasBase) : Prop := ∀ shape ∈ c.shapeList, (c.heap shape).PaintedIn c.operat

theorem drawShape_completes_iff {c : CanvasBase} (task : c.task = .segmentation) :
    (∃ pictures, c.drawShape = .ok pictures) ↔ c.Paintable := by
  simp only [drawShape, task]
  rw [mapM_completes]
  apply forall₂_congr
  intro shape _
  rw [Shape.draw_completes_iff, Shape.PaintedIn]
  simp

variable {c d : CanvasBase}

theorem paintable_of_outline (operat : d.operat = c.operat) (list : d.shapeList = c.shapeList)
    (same : ∀ shape, SameOutline (c.heap shape) (d.heap shape)) : d.Paintable ↔ c.Paintable := by
  unfold Paintable
  rw [operat, list]
  apply forall₂_congr
  intro shape _
  exact (same shape).paintedIn _

theorem paintable_modify (paintable : c.Paintable) {shape : ShapeId} {f : Shape → Shape}
    (changed : Untouched (c.modifyShape shape f) d) :
    d.Paintable ↔ (shape ∈ c.shapeList → (f (c.heap shape)).PaintedIn c.operat) := by
  have list : d.shapeList = c.shapeList := changed.shapeList
  have operat : d.operat = c.operat := changed.operat
  constructor
  · intro all member
    have here := all shape (list ▸ member)
    rw [(changed.outline shape).paintedIn, modifyShape_heap_same, operat] at here
    exact here
  · intro here other member
    rw [(changed.outline other).paintedIn, operat]
    rw [list] at member
    by_cases same : other = shape
    · subst same
      rw [modifyShape_heap_same]
      exact here member
    · rw [modifyShape_heap_other _ _ _ same]
      exact paintable other member

theorem paintable_appended (paintable : c.Paintable) (shape : ShapeId) :
    (c.appended shape).Paintable ↔ (c.heap shape).PaintedIn c.operat := by
  have operat : (c.appended shape).operat = c.operat := rfl
  constructor
  · intro all
    have here := all shape (List.mem_append_right _ (List.mem_singleton_self shape))
    rwa [(Command.appended_outline c shape shape).paintedIn, operat] at here
  · intro here other member
    rw [(Command.appended_outline c shape other).paintedIn, operat]
    rcases List.mem_append.mp member with member | member
    · exact paintable other member
    · rw [List.mem_singleton.mp member]
      exact here

theorem paintable_thinned (paintable : c.Paintable) (thinned : Command.Thinned c d) : d.Paintable := by
  intro shape member
  rw [thinned.heap, thinned.operat]
  exact paintable shape (thinned.shapeList.subset member)

end CanvasBase

def Shape.IsCorner (s : Shape) : Prop := s.type.twoPoint = true ∧ s.pointCount = 1

/-- The commands that undo may take back: the last one of two points is only taken from a shape
    that shows the preview point, and a shape is only put back when it can be painted. -/
def Command.UndoPaints (c : CanvasBase) : Command → Prop
  | .addPoint (some shape) _ pointName => shape ∈ c.shapeList → (c.heap shape).type.twoPoint = true →
      (c.heap shape).pointCount = 2 → QString.toInt pointName < 2 → c.operat = .draw ∧ (c.heap shape).isClosed = false
  | .removeShape (some shape) _ => (c.heap shape).IsCorner → c.operat = .draw ∧ (c.heap shape).isClosed = false
  | _ => True

def Command.RedoPaints (c : CanvasBase) : Command → Prop
  | .addPoint (some shape) _ _ => shape ∈ c.shapeList → (c.heap shape).type.twoPoint = true →
      (c.heap shape).pointCount = 0 → c.operat = .draw ∧ (c.heap shape).isClosed = false
  | .addShape (some shape) _ => (c.heap shape).IsCorner → c.operat = .draw ∧ (c.heap shape).isClosed = false
  | _ => True

/-- The events, and the states before them, that leave every shape fit to be painted. -/
def CanvasEvent.PaintsWell (c : Canvas2D) : CanvasEvent → Prop
  | .undo => ∀ command ∈ c.undoStack.done.head?, command.UndoPaints c.toCanvasBase
  | .redo => ∀ command ∈ c.undoStack.undone.head?, command.RedoPaints c.toCanvasBase
  | .changeOperatMode .edit => ∀ shape ∈ c.shapeList, ¬ (c.heap shape).IsCorner
  | _ => True

namespace Canvas2D

variable {c d : Canvas2D} {containsPoint : List QPointF → QPointF → Bool}

theorem Still.paintable (still : Still c d) : d.Paintable ↔ c.Paintable :=
  CanvasBase.paintable_of_outline still.base.operat still.base.shapeList still.base.outline

theorem TakesPoint.paintable {shape : ShapeId} {pixPos : QPointF} {closes : Bool} (paintable : c.Paintable)
    (operat : c.operat = .draw) (isOpen : (c.heap shape).isClosed = false)
    (closing : closes = true → 0 < (c.heap shape).pointCount) (takes : TakesPoint shape pixPos closes c d) :
    d.Paintable := by
  rw [CanvasBase.paintable_modify paintable takes.base]
  intro _ _ one
  simp only [Shape.setIsClosed_pointCount, Shape.appendPoint_pointCount] at one
  refine ⟨operat, ?_⟩
  rw [Shape.setIsClosed_isClosed, isOpen, Bool.or_false, ← Bool.not_eq_true]
  intro closed
  have some := closing closed
  omega

theorem closesAt_some {mode : DrawMode} {count : ℕ} (closes : closesAt mode count = true) : 0 < count := by
  unfold closesAt at closes
  simp only [Bool.and_eq_true, decide_eq_true_eq] at closes
  exact closes.2

theorem started_paintable (paintable : c.Paintable) (img : QImage) :
    (started c.toCanvasBase img).Paintable := by
  intro shape member
  by_cases new : shape = c.next
  · subst new
    intro _ one
    rw [Shape.pointCount, (started_heap_next c.toCanvasBase img).1] at one
    cases one
  · rw [started_heap_other c.toCanvasBase img new]
    rcases List.mem_append.mp member with member | member
    · exact paintable shape member
    · exact absurd (List.mem_singleton.mp member) new

theorem mousePress_paintable {pos : QPointF} {leftButton : Bool} {reply : DialogReply} (paintable : c.Paintable)
    (pressed : c.mousePressEvent containsPoint pos leftButton reply = .ok d) : d.Paintable := by
  obtain ⟨img, _, ⟨still, _⟩ | ⟨shape, _, found, isOpen, _, takes⟩ | ⟨operat, _, begun, added, takes⟩⟩ :=
    mousePressEvent_completes pressed
  · exact still.paintable.mpr paintable
  · exact takes.paintable paintable (drawn_completes found).2.1 isOpen closesAt_some
  · obtain ⟨img, _, _, base, _⟩ := addShape_completes added
    have before : begun.Paintable := by
      rw [base]
      exact started_paintable paintable img
    have draws : begun.operat = .draw := by
      rw [base]
      exact operat
    have isOpen : (begun.heap c.next).isClosed = false := by
      rw [base]
      exact (started_heap_next c.toCanvasBase img).2.2
    exact takes.paintable before draws isOpen (by simp)

theorem mouseDoubleClick_paintable {pos : QPointF} {leftButton : Bool} {reply : DialogReply}
    (paintable : c.Paintable) (clicked : c.mouseDoubleClickEvent containsPoint pos leftButton reply = .ok d) :
    d.Paintable := by
  rcases mouseDoubleClickEvent_completes clicked with
    ⟨_, rfl⟩ | ⟨shape, _, many, points, finished, erased, still, pressed⟩ | ⟨_, pressed⟩
  · exact paintable
  · have changed : Untouched (c.toCanvasBase.modifyShape shape fun s => { s with points, isClosed := true })
        finished.toCanvasBase := still.base
    have count : points.size = (c.heap shape).pointCount - 1 := YPolygonPoints.erase_size erased
    have before : finished.Paintable := by
      rw [CanvasBase.paintable_modify paintable changed]
      intro _ _ one
      have one : points.size = 1 := one
      omega
    exact mousePress_paintable before pressed
  · exact mousePress_paintable paintable pressed

theorem mouseMove_paintable {pos : QPointF} (paintable : c.Paintable)
    (moved : c.mouseMoveEvent containsPoint pos = .ok d) : d.Paintable := by
  rcases mouseMoveEvent_completes moved with ⟨still, _⟩ | ⟨img, _, _, _, shape, _, points, reshaped, changed⟩
  · exact still.paintable.mpr paintable
  · rw [CanvasBase.paintable_modify paintable changed]
    intro member corner one
    have one : points.size = 1 := one
    exact paintable shape member corner ((reshaped.size.2 corner).symm.trans one)

theorem keyPress_paintable {enter : Bool} {reply : DialogReply} (paintable : c.Paintable)
    (pressed : c.keyPressEvent enter reply = .ok d) : d.Paintable := by
  rcases keyPressEvent_completes pressed with ⟨shape, _, _, many, still⟩ | ⟨still, _⟩
  · have changed : Untouched (c.toCanvasBase.modifyShape shape (·.setIsClosed true)) d.toCanvasBase := still.base
    rw [CanvasBase.paintable_modify paintable changed]
    intro _ _ one
    rw [Shape.setIsClosed_pointCount] at one
    omega
  · exact still.paintable.mpr paintable

theorem deletePoint_paintedIn {s deleted : Shape} {index : ℤ} {operat : OperatMode}
    (before : s.PaintedIn operat) (erased : s.deletePoint index = .ok deleted) :
    deleted.PaintedIn operat ↔ (s.type.twoPoint = true → s.pointCount = 2 → index < 2 →
      operat = .draw ∧ s.isClosed = false) := by
  rcases Shape.deletePoint_completes erased with ⟨beyond, rfl⟩ | ⟨inside, points, taken, rfl⟩
  · refine iff_of_true before ?_
    intro _ two inside
    unfold Shape.pointCount at two
    omega
  · have size : ({ s with points } : Shape).pointCount = s.pointCount - 1 := YPolygonPoints.erase_size taken
    unfold Shape.PaintedIn
    rw [size]
    unfold Shape.pointCount
    constructor
    · intro after corner two _
      exact after corner (by omega)
    · intro fits corner one
      have two : s.points.size = 2 := by omega
      exact fits corner two (by omega)

theorem undo_paintable (paintable : c.Paintable) (undone : c.undo = .ok d) :
    d.Paintable ↔ CanvasEvent.PaintsWell c .undo := by
  rcases undo_completes undone with ⟨empty, rfl⟩ | ⟨command, done, recorded, list, called, _⟩
  · exact iff_of_true paintable (by simp [CanvasEvent.PaintsWell, empty])
  · simp only [CanvasEvent.PaintsWell, list, List.head?_cons, Option.mem_some_iff, forall_eq']
    rcases Command.undo_cases called with
      ⟨shape, _, rfl, base⟩ | ⟨shape, point, pointName, deleted, rfl, erased, base⟩ | ⟨⟨_, _, rfl⟩, thinned⟩
    · rw [base, CanvasBase.paintable_appended paintable]
      simp only [Shape.PaintedIn, Command.UndoPaints, Shape.IsCorner, and_imp]
    · have changed : Untouched (c.toCanvasBase.modifyShape shape fun _ => deleted) d.toCanvasBase := by
        rw [base]
        exact Untouched.refl _
      rw [CanvasBase.paintable_modify paintable changed, Command.UndoPaints]
      apply forall_congr'
      intro member
      exact deletePoint_paintedIn (paintable shape member) erased
    · exact iff_of_true (CanvasBase.paintable_thinned paintable thinned) trivial

theorem redo_paintable (paintable : c.Paintable) (redone : c.redo = .ok d) :
    d.Paintable ↔ CanvasEvent.PaintsWell c .redo := by
  rcases redo_completes redone with ⟨empty, rfl⟩ | ⟨command, undone, recorded, list, called, _⟩
  · exact iff_of_true paintable (by simp [CanvasEvent.PaintsWell, empty])
  · simp only [CanvasEvent.PaintsWell, list, List.head?_cons, Option.mem_some_iff, forall_eq']
    rcases Command.redo_cases called with
      ⟨shape, _, rfl, base⟩ | ⟨shape, point, pointName, rfl, base⟩ | ⟨kind, thinned⟩
    · rw [base, CanvasBase.paintable_appended paintable]
      simp only [Shape.PaintedIn, Command.RedoPaints, Shape.IsCorner, and_imp]
    · have changed : Untouched (c.toCanvasBase.modifyShape shape (·.appendPoint point)) d.toCanvasBase := by
        rw [base]
        exact Untouched.refl _
      rw [CanvasBase.paintable_modify paintable changed, Command.RedoPaints]
      simp only [Shape.PaintedIn, Shape.appendPoint_type, Shape.appendPoint_pointCount, Nat.add_eq_right]
      rfl
    · refine iff_of_true (CanvasBase.paintable_thinned paintable thinned) ?_
      rcases kind with ⟨_, _, rfl⟩ | ⟨_, _, rfl⟩ <;> trivial

theorem handle_paintable {event : CanvasEvent} (paintable : c.Paintable)
    (handled : c.handle containsPoint event = .ok d) : d.Paintable ↔ event.PaintsWell c := by
  cases event with
  | mousePress pos leftButton reply => exact iff_of_true (mousePress_paintable paintable handled) trivial
  | mouseRelease pos => exact iff_of_true ((mouseReleaseEvent_still handled).paintable.mpr paintable) trivial
  | mouseDoubleClick pos leftButton reply => exact iff_of_true (mouseDoubleClick_paintable paintable handled) trivial
  | hoverMove pos => exact iff_of_true ((hoverMoveEvent_still handled).paintable.mpr paintable) trivial
  | mouseMove pos => exact iff_of_true (mouseMove_paintable paintable handled) trivial
  | keyPress enter reply => exact iff_of_true (keyPress_paintable paintable handled) trivial
  | undo => exact undo_paintable paintable handled
  | redo => exact redo_paintable paintable handled
  | changeDrawMode mode =>
    cases handled
    exact iff_of_true paintable trivial
  | changeOperatMode mode =>
    cases handled
    cases mode with
    | draw =>
      refine iff_of_true ?_ trivial
      intro shape member corner one
      exact ⟨rfl, (paintable shape member corner one).2⟩
    | edit =>
      unfold CanvasEvent.PaintsWell
      apply forall₂_congr
      intro shape _
      simp [Shape.PaintedIn, Shape.IsCorner]
  | creatPolygon =>
    obtain ⟨img, _, _, base, _⟩ := addShape_completes handled
    refine iff_of_true ?_ trivial
    rw [base]
    exact started_paintable paintable img

/-- In every state of a run every shape is drawn without reading past its points exactly when every
    event of the run comes in a state in which it leaves the shapes fit to be painted. -/
theorem painting_in_range_iff (containsPoint : List QPointF → QPointF → Bool) (img : QImage)
    (events : List CanvasEvent) :
    (∀ reached ∈ visited (handle containsPoint) (loaded img) events,
        ∃ pictures, reached.drawShape = .ok pictures) ↔
      Along (handle containsPoint) (fun state event => event.PaintsWell state) (loaded img) events := by
  have initial : (loaded img).Paintable := by
    intro shape member
    cases member
  have drawn := (CanvasBase.drawShape_completes_iff (c := (loaded img).toCanvasBase) rfl).mpr initial
  apply visited_invariant_iff (fun c : Canvas2D => c.task = .segmentation) _ rfl drawn
  intro state event next task painted handled
  have task' : next.task = .segmentation := (handle_sameView handled).task.trans task
  rw [CanvasBase.drawShape_completes_iff task] at painted
  rw [CanvasBase.drawShape_completes_iff task']
  exact ⟨task', handle_paintable painted handled⟩

/-- One press in rectangle mode, then edit mode: the second corner is read and is not there. -/
theorem rectangle_painted_with_one_point :
    ∃ reached ∈ visited (handle fun _ _ => false) (loaded blankImage)
        [.changeDrawMode .rectangle, .mousePress ⟨-10, -10⟩ true none, .changeOperatMode .edit],
      reached.drawShape = .error .outOfRange := by
  have observed : (run (handle fun _ _ => false) (loaded blankImage)
      [.changeDrawMode .rectangle, .mousePress ⟨-10, -10⟩ true none, .changeOperatMode .edit]).map
        (fun c => c.drawShape) = .ok (.error .outOfRange) := by
    decide +kernel
  obtain ⟨reached, done, seen⟩ := map_completes observed
  exact ⟨reached, run_mem_visited done, seen⟩

end Canvas2D

end XYAnnotation

import XYAnnotation.Annotations.Positions
import XYAnnotation.Canvas.ClosedShapes
import XYAnnotation.Canvas.Gesture

namespace XYAnnotation

open Library CanvasBase

namespace CanvasBase

variable {containsPoint : List QPointF → QPointF → Bool} {pixPos : QPointF} {img : QImage}
  {c d : CanvasBase} {shape : ShapeId}

def reactCall (img : QImage) (pixPos : QPointF) (c : CanvasBase) (s : Shape) : Option PointCall :=
  if c.insertPoint ≥ 0 ∧ s.isPress then some (.insertPoint pixPos c.insertPoint)
  else if c.mouseDrag ∧ s.isPress then some (.updatePoint pixPos c.activePoint)
  else if s.isDrag then some (.move (isCloseToEdge img s (pixPos - c.lastPressPos)).2)
  else none

theorem orCaught_points (call : PointCall) (keep : Shape → CanvasBase)
    (kept : ∀ result, (keep result).heap = Function.update c.heap shape result) :
    ∃ d, c.orCaught ((c.heap shape).call call) keep = .ok (d, true) ∧
      (∀ other, other ≠ shape → d.heap other = c.heap other) ∧
      (d.heap shape).points = (c.heap shape).pointsAfter call := by
  cases done : (c.heap shape).call call with
  | ok result =>
    refine ⟨keep result, rfl, ?_, ?_⟩
    · intro other different
      rw [kept, Function.update_of_ne different]
    · rw [kept, Function.update_self, Shape.pointsAfter_ok done]
  | error fault =>
    have caught : fault.isException = true := by
      rw [Shape.call_fault done]
      rfl
    refine ⟨c, if_pos caught, fun _ _ => rfl, ?_⟩
    rw [Shape.pointsAfter_error done]

theorem react_cases (c : CanvasBase) (img : QImage) (pixPos : QPointF) (shape : ShapeId) :
    (c.reactCall img pixPos (c.heap shape) = none ∧ c.react img pixPos shape = .ok (c, false)) ∨
      ∃ call d, c.reactCall img pixPos (c.heap shape) = some call ∧ c.react img pixPos shape = .ok (d, true) ∧
        (∀ other, other ≠ shape → d.heap other = c.heap other) ∧
        (d.heap shape).points = (c.heap shape).pointsAfter call := by
  simp only [reactCall, react]
  split
  · obtain ⟨d, done, changed⟩ := orCaught_points (c := c) (.insertPoint pixPos c.insertPoint)
      (fun s => { c with activePoint := c.insertPoint, insertPoint := -1 }.modifyShape shape fun _ => s)
      fun _ => rfl
    exact .inr ⟨_, d, rfl, done, changed⟩
  · split
    · obtain ⟨d, done, changed⟩ := orCaught_points (c := c) (.updatePoint pixPos c.activePoint)
        (fun s => c.modifyShape shape fun _ => s) fun _ => rfl
      exact .inr ⟨_, d, rfl, done, changed⟩
    · split
      · obtain ⟨d, done, changed⟩ := orCaught_points (c := c)
          (.move (isCloseToEdge img (c.heap shape) (pixPos - c.lastPressPos)).2)
          (fun s => { c with lastPressPos := pixPos }.modifyShape shape fun _ => s) fun _ => rfl
        exact .inr ⟨_, d, rfl, done, changed⟩
      · exact .inl ⟨rfl, rfl⟩

theorem reacts_eq (c : CanvasBase) (img : QImage) (pixPos : QPointF) (shape : ShapeId) :
    c.reacts shape = (c.editable shape && (c.reactCall img pixPos (c.heap shape)).isSome) := by
  unfold reacts reactCall
  by_cases insert : c.insertPoint ≥ 0 ∧ (c.heap shape).isPress = true
  · simp [insert.1, insert.2]
  · rw [if_neg insert]
    by_cases update : c.mouseDrag = true ∧ (c.heap shape).isPress = true
    · simp [update.1, update.2]
    · rw [if_neg update]
      have noInsert : (decide (c.insertPoint ≥ 0) && (c.heap shape).isPress) = false := by simpa using insert
      have noUpdate : (c.mouseDrag && (c.heap shape).isPress) = false := by simpa using update
      rw [noInsert, noUpdate]
      cases (c.heap shape).isDrag <;> rfl

structure Reacted (img : QImage) (pixPos : QPointF) (item : ShapeId) (c d : CanvasBase) : Prop where
  others : ∀ other, other ≠ item → (d.heap other).points = (c.heap other).points
  points : (d.heap item).points = (c.heap item).pointsAfterAny (c.reactCall img pixPos (c.heap item))

theorem react_withActive (active : ShapeId → Bool) (editable : c.editable shape = true) :
    (c.reacts shape = false ∧ (c.withActive active).react img pixPos shape = .ok (c.withActive active, false)) ∨
      c.reacts shape = true ∧ ∃ d, (c.withActive active).react img pixPos shape = .ok (d, true) ∧
        Reacted img pixPos shape c d := by
  have same : (c.withActive active).reactCall img pixPos ((c.withActive active).heap shape) =
      c.reactCall img pixPos (c.heap shape) := rfl
  rw [c.reacts_eq img pixPos shape, editable, Bool.true_and]
  rcases react_cases (c.withActive active) img pixPos shape with ⟨idle, done⟩ | ⟨call, d, made, done, others, points⟩
  · rw [same] at idle
    exact .inl ⟨by rw [idle]; rfl, done⟩
  · rw [same] at made
    refine .inr ⟨by rw [made]; rfl, d, done, ?_, ?_⟩
    · intro other different
      rw [others other different]
      rfl
    · rw [points, made]
      exact Shape.pointsAfter_congr (t := (c.withActive active).heap shape) (s := c.heap shape) rfl rfl call

theorem moveShape_points (c : CanvasBase) (containsPoint : List QPointF → QPointF → Bool) (pixPos : QPointF)
    (img : QImage) (active : ShapeId → Bool) (shape : ShapeId) :
    (c.reacts shape = false ∧ ∃ settled,
      (c.withActive active).moveShape containsPoint pixPos img shape = .ok (c.withActive settled, false)) ∨
      c.reacts shape = true ∧ ∃ d, (c.withActive active).moveShape containsPoint pixPos img shape = .ok (d, true) ∧
        Reacted img pixPos shape c d := by
  rw [moveShape_eq]
  split
  · rename_i fixed
    have fixed : c.editable shape = false := by
      simp only [Bool.not_eq_true'] at fixed
      exact fixed
    refine .inl ⟨?_, active, rfl⟩
    rw [c.reacts_eq img pixPos shape, fixed, Bool.false_and]
  · rename_i editable
    have editable : c.editable shape = true := by
      simp only [Bool.not_eq_true', Bool.not_eq_false] at editable
      exact editable
    have settles : ∀ settled, (c.reacts shape = false ∧ ∃ active,
        (c.withActive settled).react img pixPos shape = .ok (c.withActive active, false)) ∨
        c.reacts shape = true ∧ ∃ d, (c.withActive settled).react img pixPos shape = .ok (d, true) ∧
          Reacted img pixPos shape c d := by
      intro settled
      rcases react_withActive settled editable with ⟨idle, done⟩ | reacted
      · exact .inl ⟨idle, settled, done⟩
      · exact .inr reacted
    split
    · exact settles active
    · rw [modify_withActive]
      exact settles _

theorem moveLoop_points {active : ShapeId → Bool} {items : List ShapeId}
    (moved : loop (moveShape containsPoint pixPos img) (c.withActive active) items = .ok d) (shape : ShapeId) :
    (d.heap shape).points = (c.heap shape).pointsAfterAny
      (if items.find? c.reacts = some shape then c.reactCall img pixPos (c.heap shape) else none) := by
  induction items generalizing active with
  | nil =>
    cases moved
    rfl
  | cons item items ih =>
    rw [loop] at moved
    rcases c.moveShape_points containsPoint pixPos img active item with
      ⟨idle, settled, done⟩ | ⟨reacting, e, done, reacted⟩
    · rw [done] at moved
      rw [List.find?_cons, idle]
      exact ih moved
    · rw [done] at moved
      cases moved
      rw [List.find?_cons, reacting]
      by_cases here : shape = item
      · rw [here, if_pos rfl]
        exact reacted.points
      · have other : ¬ some item = some shape := by simpa using Ne.symm here
        rw [if_neg other]
        exact reacted.others shape here

end CanvasBase

def Command.pointOf : Command → ShapePtr
  | .addPoint shape _ _ => shape
  | _ => none

def Command.undoCall (shape : ShapeId) : Command → Option PointCall
  | .addPoint (some other) _ pointName =>
    if other = shape then some (.deletePoint (QString.toInt pointName).toNat) else none
  | _ => none

def Command.redoCall (shape : ShapeId) : Command → Option PointCall
  | .addPoint (some other) point _ => if other = shape then some (.appendPoint point) else none
  | _ => none

namespace Canvas2D

def pressCall (c : Canvas2D) (shape : ShapeId) (pos : QPointF) (leftButton : Bool) : Option PointCall :=
  match c.image with
  | none => none
  | some img =>
    if leftButton ∧ c.drawn = some shape ∧ (c.heap shape).isClosed = false ∧ c.draw ≠ .none then
      some (.appendPoint (bindImgEdge img pos))
    else none

def doubleClickCall (c : Canvas2D) (shape : ShapeId) (pos : QPointF) (leftButton : Bool) : Option PointCall :=
  if c.drawn = some shape ∧ 2 < (c.heap shape).pointCount then
    some (.deletePoint ((c.heap shape).pointCount - 1))
  else c.pressCall shape pos leftButton

def moveCall (c : Canvas2D) (shape : ShapeId) (pos : QPointF) : Option PointCall :=
  match c.image, c.task, c.operat with
  | some img, .segmentation, .edit =>
    if c.shapeList.find? c.reacts = some shape then c.reactCall img (bindImgEdge img pos) (c.heap shape) else none
  | _, _, _ => none

/-- The call that an event makes on a shape that is already there. -/
def pointCall (c : Canvas2D) (shape : ShapeId) : CanvasEvent → Option PointCall
  | .mousePress pos leftButton _ => c.pressCall shape pos leftButton
  | .mouseDoubleClick pos leftButton _ => c.doubleClickCall shape pos leftButton
  | .mouseMove pos => c.moveCall shape pos
  | .undo => c.undoStack.done.head?.bind (Command.undoCall shape)
  | .redo => c.undoStack.undone.head?.bind (Command.redoCall shape)
  | _ => none

variable {containsPoint : List QPointF → QPointF → Bool} {c d : Canvas2D} {shape : ShapeId}

theorem mouseMove_points {pos : QPointF} (moved : c.mouseMoveEvent containsPoint pos = .ok d) :
    (d.heap shape).points = (c.heap shape).pointsAfterAny (c.moveCall shape pos) := by
  unfold mouseMoveEvent at moved
  split at moved
  · rename_i img image task operat
    obtain ⟨base, done, rest⟩ := bind_completes moved
    cases rest
    rw [CanvasBase.withActive_same c.toCanvasBase] at done
    simp only [moveCall, image, task, operat]
    exact moveLoop_points done shape
  · rename_i excluded
    cases moved
    unfold moveCall
    split
    · rename_i image task operat
      exact (excluded _ image task operat).elim
    · rfl

theorem pressCall_none {pos : QPointF} {leftButton : Bool}
    (idle : ¬ (leftButton = true ∧ c.drawn = some shape ∧ (c.heap shape).isClosed = false ∧ c.draw ≠ .none)) :
    c.pressCall shape pos leftButton = none := by
  unfold pressCall
  split
  · rfl
  · exact if_neg idle

theorem mousePress_points {pos : QPointF} {leftButton : Bool} {reply : DialogReply} (known : shape < c.next)
    (pressed : c.mousePressEvent containsPoint pos leftButton reply = .ok d) :
    (d.heap shape).points = (c.heap shape).pointsAfterAny (c.pressCall shape pos leftButton) := by
  obtain ⟨img, image, ⟨still, idle⟩ | ⟨other, left, found, isOpen, mode, takes⟩ |
    ⟨_, closed, begun, added, takes⟩⟩ := mousePressEvent_completes pressed
  · rw [pressCall_none]
    · exact (still.base.outline shape).points
    · rintro ⟨left, found, isOpen, mode⟩
      exact mode (idle left shape found isOpen)
  · by_cases here : shape = other
    · subst here
      simp only [pressCall, image]
      rw [if_pos ⟨left, found, isOpen, mode⟩]
      exact takes.outline.1
    · rw [pressCall_none]
      · exact (takes.other here).points
      · rintro ⟨_, drawn, _⟩
        rw [found] at drawn
        exact here (Option.some.inj drawn).symm
  · rw [pressCall_none]
    · exact (takes.started_other added (Nat.ne_of_lt known)).points
    · rintro ⟨_, found, isOpen, _⟩
      rw [closed shape found] at isOpen
      cases isOpen

theorem mouseDoubleClick_points {pos : QPointF} {leftButton : Bool} {reply : DialogReply} (known : shape < c.next)
    (clicked : c.mouseDoubleClickEvent containsPoint pos leftButton reply = .ok d) :
    (d.heap shape).points = (c.heap shape).pointsAfterAny (c.doubleClickCall shape pos leftButton) := by
  unfold doubleClickCall
  rcases mouseDoubleClickEvent_completes clicked with
    ⟨absent, rfl⟩ | ⟨other, found, many, points, finished, erased, still, pressed⟩ | ⟨few, pressed⟩
  · have other : d.drawn ≠ some shape := by simp [absent]
    rw [if_neg fun finishes => other finishes.1, pressCall_none fun presses => other presses.2.1]
    rfl
  · have kept := (still.base.outline shape).points
    have known' : shape < finished.next := by
      rw [still.base.next]
      exact known
    have pressed' := mousePress_points known' pressed
    have closed : (finished.heap other).isClosed = true := by
      rw [(still.base.outline other).isClosed, modifyShape, CanvasBase.modifyShape_heap_same]
    have drawn : finished.drawn = some other := still.drawn.trans found
    rw [pressCall_none] at pressed'
    · rw [pressed']
      by_cases here : shape = other
      · subst here
        rw [if_pos ⟨found, many⟩]
        rw [modifyShape, CanvasBase.modifyShape_heap_same] at kept
        have deleted : (c.heap shape).call (.deletePoint ((c.heap shape).pointCount - 1)) =
            .ok { c.heap shape with points } := by
          have last : (((c.heap shape).pointCount - 1 : ℕ) : ℤ) = (c.heap shape).pointCount - 1 := by omega
          rw [Shape.call, Shape.deletePoint, last, erased, if_neg]
          · rfl
          · unfold Shape.pointCount
            omega
        exact kept.trans (Shape.pointsAfter_ok deleted).symm
      · rw [modifyShape, CanvasBase.modifyShape_heap_other _ _ _ here] at kept
        have different : c.drawn ≠ some shape := by
          rw [found]
          exact fun same => here (Option.some.inj same).symm
        rw [if_neg fun finishes => different finishes.1, pressCall_none fun presses => different presses.2.1]
        exact kept
    · rintro ⟨_, found', isOpen, _⟩
      rw [drawn] at found'
      cases found'
      rw [closed] at isOpen
      cases isOpen
  · rw [if_neg]
    · exact mousePress_points known pressed
    · rintro ⟨found, many⟩
      exact absurd (few shape found) (not_le.mpr many)

theorem undo_points (undone : c.undo = .ok d) : (d.heap shape).points =
    (c.heap shape).pointsAfterAny (c.undoStack.done.head?.bind (Command.undoCall shape)) := by
  rcases undo_completes undone with ⟨empty, rfl⟩ | ⟨command, done, recorded, top, called, _⟩
  · rw [empty]
    rfl
  · rw [top, List.head?_cons, Option.bind_some]
    rcases Command.undo_cases called with
      ⟨added, _, rfl, base⟩ | ⟨other, point, pointName, deleted, rfl, erased, base⟩ | ⟨⟨added, _, rfl⟩, thinned⟩
    · rw [base]
      exact (Command.appended_outline c.toCanvasBase added shape).points
    · rw [base, Command.undoCall]
      by_cases here : shape = other
      · subst here
        have low : 0 ≤ QString.toInt pointName := by
          rcases Shape.deletePoint_completes erased with ⟨beyond, _⟩ | ⟨_, _, done, _⟩
          · omega
          · exact (YPolygonPoints.erase_completes done).1
        rw [if_pos rfl, CanvasBase.modifyShape_heap_same]
        rw [← Int.toNat_of_nonneg low] at erased
        have call : (c.heap shape).call (.deletePoint (QString.toInt pointName).toNat) = .ok deleted := erased
        exact (Shape.pointsAfter_ok call).symm
      · rw [if_neg (Ne.symm here), CanvasBase.modifyShape_heap_other _ _ _ here]
        rfl
    · rw [thinned.heap]
      rfl

theorem redo_points (redone : c.redo = .ok d) : (d.heap shape).points =
    (c.heap shape).pointsAfterAny (c.undoStack.undone.head?.bind (Command.redoCall shape)) := by
  rcases redo_completes redone with ⟨empty, rfl⟩ | ⟨command, done, recorded, top, called, _⟩
  · rw [empty]
    rfl
  · rw [top, List.head?_cons, Option.bind_some]
    rcases Command.redo_cases called with
      ⟨added, _, rfl, base⟩ | ⟨other, point, pointName, rfl, base⟩ | ⟨⟨_, _, rfl⟩ | ⟨_, _, rfl⟩, thinned⟩
    · rw [base]
      exact (Command.appended_outline c.toCanvasBase added shape).points
    · rw [base, Command.redoCall]
      by_cases here : shape = other
      · subst here
        rw [if_pos rfl, CanvasBase.modifyShape_heap_same]
        rfl
      · rw [if_neg (Ne.symm here), CanvasBase.modifyShape_heap_other _ _ _ here]
        rfl
    · rw [thinned.heap]
      rfl
    · rw [thinned.heap]
      rfl

theorem handle_points {event : CanvasEvent} (known : shape < c.next) (handled : c.handle containsPoint event = .ok d) :
    (d.heap shape).points = (c.heap shape).pointsAfterAny (c.pointCall shape event) := by
  cases event with
  | mousePress pos leftButton reply => exact mousePress_points known handled
  | mouseRelease pos => exact ((mouseReleaseEvent_still handled).base.outline shape).points
  | mouseDoubleClick pos leftButton reply => exact mouseDoubleClick_points known handled
  | hoverMove pos => exact ((hoverMoveEvent_still handled).base.outline shape).points
  | mouseMove pos => exact mouseMove_points handled
  | keyPress enter reply =>
    rcases keyPressEvent_completes handled with ⟨closed, _, _, _, still⟩ | ⟨still, _⟩
    · rw [(still.base.outline shape).points, modifyShape]
      by_cases here : shape = closed
      · rw [here, CanvasBase.modifyShape_heap_same]
        rfl
      · rw [CanvasBase.modifyShape_heap_other _ _ _ here]
        rfl
    · exact (still.base.outline shape).points
  | undo => exact undo_points handled
  | redo => exact redo_points handled
  | changeDrawMode mode =>
    cases handled
    rfl
  | changeOperatMode mode =>
    cases handled
    rfl
  | creatPolygon =>
    obtain ⟨img, _, _, base, _⟩ := addShape_completes handled
    rw [base, started_heap_other _ _ (Nat.ne_of_lt known)]
    rfl

/-- The commands that an event puts on the stack: none that adds a point, or one on top of others, which has
    appended its point and knows where. -/
inductive Recorded (c d : Canvas2D) : List Command → Prop
  | pointless {commands : List Command} (none : ∀ command ∈ commands, command.pointOf = none) : Recorded c d commands
  | point {shape : ShapeId} {point : QPointF} {previous : List QPointF} {commands : List Command}
      (appended : (d.heap shape).points.oriPoints = previous ++ [point])
      (before : shape < c.next → (c.heap shape).points.oriPoints = previous)
      (none : ∀ command ∈ commands, command.pointOf = none) :
      Recorded c d (.addPoint (some shape) point (QString.number previous.length) :: commands)

theorem TakesPoint.oriPoints {pixPos : QPointF} {closes : Bool} (takes : TakesPoint shape pixPos closes c d) :
    (d.heap shape).points.oriPoints = (c.heap shape).points.oriPoints ++ [pixPos] := by
  rw [takes.outline.1]
  rfl

theorem recorded_started {first begun : Canvas2D} {pixPos : QPointF} {closes : Bool} (next : c.next = first.next)
    (added : CanvasView.addShape c = .ok begun) (takes : TakesPoint c.next pixPos closes begun d) :
    ∃ pushed, d.undoStack.done = pushed ++ c.undoStack.done ∧ Recorded first d pushed := by
  obtain ⟨img, _, _, _, stack⟩ := addShape_completes added
  refine ⟨[_, .addShape (some c.next) (begun.heap c.next).name], ?_, .point takes.oriPoints ?_ ?_⟩
  · rw [takes.undoStack, stack]
    rfl
  · intro old
    exact absurd old (next ▸ lt_irrefl c.next)
  · intro command member
    rw [List.mem_singleton.mp member]
    rfl

theorem mousePress_recorded {pos : QPointF} {leftButton : Bool} {reply : DialogReply}
    (pressed : c.mousePressEvent containsPoint pos leftButton reply = .ok d) :
    ∃ pushed, d.undoStack.done = pushed ++ c.undoStack.done ∧ Recorded c d pushed := by
  obtain ⟨img, image, ⟨still, _⟩ | ⟨shape, _, _, _, _, takes⟩ | ⟨_, _, begun, added, takes⟩⟩ :=
    mousePressEvent_completes pressed
  · exact ⟨[], by rw [still.undoStack]; rfl, .pointless (by simp)⟩
  · refine ⟨[_], ?_, .point takes.oriPoints (fun _ => rfl) (by simp)⟩
    rw [takes.undoStack]
    rfl
  · exact recorded_started rfl added takes

theorem mouseDoubleClick_recorded {pos : QPointF} {leftButton : Bool} {reply : DialogReply}
    (clicked : c.mouseDoubleClickEvent containsPoint pos leftButton reply = .ok d) :
    ∃ pushed, d.undoStack.done = pushed ++ c.undoStack.done ∧ Recorded c d pushed := by
  rcases mouseDoubleClickEvent_completes clicked with
    ⟨_, rfl⟩ | ⟨shape, found, _, points, finished, _, still, pressed⟩ | ⟨_, pressed⟩
  · exact ⟨[], rfl, .pointless (by simp)⟩
  · have closed : (finished.heap shape).isClosed = true := by
      rw [(still.base.outline shape).isClosed, modifyShape, CanvasBase.modifyShape_heap_same]
    have drawn : finished.drawn = some shape := still.drawn.trans found
    have stack : c.undoStack = finished.undoStack := still.undoStack.symm
    rw [stack]
    obtain ⟨img, image, ⟨idle, _⟩ | ⟨other, _, found', isOpen, _⟩ | ⟨_, _, begun, added, takes⟩⟩ :=
      mousePressEvent_completes pressed
    · exact ⟨[], by rw [idle.undoStack]; rfl, .pointless (by simp)⟩
    · rw [drawn] at found'
      cases found'
      rw [closed] at isOpen
      cases isOpen
    · exact recorded_started still.base.next added takes
  · exact mousePress_recorded pressed

theorem redo_recorded (redone : c.redo = .ok d) :
    ∃ pushed, d.undoStack.done = pushed ++ c.undoStack.done ∧ Recorded c d pushed := by
  rcases redo_completes redone with ⟨_, rfl⟩ | ⟨command, undone, recorded, _, called, stack⟩
  · exact ⟨[], rfl, .pointless (by simp)⟩
  · refine ⟨[recorded], by rw [stack]; rfl, ?_⟩
    cases command with
    | addShape shape shapeName =>
      obtain ⟨⟨_, _⟩, _, rest⟩ := bind_completes called
      cases rest
      exact .pointless (by simp [Command.pointOf])
    | removeShape shape shapeName =>
      obtain ⟨_, _, rest⟩ := bind_completes called
      cases rest
      exact .pointless (by simp [Command.pointOf])
    | addPoint shape point pointName =>
      cases shape with
      | none =>
        obtain ⟨rfl, _⟩ := Prod.mk.inj (Except.ok.inj called)
        exact .pointless (by simp [Command.pointOf])
      | some shape =>
        have point_redo : (Command.addPoint (some shape) point pointName).redo c.toCanvasBase =
            .ok (.addPoint (some shape) point (QString.number (c.heap shape).points.size),
              (c.toCanvasBase.addPoint (some shape) point).1) := by
          rw [← addPoint_pointName c.toCanvasBase shape point]
          rfl
        rw [point_redo] at called
        obtain ⟨rfl, base⟩ := Prod.mk.inj (Except.ok.inj called)
        refine .point ?_ (fun _ => rfl) (by simp)
        rw [← base, CanvasBase.addPoint_points_same]
        rfl

theorem handle_stack {event : CanvasEvent} (handled : c.handle containsPoint event = .ok d) :
    (∃ command, event = .undo ∧ c.undoStack.done = command :: d.undoStack.done) ∨
      (event = .undo → c.undoStack.done = []) ∧
        ∃ pushed, d.undoStack.done = pushed ++ c.undoStack.done ∧ Recorded c d pushed := by
  have quiet : d.undoStack = c.undoStack →
      ∃ pushed, d.undoStack.done = pushed ++ c.undoStack.done ∧ Recorded c d pushed := by
    intro same
    exact ⟨[], by rw [same]; rfl, .pointless (by simp)⟩
  cases event with
  | mousePress pos leftButton reply => exact .inr ⟨by simp, mousePress_recorded handled⟩
  | mouseRelease pos => exact .inr ⟨by simp, quiet (mouseReleaseEvent_still handled).undoStack⟩
  | mouseDoubleClick pos leftButton reply => exact .inr ⟨by simp, mouseDoubleClick_recorded handled⟩
  | hoverMove pos => exact .inr ⟨by simp, quiet (hoverMoveEvent_still handled).undoStack⟩
  | mouseMove pos =>
    rcases mouseMoveEvent_completes handled with ⟨still, _⟩ | ⟨_, _, _, stack, _⟩
    · exact .inr ⟨by simp, quiet still.undoStack⟩
    · exact .inr ⟨by simp, quiet stack⟩
  | keyPress enter reply =>
    rcases keyPressEvent_completes handled with ⟨_, _, _, _, still⟩ | ⟨still, _⟩
    · exact .inr ⟨by simp, quiet still.undoStack⟩
    · exact .inr ⟨by simp, quiet still.undoStack⟩
  | undo =>
    rcases undo_completes handled with ⟨empty, rfl⟩ | ⟨command, done, recorded, top, _, stack⟩
    · exact .inr ⟨fun _ => empty, quiet rfl⟩
    · refine .inl ⟨command, rfl, ?_⟩
      rw [top, stack]
  | redo => exact .inr ⟨by simp, redo_recorded handled⟩
  | changeDrawMode mode =>
    cases handled
    exact .inr ⟨by simp, quiet rfl⟩
  | changeOperatMode mode =>
    cases handled
    exact .inr ⟨by simp, quiet rfl⟩
  | creatPolygon =>
    obtain ⟨img, _, _, _, stack⟩ := addShape_completes handled
    refine .inr ⟨by simp, [_], by rw [stack]; rfl, .pointless ?_⟩
    simp [Command.pointOf]

end Canvas2D

end XYAnnotation

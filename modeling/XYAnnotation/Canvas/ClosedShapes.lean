import XYAnnotation.Canvas.Handlers

namespace XYAnnotation

open Library

def DrawMode.ClosedBy (type : DrawMode) (count : ℕ) : Prop :=
  if type.twoPoint = true then count = 2 else 3 ≤ count

theorem DrawMode.closedBy_corner {type : DrawMode} (corner : type.twoPoint = true) (count : ℕ) :
    type.ClosedBy count ↔ count = 2 := by
  rw [DrawMode.ClosedBy, if_pos corner]

theorem DrawMode.closedBy_path {type : DrawMode} (path : ¬ type.twoPoint = true) (count : ℕ) :
    type.ClosedBy count ↔ 3 ≤ count := by
  rw [DrawMode.ClosedBy, if_neg path]

def Shape.WellClosed (s : Shape) : Prop := s.isClosed = true → s.type.ClosedBy s.pointCount

theorem SameOutline.wellClosed {s t : Shape} (same : SameOutline s t) : t.WellClosed ↔ s.WellClosed := by
  unfold Shape.WellClosed Shape.pointCount
  rw [same.points, same.type, same.isClosed]

namespace CanvasBase

def AllWellClosed (c : CanvasBase) : Prop := ∀ shape, (c.heap shape).WellClosed

variable {c d : CanvasBase}

theorem allWellClosed_of_outline (same : ∀ shape, SameOutline (c.heap shape) (d.heap shape)) :
    d.AllWellClosed ↔ c.AllWellClosed := by
  unfold AllWellClosed
  apply forall_congr'
  intro shape
  exact (same shape).wellClosed

theorem allWellClosed_modify (closed : c.AllWellClosed) {shape : ShapeId} {f : Shape → Shape}
    (changed : Untouched (c.modifyShape shape f) d) :
    d.AllWellClosed ↔ (f (c.heap shape)).WellClosed := by
  rw [allWellClosed_of_outline changed.outline]
  constructor
  · intro all
    have here := all shape
    rwa [modifyShape_heap_same] at here
  · intro here other
    by_cases same : other = shape
    · subst same
      rw [modifyShape_heap_same]
      exact here
    · rw [modifyShape_heap_other _ _ _ same]
      exact closed other

end CanvasBase

/-- A press that goes to the open shape may close it, whatever type it has. -/
def Canvas2D.PressFits (c : Canvas2D) (shape : ShapeId) : Prop :=
  (c.heap shape).isClosed = false → c.draw.twoPoint = true → 0 < (c.heap shape).pointCount →
    if (c.heap shape).type.twoPoint = true then (c.heap shape).pointCount = 1 else 2 ≤ (c.heap shape).pointCount

/-- A double click closes the shape with one point less. -/
def Canvas2D.DoubleClickFits (c : Canvas2D) (shape : ShapeId) : Prop :=
  if (c.heap shape).type.twoPoint = true then (c.heap shape).pointCount = 3 else 4 ≤ (c.heap shape).pointCount

def CanvasEvent.ClosesWell (c : Canvas2D) : CanvasEvent → Prop
  | .mousePress _ leftButton _ => leftButton = true → ∀ shape, c.drawn = some shape → c.PressFits shape
  | .mouseDoubleClick _ leftButton _ => ∀ shape, c.drawn = some shape →
      if 2 < (c.heap shape).pointCount then c.DoubleClickFits shape else leftButton = true → c.PressFits shape
  | .keyPress enter _ => enter = true → ∀ shape, c.drawn = some shape →
      2 < (c.heap shape).pointCount → (c.heap shape).type.twoPoint = false
  | .undo => ∀ shape point pointName, c.undoStack.done.head? = some (.addPoint (some shape) point pointName) →
      (c.heap shape).isClosed = true → QString.toInt pointName < (c.heap shape).pointCount →
        (c.heap shape).type.twoPoint = false ∧ 4 ≤ (c.heap shape).pointCount
  | .redo => ∀ shape point pointName, c.undoStack.undone.head? = some (.addPoint (some shape) point pointName) →
      (c.heap shape).isClosed = true → (c.heap shape).type.twoPoint = false
  | _ => True

namespace Canvas2D

variable {c d : Canvas2D} {containsPoint : List QPointF → QPointF → Bool}

theorem Still.allWellClosed (still : Still c d) : d.AllWellClosed ↔ c.AllWellClosed :=
  CanvasBase.allWellClosed_of_outline still.base.outline

theorem TakesPoint.allWellClosed {shape : ShapeId} {pixPos : QPointF} (closed : c.AllWellClosed)
    (isOpen : (c.heap shape).isClosed = false)
    (takes : TakesPoint shape pixPos (closesAt c.draw (c.heap shape).pointCount) c d) :
    d.AllWellClosed ↔ c.PressFits shape := by
  rw [CanvasBase.allWellClosed_modify closed takes.base]
  unfold Shape.WellClosed PressFits closesAt
  simp only [Shape.setIsClosed_isClosed, Shape.setIsClosed_type, Shape.setIsClosed_pointCount,
    Shape.appendPoint_type, Shape.appendPoint_pointCount, isOpen, Bool.or_false, Bool.and_eq_true,
    decide_eq_true_eq]
  by_cases corner : (c.heap shape).type.twoPoint = true
  · rw [if_pos corner, DrawMode.closedBy_corner corner]
    constructor
    · intro fits _ mode some
      have two := fits ⟨mode, some⟩
      omega
    · rintro fits ⟨mode, some⟩
      have one := fits trivial mode some
      omega
  · rw [if_neg corner, DrawMode.closedBy_path corner]
    constructor
    · intro fits _ mode some
      have three := fits ⟨mode, some⟩
      omega
    · rintro fits ⟨mode, some⟩
      have two := fits trivial mode some
      omega

theorem started_allWellClosed (closed : c.AllWellClosed) (img : QImage) :
    (started c.toCanvasBase img).AllWellClosed := by
  intro shape
  by_cases new : shape = c.next
  · subst new
    intro isClosed
    rw [(started_heap_next c.toCanvasBase img).2.2] at isClosed
    cases isClosed
  · rw [started_heap_other c.toCanvasBase img new]
    exact closed shape

theorem TakesPoint.first_allWellClosed {pixPos : QPointF} {begun : Canvas2D} (closed : c.AllWellClosed)
    (added : CanvasView.addShape c = .ok begun) (takes : TakesPoint c.next pixPos false begun d) :
    d.AllWellClosed := by
  obtain ⟨img, _, _, base, _⟩ := addShape_completes added
  have before : begun.AllWellClosed := by
    rw [base]
    exact started_allWellClosed closed img
  rw [CanvasBase.allWellClosed_modify before takes.base]
  intro isClosed
  simp only [Shape.setIsClosed_isClosed, Bool.false_or, base, (started_heap_next c.toCanvasBase img).2.2] at isClosed
  cases isClosed

theorem mousePress_allWellClosed {pos : QPointF} {leftButton : Bool} {reply : DialogReply}
    (closed : c.AllWellClosed) (pressed : c.mousePressEvent containsPoint pos leftButton reply = .ok d) :
    d.AllWellClosed ↔ (leftButton = true → ∀ shape, c.drawn = some shape → c.PressFits shape) := by
  obtain ⟨img, _, ⟨still, idle⟩ | ⟨shape, left, found, isOpen, _, takes⟩ | ⟨_, all, begun, added, takes⟩⟩ :=
    mousePressEvent_completes pressed
  · refine iff_of_true (still.allWellClosed.mpr closed) ?_
    intro left shape found isOpen mode
    rw [idle left shape found isOpen] at mode
    cases mode
  · rw [takes.allWellClosed closed isOpen]
    constructor
    · intro fits _ other same
      rw [found] at same
      cases same
      exact fits
    · intro fits
      exact fits left shape found
  · refine iff_of_true (takes.first_allWellClosed closed added) ?_
    intro _ shape found isOpen
    rw [all shape found] at isOpen
    cases isOpen

theorem Still.drawn (still : Still c d) : d.drawn = c.drawn := by
  unfold Canvas2D.drawn CanvasBase.currentShape
  rw [still.base.task, still.base.operat, still.base.currentIndex, still.base.shapeList]

theorem mousePress_keeps_closed {shape : ShapeId} {pos : QPointF} {leftButton : Bool} {reply : DialogReply}
    (known : shape < c.next) (isClosed : (c.heap shape).isClosed = true)
    (pressed : c.mousePressEvent containsPoint pos leftButton reply = .ok d) :
    SameOutline (c.heap shape) (d.heap shape) := by
  obtain ⟨img, _, ⟨still, _⟩ | ⟨other, _, _, isOpen, _, takes⟩ | ⟨_, _, begun, added, takes⟩⟩ :=
    mousePressEvent_completes pressed
  · exact still.base.outline shape
  · have different : shape ≠ other := by
      rintro rfl
      rw [isClosed] at isOpen
      cases isOpen
    exact takes.other different
  · exact takes.started_other added (Nat.ne_of_lt known)

theorem mousePress_beside_closed {shape : ShapeId} {pos : QPointF} {leftButton : Bool} {reply : DialogReply}
    (known : shape < c.next) (found : c.drawn = some shape) (isClosed : (c.heap shape).isClosed = true)
    (decides : (c.heap shape).WellClosed → c.AllWellClosed)
    (pressed : c.mousePressEvent containsPoint pos leftButton reply = .ok d) : d.AllWellClosed ↔ c.AllWellClosed := by
  constructor
  · intro all
    apply decides
    have same := mousePress_keeps_closed known isClosed pressed
    exact same.wellClosed.mp (all shape)
  · intro all
    rw [mousePress_allWellClosed all pressed]
    intro _ other same isOpen
    rw [found] at same
    cases same
    rw [isClosed] at isOpen
    cases isOpen

theorem doubleClickFits_iff {shape : ShapeId} {points : YPolygonPoints}
    (count : points.size = (c.heap shape).pointCount - 1) :
    ({ c.heap shape with points, isClosed := true } : Shape).WellClosed ↔ c.DoubleClickFits shape := by
  have size : ({ c.heap shape with points, isClosed := true } : Shape).pointCount =
      (c.heap shape).pointCount - 1 := count
  rw [Shape.WellClosed, DoubleClickFits, size]
  by_cases corner : (c.heap shape).type.twoPoint = true
  · rw [if_pos corner, DrawMode.closedBy_corner corner]
    simp only [forall_const]
    omega
  · rw [if_neg corner, DrawMode.closedBy_path corner]
    simp only [forall_const]
    omega

theorem mouseDoubleClick_allWellClosed {pos : QPointF} {leftButton : Bool} {reply : DialogReply}
    (placed : c.Placed) (closed : c.AllWellClosed)
    (clicked : c.mouseDoubleClickEvent containsPoint pos leftButton reply = .ok d) :
    d.AllWellClosed ↔ ∀ shape, c.drawn = some shape →
      if 2 < (c.heap shape).pointCount then c.DoubleClickFits shape
      else leftButton = true → c.PressFits shape := by
  rcases mouseDoubleClickEvent_completes clicked with
    ⟨none, rfl⟩ | ⟨shape, found, many, points, finished, erased, still, pressed⟩ | ⟨few, pressed⟩
  · refine iff_of_true closed ?_
    intro shape found
    rw [none] at found
    cases found
  · have known : shape < finished.next := by
      rw [still.base.next]
      exact placed.listed shape (drawn_mem found)
    have changed : Untouched (c.toCanvasBase.modifyShape shape fun s => { s with points, isClosed := true })
        finished.toCanvasBase := still.base
    have judged := CanvasBase.allWellClosed_modify closed changed
    have outline := changed.outline shape
    rw [CanvasBase.modifyShape_heap_same] at outline
    have decides : (finished.heap shape).WellClosed → finished.AllWellClosed := by
      intro good
      exact judged.mpr (outline.wellClosed.mp good)
    have here : finished.drawn = some shape := still.drawn.trans found
    rw [mousePress_beside_closed known here outline.isClosed decides pressed, judged,
      doubleClickFits_iff (YPolygonPoints.erase_size erased)]
    constructor
    · intro good other same
      rw [found] at same
      cases same
      rwa [if_pos many]
    · intro good
      have fits := good shape found
      rwa [if_pos many] at fits
  · rw [mousePress_allWellClosed closed pressed]
    constructor
    · intro good shape found
      rw [if_neg (by have := few shape found; omega)]
      exact fun left => good left shape found
    · intro good left shape found
      have judged := good shape found
      rw [if_neg (by have := few shape found; omega)] at judged
      exact judged left

theorem keyPress_allWellClosed {enter : Bool} {reply : DialogReply} (closed : c.AllWellClosed)
    (pressed : c.keyPressEvent enter reply = .ok d) :
    d.AllWellClosed ↔ (enter = true → ∀ shape, c.drawn = some shape →
      2 < (c.heap shape).pointCount → (c.heap shape).type.twoPoint = false) := by
  rcases keyPressEvent_completes pressed with ⟨shape, entered, found, many, still⟩ | ⟨still, few⟩
  · have changed : Untouched (c.toCanvasBase.modifyShape shape (·.setIsClosed true)) d.toCanvasBase := still.base
    rw [CanvasBase.allWellClosed_modify closed changed, Shape.WellClosed]
    simp only [Shape.setIsClosed_isClosed, Shape.setIsClosed_type, Shape.setIsClosed_pointCount, forall_const]
    by_cases corner : (c.heap shape).type.twoPoint = true
    · rw [DrawMode.closedBy_corner corner]
      constructor
      · intro two
        omega
      · intro fits
        rw [fits entered shape found many] at corner
        cases corner
    · rw [DrawMode.closedBy_path corner]
      refine iff_of_true many ?_
      intro _ other same _
      rw [found] at same
      cases same
      exact Bool.eq_false_iff.mpr corner
  · refine iff_of_true (still.allWellClosed.mpr closed) ?_
    intro entered shape found many
    have := few entered shape found
    omega

theorem thinned_allWellClosed {c d : CanvasBase} (closed : c.AllWellClosed) (thinned : Command.Thinned c d) :
    d.AllWellClosed := by
  intro shape
  rw [thinned.heap]
  exact closed shape

theorem appended_allWellClosed {c : CanvasBase} (closed : c.AllWellClosed) (shape : ShapeId) :
    (c.appended shape).AllWellClosed :=
  (CanvasBase.allWellClosed_of_outline (Command.appended_outline c shape)).mpr closed

theorem deletePoint_wellClosed {s deleted : Shape} {index : ℤ} (closed : s.WellClosed)
    (erased : s.deletePoint index = .ok deleted) :
    deleted.WellClosed ↔ (s.isClosed = true → index < s.pointCount →
      s.type.twoPoint = false ∧ 4 ≤ s.pointCount) := by
  rcases Shape.deletePoint_completes erased with ⟨beyond, rfl⟩ | ⟨inside, points, taken, rfl⟩
  · refine iff_of_true closed ?_
    intro _ inside
    unfold Shape.pointCount at inside
    omega
  · have size : ({ s with points } : Shape).pointCount = s.pointCount - 1 := YPolygonPoints.erase_size taken
    unfold Shape.WellClosed at closed ⊢
    rw [size]
    by_cases corner : s.type.twoPoint = true
    · rw [DrawMode.closedBy_corner corner] at closed ⊢
      constructor
      · intro after isClosed
        have two := closed isClosed
        have one := after isClosed
        omega
      · intro fits isClosed
        have path := (fits isClosed inside).1
        rw [corner] at path
        cases path
    · rw [DrawMode.closedBy_path corner] at closed ⊢
      constructor
      · intro after isClosed _
        have three := after isClosed
        exact ⟨Bool.eq_false_iff.mpr corner, by omega⟩
      · intro fits isClosed
        have four := (fits isClosed inside).2
        omega

theorem undo_allWellClosed (closed : c.AllWellClosed) (undone : c.undo = .ok d) :
    d.AllWellClosed ↔ CanvasEvent.ClosesWell c .undo := by
  rcases undo_completes undone with ⟨empty, rfl⟩ | ⟨command, done, recorded, list, called, _⟩
  · refine iff_of_true closed ?_
    intro shape point pointName head
    rw [empty] at head
    cases head
  · unfold CanvasEvent.ClosesWell
    rw [list]
    rcases Command.undo_cases called with
      ⟨shape, _, rfl, base⟩ | ⟨shape, point, pointName, deleted, rfl, erased, base⟩ | ⟨⟨_, _, rfl⟩, thinned⟩
    · refine iff_of_true (base ▸ appended_allWellClosed closed shape) ?_
      intro _ _ _ head
      cases head
    · have changed : Untouched (c.toCanvasBase.modifyShape shape fun _ => deleted) d.toCanvasBase := by
        rw [base]
        exact Untouched.refl _
      rw [CanvasBase.allWellClosed_modify closed changed]
      have heads : ∀ P : ShapeId → String → Prop, (∀ other otherPoint otherName,
          (Command.addPoint (some shape) point pointName :: done).head? =
            some (.addPoint (some other) otherPoint otherName) → P other otherName) ↔ P shape pointName := by
        intro P
        simp
      rw [heads fun shape pointName => (c.heap shape).isClosed = true →
        QString.toInt pointName < (c.heap shape).pointCount →
        (c.heap shape).type.twoPoint = false ∧ 4 ≤ (c.heap shape).pointCount]
      exact deletePoint_wellClosed (closed shape) erased
    · refine iff_of_true (thinned_allWellClosed closed thinned) ?_
      intro _ _ _ head
      cases head

theorem appendPoint_wellClosed {s : Shape} (closed : s.WellClosed) (point : QPointF) :
    (s.appendPoint point).WellClosed ↔ (s.isClosed = true → s.type.twoPoint = false) := by
  unfold Shape.WellClosed at closed ⊢
  rw [Shape.appendPoint_type, Shape.appendPoint_pointCount]
  by_cases corner : s.type.twoPoint = true
  · rw [DrawMode.closedBy_corner corner] at closed ⊢
    constructor
    · intro after isClosed
      have two := closed isClosed
      have one := after isClosed
      omega
    · intro fits isClosed
      rw [fits isClosed] at corner
      cases corner
  · rw [DrawMode.closedBy_path corner] at closed ⊢
    refine iff_of_true ?_ fun _ => Bool.eq_false_iff.mpr corner
    intro isClosed
    have three := closed isClosed
    omega

theorem redo_allWellClosed (closed : c.AllWellClosed) (redone : c.redo = .ok d) :
    d.AllWellClosed ↔ CanvasEvent.ClosesWell c .redo := by
  rcases redo_completes redone with ⟨empty, rfl⟩ | ⟨command, undone, recorded, list, called, _⟩
  · refine iff_of_true closed ?_
    intro shape point pointName head
    rw [empty] at head
    cases head
  · unfold CanvasEvent.ClosesWell
    rw [list]
    rcases Command.redo_cases called with
      ⟨shape, _, rfl, base⟩ | ⟨shape, point, pointName, rfl, base⟩ | ⟨kind, thinned⟩
    · refine iff_of_true (base ▸ appended_allWellClosed closed shape) ?_
      intro _ _ _ head
      cases head
    · have changed : Untouched (c.toCanvasBase.modifyShape shape (·.appendPoint point)) d.toCanvasBase := by
        rw [base]
        exact Untouched.refl _
      rw [CanvasBase.allWellClosed_modify closed changed, appendPoint_wellClosed (closed shape)]
      simp
    · refine iff_of_true (thinned_allWellClosed closed thinned) ?_
      intro shape point pointName head
      rcases kind with ⟨_, _, rfl⟩ | ⟨_, _, rfl⟩ <;> cases head

theorem mouseMove_allWellClosed {pos : QPointF} (closed : c.AllWellClosed)
    (moved : c.mouseMoveEvent containsPoint pos = .ok d) : d.AllWellClosed := by
  rcases mouseMoveEvent_completes moved with ⟨still, _⟩ | ⟨img, _, _, _, shape, _, points, reshaped, changed⟩
  · exact still.allWellClosed.mpr closed
  · rw [CanvasBase.allWellClosed_modify closed changed]
    intro isClosed
    have before := closed shape isClosed
    obtain ⟨more, same⟩ := reshaped.size
    by_cases corner : (c.heap shape).type.twoPoint = true
    · rw [DrawMode.closedBy_corner corner] at before ⊢
      exact (same corner).trans before
    · rw [DrawMode.closedBy_path corner] at before ⊢
      exact Nat.le_trans before more

theorem handle_allWellClosed {event : CanvasEvent} (placed : c.Placed) (closed : c.AllWellClosed)
    (handled : c.handle containsPoint event = .ok d) : d.AllWellClosed ↔ event.ClosesWell c := by
  cases event with
  | mousePress pos leftButton reply => exact mousePress_allWellClosed closed handled
  | mouseRelease pos => exact iff_of_true ((mouseReleaseEvent_still handled).allWellClosed.mpr closed) trivial
  | mouseDoubleClick pos leftButton reply => exact mouseDoubleClick_allWellClosed placed closed handled
  | hoverMove pos => exact iff_of_true ((hoverMoveEvent_still handled).allWellClosed.mpr closed) trivial
  | mouseMove pos => exact iff_of_true (mouseMove_allWellClosed closed handled) trivial
  | keyPress enter reply => exact keyPress_allWellClosed closed handled
  | undo => exact undo_allWellClosed closed handled
  | redo => exact redo_allWellClosed closed handled
  | changeDrawMode mode =>
    cases handled
    exact iff_of_true closed trivial
  | changeOperatMode mode =>
    cases handled
    exact iff_of_true closed trivial
  | creatPolygon =>
    obtain ⟨img, _, _, base, _⟩ := addShape_completes handled
    refine iff_of_true ?_ trivial
    rw [base]
    exact started_allWellClosed closed img

/-- In every state of a run every closed shape has the points of its type exactly when every event
    of the run comes in a state that it closes well in. -/
theorem closed_shapes_iff (containsPoint : List QPointF → QPointF → Bool) (img : QImage)
    (events : List CanvasEvent) :
    (∀ reached ∈ visited (handle containsPoint) (loaded img) events,
        ∀ shape, (reached.heap shape).WellClosed) ↔
      Along (handle containsPoint) (fun state event => event.ClosesWell state) (loaded img) events := by
  have initial : (loaded img).AllWellClosed := by
    intro shape isClosed
    cases isClosed
  apply visited_invariant_iff Placed _ (loaded_placed img) initial
  intro state event next placed closed handled
  exact ⟨placed.handle handled, handle_allWellClosed placed closed handled⟩

/-- Two presses close a rectangle; undo leaves it closed with one point. -/
theorem rectangle_closed_with_one_point :
    ∃ reached ∈ visited (handle fun _ _ => false) (loaded blankImage)
        [.changeDrawMode .rectangle, .mousePress ⟨-10, -10⟩ true none, .mousePress ⟨10, 10⟩ true none, .undo],
      ∃ shape ∈ reached.shapeList, (reached.heap shape).type = .rectangle ∧
        (reached.heap shape).isClosed = true ∧ (reached.heap shape).pointCount = 1 := by
  have observed : (run (handle fun _ _ => false) (loaded blankImage)
      [.changeDrawMode .rectangle, .mousePress ⟨-10, -10⟩ true none, .mousePress ⟨10, 10⟩ true none, .undo]).map
        (fun c => (c.shapeList, (c.heap 0).type, (c.heap 0).isClosed, (c.heap 0).pointCount)) =
      .ok ([0], .rectangle, true, 1) := by
    decide +kernel
  obtain ⟨reached, done, seen⟩ := map_completes observed
  simp only [Prod.mk.injEq] at seen
  obtain ⟨list, type, isClosed, count⟩ := seen
  exact ⟨reached, run_mem_visited done, 0, by simp [list], type, isClosed, count⟩

end Canvas2D

end XYAnnotation

import XYAnnotation.Canvas.Clicks

namespace XYAnnotation

open Library

namespace CanvasEvent

def clicks : CanvasEvent → Bool
  | .mousePress _ leftButton _ => leftButton
  | .mouseRelease _ => true
  | .hoverMove _ => true
  | _ => false

def pressedAt : CanvasEvent → Option QPointF
  | .mousePress pos _ _ => some pos
  | _ => none

end CanvasEvent

def corners (presses : List QPointF) (j : ℕ) : List QPointF := (presses.drop (2 * j)).take 2

def shapesFor (presses : List QPointF) : ℕ := (presses.length + 1) / 2

section Corners

variable {presses : List QPointF} {j : ℕ} (pos : QPointF)

theorem corners_before (full : 2 * j + 2 ≤ presses.length) : corners (presses ++ [pos]) j = corners presses j := by
  unfold corners
  rw [List.drop_append_of_le_length (by omega), List.take_append_of_le_length]
  rw [List.length_drop]
  omega

theorem corners_second (half : presses.length = 2 * j + 1) :
    corners (presses ++ [pos]) j = corners presses j ++ [pos] := by
  have one : (presses.drop (2 * j)).length = 1 := by
    rw [List.length_drop]
    omega
  unfold corners
  rw [List.drop_append_of_le_length (by omega), List.take_of_length_le, List.take_of_length_le]
  · omega
  · rw [List.length_append, one]
    rfl

theorem corners_first (even : presses.length = 2 * j) : corners (presses ++ [pos]) j = [pos] := by
  unfold corners
  rw [← even, List.drop_left]
  rfl

theorem shapesFor_even (even : presses.length % 2 = 0) :
    presses.length = 2 * shapesFor presses ∧ shapesFor (presses ++ [pos]) = shapesFor presses + 1 := by
  simp only [shapesFor, List.length_append, List.length_singleton]
  omega

theorem shapesFor_odd (odd : presses.length % 2 ≠ 0) :
    presses.length + 1 = 2 * shapesFor presses ∧ shapesFor (presses ++ [pos]) = shapesFor presses := by
  simp only [shapesFor, List.length_append, List.length_singleton]
  omega

end Corners

namespace Canvas2D

/-- The shapes that two-click drawing should leave. -/
structure DrawnByTwo (img : QImage) (mode : DrawMode) (presses : List QPointF) (d : Canvas2D) : Prop where
  count : d.shapeList.length = shapesFor presses
  shapes : ∀ j < shapesFor presses, ∃ shape, d.shapeList[j]? = some shape ∧ (d.heap shape).type = mode ∧
    (d.heap shape).points.oriPoints = (corners presses j).map (bindImgEdge img) ∧
    (d.heap shape).isClosed = decide (2 * j + 1 < presses.length)
  currentIndex : d.currentIndex = d.shapeList.length - 1
  done : d.undoStack.done.length = presses.length + shapesFor presses
  undone : d.undoStack.undone = []

/-- The whole canvas after some presses. The shapes lie one after the other in the heap, from `first` on. -/
structure Drawing (img : QImage) (mode : DrawMode) (first : ShapeId) (presses : List QPointF) (d : Canvas2D) : Prop where
  image : d.image = some img
  task : d.task = .segmentation
  operat : d.operat = .draw
  draw : d.draw = mode
  next : d.next = first + shapesFor presses
  shapeList : d.shapeList = List.range' first (shapesFor presses)
  currentIndex : d.currentIndex = shapesFor presses - 1
  shapes : ∀ j < shapesFor presses, (d.heap (first + j)).type = mode ∧
    (d.heap (first + j)).points.oriPoints = (corners presses j).map (bindImgEdge img) ∧
    (d.heap (first + j)).isClosed = decide (2 * j + 1 < presses.length)
  done : d.undoStack.done.length = presses.length + shapesFor presses
  undone : d.undoStack.undone = []

variable (containsPoint : List QPointF → QPointF → Bool) {c d : Canvas2D} {img : QImage} {mode : DrawMode}
  {first : ShapeId} {presses : List QPointF}

theorem Drawing.drawnByTwo (drawing : Drawing img mode first presses d) : DrawnByTwo img mode presses d where
  count := by rw [drawing.shapeList, List.length_range']
  shapes j bound := by
    refine ⟨first + j, ?_, drawing.shapes j bound⟩
    rw [drawing.shapeList, List.getElem?_range' bound, Nat.one_mul]
  currentIndex := by rw [drawing.shapeList, List.length_range', drawing.currentIndex]
  done := drawing.done
  undone := drawing.undone

theorem Drawing.still (drawing : Drawing img mode first presses c) (still : Still c d) :
    Drawing img mode first presses d where
  image := still.base.image.trans drawing.image
  task := still.base.task.trans drawing.task
  operat := still.base.operat.trans drawing.operat
  draw := still.base.draw.trans drawing.draw
  next := still.base.next.trans drawing.next
  shapeList := still.base.shapeList.trans drawing.shapeList
  currentIndex := still.base.currentIndex.trans drawing.currentIndex
  shapes j bound := by
    have same := still.base.outline (first + j)
    rw [same.type, same.points, same.isClosed]
    exact drawing.shapes j bound
  done := by
    rw [still.undoStack]
    exact drawing.done
  undone := by
    rw [still.undoStack]
    exact drawing.undone

theorem Drawing.currentShape (drawing : Drawing img mode first presses c) {j : ℕ} (last : shapesFor presses = j + 1) :
    c.currentShape = .ok (some (first + j)) := by
  have index : c.currentIndex = j := by
    rw [drawing.currentIndex, last]
    omega
  have read : QVector.at c.shapeList j = .ok (first + j) := by
    simp [QVector.at, drawing.shapeList, last]
  rw [CanvasBase.currentShape, index, if_neg (by omega), read]
  rfl

theorem closesAt_corner {mode : DrawMode} (corner : mode = .rectangle ∨ mode = .line) :
    mode ≠ .none ∧ closesAt mode 1 = true := by
  rcases corner with rfl | rfl <;> exact ⟨by decide, rfl⟩

theorem Drawing.known (drawing : Drawing img mode first presses c) (corner : mode = .rectangle ∨ mode = .line) :
    c.draw ≠ .none := by
  rw [drawing.draw]
  exact (closesAt_corner corner).1

theorem Drawing.older (drawing : Drawing img mode first presses c) {j : ℕ} (full : 2 * j + 2 ≤ presses.length)
    (same : SameOutline (c.heap (first + j)) (d.heap (first + j))) (pos : QPointF) :
    (d.heap (first + j)).type = mode ∧
      (d.heap (first + j)).points.oriPoints = (corners (presses ++ [pos]) j).map (bindImgEdge img) ∧
      (d.heap (first + j)).isClosed = decide (2 * j + 1 < presses.length + 1) := by
  obtain ⟨type, points, isClosed⟩ := drawing.shapes j (by rw [shapesFor]; omega)
  refine ⟨same.type.trans type, ?_, ?_⟩
  · rw [same.points, points, corners_before pos full]
  · rw [same.isClosed, isClosed, decide_eq_true (by omega), decide_eq_true (by omega)]

/-- After an even number of presses there is no shape, or the last one is closed: the press starts a shape. -/
theorem Drawing.press_even (drawing : Drawing img mode first presses c) (corner : mode = .rectangle ∨ mode = .line)
    (even : presses.length % 2 = 0) (pos : QPointF) (reply : DialogReply) :
    ∃ d, c.mousePressEvent containsPoint pos true reply = .ok d ∧ Drawing img mode first (presses ++ [pos]) d := by
  obtain ⟨length, grown⟩ := shapesFor_even pos even
  have starts : c.currentIndex = -1 ∨
      ∃ shape, c.currentShape = .ok (some shape) ∧ (c.heap shape).isClosed = true := by
    cases count : shapesFor presses with
    | zero => exact .inl (by rw [drawing.currentIndex, count]; rfl)
    | succ j =>
      refine .inr ⟨first + j, drawing.currentShape count, ?_⟩
      rw [(drawing.shapes j (by omega)).2.2]
      exact decide_eq_true (by omega)
  obtain ⟨d, pressed, begins⟩ := mousePress_starts containsPoint drawing.image drawing.task drawing.operat
    (drawing.known corner) starts pos reply
  have here := drawing.next
  refine ⟨d, pressed, begins.image.trans drawing.image, begins.task.trans drawing.task,
    begins.operat.trans drawing.operat, begins.draw.trans drawing.draw, ?_, ?_, ?_, ?_, ?_, begins.undone⟩
  · rw [begins.next, here, grown]
    exact Nat.add_assoc _ _ _
  · rw [begins.shapeList, here, drawing.shapeList, grown, List.range'_concat, Nat.one_mul]
  · rw [begins.currentIndex, drawing.shapeList, List.length_range', grown]
    omega
  · intro j bound
    rw [List.length_append, List.length_singleton]
    by_cases old : j < shapesFor presses
    · have older : first + j ≠ c.next := by
        rw [here]
        exact Nat.ne_of_lt (Nat.add_lt_add_left old first)
      exact drawing.older (by omega) (begins.others (first + j) older) pos
    · have new : j = shapesFor presses := by omega
      subst new
      rw [← here]
      refine ⟨begins.type.trans drawing.draw, ?_, ?_⟩
      · rw [begins.points, corners_first pos length]
        rfl
      · rw [begins.isClosed]
        exact (decide_eq_false (by omega)).symm
  · rw [begins.done, drawing.done, List.length_append, List.length_singleton, grown]
    omega

/-- After an odd number of presses the last shape is open with one point: the press is its second and closes it. -/
theorem Drawing.press_odd (drawing : Drawing img mode first presses c) (corner : mode = .rectangle ∨ mode = .line)
    (odd : presses.length % 2 ≠ 0) (pos : QPointF) (reply : DialogReply) :
    ∃ d, c.mousePressEvent containsPoint pos true reply = .ok d ∧ Drawing img mode first (presses ++ [pos]) d := by
  obtain ⟨length, same⟩ := shapesFor_odd pos odd
  obtain ⟨last, count⟩ : ∃ last, shapesFor presses = last + 1 := Nat.exists_eq_add_one.mpr (by omega)
  have half : presses.length = 2 * last + 1 := by omega
  obtain ⟨type, points, isClosed⟩ := drawing.shapes last (by omega)
  have opened : (c.heap (first + last)).isClosed = false := by
    rw [isClosed]
    exact decide_eq_false (by omega)
  have size : (c.heap (first + last)).pointCount = 1 := by
    rw [Shape.pointCount, YPolygonPoints.size, points, List.length_map, corners, List.length_take, List.length_drop]
    omega
  obtain ⟨d, pressed, takes⟩ := mousePress_takes containsPoint drawing.image drawing.task drawing.operat
    (drawing.known corner) (drawing.currentShape count) opened pos reply
  rw [size, drawing.draw, (closesAt_corner corner).2] at takes
  obtain ⟨newPoints, newType, newClosed⟩ := takes.outline
  refine ⟨d, pressed, takes.base.image.trans drawing.image, takes.base.task.trans drawing.task,
    takes.base.operat.trans drawing.operat, takes.base.draw.trans drawing.draw, ?_, ?_, ?_, ?_, ?_, ?_⟩
  · rw [takes.base.next, same]
    exact drawing.next
  · rw [takes.base.shapeList, same]
    exact drawing.shapeList
  · rw [takes.base.currentIndex, same]
    exact drawing.currentIndex
  · intro j bound
    rw [List.length_append, List.length_singleton]
    by_cases old : j = last
    · subst old
      refine ⟨newType.trans type, ?_, ?_⟩
      · rw [newPoints, corners_second pos half, List.map_append, ← points]
        rfl
      · rw [newClosed]
        exact (decide_eq_true (by omega)).symm
    · have same := takes.other fun same => old (Nat.add_left_cancel same)
      exact drawing.older (by omega) same pos
  · rw [takes.undoStack, List.length_cons, drawing.done, List.length_append, List.length_singleton, same]
    omega
  · rw [takes.undoStack]

theorem Drawing.hover (drawing : Drawing img mode first presses c) (pos : QPointF) :
    ∃ d, c.hoverMoveEvent containsPoint pos = .ok d ∧ Drawing img mode first presses d := by
  have completes : ∃ d, c.hoverMoveEvent containsPoint pos = .ok d := by
    simp only [hoverMoveEvent, drawing.image, drawing.task, drawing.operat]
    cases count : shapesFor presses with
    | zero =>
      have absent : c.currentShape = .ok none := by
        rw [CanvasBase.currentShape, if_pos]
        rw [drawing.currentIndex, count]
        rfl
      exact ⟨c, by rw [absent]; rfl⟩
    | succ j =>
      rw [drawing.currentShape count]
      simp only [Bind.bind, Except.bind]
      split
      · exact ⟨_, rfl⟩
      · exact ⟨_, rfl⟩
  obtain ⟨d, hovered⟩ := completes
  exact ⟨d, hovered, drawing.still (hoverMoveEvent_still hovered)⟩

theorem Drawing.handle (drawing : Drawing img mode first presses c) (corner : mode = .rectangle ∨ mode = .line)
    {event : CanvasEvent} (clicks : event.clicks = true) :
    ∃ d, c.handle containsPoint event = .ok d ∧
      Drawing img mode first (presses ++ event.pressedAt.toList) d := by
  cases event with
  | mousePress pos leftButton reply =>
    cases leftButton with
    | false => cases clicks
    | true =>
      by_cases even : presses.length % 2 = 0
      · exact drawing.press_even containsPoint corner even pos reply
      · exact drawing.press_odd containsPoint corner even pos reply
  | mouseRelease pos =>
    refine ⟨c, mouseRelease_draw drawing.operat, ?_⟩
    simpa only [CanvasEvent.pressedAt, Option.toList_none, List.append_nil] using drawing
  | hoverMove pos =>
    obtain ⟨d, hovered, kept⟩ := drawing.hover containsPoint pos
    refine ⟨d, hovered, ?_⟩
    simpa only [CanvasEvent.pressedAt, Option.toList_none, List.append_nil] using kept
  | mouseDoubleClick | mouseMove | keyPress | undo | redo | changeDrawMode | changeOperatMode | creatPolygon =>
    cases clicks

theorem Drawing.run (drawing : Drawing img mode first presses c) (corner : mode = .rectangle ∨ mode = .line)
    {events : List CanvasEvent} (clicks : ∀ event ∈ events, event.clicks = true) :
    ∃ d, Library.run (Canvas2D.handle containsPoint) c events = .ok d ∧
      Drawing img mode first (presses ++ events.filterMap CanvasEvent.pressedAt) d := by
  -- The presses so far are a parameter of the invariant; the induction is over the events that are left.
  induction events generalizing c presses with
  | nil => exact ⟨c, rfl, by rwa [List.filterMap_nil, List.append_nil]⟩
  | cons event events ih =>
    rw [List.forall_mem_cons] at clicks
    obtain ⟨next, handled, drawing'⟩ := drawing.handle containsPoint corner clicks.1
    obtain ⟨d, ran, final⟩ := ih drawing' clicks.2
    refine ⟨d, ?_, ?_⟩
    · rw [Library.run, handled]
      exact ran
    · have split : (event :: events).filterMap CanvasEvent.pressedAt =
          event.pressedAt.toList ++ events.filterMap CanvasEvent.pressedAt := by
        rw [List.filterMap_cons]
        cases event.pressedAt <;> rfl
      rw [split, ← List.append_assoc]
      exact final

section Stale

variable (loaded : c.image = some img) (empty : c.shapeList = []) (task : c.task = .segmentation)
  (operat : c.operat = .draw) (stale : c.currentIndex ≠ -1)
include loaded empty task operat stale

theorem stale_handle {event : CanvasEvent} (clicks : event.clicks = true)
    (handled : c.handle containsPoint event = .ok d) : d = c := by
  have beyond : ∃ fault, c.currentShape = .error fault := by
    rw [CanvasBase.currentShape, if_neg stale, empty, QVector.at]
    split
    · exact ⟨_, rfl⟩
    · exact ⟨_, rfl⟩
  obtain ⟨fault, beyond⟩ := beyond
  cases event with
  | mousePress pos leftButton reply =>
    cases leftButton with
    | false => cases clicks
    | true =>
      rw [handle, mousePress_draw containsPoint loaded task operat, drawPress, beyond] at handled
      cases handled
  | mouseRelease pos =>
    rw [handle, mouseRelease_draw operat] at handled
    cases handled
    rfl
  | hoverMove pos =>
    simp only [handle, hoverMoveEvent, loaded, task, operat, beyond] at handled
    cases handled
  | mouseDoubleClick | mouseMove | keyPress | undo | redo | changeDrawMode | changeOperatMode | creatPolygon =>
    cases clicks

theorem stale_run {events : List CanvasEvent} (clicks : ∀ event ∈ events, event.clicks = true)
    (ran : Library.run (handle containsPoint) c events = .ok d) : d = c := by
  induction events with
  | nil =>
    cases ran
    rfl
  | cons event events ih =>
    rw [List.forall_mem_cons] at clicks
    obtain ⟨next, handled, rest⟩ := run_cons_ok ran
    have same := stale_handle containsPoint loaded empty task operat stale clicks.1 handled
    subst same
    exact ih clicks.2 rest

end Stale

/-- Any presses, hovers and releases on an empty canvas in rectangle or line mode draw one shape for every two
    presses, unless the current index is left over from shapes that are gone. -/
theorem two_click_drawing_iff (containsPoint : List QPointF → QPointF → Bool) (c : Canvas2D) (img : QImage)
    (loaded : c.image = some img) (empty : c.shapeList = []) (noHistory : c.undoStack = .empty)
    (task : c.task = .segmentation) (operat : c.operat = .draw) (corner : c.draw = .rectangle ∨ c.draw = .line)
    (events : List CanvasEvent) (clicks : ∀ event ∈ events, event.clicks = true) :
    (∃ d, run (handle containsPoint) c events = .ok d ∧
      DrawnByTwo img c.draw (events.filterMap CanvasEvent.pressedAt) d) ↔ c.currentIndex = -1 := by
  constructor
  · rintro ⟨d, ran, drawn⟩
    by_contra stale
    have same := stale_run containsPoint loaded empty task operat stale clicks ran
    subst same
    apply stale
    rw [drawn.currentIndex, empty]
    rfl
  · intro index
    have start : Drawing img c.draw c.next [] c := by
      refine ⟨loaded, task, operat, rfl, rfl, empty, index, ?_, ?_, ?_⟩
      · intro j bound
        cases bound
      · rw [noHistory]
        rfl
      · rw [noHistory]
        rfl
    obtain ⟨d, ran, drawing⟩ := start.run containsPoint corner clicks
    exact ⟨d, ran, drawing.drawnByTwo⟩

theorem three_clicks :
    ∃ d, run (handle fun _ _ => false) { loaded blankImage with draw := .rectangle }
        [.mousePress ⟨-10, -10⟩ true none, .hoverMove ⟨0, 0⟩, .mouseRelease ⟨0, 0⟩, .mousePress ⟨10, 10⟩ true none,
          .mousePress ⟨90, 20⟩ true none] = .ok d ∧
      DrawnByTwo blankImage .rectangle [⟨-10, -10⟩, ⟨10, 10⟩, ⟨90, 20⟩] d :=
  (two_click_drawing_iff (fun _ _ => false) { loaded blankImage with draw := .rectangle } blankImage rfl rfl rfl rfl rfl
    (.inl rfl) _ (by decide)).mpr rfl

/-- A rectangle is drawn, the canvas is cleaned for the next image and that is loaded: the first press reads the shape
    at index 0 of the empty list. -/
theorem press_after_clean :
    ∃ drawn base, run (handle fun _ _ => false) (loaded blankImage) [.changeDrawMode .rectangle,
        .mousePress ⟨-10, -10⟩ true none, .mousePress ⟨10, 10⟩ true none] = .ok drawn ∧
      drawn.clean.toCanvasBase.setImage (some blankImage) = .ok base ∧
      base.image = some blankImage ∧ base.shapeList = [] ∧ drawn.clean.undoStack = .empty ∧
      base.task = .segmentation ∧ base.operat = .draw ∧ base.draw = .rectangle ∧
      ¬ ∃ d, run (handle fun _ _ => false) ⟨base, drawn.clean.undoStack⟩ [.mousePress ⟨0, 0⟩ true none] = .ok d ∧
        DrawnByTwo blankImage .rectangle [⟨0, 0⟩] d := by
  have observed : (do
      let drawn ← run (handle fun _ _ => false) (loaded blankImage) [.changeDrawMode .rectangle,
        .mousePress ⟨-10, -10⟩ true none, .mousePress ⟨10, 10⟩ true none]
      .ok (drawn.task, drawn.operat, drawn.draw, drawn.currentIndex) : Except Fault _) =
      .ok (.segmentation, .draw, .rectangle, 0) := by decide +kernel
  obtain ⟨drawn, ran, values⟩ := bind_completes observed
  simp only [Except.ok.injEq, Prod.mk.injEq] at values
  obtain ⟨task, operat, draw, index⟩ := values
  refine ⟨drawn, { drawn.clean.toCanvasBase with image := some blankImage }, ran, rfl, rfl, rfl, rfl, task, operat,
    draw, ?_⟩
  rintro ⟨d, pressed, drawnByTwo⟩
  have stale : ({ drawn.clean.toCanvasBase with image := some blankImage } : CanvasBase).currentIndex ≠ -1 := by
    change drawn.currentIndex ≠ -1
    rw [index]
    decide
  have same := stale_run (c := ⟨{ drawn.clean.toCanvasBase with image := some blankImage }, .empty⟩) (fun _ _ => false)
    rfl rfl task operat stale (by decide) pressed
  have count := drawnByTwo.count
  rw [same] at count
  cases count

end Canvas2D

end XYAnnotation

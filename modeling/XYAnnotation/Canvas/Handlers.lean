import XYAnnotation.Canvas.Effects
import XYAnnotation.Canvas.Prepared

namespace XYAnnotation

open Library

namespace Canvas2D

structure Still (c d : Canvas2D) : Prop where
  base : Untouched c.toCanvasBase d.toCanvasBase
  undoStack : d.undoStack = c.undoStack

theorem Still.refl (c : Canvas2D) : Still c c := ⟨Untouched.refl _, rfl⟩

theorem modifyShape_still (c : Canvas2D) (shape : ShapeId) {f : Shape → Shape}
    (keeps : ∀ s, (f s).name = s.name ∧ SameOutline s (f s)) : Still c (c.modifyShape shape f) :=
  ⟨Untouched.modifyShape c.toCanvasBase shape keeps, rfl⟩

theorem updateEndPt_still (c : Canvas2D) (shape : ShapeId) (point : QPointF) :
    Still c (c.modifyShape shape (·.updateEndPt point)) :=
  modifyShape_still c shape fun _ => ⟨rfl, rfl, rfl, rfl⟩

theorem slotSetProperty_still (c : Canvas2D) (reply : DialogReply) (shape : ShapeId) :
    Still c (c.slotSetProperty reply shape) := by
  unfold slotSetProperty
  split
  · exact Still.refl c
  · split
    · exact Still.refl c
    · exact modifyShape_still c shape fun _ => ⟨rfl, rfl, rfl, rfl⟩

theorem mouseReleaseEvent_still {c d : Canvas2D} (released : c.mouseReleaseEvent = .ok d) : Still c d := by
  unfold mouseReleaseEvent at released
  split at released
  · obtain ⟨base, done, rest⟩ := bind_completes released
    cases rest
    refine ⟨?_, rfl⟩
    have kept : ∀ items : List ShapeId, ∀ state next leaves, ∀ item ∈ items,
        Untouched c.toCanvasBase state → state.releaseShape item = .ok (next, leaves) →
        Untouched c.toCanvasBase next := by
      intro _ state next leaves item _ before done
      exact before.trans (CanvasBase.releaseShape_untouched done)
    apply loop_invariant (kept _) _ done
    split
    · exact Untouched.mouse _ _ _ _ _
    · exact Untouched.refl _
  · cases released
    exact Still.refl c

section Hover

variable {containsPoint : List QPointF → QPointF → Bool}

theorem hoverMoveEvent_still {c d : Canvas2D} {pos : QPointF}
    (hovered : c.hoverMoveEvent containsPoint pos = .ok d) : Still c d := by
  unfold hoverMoveEvent at hovered
  split at hovered
  · obtain ⟨shape, _, rest⟩ := bind_completes hovered
    cases shape with
    | none =>
      cases rest
      exact Still.refl c
    | some shape =>
      simp only at rest
      split at rest
      · cases rest
        exact Still.refl c
      · cases rest
        exact modifyShape_still c shape fun _ => ⟨rfl, rfl, rfl, rfl⟩
  · rename_i img _ _ _
    obtain ⟨base, done, rest⟩ := bind_completes hovered
    cases rest
    refine ⟨?_, rfl⟩
    have kept : ∀ state next leaves, ∀ item ∈ c.shapeList, Untouched c.toCanvasBase state →
        state.hoverShape containsPoint (bindImgEdge img pos) item = .ok (next, leaves) →
        Untouched c.toCanvasBase next := by
      intro state next leaves item _ before done
      exact before.trans (CanvasBase.hoverShape_untouched done)
    exact loop_invariant kept (Untouched.refl _) done
  · cases hovered
    exact Still.refl c

theorem mouseMoveEvent_completes {c d : Canvas2D} {pos : QPointF}
    (moved : c.mouseMoveEvent containsPoint pos = .ok d) :
    (Still c d ∧ (c.task = .segmentation → c.operat = .edit → c.image ≠ none → c.dragTarget = none)) ∨
      ∃ img, c.image = some img ∧ c.operat = .edit ∧ d.undoStack = c.undoStack ∧
        ∃ shape, c.shapeList.find? c.reacts = some shape ∧ ∃ points,
          CanvasBase.Reshaped img (bindImgEdge img pos) c.toCanvasBase (c.heap shape) points ∧
          Untouched (c.toCanvasBase.modifyShape shape fun s => { s with points }) d.toCanvasBase := by
  unfold mouseMoveEvent at moved
  split at moved
  · rename_i img image _ operat
    obtain ⟨base, done, rest⟩ := bind_completes moved
    cases rest
    rw [CanvasBase.withActive_same c.toCanvasBase] at done
    rcases CanvasBase.moveLoop_completes done with ⟨same, still⟩ | changed
    · refine .inl ⟨⟨same, rfl⟩, ?_⟩
      intro _ _ _
      rw [CanvasBase.dragTarget, Option.filter_eq_none_iff]
      intro shape found
      rw [still shape found]
      exact Bool.false_ne_true
    · exact .inr ⟨img, image, operat, rfl, changed⟩
  · rename_i excluded
    cases moved
    refine .inl ⟨Still.refl c, ?_⟩
    intro task operat image
    obtain ⟨img, found⟩ := Option.ne_none_iff_exists'.mp image
    exact absurd operat (excluded img found task)

end Hover

def drawn (c : Canvas2D) : Option ShapeId :=
  match c.task, c.operat, c.currentShape with
  | .segmentation, .draw, .ok (some shape) => some shape
  | _, _, _ => none

theorem drawn_eq {c : Canvas2D} {shape : ShapeId} (task : c.task = .segmentation) (operat : c.operat = .draw)
    (current : c.currentShape = .ok (some shape)) : c.drawn = some shape := by
  simp only [drawn, task, operat, current]

theorem keyPressEvent_completes {c d : Canvas2D} {enter : Bool} {reply : DialogReply}
    (pressed : c.keyPressEvent enter reply = .ok d) :
    (∃ shape, enter = true ∧ c.drawn = some shape ∧ 2 < (c.heap shape).pointCount ∧
      Still (c.modifyShape shape (·.setIsClosed true)) d) ∨
    (Still c d ∧ (enter = true → ∀ shape, c.drawn = some shape → (c.heap shape).pointCount ≤ 2)) := by
  unfold keyPressEvent at pressed
  split at pressed
  · rename_i task operat
    obtain ⟨shape, current, rest⟩ := bind_completes pressed
    cases shape with
    | none =>
      cases rest
      exact .inr ⟨Still.refl c, by simp [drawn, current]⟩
    | some shape =>
      have found := drawn_eq task operat current
      simp only at rest
      split at rest
      · rename_i many
        cases rest
        exact .inl ⟨shape, rfl, found, many, slotSetProperty_still _ _ _⟩
      · rename_i few
        cases rest
        refine .inr ⟨Still.refl c, ?_⟩
        intro _ other same
        rw [found] at same
        cases same
        omega
  · rename_i excluded
    cases pressed
    refine .inr ⟨Still.refl c, ?_⟩
    intro entered shape found
    unfold drawn at found
    split at found
    · rename_i task operat _
      exact absurd entered (excluded task operat)
    · cases found

def started (c : CanvasBase) (img : QImage) : CanvasBase :=
  (c.allocate ((Shape.new c.draw).setimgWH img)).appended c.next

theorem getImage_completes {c : CanvasBase} {img : QImage} (read : c.getImage = .ok img) : c.image = some img := by
  unfold CanvasBase.getImage at read
  split at read
  · cases read
  · rename_i found
    cases read
    exact found

theorem addShape_completes {c d : Canvas2D} (added : CanvasView.addShape c = .ok d) :
    ∃ img, c.image = some img ∧ c.draw ≠ .none ∧ d.toCanvasBase = started c.toCanvasBase img ∧
      d.undoStack = ⟨.addShape (some c.next) (d.heap c.next).name :: c.undoStack.done, []⟩ := by
  unfold CanvasView.addShape at added
  split at added
  · cases added
  · rename_i newShape create
    have known : c.draw ≠ .none ∧ newShape = Shape.new c.draw := by
      cases mode : c.draw <;> rw [mode] at create <;> cases create <;> simp
    obtain ⟨img, image, pushed⟩ := bind_completes added
    have loaded := getImage_completes image
    obtain ⟨recorded, redone, stack⟩ := push_completes pushed
    rw [known.2] at redone
    simp only [Command.redo, CanvasBase.addShape_eq] at redone
    obtain ⟨rfl, base⟩ := Prod.mk.inj (Except.ok.inj redone)
    refine ⟨img, loaded, known.1, base.symm, ?_⟩
    rw [stack, ← base]
    simp [CanvasBase.appended, Shape.setName]

theorem addPoint_completes {c d : Canvas2D} {point : QPointF} (added : CanvasView.addPoint c point = .ok d) :
    (c.currentShape = .ok none ∧ d = c) ∨ ∃ shape, c.currentShape = .ok (some shape) ∧
      d.toCanvasBase = c.toCanvasBase.modifyShape shape (·.appendPoint point) ∧
      d.undoStack = ⟨.addPoint (some shape) point (QString.number (c.heap shape).points.size) ::
        c.undoStack.done, []⟩ := by
  obtain ⟨shape, current, rest⟩ := bind_completes added
  cases shape with
  | none =>
    cases rest
    exact .inl ⟨current, rfl⟩
  | some shape =>
    obtain ⟨recorded, redone, stack⟩ := push_completes rest
    obtain ⟨rfl, base⟩ := Prod.mk.inj (Except.ok.inj redone)
    refine .inr ⟨shape, current, base.symm, ?_⟩
    rw [stack]
    simp [Shape.appendPoint]

def closesAt (mode : DrawMode) (count : ℕ) : Bool := mode.twoPoint && decide (0 < count)

section Point

variable {c d : Canvas2D} {pixPos : QPointF} {reply : DialogReply} {shape : ShapeId}

structure TakesPoint (shape : ShapeId) (pixPos : QPointF) (closes : Bool) (c d : Canvas2D) : Prop where
  base : Untouched (c.toCanvasBase.modifyShape shape fun s =>
    (s.appendPoint pixPos).setIsClosed (closes || s.isClosed)) d.toCanvasBase
  undoStack : d.undoStack = ⟨.addPoint (some shape) pixPos (QString.number (c.heap shape).points.size) ::
    c.undoStack.done, []⟩

theorem TakesPoint.outline {closes : Bool} (takes : TakesPoint shape pixPos closes c d) :
    (d.heap shape).points = (c.heap shape).points.append pixPos ∧ (d.heap shape).type = (c.heap shape).type ∧
      (d.heap shape).isClosed = (closes || (c.heap shape).isClosed) := by
  have outline := takes.base.outline shape
  rw [CanvasBase.modifyShape_heap_same] at outline
  exact ⟨outline.points, outline.type, outline.isClosed⟩

theorem TakesPoint.other {closes : Bool} (takes : TakesPoint shape pixPos closes c d) {other : ShapeId}
    (different : other ≠ shape) : SameOutline (c.heap other) (d.heap other) := by
  have outline := takes.base.outline other
  rwa [CanvasBase.modifyShape_heap_other _ _ _ different] at outline

theorem addPoint_takes (current : c.currentShape = .ok (some shape))
    (added : CanvasView.addPoint c pixPos = .ok d) :
    TakesPoint shape pixPos false c d ∧ d.currentShape = .ok (some shape) ∧
      d.toCanvasBase = c.toCanvasBase.modifyShape shape (·.appendPoint pixPos) := by
  rcases addPoint_completes added with ⟨absent, _⟩ | ⟨other, found, base, stack⟩
  · rw [current] at absent
    cases absent
  · rw [current] at found
    cases found
    refine ⟨⟨?_, stack⟩, ?_, base⟩
    · rw [base]
      exact Untouched.modify_congr _ _ ⟨rfl, rfl, rfl, rfl⟩
    · rw [CanvasBase.currentShape, base]
      exact current

theorem pathPoint_takes (current : c.currentShape = .ok (some shape))
    (done : c.pathPoint pixPos = .ok d) : TakesPoint shape pixPos false c d := by
  obtain ⟨next, added, rest⟩ := bind_completes done
  obtain ⟨takes, still, _⟩ := addPoint_takes current added
  rw [still] at rest
  cases rest
  exact ⟨takes.base.trans (updateEndPt_still next shape pixPos).base, takes.undoStack⟩

theorem cornerPoint_takes (current : c.currentShape = .ok (some shape))
    (done : c.cornerPoint pixPos reply = .ok d) :
    TakesPoint shape pixPos (decide (0 < (c.heap shape).pointCount)) c d := by
  obtain ⟨next, added, rest⟩ := bind_completes done
  obtain ⟨takes, still, base⟩ := addPoint_takes current added
  rw [still] at rest
  have count : ((next.modifyShape shape (·.updateEndPt pixPos)).heap shape).points.size =
      (c.heap shape).pointCount + 1 := by
    simp [modifyShape, base, Shape.updateEndPt, Shape.appendPoint, Shape.pointCount]
  simp only [Bind.bind, Except.bind, count] at rest
  split at rest
  · rename_i many
    cases rest
    have positive : 0 < (c.heap shape).pointCount := by omega
    refine ⟨?_, ?_⟩
    · refine Untouched.trans ?_ (slotSetProperty_still _ _ _).base
      simp only [modifyShape, base, CanvasBase.modifyShape_modifyShape]
      exact Untouched.modify_congr _ _ ⟨rfl, rfl, rfl, by simp [positive, Shape.setIsClosed]⟩
    · rw [(slotSetProperty_still _ _ _).undoStack]
      exact takes.undoStack
  · rename_i few
    cases rest
    have zero : ¬ 0 < (c.heap shape).pointCount := by omega
    refine ⟨?_, takes.undoStack⟩
    rw [decide_eq_false zero]
    exact takes.base.trans (updateEndPt_still next shape pixPos).base

theorem drawPoint_completes (current : c.currentShape = .ok (some shape))
    (drawn : c.drawPoint pixPos reply = .ok d) :
    c.draw = .none ∧ d = c ∨
      c.draw ≠ .none ∧ TakesPoint shape pixPos (closesAt c.draw (c.heap shape).pointCount) c d := by
  unfold drawPoint at drawn
  unfold closesAt
  cases mode : c.draw <;> simp only [mode] at drawn
  case none =>
    cases drawn
    exact .inl ⟨rfl, rfl⟩
  case polygon => exact .inr ⟨by decide, (addPoint_takes current drawn).1⟩
  case curve => exact .inr ⟨by decide, pathPoint_takes current drawn⟩
  case polyline => exact .inr ⟨by decide, pathPoint_takes current drawn⟩
  case rectangle => exact .inr ⟨by decide, cornerPoint_takes current drawn⟩
  case line => exact .inr ⟨by decide, cornerPoint_takes current drawn⟩

theorem started_currentShape (c : CanvasBase) (img : QImage) :
    (started c img).currentShape = .ok (some c.next) := by
  have present : (started c img).currentIndex ≠ -1 := by
    simp only [started, CanvasBase.appended]
    omega
  have read : QVector.at (started c img).shapeList (started c img).currentIndex = .ok c.next := by
    simp [started, CanvasBase.appended, CanvasBase.allocate, QVector.at]
  rw [CanvasBase.currentShape, if_neg present, read]
  rfl

theorem started_heap_next (c : CanvasBase) (img : QImage) :
    ((started c img).heap c.next).points = YPolygonPoints.empty.setImgWH img.width img.height ∧
      ((started c img).heap c.next).type = c.draw ∧ ((started c img).heap c.next).isClosed = false := by
  simp [started, CanvasBase.appended, CanvasBase.allocate, Shape.setName, Shape.setimgWH, Shape.new]

theorem started_heap_other (c : CanvasBase) (img : QImage) {other : ShapeId} (old : other ≠ c.next) :
    (started c img).heap other = c.heap other := by
  simp [started, CanvasBase.appended, CanvasBase.allocate, old]

theorem TakesPoint.started_other {begun : Canvas2D} {closes : Bool} (added : CanvasView.addShape c = .ok begun)
    (takes : TakesPoint c.next pixPos closes begun d) {other : ShapeId} (old : other ≠ c.next) :
    SameOutline (c.heap other) (d.heap other) := by
  obtain ⟨img, _, _, base, _⟩ := addShape_completes added
  have kept := takes.other old
  rwa [base, started_heap_other _ _ old] at kept

theorem closed_of_starts (current : c.currentShape = .ok (some shape))
    (starts : c.startsShape (some shape) = true) : (c.heap shape).isClosed = true := by
  unfold CanvasBase.currentShape at current
  split at current
  · cases current
  · rename_i present
    obtain ⟨read, found, _⟩ := bind_completes current
    have nonempty : c.shapeList ≠ [] := by
      intro empty
      rw [empty] at found
      obtain ⟨_, absent⟩ := QVector.at_completes found
      simp at absent
    simpa [startsShape, present, nonempty] using starts

theorem drawPress_completes (pressed : c.drawPress pixPos reply = .ok d) :
    (∃ shape, c.currentShape = .ok (some shape) ∧ (c.heap shape).isClosed = false ∧
      (c.draw = .none ∧ d = c ∨
        c.draw ≠ .none ∧ TakesPoint shape pixPos (closesAt c.draw (c.heap shape).pointCount) c d)) ∨
    ((∀ shape, c.currentShape = .ok (some shape) → (c.heap shape).isClosed = true) ∧
      ∃ begun, CanvasView.addShape c = .ok begun ∧ TakesPoint c.next pixPos false begun d) := by
  obtain ⟨current, read, rest⟩ := bind_completes pressed
  split at rest
  · rename_i absent
    obtain ⟨present, rfl⟩ := absent
    have other : c.currentIndex ≠ -1 := by omega
    rw [CanvasBase.currentShape, if_neg other] at read
    obtain ⟨_, _, wrong⟩ := bind_completes read
    cases wrong
  · split at rest
    · rename_i starts
      obtain ⟨begun, added, point⟩ := bind_completes rest
      refine .inr ⟨?_, begun, added, ?_⟩
      · intro shape found
        rw [read] at found
        cases found
        exact closed_of_starts read starts
      · obtain ⟨img, _, known, base, _⟩ := addShape_completes added
        have current : begun.currentShape = .ok (some c.next) := by
          rw [base]
          exact started_currentShape _ img
        have count : (begun.heap c.next).pointCount = 0 := by
          rw [base, Shape.pointCount, (started_heap_next _ img).1]
          rfl
        have mode : begun.draw = c.draw := by
          rw [base]
          rfl
        rcases drawPoint_completes current point with ⟨none, _⟩ | ⟨_, takes⟩
        · exact absurd (mode ▸ none) known
        · rw [count] at takes
          simpa [closesAt] using takes
    · rename_i present goesOn
      cases current with
      | none =>
        have absent : c.currentIndex = -1 := by
          by_contra other
          rw [CanvasBase.currentShape, if_neg other] at read
          obtain ⟨_, _, wrong⟩ := bind_completes read
          cases wrong
        simp [startsShape, absent] at goesOn
      | some shape =>
        refine .inl ⟨shape, read, ?_, drawPoint_completes read rest⟩
        simp only [startsShape, Bool.or_eq_true, not_or, Bool.not_eq_true] at goesOn
        exact goesOn.2

theorem drawn_completes (found : c.drawn = some shape) :
    c.task = .segmentation ∧ c.operat = .draw ∧ c.currentShape = .ok (some shape) := by
  unfold drawn at found
  split at found
  · rename_i task operat current
    cases found
    exact ⟨task, operat, current⟩
  · cases found

variable {containsPoint : List QPointF → QPointF → Bool} {pos : QPointF} {leftButton : Bool}

/-- A press leaves the shapes alone, gives its point to the open shape, or starts a new shape. -/
theorem mousePressEvent_completes (pressed : c.mousePressEvent containsPoint pos leftButton reply = .ok d) :
    ∃ img, c.image = some img ∧
      ((Still c d ∧ (leftButton = true → ∀ shape, c.drawn = some shape → (c.heap shape).isClosed = false →
          c.draw = .none)) ∨
        (∃ shape, leftButton = true ∧ c.drawn = some shape ∧ (c.heap shape).isClosed = false ∧ c.draw ≠ .none ∧
          TakesPoint shape (bindImgEdge img pos) (closesAt c.draw (c.heap shape).pointCount) c d) ∨
        (c.operat = .draw ∧ (∀ shape, c.drawn = some shape → (c.heap shape).isClosed = true) ∧
          ∃ begun, CanvasView.addShape c = .ok begun ∧ TakesPoint c.next (bindImgEdge img pos) false begun d)) := by
  obtain ⟨img, read, rest⟩ := bind_completes pressed
  refine ⟨img, getImage_completes read, ?_⟩
  simp only at rest
  split at rest
  · rename_i task operat
    rcases drawPress_completes rest with ⟨shape, current, isOpen, ⟨none, rfl⟩ | ⟨mode, takes⟩⟩ | ⟨closed, begun⟩
    · exact .inl ⟨Still.refl _, fun _ _ _ _ => none⟩
    · exact .inr (.inl ⟨shape, rfl, drawn_eq task operat current, isOpen, mode, takes⟩)
    · refine .inr (.inr ⟨operat, ?_, begun⟩)
      intro shape found
      exact closed shape (drawn_completes found).2.2
  · rename_i task operat
    obtain ⟨base, done, rest⟩ := bind_completes rest
    cases rest
    refine .inl ⟨⟨CanvasBase.editPress_untouched done, rfl⟩, ?_⟩
    intro _ shape found
    rw [(drawn_completes found).2.1] at operat
    cases operat
  · rename_i notDraw _
    cases rest
    refine .inl ⟨Still.refl _, ?_⟩
    intro left shape found
    obtain ⟨task, operat, _⟩ := drawn_completes found
    exact absurd operat (notDraw task left)

/-- A double click takes back the last point and closes the shape before it goes on as a press. -/
theorem mouseDoubleClickEvent_completes
    (clicked : c.mouseDoubleClickEvent containsPoint pos leftButton reply = .ok d) :
    (c.drawn = none ∧ d = c) ∨
      (∃ shape, c.drawn = some shape ∧ 2 < (c.heap shape).pointCount ∧ ∃ points finished,
        (c.heap shape).points.erase ((c.heap shape).pointCount - 1) = .ok points ∧
        Still (c.modifyShape shape fun s => { s with points, isClosed := true }) finished ∧
        finished.mousePressEvent containsPoint pos leftButton reply = .ok d) ∨
      ((∀ shape, c.drawn = some shape → (c.heap shape).pointCount ≤ 2) ∧
        c.mousePressEvent containsPoint pos leftButton reply = .ok d) := by
  unfold mouseDoubleClickEvent at clicked
  split at clicked
  · rename_i task operat
    obtain ⟨current, read, rest⟩ := bind_completes clicked
    cases current with
    | none =>
      cases rest
      exact .inl ⟨by simp [drawn, read], rfl⟩
    | some shape =>
      have found := drawn_eq task operat read
      simp only at rest
      split at rest
      · rename_i many
        obtain ⟨result, deleted, again⟩ := bind_completes rest
        rcases Shape.deletePoint_completes deleted with ⟨beyond, _⟩ | ⟨_, points, erased, rfl⟩
        · unfold Shape.pointCount at beyond many
          omega
        · exact .inr (.inl ⟨shape, found, many, points, _, erased, slotSetProperty_still _ _ _, again⟩)
      · rename_i few
        refine .inr (.inr ⟨?_, rest⟩)
        intro other same
        rw [found] at same
        cases same
        omega
  · rename_i excluded
    refine .inr (.inr ⟨?_, clicked⟩)
    intro shape found
    obtain ⟨task, operat, _⟩ := drawn_completes found
    exact absurd operat (excluded task)

end Point

section Placed

variable {c d : Canvas2D} {shape : ShapeId} {containsPoint : List QPointF → QPointF → Bool}

theorem Placed.of_same (placed : c.Placed) (next : d.next = c.next) (list : d.shapeList = c.shapeList)
    (undoStack : d.undoStack = c.undoStack) : d.Placed := placed.older list undoStack (Nat.le_of_eq next.symm)

theorem Placed.still (placed : c.Placed) (still : Still c d) : d.Placed :=
  placed.of_same still.base.next still.base.shapeList still.undoStack

theorem Placed.modifyShape (placed : c.Placed) (f : Shape → Shape) : (c.modifyShape shape f).Placed :=
  placed.of_same rfl rfl rfl

theorem Placed.takesPoint {pixPos : QPointF} {closes : Bool} (placed : c.Placed) (known : shape < c.next)
    (takes : TakesPoint shape pixPos closes c d) : d.Placed := by
  refine ⟨?_, ?_, ?_⟩
  · intro other member
    rw [takes.base.next]
    exact placed.listed other (takes.base.shapeList ▸ member)
  · rw [takes.undoStack, takes.base.next, List.forall_mem_cons]
    refine ⟨?_, placed.done⟩
    intro address member
    cases member
    exact known
  · rw [takes.undoStack]
    simp

theorem Placed.addShape (placed : c.Placed) (added : CanvasView.addShape c = .ok d) :
    d.Placed ∧ c.next < d.next := by
  obtain ⟨img, _, _, base, stack⟩ := addShape_completes added
  have next : d.next = c.next + 1 := by
    rw [base]
    rfl
  have grows : c.next < d.next := by
    rw [next]
    exact Nat.lt_succ_self _
  refine ⟨⟨?_, ?_, ?_⟩, grows⟩
  · intro shape member
    rw [base] at member
    rcases List.mem_append.mp member with member | member
    · exact (placed.listed shape member).trans grows
    · rw [List.mem_singleton.mp member]
      exact grows
  · rw [stack, List.forall_mem_cons]
    refine ⟨?_, ?_⟩
    · intro address member
      cases member
      exact grows
    · intro command member address found
      exact (placed.done command member address found).trans grows
  · rw [stack]
    simp

theorem currentShape_mem (current : c.currentShape = .ok (some shape)) : shape ∈ c.shapeList := by
  unfold CanvasBase.currentShape at current
  split at current
  · cases current
  · obtain ⟨read, here, rest⟩ := bind_completes current
    cases rest
    obtain ⟨_, position⟩ := QVector.at_completes here
    exact List.mem_of_getElem? position

theorem drawn_mem (found : c.drawn = some shape) : shape ∈ c.shapeList :=
  currentShape_mem (drawn_completes found).2.2

theorem Placed.mousePress {pos : QPointF} {leftButton : Bool} {reply : DialogReply} (placed : c.Placed)
    (pressed : c.mousePressEvent containsPoint pos leftButton reply = .ok d) : d.Placed := by
  obtain ⟨img, _, ⟨still, _⟩ | ⟨shape, _, found, _, _, takes⟩ | ⟨_, _, begun, added, takes⟩⟩ :=
    mousePressEvent_completes pressed
  · exact placed.still still
  · exact placed.takesPoint (placed.listed shape (drawn_mem found)) takes
  · obtain ⟨placed', known⟩ := placed.addShape added
    exact placed'.takesPoint known takes

theorem Placed.handle {event : CanvasEvent} (placed : c.Placed) (handled : c.handle containsPoint event = .ok d) :
    d.Placed := by
  cases event with
  | mousePress pos leftButton reply => exact placed.mousePress handled
  | mouseRelease pos => exact placed.still (mouseReleaseEvent_still handled)
  | mouseDoubleClick pos leftButton reply =>
    rcases mouseDoubleClickEvent_completes handled with
      ⟨_, rfl⟩ | ⟨shape, _, _, points, finished, _, still, pressed⟩ | ⟨_, pressed⟩
    · exact placed
    · exact ((placed.modifyShape _).still still).mousePress pressed
    · exact placed.mousePress pressed
  | hoverMove pos => exact placed.still (hoverMoveEvent_still handled)
  | mouseMove pos =>
    rcases mouseMoveEvent_completes handled with ⟨still, _⟩ | ⟨_, _, _, stack, _, _, _, _, changed⟩
    · exact placed.still still
    · exact placed.of_same changed.next changed.shapeList stack
  | keyPress enter reply =>
    rcases keyPressEvent_completes handled with ⟨shape, _, _, _, still⟩ | ⟨still, _⟩
    · exact (placed.modifyShape _).still still
    · exact placed.still still
  | undo => exact (placed.undo handled).1
  | redo => exact (placed.redo handled).1
  | changeDrawMode mode =>
    cases handled
    exact placed.of_same rfl rfl rfl
  | changeOperatMode mode =>
    cases handled
    exact placed.of_same rfl rfl rfl
  | creatPolygon => exact (placed.addShape handled).1

structure SameView (c d : Canvas2D) : Prop where
  task : d.task = c.task
  image : d.image = c.image

theorem SameView.trans {c d e : Canvas2D} (first : SameView c d) (second : SameView d e) : SameView c e :=
  ⟨second.task.trans first.task, second.image.trans first.image⟩

theorem Still.sameView (still : Still c d) : SameView c d := ⟨still.base.task, still.base.image⟩

theorem TakesPoint.sameView {pixPos : QPointF} {closes : Bool} (takes : TakesPoint shape pixPos closes c d) :
    SameView c d := ⟨takes.base.task, takes.base.image⟩

theorem addShape_sameView (added : CanvasView.addShape c = .ok d) : SameView c d := by
  obtain ⟨img, _, _, base, _⟩ := addShape_completes added
  constructor <;> rw [base] <;> rfl

theorem mousePress_sameView {pos : QPointF} {leftButton : Bool} {reply : DialogReply}
    (pressed : c.mousePressEvent containsPoint pos leftButton reply = .ok d) : SameView c d := by
  obtain ⟨img, _, ⟨still, _⟩ | ⟨shape, _, _, _, _, takes⟩ | ⟨_, _, begun, added, takes⟩⟩ :=
    mousePressEvent_completes pressed
  · exact still.sameView
  · exact takes.sameView
  · exact (addShape_sameView added).trans takes.sameView

theorem undo_sameView (undone : c.undo = .ok d) : SameView c d := by
  rcases undo_completes undone with ⟨_, rfl⟩ | ⟨command, done, recorded, _, called, _⟩
  · exact ⟨rfl, rfl⟩
  · rcases Command.undo_cases called with
      ⟨shape, _, _, base⟩ | ⟨shape, _, _, deleted, _, _, base⟩ | ⟨_, thinned⟩
    · constructor <;> rw [base] <;> rfl
    · constructor <;> rw [base] <;> rfl
    · exact ⟨thinned.task, thinned.image⟩

theorem redo_sameView (redone : c.redo = .ok d) : SameView c d := by
  rcases redo_completes redone with ⟨_, rfl⟩ | ⟨command, undone, recorded, _, called, _⟩
  · exact ⟨rfl, rfl⟩
  · rcases Command.redo_cases called with ⟨shape, _, _, base⟩ | ⟨shape, _, _, _, base⟩ | ⟨_, thinned⟩
    · constructor <;> rw [base] <;> rfl
    · constructor <;> rw [base] <;> rfl
    · exact ⟨thinned.task, thinned.image⟩

theorem handle_sameView {event : CanvasEvent} (handled : c.handle containsPoint event = .ok d) :
    SameView c d := by
  cases event with
  | mousePress pos leftButton reply => exact mousePress_sameView handled
  | mouseRelease pos => exact (mouseReleaseEvent_still handled).sameView
  | mouseDoubleClick pos leftButton reply =>
    rcases mouseDoubleClickEvent_completes handled with
      ⟨_, rfl⟩ | ⟨shape, _, _, points, finished, _, still, pressed⟩ | ⟨_, pressed⟩
    · exact ⟨rfl, rfl⟩
    · have first : SameView c finished := ⟨still.base.task, still.base.image⟩
      exact first.trans (mousePress_sameView pressed)
    · exact mousePress_sameView pressed
  | hoverMove pos => exact (hoverMoveEvent_still handled).sameView
  | mouseMove pos =>
    rcases mouseMoveEvent_completes handled with ⟨still, _⟩ | ⟨_, _, _, _, _, _, _, _, changed⟩
    · exact still.sameView
    · exact ⟨changed.task, changed.image⟩
  | keyPress enter reply =>
    rcases keyPressEvent_completes handled with ⟨shape, _, _, _, still⟩ | ⟨still, _⟩
    · exact ⟨still.base.task, still.base.image⟩
    · exact still.sameView
  | undo => exact undo_sameView handled
  | redo => exact redo_sameView handled
  | changeDrawMode mode =>
    cases handled
    exact ⟨rfl, rfl⟩
  | changeOperatMode mode =>
    cases handled
    exact ⟨rfl, rfl⟩
  | creatPolygon => exact addShape_sameView handled

def loaded (img : QImage) : Canvas2D := { fresh with image := some img }

theorem loaded_placed (img : QImage) : (loaded img).Placed := placed_of_empty rfl rfl

def blankImage : QImage := ⟨100, 100, [], by decide, by decide, by decide, by decide⟩

end Placed

end Canvas2D

end XYAnnotation

import XYAnnotation.Annotations.Painter
import XYAnnotation.Canvas.Painting
import XYAnnotation.Canvas.OpenShapes

namespace XYAnnotation

open Library Drawing QPainter

namespace CanvasBase

section Paint

variable (c : CanvasBase) (crossPos : QPointF)

def previews (shape : ShapeId) : Bool := decide (c.operat = .draw) && !(c.heap shape).isClosed

def paintShape (shape : ShapeId) : Painting Unit := (c.heap shape).paint (c.previews shape)

def crossLines : Painting Unit := do
  let img ← read c.getImage
  drawLine (bindImgEdge img ⟨-(img.width / 2 : ℕ), crossPos.y⟩) (bindImgEdge img ⟨(img.width / 2 : ℕ), crossPos.y⟩)
  drawLine (bindImgEdge img ⟨crossPos.x, -(img.height / 2 : ℕ)⟩) (bindImgEdge img ⟨crossPos.x, (img.height / 2 : ℕ)⟩)

def drawCross : Painting Unit := do
  save
  c.crossLines crossPos
  restore

def paintAll : Painting Unit :=
  match c.task, c.operat with
  | .detection, _ => pure ()
  | .segmentation, .draw => do
    c.shapeList.forM c.paintShape
    if c.draw = .rectangle then c.drawCross crossPos
  | .segmentation, .edit => c.shapeList.forM c.paintShape

/-- `drawShape` on the painter. -/
def paintShapes : Painting Unit :=
  catching (c.paintAll crossPos) fun fault => if fault.isException then pure () else throw fault

end Paint

variable {c : CanvasBase} {crossPos : QPointF} {pictures : List (Option Picture)}

def shapeEffect (c : CanvasBase) (shape : ShapeId) : Effect PaintContext Mark :=
  match (c.heap shape).draw (c.previews shape) with
  | .ok (some picture) => ⟨(c.heap shape).leaves, (c.heap shape).marks picture⟩
  | _ => .none

def crossMarks (img : QImage) (crossPos : QPointF) (context : PaintContext) : List Mark :=
  [.line (bindImgEdge img ⟨-(img.width / 2 : ℕ), crossPos.y⟩) (bindImgEdge img ⟨(img.width / 2 : ℕ), crossPos.y⟩)
      context.pen,
    .line (bindImgEdge img ⟨crossPos.x, -(img.height / 2 : ℕ)⟩) (bindImgEdge img ⟨crossPos.x, (img.height / 2 : ℕ)⟩)
      context.pen]

def crossEffect (c : CanvasBase) (img : QImage) (crossPos : QPointF) : Effect PaintContext Mark :=
  if c.operat = .draw ∧ c.draw = .rectangle then ⟨fun context => context, crossMarks img crossPos⟩ else .none

theorem paintShape_paints {shape : ShapeId} {picture : Option Picture}
    (drawn : (c.heap shape).draw (c.previews shape) = .ok picture) : Paints (c.paintShape shape) (c.shapeEffect shape) := by
  unfold paintShape shapeEffect
  rw [drawn]
  cases picture with
  | none => exact Shape.paint_none drawn
  | some picture => exact Shape.paint_paints drawn

theorem drawShape_shapes (task : c.task = .segmentation) :
    c.drawShape = c.shapeList.mapM fun shape => (c.heap shape).draw (c.previews shape) := by
  rw [drawShape, task]
  rfl

theorem shapes_paint (task : c.task = .segmentation) (drawn : c.drawShape = .ok pictures) :
    Paints (c.shapeList.forM c.paintShape) (.all (c.shapeList.map c.shapeEffect)) := by
  rw [drawShape_shapes task] at drawn
  have each := mapM_completes.mp ⟨pictures, drawn⟩
  apply Paints.forM
  intro shape member
  obtain ⟨picture, made⟩ := each shape member
  exact paintShape_paints made

theorem shapes_fail (task : c.task = .segmentation) {fault : Fault} (failed : c.drawShape = .error fault) :
    Fails (c.shapeList.forM c.paintShape) fault := by
  rw [drawShape_shapes task] at failed
  refine Fails.forM_read ?_ ?_ failed
  · intro shape picture made
    exact ⟨_, paintShape_paints made⟩
  · intro shape fault failed
    exact (Shape.paint_fails failed).2

theorem drawCross_paints {img : QImage} (image : c.image = some img) :
    Paints (c.drawCross crossPos) ⟨fun context => context, crossMarks img crossPos⟩ := by
  have lines : Paints (c.crossLines crossPos) ⟨fun context => context, crossMarks img crossPos⟩ := by
    unfold crossLines
    rw [CanvasBase.getImage, image, read_bind]
    exact (put_paints _).bind (put_paints _)
  exact lines.enclosed

theorem paintAll_paints {img : QImage} (image : c.image = some img) (task : c.task = .segmentation)
    (drawn : c.drawShape = .ok pictures) :
    Paints (c.paintAll crossPos) ((Effect.all (c.shapeList.map c.shapeEffect)).andThen (c.crossEffect img crossPos)) := by
  have shapes := shapes_paint task drawn
  unfold paintAll
  cases operat : c.operat with
  | draw =>
    simp only [task]
    split
    · rename_i rectangle
      rw [crossEffect, if_pos ⟨operat, rectangle⟩]
      exact shapes.bind (drawCross_paints image)
    · rename_i other
      rw [crossEffect, if_neg (by simp [other])]
      exact shapes.bind Paints.pure
  | edit =>
    simp only [task]
    refine shapes.congr ?_ ?_
    all_goals
      intro context
      simp [crossEffect, operat, Effect.andThen, Effect.none]

theorem paintAll_fails (task : c.task = .segmentation) {fault : Fault} (failed : c.drawShape = .error fault) :
    Fails (c.paintAll crossPos) fault := by
  have shapes := shapes_fail task failed
  unfold paintAll
  cases operat : c.operat with
  | draw =>
    simp only [task]
    exact shapes.bind
  | edit =>
    simp only [task]
    exact shapes

theorem drawShape_fault (task : c.task = .segmentation) {fault : Fault} (failed : c.drawShape = .error fault) :
    fault = .outOfRange := by
  rw [drawShape_shapes task] at failed
  generalize c.shapeList = list at failed
  induction list with
  | nil => cases failed
  | cons shape list ih =>
    rw [List.mapM_cons] at failed
    cases head : (c.heap shape).draw (c.previews shape) with
    | error other =>
      rw [head] at failed
      obtain rfl := Except.error.inj failed
      exact (Shape.paint_fails head).1
    | ok picture =>
      rw [head] at failed
      apply ih
      cases tail : list.mapM fun shape => (c.heap shape).draw (c.previews shape) with
      | error other =>
        rw [tail] at failed
        exact failed
      | ok pictures =>
        rw [tail] at failed
        cases failed

theorem paintShapes_paints {img : QImage} (image : c.image = some img) (task : c.task = .segmentation)
    (drawn : c.drawShape = .ok pictures) : Paints (c.paintShapes crossPos)
      ((Effect.all (c.shapeList.map c.shapeEffect)).andThen (c.crossEffect img crossPos)) :=
  (paintAll_paints image task drawn).catching _

/-- With an image the painter draws the pictures of the shapes in their order, and then the cross, and its saved
    contexts are as before. It fails where a picture fails, which no `catch` takes. -/
theorem paintShapes_refines (c : CanvasBase) (img : QImage) (image : c.image = some img)
    (task : c.task = .segmentation) (crossPos : QPointF) (painter : Device PaintContext Mark) :
    (∀ pictures, c.drawShape = .ok pictures → (c.paintShapes crossPos).runOn painter =
      (.ok (), ((Effect.all (c.shapeList.map c.shapeEffect)).andThen (c.crossEffect img crossPos)).on painter)) ∧
    (∀ fault, c.drawShape = .error fault → ((c.paintShapes crossPos).runOn painter).1 = .error fault) := by
  constructor
  · intro pictures drawn
    exact paintShapes_paints image task drawn painter
  · intro fault failed
    obtain rfl := drawShape_fault task failed
    exact (paintAll_fails task failed).catching (fun _ => rfl) painter

def newPainter : Device PaintContext Mark := ⟨initial, [], []⟩

theorem shapeEffect_steady (shape : ShapeId) : (c.shapeEffect shape).Steady := by
  unfold shapeEffect
  split
  · exact Shape.marks_steady
  · exact fun _ _ => rfl

theorem empty_brush {s : Shape} {isdisEndPt : Bool} (drawn : s.draw isdisEndPt = .ok none) :
    ¬ s.LeavesBrush ∧ ¬ s.ShowsBrush := by
  obtain ⟨empty, type⟩ := Shape.draw_none drawn
  unfold Shape.LeavesBrush Shape.ShowsBrush
  rcases type with type | type | type <;> simp [type, empty]

theorem shapeEffect_leaves {shape : ShapeId} {picture : Option Picture}
    (drawn : (c.heap shape).draw (c.previews shape) = .ok picture) (context : PaintContext) :
    ((c.shapeEffect shape).leaves context).brush = none ↔ context.brush = none ∧ ¬ (c.heap shape).LeavesBrush := by
  unfold shapeEffect
  rw [drawn]
  cases picture with
  | none => simp [Effect.none, empty_brush drawn]
  | some picture => exact Shape.leaves_brush_iff context drawn

theorem shapeEffect_items {shape : ShapeId} {picture : Option Picture}
    (drawn : (c.heap shape).draw (c.previews shape) = .ok picture) (context : PaintContext) :
    (c.shapeEffect shape).items context = (c.shapeEffect shape).items initial ↔
      ((c.heap shape).ShowsBrush → context.brush = none) := by
  unfold shapeEffect
  rw [drawn]
  cases picture with
  | none => simp [Effect.none, empty_brush drawn]
  | some picture => exact Shape.marks_eq_iff context initial drawn

theorem shapes_alone_iff (task : c.task = .segmentation) (drawn : c.drawShape = .ok pictures) :
    ((c.shapeList.forM c.paintShape).runOn newPainter).2.drawn =
        (c.shapeList.flatMap fun shape => ((c.paintShape shape).runOn newPainter).2.drawn) ↔
      c.shapeList.Pairwise fun earlier later => (c.heap earlier).LeavesBrush → ¬ (c.heap later).ShowsBrush := by
  have each : ∀ shape ∈ c.shapeList, ∃ picture, (c.heap shape).draw (c.previews shape) = .ok picture := by
    rw [← mapM_completes, ← drawShape_shapes task]
    exact ⟨pictures, drawn⟩
  have alone : (c.shapeList.flatMap fun shape => ((c.paintShape shape).runOn newPainter).2.drawn) =
      c.shapeList.flatMap fun shape => (c.shapeEffect shape).items initial := by
    apply List.flatMap_congr
    intro shape member
    obtain ⟨picture, made⟩ := each shape member
    rw [paintShape_paints made]
    rfl
  have leaves : ∀ shape ∈ c.shapeList, ∀ context : PaintContext,
      ((c.shapeEffect shape).leaves context).brush = none ↔ context.brush = none ∧ ¬ (c.heap shape).LeavesBrush := by
    intro shape member
    obtain ⟨picture, made⟩ := each shape member
    exact shapeEffect_leaves made
  have items : ∀ shape ∈ c.shapeList, ∀ context, (c.shapeEffect shape).items context =
      (c.shapeEffect shape).items initial ↔ ((c.heap shape).ShowsBrush → context.brush = none) := by
    intro shape member
    obtain ⟨picture, made⟩ := each shape member
    exact shapeEffect_items made
  have apart := Effect.all_eq_apart_iff (fun shape _ => c.shapeEffect_steady shape) leaves items initial
  rw [alone, shapes_paint task drawn]
  refine apart.trans (and_iff_right ?_)
  intro dirty
  exact absurd rfl dirty

/-- On one painter the shapes look as each looks on a painter of its own exactly when no shape that is drawn with the
    brush it finds comes after an open shape that leaves its brush. -/
theorem painted_alone_iff (c : CanvasBase) (task : c.task = .segmentation) (pictures : List (Option Picture))
    (drawn : c.drawShape = .ok pictures) :
    ((c.shapeList.forM c.paintShape).runOn newPainter).2.drawn =
        (c.shapeList.flatMap fun shape => ((c.paintShape shape).runOn newPainter).2.drawn) ↔
      c.shapeList.Pairwise fun earlier later => (c.heap earlier).LeavesBrush → ¬ (c.heap later).ShowsBrush :=
  shapes_alone_iff task drawn

theorem pairwise_of_settled (closed : ∀ shape ∈ c.shapeList.dropLast, (c.heap shape).isClosed = true) :
    c.shapeList.Pairwise fun earlier later => (c.heap earlier).LeavesBrush → ¬ (c.heap later).ShowsBrush := by
  have clean : ∀ shape ∈ c.shapeList.dropLast, ¬ (c.heap shape).LeavesBrush := by
    intro shape member leaves
    exact absurd ((closed shape member).symm.trans leaves.1) (by decide)
  rcases List.eq_nil_or_concat c.shapeList with empty | ⟨front, last, list⟩
  · rw [empty]
    exact List.Pairwise.nil
  · rw [List.concat_eq_append] at list
    rw [list, List.dropLast_concat] at clean
    rw [list, List.pairwise_append]
    refine ⟨?_, List.pairwise_singleton _ _, ?_⟩
    · apply List.pairwise_of_forall_mem_list
      intro earlier member _ _ leaves
      exact absurd leaves (clean earlier member)
    · intro earlier member _ _ leaves
      exact absurd leaves (clean earlier member)

end CanvasBase

namespace Canvas2D

variable {containsPoint : List QPointF → QPointF → Bool} {c : Canvas2D} {img : QImage} {events : List CanvasEvent}

theorem visited_paintable
    (paints : Along (handle containsPoint) (fun state event => event.PaintsWell state) (loaded img) events) :
    ∀ reached ∈ visited (handle containsPoint) (loaded img) events,
      reached.task = .segmentation ∧ reached.image = some img ∧ reached.Paintable := by
  have kept (state : Canvas2D) (event : CanvasEvent) (next : Canvas2D)
      (before : state.task = .segmentation ∧ state.image = some img ∧ state.Paintable) (well : event.PaintsWell state)
      (handled : state.handle containsPoint event = .ok next) :
      next.task = .segmentation ∧ next.image = some img ∧ next.Paintable := by
    obtain ⟨task, image, paintable⟩ := before
    have same := handle_sameView handled
    exact ⟨same.task.trans task, same.image.trans image, (handle_paintable paintable handled).mpr well⟩
  apply visited_invariant kept _ paints
  refine ⟨rfl, rfl, ?_⟩
  intro shape member
  cases member

theorem visited_settled (starts : Along (handle containsPoint) StartsClosed (loaded img) events) :
    ∀ reached ∈ visited (handle containsPoint) (loaded img) events, reached.Stacked ∧ reached.Settled := by
  have kept (state : Canvas2D) (event : CanvasEvent) (next : Canvas2D) (before : state.Stacked ∧ state.Settled)
      (closed : state.StartsClosed event) (handled : state.handle containsPoint event = .ok next) :
      next.Stacked ∧ next.Settled := by
    obtain ⟨stacked', keeps⟩ := before.1.handle handled
    exact ⟨stacked', keeps before.2 closed⟩
  apply visited_invariant kept _ starts
  have stacked : (loaded img).Stacked :=
    ⟨loaded_placed img, rfl, rfl, rfl, List.nodup_nil, List.nodup_nil, by simp [loaded, fresh, UndoStack.empty]⟩
  refine ⟨stacked, ?_⟩
  intro shape member
  cases member

/-- In every state of a run that draws one shape after the other, the canvas is painted, the painter is left as it was
    found but for its pen and brush, and each shape looks as it does on its own. -/
theorem every_shape_painted_alone (containsPoint : List QPointF → QPointF → Bool) (img : QImage)
    (events : List CanvasEvent)
    (paints : Along (handle containsPoint) (fun state event => event.PaintsWell state) (loaded img) events)
    (starts : Along (handle containsPoint) StartsClosed (loaded img) events) (reached : Canvas2D)
    (member : reached ∈ visited (handle containsPoint) (loaded img) events) (crossPos : QPointF) :
    (∀ painter, ((reached.paintShapes crossPos).runOn painter).1 = .ok () ∧
        ((reached.paintShapes crossPos).runOn painter).2.saved = painter.saved) ∧
      ((reached.shapeList.forM reached.paintShape).runOn CanvasBase.newPainter).2.drawn =
        reached.shapeList.flatMap fun shape => ((reached.paintShape shape).runOn CanvasBase.newPainter).2.drawn := by
  obtain ⟨task, image, paintable⟩ := visited_paintable paints reached member
  obtain ⟨_, settled⟩ := visited_settled starts reached member
  obtain ⟨pictures, drawn⟩ := (CanvasBase.drawShape_completes_iff task).mpr paintable
  constructor
  · intro painter
    rw [CanvasBase.paintShapes_paints image task drawn]
    exact ⟨rfl, rfl⟩
  · apply (CanvasBase.shapes_alone_iff task drawn).mpr
    apply CanvasBase.pairwise_of_settled
    intro shape front
    exact settled shape (mem_dropLast_append front)

theorem polygon_painted_alone :
    ∃ reached, run (handle fun _ _ => false) (loaded blankImage)
        [.mousePress ⟨0, 0⟩ true none, .mousePress ⟨20, 0⟩ true none, .mousePress ⟨0, 20⟩ true none, .keyPress true none] =
          .ok reached ∧
      reached.shapeList = [0] ∧
      ((reached.shapeList.forM reached.paintShape).runOn CanvasBase.newPainter).2.drawn =
        reached.shapeList.flatMap fun shape => ((reached.paintShape shape).runOn CanvasBase.newPainter).2.drawn := by
  have observed : (run (handle fun _ _ => false) (loaded blankImage)
      [.mousePress ⟨0, 0⟩ true none, .mousePress ⟨20, 0⟩ true none, .mousePress ⟨0, 20⟩ true none,
        .keyPress true none]).map (·.shapeList) = .ok [0] := by
    decide +kernel
  obtain ⟨reached, done, list⟩ := map_completes observed
  refine ⟨reached, done, list, ?_⟩
  refine (every_shape_painted_alone (fun _ _ => false) blankImage _ ?_ ?_ reached (run_mem_visited done) ⟨0, 0⟩).2
  all_goals
    apply along_of_forall
    intro state event pressed
    simp only [List.mem_cons, List.not_mem_nil, or_false] at pressed
    rcases pressed with rfl | rfl | rfl | rfl <;> trivial

def polygonLeftOpen : List CanvasEvent :=
  [.mousePress ⟨-10, -10⟩ true none, .creatPolygon, .mousePress ⟨0, 0⟩ true none, .mousePress ⟨20, 0⟩ true none,
    .mousePress ⟨0, 20⟩ true none, .keyPress true none]

theorem polygonLeftOpen_reached :
    ∃ reached, run (handle fun _ _ => false) (loaded blankImage) polygonLeftOpen = .ok reached ∧
      reached.task = .segmentation ∧ reached.image = some blankImage ∧ reached.shapeList = [0, 1] ∧
      ((reached.heap 0).type = .polygon ∧ (reached.heap 0).isClosed = false) ∧
      (reached.heap 1).type = .polygon ∧ (reached.heap 1).isClosed = true := by
  have observed : (run (handle fun _ _ => false) (loaded blankImage) polygonLeftOpen).map
      (fun c => ((c.task, c.image, c.shapeList), ((c.heap 0).type, (c.heap 0).isClosed), (c.heap 1).type,
        (c.heap 1).isClosed)) =
      .ok ((.segmentation, some blankImage, [0, 1]), (.polygon, false), .polygon, true) := by
    decide +kernel
  obtain ⟨reached, done, seen⟩ := map_completes observed
  simp only [Prod.mk.injEq] at seen
  exact ⟨reached, done, seen.1.1, seen.1.2.1, seen.1.2.2, seen.2.1, seen.2.2⟩

theorem polygonLeftOpen_drawn {reached : Canvas2D} (task : reached.task = .segmentation)
    (list : reached.shapeList = [0, 1]) (first : (reached.heap 0).type = .polygon)
    (second : (reached.heap 1).type = .polygon) : ∃ pictures, reached.drawShape = .ok pictures := by
  apply (CanvasBase.drawShape_completes_iff task).mpr
  intro shape member corner
  rw [list] at member
  rcases List.mem_cons.mp member with rfl | member
  · rw [first] at corner
    cases corner
  · rw [List.mem_singleton.mp member, second] at corner
    cases corner

theorem closed_polygon_filled :
    ∃ reached, run (handle fun _ _ => false) (loaded blankImage) polygonLeftOpen = .ok reached ∧
      ((reached.shapeList.forM reached.paintShape).runOn CanvasBase.newPainter).2.drawn ≠
        reached.shapeList.flatMap fun shape => ((reached.paintShape shape).runOn CanvasBase.newPainter).2.drawn := by
  obtain ⟨reached, done, task, _, list, ⟨type, isOpen⟩, type', closed⟩ := polygonLeftOpen_reached
  obtain ⟨pictures, drawn⟩ := polygonLeftOpen_drawn task list type type'
  refine ⟨reached, done, ?_⟩
  rw [ne_eq, CanvasBase.painted_alone_iff reached.toCanvasBase task pictures drawn, list]
  intro apart
  have shown := (List.pairwise_cons.mp apart).1 1 (by simp)
  apply shown
  · unfold Shape.LeavesBrush
    rw [type]
    exact ⟨isOpen, trivial⟩
  · unfold Shape.ShowsBrush
    rw [type']
    exact closed

theorem polygons_painted :
    ∃ reached, run (handle fun _ _ => false) (loaded blankImage) polygonLeftOpen = .ok reached ∧
      ((reached.paintShapes ⟨0, 0⟩).runOn CanvasBase.newPainter).1 = .ok () := by
  obtain ⟨reached, done, task, image, list, ⟨type, _⟩, type', _⟩ := polygonLeftOpen_reached
  obtain ⟨pictures, drawn⟩ := polygonLeftOpen_drawn task list type type'
  refine ⟨reached, done, ?_⟩
  rw [(CanvasBase.paintShapes_refines reached.toCanvasBase blankImage image task ⟨0, 0⟩ CanvasBase.newPainter).1
    pictures drawn]

end Canvas2D

end XYAnnotation

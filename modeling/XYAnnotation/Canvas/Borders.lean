import XYAnnotation.Canvas.Handlers
import XYAnnotation.Library.Clamp

namespace XYAnnotation

open Library

def InImage (img : QImage) (vertex : QPointF) : Prop :=
  0 ≤ vertex.x ∧ vertex.x ≤ img.width ∧ 0 ≤ vertex.y ∧ vertex.y ≤ img.height

def centre (img : QImage) : QPointF := ⟨img.width / 2, img.height / 2⟩

theorem clamp_range (x edge upper : ℚ) (room : edge ≤ upper) :
    edge ≤ (if (if x ≥ upper then upper else x) ≤ edge then edge else if x ≥ upper then upper else x) ∧
      (if (if x ≥ upper then upper else x) ≤ edge then edge else if x ≥ upper then upper else x) ≤ upper := by
  rw [cuts_eq_projIcc room]
  exact (Set.projIcc edge upper room x).2

theorem half_range (n : ℕ) : ((n / 2 : ℕ) : ℚ) ≤ (n : ℚ) / 2 ∧ (n : ℚ) / 2 ≤ ((n / 2 : ℕ) : ℚ) + 1 / 2 := by
  have low : 2 * (n / 2) ≤ n := Nat.mul_div_le n 2
  have high : n ≤ 2 * (n / 2) + 1 := by omega
  have low' : (2 : ℚ) * ((n / 2 : ℕ) : ℚ) ≤ n := by exact_mod_cast low
  have high' : (n : ℚ) ≤ 2 * ((n / 2 : ℕ) : ℚ) + 1 := by exact_mod_cast high
  constructor <;> linarith

theorem axis_inside {n : ℕ} (large : 7 ≤ n) {w : ℚ} (low : 4 / 3 ≤ w) (high : w ≤ n - 4 / 3) :
    0 ≤ w - ((n / 2 : ℕ) : ℚ) + (n : ℚ) / 2 ∧ w - ((n / 2 : ℕ) : ℚ) + (n : ℚ) / 2 ≤ n := by
  have room : (7 : ℚ) ≤ n := by exact_mod_cast large
  obtain ⟨below, above⟩ := half_range n
  constructor <;> linarith

theorem bindImgEdge_inside {img : QImage} (wide : 7 ≤ img.width) (high : 7 ≤ img.height) (pos : QPointF) :
    InImage img (bindImgEdge img pos + centre img) := by
  have wideRoom : (7 : ℚ) ≤ img.width := by exact_mod_cast wide
  have highRoom : (7 : ℚ) ≤ img.height := by exact_mod_cast high
  have edge : 2 * penLineWidth / 3 = 4 / 3 := by
    unfold penLineWidth
    norm_num
  unfold bindImgEdge InImage
  simp only [edge]
  have x := clamp_range (mapToImg img pos).x (4 / 3) (img.width - 4 / 3) (by linarith)
  have y := clamp_range (mapToImg img pos).y (4 / 3) (img.height - 4 / 3) (by linarith)
  obtain ⟨x0, x1⟩ := axis_inside wide x.1 x.2
  obtain ⟨y0, y1⟩ := axis_inside high y.1 y.2
  exact ⟨x0, x1, y0, y1⟩

def YPolygonPoints.Inside (img : QImage) (points : YPolygonPoints) : Prop :=
  ∀ vertex ∈ points.imgPoints, InImage img vertex

namespace YPolygonPoints

variable {img : QImage} {points result : YPolygonPoints} {point : QPointF}

theorem Inside.append (inside : points.Inside img) (new : InImage img (point + points.offset)) :
    (points.append point).Inside img := by
  intro vertex member
  rcases List.mem_append.mp member with member | member
  · exact inside vertex member
  · rw [List.mem_singleton.mp member]
    exact new

theorem Inside.replace (inside : points.Inside img) (new : InImage img (point + points.offset)) {pos : ℤ}
    (done : points.replace point pos = .ok result) : result.Inside img := by
  obtain ⟨_, _, _, _, imgPoints⟩ := replace_completes done
  intro vertex member
  rw [imgPoints] at member
  rcases List.mem_or_eq_of_mem_set member with member | rfl
  · exact inside vertex member
  · exact new

theorem Inside.insert (inside : points.Inside img) (new : InImage img (point + points.offset)) {pos : ℤ}
    (done : points.insert point pos = .ok result) : result.Inside img := by
  obtain ⟨_, _, _, _, imgPoints⟩ := insert_completes done
  intro vertex member
  rw [imgPoints] at member
  rcases List.eq_or_mem_of_mem_insertIdx member with rfl | member
  · exact new
  · exact inside vertex member

theorem Inside.erase (inside : points.Inside img) {idx : ℤ} (done : points.erase idx = .ok result) :
    result.Inside img := by
  obtain ⟨_, _, _, _, imgPoints⟩ := erase_completes done
  intro vertex member
  rw [imgPoints] at member
  exact inside vertex (List.mem_of_mem_eraseIdx member)

theorem Paired.translate_imgPoints (paired : points.Paired point) (delta : QPointF) :
    (points.translate delta).imgPoints = points.imgPoints.map (· + delta) := by
  rw [paired.aligned, List.map_map]
  apply List.map_congr_left
  intro vertex _
  ext
  · simp only [Function.comp, QPointF.add_x]
    ring
  · simp only [Function.comp, QPointF.add_y]
    ring

end YPolygonPoints

def Shape.nearBorder (img : QImage) (s : Shape) (delta : QPointF) : Option QPointF :=
  s.points.imgPoints.find? fun vertex => beyondX img delta vertex || beyondY img delta vertex

/-- On each axis on which the displacement is not cancelled for the first vertex near a border, no
    vertex leaves the image. -/
structure Shape.DragFits (img : QImage) (s : Shape) (delta : QPointF) : Prop where
  x : ∀ first, s.nearBorder img delta = some first → beyondX img delta first = false →
    ∀ vertex ∈ s.points.imgPoints, 0 ≤ vertex.x + delta.x ∧ vertex.x + delta.x ≤ img.width
  y : ∀ first, s.nearBorder img delta = some first → beyondY img delta first = false →
    ∀ vertex ∈ s.points.imgPoints, 0 ≤ vertex.y + delta.y ∧ vertex.y + delta.y ≤ img.height

theorem inside_of_not_beyond {img : QImage} {delta vertex : QPointF}
    (near : (beyondX img delta vertex || beyondY img delta vertex) = false) : InImage img (vertex + delta) := by
  have margin : dragMargin = 10 / 3 := by
    unfold dragMargin penLineWidth
    norm_num
  simp only [beyondX, beyondY, margin, Bool.or_eq_false_iff, decide_eq_false_iff_not, not_lt] at near
  obtain ⟨⟨x1, x0⟩, y1, y0⟩ := near
  refine ⟨?_, ?_, ?_, ?_⟩ <;> simp only [QPointF.add_x, QPointF.add_y] <;> linarith

theorem inside_translate_iff {img : QImage} {points : YPolygonPoints} (centred : points.Paired (centre img))
    (delta : QPointF) :
    (points.translate delta).Inside img ↔ ∀ vertex ∈ points.imgPoints, InImage img (vertex + delta) := by
  unfold YPolygonPoints.Inside
  rw [centred.translate_imgPoints, List.forall_mem_map]

theorem isCloseToEdge_far {img : QImage} {s : Shape} {delta : QPointF} (found : s.nearBorder img delta = none) :
    (isCloseToEdge img s delta).2 = delta := by
  unfold Shape.nearBorder at found
  simp only [isCloseToEdge, found]

theorem isCloseToEdge_near {img : QImage} {s : Shape} {delta first : QPointF}
    (found : s.nearBorder img delta = some first) : (isCloseToEdge img s delta).2 =
      ⟨if beyondX img delta first then 0 else delta.x, if beyondY img delta first then 0 else delta.y⟩ := by
  unfold Shape.nearBorder at found
  simp only [isCloseToEdge, found]

theorem uncancelled_axis {cancelled : Bool} {place shift bound : ℚ} (inside : 0 ≤ place ∧ place ≤ bound) :
    (0 ≤ place + (if cancelled then 0 else shift) ∧ place + (if cancelled then 0 else shift) ≤ bound) ↔
      (cancelled = false → 0 ≤ place + shift ∧ place + shift ≤ bound) := by
  cases cancelled with
  | true => simpa using inside
  | false => simp

theorem drag_inside_iff {img : QImage} {s : Shape} (centred : s.points.Paired (centre img))
    (inside : s.points.Inside img) (delta : QPointF) :
    (s.points.translate (isCloseToEdge img s delta).2).Inside img ↔ s.DragFits img delta := by
  rw [inside_translate_iff centred]
  cases found : s.nearBorder img delta with
  | none =>
    rw [isCloseToEdge_far found]
    refine iff_of_true ?_ ⟨by simp [found], by simp [found]⟩
    intro vertex member
    have near := List.find?_eq_none.mp found vertex member
    exact inside_of_not_beyond (Bool.eq_false_iff.mpr near)
  | some first =>
    rw [isCloseToEdge_near found]
    constructor
    · intro after
      constructor
      · intro other same free vertex member
        rw [found] at same
        cases same
        obtain ⟨x0, x1, _⟩ := after vertex member
        exact (uncancelled_axis ⟨(inside vertex member).1, (inside vertex member).2.1⟩).mp ⟨x0, x1⟩ free
      · intro other same free vertex member
        rw [found] at same
        cases same
        obtain ⟨_, _, y0, y1⟩ := after vertex member
        exact (uncancelled_axis (inside vertex member).2.2).mp ⟨y0, y1⟩ free
    · intro fits vertex member
      obtain ⟨x0, x1, y0, y1⟩ := inside vertex member
      have x := (uncancelled_axis ⟨x0, x1⟩).mpr fun free => fits.x first found free vertex member
      have y := (uncancelled_axis ⟨y0, y1⟩).mpr fun free => fits.y first found free vertex member
      exact ⟨x.1, x.2, y.1, y.2⟩

/-- The mouse moves that keep the vertices inside, judged by the shape they drag. -/
def CanvasEvent.DragsInside (c : Canvas2D) : CanvasEvent → Prop
  | .mouseMove pos => ∀ img shape, c.image = some img → c.task = .segmentation → c.operat = .edit →
      c.dragTarget = some shape → (c.heap shape).DragFits img (bindImgEdge img pos - c.lastPressPos)
  | _ => True

def Command.PointInside (img : QImage) : Command → Prop
  | .addPoint _ point _ => InImage img (point + centre img)
  | _ => True

def CanvasBase.AllCentred (img : QImage) (c : CanvasBase) : Prop :=
  ∀ shape < c.next, (c.heap shape).points.Paired (centre img)

structure Canvas2D.Framed (img : QImage) (c : Canvas2D) : Prop where
  placed : c.Placed
  image : c.image = some img
  centred : c.AllCentred img
  done : ∀ command ∈ c.undoStack.done, command.PointInside img
  undone : ∀ command ∈ c.undoStack.undone, command.PointInside img

def CanvasBase.Inside (img : QImage) (c : CanvasBase) : Prop :=
  ∀ shape < c.next, (c.heap shape).points.Inside img

theorem Command.redo_pointInside {img : QImage} {command recorded : Command} {c d : CanvasBase}
    (done : command.redo c = .ok (recorded, d)) (inside : command.PointInside img) : recorded.PointInside img := by
  cases command with
  | addShape shape shapeName =>
    obtain ⟨⟨_, _⟩, _, rest⟩ := bind_completes done
    cases rest
    exact inside
  | removeShape shape shapeName =>
    obtain ⟨_, _, rest⟩ := bind_completes done
    cases rest
    exact inside
  | addPoint shape point pointName =>
    cases done
    exact inside

theorem Command.undo_pointInside {img : QImage} {command recorded : Command} {c d : CanvasBase}
    (done : command.undo c = .ok (recorded, d)) (inside : command.PointInside img) : recorded.PointInside img := by
  cases command with
  | addShape shape shapeName =>
    obtain ⟨_, _, rest⟩ := bind_completes done
    cases rest
    exact inside
  | removeShape shape shapeName =>
    obtain ⟨⟨_, _⟩, _, rest⟩ := bind_completes done
    cases rest
    exact inside
  | addPoint shape point pointName =>
    obtain ⟨_, _, rest⟩ := bind_completes done
    cases rest
    exact inside

namespace CanvasBase

variable {img : QImage} {c d : CanvasBase}

theorem inside_of_outline (next : d.next = c.next) (same : ∀ shape, SameOutline (c.heap shape) (d.heap shape)) :
    d.Inside img ↔ c.Inside img := by
  unfold Inside
  rw [next]
  apply forall₂_congr
  intro shape _
  rw [(same shape).points]

theorem inside_modify (inside : c.Inside img) {shape : ShapeId} (known : shape < c.next) {f : Shape → Shape}
    (changed : Untouched (c.modifyShape shape f) d) :
    d.Inside img ↔ (f (c.heap shape)).points.Inside img := by
  have next : d.next = c.next := changed.next
  constructor
  · intro all
    have here := all shape (by rw [next]; exact known)
    rwa [(changed.outline shape).points, modifyShape_heap_same] at here
  · intro here other bound
    rw [next] at bound
    rw [(changed.outline other).points]
    by_cases same : other = shape
    · subst same
      rw [modifyShape_heap_same]
      exact here
    · rw [modifyShape_heap_other _ _ _ same]
      exact inside other bound

theorem appended_points_kept (centred : c.AllCentred img) (inside : c.Inside img) (shape : ShapeId) :
    (c.appended shape).AllCentred img ∧ (c.appended shape).Inside img := by
  constructor
  · intro other bound
    rw [(Command.appended_outline c shape other).points]
    exact centred other bound
  · intro other bound
    rw [(Command.appended_outline c shape other).points]
    exact inside other bound

theorem thinned_points_kept (centred : c.AllCentred img) (inside : c.Inside img) (thinned : Command.Thinned c d) :
    d.AllCentred img ∧ d.Inside img := by
  unfold AllCentred Inside
  rw [thinned.heap, thinned.next]
  exact ⟨centred, inside⟩

end CanvasBase

namespace Canvas2D

variable {img : QImage} {c d : Canvas2D} {shape : ShapeId} {containsPoint : List QPointF → QPointF → Bool}

theorem Framed.still (framed : c.Framed img) (still : Still c d) : d.Framed img where
  placed := framed.placed.still still
  image := still.base.image.trans framed.image
  centred shape bound := by
    rw [(still.base.outline shape).points]
    exact framed.centred shape (still.base.next ▸ bound)
  done := by
    rw [still.undoStack]
    exact framed.done
  undone := by
    rw [still.undoStack]
    exact framed.undone

theorem Still.inside (still : Still c d) : d.Inside img ↔ c.Inside img :=
  CanvasBase.inside_of_outline still.base.next still.base.outline

theorem Framed.centred_modify (framed : c.Framed img) {f : Shape → Shape}
    (changed : Untouched (c.toCanvasBase.modifyShape shape f) d.toCanvasBase)
    (new : (f (c.heap shape)).points.Paired (centre img)) :
    ∀ other < d.next, (d.heap other).points.Paired (centre img) := by
  intro other bound
  have next : d.next = c.next := changed.next
  rw [(changed.outline other).points]
  by_cases same : other = shape
  · subst same
    rw [CanvasBase.modifyShape_heap_same]
    exact new
  · rw [CanvasBase.modifyShape_heap_other _ _ _ same]
    exact framed.centred other (next ▸ bound)

theorem Framed.modify (framed : c.Framed img) {f : Shape → Shape}
    (changed : Untouched (c.toCanvasBase.modifyShape shape f) d.toCanvasBase)
    (stack : d.undoStack = c.undoStack) (new : (f (c.heap shape)).points.Paired (centre img)) : d.Framed img where
  placed := framed.placed.of_same changed.next changed.shapeList stack
  image := changed.image.trans framed.image
  centred := framed.centred_modify changed new
  done := by
    rw [stack]
    exact framed.done
  undone := by
    rw [stack]
    exact framed.undone

theorem Framed.takesPoint (framed : c.Framed img) {pixPos : QPointF} {closes : Bool} (known : shape < c.next)
    (new : InImage img (pixPos + centre img)) (takes : TakesPoint shape pixPos closes c d) : d.Framed img where
  placed := framed.placed.takesPoint known takes
  image := takes.base.image.trans framed.image
  centred := framed.centred_modify takes.base ((framed.centred shape known).append pixPos)
  done := by
    rw [takes.undoStack, List.forall_mem_cons]
    exact ⟨new, framed.done⟩
  undone := by
    rw [takes.undoStack]
    simp

theorem TakesPoint.inside (framed : c.Framed img) (inside : c.Inside img) {pixPos : QPointF} {closes : Bool}
    (known : shape < c.next) (new : InImage img (pixPos + centre img))
    (takes : TakesPoint shape pixPos closes c d) : d.Inside img := by
  rw [CanvasBase.inside_modify inside known takes.base]
  apply (inside shape known).append
  rw [(framed.centred shape known).offset_eq]
  exact new

theorem started_points (c : CanvasBase) (img : QImage) {other : ShapeId}
    (bound : other < (started c img).next) :
    ((started c img).heap other).points = YPolygonPoints.empty.setImgWH img.width img.height ∨
      other < c.next ∧ (started c img).heap other = c.heap other := by
  by_cases new : other = c.next
  · subst new
    exact .inl (started_heap_next c img).1
  · have old : other < c.next := Nat.lt_of_le_of_ne (Nat.le_of_lt_succ bound) new
    exact .inr ⟨old, started_heap_other c img new⟩

theorem Framed.addShape (framed : c.Framed img) (added : CanvasView.addShape c = .ok d) : d.Framed img := by
  obtain ⟨read, image, _, base, stack⟩ := addShape_completes added
  have same : read = img := Option.some.inj (image.symm.trans framed.image)
  subst same
  refine ⟨(framed.placed.addShape added).1, ?_, ?_, ?_, ?_⟩
  · rw [base]
    exact framed.image
  · rw [base]
    intro other bound
    rcases started_points c.toCanvasBase read bound with fresh | ⟨old, same⟩
    · rw [fresh]
      exact ⟨rfl, rfl⟩
    · rw [same]
      exact framed.centred other old
  · rw [stack, List.forall_mem_cons]
    exact ⟨trivial, framed.done⟩
  · rw [stack]
    simp

theorem addShape_inside (inside : c.Inside img) (added : CanvasView.addShape c = .ok d) : d.Inside img := by
  obtain ⟨read, _, _, base, _⟩ := addShape_completes added
  rw [base]
  intro other bound
  rcases started_points c.toCanvasBase read bound with fresh | ⟨old, same⟩
  · rw [fresh]
    intro vertex member
    cases member
  · rw [same]
    exact inside other old

theorem dragsInside_iff {shape : ShapeId} {pos : QPointF} (image : c.image = some img)
    (task : c.task = .segmentation) (operat : c.operat = .edit) (target : c.dragTarget = some shape) :
    CanvasEvent.DragsInside c (.mouseMove pos) ↔
      (c.heap shape).DragFits img (bindImgEdge img pos - c.lastPressPos) := by
  constructor
  · intro good
    exact good img shape image task operat target
  · intro good read other image' _ _ target'
    rw [image] at image'
    cases image'
    rw [target] at target'
    cases target'
    exact good

section Events

variable (wide : 7 ≤ img.width) (high : 7 ≤ img.height)

include wide high

theorem mousePress_inside {pos : QPointF} {leftButton : Bool} {reply : DialogReply} (framed : c.Framed img)
    (inside : c.Inside img) (pressed : c.mousePressEvent containsPoint pos leftButton reply = .ok d) :
    d.Framed img ∧ d.Inside img := by
  obtain ⟨read, image, cases⟩ := mousePressEvent_completes pressed
  have same : read = img := Option.some.inj (image.symm.trans framed.image)
  subst same
  have new := bindImgEdge_inside wide high pos
  rcases cases with ⟨still, _⟩ | ⟨shape, _, found, _, _, takes⟩ | ⟨_, _, begun, added, takes⟩
  · exact ⟨framed.still still, still.inside.mpr inside⟩
  · have known := framed.placed.listed shape (drawn_mem found)
    exact ⟨framed.takesPoint known new takes, takes.inside framed inside known new⟩
  · have framed' := framed.addShape added
    have known := (framed.placed.addShape added).2
    exact ⟨framed'.takesPoint known new takes, takes.inside framed' (addShape_inside inside added) known new⟩

theorem mouseDoubleClick_inside {pos : QPointF} {leftButton : Bool} {reply : DialogReply}
    (framed : c.Framed img) (inside : c.Inside img)
    (clicked : c.mouseDoubleClickEvent containsPoint pos leftButton reply = .ok d) :
    d.Framed img ∧ d.Inside img := by
  rcases mouseDoubleClickEvent_completes clicked with
    ⟨_, rfl⟩ | ⟨shape, found, _, points, finished, erased, still, pressed⟩ | ⟨_, pressed⟩
  · exact ⟨framed, inside⟩
  · have changed : Untouched (c.toCanvasBase.modifyShape shape fun s => { s with points, isClosed := true })
        finished.toCanvasBase := still.base
    have known := framed.placed.listed shape (drawn_mem found)
    have framed' : finished.Framed img :=
      framed.modify changed still.undoStack ((framed.centred shape known).erase erased)
    have inside' : finished.Inside img := by
      rw [CanvasBase.inside_modify inside known changed]
      exact (inside shape known).erase erased
    exact mousePress_inside wide high framed' inside' pressed
  · exact mousePress_inside wide high framed inside pressed

theorem mouseMove_inside {pos : QPointF} (framed : c.Framed img) (inside : c.Inside img)
    (task : c.task = .segmentation) (moved : c.mouseMoveEvent containsPoint pos = .ok d) :
    d.Framed img ∧ (d.Inside img ↔ CanvasEvent.DragsInside c (.mouseMove pos)) := by
  rcases mouseMoveEvent_completes moved with
    ⟨still, idle⟩ | ⟨read, image, operat, stack, shape, found, points, reshaped, changed⟩
  · refine ⟨framed.still still, iff_of_true (still.inside.mpr inside) ?_⟩
    intro other shape image task operat target
    rw [idle task operat (by rw [image]; exact Option.some_ne_none _)] at target
    cases target
  · have same : read = img := Option.some.inj (image.symm.trans framed.image)
    subst same
    have known := framed.placed.listed shape (List.mem_of_find?_eq_some found)
    have centred := framed.centred shape known
    have insideBefore := inside shape known
    have new : InImage read (bindImgEdge read pos + (c.heap shape).points.offset) := by
      rw [centred.offset_eq]
      exact bindImgEdge_inside wide high pos
    have judged := CanvasBase.inside_modify inside known changed
    have idle : c.drags (c.heap shape) = false → CanvasEvent.DragsInside c (.mouseMove pos) := by
      intro still img other _ _ _ target
      rw [CanvasBase.dragTarget, found, Option.filter_some, still] at target
      cases target
    cases reshaped with
    | inserted still _ done =>
      refine ⟨framed.modify changed stack (centred.insert done), iff_of_true ?_ (idle still)⟩
      rw [judged]
      exact insideBefore.insert new done
    | appended still _ =>
      refine ⟨framed.modify changed stack (centred.append _), iff_of_true ?_ (idle still)⟩
      rw [judged]
      exact insideBefore.append new
    | updated still done =>
      refine ⟨framed.modify changed stack (centred.replace done), iff_of_true ?_ (idle still)⟩
      rw [judged]
      exact insideBefore.replace new done
    | moved drag =>
      refine ⟨framed.modify changed stack (centred.translate _), ?_⟩
      have target : c.dragTarget = some shape := by
        rw [CanvasBase.dragTarget, found, Option.filter_some, drag]
        rfl
      rw [judged, dragsInside_iff image task operat target]
      exact drag_inside_iff centred insideBefore (bindImgEdge read pos - c.lastPressPos)

end Events

theorem undo_inside (framed : c.Framed img) (inside : c.Inside img) (undone : c.undo = .ok d) :
    d.Framed img ∧ d.Inside img := by
  rcases undo_completes undone with ⟨_, rfl⟩ | ⟨command, done, recorded, list, called, stack⟩
  · exact ⟨framed, inside⟩
  · have placed := (framed.placed.undo undone).1
    have image := (undo_sameView undone).image.trans framed.image
    have commands := framed.done
    rw [list, List.forall_mem_cons] at commands
    have kept : (∀ command ∈ d.undoStack.done, command.PointInside img) ∧
        ∀ command ∈ d.undoStack.undone, command.PointInside img := by
      rw [stack, List.forall_mem_cons]
      exact ⟨commands.2, Command.undo_pointInside called commands.1, framed.undone⟩
    have points : d.AllCentred img ∧ d.Inside img := by
      rcases Command.undo_cases called with
        ⟨shape, _, _, base⟩ | ⟨shape, _, _, deleted, rfl, erased, base⟩ | ⟨_, thinned⟩
      · rw [base]
        exact CanvasBase.appended_points_kept framed.centred inside shape
      · have changed : Untouched (c.toCanvasBase.modifyShape shape fun _ => deleted) d.toCanvasBase := by
          rw [base]
          exact Untouched.refl _
        have known : shape < c.next := by
          have below := framed.placed.done _ (by rw [list]; exact List.mem_cons_self)
          exact below shape rfl
        rw [CanvasBase.inside_modify inside known changed]
        rcases Shape.deletePoint_completes erased with ⟨_, rfl⟩ | ⟨_, points, taken, rfl⟩
        · exact ⟨framed.centred_modify changed (framed.centred shape known), inside shape known⟩
        · exact ⟨framed.centred_modify changed ((framed.centred shape known).erase taken),
            (inside shape known).erase taken⟩
      · exact CanvasBase.thinned_points_kept framed.centred inside thinned
    exact ⟨⟨placed, image, points.1, kept.1, kept.2⟩, points.2⟩

theorem redo_inside (framed : c.Framed img) (inside : c.Inside img) (redone : c.redo = .ok d) :
    d.Framed img ∧ d.Inside img := by
  rcases redo_completes redone with ⟨_, rfl⟩ | ⟨command, undone, recorded, list, called, stack⟩
  · exact ⟨framed, inside⟩
  · have placed := (framed.placed.redo redone).1
    have image := (redo_sameView redone).image.trans framed.image
    have commands := framed.undone
    rw [list, List.forall_mem_cons] at commands
    have kept : (∀ command ∈ d.undoStack.done, command.PointInside img) ∧
        ∀ command ∈ d.undoStack.undone, command.PointInside img := by
      rw [stack, List.forall_mem_cons]
      exact ⟨⟨Command.redo_pointInside called commands.1, framed.done⟩, commands.2⟩
    have points : d.AllCentred img ∧ d.Inside img := by
      rcases Command.redo_cases called with
        ⟨shape, _, _, base⟩ | ⟨shape, point, _, rfl, base⟩ | ⟨_, thinned⟩
      · rw [base]
        exact CanvasBase.appended_points_kept framed.centred inside shape
      · have changed : Untouched (c.toCanvasBase.modifyShape shape (·.appendPoint point)) d.toCanvasBase := by
          rw [base]
          exact Untouched.refl _
        have known : shape < c.next := by
          have below := framed.placed.undone _ (by rw [list]; exact List.mem_cons_self)
          exact below shape rfl
        have centred := framed.centred shape known
        have new : InImage img (point + (c.heap shape).points.offset) := by
          rw [centred.offset_eq]
          exact commands.1
        rw [CanvasBase.inside_modify inside known changed]
        exact ⟨framed.centred_modify changed (centred.append point), (inside shape known).append new⟩
      · exact CanvasBase.thinned_points_kept framed.centred inside thinned
    exact ⟨⟨placed, image, points.1, kept.1, kept.2⟩, points.2⟩

theorem handle_inside (wide : 7 ≤ img.width) (high : 7 ≤ img.height) {event : CanvasEvent} (framed : c.Framed img)
    (inside : c.Inside img) (task : c.task = .segmentation) (handled : c.handle containsPoint event = .ok d) :
    d.Framed img ∧ (d.Inside img ↔ event.DragsInside c) := by
  have unconditional : event.DragsInside c → d.Framed img ∧ d.Inside img →
      d.Framed img ∧ (d.Inside img ↔ event.DragsInside c) :=
    fun fits kept => ⟨kept.1, iff_of_true kept.2 fits⟩
  cases event with
  | mouseMove pos => exact mouseMove_inside wide high framed inside task handled
  | mousePress pos leftButton reply =>
    exact unconditional trivial (mousePress_inside wide high framed inside handled)
  | mouseDoubleClick pos leftButton reply =>
    exact unconditional trivial (mouseDoubleClick_inside wide high framed inside handled)
  | mouseRelease pos =>
    have still := mouseReleaseEvent_still handled
    exact unconditional trivial ⟨framed.still still, still.inside.mpr inside⟩
  | hoverMove pos =>
    have still := hoverMoveEvent_still handled
    exact unconditional trivial ⟨framed.still still, still.inside.mpr inside⟩
  | keyPress enter reply =>
    rcases keyPressEvent_completes handled with ⟨shape, _, found, _, still⟩ | ⟨still, _⟩
    · have changed : Untouched (c.toCanvasBase.modifyShape shape (·.setIsClosed true)) d.toCanvasBase := still.base
      have known := framed.placed.listed shape (drawn_mem found)
      have kept : d.Inside img := by
        rw [CanvasBase.inside_modify inside known changed]
        exact inside shape known
      exact unconditional trivial ⟨framed.modify changed still.undoStack (framed.centred shape known), kept⟩
    · exact unconditional trivial ⟨framed.still still, still.inside.mpr inside⟩
  | undo => exact unconditional trivial (undo_inside framed inside handled)
  | redo => exact unconditional trivial (redo_inside framed inside handled)
  | changeDrawMode mode =>
    cases handled
    exact unconditional trivial
      ⟨⟨framed.placed.of_same rfl rfl rfl, framed.image, framed.centred, framed.done, framed.undone⟩, inside⟩
  | changeOperatMode mode =>
    cases handled
    exact unconditional trivial
      ⟨⟨framed.placed.of_same rfl rfl rfl, framed.image, framed.centred, framed.done, framed.undone⟩, inside⟩
  | creatPolygon => exact unconditional trivial ⟨framed.addShape handled, addShape_inside inside handled⟩

theorem loaded_framed (img : QImage) : (loaded img).Framed img := by
  refine ⟨loaded_placed img, rfl, ?_, ?_, ?_⟩ <;> intro _ member <;> cases member

/-- In every state of a run every vertex of every shape made so far lies inside the image exactly
    when every mouse move of the run drags a shape that fits. -/
theorem vertices_inside_iff (containsPoint : List QPointF → QPointF → Bool) (img : QImage)
    (wide : 7 ≤ img.width) (high : 7 ≤ img.height) (events : List CanvasEvent) :
    (∀ reached ∈ visited (handle containsPoint) (loaded img) events, ∀ shape < reached.next,
        ∀ vertex ∈ (reached.heap shape).points.imgPoints, InImage img vertex) ↔
      Along (handle containsPoint) (fun state event => event.DragsInside state) (loaded img) events := by
  have initial : (loaded img).Inside img := by
    intro _ member
    cases member
  apply visited_invariant_iff (fun c : Canvas2D => c.Framed img ∧ c.task = .segmentation) _
    ⟨loaded_framed img, rfl⟩ initial
  rintro state event next ⟨framed, task⟩ inside handled
  obtain ⟨framed', judged⟩ := handle_inside wide high framed inside task handled
  exact ⟨⟨framed', (handle_sameView handled).task.trans task⟩, judged⟩

theorem drawn_rectangle_inside :
    ∃ last, run (handle fun _ _ => false) (loaded blankImage)
        [.changeDrawMode .rectangle, .mousePress ⟨0, -40⟩ true none, .mousePress ⟨400, 0⟩ true none] = .ok last ∧
      (last.heap 0).points.imgPoints = [⟨50, 10⟩, ⟨296 / 3, 50⟩] ∧
      ∀ reached ∈ visited (handle fun _ _ => false) (loaded blankImage)
          [.changeDrawMode .rectangle, .mousePress ⟨0, -40⟩ true none, .mousePress ⟨400, 0⟩ true none],
        ∀ shape < reached.next, ∀ vertex ∈ (reached.heap shape).points.imgPoints, InImage blankImage vertex := by
  have observed : (run (handle fun _ _ => false) (loaded blankImage)
      [.changeDrawMode .rectangle, .mousePress ⟨0, -40⟩ true none, .mousePress ⟨400, 0⟩ true none]).map
        (fun c => (c.heap 0).points.imgPoints) = .ok [⟨50, 10⟩, ⟨296 / 3, 50⟩] := by decide +kernel
  obtain ⟨last, done, seen⟩ := map_completes observed
  refine ⟨last, done, seen, ?_⟩
  rw [vertices_inside_iff _ blankImage (by decide) (by decide)]
  apply along_of_forall
  intro state event member
  simp only [List.mem_cons, List.not_mem_nil, or_false] at member
  rcases member with rfl | rfl | rfl <;> trivial

/-- A rectangle from (50, 10) to (90, 50) in image coordinates, gripped at (60, 40) and pulled to
    (80, 32): the first vertex is near the top border only, so the shape moves 20 to the right. -/
theorem rectangle_dragged_outside :
    ∃ reached ∈ visited (handle fun _ _ => false) (loaded blankImage)
        [.changeDrawMode .rectangle, .mousePress ⟨0, -40⟩ true none, .mousePress ⟨40, 0⟩ true none,
          .changeOperatMode .edit, .mousePress ⟨10, -10⟩ true none, .mouseMove ⟨30, -18⟩],
      ∃ vertex ∈ (reached.heap 0).points.imgPoints, 0 < reached.next ∧ ¬ InImage blankImage vertex := by
  have observed : (run (handle fun _ _ => false) (loaded blankImage)
      [.changeDrawMode .rectangle, .mousePress ⟨0, -40⟩ true none, .mousePress ⟨40, 0⟩ true none,
        .changeOperatMode .edit, .mousePress ⟨10, -10⟩ true none, .mouseMove ⟨30, -18⟩]).map
        (fun c => (c.next, (c.heap 0).points.imgPoints)) = .ok (1, [⟨70, 10⟩, ⟨110, 50⟩]) := by
    decide +kernel
  obtain ⟨reached, done, seen⟩ := map_completes observed
  simp only [Prod.mk.injEq] at seen
  obtain ⟨next, vertices⟩ := seen
  refine ⟨reached, run_mem_visited done, ⟨110, 50⟩, by simp [vertices], by rw [next]; decide, ?_⟩
  rintro ⟨_, right, _⟩
  norm_num [blankImage] at right

end Canvas2D

end XYAnnotation

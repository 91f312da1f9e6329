import XYAnnotation.Annotations.EdgeHits
import XYAnnotation.Canvas.Grips

namespace XYAnnotation

open Library

namespace Shape

variable {s : Shape} {p : QPointF} {k : ℕ}

/-- No edge is hit but those that meet in vertex `k`. -/
def ClearOf (s : Shape) (p : QPointF) (k : ℕ) : Prop :=
  ∀ j, j ≠ k → (j + 1) % s.pointCount ≠ k → ¬ s.HitAt p j

theorem isPtsHavPt_found (found : s.isPtsHavPt p = some k) :
    ∃ vertex, s.points.oriPoints[k]? = some vertex ∧ ¬ senseDis < p.distance vertex := by
  obtain ⟨inside, hit, _⟩ := List.findIdx?_eq_some_iff_getElem.mp found
  refine ⟨s.points.oriPoints[k], List.getElem?_eq_getElem inside, ?_⟩
  rw [outside_iff, not_not, ← sq, ← sq, ← sq]
  exact manhattan_le_sq (of_decide_eq_true hit)

theorem HitAt.apart_of_vertex {j : ℕ} (hit : s.HitAt p j) (found : s.isPtsHavPt p = some k) :
    j ≠ k ∧ (j + 1) % s.pointCount ≠ k := by
  obtain ⟨vertex, here, inside⟩ := isPtsHavPt_found found
  obtain ⟨a, b, ⟨first, second⟩, _, outside, outside', _⟩ := hit
  constructor
  · rintro rfl
    rw [Option.some.inj (here.symm.trans first)] at inside
    exact inside outside
  · intro same
    rw [same] at second
    rw [Option.some.inj (here.symm.trans second)] at inside
    exact inside outside'

theorem isEdgeHavPt_clear_iff (tests : s.testsEdges = true) (found : s.isPtsHavPt p = some k) :
    s.isEdgeHavPt p = none ↔ s.ClearOf p k := by
  have clear : s.ClearOf p k ↔ ∀ j, ¬ s.HitAt p j := by
    constructor
    · intro clear j hit
      obtain ⟨start, stop⟩ := hit.apart_of_vertex found
      exact clear j start stop hit
    · intro missed j _ _
      exact missed j
  rw [clear]
  by_cases two : 2 ≤ s.pointCount
  · exact isEdgeHavPt_none_iff tests two
  · have alone : s.isEdgeHavPt p = none := by
      have few : s.points.size < 2 := not_le.mp two
      unfold isEdgeHavPt
      split
      · rfl
      · rfl
      · rw [if_pos few]
    refine iff_of_true alone ?_
    intro j hit
    have inside := hit.inside
    obtain ⟨_, here, _⟩ := isPtsHavPt_found found
    have bound : k < s.pointCount := (List.getElem?_eq_some_iff.mp here).1
    exact (hit.apart_of_vertex found).1 (by omega)

theorem clearOf_congr {t : Shape} (points : t.points = s.points) : t.ClearOf p k ↔ s.ClearOf p k := by
  unfold ClearOf HitAt IsEdge pointCount
  rw [points]

end Shape

namespace CanvasBase

variable {containsPoint : List QPointF → QPointF → Bool} {pixPos : QPointF} {c : CanvasBase} {shape : ShapeId} {k : ℕ}

theorem editPress_single (single : c.shapeList = [shape]) (drag : c.mouseDrag = false) {found : Hit}
    (first : c.hit containsPoint pixPos shape = some found) :
    c.editPress containsPoint pixPos =
      .ok ({ c with activePoint := -1, insertPoint := -1 }.grab pixPos shape found) := by
  have same : hit containsPoint pixPos { c with activePoint := -1, insertPoint := -1 } shape = some found := first
  have looked : loop (pressShape containsPoint pixPos) { c with activePoint := -1, insertPoint := -1 } [shape] =
      .ok ({ c with activePoint := -1, insertPoint := -1 }.grab pixPos shape found) := by
    rw [loop, pressShape_eq, same]
  rw [editPress, if_neg (by simp [drag])]
  exact (congrArg (loop _ _) single).trans looked

theorem hit_polygon (containsPoint : List QPointF → QPointF → Bool) (draw : c.draw = .polygon) (editable : c.editable shape = true)
    (vertex : (c.heap shape).isPtsHavPt pixPos = some k) :
    c.hit containsPoint pixPos shape = some (((c.heap shape).isEdgeHavPt pixPos).elim (.vertex k) .edge) := by
  unfold hit
  rw [draw, editable, vertex]
  cases (c.heap shape).isEdgeHavPt pixPos <;> rfl

theorem grabbed_iff (c : CanvasBase) (pixPos : QPointF) (shape : ShapeId) (k : ℕ) (onEdge : Option ℕ) :
    let grabbed := { c with activePoint := -1, insertPoint := -1 }.grab pixPos shape (onEdge.elim (.vertex k) .edge)
    grabbed.activePoint = (k : ℤ) ∧ grabbed.insertPoint = -1 ↔ onEdge = none := by
  cases onEdge with
  | none => exact iff_of_true ⟨rfl, rfl⟩ rfl
  | some pos =>
    refine iff_of_false ?_ (by simp)
    rintro ⟨active, _⟩
    have absent : (-1 : ℤ) = k := active
    omega

def highlight (c : CanvasBase) (shape : ShapeId) (onVertex : Option ℕ) (active : Bool) : CanvasBase :=
  c.modifyShape shape fun s => { s with controlPtActive := orNone onVertex, isActive := active }

theorem hoverShape_single (containsPoint : List QPointF → QPointF → Bool) (pixPos : QPointF)
    (editable : c.editable shape = true) :
    ∃ active, c.hoverShape containsPoint pixPos shape =
      .ok (c.highlight shape ((c.heap shape).isPtsHavPt pixPos) active, false) := by
  unfold hoverShape
  rw [editable, if_neg (by decide)]
  simp only
  split
  · exact ⟨(c.heap shape).isActive, rfl⟩
  · refine ⟨(c.heap shape).isAreaHavPt containsPoint pixPos, ?_⟩
    simp [highlight, modifyShape, Shape.setControlPtActive, Shape.setIsActive, Shape.isAreaHavPt]

theorem orNone_eq_natCast {found : Option ℕ} : orNone found = (k : ℤ) ↔ found = some k := by
  cases found with
  | none => simp [orNone]
  | some pos => simp [orNone]

end CanvasBase

namespace Canvas2D

open CanvasBase

def Takes (c : Canvas2D) (k : ℕ) : Prop := c.activePoint = k ∧ c.insertPoint = -1

/-- Before the press no vertex is in hand, and only edges that meet in vertex `k` are at the mouse. With a vertex in
    hand the press changes nothing. -/
def TakesVertex (c : Canvas2D) (s : Shape) (p : QPointF) (k : ℕ) : Prop :=
  if c.mouseDrag then c.Takes k else s.ClearOf p k

structure Marked (shape : ShapeId) (onVertex : Option ℕ) (c hovered : Canvas2D) : Prop where
  stage : Stage c.toCanvasBase hovered.toCanvasBase
  draw : hovered.draw = c.draw
  mouseDrag : hovered.mouseDrag = c.mouseDrag
  activePoint : hovered.activePoint = c.activePoint
  insertPoint : hovered.insertPoint = c.insertPoint
  points : (hovered.heap shape).points = (c.heap shape).points
  type : (hovered.heap shape).type = (c.heap shape).type
  editable : hovered.editable shape = c.editable shape
  controlPtActive : (hovered.heap shape).controlPtActive = orNone onVertex

section HoverPress

variable (containsPoint : List QPointF → QPointF → Bool) {c : Canvas2D} {img : QImage} {shape : ShapeId} {k : ℕ}
  {pos : QPointF} (loaded : c.image = some img) (task : c.task = .segmentation) (operat : c.operat = .edit)
include loaded task operat

theorem hoverMoveEvent_marked (pos : QPointF) (single : c.shapeList = [shape]) (editable : c.editable shape = true) :
    ∃ hovered, c.hoverMoveEvent containsPoint pos = .ok hovered ∧
      Marked shape ((c.heap shape).isPtsHavPt (bindImgEdge img pos)) c hovered := by
  obtain ⟨active, done⟩ := hoverShape_single containsPoint (bindImgEdge img pos) editable
  generalize (c.heap shape).isPtsHavPt (bindImgEdge img pos) = onVertex at done ⊢
  refine ⟨{ c with toCanvasBase := c.highlight shape onVertex active }, ?_, ?_⟩
  · simp only [hoverMoveEvent, loaded, task, operat, single, loop, done]
    rfl
  · have heap : (c.highlight shape onVertex active).heap shape =
        { c.heap shape with controlPtActive := orNone onVertex, isActive := active } := modifyShape_heap_same _ _ _
    refine ⟨⟨rfl, rfl, rfl, rfl⟩, rfl, rfl, rfl, rfl, by rw [heap], by rw [heap], ?_, by rw [heap]⟩
    rw [CanvasBase.editable, heap]
    rfl

theorem press_takes_iff (draw : c.draw = .polygon) (single : c.shapeList = [shape])
    (editable : c.editable shape = true) (tests : (c.heap shape).testsEdges = true)
    (vertex : (c.heap shape).isPtsHavPt (bindImgEdge img pos) = some k) (reply : DialogReply) :
    ∃ b, c.mousePressEvent containsPoint pos true reply = .ok b ∧
      (b.Takes k ↔ c.TakesVertex (c.heap shape) (bindImgEdge img pos) k) := by
  unfold TakesVertex
  have press : ∀ base, c.toCanvasBase.editPress containsPoint (bindImgEdge img pos) = .ok base →
      c.mousePressEvent containsPoint pos true reply = .ok { c with toCanvasBase := base } := by
    intro base done
    simp only [mousePressEvent, getImage, loaded, task, operat, Bind.bind, Except.bind, done]
  cases drag : c.mouseDrag with
  | true =>
    refine ⟨c, press c.toCanvasBase ?_, ?_⟩
    · rw [editPress, if_pos drag]
    · rw [if_pos rfl]
  | false =>
    have first := hit_polygon containsPoint draw editable vertex
    refine ⟨_, press _ (editPress_single single drag first), ?_⟩
    rw [if_neg (by decide), ← Shape.isEdgeHavPt_clear_iff tests vertex]
    exact grabbed_iff c.toCanvasBase (bindImgEdge img pos) shape k _

theorem taken_moves (draw : c.draw = .polygon) (single : c.shapeList = [shape])
    (editable : c.editable shape = true) (tests : (c.heap shape).testsEdges = true)
    (vertex : (c.heap shape).isPtsHavPt (bindImgEdge img pos) = some k) (drag : c.mouseDrag = false)
    (clear : (c.heap shape).ClearOf (bindImgEdge img pos) k) {reply : DialogReply} {b : Canvas2D}
    (pressed : c.mousePressEvent containsPoint pos true reply = .ok b) (takes : b.Takes k) (moves : List QPointF) :
    ∃ e, run (handle containsPoint) b (moves.map .mouseMove) = .ok e ∧
      (e.heap shape).points.oriPoints = moves.getLast?.elim (c.heap shape).points.oriPoints fun last =>
        (c.heap shape).points.oriPoints.set k (bindImgEdge img last) := by
  obtain ⟨b', pressed', gripped⟩ := mousePress_gripped containsPoint loaded task operat pos reply
  obtain rfl : b = b' := Except.ok.inj (pressed.symm.trans pressed')
  have first : c.firstHit containsPoint (bindImgEdge img pos) = some (shape, .vertex k) := by
    rw [firstHit, if_neg (by simp [drag]), single, List.findSome?_cons, hit_polygon containsPoint draw editable vertex,
      (Shape.isEdgeHavPt_clear_iff tests vertex).mpr clear]
    rfl
  have hand : c.inHand containsPoint (bindImgEdge img pos) = true := by
    rw [inHand, first, drag]
    rfl
  have press : c.pressed containsPoint (bindImgEdge img pos) shape = true := by
    rw [CanvasBase.pressed, first]
    simp [Hit.grips]
  have target : c.target containsPoint (bindImgEdge img pos) = some shape := by
    rw [CanvasBase.target, single, List.find?_cons, editable, hand, press]
    rfl
  have below : b.insertPoint < 0 := by
    rw [takes.2]
    exact neg_one_lt_zero
  obtain ⟨e, ran, _, points⟩ := moves_vertex containsPoint (gripped.stage.image.trans loaded)
    (gripped.stage.task.trans task) (gripped.stage.operat.trans operat) gripped.holding
    (gripped.find_reacts.trans target) (gripped.mouseDrag.trans hand) ((gripped.isPress shape).trans press) below moves
  refine ⟨e, ran, ?_⟩
  rw [points, gripped.points, takes.1]
  simp only [setAt, Nat.cast_nonneg, if_true, Int.toNat_natCast]

end HoverPress

/-- A press takes the vertex that is marked under the mouse, and the moves after it pull at that vertex, exactly when
    no edge is hit but those that meet in it. -/
theorem press_takes_marked_iff (containsPoint : List QPointF → QPointF → Bool) (c : Canvas2D) (img : QImage)
    (shape : ShapeId) (loaded : c.image = some img) (task : c.task = .segmentation) (operat : c.operat = .edit)
    (draw : c.draw = .polygon) (single : c.shapeList = [shape]) (polygon : (c.heap shape).type = .polygon)
    (closed : (c.heap shape).isClosed = true) (visible : (c.heap shape).label.visible = true) (pos : QPointF)
    (reply : DialogReply) (k : ℕ) :
    ∃ hovered b, c.hoverMoveEvent containsPoint pos = .ok hovered ∧
      hovered.mousePressEvent containsPoint pos true reply = .ok b ∧
      ((hovered.heap shape).controlPtActive = k →
        (b.Takes k ↔ c.TakesVertex (c.heap shape) (bindImgEdge img pos) k) ∧
        (c.mouseDrag = false → b.Takes k → ∀ moves : List QPointF, ∃ e,
          run (handle containsPoint) b (moves.map .mouseMove) = .ok e ∧
          (e.heap shape).points.oriPoints = moves.getLast?.elim (c.heap shape).points.oriPoints fun last =>
            (c.heap shape).points.oriPoints.set k (bindImgEdge img last))) := by
  have editable : c.editable shape = true := by rw [CanvasBase.editable, closed, visible]; rfl
  have tests : (c.heap shape).testsEdges = true := by rw [Shape.testsEdges, polygon]
  obtain ⟨hovered, hovers, still⟩ := hoverMoveEvent_marked containsPoint loaded task operat pos single editable
  have loaded' := still.stage.image.trans loaded
  have task' := still.stage.task.trans task
  have operat' := still.stage.operat.trans operat
  have draw' := still.draw.trans draw
  have single' := still.stage.shapeList.trans single
  have editable' := still.editable.trans editable
  have tests' : (hovered.heap shape).testsEdges = true := by rw [Shape.testsEdges, still.type, polygon]
  obtain ⟨b, pressed, _⟩ := mousePress_gripped containsPoint loaded' task' operat' pos reply
  refine ⟨hovered, b, hovers, pressed, ?_⟩
  intro marked
  have vertex : (hovered.heap shape).isPtsHavPt (bindImgEdge img pos) = some k := by
    rw [Shape.isPtsHavPt, still.points]
    rw [still.controlPtActive] at marked
    exact orNone_eq_natCast.mp marked
  obtain ⟨b', pressed', takes_iff⟩ :=
    press_takes_iff containsPoint loaded' task' operat' draw' single' editable' tests' vertex reply
  obtain rfl : b = b' := Except.ok.inj (pressed.symm.trans pressed')
  have clear_iff := Shape.clearOf_congr (p := bindImgEdge img pos) (k := k) still.points
  unfold TakesVertex Takes at takes_iff ⊢
  rw [still.mouseDrag, still.activePoint, still.insertPoint, clear_iff] at takes_iff
  refine ⟨takes_iff, ?_⟩
  intro drag takes moves
  have clear := takes_iff.mp takes
  rw [if_neg (by simp [drag]), ← clear_iff] at clear
  rw [← still.points]
  exact taken_moves containsPoint loaded' task' operat' draw' single' editable' tests' vertex
    (still.mouseDrag.trans drag) clear pressed takes moves

def dentShown : Canvas2D :=
  { loaded blankImage with
    operat := .edit
    heap := fun _ => (Shape.ofPoints .polygon [⟨-40, -40⟩, ⟨40, -40⟩, ⟨0, -35⟩, ⟨0, 40⟩]).setIsClosed true
    next := 1
    shapeList := [0]
    currentIndex := 0 }

theorem dent_corner_taken :
    ∃ hovered b, dentShown.hoverMoveEvent (fun _ _ => false) ⟨0, 39⟩ = .ok hovered ∧
      hovered.mousePressEvent (fun _ _ => false) ⟨0, 39⟩ true none = .ok b ∧
      (hovered.heap 0).controlPtActive = 3 ∧ b.Takes 3 := by
  obtain ⟨hovered, b, hovers, pressed, taken⟩ := press_takes_marked_iff (fun _ _ => false) dentShown blankImage 0
    rfl rfl rfl rfl rfl rfl rfl rfl ⟨0, 39⟩ none 3
  have observed : (dentShown.hoverMoveEvent (fun _ _ => false) ⟨0, 39⟩).map
      (fun c => (c.heap 0).controlPtActive) = .ok 3 := by decide +kernel
  rw [hovers] at observed
  have marked : (hovered.heap 0).controlPtActive = 3 := Except.ok.inj observed
  refine ⟨hovered, b, hovers, pressed, marked, ?_⟩
  apply (taken marked).1.mpr
  have none : (dentShown.heap 0).isEdgeHavPt (bindImgEdge blankImage ⟨0, 39⟩) = none := by decide +kernel
  exact (Shape.isEdgeHavPt_clear_iff rfl (by decide +kernel)).mp none

theorem dent_not_taken :
    dentShown.operat = .edit ∧ dentShown.draw = .polygon ∧ dentShown.shapeList = [0] ∧ dentShown.mouseDrag = false ∧
      (dentShown.heap 0).type = .polygon ∧ dentShown.editable 0 = true ∧
      ∃ hovered b e, dentShown.hoverMoveEvent (fun _ _ => false) ⟨0, -36⟩ = .ok hovered ∧
        (hovered.heap 0).controlPtActive = 2 ∧
        hovered.mousePressEvent (fun _ _ => false) ⟨0, -36⟩ true none = .ok b ∧
        b.activePoint = -1 ∧ b.insertPoint = 1 ∧ ¬ b.Takes 2 ∧
        run (handle fun _ _ => false) b [.mouseMove ⟨5, -30⟩] = .ok e ∧
        (e.heap 0).points.oriPoints = [⟨-40, -40⟩, ⟨5, -30⟩, ⟨40, -40⟩, ⟨0, -35⟩, ⟨0, 40⟩] := by
  refine ⟨rfl, rfl, rfl, rfl, rfl, rfl, ?_⟩
  have observed : (do
      let hovered ← dentShown.hoverMoveEvent (fun _ _ => false) ⟨0, -36⟩
      let b ← hovered.mousePressEvent (fun _ _ => false) ⟨0, -36⟩ true none
      let e ← run (handle fun _ _ => false) b [.mouseMove ⟨5, -30⟩]
      .ok ((hovered.heap 0).controlPtActive, b.activePoint, b.insertPoint, (e.heap 0).points.oriPoints) :
        Except Fault _) = .ok (2, -1, 1, [⟨-40, -40⟩, ⟨5, -30⟩, ⟨40, -40⟩, ⟨0, -35⟩, ⟨0, 40⟩]) := by decide +kernel
  obtain ⟨hovered, hovers, observed⟩ := bind_completes observed
  obtain ⟨b, pressed, observed⟩ := bind_completes observed
  obtain ⟨e, moved, observed⟩ := bind_completes observed
  simp only [Except.ok.injEq, Prod.mk.injEq] at observed
  obtain ⟨marked, active, insert, points⟩ := observed
  refine ⟨hovered, b, e, hovers, marked, pressed, active, insert, ?_, moved, points⟩
  rintro ⟨taken, _⟩
  rw [active] at taken
  exact absurd taken (by decide)

end Canvas2D

end XYAnnotation

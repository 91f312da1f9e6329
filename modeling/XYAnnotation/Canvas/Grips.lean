import XYAnnotation.Canvas.PointCalls

namespace XYAnnotation

open Library

/-- What a press of edit mode can find of a shape: an edge, with the place where a vertex would be inserted, a vertex,
    or the area. -/
inductive Hit
  | edge (pos : ℕ)
  | vertex (pos : ℕ)
  | area
  deriving DecidableEq

def Hit.grips : Hit → Bool
  | .edge _ | .vertex _ => true
  | .area => false

namespace CanvasBase

section Before

variable (containsPoint : List QPointF → QPointF → Bool) (pixPos : QPointF) (c : CanvasBase)

def hit (shape : ShapeId) : Option Hit :=
  if !c.editable shape then none
  else
    match if c.draw = .polygon ∨ c.draw = .polyline then (c.heap shape).isEdgeHavPt pixPos else none with
    | some pos => some (.edge pos)
    | none =>
      match (c.heap shape).isPtsHavPt pixPos with
      | some pos => some (.vertex pos)
      | none => if (c.heap shape).isAreaHavPt containsPoint pixPos then some .area else none

/-- The shape a press finds. With a vertex still in hand it does not look. -/
def firstHit : Option (ShapeId × Hit) :=
  if c.mouseDrag then none
  else c.shapeList.findSome? fun shape => (c.hit containsPoint pixPos shape).map (shape, ·)

def inHand : Bool := c.mouseDrag || (c.firstHit containsPoint pixPos).any (·.2.grips)

def pressed (shape : ShapeId) : Bool :=
  (c.heap shape).isPress || (c.firstHit containsPoint pixPos).any fun found => found.1 == shape && found.2.grips

def dragged (shape : ShapeId) : Bool :=
  (c.heap shape).isDrag || (c.firstHit containsPoint pixPos).any fun found => found.1 == shape && !found.2.grips

/-- The shape that the moves after the press act on. -/
def target : Option ShapeId :=
  c.shapeList.find? fun shape => c.editable shape &&
    (c.inHand containsPoint pixPos && c.pressed containsPoint pixPos shape || c.dragged containsPoint pixPos shape)

def grip : ℤ × Bool :=
  if c.mouseDrag then if c.insertPoint ≥ 0 then (c.insertPoint, true) else (c.activePoint, false)
  else
    match c.firstHit containsPoint pixPos with
    | some (_, .edge pos) => (pos, true)
    | some (_, .vertex pos) => (pos, false)
    | _ => (-1, false)

end Before

def grab (c : CanvasBase) (pixPos : QPointF) (shape : ShapeId) : Hit → CanvasBase
  | .edge pos => { c with insertPoint := pos, mouseDrag := true }.modifyShape shape
      fun s => (s.setIsPress true).setControlPtActive pos
  | .vertex pos => { c with activePoint := pos, mouseDrag := true }.modifyShape shape
      fun s => (s.setIsPress true).setIsSelect false
  | .area => { c with lastPressPos := pixPos }.modifyShape shape fun s => (s.setIsDrag true).setIsSelect true

variable {containsPoint : List QPointF → QPointF → Bool} {pixPos : QPointF} {img : QImage}
  {c d : CanvasBase} {shape : ShapeId}

theorem pressShape_eq (c : CanvasBase) (shape : ShapeId) : c.pressShape containsPoint pixPos shape =
    .ok (match c.hit containsPoint pixPos shape with
      | some found => (c.grab pixPos shape found, true)
      | none => (if c.editable shape then c.modifyShape shape (·.setIsSelect false) else c, false)) := by
  unfold pressShape hit
  cases editable : c.editable shape with
  | false => rfl
  | true =>
    simp only [Bool.not_true, Bool.false_eq_true, if_false, if_true]
    generalize (if c.draw = .polygon ∨ c.draw = .polyline then (c.heap shape).isEdgeHavPt pixPos else none) = onEdge
    generalize (c.heap shape).isPtsHavPt pixPos = onVertex
    cases onEdge with
    | some pos => rfl
    | none =>
      cases onVertex with
      | some pos => rfl
      | none => cases (c.heap shape).isAreaHavPt containsPoint pixPos <;> rfl

def withSelect (c : CanvasBase) (selected : ShapeId → Bool) : CanvasBase :=
  { c with heap := fun shape => (c.heap shape).setIsSelect (selected shape) }

theorem modify_withSelect (c : CanvasBase) (selected : ShapeId → Bool) (shape : ShapeId) :
    (c.withSelect selected).modifyShape shape (·.setIsSelect false) =
      c.withSelect (Function.update selected shape false) := by
  have heaps : Function.update (c.withSelect selected).heap shape
      (((c.withSelect selected).heap shape).setIsSelect false) =
      (c.withSelect (Function.update selected shape false)).heap := by
    funext other
    by_cases same : other = shape
    · subst same
      simp [withSelect, Shape.setIsSelect]
    · simp [withSelect, same]
  rw [modifyShape, heaps]
  rfl

theorem pressLoop_eq (c : CanvasBase) (containsPoint : List QPointF → QPointF → Bool) (pixPos : QPointF)
    (selected : ShapeId → Bool) (items : List ShapeId) :
    ∃ settled, loop (pressShape containsPoint pixPos) (c.withSelect selected) items =
      .ok (match items.findSome? fun shape => (c.hit containsPoint pixPos shape).map (shape, ·) with
        | some (shape, found) => (c.withSelect settled).grab pixPos shape found
        | none => c.withSelect settled) := by
  induction items generalizing selected with
  | nil => exact ⟨selected, rfl⟩
  | cons item items ih =>
    have same : (c.withSelect selected).hit containsPoint pixPos item = c.hit containsPoint pixPos item := rfl
    rw [loop, pressShape_eq, same, List.findSome?_cons]
    cases found : c.hit containsPoint pixPos item with
    | some found => exact ⟨selected, rfl⟩
    | none =>
      simp only [Option.map_none]
      split
      · rw [modify_withSelect]
        exact ih _
      · exact ih _

theorem grab_heap (c : CanvasBase) (pixPos : QPointF) (shape other : ShapeId) (found : Hit) :
    let grabbed := (c.grab pixPos shape found).heap other
    grabbed.isPress = ((c.heap other).isPress || (shape == other && found.grips)) ∧
      grabbed.isDrag = ((c.heap other).isDrag || (shape == other && !found.grips)) ∧
      grabbed.points = (c.heap other).points ∧ grabbed.type = (c.heap other).type ∧
      grabbed.isClosed = (c.heap other).isClosed ∧ grabbed.label = (c.heap other).label := by
  by_cases same : other = shape
  · subst same
    cases found <;> simp [grab, Hit.grips, Shape.setIsPress, Shape.setIsDrag, Shape.setIsSelect,
      Shape.setControlPtActive]
  · have different : (shape == other) = false := beq_false_of_ne (Ne.symm same)
    cases found <;> simp [grab, modifyShape, same, different]

structure Gripped (containsPoint : List QPointF → QPointF → Bool) (pixPos : QPointF) (c b : CanvasBase) : Prop where
  stage : Stage c b
  points : ∀ shape, (b.heap shape).points = (c.heap shape).points
  type : ∀ shape, (b.heap shape).type = (c.heap shape).type
  editable : ∀ shape, b.editable shape = c.editable shape
  isPress : ∀ shape, (b.heap shape).isPress = c.pressed containsPoint pixPos shape
  isDrag : ∀ shape, (b.heap shape).isDrag = c.dragged containsPoint pixPos shape
  mouseDrag : b.mouseDrag = c.inHand containsPoint pixPos
  grip : b.mouseDrag = true →
    (if b.insertPoint ≥ 0 then (b.insertPoint, true) else (b.activePoint, false)) = c.grip containsPoint pixPos
  insertPoint : b.insertPoint ≥ 0 → b.mouseDrag = true

theorem gripped_still (drag : c.mouseDrag = true) : Gripped containsPoint pixPos c c := by
  have none : c.firstHit containsPoint pixPos = none := by rw [firstHit, if_pos drag]
  refine ⟨Stage.refl c, fun _ => rfl, fun _ => rfl, fun _ => rfl, ?_, ?_, ?_, ?_, fun _ => drag⟩
  · intro shape
    rw [pressed, none]
    simp
  · intro shape
    rw [dragged, none]
    simp
  · rw [inHand, none, drag]
    rfl
  · intro _
    rw [CanvasBase.grip, if_pos drag]

theorem gripped_nothing (drag : c.mouseDrag = false) (none : c.firstHit containsPoint pixPos = none)
    (selected : ShapeId → Bool) :
    Gripped containsPoint pixPos c ({ c with activePoint := -1, insertPoint := -1 }.withSelect selected) := by
  refine ⟨⟨rfl, rfl, rfl, rfl⟩, fun _ => rfl, fun _ => rfl, fun _ => rfl, ?_, ?_, ?_, ?_, ?_⟩
  · intro shape
    rw [pressed, none]
    simp [withSelect, Shape.setIsSelect]
  · intro shape
    rw [dragged, none]
    simp [withSelect, Shape.setIsSelect]
  · rw [inHand, none]
    simp [withSelect]
  · intro held
    rw [withSelect, drag] at held
    cases held
  · intro position
    simp [withSelect] at position

theorem gripped_found (drag : c.mouseDrag = false) {found : Hit}
    (first : c.firstHit containsPoint pixPos = some (shape, found)) (selected : ShapeId → Bool) :
    Gripped containsPoint pixPos c
      (({ c with activePoint := -1, insertPoint := -1 }.withSelect selected).grab pixPos shape found) := by
  have grabbed := fun other =>
    grab_heap ({ c with activePoint := -1, insertPoint := -1 }.withSelect selected) pixPos shape other found
  refine ⟨?_, ?_, ?_, ?_, ?_, ?_, ?_, ?_, ?_⟩
  · cases found <;> exact ⟨rfl, rfl, rfl, rfl⟩
  · intro other
    exact (grabbed other).2.2.1
  · intro other
    exact (grabbed other).2.2.2.1
  · intro other
    rw [editable, (grabbed other).2.2.2.2.1, (grabbed other).2.2.2.2.2]
    rfl
  · intro other
    rw [(grabbed other).1, pressed, first]
    rfl
  · intro other
    rw [(grabbed other).2.1, dragged, first]
    rfl
  · rw [inHand, first, drag]
    cases found <;> simp [grab, Hit.grips, withSelect, modifyShape]
  · intro held
    rw [CanvasBase.grip, drag, first]
    cases found with
    | edge pos => simp [grab, modifyShape]
    | vertex pos => simp [grab, modifyShape, withSelect]
    | area => simp [grab, modifyShape, withSelect, drag] at held
  · intro position
    cases found with
    | edge pos => rfl
    | vertex pos => rfl
    | area => simp [grab, modifyShape, withSelect] at position

theorem editPress_gripped (c : CanvasBase) (containsPoint : List QPointF → QPointF → Bool) (pixPos : QPointF) :
    ∃ b, c.editPress containsPoint pixPos = .ok b ∧ Gripped containsPoint pixPos c b := by
  cases drag : c.mouseDrag with
  | true => exact ⟨c, by rw [editPress, if_pos drag], gripped_still drag⟩
  | false =>
    obtain ⟨settled, done⟩ := pressLoop_eq { c with activePoint := -1, insertPoint := -1 } containsPoint pixPos
      (fun shape => (c.heap shape).isSelect) c.shapeList
    have looked : c.firstHit containsPoint pixPos = c.shapeList.findSome? fun shape =>
        (hit containsPoint pixPos { c with activePoint := -1, insertPoint := -1 } shape).map (shape, ·) := by
      rw [firstHit, drag]
      rfl
    have pressed : c.editPress containsPoint pixPos = loop (pressShape containsPoint pixPos)
        ({ c with activePoint := -1, insertPoint := -1 }.withSelect fun shape => (c.heap shape).isSelect)
        c.shapeList := by
      rw [editPress, drag]
      rfl
    rw [← looked] at done
    cases found : c.firstHit containsPoint pixPos with
    | none =>
      rw [found] at done
      exact ⟨_, pressed.trans done, gripped_nothing drag found settled⟩
    | some first =>
      rw [found] at done
      exact ⟨_, pressed.trans done, gripped_found drag found settled⟩

structure Steady (c d : CanvasBase) : Prop where
  stage : Stage c d
  mouseDrag : d.mouseDrag = c.mouseDrag
  type : ∀ shape, (d.heap shape).type = (c.heap shape).type
  editable : ∀ shape, d.editable shape = c.editable shape
  isPress : ∀ shape, (d.heap shape).isPress = (c.heap shape).isPress
  isDrag : ∀ shape, (d.heap shape).isDrag = (c.heap shape).isDrag
  insertPoint : d.insertPoint = c.insertPoint ∨ d.insertPoint = -1

theorem Steady.refl (c : CanvasBase) : Steady c c :=
  ⟨Stage.refl c, rfl, fun _ => rfl, fun _ => rfl, fun _ => rfl, fun _ => rfl, .inl rfl⟩

theorem Steady.trans {e : CanvasBase} (first : Steady c d) (second : Steady d e) : Steady c e where
  stage := first.stage.trans second.stage
  mouseDrag := second.mouseDrag.trans first.mouseDrag
  type shape := (second.type shape).trans (first.type shape)
  editable shape := (second.editable shape).trans (first.editable shape)
  isPress shape := (second.isPress shape).trans (first.isPress shape)
  isDrag shape := (second.isDrag shape).trans (first.isDrag shape)
  insertPoint := by
    rcases second.insertPoint with same | gone
    · rw [same]
      exact first.insertPoint
    · exact .inr gone

theorem withActive_steady (c : CanvasBase) (active : ShapeId → Bool) : Steady c (c.withActive active) :=
  ⟨⟨rfl, rfl, rfl, rfl⟩, rfl, fun _ => rfl, fun _ => rfl, fun _ => rfl, fun _ => rfl, .inl rfl⟩

theorem points_steady (c : CanvasBase) (shape : ShapeId) (points : YPolygonPoints) (pos : QPointF) (active insert : ℤ)
    (position : insert = c.insertPoint ∨ insert = -1) :
    Steady c ({ c with lastPressPos := pos, activePoint := active, insertPoint := insert }.modifyShape shape
      fun _ => { c.heap shape with points }) := by
  have same : ∀ other, ∃ changed, ({ c with lastPressPos := pos, activePoint := active, insertPoint := insert }.modifyShape
      shape fun _ => { c.heap shape with points }).heap other = { c.heap other with points := changed } := by
    intro other
    by_cases here : other = shape
    · subst here
      exact ⟨points, modifyShape_heap_same _ _ _⟩
    · exact ⟨_, modifyShape_heap_other _ _ _ here⟩
  refine ⟨⟨rfl, rfl, rfl, rfl⟩, rfl, ?_, ?_, ?_, ?_, position⟩
  · intro other
    obtain ⟨changed, heap⟩ := same other
    rw [heap]
  · intro other
    obtain ⟨changed, heap⟩ := same other
    rw [editable, heap]
    rfl
  · intro other
    obtain ⟨changed, heap⟩ := same other
    rw [heap]
  · intro other
    obtain ⟨changed, heap⟩ := same other
    rw [heap]

theorem call_only_points {s result : Shape} {call : PointCall} (done : s.call call = .ok result) :
    ∃ points, result = { s with points } := by
  cases call with
  | appendPoint point =>
    cases done
    exact ⟨_, rfl⟩
  | deletePoint index =>
    rcases Shape.deletePoint_completes done with ⟨_, rfl⟩ | ⟨_, points, _, rfl⟩
    · exact ⟨_, rfl⟩
    · exact ⟨points, rfl⟩
  | insertPoint point pos =>
    rcases Shape.insertPoint_completes done with rfl | ⟨_, ⟨points, _, rfl⟩ | ⟨_, rfl⟩⟩
    · exact ⟨_, rfl⟩
    · exact ⟨points, rfl⟩
    · exact ⟨_, rfl⟩
  | updatePoint point pos =>
    obtain ⟨points, _, rfl⟩ := Shape.updatePoint_completes done
    exact ⟨points, rfl⟩
  | move delta =>
    rw [Shape.call, Shape.move_eq] at done
    cases done
    exact ⟨_, rfl⟩

theorem react_steady {leaves : Bool} (done : c.react img pixPos shape = .ok (d, leaves)) : Steady c d := by
  have caught : ∀ call pos active insert, (insert = c.insertPoint ∨ insert = -1) →
      c.orCaught ((c.heap shape).call call) (fun s =>
        { c with lastPressPos := pos, activePoint := active, insertPoint := insert }.modifyShape shape fun _ => s) =
        .ok (d, leaves) → Steady c d := by
    intro call pos active insert position ended
    obtain ⟨_, rfl | ⟨result, changed, rfl⟩⟩ := orCaught_completes ended
    · exact Steady.refl _
    · obtain ⟨points, rfl⟩ := call_only_points changed
      exact points_steady c shape points pos active insert position
  unfold react at done
  simp only at done
  split at done
  · exact caught (.insertPoint pixPos c.insertPoint) _ _ _ (.inr rfl) done
  · split at done
    · exact caught (.updatePoint pixPos c.activePoint) _ _ _ (.inl rfl) done
    · split at done
      · exact caught (.move _) _ _ _ (.inl rfl) done
      · cases done
        exact Steady.refl _

theorem moveLoop_eq (c : CanvasBase) (containsPoint : List QPointF → QPointF → Bool) (pixPos : QPointF) (img : QImage)
    (active : ShapeId → Bool) (items : List ShapeId) :
    ∃ settled d, loop (moveShape containsPoint pixPos img) (c.withActive active) items = .ok d ∧
      match items.find? c.reacts with
      | some shape => (c.withActive settled).react img pixPos shape = .ok (d, true)
      | none => d = c.withActive settled := by
  induction items generalizing active with
  | nil => exact ⟨active, _, rfl, rfl⟩
  | cons item items ih =>
    rw [loop, List.find?_cons]
    rcases c.moveShape_points containsPoint pixPos img active item with
      ⟨idle, settled, done⟩ | ⟨reacting, d, done, _⟩
    · rw [done, idle]
      exact ih settled
    · have settles : ∃ settled, (c.withActive settled).react img pixPos item = .ok (d, true) := by
        rw [moveShape_eq] at done
        split at done
        · cases done
        · split at done
          · exact ⟨active, done⟩
          · rw [modify_withActive] at done
            exact ⟨_, done⟩
      obtain ⟨settled, reacted⟩ := settles
      rw [done, reacting]
      exact ⟨settled, d, rfl, reacted⟩

def Holding (c : CanvasBase) : Prop := c.insertPoint ≥ 0 → c.mouseDrag = true

theorem Holding.steady (holding : c.Holding) (steady : Steady c d) : d.Holding := by
  intro position
  rw [steady.mouseDrag]
  rcases steady.insertPoint with same | gone
  · exact holding (same ▸ position)
  · omega

theorem Holding.reacts (holding : c.Holding) (shape : ShapeId) : c.reacts shape =
    (c.editable shape && (c.mouseDrag && (c.heap shape).isPress || (c.heap shape).isDrag)) := by
  unfold CanvasBase.reacts
  by_cases position : c.insertPoint ≥ 0
  · rw [holding position, decide_eq_true position]
    simp
  · rw [decide_eq_false position]
    simp

theorem Steady.find_reacts (holding : c.Holding) (steady : Steady c d) :
    d.shapeList.find? d.reacts = c.shapeList.find? c.reacts := by
  have same : d.reacts = c.reacts := by
    funext shape
    rw [holding.reacts, (holding.steady steady).reacts, steady.editable, steady.mouseDrag, steady.isPress,
      steady.isDrag]
  rw [steady.stage.shapeList, same]

theorem Gripped.holding {b : CanvasBase} (gripped : Gripped containsPoint pixPos c b) : b.Holding := gripped.insertPoint

theorem Gripped.find_reacts {b : CanvasBase} (gripped : Gripped containsPoint pixPos c b) :
    b.shapeList.find? b.reacts = c.target containsPoint pixPos := by
  have same : b.reacts = fun shape => c.editable shape &&
      (c.inHand containsPoint pixPos && c.pressed containsPoint pixPos shape ||
        c.dragged containsPoint pixPos shape) := by
    funext shape
    rw [gripped.holding.reacts, gripped.editable, gripped.mouseDrag, gripped.isPress, gripped.isDrag]
  rw [gripped.stage.shapeList, same]
  rfl

theorem react_refused (refuses : (c.heap shape).type = .rectangle ∨ (c.heap shape).type = .line ∨
      (c.heap shape).type = .curve)
    (press : (c.heap shape).isPress = true) (position : c.insertPoint ≥ 0) :
    c.react img pixPos shape = .ok ({ c with activePoint := c.insertPoint, insertPoint := -1 }, true) := by
  have refused : (c.heap shape).insertPoint pixPos c.insertPoint = .ok (c.heap shape) := by
    unfold Shape.insertPoint
    rcases refuses with type | type | type <;> rw [type]
  have kept : { c with activePoint := c.insertPoint, insertPoint := -1 }.modifyShape shape (fun _ => c.heap shape) =
      { c with activePoint := c.insertPoint, insertPoint := -1 } := modifyShape_id _ shape
  unfold react
  simp only
  rw [if_pos ⟨position, press⟩, refused, orCaught, kept]

end CanvasBase

def setAt (vertices : List QPointF) (index : ℤ) (vertex : QPointF) : List QPointF :=
  if 0 ≤ index then vertices.set index.toNat vertex else vertices

theorem setAt_setAt (vertices : List QPointF) (index : ℤ) (first second : QPointF) :
    setAt (setAt vertices index first) index second = setAt vertices index second := by
  unfold setAt
  split
  · rw [List.set_set]
  · rfl

theorem pointsAfter_update (s : Shape) (point : QPointF) (index : ℤ) :
    (s.pointsAfter (.updatePoint point index)).oriPoints = setAt s.points.oriPoints index point := by
  unfold setAt
  by_cases inside : index < s.points.size ∧ 0 ≤ index
  · obtain ⟨points, replaced⟩ := YPolygonPoints.replace_inside s.points point inside.2 inside.1
    have done : s.call (.updatePoint point index) = .ok { s with points } := CanvasBase.updatePoint_of_replace replaced
    obtain ⟨_, _, _, ori, _⟩ := YPolygonPoints.replace_completes replaced
    rw [Shape.pointsAfter_ok done, if_pos inside.2]
    exact ori
  · have failed : s.call (.updatePoint point index) = .error .posOutOfRange := by
      rw [Shape.call, Shape.updatePoint, if_neg inside]
    rw [Shape.pointsAfter_error failed]
    split
    · rw [List.set_eq_of_length_le]
      unfold YPolygonPoints.size at inside
      omega
    · rfl

theorem CanvasBase.react_vertex {c d : CanvasBase} {shape : ShapeId} {img : QImage} {pixPos : QPointF}
    (press : (c.heap shape).isPress = true) (hold : c.mouseDrag = true) (position : c.insertPoint < 0)
    (done : c.react img pixPos shape = .ok (d, true)) :
    d.insertPoint = c.insertPoint ∧ d.activePoint = c.activePoint ∧
      (d.heap shape).points.oriPoints = setAt (c.heap shape).points.oriPoints c.activePoint pixPos := by
  rw [react_update press hold position] at done
  rw [← pointsAfter_update]
  cases called : (c.heap shape).call (.updatePoint pixPos c.activePoint) with
  | ok result =>
    rw [called] at done
    cases done
    refine ⟨rfl, rfl, ?_⟩
    rw [modifyShape_heap_same, Shape.pointsAfter_ok called]
  | error fault =>
    rw [called, Shape.call_fault called] at done
    cases done
    exact ⟨rfl, rfl, by rw [Shape.pointsAfter_error called]⟩

namespace Canvas2D

open CanvasBase

variable (containsPoint : List QPointF → QPointF → Bool) {b c d : Canvas2D} {img : QImage} {shape : ShapeId}

section Move

variable (loaded : d.image = some img) (task : d.task = .segmentation) (operat : d.operat = .edit)
include loaded task operat

theorem mouseMove_steady (shape : ShapeId) (pos : QPointF) : ∃ e, d.mouseMoveEvent containsPoint pos = .ok e ∧
    Steady d.toCanvasBase e.toCanvasBase ∧ (d.shapeList.find? d.reacts = some shape → ∃ active,
      (d.withActive active).react img (bindImgEdge img pos) shape = .ok (e.toCanvasBase, true)) ∧
    (d.shapeList.find? d.reacts ≠ some shape → (e.heap shape).points = (d.heap shape).points) := by
  obtain ⟨active, base, done, ends⟩ := d.moveLoop_eq containsPoint (bindImgEdge img pos) img
    (fun shape => (d.heap shape).isActive) d.shapeList
  have moved : d.mouseMoveEvent containsPoint pos = .ok { d with toCanvasBase := base } := by
    rw [← withActive_same d.toCanvasBase] at done
    simp only [mouseMoveEvent, loaded, task, operat]
    rw [done]
    rfl
  refine ⟨{ d with toCanvasBase := base }, moved, ?_, ?_, ?_⟩
  · cases found : d.shapeList.find? d.reacts with
    | none =>
      rw [found] at ends
      rw [ends]
      exact withActive_steady _ active
    | some first =>
      rw [found] at ends
      exact (withActive_steady _ active).trans (react_steady ends)
  · intro found
    rw [found] at ends
    exact ⟨active, ends⟩
  · intro other
    have call : d.moveCall shape pos = none := by simp [moveCall, loaded, task, operat, other]
    rw [mouseMove_points moved, call]
    rfl

end Move

/-- The rule for the moves of a gesture: what every move establishes for its position holds after the last one. -/
theorem run_moves {Inv : Option QPointF → Canvas2D → Prop}
    (step : ∀ last d pos, Inv last d → ∃ e, d.mouseMoveEvent containsPoint pos = .ok e ∧ Inv (some pos) e)
    (last : Option QPointF) (inv : Inv last d) (moves : List QPointF) :
    ∃ e, run (handle containsPoint) d (moves.map .mouseMove) = .ok e ∧ Inv (moves.getLast?.or last) e := by
  induction moves generalizing d last with
  | nil => exact ⟨d, rfl, inv⟩
  | cons pos moves ih =>
    obtain ⟨middle, moved, kept⟩ := step last d pos inv
    obtain ⟨e, ran, final⟩ := ih _ kept
    refine ⟨e, ?_, ?_⟩
    · rw [List.map_cons, run, handle, moved]
      exact ran
    · have same : (pos :: moves).getLast?.or last = moves.getLast?.or (some pos) := by
        rw [List.getLast?_cons]
        cases moves.getLast? <;> rfl
      rw [same]
      exact final

section Moves

variable (loaded : b.image = some img) (task : b.task = .segmentation) (operat : b.operat = .edit)
  (holding : b.Holding)
include loaded task operat holding

theorem moves_beside (other : b.shapeList.find? b.reacts ≠ some shape) (moves : List QPointF) :
    ∃ e, run (handle containsPoint) b (moves.map .mouseMove) = .ok e ∧ Steady b.toCanvasBase e.toCanvasBase ∧
      (e.heap shape).points = (b.heap shape).points := by
  have step : ∀ (last : Option QPointF) (d : Canvas2D) (pos : QPointF), (Steady b.toCanvasBase d.toCanvasBase ∧
      (d.heap shape).points = (b.heap shape).points) → ∃ e, d.mouseMoveEvent containsPoint pos = .ok e ∧
      Steady b.toCanvasBase e.toCanvasBase ∧ (e.heap shape).points = (b.heap shape).points := by
    rintro _ d pos ⟨steady, points⟩
    obtain ⟨e, moved, more, _, beside⟩ := mouseMove_steady containsPoint (steady.stage.image.trans loaded)
      (steady.stage.task.trans task) (steady.stage.operat.trans operat) shape pos
    refine ⟨e, moved, steady.trans more, ?_⟩
    rw [beside, points]
    rw [steady.find_reacts holding]
    exact other
  exact run_moves containsPoint step none ⟨Steady.refl _, rfl⟩ moves

theorem moves_vertex (target : b.shapeList.find? b.reacts = some shape) (hold : b.mouseDrag = true)
    (press : (b.heap shape).isPress = true) (position : b.insertPoint < 0) (moves : List QPointF) :
    ∃ e, run (handle containsPoint) b (moves.map .mouseMove) = .ok e ∧ Steady b.toCanvasBase e.toCanvasBase ∧
      (e.heap shape).points.oriPoints = moves.getLast?.elim (b.heap shape).points.oriPoints fun last =>
        setAt (b.heap shape).points.oriPoints b.activePoint (bindImgEdge img last) := by
  -- Each move overwrites the same place, so only the last position is left to see.
  let Inv := fun (last : Option QPointF) (d : Canvas2D) => Steady b.toCanvasBase d.toCanvasBase ∧
    d.insertPoint < 0 ∧ d.activePoint = b.activePoint ∧
    (d.heap shape).points.oriPoints = last.elim (b.heap shape).points.oriPoints fun last =>
      setAt (b.heap shape).points.oriPoints b.activePoint (bindImgEdge img last)
  have step : ∀ last d pos, Inv last d → ∃ e, d.mouseMoveEvent containsPoint pos = .ok e ∧ Inv (some pos) e := by
    rintro last d pos ⟨steady, below, active, points⟩
    obtain ⟨e, moved, more, reacted, _⟩ := mouseMove_steady containsPoint (steady.stage.image.trans loaded)
      (steady.stage.task.trans task) (steady.stage.operat.trans operat) shape pos
    obtain ⟨settled, done⟩ := reacted ((steady.find_reacts holding).trans target)
    obtain ⟨below', active', points'⟩ := react_vertex (c := d.withActive settled)
      ((steady.isPress shape).trans press) (steady.mouseDrag.trans hold) below done
    refine ⟨e, moved, steady.trans more, below'.trans_lt below, active'.trans active, ?_⟩
    have kept : ((d.withActive settled).heap shape).points = (d.heap shape).points := rfl
    have same : (d.withActive settled).activePoint = d.activePoint := rfl
    rw [points', kept, same, points, active]
    cases last with
    | none => rfl
    | some last => exact setAt_setAt _ _ _ _
  obtain ⟨e, ran, steady, _, _, points⟩ := run_moves containsPoint step none
    ⟨Steady.refl _, position, rfl, rfl⟩ moves
  rw [Option.or_none] at points
  exact ⟨e, ran, steady, points⟩

theorem moves_pending (target : b.shapeList.find? b.reacts = some shape)
    (refuses : (b.heap shape).type = .rectangle ∨ (b.heap shape).type = .line ∨ (b.heap shape).type = .curve)
    (press : (b.heap shape).isPress = true) (position : b.insertPoint ≥ 0) (moves : List QPointF) :
    ∃ e, run (handle containsPoint) b (moves.map .mouseMove) = .ok e ∧ Steady b.toCanvasBase e.toCanvasBase ∧
      (e.heap shape).points.oriPoints = moves.tail.getLast?.elim (b.heap shape).points.oriPoints fun last =>
        setAt (b.heap shape).points.oriPoints b.insertPoint (bindImgEdge img last) := by
  cases moves with
  | nil => exact ⟨b, rfl, Steady.refl _, rfl⟩
  | cons pos moves =>
    obtain ⟨middle, moved, steady, reacted, _⟩ := mouseMove_steady containsPoint loaded task operat shape pos
    obtain ⟨settled, done⟩ := reacted target
    have refused : (b.withActive settled).react img (bindImgEdge img pos) shape = _ := react_refused refuses press position
    rw [refused] at done
    have base := (Prod.mk.inj (Except.ok.inj done)).1
    have below : middle.insertPoint < 0 := by
      rw [← base]
      exact neg_one_lt_zero
    obtain ⟨e, ran, more, points⟩ := moves_vertex containsPoint (steady.stage.image.trans loaded)
      (steady.stage.task.trans task) (steady.stage.operat.trans operat) (holding.steady steady)
      ((steady.find_reacts holding).trans target) (steady.mouseDrag.trans (holding position))
      ((steady.isPress shape).trans press) below moves
    refine ⟨e, ?_, steady.trans more, ?_⟩
    · rw [List.map_cons, run, handle, moved]
      exact ran
    · rw [points, ← base]
      rfl

theorem moves_drag (target : b.shapeList.find? b.reacts = some shape)
    (free : ¬ (b.mouseDrag = true ∧ (b.heap shape).isPress = true)) (moves : List QPointF) :
    ∃ e, run (handle containsPoint) b (moves.map .mouseMove) = .ok e ∧ Steady b.toCanvasBase e.toCanvasBase ∧
      ((e.heap shape).points = (b.heap shape).points ∨
        ∃ delta, (e.heap shape).points = (b.heap shape).points.translate delta) := by
  have noInsert : ¬ (b.insertPoint ≥ 0 ∧ (b.heap shape).isPress = true) :=
    fun both => free ⟨holding both.1, both.2⟩
  have drag : (b.heap shape).isDrag = true := by
    have reacts := List.find?_some target
    rw [holding.reacts] at reacts
    have loose : (b.mouseDrag && (b.heap shape).isPress) = false := by simpa using free
    rw [loose, Bool.false_or, Bool.and_eq_true] at reacts
    exact reacts.2
  have step : ∀ (last : Option QPointF) (d : Canvas2D) (pos : QPointF), (Steady b.toCanvasBase d.toCanvasBase ∧
      ((d.heap shape).points = (b.heap shape).points ∨
        ∃ delta, (d.heap shape).points = (b.heap shape).points.translate delta)) →
      ∃ e, d.mouseMoveEvent containsPoint pos = .ok e ∧ Steady b.toCanvasBase e.toCanvasBase ∧
        ((e.heap shape).points = (b.heap shape).points ∨
          ∃ delta, (e.heap shape).points = (b.heap shape).points.translate delta) := by
    rintro _ d pos ⟨steady, points⟩
    obtain ⟨e, moved, more, _⟩ := mouseMove_steady containsPoint (steady.stage.image.trans loaded)
      (steady.stage.task.trans task) (steady.stage.operat.trans operat) shape pos
    have noInsert' : ¬ (d.insertPoint ≥ 0 ∧ (d.heap shape).isPress = true) := by
      rintro ⟨position, press⟩
      rw [steady.isPress] at press
      rcases steady.insertPoint with same | gone
      · exact noInsert ⟨same ▸ position, press⟩
      · omega
    have noUpdate : ¬ (d.mouseDrag = true ∧ (d.heap shape).isPress = true) := by
      rw [steady.mouseDrag, steady.isPress]
      exact free
    have call : ∃ delta, d.moveCall shape pos = some (.move delta) := by
      simp only [moveCall, steady.stage.image.trans loaded, steady.stage.task.trans task,
        steady.stage.operat.trans operat]
      rw [if_pos ((steady.find_reacts holding).trans target), reactCall, if_neg noInsert', if_neg noUpdate,
        if_pos ((steady.isDrag shape).trans drag)]
      exact ⟨_, rfl⟩
    obtain ⟨delta, call⟩ := call
    have shifted : (e.heap shape).points = (d.heap shape).points.translate delta := by
      rw [mouseMove_points moved, call]
      have done : (d.heap shape).call (.move delta) = _ := Shape.move_eq (d.heap shape) delta
      exact Shape.pointsAfter_ok done
    refine ⟨e, moved, steady.trans more, .inr ?_⟩
    rw [shifted]
    rcases points with points | ⟨before, points⟩
    · exact ⟨delta, by rw [points]⟩
    · exact ⟨before + delta, by rw [points, YPolygonPoints.translate_translate]⟩
  exact run_moves containsPoint step none ⟨Steady.refl _, .inl rfl⟩ moves

end Moves

section Gesture

/-- A gesture of edit mode: a press with the left button, some moves and the release. -/
def gesture (start : QPointF) (reply : DialogReply) (moves : List QPointF) (stop : QPointF) : List CanvasEvent :=
  .mousePress start true reply :: (moves.map .mouseMove ++ [.mouseRelease stop])

/-- The vertices are where they were, or all are displaced alike. -/
def SameForm (old new : List QPointF) : Prop := new = old ∨ ∃ delta, new = old.map (· + delta)

def KeepsForm (containsPoint : List QPointF → QPointF → Bool) (c : Canvas2D) (shape : ShapeId)
    (events : List CanvasEvent) : Prop :=
  ∃ d, run (handle containsPoint) c events = .ok d ∧
    SameForm (c.heap shape).points.oriPoints (d.heap shape).points.oriPoints

/-- The gesture pulls at one vertex of several: the press leaves the shape with a vertex in hand, and the last move
    that reaches it ends somewhere else. -/
def Pulls (containsPoint : List QPointF → QPointF → Bool) (c : Canvas2D) (img : QImage) (shape : ShapeId)
    (start : QPointF) (moves : List QPointF) : Prop :=
  let pixPos := bindImgEdge img start
  c.task = .segmentation ∧ c.target containsPoint pixPos = some shape ∧ c.inHand containsPoint pixPos = true ∧
    c.pressed containsPoint pixPos shape = true ∧ 1 < (c.heap shape).pointCount ∧
    ∃ (i : ℕ) (vertex last : QPointF), (c.grip containsPoint pixPos).1 = i ∧
      (c.heap shape).points.oriPoints[i]? = some vertex ∧
      (if (c.grip containsPoint pixPos).2 then moves.tail else moves).getLast? = some last ∧
      bindImgEdge img last ≠ vertex

theorem sameForm_set_iff (vertices : List QPointF) (i : ℕ) (point : QPointF) :
    SameForm vertices (vertices.set i point) ↔
      ¬ (1 < vertices.length ∧ ∃ vertex, vertices[i]? = some vertex ∧ point ≠ vertex) := by
  constructor
  · rintro same ⟨many, vertex, found, moved⟩
    obtain ⟨bound, read⟩ := List.getElem?_eq_some_iff.mp found
    apply moved
    rcases same with same | ⟨delta, same⟩
    · have here := congrArg (·[i]?) same
      simpa [List.getElem?_set_self bound, found] using here
    · -- A second vertex stays, so the displacement is nothing.
      obtain ⟨j, inside, different⟩ : ∃ j < vertices.length, j ≠ i := by
        by_cases first : i = 0
        · exact ⟨1, many, by omega⟩
        · exact ⟨0, by omega, by omega⟩
      have there := congrArg (·[j]?) same
      simp only [List.getElem?_set_ne (Ne.symm different), List.getElem?_map, List.getElem?_eq_getElem inside,
        Option.map_some, Option.some.injEq] at there
      have here := congrArg (·[i]?) same
      simp only [List.getElem?_set_self bound, List.getElem?_map, found, Option.map_some, Option.some.injEq] at here
      rw [here]
      have zeroX : delta.x = 0 := by simpa using congrArg QPointF.x there
      have zeroY : delta.y = 0 := by simpa using congrArg QPointF.y there
      ext
      · simp [zeroX]
      · simp [zeroY]
  · intro fixed
    by_cases bound : i < vertices.length
    · by_cases stays : point = vertices[i]
      · left
        rw [stays, List.set_getElem_self]
      · right
        have one : vertices.length = 1 := by
          have few : ¬ 1 < vertices.length := fun many =>
            fixed ⟨many, vertices[i], List.getElem?_eq_getElem bound, stays⟩
          omega
        obtain ⟨vertex, rfl⟩ := List.length_eq_one_iff.mp one
        have zero : i = 0 := by simpa using bound
        subst zero
        refine ⟨point - vertex, ?_⟩
        have reached : vertex + (point - vertex) = point := by
          ext
          · simp
          · simp
        rw [List.set_cons_zero, List.map_singleton, reached]
    · left
      exact List.set_eq_of_length_le (by omega)

theorem sameForm_setAt_iff (vertices : List QPointF) (index : ℤ) (point : QPointF) :
    SameForm vertices (setAt vertices index point) ↔
      ¬ (1 < vertices.length ∧ ∃ (i : ℕ) (vertex : QPointF), index = i ∧ vertices[i]? = some vertex ∧
        point ≠ vertex) := by
  unfold setAt
  split
  · rename_i low
    obtain ⟨i, rfl⟩ := Int.eq_ofNat_of_zero_le low
    rw [Int.toNat_natCast, sameForm_set_iff]
    apply not_congr
    constructor
    · rintro ⟨many, vertex, found, moved⟩
      exact ⟨many, i, vertex, rfl, found, moved⟩
    · rintro ⟨many, j, vertex, same, found, moved⟩
      rw [← Int.ofNat.inj same] at found
      exact ⟨many, vertex, found, moved⟩
  · rename_i low
    refine iff_of_true (.inl rfl) ?_
    rintro ⟨_, i, _, rfl, _⟩
    exact low (Int.natCast_nonneg i)

variable {e : Canvas2D} {start stop : QPointF} {reply : DialogReply} {moves : List QPointF}

theorem keepsForm_iff (pressed : c.mousePressEvent containsPoint start true reply = .ok b)
    (moved : run (handle containsPoint) b (moves.map .mouseMove) = .ok e) (loaded : e.image = some img)
    (task : e.task = .segmentation) (operat : e.operat = .edit) :
    KeepsForm containsPoint c shape (gesture start reply moves stop) ↔
      SameForm (c.heap shape).points.oriPoints (e.heap shape).points.oriPoints := by
  obtain ⟨d, released, _, _, points, _⟩ := mouseRelease_released loaded task operat
  have ran : run (handle containsPoint) c (gesture start reply moves stop) = .ok d :=
    run_gesture stop pressed moved released
  rw [← points]
  constructor
  · rintro ⟨other, ran', same⟩
    rw [ran] at ran'
    cases ran'
    exact same
  · intro same
    exact ⟨d, ran, same⟩

theorem keepsForm_detection (loaded : c.image = some img) (task : c.task = .detection) :
    KeepsForm containsPoint c shape (gesture start reply moves stop) := by
  have pressed : c.mousePressEvent containsPoint start true reply = .ok c := by
    simp [mousePressEvent, getImage, loaded, task, Bind.bind, Except.bind]
  have step : ∀ (last : Option QPointF) (d : Canvas2D) (pos : QPointF), d = c →
      ∃ e, d.mouseMoveEvent containsPoint pos = .ok e ∧ e = c := by
    rintro _ _ pos rfl
    exact ⟨_, by simp [mouseMoveEvent, task], rfl⟩
  obtain ⟨e, moved, rfl⟩ := run_moves containsPoint step none rfl moves
  have released : e.mouseReleaseEvent = .ok e := by simp [mouseReleaseEvent, task]
  exact ⟨e, run_gesture stop pressed moved released, .inl rfl⟩

theorem sameForm_pulled_iff (vertices moves : List QPointF) (index : ℤ) :
    SameForm vertices (moves.getLast?.elim vertices fun last => setAt vertices index (bindImgEdge img last)) ↔
      ¬ (1 < vertices.length ∧ ∃ (i : ℕ) (vertex last : QPointF), index = i ∧ vertices[i]? = some vertex ∧
        moves.getLast? = some last ∧ bindImgEdge img last ≠ vertex) := by
  cases final : moves.getLast? with
  | none => exact iff_of_true (.inl rfl) (by simp)
  | some last =>
    rw [Option.elim_some, sameForm_setAt_iff]
    apply not_congr
    constructor
    · rintro ⟨many, i, vertex, here, found, moved⟩
      exact ⟨many, i, vertex, last, here, found, rfl, moved⟩
    · rintro ⟨many, i, vertex, other, here, found, same, moved⟩
      cases same
      exact ⟨many, i, vertex, here, found, moved⟩

theorem pulls_iff (task : c.task = .segmentation)
    (target : c.target containsPoint (bindImgEdge img start) = some shape)
    (hand : c.inHand containsPoint (bindImgEdge img start) = true)
    (press : c.pressed containsPoint (bindImgEdge img start) shape = true) :
    Pulls containsPoint c img shape start moves ↔ 1 < (c.heap shape).points.oriPoints.length ∧
      ∃ (i : ℕ) (vertex last : QPointF), (c.grip containsPoint (bindImgEdge img start)).1 = i ∧
        (c.heap shape).points.oriPoints[i]? = some vertex ∧
        (if (c.grip containsPoint (bindImgEdge img start)).2 then moves.tail else moves).getLast? = some last ∧
        bindImgEdge img last ≠ vertex := by
  constructor
  · rintro ⟨_, _, _, _, pulls⟩
    exact pulls
  · intro pulls
    exact ⟨task, target, hand, press, pulls⟩

theorem mousePress_gripped (loaded : c.image = some img) (task : c.task = .segmentation) (operat : c.operat = .edit)
    (start : QPointF) (reply : DialogReply) :
    ∃ b, c.mousePressEvent containsPoint start true reply = .ok b ∧
      Gripped containsPoint (bindImgEdge img start) c.toCanvasBase b.toCanvasBase := by
  obtain ⟨base, done, gripped⟩ := c.editPress_gripped containsPoint (bindImgEdge img start)
  refine ⟨{ c with toCanvasBase := base }, ?_, gripped⟩
  simp only [mousePressEvent, getImage, loaded, task, operat, Bind.bind, Except.bind, done]

section Pressed

variable (loaded : c.image = some img) (task : c.task = .segmentation) (operat : c.operat = .edit)
  (pressed : c.mousePressEvent containsPoint start true reply = .ok b)
  (gripped : Gripped containsPoint (bindImgEdge img start) c.toCanvasBase b.toCanvasBase)
include loaded task operat pressed gripped

theorem keepsForm_moved (moved : run (handle containsPoint) b (moves.map .mouseMove) = .ok e)
    (steady : Steady b.toCanvasBase e.toCanvasBase) :
    KeepsForm containsPoint c shape (gesture start reply moves stop) ↔
      SameForm (c.heap shape).points.oriPoints (e.heap shape).points.oriPoints := by
  have stage := gripped.stage.trans steady.stage
  exact keepsForm_iff containsPoint pressed moved (stage.image.trans loaded) (stage.task.trans task)
    (stage.operat.trans operat)

theorem keepsForm_beside (other : c.target containsPoint (bindImgEdge img start) ≠ some shape) :
    KeepsForm containsPoint c shape (gesture start reply moves stop) := by
  rw [← gripped.find_reacts] at other
  obtain ⟨e, moved, steady, points⟩ := moves_beside containsPoint (gripped.stage.image.trans loaded)
    (gripped.stage.task.trans task) (gripped.stage.operat.trans operat) gripped.holding other moves
  rw [keepsForm_moved containsPoint loaded task operat pressed gripped moved steady, points, gripped.points]
  exact .inl rfl

theorem keepsForm_dragged (target : c.target containsPoint (bindImgEdge img start) = some shape)
    (free : ¬ (c.inHand containsPoint (bindImgEdge img start) = true ∧
      c.pressed containsPoint (bindImgEdge img start) shape = true)) :
    KeepsForm containsPoint c shape (gesture start reply moves stop) := by
  rw [← gripped.find_reacts] at target
  rw [← gripped.mouseDrag, ← gripped.isPress] at free
  obtain ⟨e, moved, steady, points⟩ := moves_drag containsPoint (gripped.stage.image.trans loaded)
    (gripped.stage.task.trans task) (gripped.stage.operat.trans operat) gripped.holding target free moves
  rw [keepsForm_moved containsPoint loaded task operat pressed gripped moved steady]
  rw [gripped.points] at points
  rcases points with points | ⟨delta, points⟩
  · exact .inl (by rw [points])
  · exact .inr ⟨delta, by rw [points]; rfl⟩

theorem keepsForm_gripped_iff
    (refuses : (c.heap shape).type = .rectangle ∨ (c.heap shape).type = .line ∨ (c.heap shape).type = .curve)
    (target : c.target containsPoint (bindImgEdge img start) = some shape)
    (hand : c.inHand containsPoint (bindImgEdge img start) = true)
    (press : c.pressed containsPoint (bindImgEdge img start) shape = true) :
    KeepsForm containsPoint c shape (gesture start reply moves stop) ↔
      ¬ Pulls containsPoint c img shape start moves := by
  have found := gripped.find_reacts.trans target
  have hold := gripped.mouseDrag.trans hand
  have held := (gripped.isPress shape).trans press
  have grip := gripped.grip hold
  rw [pulls_iff containsPoint task target hand press, ← grip]
  by_cases pending : b.insertPoint ≥ 0
  · rw [← gripped.type] at refuses
    obtain ⟨e, moved, steady, points⟩ := moves_pending containsPoint (gripped.stage.image.trans loaded)
      (gripped.stage.task.trans task) (gripped.stage.operat.trans operat) gripped.holding found refuses held pending
      moves
    rw [keepsForm_moved containsPoint loaded task operat pressed gripped moved steady, points, gripped.points,
      if_pos pending]
    exact sameForm_pulled_iff _ _ _
  · obtain ⟨e, moved, steady, points⟩ := moves_vertex containsPoint (gripped.stage.image.trans loaded)
      (gripped.stage.task.trans task) (gripped.stage.operat.trans operat) gripped.holding found hold held
      (not_le.mp pending) moves
    rw [keepsForm_moved containsPoint loaded task operat pressed gripped moved steady, points, gripped.points,
      if_neg pending]
    exact sameForm_pulled_iff _ _ _

end Pressed

/-- A gesture of edit mode leaves a rectangle, line or curve as it is or displaces all of it, unless it pulls at one of
    the vertices. -/
theorem gesture_keeps_form_iff (c : Canvas2D) (img : QImage) (shape : ShapeId) (loaded : c.image = some img)
    (operat : c.operat = .edit)
    (refuses : (c.heap shape).type = .rectangle ∨ (c.heap shape).type = .line ∨ (c.heap shape).type = .curve)
    (start stop : QPointF) (reply : DialogReply) (moves : List QPointF) :
    KeepsForm containsPoint c shape (gesture start reply moves stop) ↔
      ¬ Pulls containsPoint c img shape start moves := by
  cases task : c.task with
  | detection =>
    refine iff_of_true (keepsForm_detection containsPoint loaded task) ?_
    rintro ⟨other, _⟩
    rw [task] at other
    cases other
  | segmentation =>
    obtain ⟨b, pressed, gripped⟩ := mousePress_gripped containsPoint loaded task operat start reply
    by_cases target : c.target containsPoint (bindImgEdge img start) = some shape
    · by_cases held : c.inHand containsPoint (bindImgEdge img start) = true ∧
          c.pressed containsPoint (bindImgEdge img start) shape = true
      · exact keepsForm_gripped_iff containsPoint loaded task operat pressed gripped refuses target held.1 held.2
      · refine iff_of_true (keepsForm_dragged containsPoint loaded task operat pressed gripped target held) ?_
        rintro ⟨_, _, hand, press, _⟩
        exact held ⟨hand, press⟩
    · refine iff_of_true (keepsForm_beside containsPoint loaded task operat pressed gripped target) ?_
      rintro ⟨_, same, _⟩
      exact target same

def rectangleShown : Canvas2D :=
  { loaded blankImage with
    operat := .edit
    draw := .rectangle
    heap := fun _ => (((Shape.new .rectangle).appendPoint ⟨-20, -20⟩).appendPoint ⟨20, 20⟩).setIsClosed true
    next := 1
    shapeList := [0]
    currentIndex := 0 }

theorem rectangle_dragged :
    KeepsForm (fun _ _ => false) rectangleShown 0 (gesture ⟨0, 0⟩ none [⟨5, 5⟩, ⟨30, 10⟩] ⟨30, 10⟩) := by
  refine (gesture_keeps_form_iff (fun _ _ => false) rectangleShown blankImage 0 rfl rfl (.inl rfl) ⟨0, 0⟩ ⟨30, 10⟩
    none [⟨5, 5⟩, ⟨30, 10⟩]).mpr ?_
  rintro ⟨_, _, hand, _⟩
  exact absurd hand (by decide +kernel)

/-- A rectangle is drawn, then the draw mode is the polygon and the canvas is edited. The press in the middle of the
    rectangle finds the diagonal for an edge, and the second move pulls the second corner. -/
theorem rectangle_pulled :
    ∃ c, run (handle fun _ _ => false) (loaded blankImage) [.changeDrawMode .rectangle,
        .mousePress ⟨-20, -20⟩ true none, .mousePress ⟨20, 20⟩ true none, .changeDrawMode .polygon,
        .changeOperatMode .edit] = .ok c ∧
      c.operat = .edit ∧ 0 ∈ c.shapeList ∧ (c.heap 0).type = .rectangle ∧ (c.heap 0).isClosed = true ∧
      (∀ vertex ∈ (c.heap 0).points.oriPoints,
        senseDis < (vertex - bindImgEdge blankImage ⟨0, 0⟩).manhattanLength) ∧
      ¬ KeepsForm (fun _ _ => false) c 0 (gesture ⟨0, 0⟩ none [⟨5, 5⟩, ⟨30, 10⟩] ⟨30, 10⟩) := by
  have observed : (do
      let c ← run (handle fun _ _ => false) (loaded blankImage) [.changeDrawMode .rectangle,
        .mousePress ⟨-20, -20⟩ true none, .mousePress ⟨20, 20⟩ true none, .changeDrawMode .polygon,
        .changeOperatMode .edit]
      let d ← run (handle fun _ _ => false) c (gesture ⟨0, 0⟩ none [⟨5, 5⟩, ⟨30, 10⟩] ⟨30, 10⟩)
      .ok (decide (c.operat = .edit ∧ 0 ∈ c.shapeList ∧ (c.heap 0).type = .rectangle ∧ (c.heap 0).isClosed = true),
        (c.heap 0).points.oriPoints, (d.heap 0).points.oriPoints) : Except Fault _) =
      .ok (true, [⟨-20, -20⟩, ⟨20, 20⟩], [⟨-20, -20⟩, ⟨30, 10⟩]) := by decide +kernel
  obtain ⟨c, drawn, rest⟩ := bind_completes observed
  obtain ⟨d, ran, values⟩ := bind_completes rest
  simp only [Except.ok.injEq, Prod.mk.injEq] at values
  obtain ⟨shown, before, after⟩ := values
  obtain ⟨operat, listed, type, isClosed⟩ := of_decide_eq_true shown
  refine ⟨c, drawn, operat, listed, type, isClosed, ?_, ?_⟩
  · rw [before]
    decide +kernel
  · rintro ⟨other, same, kept⟩
    rw [ran] at same
    cases same
    rw [before, after] at kept
    have pulled : ([⟨-20, -20⟩, ⟨30, 10⟩] : List QPointF) = [⟨-20, -20⟩, ⟨20, 20⟩].set 1 ⟨30, 10⟩ := rfl
    rw [pulled, sameForm_set_iff] at kept
    exact kept ⟨by decide, ⟨20, 20⟩, rfl, by decide⟩

end Gesture

end Canvas2D

end XYAnnotation

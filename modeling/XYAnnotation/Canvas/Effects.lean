import XYAnnotation.Canvas.Events
import XYAnnotation.Canvas.Operations
import XYAnnotation.Annotations.Editing

namespace XYAnnotation

open Library

structure SameOutline (s t : Shape) : Prop where
  points : t.points = s.points
  type : t.type = s.type
  isClosed : t.isClosed = s.isClosed

theorem SameOutline.refl (s : Shape) : SameOutline s s := ⟨rfl, rfl, rfl⟩

theorem SameOutline.trans {r s t : Shape} (first : SameOutline r s) (second : SameOutline s t) :
    SameOutline r t :=
  ⟨second.points.trans first.points, second.type.trans first.type, second.isClosed.trans first.isClosed⟩

/-- The two canvases differ at most in flags, labels, preview points and the members that follow the mouse. -/
structure Untouched (c d : CanvasBase) : Prop where
  next : d.next = c.next
  image : d.image = c.image
  shapeList : d.shapeList = c.shapeList
  currentIndex : d.currentIndex = c.currentIndex
  task : d.task = c.task
  operat : d.operat = c.operat
  draw : d.draw = c.draw
  name : ∀ shape, (d.heap shape).name = (c.heap shape).name
  outline : ∀ shape, SameOutline (c.heap shape) (d.heap shape)

namespace Untouched

theorem refl (c : CanvasBase) : Untouched c c :=
  ⟨rfl, rfl, rfl, rfl, rfl, rfl, rfl, fun _ => rfl, fun _ => SameOutline.refl _⟩

theorem trans {c d e : CanvasBase} (first : Untouched c d) (second : Untouched d e) : Untouched c e where
  next := second.next.trans first.next
  image := second.image.trans first.image
  shapeList := second.shapeList.trans first.shapeList
  currentIndex := second.currentIndex.trans first.currentIndex
  task := second.task.trans first.task
  operat := second.operat.trans first.operat
  draw := second.draw.trans first.draw
  name shape := (second.name shape).trans (first.name shape)
  outline shape := (first.outline shape).trans (second.outline shape)

theorem modifyShape (c : CanvasBase) (shape : ShapeId) {f : Shape → Shape}
    (keeps : ∀ s, (f s).name = s.name ∧ SameOutline s (f s)) : Untouched c (c.modifyShape shape f) where
  next := rfl
  image := rfl
  shapeList := rfl
  currentIndex := rfl
  task := rfl
  operat := rfl
  draw := rfl
  name other := by
    by_cases same : other = shape
    · subst same
      rw [CanvasBase.modifyShape_heap_same]
      exact (keeps _).1
    · rw [CanvasBase.modifyShape_heap_other _ _ _ same]
  outline other := by
    by_cases same : other = shape
    · subst same
      rw [CanvasBase.modifyShape_heap_same]
      exact (keeps _).2
    · rw [CanvasBase.modifyShape_heap_other _ _ _ same]
      exact SameOutline.refl _

theorem modify_congr (c : CanvasBase) (shape : ShapeId) {f g : Shape → Shape}
    (agree : (g (c.heap shape)).name = (f (c.heap shape)).name ∧
      SameOutline (f (c.heap shape)) (g (c.heap shape))) :
    Untouched (c.modifyShape shape f) (c.modifyShape shape g) where
  next := rfl
  image := rfl
  shapeList := rfl
  currentIndex := rfl
  task := rfl
  operat := rfl
  draw := rfl
  name other := by
    by_cases same : other = shape
    · subst same
      rw [CanvasBase.modifyShape_heap_same, CanvasBase.modifyShape_heap_same]
      exact agree.1
    · rw [CanvasBase.modifyShape_heap_other _ _ _ same, CanvasBase.modifyShape_heap_other _ _ _ same]
  outline other := by
    by_cases same : other = shape
    · subst same
      rw [CanvasBase.modifyShape_heap_same, CanvasBase.modifyShape_heap_same]
      exact agree.2
    · rw [CanvasBase.modifyShape_heap_other _ _ _ same, CanvasBase.modifyShape_heap_other _ _ _ same]
      exact SameOutline.refl _

theorem mouse (c : CanvasBase) (pos : QPointF) (active insert : ℤ) (drag : Bool) :
    Untouched c { c with lastPressPos := pos, activePoint := active, insertPoint := insert, mouseDrag := drag } :=
  ⟨rfl, rfl, rfl, rfl, rfl, rfl, rfl, fun _ => rfl, fun _ => SameOutline.refl _⟩

end Untouched

namespace CanvasBase

theorem modifyShape_modifyShape (c : CanvasBase) (shape : ShapeId) (f g : Shape → Shape) :
    (c.modifyShape shape f).modifyShape shape g = c.modifyShape shape (g ∘ f) := by
  simp [modifyShape]

section Loops

variable {containsPoint : List QPointF → QPointF → Bool} {pixPos : QPointF} {img : QImage}
  {c d : CanvasBase} {shape : ShapeId} {leaves : Bool}

theorem pressShape_untouched (pressed : c.pressShape containsPoint pixPos shape = .ok (d, leaves)) :
    Untouched c d := by
  unfold pressShape at pressed
  split at pressed
  · cases pressed
    exact Untouched.refl c
  · simp only at pressed
    split at pressed
    · cases pressed
      exact (Untouched.mouse c _ _ _ _).trans (Untouched.modifyShape _ _ fun s => ⟨rfl, rfl, rfl, rfl⟩)
    · split at pressed
      · cases pressed
        exact (Untouched.mouse c _ _ _ _).trans (Untouched.modifyShape _ _ fun s => ⟨rfl, rfl, rfl, rfl⟩)
      · split at pressed
        · cases pressed
          exact (Untouched.mouse c _ _ _ _).trans (Untouched.modifyShape _ _ fun s => ⟨rfl, rfl, rfl, rfl⟩)
        · cases pressed
          exact Untouched.modifyShape _ _ fun s => ⟨rfl, rfl, rfl, rfl⟩

theorem editPress_untouched (pressed : c.editPress containsPoint pixPos = .ok d) : Untouched c d := by
  unfold editPress at pressed
  split at pressed
  · cases pressed
    exact Untouched.refl c
  · have kept : ∀ state next leaves, ∀ item ∈ c.shapeList, Untouched c state →
        state.pressShape containsPoint pixPos item = .ok (next, leaves) → Untouched c next := by
      intro state next leaves item _ before done
      exact before.trans (pressShape_untouched done)
    exact loop_invariant kept (Untouched.mouse c _ _ _ _) pressed

theorem releaseShape_untouched (released : c.releaseShape shape = .ok (d, leaves)) : Untouched c d := by
  unfold releaseShape at released
  split at released
  · cases released
    exact Untouched.refl c
  · cases released
    apply Untouched.modifyShape
    intro s
    by_cases press : s.isPress = true <;> simp only [press] <;> exact ⟨rfl, rfl, rfl, rfl⟩

theorem hoverShape_untouched (hovered : c.hoverShape containsPoint pixPos shape = .ok (d, leaves)) :
    Untouched c d := by
  unfold hoverShape at hovered
  split at hovered
  · cases hovered
    exact Untouched.refl c
  · simp only at hovered
    split at hovered
    · cases hovered
      exact Untouched.modifyShape _ _ fun s => ⟨rfl, rfl, rfl, rfl⟩
    · cases hovered
      rw [modifyShape_modifyShape]
      exact Untouched.modifyShape _ _ fun s => ⟨rfl, rfl, rfl, rfl⟩

def drags (c : CanvasBase) (s : Shape) : Bool :=
  !(decide (c.insertPoint ≥ 0) && s.isPress) && !(c.mouseDrag && s.isPress) && s.isDrag

def reacts (c : CanvasBase) (shape : ShapeId) : Bool :=
  c.editable shape && (decide (c.insertPoint ≥ 0) && (c.heap shape).isPress ||
    c.mouseDrag && (c.heap shape).isPress || (c.heap shape).isDrag)

def dragTarget (c : CanvasBase) : Option ShapeId :=
  (c.shapeList.find? c.reacts).filter fun shape => c.drags (c.heap shape)

inductive Reshaped (img : QImage) (pixPos : QPointF) (c : CanvasBase) (s : Shape) : YPolygonPoints → Prop
  | inserted {points} : c.drags s = false → s.type.twoPoint = false →
      s.points.insert pixPos c.insertPoint = .ok points → Reshaped img pixPos c s points
  | appended : c.drags s = false → s.type.twoPoint = false →
      Reshaped img pixPos c s (s.points.append pixPos)
  | updated {points} : c.drags s = false → s.points.replace pixPos c.activePoint = .ok points →
      Reshaped img pixPos c s points
  | moved : c.drags s = true →
      Reshaped img pixPos c s (s.points.translate (isCloseToEdge img s (pixPos - c.lastPressPos)).2)

theorem Reshaped.size {s : Shape} {points : YPolygonPoints} (reshaped : Reshaped img pixPos c s points) :
    s.pointCount ≤ points.size ∧ (s.type.twoPoint = true → points.size = s.pointCount) := by
  cases reshaped with
  | inserted _ more done =>
    obtain ⟨low, high, _, ori, _⟩ := YPolygonPoints.insert_completes done
    have count : points.size = s.pointCount + 1 := by
      rw [YPolygonPoints.size, ori, List.length_insertIdx_of_le_length]
      · rfl
      · unfold YPolygonPoints.size at high
        omega
    exact ⟨by omega, by simp [more]⟩
  | appended _ more =>
    rw [YPolygonPoints.size_append]
    exact ⟨Nat.le_succ _, by simp [more]⟩
  | updated _ done =>
    obtain ⟨_, _, _, ori, _⟩ := YPolygonPoints.replace_completes done
    have count : points.size = s.pointCount := by
      rw [YPolygonPoints.size, ori, List.length_set]
      rfl
    exact ⟨Nat.le_of_eq count.symm, fun _ => count⟩
  | moved drag =>
    have count : (s.points.translate (isCloseToEdge img s (pixPos - c.lastPressPos)).2).size = s.pointCount :=
      List.length_map _
    exact ⟨Nat.le_of_eq count.symm, fun _ => count⟩

def withActive (c : CanvasBase) (active : ShapeId → Bool) : CanvasBase :=
  { c with heap := fun shape => (c.heap shape).setIsActive (active shape) }

theorem withActive_untouched (c : CanvasBase) (active : ShapeId → Bool) : Untouched c (c.withActive active) :=
  ⟨rfl, rfl, rfl, rfl, rfl, rfl, rfl, fun _ => rfl, fun _ => ⟨rfl, rfl, rfl⟩⟩

theorem withActive_same (c : CanvasBase) : c = c.withActive fun shape => (c.heap shape).isActive := rfl

theorem modify_withActive (c : CanvasBase) (active : ShapeId → Bool) (shape : ShapeId) :
    (c.withActive active).modifyShape shape (·.setIsActive false) =
      c.withActive (Function.update active shape false) := by
  have heaps : Function.update (c.withActive active).heap shape
      (((c.withActive active).heap shape).setIsActive false) =
      (c.withActive (Function.update active shape false)).heap := by
    funext other
    by_cases same : other = shape
    · subst same
      simp [withActive, Shape.setIsActive]
    · simp [withActive, same]
  rw [modifyShape, heaps]
  rfl

theorem orCaught_completes {changed : Except Fault Shape} {keep : Shape → CanvasBase}
    (done : c.orCaught changed keep = .ok (d, leaves)) :
    leaves = true ∧ (d = c ∨ ∃ result, changed = .ok result ∧ d = keep result) := by
  unfold orCaught at done
  split at done
  · cases done
    exact ⟨rfl, .inr ⟨_, rfl, rfl⟩⟩
  · split at done
    · cases done
      exact ⟨rfl, .inl rfl⟩
    · cases done

theorem replaced_untouched (c : CanvasBase) (shape : ShapeId) (pos : QPointF) (active insert : ℤ) (drag : Bool)
    {f : Shape → Shape} {result : Shape} (same : result.name = (f (c.heap shape)).name ∧ SameOutline (f (c.heap shape)) result) :
    Untouched (c.modifyShape shape f)
      ({ c with lastPressPos := pos, activePoint := active, insertPoint := insert, mouseDrag := drag }.modifyShape
        shape fun _ => result) := by
  have replaced : Untouched (c.modifyShape shape f) (c.modifyShape shape fun _ => result) :=
    Untouched.modify_congr c shape same
  exact replaced.trans (Untouched.mouse (c.modifyShape shape fun _ => result) pos active insert drag)

theorem modifyShape_id (c : CanvasBase) (shape : ShapeId) : c.modifyShape shape (fun s => s) = c := by
  simp [modifyShape]

def react (img : QImage) (pixPos : QPointF) (c : CanvasBase) (shape : ShapeId) : Except Fault (CanvasBase × Bool) :=
  let s := c.heap shape
  if c.insertPoint ≥ 0 ∧ s.isPress then
    c.orCaught (s.insertPoint pixPos c.insertPoint) fun s =>
      { c with activePoint := c.insertPoint, insertPoint := -1 }.modifyShape shape fun _ => s
  else if c.mouseDrag ∧ s.isPress then
    c.orCaught (s.updatePoint pixPos c.activePoint) fun s => c.modifyShape shape fun _ => s
  else if s.isDrag then
    let movePos := (isCloseToEdge img s (pixPos - c.lastPressPos)).2
    c.orCaught (s.move movePos) fun s => { c with lastPressPos := pixPos }.modifyShape shape fun _ => s
  else .ok (c, false)

theorem moveShape_eq : c.moveShape containsPoint pixPos img shape =
    if !c.editable shape then .ok (c, false)
    else if (c.heap shape).isAreaHavPt containsPoint pixPos then c.react img pixPos shape
    else (c.modifyShape shape (·.setIsActive false)).react img pixPos shape := by
  unfold moveShape react
  split
  · rfl
  · split
    · rfl
    · rfl

theorem react_insert_completes (branch : c.insertPoint ≥ 0 ∧ (c.heap shape).isPress = true)
    (done : c.react img pixPos shape = .ok (d, leaves)) :
    leaves = true ∧ (Untouched c d ∨ ∃ points, Reshaped img pixPos c (c.heap shape) points ∧
      Untouched (c.modifyShape shape fun s => { s with points }) d) := by
  have still : c.drags (c.heap shape) = false := by simp [drags, branch.1, branch.2]
  simp only [react, if_pos branch] at done
  obtain ⟨left, rfl | ⟨result, inserted, rfl⟩⟩ := orCaught_completes done
  · exact ⟨left, .inl (Untouched.refl _)⟩
  · refine ⟨left, ?_⟩
    rcases Shape.insertPoint_completes inserted with rfl | ⟨more, ⟨points, put, rfl⟩ | ⟨_, rfl⟩⟩
    · have kept := replaced_untouched c shape c.lastPressPos c.insertPoint (-1) c.mouseDrag (f := fun s => s)
        ⟨rfl, SameOutline.refl _⟩
      rw [modifyShape_id] at kept
      exact .inl kept
    · exact .inr ⟨points, .inserted still more put, replaced_untouched c shape _ _ _ _ ⟨rfl, rfl, rfl, rfl⟩⟩
    · exact .inr ⟨_, .appended still more, replaced_untouched c shape _ _ _ _ ⟨rfl, rfl, rfl, rfl⟩⟩

theorem react_update_completes (noInsert : ¬ (c.insertPoint ≥ 0 ∧ (c.heap shape).isPress = true))
    (branch : c.mouseDrag = true ∧ (c.heap shape).isPress = true)
    (done : c.react img pixPos shape = .ok (d, leaves)) :
    leaves = true ∧ (Untouched c d ∨ ∃ points, Reshaped img pixPos c (c.heap shape) points ∧
      Untouched (c.modifyShape shape fun s => { s with points }) d) := by
  have still : c.drags (c.heap shape) = false := by simp [drags, branch.1, branch.2]
  simp only [react, if_neg noInsert, if_pos branch] at done
  obtain ⟨left, rfl | ⟨result, updated, rfl⟩⟩ := orCaught_completes done
  · exact ⟨left, .inl (Untouched.refl _)⟩
  · obtain ⟨points, put, rfl⟩ := Shape.updatePoint_completes updated
    exact ⟨left, .inr ⟨points, .updated still put, Untouched.modify_congr c shape ⟨rfl, rfl, rfl, rfl⟩⟩⟩

theorem react_completes (done : c.react img pixPos shape = .ok (d, leaves)) :
    leaves = (decide (c.insertPoint ≥ 0) && (c.heap shape).isPress || c.mouseDrag && (c.heap shape).isPress ||
        (c.heap shape).isDrag) ∧
      (leaves = false ∧ d = c ∨ leaves = true ∧ ((c.drags (c.heap shape) = false ∧ Untouched c d) ∨
        ∃ points, Reshaped img pixPos c (c.heap shape) points ∧
          Untouched (c.modifyShape shape fun s => { s with points }) d)) := by
  by_cases insert : c.insertPoint ≥ 0 ∧ (c.heap shape).isPress = true
  · obtain ⟨left, changed⟩ := react_insert_completes insert done
    have still : c.drags (c.heap shape) = false := by simp [drags, insert.1, insert.2]
    refine ⟨by simp [left, insert.1, insert.2], .inr ⟨left, ?_⟩⟩
    exact changed.imp (fun same => ⟨still, same⟩) id
  · by_cases update : c.mouseDrag = true ∧ (c.heap shape).isPress = true
    · obtain ⟨left, changed⟩ := react_update_completes insert update done
      have still : c.drags (c.heap shape) = false := by simp [drags, update.1, update.2]
      refine ⟨by simp [left, update.1, update.2], .inr ⟨left, ?_⟩⟩
      exact changed.imp (fun same => ⟨still, same⟩) id
    · have noInsert : (decide (c.insertPoint ≥ 0) && (c.heap shape).isPress) = false := by simpa using insert
      have noUpdate : (c.mouseDrag && (c.heap shape).isPress) = false := by simpa using update
      rw [noInsert, noUpdate, Bool.false_or, Bool.false_or]
      simp only [react, if_neg insert, if_neg update] at done
      cases drag : (c.heap shape).isDrag with
      | false =>
        simp only [drag, Bool.false_eq_true, if_false] at done
        cases done
        exact ⟨rfl, .inl ⟨rfl, rfl⟩⟩
      | true =>
        have dragging : c.drags (c.heap shape) = true := by simp [drags, noInsert, noUpdate, drag]
        simp only [drag, if_true, Shape.move_eq] at done
        cases done
        exact ⟨rfl, .inr ⟨rfl, .inr ⟨_, .moved dragging,
          replaced_untouched c shape _ _ _ _ ⟨rfl, rfl, rfl, rfl⟩⟩⟩⟩

theorem moveShape_completes (moved : c.moveShape containsPoint pixPos img shape = .ok (d, leaves)) :
    ∃ settled, (settled = c ∨ settled = c.modifyShape shape (·.setIsActive false)) ∧
      ((c.reacts shape = false ∧ leaves = false ∧ d = settled) ∨
        (c.reacts shape = true ∧ leaves = true ∧
          ((settled.drags (settled.heap shape) = false ∧ Untouched settled d) ∨
            ∃ points, Reshaped img pixPos settled (settled.heap shape) points ∧
              Untouched (settled.modifyShape shape fun s => { s with points }) d))) := by
  rw [moveShape_eq] at moved
  split at moved
  · rename_i fixed
    cases moved
    have idle : c.reacts shape = false := by
      simp only [Bool.not_eq_true'] at fixed
      simp only [reacts, fixed, Bool.false_and]
    exact ⟨c, .inl rfl, .inl ⟨idle, rfl, rfl⟩⟩
  · rename_i editable
    simp only [Bool.not_eq_true', Bool.not_eq_false] at editable
    have judged : ∀ settled, settled.react img pixPos shape = .ok (d, leaves) →
        (decide (settled.insertPoint ≥ 0) && (settled.heap shape).isPress ||
          settled.mouseDrag && (settled.heap shape).isPress || (settled.heap shape).isDrag) = c.reacts shape →
        (c.reacts shape = false ∧ leaves = false ∧ d = settled) ∨
          (c.reacts shape = true ∧ leaves = true ∧
            ((settled.drags (settled.heap shape) = false ∧ Untouched settled d) ∨
              ∃ points, Reshaped img pixPos settled (settled.heap shape) points ∧
                Untouched (settled.modifyShape shape fun s => { s with points }) d)) := by
      intro settled done branch
      obtain ⟨same, ⟨stays, rfl⟩ | ⟨left, changed⟩⟩ := react_completes done
      · exact .inl ⟨(same.trans branch).symm.trans stays, stays, rfl⟩
      · exact .inr ⟨(same.trans branch).symm.trans left, left, changed⟩
    have branch : c.reacts shape = (decide (c.insertPoint ≥ 0) && (c.heap shape).isPress ||
        c.mouseDrag && (c.heap shape).isPress || (c.heap shape).isDrag) := by
      rw [reacts, editable, Bool.true_and]
    -- the highlight is no part of what decides the branch
    split at moved
    · exact ⟨c, .inl rfl, judged c moved branch.symm⟩
    · refine ⟨_, .inr rfl, judged _ moved ?_⟩
      rw [branch, modifyShape_heap_same]
      rfl

theorem Reshaped.of_withActive {active : ShapeId → Bool} {points : YPolygonPoints}
    (reshaped : Reshaped img pixPos (c.withActive active) ((c.withActive active).heap shape) points) :
    Reshaped img pixPos c (c.heap shape) points := by
  cases reshaped with
  | inserted still more done => exact .inserted still more done
  | appended still more => exact .appended still more
  | updated still done => exact .updated still done
  | moved drag => exact .moved drag

theorem settled_withActive {active : ShapeId → Bool} {settled : CanvasBase}
    (which : settled = c.withActive active ∨
      settled = (c.withActive active).modifyShape shape (·.setIsActive false)) :
    ∃ active, settled = c.withActive active := by
  rcases which with rfl | rfl
  · exact ⟨active, rfl⟩
  · exact ⟨_, modify_withActive c active shape⟩

theorem modify_withActive_untouched (c : CanvasBase) (active : ShapeId → Bool) (shape : ShapeId)
    (points : YPolygonPoints) : Untouched (c.modifyShape shape fun s => { s with points })
      ((c.withActive active).modifyShape shape fun s => { s with points }) := by
  refine ⟨rfl, rfl, rfl, rfl, rfl, rfl, rfl, ?_, ?_⟩ <;> intro other <;> by_cases here : other = shape
  · subst here
    rw [modifyShape_heap_same, modifyShape_heap_same]
    rfl
  · rw [modifyShape_heap_other _ _ _ here, modifyShape_heap_other _ _ _ here]
    rfl
  · subst here
    rw [modifyShape_heap_same, modifyShape_heap_same]
    exact ⟨rfl, rfl, rfl⟩
  · rw [modifyShape_heap_other _ _ _ here, modifyShape_heap_other _ _ _ here]
    exact ⟨rfl, rfl, rfl⟩

/-- A mouse move changes the points of at most one shape, the first one that reacts. -/
theorem moveLoop_completes {active : ShapeId → Bool} {items : List ShapeId}
    (moved : loop (moveShape containsPoint pixPos img) (c.withActive active) items = .ok d) :
    (Untouched c d ∧ ∀ shape, items.find? c.reacts = some shape → c.drags (c.heap shape) = false) ∨
      ∃ shape, items.find? c.reacts = some shape ∧ ∃ points, Reshaped img pixPos c (c.heap shape) points ∧
        Untouched (c.modifyShape shape fun s => { s with points }) d := by
  induction items generalizing active with
  | nil =>
    cases moved
    exact .inl ⟨withActive_untouched c active, by simp⟩
  | cons shape items ih =>
    simp only [loop] at moved
    cases taken : moveShape containsPoint pixPos img (c.withActive active) shape with
    | error fault => simp [taken] at moved
    | ok result =>
      obtain ⟨next, leaves⟩ := result
      rw [taken] at moved
      obtain ⟨settled, which, ⟨idle, rfl, rfl⟩ | ⟨reacting, rfl, changed⟩⟩ := moveShape_completes taken
      · obtain ⟨active, rfl⟩ := settled_withActive which
        have passed : c.reacts shape = false := idle
        simp only [List.find?_cons, passed]
        exact ih moved
      · cases moved
        obtain ⟨active, rfl⟩ := settled_withActive which
        have stops : c.reacts shape = true := reacting
        simp only [List.find?_cons, stops, Option.some.injEq, forall_eq']
        rcases changed with ⟨still, same⟩ | ⟨points, reshaped, same⟩
        · exact .inl ⟨(withActive_untouched c active).trans same, still⟩
        · exact .inr ⟨shape, rfl, points, reshaped.of_withActive,
            (modify_withActive_untouched c active shape points).trans same⟩

end Loops

end CanvasBase

namespace Command

variable {command recorded : Command} {c d : CanvasBase}

structure Thinned (c d : CanvasBase) : Prop where
  heap : d.heap = c.heap
  next : d.next = c.next
  image : d.image = c.image
  shapeList : d.shapeList.Sublist c.shapeList
  task : d.task = c.task
  operat : d.operat = c.operat
  draw : d.draw = c.draw

theorem deleteShape_thinned {shapeName : String} (deleted : c.deleteShape shapeName = .ok d) : Thinned c d := by
  rcases CanvasBase.deleteShape_cases c shapeName with same | ⟨i, _, removed⟩
  · rw [same] at deleted
    cases deleted
    exact ⟨rfl, rfl, rfl, List.Sublist.refl _, rfl, rfl, rfl⟩
  · rw [removed] at deleted
    cases deleted
    exact ⟨rfl, rfl, rfl, List.eraseIdx_sublist _ _, rfl, rfl, rfl⟩

theorem redo_cases (done : command.redo c = .ok (recorded, d)) :
    (∃ shape shapeName, command = .addShape (some shape) shapeName ∧ d = c.appended shape) ∨
    (∃ shape point pointName, command = .addPoint (some shape) point pointName ∧
      d = c.modifyShape shape (·.appendPoint point)) ∨
    (((∃ shape shapeName, command = .removeShape shape shapeName) ∨
      ∃ point pointName, command = .addPoint none point pointName) ∧ Thinned c d) := by
  cases command with
  | addShape shape shapeName =>
    obtain ⟨⟨base, name⟩, added, rest⟩ := bind_completes done
    cases rest
    cases shape with
    | none => cases added
    | some shape =>
      rw [CanvasBase.addShape_eq] at added
      cases added
      exact .inl ⟨shape, shapeName, rfl, rfl⟩
  | removeShape shape shapeName =>
    obtain ⟨base, deleted, rest⟩ := bind_completes done
    cases rest
    exact .inr (.inr ⟨.inl ⟨shape, shapeName, rfl⟩, deleteShape_thinned deleted⟩)
  | addPoint shape point pointName =>
    cases done
    cases shape with
    | none => exact .inr (.inr ⟨.inr ⟨point, pointName, rfl⟩, rfl, rfl, rfl, List.Sublist.refl _, rfl, rfl, rfl⟩)
    | some shape => exact .inr (.inl ⟨shape, point, pointName, rfl, rfl⟩)

theorem undo_cases (done : command.undo c = .ok (recorded, d)) :
    (∃ shape shapeName, command = .removeShape (some shape) shapeName ∧ d = c.appended shape) ∨
    (∃ shape point pointName deleted, command = .addPoint (some shape) point pointName ∧
      (c.heap shape).deletePoint (QString.toInt pointName) = .ok deleted ∧
      d = c.modifyShape shape fun _ => deleted) ∨
    ((∃ shape shapeName, command = .addShape shape shapeName) ∧ Thinned c d) := by
  cases command with
  | addShape shape shapeName =>
    obtain ⟨base, deleted, rest⟩ := bind_completes done
    cases rest
    exact .inr (.inr ⟨⟨shape, shapeName, rfl⟩, deleteShape_thinned deleted⟩)
  | removeShape shape shapeName =>
    obtain ⟨⟨base, name⟩, added, rest⟩ := bind_completes done
    cases rest
    cases shape with
    | none => cases added
    | some shape =>
      rw [CanvasBase.addShape_eq] at added
      cases added
      exact .inl ⟨shape, shapeName, rfl, rfl⟩
  | addPoint shape point pointName =>
    obtain ⟨base, deleted, rest⟩ := bind_completes done
    cases rest
    cases shape with
    | none => cases deleted
    | some shape =>
      obtain ⟨result, erased, rest⟩ := bind_completes deleted
      cases rest
      exact .inr (.inl ⟨shape, point, pointName, result, rfl, erased, rfl⟩)

theorem appended_outline (c : CanvasBase) (shape other : ShapeId) :
    SameOutline (c.heap other) ((c.appended shape).heap other) := by
  by_cases same : other = shape
  · subst same
    simp only [CanvasBase.appended, Function.update_self]
    exact ⟨rfl, rfl, rfl⟩
  · simp only [CanvasBase.appended, Function.update_of_ne same]
    exact SameOutline.refl _

end Command

end XYAnnotation

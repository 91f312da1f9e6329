import XYAnnotation.Annotations.RawPoints
import XYAnnotation.Canvas.Handlers

namespace XYAnnotation

open Library

namespace YPolygonPoints

variable {old points : YPolygonPoints} {first : QPointF} {pos : ℤ}

theorem set_insertIdx_self {α : Type} (values : List α) (i : ℕ) (a b : α) :
    (values.insertIdx i a).set i b = values.insertIdx i b := by
  induction i generalizing values with
  | zero => rfl
  | succ i ih =>
    cases values with
    | nil => rfl
    | cons value values =>
      rw [List.insertIdx_succ_cons, List.set_cons_succ, ih, List.insertIdx_succ_cons]

theorem replace_replace (second : QPointF) (once : old.replace first pos = .ok points) :
    ∃ result, points.replace second pos = .ok result ∧ old.replace second pos = .ok result := by
  obtain ⟨low, high, offset, ori, img⟩ := replace_completes once
  have size : points.size = old.size := by
    rw [YPolygonPoints.size, ori, List.length_set]
    rfl
  obtain ⟨result, direct⟩ := replace_inside old second low high
  obtain ⟨other, again⟩ := replace_inside points second low (size ▸ high)
  obtain ⟨_, _, offset', ori', img'⟩ := replace_completes direct
  obtain ⟨_, _, offset'', ori'', img''⟩ := replace_completes again
  have same : other = result := by
    apply points_ext
    · rw [img'', img', img, offset, List.set_set]
    · rw [ori'', ori', ori, List.set_set]
    · rw [offset'', offset', offset]
  exact ⟨result, same ▸ again, direct⟩

theorem insert_replace (second : QPointF) (once : old.insert first pos = .ok points) :
    ∃ result, points.replace second pos = .ok result ∧ old.insert second pos = .ok result := by
  obtain ⟨low, high, offset, ori, img⟩ := insert_completes once
  have bound : pos.toNat ≤ old.oriPoints.length := by
    unfold YPolygonPoints.size at high
    omega
  have size : points.size = old.size + 1 := by
    rw [YPolygonPoints.size, ori, List.length_insertIdx_of_le_length bound]
    rfl
  obtain ⟨result, direct⟩ := insert_inside old second low high
  obtain ⟨other, again⟩ := replace_inside points second low (by omega)
  obtain ⟨_, _, offset', ori', img'⟩ := insert_completes direct
  obtain ⟨_, _, offset'', ori'', img''⟩ := replace_completes again
  have same : other = result := by
    apply points_ext
    · rw [img'', img', img, offset, set_insertIdx_self]
    · rw [ori'', ori', ori, set_insertIdx_self]
    · rw [offset'', offset', offset]
  exact ⟨result, same ▸ again, direct⟩

theorem insert_at_end (old : YPolygonPoints) (point : QPointF) :
    old.insert point old.size = .ok (old.append point) := by
  obtain ⟨result, done⟩ := insert_inside old point (Int.natCast_nonneg _) (le_refl (old.size : ℤ))
  obtain ⟨_, _, offset, ori, img⟩ := insert_completes done
  rw [done]
  congr 1
  apply points_ext
  · rw [img, Int.toNat_natCast, YPolygonPoints.size, ← old.inStep, List.insertIdx_length_self]
    rfl
  · rw [ori, Int.toNat_natCast, YPolygonPoints.size, List.insertIdx_length_self]
    rfl
  · exact offset

theorem translate_translate (old : YPolygonPoints) (first second : QPointF) :
    (old.translate first).translate second = old.translate (first + second) := by
  have assoc : ∀ vertex : QPointF, vertex + first + second = vertex + (first + second) := by
    intro vertex
    ext
    · exact add_assoc _ _ _
    · exact add_assoc _ _ _
  apply points_ext
  · simp [translate, Function.comp_def, assoc]
  · simp [translate, Function.comp_def, assoc]
  · rfl

end YPolygonPoints

inductive Phase (old : YPolygonPoints) (last : QPointF) (c : CanvasBase) (s : Shape) : Prop
  | inserting (press : s.isPress = true) (hold : c.mouseDrag = true) (position : 0 ≤ c.insertPoint)
      (points : s.points = old)
  | replacing (press : s.isPress = true) (hold : c.mouseDrag = true) (position : c.insertPoint < 0)
      (points : s.points = old ∨ old.replace last c.activePoint = .ok s.points)
  | inserted (press : s.isPress = true) (hold : c.mouseDrag = true) (position : c.insertPoint < 0)
      (points : old.insert last c.activePoint = .ok s.points)
  | dragging (press : s.isPress = false) (drag : s.isDrag = true)
      (points : s.points = old ∨ ∃ delta, s.points = old.translate delta)

namespace CanvasBase

variable {containsPoint : List QPointF → QPointF → Bool} {pixPos last : QPointF} {img : QImage}
  {c d : CanvasBase} {shape : ShapeId} {old : YPolygonPoints}

theorem react_idle (press : (c.heap shape).isPress = false) (drag : (c.heap shape).isDrag = false) :
    c.react img pixPos shape = .ok (c, false) := by
  simp only [react, press, drag, Bool.false_eq_true, and_false, if_false]

structure Stage (c d : CanvasBase) : Prop where
  image : d.image = c.image
  task : d.task = c.task
  operat : d.operat = c.operat
  shapeList : d.shapeList = c.shapeList

theorem Stage.refl (c : CanvasBase) : Stage c c := ⟨rfl, rfl, rfl, rfl⟩

theorem Stage.trans {e : CanvasBase} (first : Stage c d) (second : Stage d e) : Stage c e :=
  ⟨second.image.trans first.image, second.task.trans first.task, second.operat.trans first.operat,
    second.shapeList.trans first.shapeList⟩

structure Moved (shape : ShapeId) (c d : CanvasBase) : Prop where
  stage : Stage c d
  others : ∀ other, other ≠ shape → d.heap other = c.heap other
  editable : d.editable shape = c.editable shape

theorem Moved.refl (shape : ShapeId) (c : CanvasBase) : Moved shape c c :=
  ⟨Stage.refl c, fun _ _ => rfl, rfl⟩

theorem moved_points (c : CanvasBase) (shape : ShapeId) (points : YPolygonPoints) (pos : QPointF)
    (active insert : ℤ) :
    Moved shape c ({ c with lastPressPos := pos, activePoint := active, insertPoint := insert }.modifyShape shape
      fun _ => { c.heap shape with points }) where
  stage := ⟨rfl, rfl, rfl, rfl⟩
  others other different := modifyShape_heap_other _ _ _ different
  editable := by
    unfold editable
    rw [modifyShape_heap_same]

theorem updatePoint_of_replace {s : Shape} {points : YPolygonPoints} {pos : ℤ}
    (done : s.points.replace pixPos pos = .ok points) : s.updatePoint pixPos pos = .ok { s with points } := by
  obtain ⟨low, high, _⟩ := YPolygonPoints.replace_completes done
  rw [Shape.updatePoint, if_pos ⟨high, low⟩, done]
  rfl

theorem orCaught_call (c : CanvasBase) (s : Shape) (call : PointCall) (keep : Shape → CanvasBase) :
    (∃ result, s.call call = .ok result ∧ c.orCaught (s.call call) keep = .ok (keep result, true)) ∨
      c.orCaught (s.call call) keep = .ok (c, true) := by
  cases done : s.call call with
  | ok result => exact .inl ⟨result, rfl, rfl⟩
  | error fault =>
    rw [Shape.call_fault done]
    exact .inr rfl

theorem react_insert (press : (c.heap shape).isPress = true) (hold : c.mouseDrag = true)
    (position : 0 ≤ c.insertPoint) (points : (c.heap shape).points = old) :
    ∃ d, c.react img pixPos shape = .ok (d, true) ∧ Moved shape c d ∧ Phase old pixPos d (d.heap shape) := by
  have branch : c.react img pixPos shape = c.orCaught ((c.heap shape).call (.insertPoint pixPos c.insertPoint))
      fun s => { c with activePoint := c.insertPoint, insertPoint := -1 }.modifyShape shape fun _ => s := by
    rw [react, if_pos ⟨position, press⟩]
    rfl
  rw [branch]
  rcases orCaught_call c (c.heap shape) (.insertPoint pixPos c.insertPoint) _ with ⟨result, done, kept⟩ | caught
  · refine ⟨_, kept, ?_⟩
    have below : (-1 : ℤ) < 0 := by decide
    rcases Shape.insertPoint_completes done with rfl | ⟨_, ⟨longer, inserted, rfl⟩ | ⟨last, rfl⟩⟩
    · refine ⟨moved_points c shape (c.heap shape).points _ _ _, ?_⟩
      rw [modifyShape_heap_same]
      exact .replacing press hold below (.inl points)
    · refine ⟨moved_points c shape longer _ _ _, ?_⟩
      rw [modifyShape_heap_same]
      rw [points] at inserted
      exact .inserted press hold below inserted
    · refine ⟨moved_points c shape _ _ _ _, ?_⟩
      rw [modifyShape_heap_same]
      have inserted : old.insert pixPos c.insertPoint = .ok (old.append pixPos) := by
        rw [last, points]
        exact YPolygonPoints.insert_at_end old pixPos
      rw [points]
      exact .inserted press hold below inserted
  · exact ⟨c, caught, Moved.refl shape c, .inserting press hold position points⟩

theorem react_update (press : (c.heap shape).isPress = true) (hold : c.mouseDrag = true)
    (position : c.insertPoint < 0) :
    c.react img pixPos shape = c.orCaught ((c.heap shape).call (.updatePoint pixPos c.activePoint))
      fun s => c.modifyShape shape fun _ => s := by
  rw [react, if_neg (by omega), if_pos ⟨hold, press⟩]
  rfl

theorem react_phase (phase : Phase old last c (c.heap shape)) :
    ∃ d, c.react img pixPos shape = .ok (d, true) ∧ Moved shape c d ∧ Phase old pixPos d (d.heap shape) := by
  cases phase with
  | inserting press hold position points => exact react_insert press hold position points
  | replacing press hold position points =>
    rw [react_update press hold position]
    rcases points with points | replaced
    · rcases orCaught_call c (c.heap shape) (.updatePoint pixPos c.activePoint) _ with ⟨result, done, kept⟩ | caught
      · refine ⟨_, kept, ?_⟩
        obtain ⟨changed, replaced, rfl⟩ := Shape.updatePoint_completes done
        refine ⟨moved_points c shape changed _ _ _, ?_⟩
        rw [modifyShape_heap_same]
        rw [points] at replaced
        exact .replacing press hold position (.inr replaced)
      · exact ⟨c, caught, Moved.refl shape c, .replacing press hold position (.inl points)⟩
    · obtain ⟨changed, again, direct⟩ := YPolygonPoints.replace_replace pixPos replaced
      rw [Shape.call, updatePoint_of_replace again]
      refine ⟨_, rfl, moved_points c shape changed _ _ _, ?_⟩
      rw [modifyShape_heap_same]
      exact .replacing press hold position (.inr direct)
  | inserted press hold position points =>
    rw [react_update press hold position]
    obtain ⟨changed, again, direct⟩ := YPolygonPoints.insert_replace pixPos points
    rw [Shape.call, updatePoint_of_replace again]
    refine ⟨_, rfl, moved_points c shape changed _ _ _, ?_⟩
    rw [modifyShape_heap_same]
    exact .inserted press hold position direct
  | dragging press drag points =>
    have noInsert : ¬ (c.insertPoint ≥ 0 ∧ (c.heap shape).isPress = true) := by simp [press]
    have noUpdate : ¬ (c.mouseDrag = true ∧ (c.heap shape).isPress = true) := by simp [press]
    rw [react, if_neg noInsert, if_neg noUpdate, if_pos drag]
    simp only [Shape.move_eq]
    refine ⟨_, rfl, moved_points c shape _ _ _ _, ?_⟩
    rw [modifyShape_heap_same]
    have further : ∀ movePos, ∃ delta, (c.heap shape).points.translate movePos = old.translate delta := by
      intro movePos
      rcases points with points | ⟨delta, points⟩
      · exact ⟨movePos, by rw [points]⟩
      · exact ⟨delta + movePos, by rw [points, YPolygonPoints.translate_translate]⟩
    exact .dragging press drag (.inr (further _))

structure Held (c : CanvasBase) (last : QPointF) (shape : ShapeId) (d : CanvasBase) : Prop where
  stage : Stage c d
  listed : shape ∈ c.shapeList
  editable : d.editable shape = true
  points : ∀ other, other ≠ shape → (d.heap other).points = (c.heap other).points
  idle : ∀ other ∈ c.shapeList, other ≠ shape → (d.heap other).isPress = false ∧ (d.heap other).isDrag = false
  phase : Phase (c.heap shape).points last d (d.heap shape)

structure Free (c d : CanvasBase) : Prop where
  stage : Stage c d
  points : ∀ shape, (d.heap shape).points = (c.heap shape).points
  idle : ∀ shape ∈ c.shapeList, (d.heap shape).isPress = false ∧ (d.heap shape).isDrag = false

theorem setIsActive_heap (c : CanvasBase) (shape other : ShapeId) (active : Bool) :
    ∃ shown, (c.modifyShape shape (·.setIsActive active)).heap other = (c.heap other).setIsActive shown := by
  by_cases same : other = shape
  · rw [same, modifyShape_heap_same]
    exact ⟨active, rfl⟩
  · rw [modifyShape_heap_other _ _ _ same]
    exact ⟨(c.heap other).isActive, rfl⟩

theorem Phase.setIsActive {s : Shape} (phase : Phase old last c s) (other : ShapeId) (f : Shape → Shape)
    (shown : Bool) : Phase old last (c.modifyShape other f) (s.setIsActive shown) := by
  cases phase with
  | inserting press hold position points => exact .inserting press hold position points
  | replacing press hold position points => exact .replacing press hold position points
  | inserted press hold position points => exact .inserted press hold position points
  | dragging press drag points => exact .dragging press drag points

theorem Held.setIsActive (held : Held c last shape d) (other : ShapeId) (active : Bool) :
    Held c last shape (d.modifyShape other (·.setIsActive active)) where
  stage := held.stage.trans ⟨rfl, rfl, rfl, rfl⟩
  listed := held.listed
  editable := by
    obtain ⟨shown, same⟩ := setIsActive_heap d other shape active
    rw [CanvasBase.editable, same]
    exact held.editable
  points third different := by
    obtain ⟨shown, same⟩ := setIsActive_heap d other third active
    rw [same]
    exact held.points third different
  idle third member different := by
    obtain ⟨shown, same⟩ := setIsActive_heap d other third active
    rw [same]
    exact held.idle third member different
  phase := by
    obtain ⟨shown, same⟩ := setIsActive_heap d other shape active
    rw [same]
    exact Phase.setIsActive held.phase other _ shown

theorem Free.setIsActive (free : Free c d) (other : ShapeId) (active : Bool) :
    Free c (d.modifyShape other (·.setIsActive active)) where
  stage := free.stage.trans ⟨rfl, rfl, rfl, rfl⟩
  points shape := by
    obtain ⟨shown, same⟩ := setIsActive_heap d other shape active
    rw [same]
    exact free.points shape
  idle shape member := by
    obtain ⟨shown, same⟩ := setIsActive_heap d other shape active
    rw [same]
    exact free.idle shape member

theorem Held.moved {e : CanvasBase} {next : QPointF} (held : Held c last shape d) (moved : Moved shape d e)
    (phase : Phase (c.heap shape).points next e (e.heap shape)) : Held c next shape e where
  stage := held.stage.trans moved.stage
  listed := held.listed
  editable := moved.editable.trans held.editable
  points other different := by
    rw [moved.others other different]
    exact held.points other different
  idle other member different := by
    rw [moved.others other different]
    exact held.idle other member different
  phase := phase

theorem moveShape_passes {Inv : CanvasBase → Prop}
    (settles : ∀ d other active, Inv d → Inv (d.modifyShape other (·.setIsActive active)))
    {other : ShapeId} (idle : ∀ d, Inv d → (d.heap other).isPress = false ∧ (d.heap other).isDrag = false)
    (inv : Inv d) : ∃ e, d.moveShape containsPoint pixPos img other = .ok (e, false) ∧ Inv e := by
  rw [moveShape_eq]
  split
  · exact ⟨d, rfl, inv⟩
  · split
    · rw [react_idle (idle d inv).1 (idle d inv).2]
      exact ⟨d, rfl, inv⟩
    · have settled := settles d other false inv
      rw [react_idle (idle _ settled).1 (idle _ settled).2]
      exact ⟨_, rfl, settled⟩

theorem Held.moveShape (held : Held c last shape d) :
    ∃ e, d.moveShape containsPoint pixPos img shape = .ok (e, true) ∧ Held c pixPos shape e := by
  have step : ∀ {d}, Held c last shape d →
      ∃ e, d.react img pixPos shape = .ok (e, true) ∧ Held c pixPos shape e := by
    intro d held
    obtain ⟨e, done, moved, phase⟩ := react_phase held.phase
    exact ⟨e, done, held.moved moved phase⟩
  rw [moveShape_eq, held.editable, Bool.not_true, if_neg Bool.false_ne_true]
  split
  · exact step held
  · exact step (held.setIsActive shape false)

theorem Held.moveLoop {items : List ShapeId} (held : Held c last shape d) (inside : ∀ other ∈ items, other ∈ c.shapeList)
    (ahead : shape ∈ items) :
    ∃ e, loop (CanvasBase.moveShape containsPoint pixPos img) d items = .ok e ∧ Held c pixPos shape e := by
  induction items generalizing d with
  | nil => cases ahead
  | cons item items ih =>
    by_cases here : item = shape
    · subst here
      obtain ⟨e, done, kept⟩ := held.moveShape
      rw [loop, done]
      exact ⟨e, rfl, kept⟩
    · have idle : ∀ d, Held c last shape d → (d.heap item).isPress = false ∧ (d.heap item).isDrag = false :=
        fun d held => held.idle item (inside item (by simp)) here
      obtain ⟨e, done, kept⟩ := moveShape_passes (fun d other active held => held.setIsActive other active) idle held
      rw [loop, done]
      apply ih kept
      · intro other member
        exact inside other (List.mem_cons_of_mem _ member)
      · exact List.mem_of_ne_of_mem (Ne.symm here) ahead

theorem Free.moveLoop {items : List ShapeId} (free : Free c d) (inside : ∀ other ∈ items, other ∈ c.shapeList) :
    ∃ e, loop (CanvasBase.moveShape containsPoint pixPos img) d items = .ok e ∧ Free c e := by
  induction items generalizing d with
  | nil => exact ⟨d, rfl, free⟩
  | cons item items ih =>
    have idle : ∀ d, Free c d → (d.heap item).isPress = false ∧ (d.heap item).isDrag = false :=
      fun d free => free.idle item (inside item (by simp))
    obtain ⟨e, done, kept⟩ := moveShape_passes (fun d other active free => free.setIsActive other active) idle free
    rw [loop, done]
    apply ih kept
    intro other member
    exact inside other (List.mem_cons_of_mem _ member)

theorem Free.held (free : Free c d) (listed : shape ∈ c.shapeList) (editable : d.editable shape = true)
    (pos : QPointF) (active insert : ℤ) (drag : Bool) {f : Shape → Shape}
    (keeps : ∀ s : Shape, (f s).points = s.points ∧ (f s).isClosed = s.isClosed ∧ (f s).label = s.label)
    (phase : Phase (c.heap shape).points last
      { d with lastPressPos := pos, activePoint := active, insertPoint := insert, mouseDrag := drag }
      (f (d.heap shape))) :
    Held c last shape
      ({ d with lastPressPos := pos, activePoint := active, insertPoint := insert, mouseDrag := drag }.modifyShape
        shape f) where
  stage := free.stage.trans ⟨rfl, rfl, rfl, rfl⟩
  listed := listed
  editable := by
    unfold CanvasBase.editable at editable ⊢
    rw [modifyShape_heap_same]
    simp only [(keeps (d.heap shape)).2.1, (keeps (d.heap shape)).2.2]
    exact editable
  points other different := by
    rw [modifyShape_heap_other _ _ _ different]
    exact free.points other
  idle other member different := by
    rw [modifyShape_heap_other _ _ _ different]
    exact free.idle other member
  phase := by
    rw [modifyShape_heap_same]
    cases phase with
    | inserting press hold position points => exact .inserting press hold position points
    | replacing press hold position points => exact .replacing press hold position points
    | inserted press hold position points => exact .inserted press hold position points
    | dragging press drag points => exact .dragging press drag points

theorem Free.setIsSelect (free : Free c d) (other : ShapeId) :
    Free c (d.modifyShape other (·.setIsSelect false)) where
  stage := free.stage.trans ⟨rfl, rfl, rfl, rfl⟩
  points shape := by
    by_cases same : shape = other
    · rw [same, modifyShape_heap_same]
      exact free.points other
    · rw [modifyShape_heap_other _ _ _ same]
      exact free.points shape
  idle shape member := by
    by_cases same : shape = other
    · rw [same, modifyShape_heap_same]
      exact free.idle other (same ▸ member)
    · rw [modifyShape_heap_other _ _ _ same]
      exact free.idle shape member

theorem Free.pressShape (free : Free c d) (noInsert : d.insertPoint = -1) (listed : shape ∈ c.shapeList)
    (containsPoint : List QPointF → QPointF → Bool) (pixPos last : QPointF) :
    ∃ e leaves, d.pressShape containsPoint pixPos shape = .ok (e, leaves) ∧
      ((leaves = true ∧ Held c last shape e) ∨ (leaves = false ∧ Free c e ∧ e.insertPoint = -1 ∧
        e.mouseDrag = d.mouseDrag)) := by
  unfold CanvasBase.pressShape
  have idle := free.idle shape listed
  split
  · exact ⟨d, false, rfl, .inr ⟨rfl, free, noInsert, rfl⟩⟩
  · rename_i fixed
    simp only [Bool.not_eq_true', Bool.not_eq_false] at fixed
    simp only
    split
    · rename_i pos _
      refine ⟨_, true, rfl, .inl ⟨rfl, free.held listed fixed _ _ _ _ ?_ ?_⟩⟩
      · intro s
        exact ⟨rfl, rfl, rfl⟩
      · exact .inserting rfl rfl (Int.natCast_nonneg pos) (free.points shape)
    · split
      · rename_i pos _
        refine ⟨_, true, rfl, .inl ⟨rfl, free.held listed fixed _ _ _ _ ?_ ?_⟩⟩
        · intro s
          exact ⟨rfl, rfl, rfl⟩
        · have below : d.insertPoint < 0 := by omega
          exact .replacing rfl rfl below (.inl (free.points shape))
      · split
        · refine ⟨_, true, rfl, .inl ⟨rfl, free.held listed fixed _ _ _ _ ?_ ?_⟩⟩
          · intro s
            exact ⟨rfl, rfl, rfl⟩
          · exact .dragging idle.1 rfl (.inl (free.points shape))
        · exact ⟨_, false, rfl, .inr ⟨rfl, free.setIsSelect shape, noInsert, rfl⟩⟩

theorem Free.pressLoop {items : List ShapeId} (free : Free c d) (noInsert : d.insertPoint = -1)
    (inside : ∀ shape ∈ items, shape ∈ c.shapeList) (containsPoint : List QPointF → QPointF → Bool)
    (pixPos last : QPointF) :
    ∃ e, loop (CanvasBase.pressShape containsPoint pixPos) d items = .ok e ∧
      ((∃ shape, Held c last shape e) ∨ Free c e) := by
  induction items generalizing d with
  | nil => exact ⟨d, rfl, .inr free⟩
  | cons item items ih =>
    obtain ⟨e, leaves, done, ⟨rfl, held⟩ | ⟨rfl, passed, noInsert', _⟩⟩ :=
      free.pressShape noInsert (inside item (by simp)) containsPoint pixPos last
    · rw [loop, done]
      exact ⟨e, rfl, .inl ⟨item, held⟩⟩
    · rw [loop, done]
      apply ih passed noInsert'
      intro shape member
      exact inside shape (List.mem_cons_of_mem _ member)

structure Released (c d : CanvasBase) : Prop where
  stage : Stage c d
  mouseDrag : d.mouseDrag = c.mouseDrag
  points : ∀ shape, (d.heap shape).points = (c.heap shape).points
  editable : ∀ shape, d.editable shape = c.editable shape
  idle : ∀ shape, (c.heap shape).isPress = false ∧ (c.heap shape).isDrag = false →
    (d.heap shape).isPress = false ∧ (d.heap shape).isDrag = false

theorem Released.trans {e : CanvasBase} (first : Released c d) (second : Released d e) : Released c e where
  stage := first.stage.trans second.stage
  mouseDrag := second.mouseDrag.trans first.mouseDrag
  points shape := (second.points shape).trans (first.points shape)
  editable shape := (second.editable shape).trans (first.editable shape)
  idle shape loose := second.idle shape (first.idle shape loose)

theorem releaseShape_released (c : CanvasBase) (shape : ShapeId) :
    ∃ d, c.releaseShape shape = .ok (d, false) ∧ Released c d ∧
      (d.editable shape = true → (d.heap shape).isPress = false ∧ (d.heap shape).isDrag = false) := by
  unfold releaseShape
  split
  · rename_i fixed
    simp only [Bool.not_eq_true'] at fixed
    refine ⟨c, rfl, ⟨Stage.refl c, rfl, fun _ => rfl, fun _ => rfl, fun _ loose => loose⟩, ?_⟩
    intro editable
    rw [fixed] at editable
    cases editable
  · have loosened : ∀ s : Shape,
        let r := (if s.isPress then (s.setControlPtActive (-1)).setIsPress false
          else s.setControlPtActive (-1)).setIsDrag false
        r.points = s.points ∧ r.isClosed = s.isClosed ∧ r.label = s.label ∧ r.isPress = false ∧ r.isDrag = false := by
      intro s
      cases pressed : s.isPress with
      | true => exact ⟨rfl, rfl, rfl, rfl, rfl⟩
      | false => exact ⟨rfl, rfl, rfl, pressed, rfl⟩
    refine ⟨_, rfl, ⟨⟨rfl, rfl, rfl, rfl⟩, rfl, ?_, ?_, ?_⟩, ?_⟩
    · intro other
      by_cases same : other = shape
      · rw [same, modifyShape_heap_same]
        exact (loosened _).1
      · rw [modifyShape_heap_other _ _ _ same]
    · intro other
      unfold editable
      by_cases same : other = shape
      · rw [same, modifyShape_heap_same, (loosened _).2.1, (loosened _).2.2.1]
      · rw [modifyShape_heap_other _ _ _ same]
    · intro other loose
      by_cases same : other = shape
      · rw [same, modifyShape_heap_same]
        exact (loosened _).2.2.2
      · rw [modifyShape_heap_other _ _ _ same]
        exact loose
    · intro _
      rw [modifyShape_heap_same]
      exact (loosened _).2.2.2

theorem releaseLoop_released (c : CanvasBase) (items : List ShapeId) :
    ∃ d, loop releaseShape c items = .ok d ∧ Released c d ∧
      ∀ shape ∈ items, d.editable shape = true → (d.heap shape).isPress = false ∧ (d.heap shape).isDrag = false := by
  induction items generalizing c with
  | nil => exact ⟨c, rfl, ⟨Stage.refl c, rfl, fun _ => rfl, fun _ => rfl, fun _ loose => loose⟩, by simp⟩
  | cons item items ih =>
    obtain ⟨d, done, first, loose⟩ := releaseShape_released c item
    obtain ⟨e, rest, second, all⟩ := ih d
    refine ⟨e, ?_, first.trans second, ?_⟩
    · rw [loop, done]
      exact rest
    · intro shape member editable
      rcases List.mem_cons.mp member with rfl | member
      · rw [second.editable] at editable
        exact second.idle shape (loose editable)
      · exact all shape member editable

end CanvasBase

namespace Canvas2D

open CanvasBase

/-- What a gesture of edit mode can make of a list of vertices: nothing, one vertex at the last position of the mouse
    in the place of another or between the others, or all vertices displaced alike. -/
def Edited (last : QPointF) (old new : List QPointF) : Prop :=
  new = old ∨ (∃ i < old.length, new = old.set i last) ∨ (∃ i ≤ old.length, new = old.insertIdx i last) ∨
    ∃ delta, new = old.map (· + delta)

theorem edited_of_phase {old : YPolygonPoints} {last : QPointF} {c : CanvasBase} {s : Shape}
    (phase : Phase old last c s) : Edited last old.oriPoints s.points.oriPoints := by
  cases phase with
  | inserting press hold position points => exact .inl (by rw [points])
  | replacing press hold position points =>
    rcases points with points | replaced
    · exact .inl (by rw [points])
    · obtain ⟨low, high, _, ori, _⟩ := YPolygonPoints.replace_completes replaced
      refine .inr (.inl ⟨c.activePoint.toNat, ?_, ori⟩)
      unfold YPolygonPoints.size at high
      omega
  | inserted press hold position points =>
    obtain ⟨low, high, _, ori, _⟩ := YPolygonPoints.insert_completes points
    refine .inr (.inr (.inl ⟨c.activePoint.toNat, ?_, ori⟩))
    unfold YPolygonPoints.size at high
    omega
  | dragging press drag points =>
    rcases points with points | ⟨delta, points⟩
    · exact .inl (by rw [points])
    · exact .inr (.inr (.inr ⟨delta, by rw [points]; rfl⟩))

variable {c d : Canvas2D} {img : QImage}

def During (c : Canvas2D) (last : QPointF) (d : Canvas2D) : Prop :=
  (∃ shape, Held c.toCanvasBase last shape d.toCanvasBase) ∨ Free c.toCanvasBase d.toCanvasBase

theorem During.stage {last : QPointF} (during : During c last d) : Stage c.toCanvasBase d.toCanvasBase := by
  rcases during with ⟨shape, held⟩ | free
  · exact held.stage
  · exact free.stage

theorem mousePress_during (loaded : c.image = some img) (task : c.task = .segmentation) (operat : c.operat = .edit)
    (noDrag : c.mouseDrag = false)
    (idle : ∀ shape ∈ c.shapeList, (c.heap shape).isPress = false ∧ (c.heap shape).isDrag = false)
    (containsPoint : List QPointF → QPointF → Bool) (pos : QPointF) (reply : DialogReply) (last : QPointF) :
    ∃ d, c.mousePressEvent containsPoint pos true reply = .ok d ∧ During c last d := by
  have free : Free c.toCanvasBase { c.toCanvasBase with activePoint := -1, insertPoint := -1 } :=
    ⟨⟨rfl, rfl, rfl, rfl⟩, fun _ => rfl, idle⟩
  obtain ⟨base, done, held⟩ := free.pressLoop rfl (fun _ member => member) containsPoint (bindImgEdge img pos) last
  refine ⟨{ c with toCanvasBase := base }, ?_, held⟩
  have read : c.getImage = .ok img := by rw [getImage, loaded]
  have pressed : c.editPress containsPoint (bindImgEdge img pos) = .ok base := by
    have released : ¬ c.mouseDrag = true := by simp [noDrag]
    rw [editPress, if_neg released]
    exact done
  rw [mousePressEvent, read, task, operat]
  simp only [Bind.bind, Except.bind, pressed]

theorem During.mouseMove {last : QPointF} (loaded : c.image = some img) (task : c.task = .segmentation)
    (operat : c.operat = .edit) (during : During c last d) (containsPoint : List QPointF → QPointF → Bool)
    (pos : QPointF) : ∃ e, d.mouseMoveEvent containsPoint pos = .ok e ∧ During c (bindImgEdge img pos) e := by
  have stage := during.stage
  have moves : ∃ base, loop (moveShape containsPoint (bindImgEdge img pos) img) d.toCanvasBase d.shapeList = .ok base ∧
      During c (bindImgEdge img pos) { d with toCanvasBase := base } := by
    rw [stage.shapeList]
    rcases during with ⟨shape, held⟩ | free
    · obtain ⟨base, done, kept⟩ := held.moveLoop (fun _ member => member) held.listed
      exact ⟨base, done, .inl ⟨shape, kept⟩⟩
    · obtain ⟨base, done, kept⟩ := free.moveLoop (fun _ member => member)
      exact ⟨base, done, .inr kept⟩
  obtain ⟨base, done, kept⟩ := moves
  refine ⟨{ d with toCanvasBase := base }, ?_, kept⟩
  rw [mouseMoveEvent, stage.image, stage.task, stage.operat, loaded, task, operat]
  simp only [Bind.bind, Except.bind, done]

theorem During.mouseMoves {last : QPointF} (loaded : c.image = some img) (task : c.task = .segmentation)
    (operat : c.operat = .edit) (during : During c (bindImgEdge img last) d)
    (containsPoint : List QPointF → QPointF → Bool) (moves : List QPointF) :
    ∃ e, run (handle containsPoint) d (moves.map .mouseMove) = .ok e ∧
      During c (bindImgEdge img (moves.getLastD last)) e := by
  induction moves generalizing d last with
  | nil => exact ⟨d, rfl, during⟩
  | cons pos moves ih =>
    obtain ⟨middle, moved, kept⟩ := during.mouseMove loaded task operat containsPoint pos
    obtain ⟨e, ran, final⟩ := ih kept
    refine ⟨e, ?_, ?_⟩
    · rw [List.map_cons, Library.run, handle, moved]
      exact ran
    · rw [List.getLastD_cons]
      exact final

theorem mouseRelease_released (loaded : c.image = some img) (task : c.task = .segmentation)
    (operat : c.operat = .edit) :
    ∃ d, c.mouseReleaseEvent = .ok d ∧ d.shapeList = c.shapeList ∧ d.mouseDrag = false ∧
      (∀ shape, (d.heap shape).points = (c.heap shape).points) ∧
      ∀ shape ∈ d.shapeList, d.editable shape = true →
        (d.heap shape).isPress = false ∧ (d.heap shape).isDrag = false := by
  have base : ∃ base : CanvasBase, (if c.mouseDrag then { c.toCanvasBase with mouseDrag := false, activePoint := -1 }
      else c.toCanvasBase) = base ∧ base.shapeList = c.shapeList ∧ base.heap = c.heap ∧ base.mouseDrag = false := by
    cases drag : c.mouseDrag with
    | true => exact ⟨_, rfl, rfl, rfl, rfl⟩
    | false => exact ⟨_, rfl, rfl, rfl, drag⟩
  obtain ⟨base, same, list, heap, noDrag⟩ := base
  obtain ⟨e, done, released, loose⟩ := releaseLoop_released base base.shapeList
  refine ⟨{ c with toCanvasBase := e }, ?_, ?_, ?_, ?_, ?_⟩
  · rw [mouseReleaseEvent, loaded, task, operat]
    simp only [same, Bind.bind, Except.bind, done]
  · exact released.stage.shapeList.trans list
  · exact released.mouseDrag.trans noDrag
  · intro shape
    rw [released.points, heap]
  · intro shape member
    rw [released.stage.shapeList] at member
    exact loose shape member

theorem run_gesture {containsPoint : List QPointF → QPointF → Bool} {b e : Canvas2D} {start : QPointF}
    {reply : DialogReply} {moves : List QPointF} (stop : QPointF)
    (pressed : c.mousePressEvent containsPoint start true reply = .ok b)
    (moved : run (handle containsPoint) b (moves.map .mouseMove) = .ok e) (released : e.mouseReleaseEvent = .ok d) :
    run (handle containsPoint) c (.mousePress start true reply :: (moves.map .mouseMove ++ [.mouseRelease stop])) =
      .ok d := by
  rw [run, handle, pressed]
  have rest := run_append moved [.mouseRelease stop]
  rw [run, handle, released] at rest
  exact rest

/-- A gesture of edit mode, a press with the left button, any moves and the release, changes the vertices of at most
    one shape, and them in one of four ways. Afterwards nothing is held any more. -/
theorem edit_gesture (containsPoint : List QPointF → QPointF → Bool) (c : Canvas2D) (img : QImage)
    (loaded : c.image = some img) (task : c.task = .segmentation) (operat : c.operat = .edit)
    (noDrag : c.mouseDrag = false)
    (idle : ∀ shape ∈ c.shapeList, (c.heap shape).isPress = false ∧ (c.heap shape).isDrag = false)
    (start stop : QPointF) (reply : DialogReply) (moves : List QPointF) :
    ∃ d, run (handle containsPoint) c
        (.mousePress start true reply :: (moves.map .mouseMove ++ [.mouseRelease stop])) = .ok d ∧
      d.shapeList = c.shapeList ∧
      (∃ shape, (∀ other, other ≠ shape → (d.heap other).points = (c.heap other).points) ∧
        Edited (bindImgEdge img (moves.getLastD start)) (c.heap shape).points.oriPoints
          (d.heap shape).points.oriPoints) ∧
      d.mouseDrag = false ∧
      ∀ shape ∈ d.shapeList, d.editable shape = true →
        (d.heap shape).isPress = false ∧ (d.heap shape).isDrag = false := by
  obtain ⟨first, pressed, began⟩ := mousePress_during loaded task operat noDrag idle containsPoint start reply
    (bindImgEdge img start)
  obtain ⟨middle, moved, during⟩ := began.mouseMoves loaded task operat containsPoint moves
  have stage := during.stage
  obtain ⟨d, released, list, free, points, loose⟩ := mouseRelease_released (stage.image.trans loaded)
    (stage.task.trans task) (stage.operat.trans operat)
  refine ⟨d, run_gesture stop pressed moved released, list.trans stage.shapeList, ?_, free, loose⟩
  rcases during with ⟨shape, held⟩ | free
  · refine ⟨shape, ?_, ?_⟩
    · intro other different
      rw [points]
      exact held.points other different
    · rw [points]
      exact edited_of_phase held.phase
  · refine ⟨0, ?_, ?_⟩
    · intro other _
      rw [points]
      exact free.points other
    · rw [points, free.points]
      exact .inl rfl

def triangleShown : Canvas2D :=
  { loaded blankImage with
    operat := .edit
    heap := fun _ => ((((Shape.new .polygon).appendPoint ⟨-20, -20⟩).appendPoint ⟨20, -20⟩).appendPoint
      ⟨0, 20⟩).setIsClosed true
    next := 1
    shapeList := [0]
    currentIndex := 0 }

theorem triangle_gesture :
    ∃ d, run (handle fun _ _ => false) triangleShown
        [.mousePress ⟨0, 20⟩ true none, .mouseMove ⟨5, 20⟩, .mouseMove ⟨10, 30⟩, .mouseRelease ⟨10, 30⟩] = .ok d ∧
      (∃ shape, (∀ other, other ≠ shape → (d.heap other).points = (triangleShown.heap other).points) ∧
        Edited (bindImgEdge blankImage ⟨10, 30⟩) (triangleShown.heap shape).points.oriPoints
          (d.heap shape).points.oriPoints) ∧
      d.mouseDrag = false := by
  have idle : ∀ shape ∈ triangleShown.shapeList,
      (triangleShown.heap shape).isPress = false ∧ (triangleShown.heap shape).isDrag = false :=
    fun _ _ => ⟨rfl, rfl⟩
  obtain ⟨d, ran, _, changed, free, _⟩ := edit_gesture (fun _ _ => false) triangleShown blankImage rfl rfl rfl rfl
    idle ⟨0, 20⟩ ⟨10, 30⟩ none [⟨5, 20⟩, ⟨10, 30⟩]
  exact ⟨d, ran, changed, free⟩

end Canvas2D

end XYAnnotation

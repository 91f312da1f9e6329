import XYAnnotation.Canvas.Document

namespace XYAnnotation

open Library CanvasBase

/-- Equal up to what undo and redo leave behind: the name of a shape that is off the list. -/
structure Same (ideal actual : CanvasBase) : Prop where
  shapeList : actual.shapeList = ideal.shapeList
  currentIndex : actual.currentIndex = ideal.currentIndex
  names : actual.names = ideal.names
  points : ∀ shape, (actual.heap shape).points = (ideal.heap shape).points
  type : ∀ shape, (actual.heap shape).type = (ideal.heap shape).type

namespace Same

theorem refl (c : CanvasBase) : Same c c := ⟨rfl, rfl, rfl, fun _ => rfl, fun _ => rfl⟩

theorem document {ideal actual : CanvasBase} (same : Same ideal actual) :
    ideal.document = actual.document := by
  have names := same.names
  rw [CanvasBase.names, CanvasBase.names, same.shapeList] at names
  have entries : ∀ shape ∈ ideal.shapeList, (shape, (actual.heap shape).name, (actual.heap shape).points) =
      (shape, (ideal.heap shape).name, (ideal.heap shape).points) := by
    intro shape member
    rw [same.points, List.map_inj_left.mp names shape member]
  rw [CanvasBase.document, CanvasBase.document, same.shapeList, same.currentIndex,
    List.map_congr_left entries]

theorem uniqueName {ideal actual : CanvasBase} (same : Same ideal actual) (name : String) :
    actual.uniqueName name = ideal.uniqueName name := by
  rw [uniqueName_eq, uniqueName_eq, same.names]

theorem appended {ideal actual : CanvasBase} (same : Same ideal actual) {shape : ShapeId}
    (outside : shape ∉ ideal.shapeList) : Same (ideal.appended shape) (actual.appended shape) where
  shapeList := by simp [CanvasBase.appended, same.shapeList]
  currentIndex := by simp [CanvasBase.appended, same.shapeList]
  names := by
    rw [appended_names ideal outside, appended_names actual (same.shapeList ▸ outside), same.names,
      same.type, same.uniqueName]
  points other := by rw [appended_points, appended_points, same.points]
  type other := by rw [appended_type, appended_type, same.type]

theorem removedAt {ideal actual : CanvasBase} (same : Same ideal actual) (i : ℕ) :
    Same (ideal.removedAt i) (actual.removedAt i) where
  shapeList := by simp [CanvasBase.removedAt, same.shapeList]
  currentIndex := by simp [CanvasBase.removedAt, same.shapeList, same.currentIndex]
  names := by rw [removedAt_names, removedAt_names, same.names]
  points := same.points
  type := same.type

theorem addPoint {ideal actual : CanvasBase} (same : Same ideal actual) (shape : ShapeId)
    (point : QPointF) :
    Same (ideal.addPoint (some shape) point).1 (actual.addPoint (some shape) point).1 where
  shapeList := same.shapeList
  currentIndex := same.currentIndex
  names := by rw [addPoint_names, addPoint_names, same.names]
  points other := by
    by_cases here : other = shape
    · subst here
      rw [addPoint_points_same, addPoint_points_same, same.points]
    · rw [addPoint_points_other _ _ here, addPoint_points_other _ _ here, same.points]
  type other := by rw [addPoint_type, addPoint_type, same.type]

end Same

/-- The steps of the history: a command with the record it leaves, and the canvas before and after. -/
inductive Takes : Command → CanvasBase → CanvasBase → Prop
  | addShape {before : CanvasBase} {shape : ShapeId} (canonical : before.Canonical)
      (outside : shape ∉ before.shapeList) :
      Takes (.addShape (some shape) (before.uniqueName (Shape.typeToString (before.heap shape).type)))
        before (before.appended shape)
  | removeShape {before : CanvasBase} {rest : List ShapeId} {shape : ShapeId}
      (canonical : before.Canonical) (list : before.shapeList = rest ++ [shape]) :
      Takes (.removeShape (some shape) (before.heap shape).name) before (before.removedAt rest.length)
  | addPoint {before : CanvasBase} (shape : ShapeId) (point : QPointF) (canonical : before.Canonical) :
      Takes (.addPoint (some shape) point (QString.number (before.heap shape).points.size)) before
        (before.addPoint (some shape) point).1

theorem Takes.canonical {command : Command} {before after : CanvasBase}
    (takes : Takes command before after) : after.Canonical := by
  cases takes with
  | addShape canonical outside => exact canonical.appended outside
  | removeShape canonical list => exact canonical.removedLast list
  | addPoint shape point canonical => exact canonical.addPoint shape point

theorem addPoint_pointName (c : CanvasBase) (shape : ShapeId) (point : QPointF) :
    (c.addPoint (some shape) point).2 = QString.number (c.heap shape).points.size := by
  simp [CanvasBase.addPoint, Shape.appendPoint, YPolygonPoints.append, YPolygonPoints.size]

theorem takes_redo {command : Command} {before after actual : CanvasBase}
    (takes : Takes command before after) (same : Same before actual) :
    ∃ recorded result, command.redo actual = .ok (recorded, result) ∧ Same after result ∧
      Takes recorded before after := by
  cases takes with
  | @addShape _ shape canonical outside =>
    refine ⟨_, actual.appended shape, ?_, same.appended outside, .addShape canonical outside⟩
    simp only [Command.redo, addShape_eq, same.type, same.uniqueName, Bind.bind, Except.bind]
  | @removeShape _ rest shape canonical list =>
    obtain ⟨_, _, unused⟩ := canonical.last_name list
    have names : actual.names = (rest.map fun other => (before.heap other).name) ++ [(before.heap shape).name] := by
      rw [same.names, CanvasBase.names, list, List.map_append, List.map_singleton]
    have deleted := deleteShape_last names unused
    rw [List.length_map] at deleted
    refine ⟨_, actual.removedAt rest.length, ?_, same.removedAt _, .removeShape canonical list⟩
    simp only [Command.redo, deleted, Bind.bind, Except.bind]
  | addPoint shape point canonical =>
    refine ⟨_, (actual.addPoint (some shape) point).1, ?_, same.addPoint shape point, .addPoint shape point canonical⟩
    rw [← same.points, ← addPoint_pointName actual shape point]
    rfl

theorem deletePoint_appended {points : YPolygonPoints} (point : QPointF) {shape : Shape}
    (after : shape.points = points.append point) :
    shape.deletePoint (QString.toInt (QString.number points.size)) = .ok { shape with points } := by
  have size : (points.append point).size = points.size + 1 := by
    simp [YPolygonPoints.append, YPolygonPoints.size]
  have oriErased : (points.oriPoints ++ [point]).eraseIdx points.size = points.oriPoints := by
    simp [YPolygonPoints.size, List.eraseIdx_append_of_length_le]
  have imgErased : (points.imgPoints ++ [point + points.offset]).eraseIdx points.size = points.imgPoints := by
    rw [YPolygonPoints.size, ← points.inStep, List.eraseIdx_append_of_length_le (Nat.le_refl _)]
    simp
  have erased : (points.append point).erase (points.size : ℤ) = .ok points := by
    rw [YPolygonPoints.erase, size, if_neg (by omega), if_pos (by omega)]
    simp only [YPolygonPoints.append, Int.toNat_natCast, oriErased, imgErased]
  rw [Shape.deletePoint, QString.toInt_number, after, size, if_neg (by omega), erased]
  rfl

theorem undo_addShape_same {before actual : CanvasBase} {shape : ShapeId} (canonical : before.Canonical)
    (outside : shape ∉ before.shapeList) (same : Same (before.appended shape) actual) :
    ∃ result, Command.undo (.addShape (some shape) (before.uniqueName (Shape.typeToString (before.heap shape).type)))
        actual = .ok (.addShape (some shape) (before.uniqueName (Shape.typeToString (before.heap shape).type)),
          result) ∧ Same before result := by
  have names : actual.names =
      before.names ++ [before.uniqueName (Shape.typeToString (before.heap shape).type)] := by
    rw [same.names, appended_names before outside]
  have list : actual.shapeList = before.shapeList ++ [shape] := same.shapeList
  have deleted := deleteShape_last names (uniqueName_not_mem before _)
  rw [names_length] at deleted
  refine ⟨actual.removedAt before.shapeList.length, ?_, removedAt_last_shapeList list, ?_, ?_, ?_, ?_⟩
  · simp only [Command.undo, deleted, Bind.bind, Except.bind]
  · have current : actual.currentIndex = actual.shapeList.length - 1 := by
      rw [same.currentIndex, list]
      simp [CanvasBase.appended]
    rw [removedAt_last_currentIndex list current, canonical.current]
  · rw [removedAt_names, names, ← names_length, List.eraseIdx_append_of_length_le (Nat.le_refl _)]
    simp
  · intro other
    exact (same.points other).trans (appended_points before shape other)
  · intro other
    exact (same.type other).trans (appended_type before shape other)

theorem undo_removeShape_same {before actual : CanvasBase} {rest : List ShapeId} {shape : ShapeId}
    (canonical : before.Canonical) (list : before.shapeList = rest ++ [shape])
    (same : Same (before.removedAt rest.length) actual) :
    ∃ result, Command.undo (.removeShape (some shape) (before.heap shape).name) actual =
        .ok (.removeShape (some shape) (before.heap shape).name, result) ∧ Same before result := by
  obtain ⟨_, name, _⟩ := canonical.last_name list
  have restList : actual.shapeList = rest := same.shapeList.trans (removedAt_last_shapeList list)
  have outside : shape ∉ rest := by
    have nodup := canonical.nodup
    rw [list, List.nodup_append_comm, List.singleton_append, List.nodup_cons] at nodup
    exact nodup.1
  have restNames : actual.names = rest.map fun other => (before.heap other).name := by
    rw [same.names, CanvasBase.names, removedAt_last_shapeList list]
    rfl
  have shapeName : actual.uniqueName (Shape.typeToString (actual.heap shape).type) =
      (before.heap shape).name := by
    rw [uniqueName_eq, restNames, same.type, name]
    rfl
  refine ⟨actual.appended shape, ?_, ?_, ?_, ?_, ?_, ?_⟩
  · simp only [Command.undo, addShape_eq, shapeName, Bind.bind, Except.bind]
  · rw [list, ← restList]
    rfl
  · rw [canonical.current, list]
    simp [CanvasBase.appended, restList]
  · rw [appended_names actual (restList ▸ outside), shapeName, restNames, CanvasBase.names, list,
      List.map_append, List.map_singleton]
  · intro other
    rw [appended_points, same.points]
    rfl
  · intro other
    rw [appended_type, same.type]
    rfl

theorem undo_addPoint_same {before actual : CanvasBase} (shape : ShapeId) (point : QPointF)
    (same : Same (before.addPoint (some shape) point).1 actual) :
    ∃ result, Command.undo (.addPoint (some shape) point (QString.number (before.heap shape).points.size)) actual =
        .ok (.addPoint (some shape) point (QString.number (before.heap shape).points.size), result) ∧
      Same before result := by
  have after : (actual.heap shape).points = (before.heap shape).points.append point := by
    rw [same.points, addPoint_points_same]
  have deleted := deletePoint_appended point after
  refine ⟨actual.modifyShape shape fun _ => { actual.heap shape with points := (before.heap shape).points }, ?_,
    same.shapeList, same.currentIndex, ?_, ?_, ?_⟩
  · simp only [Command.undo, CanvasBase.deletePoint, deleted, Bind.bind, Except.bind]
  · rw [← addPoint_names before shape point, ← same.names]
    apply List.map_congr_left
    intro other _
    by_cases here : other = shape
    · subst here
      rw [modifyShape_heap_same]
    · rw [modifyShape_heap_other _ _ _ here]
  · intro other
    by_cases here : other = shape
    · subst here
      rw [modifyShape_heap_same]
    · rw [modifyShape_heap_other _ _ _ here, same.points, addPoint_points_other _ _ here]
  · intro other
    rw [← addPoint_type before shape other point, ← same.type]
    by_cases here : other = shape
    · subst here
      rw [modifyShape_heap_same]
    · rw [modifyShape_heap_other _ _ _ here]

theorem takes_undo {command : Command} {before after actual : CanvasBase}
    (takes : Takes command before after) (same : Same after actual) :
    ∃ recorded result, command.undo actual = .ok (recorded, result) ∧ Same before result ∧
      Takes recorded before after := by
  cases takes with
  | addShape canonical outside =>
    obtain ⟨result, undone, same'⟩ := undo_addShape_same canonical outside same
    exact ⟨_, result, undone, same', .addShape canonical outside⟩
  | removeShape canonical list =>
    obtain ⟨result, undone, same'⟩ := undo_removeShape_same canonical list same
    exact ⟨_, result, undone, same', .removeShape canonical list⟩
  | addPoint shape point canonical =>
    obtain ⟨result, undone, same'⟩ := undo_addPoint_same shape point same
    exact ⟨_, result, undone, same', .addPoint shape point canonical⟩

theorem commands_reversible : Reversible Command.methods Same Takes where
  refl := Same.refl
  redo := takes_redo
  undo := takes_undo

end XYAnnotation

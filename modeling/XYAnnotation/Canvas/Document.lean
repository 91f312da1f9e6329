import XYAnnotation.Canvas.Operations
import XYAnnotation.Canvas.Commands

namespace XYAnnotation.CanvasBase

def types (c : CanvasBase) : List DrawMode := c.shapeList.map fun shape => (c.heap shape).type

/-- What the user edits: the shapes in order, each with its name and points, and the current index. -/
def document (c : CanvasBase) : List (ShapeId × String × YPolygonPoints) × ℤ :=
  (c.shapeList.map fun shape => (shape, (c.heap shape).name, (c.heap shape).points), c.currentIndex)

def canonicalNames (types : List DrawMode) : List String :=
  types.foldl (fun used type => used ++ [uniqueIn used (Shape.typeToString type)]) []

theorem canonicalNames_append (types : List DrawMode) (type : DrawMode) :
    canonicalNames (types ++ [type]) =
      canonicalNames types ++ [uniqueIn (canonicalNames types) (Shape.typeToString type)] := by
  simp [canonicalNames, List.foldl_append]

theorem appended_names (c : CanvasBase) {shape : ShapeId} (outside : shape ∉ c.shapeList) :
    (c.appended shape).names = c.names ++ [c.uniqueName (Shape.typeToString (c.heap shape).type)] := by
  have others : ∀ other ∈ c.shapeList, ((c.appended shape).heap other).name = (c.heap other).name := by
    intro other member
    have different : other ≠ shape := by
      rintro rfl
      exact outside member
    simp [appended, different]
  have same : ((c.appended shape).heap shape).name =
      c.uniqueName (Shape.typeToString (c.heap shape).type) := by simp [appended, Shape.setName]
  rw [names, names, show (c.appended shape).shapeList = c.shapeList ++ [shape] from rfl,
    List.map_append, List.map_congr_left others, List.map_singleton, same]

theorem appended_points (c : CanvasBase) (shape other : ShapeId) :
    ((c.appended shape).heap other).points = (c.heap other).points := by
  by_cases same : other = shape
  · subst same
    simp [appended, Shape.setName]
  · simp [appended, same]

theorem appended_type (c : CanvasBase) (shape other : ShapeId) :
    ((c.appended shape).heap other).type = (c.heap other).type := by
  by_cases same : other = shape
  · subst same
    simp [appended, Shape.setName]
  · simp [appended, same]

theorem removedAt_names (c : CanvasBase) (i : ℕ) : (c.removedAt i).names = c.names.eraseIdx i :=
  (List.eraseIdx_map _ _ _).symm

theorem addPoint_names (c : CanvasBase) (shape : ShapeId) (point : QPointF) :
    (c.addPoint (some shape) point).1.names = c.names := by
  apply List.map_congr_left
  intro other _
  by_cases same : other = shape
  · subst same
    simp [addPoint, Shape.appendPoint]
  · simp [addPoint, modifyShape_heap_other _ _ _ same]

theorem addPoint_type (c : CanvasBase) (shape other : ShapeId) (point : QPointF) :
    ((c.addPoint (some shape) point).1.heap other).type = (c.heap other).type := by
  by_cases same : other = shape
  · subst same
    simp [addPoint, Shape.appendPoint]
  · simp [addPoint, modifyShape_heap_other _ _ _ same]

theorem addPoint_points_same (c : CanvasBase) (shape : ShapeId) (point : QPointF) :
    ((c.addPoint (some shape) point).1.heap shape).points = (c.heap shape).points.append point := by
  simp [addPoint, Shape.appendPoint]

theorem addPoint_points_other (c : CanvasBase) {shape other : ShapeId} (point : QPointF)
    (different : other ≠ shape) :
    ((c.addPoint (some shape) point).1.heap other).points = (c.heap other).points := by
  simp [addPoint, modifyShape_heap_other _ _ _ different]

/-- What `CanvasView` keeps up: the last shape is the current one, the names are those the shapes
    got in the order of the list. -/
structure Canonical (c : CanvasBase) : Prop where
  current : c.currentIndex = c.shapeList.length - 1
  nodup : c.shapeList.Nodup
  names : c.names = canonicalNames c.types

theorem Canonical.appended {c : CanvasBase} (canonical : c.Canonical) {shape : ShapeId}
    (outside : shape ∉ c.shapeList) : (c.appended shape).Canonical where
  current := by simp [CanvasBase.appended]
  nodup := by
    rw [show (c.appended shape).shapeList = c.shapeList ++ [shape] from rfl,
      List.nodup_append_comm, List.singleton_append, List.nodup_cons]
    exact ⟨outside, canonical.nodup⟩
  names := by
    have types : (c.appended shape).types = c.types ++ [(c.heap shape).type] := by
      rw [CanvasBase.types, CanvasBase.types, show (c.appended shape).shapeList = c.shapeList ++ [shape] from rfl,
        List.map_append, List.map_congr_left fun other _ => appended_type c shape other,
        List.map_singleton, appended_type]
    rw [appended_names c outside, types, canonicalNames_append, ← canonical.names, uniqueName_eq]

theorem Canonical.last_name {c : CanvasBase} (canonical : c.Canonical) {rest : List ShapeId}
    {shape : ShapeId} (list : c.shapeList = rest ++ [shape]) :
    let kept := rest.map fun other => (c.heap other).name
    kept = canonicalNames (rest.map fun other => (c.heap other).type) ∧
      (c.heap shape).name = uniqueIn kept (Shape.typeToString (c.heap shape).type) ∧
      (c.heap shape).name ∉ kept := by
  have names := canonical.names
  rw [CanvasBase.names, CanvasBase.types, list, List.map_append, List.map_append, List.map_singleton,
    List.map_singleton, canonicalNames_append] at names
  obtain ⟨kept, last⟩ := List.append_inj' names rfl
  have name : (c.heap shape).name =
      uniqueIn (rest.map fun other => (c.heap other).name) (Shape.typeToString (c.heap shape).type) := by
    rw [kept]
    exact List.singleton_inj.mp last
  refine ⟨kept, name, ?_⟩
  -- the name is what `uniqueName` gives on the canvas without the last shape
  have unused := uniqueName_not_mem { c with shapeList := rest } (Shape.typeToString (c.heap shape).type)
  rw [uniqueName_eq] at unused
  rw [name]
  exact unused

theorem findIdx?_last {used : List String} {name : String} (unused : name ∉ used) :
    (used ++ [name]).findIdx? (· == name) = some used.length := by
  have skipped : used.findIdx? (· == name) = none := by
    rw [List.findIdx?_eq_none_iff]
    intro other member
    simp only [beq_eq_false_iff_ne]
    rintro rfl
    exact unused member
  simp [List.findIdx?_append, skipped]

theorem deleteShape_last {c : CanvasBase} {used : List String} {name : String}
    (names : c.names = used ++ [name]) (unused : name ∉ used) :
    c.deleteShape name = .ok (c.removedAt used.length) := by
  apply (deleteShape_found c name used.length _).2
  rw [names]
  exact findIdx?_last unused

theorem removedAt_last_shapeList {c : CanvasBase} {rest : List ShapeId} {shape : ShapeId}
    (list : c.shapeList = rest ++ [shape]) : (c.removedAt rest.length).shapeList = rest := by
  simp [removedAt, list, List.eraseIdx_append_of_length_le]

theorem removedAt_last_currentIndex {c : CanvasBase} {rest : List ShapeId} {shape : ShapeId}
    (list : c.shapeList = rest ++ [shape]) (current : c.currentIndex = c.shapeList.length - 1) :
    (c.removedAt rest.length).currentIndex = rest.length - 1 := by
  have count : c.shapeList.length = rest.length + 1 := by simp [list]
  have last : c.currentIndex = rest.length := by omega
  simp [removedAt, indexAfterRemoval, count, last]

theorem Canonical.removedLast {c : CanvasBase} (canonical : c.Canonical) {rest : List ShapeId}
    {shape : ShapeId} (list : c.shapeList = rest ++ [shape]) : (c.removedAt rest.length).Canonical where
  current := by
    rw [removedAt_last_currentIndex list canonical.current, removedAt_last_shapeList list]
  nodup := by
    rw [removedAt_last_shapeList list]
    exact (List.nodup_append.mp (list ▸ canonical.nodup)).1
  names := by
    have kept := (canonical.last_name list).1
    rw [CanvasBase.names, CanvasBase.types, removedAt_last_shapeList list]
    exact kept

theorem Canonical.addPoint {c : CanvasBase} (canonical : c.Canonical) (shape : ShapeId)
    (point : QPointF) : (c.addPoint (some shape) point).1.Canonical where
  current := canonical.current
  nodup := canonical.nodup
  names := by
    have types : (c.addPoint (some shape) point).1.types = c.types :=
      List.map_congr_left fun other _ => addPoint_type c shape other point
    rw [addPoint_names, types, canonical.names]

end XYAnnotation.CanvasBase

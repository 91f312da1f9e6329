import XYAnnotation.Canvas.History

namespace XYAnnotation

open Library

namespace CanvasBase

/-- The canvas with objects already in place at the addresses that are not used yet. -/
def prepared (later : ShapeId → Shape) (c : CanvasBase) : CanvasBase :=
  { c with heap := fun shape => if shape < c.next then c.heap shape else later shape }

def Listed (c : CanvasBase) : Prop := ∀ shape ∈ c.shapeList, shape < c.next

variable {later : ShapeId → Shape} {c : CanvasBase}

theorem allocate_names (listed : c.Listed) (shape : Shape) : (c.allocate shape).names = c.names := by
  apply List.map_congr_left
  intro other member
  have old : other ≠ c.next := Nat.ne_of_lt (listed other member)
  simp [allocate, old]

theorem prepared_heap {shape : ShapeId} (used : shape < c.next) :
    (c.prepared later).heap shape = c.heap shape := if_pos used

theorem prepared_map {α : Type} (listed : c.Listed) (f : ShapeId → Shape → α) :
    c.shapeList.map (fun shape => f shape ((c.prepared later).heap shape)) =
      c.shapeList.map fun shape => f shape (c.heap shape) := by
  apply List.map_congr_left
  intro shape member
  rw [prepared_heap (listed shape member)]

theorem prepared_names (listed : c.Listed) : (c.prepared later).names = c.names :=
  prepared_map listed fun _ shape => shape.name

theorem prepared_document (listed : c.Listed) : (c.prepared later).document = c.document := by
  rw [document, document, show (c.prepared later).shapeList = c.shapeList from rfl,
    prepared_map listed fun address shape => (address, shape.name, shape.points)]
  rfl

theorem prepared_canonical (listed : c.Listed) (canonical : c.Canonical) :
    (c.prepared later).Canonical where
  current := canonical.current
  nodup := canonical.nodup
  names := by
    rw [prepared_names listed, canonical.names]
    exact congrArg canonicalNames (prepared_map listed fun _ shape => shape.type).symm

theorem prepared_update {shape : ShapeId} (used : shape < c.next) (object : Shape) :
    { c with heap := Function.update c.heap shape object }.prepared later =
      { c.prepared later with heap := Function.update (c.prepared later).heap shape object } := by
  have heaps : (fun address => if address < c.next then Function.update c.heap shape object address
      else later address) = Function.update (c.prepared later).heap shape object := by
    funext address
    by_cases same : address = shape
    · subst same
      simp [used]
    · simp [prepared, same]
  simp only [prepared, heaps]

theorem addShape_prepared (listed : c.Listed) {shape : ShapePtr} (used : ∀ address ∈ shape, address < c.next) :
    (c.prepared later).addShape shape =
      (c.addShape shape).map fun added => (added.1.prepared later, added.2) := by
  cases shape with
  | none => rfl
  | some shape =>
    have below := used shape rfl
    rw [addShape_eq, addShape_eq, prepared_heap below, uniqueName_eq, uniqueName_eq, prepared_names listed]
    simp only [Except.map, appended, prepared_heap below, uniqueName_eq, prepared_names listed]
    congr 2
    exact congrArg (fun canvas : CanvasBase => { canvas with
      shapeList := c.shapeList ++ [shape], currentIndex := c.shapeList.length })
      (prepared_update below _).symm

theorem deleteShape_prepared (listed : c.Listed) (shapeName : String) :
    (c.prepared later).deleteShape shapeName = (c.deleteShape shapeName).map (prepared later) := by
  have names : (c.prepared later).names = c.names := prepared_names listed
  cases found : c.names.findIdx? (· == shapeName) with
  | none =>
    have absent := not_mem_names found
    rw [deleteShape_absent c shapeName absent, deleteShape_absent _ shapeName (names ▸ absent)]
    rfl
  | some i =>
    rw [(deleteShape_found c shapeName i found).2,
      (deleteShape_found (c.prepared later) shapeName i (names ▸ found)).2]
    rfl

theorem modifyShape_prepared {shape : ShapeId} (used : shape < c.next) (f : Shape → Shape) :
    (c.prepared later).modifyShape shape f = (c.modifyShape shape f).prepared later := by
  rw [modifyShape, modifyShape, prepared_update used, prepared_heap used]

theorem addPoint_prepared {shape : ShapePtr} (used : ∀ address ∈ shape, address < c.next) (point : QPointF) :
    (c.prepared later).addPoint shape point =
      ((c.addPoint shape point).1.prepared later, (c.addPoint shape point).2) := by
  cases shape with
  | none => rfl
  | some shape =>
    have below := used shape rfl
    have kept : shape < (c.modifyShape shape (·.appendPoint point)).next := below
    simp only [addPoint, modifyShape_prepared below, prepared_heap kept]

theorem deletePoint_prepared {shape : ShapePtr} (used : ∀ address ∈ shape, address < c.next)
    (pointName : String) :
    (c.prepared later).deletePoint shape pointName = (c.deletePoint shape pointName).map (prepared later) := by
  cases shape with
  | none => rfl
  | some shape =>
    have below := used shape rfl
    simp only [deletePoint, prepared_heap below, modifyShape_prepared below]
    cases (c.heap shape).deletePoint (QString.toInt pointName) <;> rfl

end CanvasBase

namespace Command

def shape : Command → ShapePtr
  | .addShape shape _ => shape
  | .removeShape shape _ => shape
  | .addPoint shape _ _ => shape

def Below (bound : ShapeId) (command : Command) : Prop := ∀ address ∈ command.shape, address < bound

variable {later : ShapeId → Shape} {c : CanvasBase} {command : Command}

theorem redo_prepared (listed : c.Listed) (below : command.Below c.next) :
    command.redo (c.prepared later) = (command.redo c).map (Prod.map id (CanvasBase.prepared later)) := by
  cases command with
  | addShape shape shapeName =>
    have used : ∀ address ∈ shape, address < c.next := below
    simp only [redo, CanvasBase.addShape_prepared listed used]
    cases c.addShape shape <;> rfl
  | removeShape shape shapeName =>
    simp only [redo, CanvasBase.deleteShape_prepared listed]
    cases c.deleteShape shapeName <;> rfl
  | addPoint shape point pointName =>
    have used : ∀ address ∈ shape, address < c.next := below
    simp only [redo, CanvasBase.addPoint_prepared used]
    rfl

theorem undo_prepared (listed : c.Listed) (below : command.Below c.next) :
    command.undo (c.prepared later) = (command.undo c).map (Prod.map id (CanvasBase.prepared later)) := by
  cases command with
  | addShape shape shapeName =>
    simp only [undo, CanvasBase.deleteShape_prepared listed]
    cases c.deleteShape shapeName <;> rfl
  | removeShape shape shapeName =>
    have used : ∀ address ∈ shape, address < c.next := below
    simp only [undo, CanvasBase.addShape_prepared listed used]
    cases c.addShape shape <;> rfl
  | addPoint shape point pointName =>
    have used : ∀ address ∈ shape, address < c.next := below
    simp only [undo, CanvasBase.deletePoint_prepared used]
    cases c.deletePoint shape pointName <;> rfl

structure Keeps (c d : CanvasBase) : Prop where
  next : d.next = c.next
  image : d.image = c.image

theorem addShape_frame {c d : CanvasBase} {shape : ShapePtr} {shapeName : String} (listed : c.Listed)
    (used : ∀ address ∈ shape, address < c.next) (added : c.addShape shape = .ok (d, shapeName)) :
    Keeps c d ∧ d.Listed := by
  cases shape with
  | none => cases added
  | some shape =>
    rw [CanvasBase.addShape_eq] at added
    cases added
    refine ⟨⟨rfl, rfl⟩, ?_⟩
    intro address member
    rcases List.mem_append.mp member with member | member
    · exact listed address member
    · rw [List.mem_singleton.mp member]
      exact used shape rfl

theorem deleteShape_frame {c d : CanvasBase} {shapeName : String} (listed : c.Listed)
    (deleted : c.deleteShape shapeName = .ok d) : Keeps c d ∧ d.Listed := by
  rcases CanvasBase.deleteShape_cases c shapeName with same | ⟨i, _, removed⟩
  · rw [same] at deleted
    cases deleted
    exact ⟨⟨rfl, rfl⟩, listed⟩
  · rw [removed] at deleted
    cases deleted
    exact ⟨⟨rfl, rfl⟩, fun address member => listed address (List.mem_of_mem_eraseIdx member)⟩

theorem redo_frame {recorded : Command} {d : CanvasBase} (listed : c.Listed) (below : command.Below c.next)
    (done : command.redo c = .ok (recorded, d)) :
    Keeps c d ∧ d.Listed ∧ recorded.Below d.next := by
  cases command with
  | addShape shape shapeName =>
    obtain ⟨⟨_, _⟩, added, rest⟩ := bind_completes done
    cases rest
    obtain ⟨keeps, listed'⟩ := addShape_frame listed below added
    exact ⟨keeps, listed', keeps.next ▸ below⟩
  | removeShape shape shapeName =>
    obtain ⟨_, deleted, rest⟩ := bind_completes done
    cases rest
    obtain ⟨keeps, listed'⟩ := deleteShape_frame listed deleted
    exact ⟨keeps, listed', keeps.next ▸ below⟩
  | addPoint shape point pointName =>
    cases done
    cases shape <;> exact ⟨⟨rfl, rfl⟩, listed, below⟩

theorem undo_frame {recorded : Command} {d : CanvasBase} (listed : c.Listed) (below : command.Below c.next)
    (done : command.undo c = .ok (recorded, d)) :
    Keeps c d ∧ d.Listed ∧ recorded.Below d.next := by
  cases command with
  | addShape shape shapeName =>
    obtain ⟨_, deleted, rest⟩ := bind_completes done
    cases rest
    obtain ⟨keeps, listed'⟩ := deleteShape_frame listed deleted
    exact ⟨keeps, listed', keeps.next ▸ below⟩
  | removeShape shape shapeName =>
    obtain ⟨⟨_, _⟩, added, rest⟩ := bind_completes done
    cases rest
    obtain ⟨keeps, listed'⟩ := addShape_frame listed below added
    exact ⟨keeps, listed', keeps.next ▸ below⟩
  | addPoint shape point pointName =>
    obtain ⟨_, deleted, rest⟩ := bind_completes done
    cases rest
    cases shape with
    | none => cases deleted
    | some shape =>
      obtain ⟨_, _, rest⟩ := bind_completes deleted
      cases rest
      exact ⟨⟨rfl, rfl⟩, listed, below⟩

end Command

namespace Canvas2D

structure Placed (c : Canvas2D) : Prop where
  listed : c.Listed
  done : ∀ command ∈ c.undoStack.done, command.Below c.next
  undone : ∀ command ∈ c.undoStack.undone, command.Below c.next

theorem placed_of_empty {c : Canvas2D} (list : c.shapeList = []) (stack : c.undoStack = .empty) : c.Placed := by
  refine ⟨?_, ?_, ?_⟩
  · simp [CanvasBase.Listed, list]
  · simp [stack, UndoStack.empty]
  · simp [stack, UndoStack.empty]

theorem Placed.older {c d : Canvas2D} (placed : c.Placed) (list : d.shapeList = c.shapeList)
    (stack : d.undoStack = c.undoStack) (grows : c.next ≤ d.next) : d.Placed := by
  have older : ∀ command : Command, command.Below c.next → command.Below d.next := by
    intro command below address member
    exact (below address member).trans_le grows
  refine ⟨?_, ?_, ?_⟩
  · intro shape member
    rw [list] at member
    exact (placed.listed shape member).trans_le grows
  · intro command member
    rw [stack] at member
    exact older command (placed.done command member)
  · intro command member
    rw [stack] at member
    exact older command (placed.undone command member)

theorem Placed.rebase {c : Canvas2D} {base : CanvasBase} (placed : c.Placed)
    (frame : Command.Keeps c.toCanvasBase base ∧ base.Listed) : Placed { c with toCanvasBase := base } := by
  refine ⟨frame.2, ?_, ?_⟩
  · rw [frame.1.next]
    exact placed.done
  · rw [frame.1.next]
    exact placed.undone

theorem Placed.push {c d : Canvas2D} {command : Command} (placed : c.Placed)
    (below : command.Below c.next) (pushed : c.push command = .ok d) :
    d.Placed ∧ Command.Keeps c.toCanvasBase d.toCanvasBase := by
  obtain ⟨recorded, redone, stack⟩ := push_completes pushed
  obtain ⟨keeps, listed, below'⟩ := Command.redo_frame placed.listed below redone
  refine ⟨⟨listed, ?_, ?_⟩, keeps⟩
  · rw [stack, keeps.next]
    rw [keeps.next] at below'
    exact List.forall_mem_cons.mpr ⟨below', placed.done⟩
  · simp [stack]

theorem Placed.undo {c d : Canvas2D} (placed : c.Placed) (undone : c.undo = .ok d) :
    d.Placed ∧ Command.Keeps c.toCanvasBase d.toCanvasBase := by
  rcases undo_completes undone with ⟨_, rfl⟩ | ⟨command, done, recorded, list, called, stack⟩
  · exact ⟨placed, rfl, rfl⟩
  · have all := placed.done
    rw [list, List.forall_mem_cons] at all
    obtain ⟨keeps, listed, below⟩ := Command.undo_frame placed.listed all.1 called
    rw [keeps.next] at below
    refine ⟨⟨listed, ?_, ?_⟩, keeps⟩ <;> rw [stack, keeps.next]
    · exact all.2
    · exact List.forall_mem_cons.mpr ⟨below, placed.undone⟩

theorem Placed.redo {c d : Canvas2D} (placed : c.Placed) (redone : c.redo = .ok d) :
    d.Placed ∧ Command.Keeps c.toCanvasBase d.toCanvasBase := by
  rcases redo_completes redone with ⟨_, rfl⟩ | ⟨command, undone, recorded, list, called, stack⟩
  · exact ⟨placed, rfl, rfl⟩
  · have all := placed.undone
    rw [list, List.forall_mem_cons] at all
    obtain ⟨keeps, listed, below⟩ := Command.redo_frame placed.listed all.1 called
    rw [keeps.next] at below
    refine ⟨⟨listed, ?_, ?_⟩, keeps⟩ <;> rw [stack, keeps.next]
    · exact List.forall_mem_cons.mpr ⟨below, placed.done⟩
    · exact all.2

section Prepared

variable {c : Canvas2D} {later : ShapeId → Shape} {moved : UndoStack Command} {result : CanvasBase}

theorem Placed.push_of_prepared {command : Command} (placed : c.Placed) (below : command.Below c.next)
    (pushed : c.undoStack.push Command.methods command (c.toCanvasBase.prepared later) = .ok (moved, result)) :
    ∃ base, c.push command = .ok ⟨base, moved⟩ ∧ base.prepared later = result := by
  rw [UndoStack.push_unnoticed (Command.redo_prepared placed.listed below)] at pushed
  obtain ⟨⟨stack, base⟩, done, same⟩ := map_completes pushed
  cases same
  refine ⟨base, ?_, rfl⟩
  rw [Canvas2D.push, done]
  rfl

theorem Placed.undo_of_prepared (placed : c.Placed)
    (undone : c.undoStack.undo Command.methods (c.toCanvasBase.prepared later) = .ok (moved, result)) :
    ∃ base, c.undo = .ok ⟨base, moved⟩ ∧ base.prepared later = result := by
  rw [UndoStack.undo_unnoticed fun command member =>
    Command.undo_prepared placed.listed (placed.done command member)] at undone
  obtain ⟨⟨stack, base⟩, done, same⟩ := map_completes undone
  cases same
  refine ⟨base, ?_, rfl⟩
  rw [Canvas2D.undo, done]
  rfl

theorem Placed.redo_of_prepared (placed : c.Placed)
    (redone : c.undoStack.redo Command.methods (c.toCanvasBase.prepared later) = .ok (moved, result)) :
    ∃ base, c.redo = .ok ⟨base, moved⟩ ∧ base.prepared later = result := by
  rw [UndoStack.redo_unnoticed fun command member =>
    Command.redo_prepared placed.listed (placed.undone command member)] at redone
  obtain ⟨⟨stack, base⟩, done, same⟩ := map_completes redone
  cases same
  refine ⟨base, ?_, rfl⟩
  rw [Canvas2D.redo, done]
  rfl

end Prepared

end Canvas2D

end XYAnnotation

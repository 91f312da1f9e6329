import XYAnnotation.Canvas.Base
import XYAnnotation.Library.UndoStack

namespace XYAnnotation

open Library

inductive Command
  | addShape (shape : ShapePtr) (shapeName : String)
  | removeShape (shape : ShapePtr) (shapeName : String)
  | addPoint (shape : ShapePtr) (point : QPointF) (pointName : String)
  deriving DecidableEq

namespace Command

def redo (command : Command) (c : CanvasBase) : Except Fault (Command × CanvasBase) :=
  match command with
  | .addShape shape _ => do
    let (c, shapeName) ← c.addShape shape
    .ok (.addShape shape shapeName, c)
  | .removeShape shape shapeName => do
    let c ← c.deleteShape shapeName
    .ok (.removeShape shape shapeName, c)
  | .addPoint shape point _ =>
    let (c, pointName) := c.addPoint shape point
    .ok (.addPoint shape point pointName, c)

def undo (command : Command) (c : CanvasBase) : Except Fault (Command × CanvasBase) :=
  match command with
  | .addShape shape shapeName => do
    let c ← c.deleteShape shapeName
    .ok (.addShape shape shapeName, c)
  | .removeShape shape _ => do
    let (c, shapeName) ← c.addShape shape
    .ok (.removeShape shape shapeName, c)
  | .addPoint shape point pointName => do
    let c ← c.deletePoint shape pointName
    .ok (.addPoint shape point pointName, c)

def methods : Methods CanvasBase Command Fault := ⟨redo, undo⟩

/-- `RemoveShapeCommand(canvas, shapeName)` looks the shape up when it is made. -/
def forRemoval (c : CanvasBase) (shapeName : String) : Except Fault Command := do
  let shape ← c.shape shapeName
  .ok (.removeShape shape shapeName)

end Command

/-- The canvas with its undo stack. The stack is a member of `CanvasBase` in the source, but
    only `clean` and the views use it, never a command. -/
structure Canvas2D extends CanvasBase where
  undoStack : UndoStack Command

namespace Canvas2D

def fresh : Canvas2D := ⟨.fresh, .empty⟩

def push (c : Canvas2D) (command : Command) : Except Fault Canvas2D := do
  let (stack, base) ← c.undoStack.push Command.methods command c.toCanvasBase
  .ok ⟨base, stack⟩

def undo (c : Canvas2D) : Except Fault Canvas2D := do
  let (stack, base) ← c.undoStack.undo Command.methods c.toCanvasBase
  .ok ⟨base, stack⟩

def redo (c : Canvas2D) : Except Fault Canvas2D := do
  let (stack, base) ← c.undoStack.redo Command.methods c.toCanvasBase
  .ok ⟨base, stack⟩

def clean (c : Canvas2D) : Canvas2D := ⟨c.toCanvasBase.clean, .empty⟩

theorem push_completes {c d : Canvas2D} {command : Command} (pushed : c.push command = .ok d) :
    ∃ recorded, command.redo c.toCanvasBase = .ok (recorded, d.toCanvasBase) ∧
      d.undoStack = ⟨recorded :: c.undoStack.done, []⟩ := by
  obtain ⟨⟨stack, base⟩, done, rest⟩ := bind_completes pushed
  cases rest
  exact UndoStack.push_completes done

theorem undo_completes {c d : Canvas2D} (undone : c.undo = .ok d) :
    c.undoStack.done = [] ∧ d = c ∨ ∃ command done recorded, c.undoStack.done = command :: done ∧
      command.undo c.toCanvasBase = .ok (recorded, d.toCanvasBase) ∧
      d.undoStack = ⟨done, recorded :: c.undoStack.undone⟩ := by
  obtain ⟨⟨stack, base⟩, called, rest⟩ := bind_completes undone
  cases rest
  rcases UndoStack.undo_completes called with ⟨empty, rfl, rfl⟩ | moved
  · exact .inl ⟨empty, rfl⟩
  · exact .inr moved

theorem redo_completes {c d : Canvas2D} (redone : c.redo = .ok d) :
    c.undoStack.undone = [] ∧ d = c ∨ ∃ command undone recorded, c.undoStack.undone = command :: undone ∧
      command.redo c.toCanvasBase = .ok (recorded, d.toCanvasBase) ∧
      d.undoStack = ⟨recorded :: c.undoStack.done, undone⟩ := by
  obtain ⟨⟨stack, base⟩, called, rest⟩ := bind_completes redone
  cases rest
  rcases UndoStack.redo_completes called with ⟨empty, rfl, rfl⟩ | moved
  · exact .inl ⟨empty, rfl⟩
  · exact .inr moved

end Canvas2D

namespace CanvasView

def addShape (c : Canvas2D) : Except Fault Canvas2D :=
  match ShapeFactory.create c.draw with
  | none => .error .nullPointer
  | some newShape => do
    let img ← c.getImage
    let address := c.next
    let c := { c with toCanvasBase := c.allocate (newShape.setimgWH img) }
    c.push (.addShape (some address) "")

def removeShape (c : Canvas2D) : Except Fault Canvas2D := do
  let shapeName ← c.currentShapeName
  if shapeName.isEmpty then .ok c
  else
    let command ← Command.forRemoval c.toCanvasBase shapeName
    c.push command

def addPoint (c : Canvas2D) (point : QPointF) : Except Fault Canvas2D := do
  match ← c.currentShape with
  | none => .ok c
  | some shape => c.push (.addPoint (some shape) point "")

end CanvasView

end XYAnnotation

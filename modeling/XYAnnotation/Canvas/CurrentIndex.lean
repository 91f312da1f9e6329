import XYAnnotation.Canvas.Operations
import XYAnnotation.Canvas.Commands
import XYAnnotation.Library.Runs

namespace XYAnnotation

open Library

/-- The calls that touch the list or the index. A command is pushed as its constructor makes it. -/
inductive CanvasCall
  | addShape (shape : ShapePtr)
  | deleteShape (shapeName : String)
  | addPoint (shape : ShapePtr) (point : QPointF)
  | deletePoint (shape : ShapePtr) (pointName : String)
  | clean
  | pushAddShape (shape : ShapePtr)
  | pushRemoveShape (shapeName : String)
  | pushAddPoint (shape : ShapePtr) (point : QPointF)
  | undo
  | redo

namespace Canvas2D

def call (c : Canvas2D) : CanvasCall → Except Fault Canvas2D
  | .addShape shape => do
    let (base, _) ← c.toCanvasBase.addShape shape
    .ok { c with toCanvasBase := base }
  | .deleteShape shapeName => do
    let base ← c.toCanvasBase.deleteShape shapeName
    .ok { c with toCanvasBase := base }
  | .addPoint shape point => .ok { c with toCanvasBase := (c.toCanvasBase.addPoint shape point).1 }
  | .deletePoint shape pointName => do
    let base ← c.toCanvasBase.deletePoint shape pointName
    .ok { c with toCanvasBase := base }
  | .clean => .ok c.clean
  | .pushAddShape shape => c.push (.addShape shape "")
  | .pushRemoveShape shapeName => do
    let command ← Command.forRemoval c.toCanvasBase shapeName
    c.push command
  | .pushAddPoint shape point => c.push (.addPoint shape point "")
  | .undo => c.undo
  | .redo => c.redo

end Canvas2D

namespace CanvasBase

def IndexValid (c : CanvasBase) : Prop :=
  c.currentIndex = -1 ∨ 0 ≤ c.currentIndex ∧ c.currentIndex < c.shapeList.length

theorem IndexValid.currentShape {c : CanvasBase} (valid : c.IndexValid) :
    ∃ shape, c.currentShape = .ok shape := by
  have set := setCurrentShape_eq c c.currentIndex valid
  obtain ⟨shape, read, _⟩ := bind_completes set
  exact ⟨shape, read⟩

theorem IndexValid.currentShapeName {c : CanvasBase} (valid : c.IndexValid) :
    ∃ shapeName, c.currentShapeName = .ok shapeName := by
  rcases valid with absent | ⟨low, high⟩
  · exact ⟨"", by simp [CanvasBase.currentShapeName, absent]⟩
  · have bound : c.currentIndex.toNat < c.shapeList.length := by omega
    refine ⟨(c.heap c.shapeList[c.currentIndex.toNat]).name, ?_⟩
    have present : c.currentIndex ≠ -1 := by omega
    simp [CanvasBase.currentShapeName, present, QVector.at, low, List.getElem?_eq_getElem bound,
      Bind.bind, Except.bind]

theorem appended_indexValid (c : CanvasBase) (shape : ShapeId) : (c.appended shape).IndexValid := by
  right
  simp [appended]

theorem removedAt_indexValid {c : CanvasBase} (valid : c.IndexValid) {i : ℕ}
    (bound : i < c.shapeList.length) : (c.removedAt i).IndexValid := by
  unfold IndexValid at valid ⊢
  simp only [removedAt, indexAfterRemoval, List.length_eraseIdx_of_lt bound]
  split
  · split <;> omega
  · omega

theorem addShape_indexValid {c d : CanvasBase} {shape : ShapePtr} {shapeName : String}
    (added : c.addShape shape = .ok (d, shapeName)) : d.IndexValid := by
  cases shape with
  | none => cases added
  | some shape =>
    rw [addShape_eq] at added
    cases added
    exact appended_indexValid c shape

theorem deleteShape_indexValid {c d : CanvasBase} (valid : c.IndexValid) {shapeName : String}
    (deleted : c.deleteShape shapeName = .ok d) : d.IndexValid := by
  rcases deleteShape_cases c shapeName with same | ⟨i, bound, removed⟩
  · rw [same] at deleted
    cases deleted
    exact valid
  · rw [removed] at deleted
    cases deleted
    exact removedAt_indexValid valid bound

theorem addPoint_indexValid {c : CanvasBase} (valid : c.IndexValid) (shape : ShapePtr) (point : QPointF) :
    (c.addPoint shape point).1.IndexValid := by
  cases shape <;> exact valid

theorem deletePoint_indexValid {c d : CanvasBase} (valid : c.IndexValid) {shape : ShapePtr}
    {pointName : String} (deleted : c.deletePoint shape pointName = .ok d) : d.IndexValid := by
  cases shape with
  | none => cases deleted
  | some shape =>
    obtain ⟨_, _, rest⟩ := bind_completes deleted
    cases rest
    exact valid

end CanvasBase

namespace Command

open CanvasBase

theorem redo_indexValid {command recorded : Command} {c d : CanvasBase} (valid : c.IndexValid)
    (done : command.redo c = .ok (recorded, d)) : d.IndexValid := by
  cases command with
  | addShape shape shapeName =>
    obtain ⟨⟨_, _⟩, added, rest⟩ := bind_completes done
    cases rest
    exact addShape_indexValid added
  | removeShape shape shapeName =>
    obtain ⟨_, deleted, rest⟩ := bind_completes done
    cases rest
    exact deleteShape_indexValid valid deleted
  | addPoint shape point pointName =>
    cases done
    exact addPoint_indexValid valid shape point

theorem undo_indexValid {command recorded : Command} {c d : CanvasBase} (valid : c.IndexValid)
    (done : command.undo c = .ok (recorded, d)) : d.IndexValid := by
  cases command with
  | addShape shape shapeName =>
    obtain ⟨_, deleted, rest⟩ := bind_completes done
    cases rest
    exact deleteShape_indexValid valid deleted
  | removeShape shape shapeName =>
    obtain ⟨⟨_, _⟩, added, rest⟩ := bind_completes done
    cases rest
    exact addShape_indexValid added
  | addPoint shape point pointName =>
    obtain ⟨_, deleted, rest⟩ := bind_completes done
    cases rest
    exact deletePoint_indexValid valid deleted

end Command

namespace Canvas2D

theorem push_indexValid {c d : Canvas2D} {command : Command} (valid : c.IndexValid)
    (pushed : c.push command = .ok d) : d.IndexValid := by
  obtain ⟨_, redone, _⟩ := push_completes pushed
  exact Command.redo_indexValid valid redone

theorem undo_indexValid {c d : Canvas2D} (valid : c.IndexValid) (undone : c.undo = .ok d) :
    d.IndexValid := by
  rcases undo_completes undone with ⟨_, rfl⟩ | ⟨_, _, _, _, called, _⟩
  · exact valid
  · exact Command.undo_indexValid valid called

theorem redo_indexValid {c d : Canvas2D} (valid : c.IndexValid) (redone : c.redo = .ok d) :
    d.IndexValid := by
  rcases redo_completes redone with ⟨_, rfl⟩ | ⟨_, _, _, _, called, _⟩
  · exact valid
  · exact Command.redo_indexValid valid called

theorem clean_indexValid (c : Canvas2D) : c.clean.IndexValid ↔ c.currentIndex = -1 := by
  simp only [CanvasBase.IndexValid, clean, CanvasBase.clean, List.length_nil]
  omega

theorem call_indexValid {c d : Canvas2D} {made : CanvasCall} (valid : c.IndexValid)
    (done : c.call made = .ok d) : d.IndexValid ↔ (made = .clean → c.currentIndex = -1) := by
  cases made with
  | clean =>
    cases done
    simpa using clean_indexValid c
  | addShape shape =>
    obtain ⟨⟨_, _⟩, added, rest⟩ := bind_completes done
    cases rest
    simpa using CanvasBase.addShape_indexValid added
  | deleteShape shapeName =>
    obtain ⟨_, deleted, rest⟩ := bind_completes done
    cases rest
    simpa using CanvasBase.deleteShape_indexValid valid deleted
  | addPoint shape point =>
    cases done
    simpa using CanvasBase.addPoint_indexValid valid shape point
  | deletePoint shape pointName =>
    obtain ⟨_, deleted, rest⟩ := bind_completes done
    cases rest
    simpa using CanvasBase.deletePoint_indexValid valid deleted
  | pushAddShape shape => simpa using push_indexValid valid done
  | pushRemoveShape shapeName =>
    obtain ⟨_, _, pushed⟩ := bind_completes done
    simpa using push_indexValid valid pushed
  | pushAddPoint shape point => simpa using push_indexValid valid done
  | undo => simpa using undo_indexValid valid done
  | redo => simpa using redo_indexValid valid done

/-- The calls the event handlers make to find the current shape. -/
def FindsCurrent (c : Canvas2D) : Prop :=
  (∃ shape, c.currentShape = .ok shape) ∧ ∃ shapeName, c.currentShapeName = .ok shapeName

/-- From a fresh canvas, whatever objects the calls are given, the index stays valid in every
    state of a run exactly when `clean` is only called without a current shape. -/
theorem currentIndex_valid_iff (heap : ShapeId → Shape) (calls : List CanvasCall) :
    (∀ reached ∈ visited call { fresh with heap } calls, reached.IndexValid ∧ reached.FindsCurrent) ↔
      Along call (fun state made => made = .clean → state.currentIndex = -1) { fresh with heap } calls := by
  have decides : (∀ reached ∈ visited call { fresh with heap } calls, reached.IndexValid) ↔
      Along call (fun state made => made = .clean → state.currentIndex = -1) { fresh with heap } calls :=
    visited_invariant_iff (fun _ => True) (fun _ _ _ _ valid done => ⟨trivial, call_indexValid valid done⟩)
      trivial (.inl rfl)
  rw [← decides]
  constructor
  · intro all reached member
    exact (all reached member).1
  · intro all reached member
    have valid := all reached member
    exact ⟨valid, valid.currentShape, valid.currentShapeName⟩

theorem currentIndex_stale_after_clean :
    ∃ reached ∈ visited call { fresh with heap := fun _ => Shape.new .polygon }
        [.addShape (some 0), .clean],
      ¬ reached.IndexValid ∧ reached.currentShape = .error .outOfRange := by
  refine ⟨clean ⟨CanvasBase.appended { CanvasBase.fresh with heap := fun _ => Shape.new .polygon } 0, .empty⟩,
    ?_, ?_, rfl⟩
  · simp [visited, call, CanvasBase.addShape_eq, fresh, Bind.bind, Except.bind]
  · rw [clean_indexValid]
    decide

end Canvas2D

end XYAnnotation

import XYAnnotation.Canvas.Handlers
import XYAnnotation.Canvas.UniqueNames

namespace XYAnnotation

open Library CanvasBase

def Command.added : Command → Option (ShapeId × String)
  | .addShape (some shape) shapeName => some (shape, shapeName)
  | _ => none

def Command.draws : Command → Bool
  | .addShape (some _) _ | .addPoint (some _) _ _ => true
  | _ => false

namespace Command

variable {command recorded : Command} {c d : CanvasBase}

theorem redo_kind (done : command.redo c = .ok (recorded, d)) :
    recorded.draws = command.draws ∧ recorded.added.map Prod.fst = command.added.map Prod.fst := by
  cases command with
  | addShape shape shapeName =>
    obtain ⟨⟨_, _⟩, _, rest⟩ := bind_completes done
    cases rest
    cases shape <;> exact ⟨rfl, rfl⟩
  | removeShape shape shapeName =>
    obtain ⟨_, _, rest⟩ := bind_completes done
    cases rest
    exact ⟨rfl, rfl⟩
  | addPoint shape point pointName =>
    cases done
    cases shape <;> exact ⟨rfl, rfl⟩

theorem undo_kind (done : command.undo c = .ok (recorded, d)) :
    recorded.draws = command.draws ∧ recorded.added.map Prod.fst = command.added.map Prod.fst := by
  cases command with
  | addShape shape shapeName =>
    obtain ⟨_, _, rest⟩ := bind_completes done
    cases rest
    exact ⟨rfl, rfl⟩
  | removeShape shape shapeName =>
    obtain ⟨⟨_, _⟩, _, rest⟩ := bind_completes done
    cases rest
    exact ⟨rfl, rfl⟩
  | addPoint shape point pointName =>
    obtain ⟨_, _, rest⟩ := bind_completes done
    cases rest
    exact ⟨rfl, rfl⟩

theorem draws_moved {before after : List Command} (all : ∀ other ∈ before, other.draws = true)
    (member : command ∈ before) (kind : recorded.draws = command.draws)
    (moved : ∀ other ∈ after, other = recorded ∨ other ∈ before) : ∀ other ∈ after, other.draws = true := by
  intro other here
  rcases moved other here with rfl | kept
  · rw [kind]
    exact all command member
  · exact all other kept

end Command

structure Calm (c d : CanvasBase) : Prop where
  shapeList : d.shapeList = c.shapeList
  currentIndex : d.currentIndex = c.currentIndex
  task : d.task = c.task
  name : ∀ shape, (d.heap shape).name = (c.heap shape).name
  closed : ∀ shape, (c.heap shape).isClosed = true → (d.heap shape).isClosed = true

namespace Calm

variable {c d e : CanvasBase}

theorem trans (first : Calm c d) (second : Calm d e) : Calm c e where
  shapeList := second.shapeList.trans first.shapeList
  currentIndex := second.currentIndex.trans first.currentIndex
  task := second.task.trans first.task
  name shape := (second.name shape).trans (first.name shape)
  closed shape isClosed := second.closed shape (first.closed shape isClosed)

theorem of_untouched (untouched : Untouched c d) : Calm c d where
  shapeList := untouched.shapeList
  currentIndex := untouched.currentIndex
  task := untouched.task
  name := untouched.name
  closed shape isClosed := (untouched.outline shape).isClosed.trans isClosed

theorem modifyShape (c : CanvasBase) (shape : ShapeId) {f : Shape → Shape}
    (name : (f (c.heap shape)).name = (c.heap shape).name)
    (closed : (c.heap shape).isClosed = true → (f (c.heap shape)).isClosed = true) :
    Calm c (c.modifyShape shape f) where
  shapeList := rfl
  currentIndex := rfl
  task := rfl
  name other := by
    by_cases same : other = shape
    · rw [same, modifyShape_heap_same, name]
    · rw [modifyShape_heap_other _ _ _ same]
  closed other isClosed := by
    by_cases same : other = shape
    · rw [same] at isClosed
      rw [same, modifyShape_heap_same]
      exact closed isClosed
    · rw [modifyShape_heap_other _ _ _ same]
      exact isClosed

theorem modifyShape_points (c : CanvasBase) (shape : ShapeId) {f : Shape → Shape}
    (name : (f (c.heap shape)).name = (c.heap shape).name)
    (closed : (f (c.heap shape)).isClosed = (c.heap shape).isClosed) :
    Calm c (c.modifyShape shape f) ∧
      ∀ other, ((c.modifyShape shape f).heap other).isClosed = (c.heap other).isClosed := by
  refine ⟨modifyShape c shape name fun isClosed => closed.trans isClosed, ?_⟩
  intro other
  by_cases same : other = shape
  · rw [same, modifyShape_heap_same, closed]
  · rw [modifyShape_heap_other _ _ _ same]

end Calm

namespace Canvas2D

def undoneShapes (c : Canvas2D) : List ShapeId :=
  c.undoStack.undone.filterMap fun command => command.added.map Prod.fst

/-- All shapes of the history in the order they were made. Undo and redo only move the line between those on the
    list and the others. -/
def timeline (c : Canvas2D) : List ShapeId := c.shapeList ++ c.undoneShapes

/-- The history agrees with the list: every shape was added by a command that knows its name. -/
structure Stacked (c : Canvas2D) : Prop where
  placed : c.Placed
  task : c.task = .segmentation
  current : c.currentIndex = c.shapeList.length - 1
  added : c.undoStack.done.filterMap Command.added =
    (c.shapeList.map fun shape => (shape, (c.heap shape).name)).reverse
  names : c.names.Nodup
  timeline : c.timeline.Nodup
  draws : ∀ command ∈ c.undoStack.done ++ c.undoStack.undone, command.draws = true

def OnlyCurrentOpen (c : Canvas2D) : Prop :=
  ∀ shape ∈ c.shapeList, c.currentShape ≠ .ok (some shape) → (c.heap shape).isClosed = true

def Settled (c : Canvas2D) : Prop := ∀ shape ∈ c.timeline.dropLast, (c.heap shape).isClosed = true

variable {c d : Canvas2D}

theorem Stacked.entries {c : CanvasBase} {d : CanvasBase} (list : d.shapeList = c.shapeList)
    (name : ∀ shape, (d.heap shape).name = (c.heap shape).name) :
    (d.shapeList.map fun shape => (shape, (d.heap shape).name)) =
      c.shapeList.map fun shape => (shape, (c.heap shape).name) := by
  rw [list]
  apply List.map_congr_left
  intro shape _
  rw [name]

theorem Stacked.currentShape (stacked : c.Stacked) {rest : List ShapeId} {shape : ShapeId}
    (list : c.shapeList = rest ++ [shape]) : c.currentShape = .ok (some shape) := by
  have index : c.currentIndex = rest.length := by
    rw [stacked.current, list]
    simp
  have present : c.currentIndex ≠ -1 := by omega
  have read : QVector.at c.shapeList c.currentIndex = .ok shape := by
    simp [index, list, QVector.at]
  rw [CanvasBase.currentShape, if_neg present, read]
  rfl

theorem Settled.onlyCurrentOpen (settled : c.Settled) (stacked : c.Stacked) : c.OnlyCurrentOpen := by
  intro shape member other
  rcases List.eq_nil_or_concat c.shapeList with empty | ⟨rest, last, list⟩
  · rw [empty] at member
    cases member
  · rw [List.concat_eq_append] at list
    have different : shape ≠ last := by
      rintro rfl
      exact other (stacked.currentShape list)
    have earlier : shape ∈ rest := by
      rw [list, List.mem_append, List.mem_singleton] at member
      exact member.resolve_right different
    apply settled
    rw [timeline, list, List.append_assoc]
    rw [List.dropLast_append_of_ne_nil (by simp)]
    exact List.mem_append_left _ earlier

theorem mem_dropLast_append {α : Type} {first second : List α} {a : α} (member : a ∈ first.dropLast) :
    a ∈ (first ++ second).dropLast := by
  cases second with
  | nil =>
    rw [List.append_nil]
    exact member
  | cons b second =>
    rw [List.dropLast_append_of_ne_nil (List.cons_ne_nil b second)]
    exact List.mem_append_left _ (List.mem_of_mem_dropLast member)

theorem Settled.calm (settled : c.Settled) (calm : Calm c.toCanvasBase d.toCanvasBase)
    (undone : d.undoneShapes = c.undoneShapes ∨ d.undoneShapes = []) : d.Settled := by
  intro shape member
  apply calm.closed
  apply settled
  rw [timeline] at member ⊢
  rw [calm.shapeList] at member
  rcases undone with same | none
  · rw [same] at member
    exact member
  · rw [none, List.append_nil] at member
    exact mem_dropLast_append member

theorem Stacked.calm (stacked : c.Stacked) (calm : Calm c.toCanvasBase d.toCanvasBase) (placed : d.Placed)
    (added : d.undoStack.done.filterMap Command.added = c.undoStack.done.filterMap Command.added)
    (undone : d.undoneShapes = c.undoneShapes ∨ d.undoneShapes = [])
    (draws : ∀ command ∈ d.undoStack.done ++ d.undoStack.undone, command.draws = true) : d.Stacked where
  placed := placed
  task := calm.task.trans stacked.task
  current := by rw [calm.currentIndex, calm.shapeList, stacked.current]
  added := by rw [added, stacked.added, Stacked.entries calm.shapeList calm.name]
  names := by
    have names : d.names = c.names := by
      rw [CanvasBase.names, calm.shapeList]
      apply List.map_congr_left
      intro shape _
      exact calm.name shape
    rw [names]
    exact stacked.names
  timeline := by
    rw [Canvas2D.timeline, calm.shapeList]
    rcases undone with same | none
    · rw [same]
      exact stacked.timeline
    · rw [none, List.append_nil]
      exact (List.nodup_append.mp stacked.timeline).1
  draws := draws

theorem Stacked.same (stacked : c.Stacked) (calm : Calm c.toCanvasBase d.toCanvasBase) (placed : d.Placed)
    (stack : d.undoStack = c.undoStack) : d.Stacked := by
  apply stacked.calm calm placed
  · rw [stack]
  · rw [undoneShapes, stack]
    exact .inl rfl
  · rw [stack]
    exact stacked.draws

theorem Settled.same (settled : c.Settled) (calm : Calm c.toCanvasBase d.toCanvasBase)
    (stack : d.undoStack = c.undoStack) : d.Settled := by
  apply settled.calm calm
  rw [undoneShapes, stack]
  exact .inl rfl

theorem TakesPoint.calm {shape : ShapeId} {pixPos : QPointF} {closes : Bool}
    (takes : TakesPoint shape pixPos closes c d) : Calm c.toCanvasBase d.toCanvasBase := by
  have appended : Calm c.toCanvasBase (c.toCanvasBase.modifyShape shape fun s =>
      (s.appendPoint pixPos).setIsClosed (closes || s.isClosed)) := by
    apply Calm.modifyShape
    · rfl
    · intro isClosed
      rw [isClosed, Bool.or_true]
      rfl
  exact appended.trans (Calm.of_untouched takes.base)

theorem Stacked.takesPoint {shape : ShapeId} {pixPos : QPointF} {closes : Bool} (stacked : c.Stacked)
    (known : shape < c.next) (takes : TakesPoint shape pixPos closes c d) : d.Stacked := by
  apply stacked.calm takes.calm (stacked.placed.takesPoint known takes)
  · rw [takes.undoStack]
    rfl
  · rw [undoneShapes, takes.undoStack]
    exact .inr rfl
  · rw [takes.undoStack, List.append_nil]
    intro command member
    rcases List.mem_cons.mp member with rfl | member
    · rfl
    · exact stacked.draws command (List.mem_append_left _ member)

theorem Settled.takesPoint {shape : ShapeId} {pixPos : QPointF} {closes : Bool} (settled : c.Settled)
    (takes : TakesPoint shape pixPos closes c d) : d.Settled := by
  apply settled.calm takes.calm
  rw [undoneShapes, takes.undoStack]
  exact .inr rfl

theorem Stacked.extended (stacked : c.Stacked) {shape : ShapeId} (placed : d.Placed) (task : d.task = c.task)
    (list : d.shapeList = c.shapeList ++ [shape]) (current : d.currentIndex = c.shapeList.length)
    (name : ∀ other ∈ c.shapeList, (d.heap other).name = (c.heap other).name)
    (added : d.undoStack.done.filterMap Command.added =
      (shape, (d.heap shape).name) :: c.undoStack.done.filterMap Command.added)
    (names : d.names.Nodup) (timeline : d.timeline.Nodup)
    (draws : ∀ command ∈ d.undoStack.done ++ d.undoStack.undone, command.draws = true) : d.Stacked where
  placed := placed
  task := task.trans stacked.task
  current := by
    rw [current, list, List.length_append, List.length_singleton]
    omega
  added := by
    have entries : (c.shapeList.map fun other => (other, (d.heap other).name)) =
        c.shapeList.map fun other => (other, (c.heap other).name) := by
      apply List.map_congr_left
      intro other listed
      rw [name other listed]
    rw [added, list, List.map_append, entries, List.reverse_append, stacked.added]
    rfl
  names := names
  timeline := timeline
  draws := draws

theorem Stacked.addShape (stacked : c.Stacked) (added : CanvasView.addShape c = .ok d) :
    d.Stacked ∧ d.shapeList = c.shapeList ++ [c.next] ∧ d.undoneShapes = [] ∧
      ∀ shape ∈ c.shapeList, d.heap shape = c.heap shape := by
  obtain ⟨img, _, _, base, stack⟩ := addShape_completes added
  have list : d.shapeList = c.shapeList ++ [c.next] := by
    rw [base]
    rfl
  have undone : d.undoneShapes = [] := by
    rw [undoneShapes, stack]
    rfl
  have outside : c.next ∉ c.shapeList := fun member => Nat.lt_irrefl _ (stacked.placed.listed _ member)
  have others : ∀ shape ∈ c.shapeList, d.heap shape = c.heap shape := by
    intro shape member
    rw [base]
    apply started_heap_other
    rintro rfl
    exact outside member
  refine ⟨?_, list, undone, others⟩
  apply stacked.extended (stacked.placed.addShape added).1 _ list
  · rw [base]
    rfl
  · intro shape member
    rw [others shape member]
  · rw [stack]
    rfl
  · have distinct : (c.allocate ((Shape.new c.draw).setimgWH img)).names.Nodup := by
      rw [allocate_names stacked.placed.listed]
      exact stacked.names
    rw [base]
    exact (distinct_appended distinct c.next).mpr outside
  · rw [Canvas2D.timeline, list, undone, List.append_nil, List.nodup_append_comm, List.singleton_append, List.nodup_cons]
    exact ⟨outside, (List.nodup_append.mp stacked.timeline).1⟩
  · rw [stack, List.append_nil]
    intro command member
    rcases List.mem_cons.mp member with rfl | member
    · rfl
    · exact stacked.draws command (List.mem_append_left _ member)
  · rw [base]
    rfl

theorem Settled.addShape (stacked : c.Stacked) (settled : c.Settled) (added : CanvasView.addShape c = .ok d)
    (closed : ∀ shape, c.currentShape = .ok (some shape) → (c.heap shape).isClosed = true) : d.Settled := by
  obtain ⟨_, list, undone, others⟩ := stacked.addShape added
  intro shape member
  rw [timeline, list, undone, List.append_nil, List.dropLast_concat] at member
  rw [others shape member]
  by_cases current : c.currentShape = .ok (some shape)
  · exact closed shape current
  · exact settled.onlyCurrentOpen stacked shape member current

theorem Stacked.undo_addShape (stacked : c.Stacked) {shape : ShapeId} {shapeName : String} {rest : List Command}
    (top : c.undoStack.done = .addShape (some shape) shapeName :: rest) :
    ∃ front, c.shapeList = front ++ [shape] ∧ c.deleteShape shapeName = .ok (c.removedAt front.length) ∧
      rest.filterMap Command.added = (front.map fun other => (other, (c.heap other).name)).reverse := by
  have added := stacked.added
  rw [top, List.filterMap_cons] at added
  simp only [Command.added] at added
  rcases List.eq_nil_or_concat c.shapeList with empty | ⟨front, last, list⟩
  · rw [empty] at added
    cases added
  · rw [List.concat_eq_append] at list
    rw [list, List.map_append, List.reverse_append] at added
    obtain ⟨head, tail⟩ := List.cons.inj added
    obtain ⟨rfl, rfl⟩ := Prod.mk.inj head
    have names : c.names = (front.map fun other => (c.heap other).name) ++ [(c.heap shape).name] := by
      rw [CanvasBase.names, list, List.map_append, List.map_singleton]
    have unused : (c.heap shape).name ∉ front.map fun other => (c.heap other).name := by
      have nodup := stacked.names
      rw [names, List.nodup_append_comm, List.singleton_append, List.nodup_cons] at nodup
      exact nodup.1
    have deleted := deleteShape_last names unused
    rw [List.length_map] at deleted
    exact ⟨front, list, deleted, tail⟩

theorem deletePoint_isClosed {s deleted : Shape} {index : ℤ} (done : s.deletePoint index = .ok deleted) :
    deleted.isClosed = s.isClosed := by
  rcases Shape.deletePoint_completes done with ⟨_, rfl⟩ | ⟨_, points, _, rfl⟩
  · rfl
  · rfl

structure Replayed (c d : Canvas2D) : Prop where
  stacked : d.Stacked
  timeline : d.timeline = c.timeline
  closed : ∀ shape, (d.heap shape).isClosed = (c.heap shape).isClosed

theorem Stacked.removedLast (stacked : c.Stacked) {shape : ShapeId} {front : List ShapeId} (placed : d.Placed)
    (list : c.shapeList = front ++ [shape]) (base : d.toCanvasBase = c.removedAt front.length)
    (undone : d.undoneShapes = shape :: c.undoneShapes)
    (added : d.undoStack.done.filterMap Command.added = (front.map fun other => (other, (c.heap other).name)).reverse)
    (draws : ∀ command ∈ d.undoStack.done ++ d.undoStack.undone, command.draws = true) : Replayed c d := by
  have shorter : d.shapeList = front := by
    rw [base]
    exact removedAt_last_shapeList list
  have heap : d.heap = c.heap := by
    rw [base]
    rfl
  have timeline : d.timeline = c.timeline := by
    rw [Canvas2D.timeline, Canvas2D.timeline, shorter, undone, list, List.append_assoc]
    rfl
  refine ⟨⟨placed, ?_, ?_, ?_, ?_, ?_, draws⟩, timeline, fun other => by rw [heap]⟩
  · rw [base]
    exact stacked.task
  · rw [base, removedAt_last_currentIndex list stacked.current, removedAt_last_shapeList list]
  · rw [shorter, heap]
    exact added
  · have names := stacked.names
    rw [CanvasBase.names, list, List.map_append] at names
    rw [CanvasBase.names, shorter, heap]
    exact (List.nodup_append.mp names).1
  · rw [timeline]
    exact stacked.timeline

theorem Stacked.appendedAgain (stacked : c.Stacked) {shape : ShapeId} (placed : d.Placed)
    (base : d.toCanvasBase = c.toCanvasBase.appended shape) (undone : c.undoneShapes = shape :: d.undoneShapes)
    (added : d.undoStack.done.filterMap Command.added =
      (shape, (d.heap shape).name) :: c.undoStack.done.filterMap Command.added)
    (draws : ∀ command ∈ d.undoStack.done ++ d.undoStack.undone, command.draws = true) : Replayed c d := by
  have outside : shape ∉ c.shapeList := by
    have nodup := stacked.timeline
    rw [Canvas2D.timeline, undone] at nodup
    intro listed
    exact (List.nodup_append.mp nodup).2.2 shape listed shape (by simp) rfl
  have longer : d.shapeList = c.shapeList ++ [shape] := by
    rw [base]
    rfl
  have timeline : d.timeline = c.timeline := by
    rw [Canvas2D.timeline, Canvas2D.timeline, longer, undone, List.append_assoc]
    rfl
  refine ⟨?_, timeline, ?_⟩
  · apply stacked.extended placed _ longer _ _ added _ _ draws
    · rw [base]
      rfl
    · rw [base]
      rfl
    · intro other listed
      have different : other ≠ shape := by
        rintro rfl
        exact outside listed
      rw [base]
      simp [CanvasBase.appended, different]
    · rw [base]
      exact (distinct_appended stacked.names shape).mpr outside
    · rw [timeline]
      exact stacked.timeline
  · intro other
    rw [base]
    exact (Command.appended_outline c.toCanvasBase shape other).isClosed

theorem Stacked.pointMoved (stacked : c.Stacked) {shape : ShapeId} {f : Shape → Shape} (placed : d.Placed)
    (base : d.toCanvasBase = c.toCanvasBase.modifyShape shape f)
    (name : (f (c.heap shape)).name = (c.heap shape).name)
    (closed : (f (c.heap shape)).isClosed = (c.heap shape).isClosed) (undone : d.undoneShapes = c.undoneShapes)
    (added : d.undoStack.done.filterMap Command.added = c.undoStack.done.filterMap Command.added)
    (draws : ∀ command ∈ d.undoStack.done ++ d.undoStack.undone, command.draws = true) : Replayed c d := by
  have calm : Calm c.toCanvasBase d.toCanvasBase ∧
      ∀ other, (d.heap other).isClosed = (c.heap other).isClosed := by
    rw [base]
    exact Calm.modifyShape_points _ _ name closed
  refine ⟨stacked.calm calm.1 placed added (.inl undone) draws, ?_, calm.2⟩
  rw [Canvas2D.timeline, Canvas2D.timeline, calm.1.shapeList, undone]

theorem Stacked.undo (stacked : c.Stacked) (undone : c.undo = .ok d) : Replayed c d := by
  have placed := (stacked.placed.undo undone).1
  rcases undo_completes undone with ⟨_, rfl⟩ | ⟨command, rest, recorded, top, called, stack⟩
  · exact ⟨stacked, rfl, fun _ => rfl⟩
  · have kind := Command.undo_kind called
    have member : command ∈ c.undoStack.done ++ c.undoStack.undone := by simp [top]
    have known := stacked.draws command member
    have draws : ∀ other ∈ d.undoStack.done ++ d.undoStack.undone, other.draws = true := by
      apply Command.draws_moved stacked.draws member kind.1
      intro other here
      simp only [stack, List.mem_append, List.mem_cons] at here
      simp only [top, List.mem_append, List.mem_cons]
      tauto
    have undoneShapes : d.undoneShapes = (command.added.map Prod.fst).toList ++ c.undoneShapes := by
      rw [Canvas2D.undoneShapes, stack, List.filterMap_cons, kind.2]
      cases command.added <;> rfl
    cases command with
    | removeShape shape shapeName => cases known
    | addShape shape shapeName =>
      cases shape with
      | none => cases known
      | some shape =>
        obtain ⟨front, list, deleted, added⟩ := stacked.undo_addShape top
        apply stacked.removedLast placed list _ undoneShapes _ draws
        · simp only [Command.undo, deleted] at called
          exact (Prod.mk.inj (Except.ok.inj called)).2.symm
        · rw [stack]
          exact added
    | addPoint shape point pointName =>
      cases shape with
      | none => cases known
      | some shape =>
        have added : d.undoStack.done.filterMap Command.added = c.undoStack.done.filterMap Command.added := by
          rw [stack, top]
          rfl
        rcases Command.undo_cases called with ⟨_, _, wrong, _⟩ | ⟨_, _, _, deleted, same, erased, base⟩ |
          ⟨⟨_, _, wrong⟩, _⟩
        · cases wrong
        · cases same
          exact stacked.pointMoved placed base (deletePoint_name erased) (deletePoint_isClosed erased) undoneShapes
            added draws
        · cases wrong

theorem Stacked.redo (stacked : c.Stacked) (redone : c.redo = .ok d) : Replayed c d := by
  have placed := (stacked.placed.redo redone).1
  rcases redo_completes redone with ⟨_, rfl⟩ | ⟨command, rest, recorded, top, called, stack⟩
  · exact ⟨stacked, rfl, fun _ => rfl⟩
  · have kind := Command.redo_kind called
    have member : command ∈ c.undoStack.done ++ c.undoStack.undone := by simp [top]
    have known := stacked.draws command member
    have draws : ∀ other ∈ d.undoStack.done ++ d.undoStack.undone, other.draws = true := by
      apply Command.draws_moved stacked.draws member kind.1
      intro other here
      simp only [stack, List.mem_append, List.mem_cons] at here
      simp only [top, List.mem_append, List.mem_cons]
      tauto
    have undoneShapes : c.undoneShapes = (command.added.map Prod.fst).toList ++ d.undoneShapes := by
      rw [Canvas2D.undoneShapes, Canvas2D.undoneShapes, stack, top, List.filterMap_cons]
      cases command.added <;> rfl
    cases command with
    | removeShape shape shapeName => cases known
    | addShape shape shapeName =>
      cases shape with
      | none => cases known
      | some shape =>
        simp only [Command.redo, addShape_eq] at called
        obtain ⟨rfl, base⟩ := Prod.mk.inj (Except.ok.inj called)
        apply stacked.appendedAgain placed base.symm undoneShapes _ draws
        have named : (d.heap shape).name = c.uniqueName (Shape.typeToString (c.heap shape).type) := by
          rw [← base]
          simp [CanvasBase.appended, Shape.setName]
        rw [stack, named]
        rfl
    | addPoint shape point pointName =>
      cases shape with
      | none => cases known
      | some shape =>
        obtain ⟨rfl, base⟩ := Prod.mk.inj (Except.ok.inj called)
        apply stacked.pointMoved placed base.symm rfl rfl undoneShapes.symm _ draws
        rw [stack]
        rfl

theorem Settled.moved (settled : c.Settled) (timeline : d.timeline = c.timeline)
    (closed : ∀ shape, (d.heap shape).isClosed = (c.heap shape).isClosed) : d.Settled := by
  intro shape member
  rw [timeline] at member
  rw [closed]
  exact settled shape member

section Events

variable {containsPoint : List QPointF → QPointF → Bool}

theorem Stacked.mousePress {pos : QPointF} {leftButton : Bool} {reply : DialogReply} (stacked : c.Stacked)
    (pressed : c.mousePressEvent containsPoint pos leftButton reply = .ok d) :
    d.Stacked ∧ (c.Settled → d.Settled) := by
  obtain ⟨img, _, ⟨still, _⟩ | ⟨shape, _, found, _, _, takes⟩ | ⟨operat, closed, begun, added, takes⟩⟩ :=
    mousePressEvent_completes pressed
  · have calm := Calm.of_untouched still.base
    exact ⟨stacked.same calm (stacked.placed.still still) still.undoStack,
      fun settled => settled.same calm still.undoStack⟩
  · have known := stacked.placed.listed shape (drawn_mem found)
    exact ⟨stacked.takesPoint known takes, fun settled => settled.takesPoint takes⟩
  · have known := (stacked.placed.addShape added).2
    refine ⟨(stacked.addShape added).1.takesPoint known takes, ?_⟩
    intro settled
    apply Settled.takesPoint _ takes
    apply Settled.addShape stacked settled added
    intro shape current
    exact closed shape (drawn_eq stacked.task operat current)

theorem Stacked.closing (stacked : c.Stacked) {shape : ShapeId} {f : Shape → Shape}
    (name : (f (c.heap shape)).name = (c.heap shape).name) (closed : (f (c.heap shape)).isClosed = true)
    (still : Still (c.modifyShape shape f) d) : d.Stacked ∧ (c.Settled → d.Settled) := by
  have calm : Calm c.toCanvasBase d.toCanvasBase :=
    (Calm.modifyShape c.toCanvasBase shape name fun _ => closed).trans (Calm.of_untouched still.base)
  exact ⟨stacked.same calm ((stacked.placed.modifyShape _).still still) still.undoStack,
    fun settled => settled.same calm still.undoStack⟩

/-- The action that creates a shape must find the current one closed; the other events check for themselves. -/
def StartsClosed (c : Canvas2D) : CanvasEvent → Prop
  | .creatPolygon => ∀ shape, c.currentShape = .ok (some shape) → (c.heap shape).isClosed = true
  | _ => True

theorem Stacked.handle {event : CanvasEvent} (stacked : c.Stacked) (handled : c.handle containsPoint event = .ok d) :
    d.Stacked ∧ (c.Settled → c.StartsClosed event → d.Settled) := by
  have quiet : Still c d → d.Stacked ∧ (c.Settled → c.StartsClosed event → d.Settled) := by
    intro still
    have calm := Calm.of_untouched still.base
    exact ⟨stacked.same calm (stacked.placed.still still) still.undoStack,
      fun settled _ => settled.same calm still.undoStack⟩
  have placed := stacked.placed.handle handled
  cases event with
  | mousePress pos leftButton reply =>
    have pressed := stacked.mousePress handled
    exact ⟨pressed.1, fun settled _ => pressed.2 settled⟩
  | mouseRelease pos => exact quiet (mouseReleaseEvent_still handled)
  | mouseDoubleClick pos leftButton reply =>
    rcases mouseDoubleClickEvent_completes handled with
      ⟨_, rfl⟩ | ⟨shape, _, _, points, finished, _, still, pressed⟩ | ⟨_, pressed⟩
    · exact quiet (Still.refl d)
    · have closing := stacked.closing rfl rfl still
      have pressed := closing.1.mousePress pressed
      exact ⟨pressed.1, fun settled _ => pressed.2 (closing.2 settled)⟩
    · have pressed := stacked.mousePress pressed
      exact ⟨pressed.1, fun settled _ => pressed.2 settled⟩
  | hoverMove pos => exact quiet (hoverMoveEvent_still handled)
  | mouseMove pos =>
    rcases mouseMoveEvent_completes handled with ⟨still, _⟩ | ⟨_, _, _, stack, shape, _, points, _, changed⟩
    · exact quiet still
    · have calm : Calm c.toCanvasBase d.toCanvasBase :=
        (Calm.modifyShape_points c.toCanvasBase shape rfl rfl).1.trans (Calm.of_untouched changed)
      exact ⟨stacked.same calm placed stack, fun settled _ => settled.same calm stack⟩
  | keyPress enter reply =>
    rcases keyPressEvent_completes handled with ⟨shape, _, _, _, still⟩ | ⟨still, _⟩
    · have closing := stacked.closing rfl rfl still
      exact ⟨closing.1, fun settled _ => closing.2 settled⟩
    · exact quiet still
  | undo =>
    obtain ⟨kept, timeline, closed⟩ := stacked.undo handled
    exact ⟨kept, fun settled _ => settled.moved timeline closed⟩
  | redo =>
    obtain ⟨kept, timeline, closed⟩ := stacked.redo handled
    exact ⟨kept, fun settled _ => settled.moved timeline closed⟩
  | changeDrawMode mode =>
    cases handled
    have calm : Calm c.toCanvasBase { c.toCanvasBase with draw := mode } :=
      ⟨rfl, rfl, rfl, fun _ => rfl, fun _ isClosed => isClosed⟩
    exact ⟨stacked.same calm placed rfl, fun settled _ => settled.same calm rfl⟩
  | changeOperatMode mode =>
    cases handled
    have calm : Calm c.toCanvasBase { c.toCanvasBase with operat := mode } :=
      ⟨rfl, rfl, rfl, fun _ => rfl, fun _ isClosed => isClosed⟩
    exact ⟨stacked.same calm placed rfl, fun settled _ => settled.same calm rfl⟩
  | creatPolygon =>
    exact ⟨(stacked.addShape handled).1, fun settled closed => Settled.addShape stacked settled handled closed⟩

theorem Stacked.startsClosed {event : CanvasEvent} (stacked : c.Stacked)
    (handled : c.handle containsPoint event = .ok d) (onlyCurrent : d.OnlyCurrentOpen) : c.StartsClosed event := by
  cases event with
  | creatPolygon =>
    obtain ⟨stacked', list, _, others⟩ := stacked.addShape handled
    intro shape current
    have listed := currentShape_mem current
    rw [← others shape listed]
    apply onlyCurrent shape
    · rw [list]
      exact List.mem_append_left _ listed
    · rw [stacked'.currentShape list]
      intro same
      cases same
      exact Nat.lt_irrefl _ (stacked.placed.listed _ listed)
  | _ => trivial

/-- Only the current shape is open in every state of a run exactly when each shape that the action creates is created
    while the current shape is closed. -/
theorem only_current_open_iff (containsPoint : List QPointF → QPointF → Bool) (img : QImage)
    (events : List CanvasEvent) :
    (∀ reached ∈ visited (handle containsPoint) (loaded img) events, reached.OnlyCurrentOpen) ↔
      Along (handle containsPoint) StartsClosed (loaded img) events := by
  have stacked : (loaded img).Stacked :=
    ⟨loaded_placed img, rfl, rfl, rfl, List.nodup_nil, List.nodup_nil, by simp [loaded, fresh, UndoStack.empty]⟩
  have settled : (loaded img).Settled := by
    intro shape member
    cases member
  -- the shapes that undo took away are no part of the claim, but a redo brings them back
  apply visited_invariant_iff fun c => c.Stacked ∧ (c.OnlyCurrentOpen → c.Settled)
  · rintro c event d ⟨stacked, hidden⟩ onlyCurrent handled
    obtain ⟨stacked', keeps⟩ := stacked.handle handled
    have needed : d.OnlyCurrentOpen → c.StartsClosed event := stacked.startsClosed handled
    have enough : c.StartsClosed event → d.Settled := keeps (hidden onlyCurrent)
    refine ⟨⟨stacked', fun onlyCurrent' => enough (needed onlyCurrent')⟩, needed, ?_⟩
    intro closed
    exact (enough closed).onlyCurrentOpen stacked'
  · exact ⟨stacked, fun _ => settled⟩
  · exact settled.onlyCurrentOpen stacked

theorem open_shape_left_behind :
    ∃ reached ∈ visited (handle fun _ _ => false) (loaded blankImage)
        [.mousePress ⟨-10, -10⟩ true none, .creatPolygon],
      reached.shapeList = [0, 1] ∧ (reached.heap 0).isClosed = false ∧ ¬ reached.OnlyCurrentOpen := by
  have observed : (run (handle fun _ _ => false) (loaded blankImage)
      [.mousePress ⟨-10, -10⟩ true none, .creatPolygon]).map
        (fun c => (c.shapeList, c.currentShape, (c.heap 0).isClosed)) = .ok ([0, 1], .ok (some 1), false) := by
    decide +kernel
  obtain ⟨reached, done, seen⟩ := map_completes observed
  simp only [Prod.mk.injEq] at seen
  obtain ⟨list, current, isOpen⟩ := seen
  refine ⟨reached, run_mem_visited done, list, isOpen, ?_⟩
  intro onlyCurrent
  have closed := onlyCurrent 0 (by simp [list]) (by simp [current])
  rw [isOpen] at closed
  cases closed

end Events

end Canvas2D

end XYAnnotation

import XYAnnotation.Canvas.Effects
import XYAnnotation.Canvas.Prepared

namespace XYAnnotation

open Library CanvasBase

/-- The calls that change the shape list. Every shape that is added is a new object. -/
inductive ShapeCall
  | addShape (type : DrawMode)
  | deleteShape (shapeName : String)
  | clean
  | pushAddShape (type : DrawMode)
  | pushRemoveShape (shapeName : String)
  | undo
  | redo

def Command.redoAdds : Command → ShapePtr
  | .addShape shape _ => shape
  | _ => none

def Command.undoAdds : Command → ShapePtr
  | .removeShape shape _ => shape
  | _ => none

namespace Canvas2D

def create (c : Canvas2D) (type : DrawMode) : Canvas2D × ShapePtr :=
  match ShapeFactory.create type with
  | none => (c, none)
  | some shape => ({ c with toCanvasBase := c.allocate shape }, some c.next)

def shapeCall (c : Canvas2D) : ShapeCall → Except Fault Canvas2D
  | .addShape type => do
    let (c, shape) := c.create type
    let (base, _) ← c.toCanvasBase.addShape shape
    .ok { c with toCanvasBase := base }
  | .deleteShape shapeName => do
    let base ← c.toCanvasBase.deleteShape shapeName
    .ok { c with toCanvasBase := base }
  | .clean => .ok c.clean
  | .pushAddShape type =>
    let (c, shape) := c.create type
    c.push (.addShape shape "")
  | .pushRemoveShape shapeName => do
    let command ← Command.forRemoval c.toCanvasBase shapeName
    c.push command
  | .undo => c.undo
  | .redo => c.redo

/-- An undo or redo that adds a shape finds it off the list. -/
def ReaddsAbsent (c : Canvas2D) : ShapeCall → Prop
  | .undo => ∀ command ∈ c.undoStack.done.head?, ∀ shape ∈ command.undoAdds, shape ∉ c.shapeList
  | .redo => ∀ command ∈ c.undoStack.undone.head?, ∀ shape ∈ command.redoAdds, shape ∉ c.shapeList
  | _ => True

end Canvas2D

namespace CanvasBase

variable {c d : CanvasBase}

theorem indexOf_of_nodup (distinct : c.names.Nodup) {i : ℕ} {name : String} (here : c.names[i]? = some name) :
    c.indexOf name = i := by
  obtain ⟨bound, found⟩ := List.getElem?_eq_some_iff.mp here
  rw [indexOf]
  cases first : c.names.findIdx? (· == name) with
  | none => exact absurd (List.mem_of_getElem? here) (not_mem_names first)
  | some j =>
    obtain ⟨inside, hit, _⟩ := List.findIdx?_eq_some_iff_getElem.mp first
    have same : c.names[j] = c.names[i] := (beq_iff_eq.mp hit).trans found.symm
    rw [(distinct.getElem_inj_iff).mp same]

theorem distinct_thinned (thinned : Command.Thinned c d) (distinct : c.names.Nodup) : d.names.Nodup := by
  have kept : d.names = d.shapeList.map fun shape => (c.heap shape).name := by rw [names, thinned.heap]
  rw [kept]
  exact distinct.sublist (thinned.shapeList.map _)

theorem distinct_appended (distinct : c.names.Nodup) (shape : ShapeId) :
    (c.appended shape).names.Nodup ↔ shape ∉ c.shapeList := by
  constructor
  · intro kept member
    have twice := kept.of_map
    rw [show (c.appended shape).shapeList = c.shapeList ++ [shape] from rfl, List.nodup_append_comm,
      List.singleton_append, List.nodup_cons] at twice
    exact twice.1 member
  · intro outside
    rw [appended_names c outside, List.nodup_append_comm, List.singleton_append, List.nodup_cons]
    exact ⟨uniqueName_not_mem c _, distinct⟩

theorem deletePoint_name {s deleted : Shape} {index : ℤ} (done : s.deletePoint index = .ok deleted) :
    deleted.name = s.name := by
  rcases Shape.deletePoint_completes done with ⟨_, rfl⟩ | ⟨_, points, _, rfl⟩
  · rfl
  · rfl

theorem modifyShape_names (c : CanvasBase) (shape : ShapeId) {f : Shape → Shape}
    (kept : (f (c.heap shape)).name = (c.heap shape).name) : (c.modifyShape shape f).names = c.names := by
  apply List.map_congr_left
  intro other _
  by_cases same : other = shape
  · rw [same, modifyShape_heap_same, kept]
  · rw [modifyShape_heap_other _ _ _ same]

end CanvasBase

namespace Command

variable {command recorded : Command} {c d : CanvasBase}

theorem redo_distinct (distinct : c.names.Nodup) (done : command.redo c = .ok (recorded, d)) :
    d.names.Nodup ↔ ∀ shape ∈ command.redoAdds, shape ∉ c.shapeList := by
  rcases redo_cases done with ⟨shape, shapeName, rfl, rfl⟩ | ⟨shape, point, pointName, rfl, rfl⟩ | ⟨kind, thinned⟩
  · rw [distinct_appended distinct]
    simp [redoAdds]
  · rw [modifyShape_names c shape rfl]
    simpa [redoAdds] using distinct
  · have kept := distinct_thinned thinned distinct
    rcases kind with ⟨shape, shapeName, rfl⟩ | ⟨point, pointName, rfl⟩
    · simpa [redoAdds] using kept
    · simpa [redoAdds] using kept

theorem undo_distinct (distinct : c.names.Nodup) (done : command.undo c = .ok (recorded, d)) :
    d.names.Nodup ↔ ∀ shape ∈ command.undoAdds, shape ∉ c.shapeList := by
  rcases undo_cases done with ⟨shape, shapeName, rfl, rfl⟩ | ⟨shape, point, pointName, deleted, rfl, erased, rfl⟩ |
    ⟨⟨shape, shapeName, rfl⟩, thinned⟩
  · rw [distinct_appended distinct]
    simp [undoAdds]
  · rw [modifyShape_names c shape (deletePoint_name erased)]
    simpa [undoAdds] using distinct
  · have kept := distinct_thinned thinned distinct
    simpa [undoAdds] using kept

theorem forRemoval_completes {shapeName : String} (made : forRemoval c shapeName = .ok command) :
    ∃ shape : ShapePtr, command = .removeShape shape shapeName ∧ ∀ address ∈ shape, address ∈ c.shapeList := by
  obtain ⟨shape, found, rest⟩ := bind_completes made
  cases rest
  refine ⟨shape, rfl, ?_⟩
  unfold CanvasBase.shape at found
  split at found
  · cases found
    simp
  · obtain ⟨address, read, rest⟩ := bind_completes found
    cases rest
    intro other member
    cases member
    exact List.mem_of_getElem? (QVector.at_completes read).2

end Command

namespace Canvas2D

variable {c d : Canvas2D}

theorem create_cases (c : Canvas2D) (type : DrawMode) :
    c.create type = (c, none) ∨
      ∃ shape, c.create type = ({ c with toCanvasBase := c.allocate shape }, some c.next) := by
  unfold create
  cases ShapeFactory.create type with
  | none => exact .inl rfl
  | some shape => exact .inr ⟨shape, rfl⟩

theorem Placed.allocate (placed : c.Placed) (distinct : c.names.Nodup) (shape : Shape) :
    Placed { c with toCanvasBase := c.allocate shape } ∧ (c.allocate shape).names.Nodup ∧
      c.next ∉ (c.allocate shape).shapeList := by
  refine ⟨placed.older rfl rfl (Nat.le_succ _), ?_, ?_⟩
  · rw [allocate_names placed.listed]
    exact distinct
  · intro member
    exact absurd (placed.listed _ member) (Nat.lt_irrefl _)

theorem push_distinct {command : Command} (distinct : c.names.Nodup) (pushed : c.push command = .ok d) :
    d.names.Nodup ↔ ∀ shape ∈ command.redoAdds, shape ∉ c.shapeList := by
  obtain ⟨recorded, redone, _⟩ := push_completes pushed
  exact Command.redo_distinct distinct redone

theorem addShape_distinct {type : DrawMode} (placed : c.Placed) (distinct : c.names.Nodup)
    (done : c.shapeCall (.addShape type) = .ok d) : d.Placed ∧ d.names.Nodup := by
  rcases c.create_cases type with absent | ⟨shape, created⟩
  · simp only [shapeCall, absent] at done
    cases done
  · simp only [shapeCall, created, CanvasBase.addShape_eq] at done
    cases done
    obtain ⟨placed', distinct', outside⟩ := placed.allocate distinct shape
    have added := CanvasBase.addShape_eq (c.allocate shape) c.next
    have used : ∀ address ∈ some c.next, address < (c.allocate shape).next := by
      intro address member
      cases member
      exact Nat.lt_succ_self _
    exact ⟨placed'.rebase (Command.addShape_frame placed'.listed used added),
      (distinct_appended distinct' c.next).mpr outside⟩

theorem pushAddShape_distinct {type : DrawMode} (placed : c.Placed) (distinct : c.names.Nodup)
    (done : c.shapeCall (.pushAddShape type) = .ok d) : d.Placed ∧ d.names.Nodup := by
  rcases c.create_cases type with absent | ⟨shape, created⟩
  · simp only [shapeCall, absent] at done
    obtain ⟨_, redone, _⟩ := push_completes done
    cases redone
  · simp only [shapeCall, created] at done
    obtain ⟨placed', distinct', outside⟩ := placed.allocate distinct shape
    have below : (Command.addShape (some c.next) "").Below (c.allocate shape).next := by
      intro address member
      cases member
      exact Nat.lt_succ_self _
    refine ⟨(placed'.push below done).1, ?_⟩
    rw [push_distinct distinct' done]
    intro address member
    cases member
    exact outside

theorem pushRemoveShape_distinct {shapeName : String} (placed : c.Placed) (distinct : c.names.Nodup)
    (done : c.shapeCall (.pushRemoveShape shapeName) = .ok d) : d.Placed ∧ d.names.Nodup := by
  obtain ⟨command, found, pushed⟩ := bind_completes done
  obtain ⟨shape, rfl, listed⟩ := Command.forRemoval_completes found
  have below : (Command.removeShape shape shapeName).Below c.next := by
    intro address member
    exact placed.listed address (listed address member)
  refine ⟨(placed.push below pushed).1, ?_⟩
  rw [push_distinct distinct pushed]
  intro address member
  cases member

theorem shapeCall_distinct {made : ShapeCall} (placed : c.Placed) (distinct : c.names.Nodup)
    (done : c.shapeCall made = .ok d) : d.Placed ∧ (d.names.Nodup ↔ c.ReaddsAbsent made) := by
  cases made with
  | addShape type =>
    obtain ⟨placed', distinct'⟩ := addShape_distinct placed distinct done
    exact ⟨placed', iff_of_true distinct' trivial⟩
  | deleteShape shapeName =>
    obtain ⟨base, deleted, rest⟩ := bind_completes done
    cases rest
    refine ⟨placed.rebase (Command.deleteShape_frame placed.listed deleted), ?_⟩
    exact iff_of_true (distinct_thinned (Command.deleteShape_thinned deleted) distinct) trivial
  | clean =>
    cases done
    exact ⟨placed_of_empty rfl rfl, iff_of_true List.nodup_nil trivial⟩
  | pushAddShape type =>
    obtain ⟨placed', distinct'⟩ := pushAddShape_distinct placed distinct done
    exact ⟨placed', iff_of_true distinct' trivial⟩
  | pushRemoveShape shapeName =>
    obtain ⟨placed', distinct'⟩ := pushRemoveShape_distinct placed distinct done
    exact ⟨placed', iff_of_true distinct' trivial⟩
  | undo =>
    refine ⟨(placed.undo done).1, ?_⟩
    rcases undo_completes done with ⟨empty, rfl⟩ | ⟨command, rest, recorded, list, called, _⟩
    · simpa [ReaddsAbsent, empty] using distinct
    · rw [Command.undo_distinct distinct called]
      simp [ReaddsAbsent, list]
  | redo =>
    refine ⟨(placed.redo done).1, ?_⟩
    rcases redo_completes done with ⟨empty, rfl⟩ | ⟨command, rest, recorded, list, called, _⟩
    · simpa [ReaddsAbsent, empty] using distinct
    · rw [Command.redo_distinct distinct called]
      simp [ReaddsAbsent, list]

/-- Names stay unique handles in every state of a run exactly when no undo or redo adds a shape that is on the list
    already. The search for a name always ends, with the smallest free number. -/
theorem names_unique_iff (calls : List ShapeCall) (c : CanvasBase) (name : String) :
    ((∀ reached ∈ visited shapeCall fresh calls, reached.names.Nodup ∧
        ∀ (i : ℕ) (handle : String), reached.names[i]? = some handle → reached.indexOf handle = i) ↔
      Along shapeCall ReaddsAbsent fresh calls) ∧
    ∃ n ≤ c.shapeList.length, c.uniqueName name = numbered name n ∧
      c.indexOf (numbered name n) = -1 ∧ (∀ m < n, c.indexOf (numbered name m) ≠ -1) ∧
      ∀ rounds ≥ c.shapeList.length, firstFree (fun i => c.indexOf (numbered name i) == -1) rounds 0 = n := by
  refine ⟨?_, uniqueName_stops c name⟩
  have placed : fresh.Placed := placed_of_empty rfl rfl
  have decides : (∀ reached ∈ visited shapeCall fresh calls, reached.names.Nodup) ↔
      Along shapeCall ReaddsAbsent fresh calls :=
    visited_invariant_iff Placed (fun _ _ _ placed distinct done => shapeCall_distinct placed distinct done) placed
      List.nodup_nil
  rw [← decides]
  constructor
  · intro all reached member
    exact (all reached member).1
  · intro all reached member
    have distinct := all reached member
    exact ⟨distinct, fun i handle here => indexOf_of_nodup distinct here⟩

theorem name_shared_after_redo :
    ∃ reached ∈ visited shapeCall fresh [.pushAddShape .polygon, .pushAddShape .polygon, .pushRemoveShape "Ploygon",
        .pushRemoveShape "Ploygon1", .undo, .undo, .undo, .redo],
      reached.names = ["Ploygon1", "Ploygon1"] := by
  have observed : (do
      let reached ← run shapeCall fresh [.pushAddShape .polygon, .pushAddShape .polygon, .pushRemoveShape "Ploygon",
        .pushRemoveShape "Ploygon1", .undo, .undo, .undo, .redo]
      .ok reached.names : Except Fault (List String)) = .ok ["Ploygon1", "Ploygon1"] := by decide +kernel
  obtain ⟨reached, ran, observed⟩ := bind_completes observed
  exact ⟨reached, run_mem_visited ran, Except.ok.inj observed⟩

end Canvas2D

end XYAnnotation

import XYAnnotation.Canvas.Prepared

namespace XYAnnotation

open Library CanvasBase

abbrev FactoryMode := { mode : DrawMode // mode ≠ .none }

inductive ViewCall
  | addShape (mode : FactoryMode)
  | removeShape
  | addPoint (point : QPointF)
  | undo
  | redo

namespace ViewCall

def addedMode : ViewCall → Option DrawMode
  | .addShape mode => some mode
  | _ => none

def pushes : ViewCall → Bool
  | .undo | .redo => false
  | _ => true

end ViewCall

namespace CanvasView

def call (c : Canvas2D) : ViewCall → Except Fault Canvas2D
  | .addShape mode => addShape { c with draw := mode }
  | .removeShape => removeShape c
  | .addPoint point => addPoint c point
  | .undo => c.undo
  | .redo => c.redo

def made (img : QImage) (mode : DrawMode) : Shape := (Shape.new mode).setimgWH img

def madeLater (img : QImage) (calls : List ViewCall) (next shape : ShapeId) : Shape :=
  match (calls.filterMap ViewCall.addedMode)[shape - next]? with
  | some mode => made img mode
  | none => Shape.new .none

/-- New objects that `CanvasBase::addShape` puts on the canvas directly, as `openFile` does. -/
def load (c : CanvasBase) : List Shape → Except Fault CanvasBase
  | [] => .ok c
  | shape :: shapes => do
    let (c, _) ← (c.allocate shape).addShape (some c.next)
    load c shapes

theorem ledBy_canonical {initial ideal : CanvasBase} {commands : List Command}
    (canonical : initial.Canonical) (led : LedBy Takes initial commands ideal) : ideal.Canonical := by
  cases led with
  | nil => exact canonical
  | cons _ takes => exact takes.canonical

structure Follows (initial : CanvasBase) (later : ShapeId → Shape) (img : QImage) (c : Canvas2D) : Prop where
  image : c.image = some img
  placed : c.Placed
  tracks : Tracks Same Takes initial c.undoStack (c.toCanvasBase.prepared later)

variable {initial : CanvasBase} {later : ShapeId → Shape} {img : QImage} {c : Canvas2D}

theorem Follows.push {command : Command} (canonical : initial.Canonical)
    (follows : Follows initial later img c) (below : command.Below c.next)
    (fits : ∀ ideal : CanvasBase, ideal.Canonical → Same ideal (c.toCanvasBase.prepared later) →
      ∃ fitting after, Takes fitting ideal after ∧ fitting.redo = command.redo) :
    ∃ d, c.push command = .ok d ∧ Follows initial later img d ∧ d.next = c.next ∧
      ∃ undone, d.undo = .ok undone ∧ undone.document = c.document := by
  have executes : ∀ ideal, LedBy Takes initial c.undoStack.done ideal →
      Same ideal (c.toCanvasBase.prepared later) → ∃ recorded result after,
        Command.methods.redo command (c.toCanvasBase.prepared later) = .ok (recorded, result) ∧
        Same after result ∧ Takes recorded ideal after := by
    intro ideal led same
    obtain ⟨fitting, after, takes, redo⟩ := fits ideal (ledBy_canonical canonical led) same
    obtain ⟨recorded, result, redone, same', takes'⟩ := takes_redo takes same
    rw [redo] at redone
    exact ⟨recorded, result, after, redone, same', takes'⟩
  obtain ⟨pushed, result, onPrepared, tracks⟩ := follows.tracks.push executes
  obtain ⟨moved, back, undone, restored⟩ := follows.tracks.undo_after_push commands_reversible
    Same.document executes onPrepared
  obtain ⟨base, onCanvas, rfl⟩ := follows.placed.push_of_prepared below onPrepared
  obtain ⟨placed, keeps⟩ := follows.placed.push below onCanvas
  refine ⟨⟨base, pushed⟩, onCanvas, ⟨keeps.image.trans follows.image, placed, tracks⟩, keeps.next, ?_⟩
  obtain ⟨base', undoneCanvas, rfl⟩ := placed.undo_of_prepared undone
  obtain ⟨placed', _⟩ := placed.undo undoneCanvas
  rw [prepared_document placed'.listed, prepared_document follows.placed.listed] at restored
  exact ⟨⟨base', moved⟩, undoneCanvas, restored⟩

theorem Follows.undo (follows : Follows initial later img c) :
    ∃ d, c.undo = .ok d ∧ Follows initial later img d ∧ d.next = c.next := by
  obtain ⟨moved, result, undone, tracks⟩ := follows.tracks.undo commands_reversible
  obtain ⟨base, onCanvas, rfl⟩ := follows.placed.undo_of_prepared undone
  obtain ⟨placed, keeps⟩ := follows.placed.undo onCanvas
  exact ⟨⟨base, moved⟩, onCanvas, ⟨keeps.image.trans follows.image, placed, tracks⟩, keeps.next⟩

theorem Follows.redo (follows : Follows initial later img c) :
    ∃ d, c.redo = .ok d ∧ Follows initial later img d ∧ d.next = c.next := by
  obtain ⟨moved, result, redone, tracks⟩ := follows.tracks.redo commands_reversible
  obtain ⟨base, onCanvas, rfl⟩ := follows.placed.redo_of_prepared redone
  obtain ⟨placed, keeps⟩ := follows.placed.redo onCanvas
  exact ⟨⟨base, moved⟩, onCanvas, ⟨keeps.image.trans follows.image, placed, tracks⟩, keeps.next⟩

theorem Follows.redo_after_undo (follows : Follows initial later img c) (some_done : c.undoStack.done ≠ []) :
    ∃ undone redone, c.undo = .ok undone ∧ undone.redo = .ok redone ∧ redone.document = c.document := by
  obtain ⟨moved, back, undone, _⟩ := follows.tracks.undo commands_reversible
  obtain ⟨again, result, redone, restored⟩ := follows.tracks.redo_after_undo commands_reversible
    Same.document some_done undone
  obtain ⟨base, onCanvas, rfl⟩ := follows.placed.undo_of_prepared undone
  obtain ⟨placed, _⟩ := follows.placed.undo onCanvas
  obtain ⟨base', onCanvas', rfl⟩ := placed.redo_of_prepared redone
  obtain ⟨placed', _⟩ := placed.redo onCanvas'
  rw [prepared_document placed'.listed, prepared_document follows.placed.listed] at restored
  exact ⟨⟨base, moved⟩, ⟨base', again⟩, onCanvas, onCanvas', restored⟩

theorem currentShape_last {c : CanvasBase} {rest : List ShapeId} {shape : ShapeId}
    (list : c.shapeList = rest ++ [shape]) (current : c.currentIndex = c.shapeList.length - 1) :
    c.currentShape = .ok (some shape) ∧ c.currentShapeName = .ok (c.heap shape).name := by
  have last : c.currentIndex = rest.length := by
    rw [current, list]
    simp
  have read : QVector.at c.shapeList c.currentIndex = .ok shape := by
    simp [QVector.at, list, last]
  have present : c.currentIndex ≠ -1 := by omega
  simp only [currentShape, currentShapeName, present, if_false, read, Bind.bind, Except.bind, and_self]

theorem shape_last {c : CanvasBase} {rest : List ShapeId} {shape : ShapeId}
    (list : c.shapeList = rest ++ [shape])
    (unused : (c.heap shape).name ∉ rest.map fun other => (c.heap other).name) :
    c.shape (c.heap shape).name = .ok (some shape) := by
  have names : c.names = (rest.map fun other => (c.heap other).name) ++ [(c.heap shape).name] := by
    rw [CanvasBase.names, list, List.map_append, List.map_singleton]
  have index : c.indexOf (c.heap shape).name = rest.length := by
    rw [indexOf, names, findIdx?_last unused, List.length_map]
  have read : QVector.at c.shapeList (rest.length : ℤ) = .ok shape := by simp [QVector.at, list]
  have present : (rest.length : ℤ) ≠ -1 := by omega
  simp only [CanvasBase.shape, index, present, if_false, read, Bind.bind, Except.bind]

theorem Follows.unchanged {d : Canvas2D} (follows : Follows initial later img c)
    (image : d.image = c.image) (placed : d.Placed) (stack : d.undoStack = c.undoStack)
    (list : d.shapeList = c.shapeList) (index : d.currentIndex = c.currentIndex)
    (heap : (d.toCanvasBase.prepared later).heap = (c.toCanvasBase.prepared later).heap) :
    Follows initial later img d ∧ d.document = c.document := by
  have names : (d.toCanvasBase.prepared later).names = (c.toCanvasBase.prepared later).names := by
    rw [CanvasBase.names, CanvasBase.names, heap]
    exact congrArg (List.map _) list
  have before : (c.toCanvasBase.prepared later).document = c.document := prepared_document follows.placed.listed
  have after : (d.toCanvasBase.prepared later).document = d.document := prepared_document placed.listed
  have document : d.document = c.document := by
    rw [← before, ← after, CanvasBase.document, CanvasBase.document, heap]
    exact Prod.ext (congrArg (List.map _) list) index
  obtain ⟨ideal, led, same, ahead⟩ := follows.tracks
  refine ⟨⟨image.trans follows.image, placed, ideal, stack ▸ led, ?_, stack ▸ ahead⟩, document⟩
  exact ⟨list.trans same.shapeList, index.trans same.currentIndex, names.trans same.names,
    heap ▸ same.points, heap ▸ same.type⟩

theorem Follows.allocated (follows : Follows initial later img c) (mode : DrawMode)
    (foreseen : later c.next = made img mode) :
    let d : Canvas2D := { c with toCanvasBase := { c.toCanvasBase with draw := mode }.allocate (made img mode) }
    Follows initial later img d ∧ d.document = c.document := by
  intro d
  have placed : d.Placed := follows.placed.older rfl rfl (Nat.le_succ _)
  apply follows.unchanged (d := d) rfl placed rfl rfl rfl
  funext shape
  show (if shape < c.next + 1 then Function.update c.heap c.next (made img mode) shape else later shape) =
    if shape < c.next then c.heap shape else later shape
  by_cases new : shape = c.next
  · subst new
    simp [foreseen]
  · have same : shape < c.next + 1 ↔ shape < c.next := by
      rw [Nat.lt_succ_iff, Nat.le_iff_lt_or_eq, or_iff_left new]
    simp [new, same]

theorem Follows.ideal (canonical : initial.Canonical) (follows : Follows initial later img c) :
    ∃ ideal : CanvasBase, ideal.Canonical ∧ Same ideal (c.toCanvasBase.prepared later) := by
  obtain ⟨ideal, led, same, _⟩ := follows.tracks
  exact ⟨ideal, ledBy_canonical canonical led, same⟩

/-- What a call that pushes leaves: either it found nothing to do, or undo takes it back. -/
def TakenBack (c d : Canvas2D) : Prop :=
  d = c ∨ ∃ undone, d.undo = .ok undone ∧ undone.document = c.document

theorem Follows.addShape (canonical : initial.Canonical) (follows : Follows initial later img c)
    (mode : FactoryMode) (foreseen : later c.next = made img mode) :
    ∃ d, CanvasView.addShape { c with draw := mode } = .ok d ∧ Follows initial later img d ∧
      d.next = c.next + 1 ∧ TakenBack c d := by
  obtain ⟨mode, known⟩ := mode
  obtain ⟨follows', document⟩ := follows.allocated mode foreseen
  have create : ShapeFactory.create mode = some (Shape.new mode) := by
    cases mode <;> first | rfl | exact absurd rfl known
  have new : c.next ∉ c.shapeList := by
    intro member
    exact absurd (follows.placed.listed _ member) (Nat.lt_irrefl _)
  have below : (Command.addShape (some c.next) "").Below (c.next + 1) := by
    intro address member
    cases member
    exact Nat.lt_succ_self _
  obtain ⟨d, pushed, kept, next, undone, undo, restored⟩ := follows'.push canonical below (by
    intro ideal idealCanonical same
    have outside : c.next ∉ ideal.shapeList := by
      rw [← same.shapeList]
      exact new
    exact ⟨_, _, .addShape idealCanonical outside, rfl⟩)
  refine ⟨d, ?_, kept, next, .inr ⟨undone, undo, restored.trans document⟩⟩
  have image : CanvasBase.getImage { c.toCanvasBase with draw := mode } = .ok img := by
    simp [getImage, follows.image]
  simp only [CanvasView.addShape, create, image, Bind.bind, Except.bind]
  exact pushed

theorem names_agree {ideal actual : CanvasBase} (listed : actual.Listed)
    (same : Same ideal (actual.prepared later)) :
    ∀ shape ∈ actual.shapeList, (actual.heap shape).name = (ideal.heap shape).name := by
  have list : actual.shapeList = ideal.shapeList := same.shapeList
  have names : actual.names = ideal.names := by
    rw [← prepared_names listed]
    exact same.names
  rw [CanvasBase.names, CanvasBase.names, ← list] at names
  exact List.map_inj_left.mp names

theorem Follows.currentIndex (canonical : initial.Canonical) (follows : Follows initial later img c) :
    c.currentIndex = c.shapeList.length - 1 := by
  obtain ⟨ideal, idealCanonical, same⟩ := follows.ideal canonical
  have list : c.shapeList = ideal.shapeList := same.shapeList
  rw [list, ← idealCanonical.current]
  exact same.currentIndex

theorem Follows.removeShape (canonical : initial.Canonical) (follows : Follows initial later img c) :
    ∃ d, CanvasView.removeShape c = .ok d ∧ Follows initial later img d ∧ d.next = c.next ∧
      TakenBack c d := by
  have current := follows.currentIndex canonical
  rcases List.eq_nil_or_concat c.shapeList with empty | ⟨rest, shape, last⟩
  · have none : c.currentIndex = -1 := by simp [current, empty]
    refine ⟨c, ?_, follows, rfl, .inl rfl⟩
    simp [CanvasView.removeShape, currentShapeName, none, Bind.bind, Except.bind]
  · rw [List.concat_eq_append] at last
    obtain ⟨_, name⟩ := currentShape_last last current
    by_cases unnamed : (c.heap shape).name.isEmpty = true
    · refine ⟨c, ?_, follows, rfl, .inl rfl⟩
      simp only [CanvasView.removeShape, name, unnamed, if_true, Bind.bind, Except.bind]
    · obtain ⟨ideal, idealCanonical, same⟩ := follows.ideal canonical
      have agree := names_agree follows.placed.listed same
      have list : c.shapeList = ideal.shapeList := same.shapeList
      obtain ⟨_, _, unused⟩ := idealCanonical.last_name (list ▸ last)
      have unusedHere : (c.heap shape).name ∉ rest.map fun other => (c.heap other).name := by
        have kept : (rest.map fun other => (c.heap other).name) = rest.map fun other => (ideal.heap other).name := by
          apply List.map_congr_left
          intro other member
          exact agree other (by rw [last]; exact List.mem_append_left _ member)
        rw [kept, agree shape (by simp [last])]
        exact unused
      have below : (Command.removeShape (some shape) (c.heap shape).name).Below c.next := by
        intro address member
        cases member
        exact follows.placed.listed shape (by simp [last])
      obtain ⟨d, pushed, kept, next, undone⟩ := follows.push canonical below (by
        intro ideal idealCanonical same
        have list : ideal.shapeList = rest ++ [shape] := same.shapeList.symm.trans last
        rw [names_agree follows.placed.listed same shape (by simp [last])]
        exact ⟨_, _, .removeShape idealCanonical list, rfl⟩)
      refine ⟨d, ?_, kept, next, .inr undone⟩
      simp only [CanvasView.removeShape, name, unnamed, Command.forRemoval, shape_last last unusedHere,
        Bind.bind, Except.bind]
      exact pushed

theorem Follows.addPoint (canonical : initial.Canonical) (follows : Follows initial later img c)
    (point : QPointF) :
    ∃ d, CanvasView.addPoint c point = .ok d ∧ Follows initial later img d ∧ d.next = c.next ∧
      TakenBack c d := by
  have current := follows.currentIndex canonical
  rcases List.eq_nil_or_concat c.shapeList with empty | ⟨rest, shape, last⟩
  · have none : c.currentIndex = -1 := by simp [current, empty]
    refine ⟨c, ?_, follows, rfl, .inl rfl⟩
    simp [CanvasView.addPoint, currentShape, none, Bind.bind, Except.bind]
  · rw [List.concat_eq_append] at last
    obtain ⟨found, _⟩ := currentShape_last last current
    have below : (Command.addPoint (some shape) point "").Below c.next := by
      intro address member
      cases member
      exact follows.placed.listed shape (by simp [last])
    obtain ⟨d, pushed, kept, next, undone⟩ := follows.push canonical below
      fun ideal idealCanonical _ => ⟨_, _, .addPoint shape point idealCanonical, rfl⟩
    refine ⟨d, ?_, kept, next, .inr undone⟩
    simp only [CanvasView.addPoint, found, Bind.bind, Except.bind]
    exact pushed

def Foreseen (later : ShapeId → Shape) (img : QImage) (next : ShapeId) (calls : List ViewCall) : Prop :=
  ∀ k mode, (calls.filterMap ViewCall.addedMode)[k]? = some mode → later (next + k) = made img mode

theorem foreseen_madeLater (img : QImage) (calls : List ViewCall) (next : ShapeId) :
    Foreseen (madeLater img calls next) img next calls := by
  intro k mode found
  have position : next + k - next = k := Nat.add_sub_cancel_left next k
  simp only [madeLater, position, found]

theorem Follows.call (canonical : initial.Canonical) (follows : Follows initial later img c)
    {made : ViewCall} {calls : List ViewCall} (foreseen : Foreseen later img c.next (made :: calls)) :
    ∃ d, CanvasView.call c made = .ok d ∧ Follows initial later img d ∧
      Foreseen later img d.next calls ∧ (made.pushes = true → TakenBack c d) := by
  cases made with
  | addShape mode =>
    have now : later c.next = CanvasView.made img mode := foreseen 0 mode rfl
    obtain ⟨d, called, kept, next, back⟩ := follows.addShape canonical mode now
    refine ⟨d, called, kept, ?_, fun _ => back⟩
    intro k other found
    have later := foreseen (k + 1) other found
    rw [next, ← later, Nat.add_assoc, Nat.add_comm 1 k]
  | removeShape =>
    obtain ⟨d, called, kept, next, back⟩ := follows.removeShape canonical
    exact ⟨d, called, kept, next ▸ foreseen, fun _ => back⟩
  | addPoint point =>
    obtain ⟨d, called, kept, next, back⟩ := follows.addPoint canonical point
    exact ⟨d, called, kept, next ▸ foreseen, fun _ => back⟩
  | undo =>
    obtain ⟨d, called, kept, next⟩ := follows.undo
    exact ⟨d, called, kept, next ▸ foreseen, fun pushes => absurd pushes (by decide)⟩
  | redo =>
    obtain ⟨d, called, kept, next⟩ := follows.redo
    exact ⟨d, called, kept, next ▸ foreseen, fun pushes => absurd pushes (by decide)⟩

theorem Follows.run (follows : Follows initial later img c) (calls rest : List ViewCall)
    (canonical : initial.Canonical) (foreseen : Foreseen later img c.next (calls ++ rest)) :
    ∃ d, Library.run CanvasView.call c calls = .ok d ∧ Follows initial later img d ∧
      Foreseen later img d.next rest := by
  induction calls generalizing c with
  | nil => exact ⟨c, rfl, follows, foreseen⟩
  | cons made calls ih =>
    obtain ⟨middle, called, kept, ahead, _⟩ := follows.call canonical foreseen
    obtain ⟨d, run, final⟩ := ih kept ahead
    refine ⟨d, ?_, final⟩
    simp only [Library.run, called, Bind.bind, Except.bind]
    exact run

theorem allocate_types {c : CanvasBase} (listed : c.Listed) (shape : Shape) :
    (c.allocate shape).types = c.types := by
  apply List.map_congr_left
  intro other member
  have old : other ≠ c.next := Nat.ne_of_lt (listed other member)
  simp [allocate, old]

theorem allocate_canonical {c : CanvasBase} (canonical : c.Canonical) (listed : c.Listed) (shape : Shape) :
    (c.allocate shape).Canonical where
  current := canonical.current
  nodup := canonical.nodup
  names := by rw [allocate_names listed, allocate_types listed, canonical.names]

theorem load_canonical {c : CanvasBase} (canonical : c.Canonical) (listed : c.Listed)
    (shapes : List Shape) :
    ∃ start, load c shapes = .ok start ∧ start.Canonical ∧ start.Listed ∧
      start.image = c.image := by
  induction shapes generalizing c with
  | nil => exact ⟨c, rfl, canonical, listed, rfl⟩
  | cons shape shapes ih =>
    have outside : c.next ∉ (c.allocate shape).shapeList := by
      intro member
      exact absurd (listed _ member) (Nat.lt_irrefl _)
    have canonical' := (allocate_canonical canonical listed shape).appended outside
    have listed' : ((c.allocate shape).appended c.next).Listed := by
      intro address member
      rcases List.mem_append.mp member with member | member
      · exact Nat.lt_succ_of_lt (listed address member)
      · rw [List.mem_singleton.mp member]
        exact Nat.lt_succ_self _
    obtain ⟨start, loaded, final⟩ := ih canonical' listed'
    refine ⟨start, ?_, final⟩
    rw [load, addShape_eq]
    exact loaded

/-- The undo history law. The objects the factory makes on the way are in place from the start of
    the replay, since a command only holds their addresses. -/
theorem undo_history (img : QImage) (shapes : List Shape) (calls : List ViewCall) :
    ∃ (start : CanvasBase) (final : Canvas2D) (replayed : CanvasBase),
      load { CanvasBase.fresh with image := some img } shapes = .ok start ∧
      Library.run call ⟨start, .empty⟩ calls = .ok final ∧
      UndoStack.replay Command.methods (start.prepared (madeLater img calls start.next))
        final.undoStack.done.reverse = .ok replayed ∧
      final.document = replayed.document ∧
      (final.undoStack.done ≠ [] → ∃ undone redone, final.undo = .ok undone ∧ undone.redo = .ok redone ∧
        redone.document = final.document) ∧
      ∀ made : ViewCall, made.pushes = true → ∃ pushed, call final made = .ok pushed ∧
        TakenBack final pushed := by
  have freshCanonical : CanvasBase.Canonical { CanvasBase.fresh with image := some img } :=
    ⟨rfl, List.nodup_nil, rfl⟩
  have freshListed : CanvasBase.Listed { CanvasBase.fresh with image := some img } := by
    intro address member
    cases member
  obtain ⟨start, loaded, canonical, listed, image⟩ := load_canonical freshCanonical freshListed shapes
  have begins : ∀ later, Follows (start.prepared later) later img ⟨start, .empty⟩ := by
    intro later
    refine ⟨image, ⟨listed, ?_, ?_⟩, Tracks.initial commands_reversible _⟩
    · exact fun command member => nomatch member
    · exact fun command member => nomatch member
  have canonical' : ∀ later, (start.prepared later).Canonical := fun _ => prepared_canonical listed canonical
  obtain ⟨final, run, follows, _⟩ := (begins _).run calls [] (canonical' _) (by
    rw [List.append_nil]
    exact foreseen_madeLater img calls start.next)
  obtain ⟨replayed, replays, document⟩ := follows.tracks.replay commands_reversible Same.document
  refine ⟨start, final, replayed, loaded, run, replays, ?_, follows.redo_after_undo, ?_⟩
  · rw [← document, prepared_document follows.placed.listed]
  · intro made pushes
    obtain ⟨again, run', follows, ahead⟩ := (begins _).run calls [made] (canonical' _)
      (foreseen_madeLater img (calls ++ [made]) start.next)
    rw [run] at run'
    cases run'
    obtain ⟨pushed, called, _, _, back⟩ := follows.call (canonical' _) ahead
    exact ⟨pushed, called, back pushes⟩

end CanvasView

end XYAnnotation

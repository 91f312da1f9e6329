import XYAnnotation.Canvas.CurrentIndex
import XYAnnotation.Canvas.History

namespace XYAnnotation

open Library CanvasBase

namespace CanvasBase

variable {c : CanvasBase} {rest : List ShapeId} {shape : ShapeId} {shapeName : String}

theorem shape_found {i : ℕ} (found : c.names.findIdx? (· == shapeName) = some i) :
    ∃ shape, c.shapeList[i]? = some shape ∧ (c.heap shape).name = shapeName ∧
      c.shape shapeName = .ok (some shape) := by
  obtain ⟨bound, hit, _⟩ := List.findIdx?_eq_some_iff_getElem.mp found
  have listed : i < c.shapeList.length := by
    rw [names_length] at bound
    exact bound
  have index : c.indexOf shapeName = i := by rw [indexOf, found]
  refine ⟨c.shapeList[i], List.getElem?_eq_getElem listed, ?_, ?_⟩
  · simpa [names] using hit
  · rw [CanvasBase.shape, index, if_neg (by omega), QVector.at_natCast _ _ listed]
    rfl

theorem readded_same (list : c.shapeList = rest ++ [shape]) (outside : shape ∉ rest)
    (current : c.currentIndex = rest.length)
    (name : (c.heap shape).name = uniqueIn (rest.map fun other => (c.heap other).name)
      (Shape.typeToString (c.heap shape).type)) :
    Same c ((c.removedAt rest.length).appended shape) := by
  have kept := removedAt_last_shapeList list
  have restNames : (c.removedAt rest.length).names = rest.map fun other => (c.heap other).name := by
    rw [names, kept]
    rfl
  have type : ((c.removedAt rest.length).heap shape).type = (c.heap shape).type := rfl
  refine ⟨?_, ?_, ?_, ?_, ?_⟩
  · rw [appended, kept, list]
  · rw [appended, kept, current]
  · rw [appended_names _ (by rw [kept]; exact outside), uniqueName_eq, restNames, type, ← name, names, list,
      List.map_append, List.map_singleton]
  · intro other
    rw [appended_points]
    rfl
  · intro other
    rw [appended_type]
    rfl

theorem document_shapeList {c d : CanvasBase} (same : d.document = c.document) : d.shapeList = c.shapeList := by
  have entries := congrArg (List.map Prod.fst) (Prod.mk.inj same).1
  simpa [List.map_map, Function.comp_def] using entries

theorem document_names {c d : CanvasBase} (same : d.document = c.document) : d.names = c.names := by
  have entries := congrArg (List.map fun entry => entry.2.1) (Prod.mk.inj same).1
  simpa [names, List.map_map, Function.comp_def] using entries

theorem readded_last {i : ℕ} (distinct : c.names.Nodup) (named : (c.heap shape).name = shapeName)
    (same : ((c.removedAt i).appended shape).document = c.document) :
    c.shapeList = (c.removedAt i).shapeList ++ [shape] ∧ (c.heap shape).name = shapeName ∧
      c.currentIndex = (c.removedAt i).shapeList.length ∧
      shapeName = uniqueIn ((c.removedAt i).shapeList.map fun other => (c.heap other).name)
        (Shape.typeToString (c.heap shape).type) := by
  have list : (c.removedAt i).shapeList ++ [shape] = c.shapeList := document_shapeList same
  have outside : shape ∉ (c.removedAt i).shapeList := by
    have nodup := distinct.of_map
    rw [← list, List.nodup_append_comm, List.singleton_append, List.nodup_cons] at nodup
    exact nodup.1
  have names := document_names same
  rw [appended_names _ outside, uniqueName_eq, CanvasBase.names, CanvasBase.names, ← list, List.map_append] at names
  have last := List.singleton_inj.mp (List.append_inj' names rfl).2
  refine ⟨list.symm, named, (Prod.mk.inj same).2.symm, ?_⟩
  rw [← named]
  exact last.symm

theorem last_found {i : ℕ} {last : ShapeId} (distinct : c.names.Nodup) (list : c.shapeList = rest ++ [last])
    (named : (c.heap last).name = shapeName) (found : c.names.findIdx? (· == shapeName) = some i)
    (listed : c.shapeList[i]? = some shape) : rest.length = i ∧ last = shape ∧ last ∉ rest := by
  have names : c.names = (rest.map fun other => (c.heap other).name) ++ [shapeName] := by
    rw [CanvasBase.names, list, List.map_append, List.map_singleton, named]
  have unused : shapeName ∉ rest.map fun other => (c.heap other).name := by
    rw [names, List.nodup_append_comm, List.singleton_append, List.nodup_cons] at distinct
    exact distinct.1
  have atLast := findIdx?_last unused
  rw [← names, found, List.length_map] at atLast
  obtain rfl : i = rest.length := Option.some.inj atLast
  refine ⟨rfl, ?_, ?_⟩
  · rw [list, List.getElem?_append_right (Nat.le_refl _), Nat.sub_self] at listed
    exact Option.some.inj listed
  · intro member
    apply unused
    rw [← named]
    exact List.mem_map_of_mem member

end CanvasBase

namespace Command

theorem undo_removeShape (c : CanvasBase) (shape : ShapeId) (shapeName : String) :
    (removeShape (some shape) shapeName).undo c =
      .ok (.removeShape (some shape) (c.uniqueName (Shape.typeToString (c.heap shape).type)), c.appended shape) := by
  rw [undo, addShape_eq]
  rfl

/-- A removal and its undo give the document back exactly when the shape was the last one of the list and the
    current one, and its name is the first of its type that the others do not use. -/
theorem removal_undoable_iff (c : CanvasBase) (distinct : c.names.Nodup) (shapeName : String)
    (present : shapeName ∈ c.names) :
    ∃ command taken removed recorded restored,
      forRemoval c shapeName = .ok command ∧
      command.redo c = .ok (taken, removed) ∧
      taken.undo removed = .ok (recorded, restored) ∧
      (restored.document = c.document ↔
        ∃ rest shape, c.shapeList = rest ++ [shape] ∧ (c.heap shape).name = shapeName ∧
          c.currentIndex = rest.length ∧
          shapeName = uniqueIn (rest.map fun other => (c.heap other).name)
            (Shape.typeToString (c.heap shape).type)) := by
  cases found : c.names.findIdx? (· == shapeName) with
  | none => exact absurd present (not_mem_names found)
  | some i =>
    obtain ⟨shape, listed, named, looked⟩ := shape_found found
    obtain ⟨bound, deleted⟩ := deleteShape_found c shapeName i found
    have made : forRemoval c shapeName = .ok (.removeShape (some shape) shapeName) := by
      rw [forRemoval, looked]
      rfl
    have redone : (removeShape (some shape) shapeName).redo c =
        .ok (.removeShape (some shape) shapeName, c.removedAt i) := by
      rw [redo, deleted]
      rfl
    refine ⟨_, _, _, _, _, made, redone, undo_removeShape _ shape shapeName, ?_⟩
    constructor
    · intro same
      exact ⟨(c.removedAt i).shapeList, shape, readded_last distinct named same⟩
    · rintro ⟨rest, last, list, lastNamed, current, name⟩
      obtain ⟨rfl, rfl, outside⟩ := last_found distinct list lastNamed found listed
      exact (readded_same list outside current (lastNamed.trans name)).document.symm

def twoPolygons : CanvasBase :=
  (CanvasBase.appended { CanvasBase.fresh with heap := fun _ => Shape.new .polygon, next := 2 } 0).appended 1

theorem last_removal_undoable :
    twoPolygons.names.Nodup ∧ "Ploygon1" ∈ twoPolygons.names ∧
    ∃ command taken removed recorded restored,
      forRemoval twoPolygons "Ploygon1" = .ok command ∧
      command.redo twoPolygons = .ok (taken, removed) ∧
      taken.undo removed = .ok (recorded, restored) ∧
      restored.document = twoPolygons.document := by
  have distinct : twoPolygons.names.Nodup := by decide +kernel
  have present : "Ploygon1" ∈ twoPolygons.names := by decide +kernel
  obtain ⟨command, taken, removed, recorded, restored, made, redone, undone, restores⟩ :=
    removal_undoable_iff twoPolygons distinct "Ploygon1" present
  refine ⟨distinct, present, command, taken, removed, recorded, restored, made, redone, undone, ?_⟩
  apply restores.mpr
  exact ⟨[0], 1, rfl, by decide +kernel, rfl, by decide +kernel⟩

theorem removal_of_first_reorders :
    twoPolygons.names.Nodup ∧ twoPolygons.IndexValid ∧ "Ploygon" ∈ twoPolygons.names ∧
    ∃ command taken removed recorded restored,
      forRemoval twoPolygons "Ploygon" = .ok command ∧
      command.redo twoPolygons = .ok (taken, removed) ∧
      taken.undo removed = .ok (recorded, restored) ∧
      restored.shapeList = [1, 0] ∧ restored.document ≠ twoPolygons.document := by
  have valid : twoPolygons.IndexValid := .inr ⟨by decide +kernel, by decide +kernel⟩
  have observed : (do
      let command ← forRemoval twoPolygons "Ploygon"
      let (taken, removed) ← command.redo twoPolygons
      let (_, restored) ← taken.undo removed
      .ok restored.shapeList : Except Fault (List ShapeId)) = .ok [1, 0] := by decide +kernel
  obtain ⟨command, made, observed⟩ := bind_completes observed
  obtain ⟨⟨taken, removed⟩, redone, observed⟩ := bind_completes observed
  obtain ⟨⟨recorded, restored⟩, undone, observed⟩ := bind_completes observed
  have list : restored.shapeList = [1, 0] := Except.ok.inj observed
  refine ⟨by decide +kernel, valid, by decide +kernel, command, taken, removed, recorded, restored, made, redone,
    undone, list, ?_⟩
  intro same
  have order := document_shapeList same
  rw [list] at order
  exact absurd order (by decide +kernel)

end Command

end XYAnnotation

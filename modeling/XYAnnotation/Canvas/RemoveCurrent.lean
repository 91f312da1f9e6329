import XYAnnotation.Canvas.Removal
import XYAnnotation.Canvas.UniqueNames

namespace XYAnnotation

open Library CanvasBase

def ShapeCall.direct : ShapeCall → Bool
  | .addShape _ | .deleteShape _ => true
  | _ => false

namespace CanvasBase

variable {c d : CanvasBase}

def NamedByType (c : CanvasBase) : Prop :=
  ∀ shape ∈ c.shapeList, ∃ i, (c.heap shape).name = numbered (Shape.typeToString (c.heap shape).type) i

theorem NamedByType.allocate (named : c.NamedByType) (listed : ∀ shape ∈ c.shapeList, shape < c.next) (new : Shape) :
    (c.allocate new).NamedByType := by
  intro shape member
  have older : shape ≠ c.next := Nat.ne_of_lt (listed shape member)
  have heap : (c.allocate new).heap shape = c.heap shape := Function.update_of_ne older _ _
  rw [heap]
  exact named shape member

theorem NamedByType.appended (named : c.NamedByType) (shape : ShapeId) : (c.appended shape).NamedByType := by
  intro other member
  by_cases same : other = shape
  · subst same
    obtain ⟨n, _, unique, _⟩ := c.uniqueName_stops (Shape.typeToString (c.heap other).type)
    refine ⟨n, ?_⟩
    simp only [CanvasBase.appended, Function.update_self, Shape.setName]
    exact unique
  · have heap : (c.appended shape).heap other = c.heap other := Function.update_of_ne same _ _
    rw [heap]
    have before : other ∈ c.shapeList := by
      rcases List.mem_append.mp member with before | new
      · exact before
      · exact absurd (List.mem_singleton.mp new) same
    exact named other before

theorem NamedByType.thinned (named : c.NamedByType) (thinned : Command.Thinned c d) : d.NamedByType := by
  intro shape member
  rw [thinned.heap]
  exact named shape (thinned.shapeList.subset member)

theorem numbered_eq_empty {name : String} {i : ℕ} (empty : numbered name i = "") : name = "" := by
  unfold numbered at empty
  split at empty
  · exact (String.append_eq_empty_iff.mp empty).1
  · exact empty

theorem NamedByType.unnamed (named : c.NamedByType) {shape : ShapeId} (member : shape ∈ c.shapeList)
    (empty : (c.heap shape).name = "") : (c.heap shape).type = .polyline ∨ (c.heap shape).type = .none := by
  obtain ⟨i, name⟩ := named shape member
  have text := numbered_eq_empty (name.symm.trans empty)
  cases type : (c.heap shape).type with
  | polyline => exact .inl rfl
  | none => exact .inr rfl
  | rectangle | line | curve | polygon => rw [type] at text; exact absurd text (by decide)

end CanvasBase

namespace Canvas2D

variable {c d : Canvas2D}

theorem direct_named {call : ShapeCall} (direct : call.direct = true) (placed : c.Placed) (named : c.NamedByType)
    (done : c.shapeCall call = .ok d) : d.NamedByType := by
  cases call with
  | addShape type =>
    rcases c.create_cases type with absent | ⟨shape, created⟩
    · simp only [shapeCall, absent] at done
      cases done
    · simp only [shapeCall, created, CanvasBase.addShape_eq] at done
      cases done
      exact (named.allocate placed.listed shape).appended c.next
  | deleteShape shapeName =>
    obtain ⟨base, deleted, rest⟩ := bind_completes done
    cases rest
    exact named.thinned (Command.deleteShape_thinned deleted)
  | clean | pushAddShape _ | pushRemoveShape _ | undo | redo => cases direct

theorem built_names {calls : List ShapeCall} (direct : ∀ call ∈ calls, call.direct = true)
    (built : run shapeCall fresh calls = .ok c) : c.names.Nodup ∧ c.NamedByType := by
  have preserved : ∀ c call d, (c.Placed ∧ c.names.Nodup ∧ c.NamedByType) → call.direct = true →
      shapeCall c call = .ok d → d.Placed ∧ d.names.Nodup ∧ d.NamedByType := by
    rintro c call d ⟨placed, distinct, named⟩ direct done
    obtain ⟨placed', distinct'⟩ := shapeCall_distinct placed distinct done
    refine ⟨placed', distinct'.mpr ?_, direct_named direct placed named done⟩
    cases call with
    | addShape _ => trivial
    | deleteShape _ => trivial
    | clean | pushAddShape _ | pushRemoveShape _ | undo | redo => cases direct
  have initial : fresh.Placed ∧ fresh.names.Nodup ∧ fresh.NamedByType :=
    ⟨placed_of_empty rfl rfl, List.nodup_nil, fun _ member => absurd member List.not_mem_nil⟩
  have along : Along shapeCall (fun _ call => call.direct = true) fresh calls :=
    along_of_forall shapeCall (fun _ call member => direct call member) fresh
  exact (visited_invariant preserved initial along c (run_mem_visited built)).2

/-- `removeShape` takes out the current shape through a command, and does nothing without one. -/
def RemovesCurrent (c : Canvas2D) : Prop :=
  (c.currentIndex = -1 → CanvasView.removeShape c = .ok c) ∧
    ∀ (i : ℕ) (shape : ShapeId), c.currentIndex = i → c.shapeList[i]? = some shape →
      ∃ d shapeName, CanvasView.removeShape c = .ok d ∧ d.shapeList = c.shapeList.eraseIdx i ∧
        d.undoStack.done = .removeShape (some shape) shapeName :: c.undoStack.done

theorem currentShapeName_at {i : ℕ} {shape : ShapeId} (current : c.currentIndex = i)
    (here : c.shapeList[i]? = some shape) : c.currentShapeName = .ok (c.heap shape).name := by
  obtain ⟨bound, value⟩ := List.getElem?_eq_some_iff.mp here
  rw [currentShapeName, current, if_neg (by omega), QVector.at_natCast _ _ bound, value]
  rfl

theorem removeShape_unnamed {i : ℕ} {shape : ShapeId} (current : c.currentIndex = i)
    (here : c.shapeList[i]? = some shape) (empty : (c.heap shape).name = "") : CanvasView.removeShape c = .ok c := by
  rw [CanvasView.removeShape, currentShapeName_at current here, empty]
  rfl

theorem findIdx?_of_nodup {i : ℕ} {shape : ShapeId} (distinct : c.names.Nodup) (here : c.shapeList[i]? = some shape) :
    c.names.findIdx? (· == (c.heap shape).name) = some i := by
  have listed : c.names[i]? = some (c.heap shape).name := by
    rw [names, List.getElem?_map, here]
    rfl
  have index := indexOf_of_nodup distinct listed
  unfold indexOf at index
  split at index
  · rename_i found
    rw [found, Int.ofNat.inj index]
  · omega

theorem removeShape_named {i : ℕ} {shape : ShapeId} (distinct : c.names.Nodup) (current : c.currentIndex = i)
    (here : c.shapeList[i]? = some shape) (named : (c.heap shape).name ≠ "") :
    ∃ d, CanvasView.removeShape c = .ok d ∧ d.shapeList = c.shapeList.eraseIdx i ∧
      d.undoStack.done = .removeShape (some shape) (c.heap shape).name :: c.undoStack.done := by
  have found := findIdx?_of_nodup distinct here
  obtain ⟨shape', here', _, looked⟩ := shape_found found
  obtain rfl : shape' = shape := Option.some.inj (here'.symm.trans here)
  obtain ⟨_, deleted⟩ := deleteShape_found c.toCanvasBase _ i found
  have filled : (c.heap shape').name.isEmpty = false := by simpa using named
  refine ⟨⟨c.removedAt i, ⟨.removeShape (some shape') (c.heap shape').name :: c.undoStack.done, []⟩⟩, ?_, rfl, rfl⟩
  rw [CanvasView.removeShape, currentShapeName_at current here]
  simp only [Bind.bind, Except.bind, filled, Command.forRemoval, looked, push, UndoStack.push, Command.methods,
    Command.redo, deleted]
  rfl

def withIndex (c : Canvas2D) (index : ℤ) : Canvas2D := { c with currentIndex := index }

/-- On a canvas built by `addShape` and `deleteShape`, with any shape current, `removeShape` does what it should exactly
    when the current shape has a name; the shapes without one are of a type `typeToString` does not know. -/
theorem remove_current_iff (calls : List ShapeCall) (direct : ∀ call ∈ calls, call.direct = true) (c : Canvas2D)
    (built : run shapeCall fresh calls = .ok c) (index : ℤ)
    (valid : index = -1 ∨ 0 ≤ index ∧ index < c.shapeList.length) :
    ((c.withIndex index).RemovesCurrent ↔
      ∀ shape, (c.withIndex index).currentShape = .ok (some shape) → (c.heap shape).name ≠ "") ∧
    ∀ shape, (c.withIndex index).currentShape = .ok (some shape) → (c.heap shape).name = "" →
      CanvasView.removeShape (c.withIndex index) = .ok (c.withIndex index) ∧
        ((c.heap shape).type = .polyline ∨ (c.heap shape).type = .none) := by
  obtain ⟨distinct, named⟩ := built_names direct built
  rcases valid with rfl | ⟨low, high⟩
  · have absent : (c.withIndex (-1)).currentShape = .ok none := rfl
    rw [absent]
    refine ⟨iff_of_true ⟨fun _ => rfl, ?_⟩ (by simp), by simp⟩
    intro i shape current
    have negative : (-1 : ℤ) = i := current
    omega
  · obtain ⟨i, rfl⟩ := Int.eq_ofNat_of_zero_le low
    have bound : i < c.shapeList.length := by omega
    obtain ⟨shape, here⟩ : ∃ shape, c.shapeList[i]? = some shape := ⟨_, List.getElem?_eq_getElem bound⟩
    have present : (c.withIndex i).currentIndex = (i : ℤ) := rfl
    have current : (c.withIndex i).currentShape = .ok (some shape) := by
      obtain ⟨_, value⟩ := List.getElem?_eq_some_iff.mp here
      rw [currentShape, present, if_neg (by omega)]
      change (do let shape ← QVector.at c.shapeList i; .ok (some shape) : Except Fault ShapePtr) = _
      rw [QVector.at_natCast _ _ bound, value]
      rfl
    rw [current]
    simp only [Except.ok.injEq, Option.some.injEq, forall_eq']
    refine ⟨⟨?_, ?_⟩, ?_⟩
    · rintro ⟨_, removes⟩ empty
      obtain ⟨d, _, removed, list, _⟩ := removes i shape rfl here
      obtain rfl : d = c.withIndex i := Except.ok.inj (removed.symm.trans (removeShape_unnamed present here empty))
      have shorter := congrArg List.length list
      rw [show (c.withIndex i).shapeList = c.shapeList from rfl, List.length_eraseIdx_of_lt bound] at shorter
      omega
    · intro filled
      refine ⟨fun none => by rw [present] at none; omega, ?_⟩
      intro j other place found
      obtain rfl : i = j := Int.ofNat.inj (present.symm.trans place)
      obtain rfl : other = shape := Option.some.inj (found.symm.trans here)
      obtain ⟨d, removed, list, pushed⟩ := removeShape_named (c := c.withIndex i) distinct present here filled
      exact ⟨d, _, removed, list, pushed⟩
    · intro empty
      exact ⟨removeShape_unnamed present here empty, named.unnamed (List.mem_of_getElem? here) empty⟩

theorem polygon_removed :
    ∃ c, run shapeCall fresh [.addShape .polyline, .addShape .polygon] = .ok c ∧ (c.withIndex 1).RemovesCurrent := by
  have observed : (do
      let c ← run shapeCall fresh [.addShape .polyline, .addShape .polygon]
      let current ← (c.withIndex 1).currentShape
      .ok (c.shapeList.length, current, (c.heap 1).name) : Except Fault _) = .ok (2, some 1, "Ploygon") := by
    decide +kernel
  obtain ⟨c, built, observed⟩ := bind_completes observed
  obtain ⟨current, read, observed⟩ := bind_completes observed
  simp only [Except.ok.injEq, Prod.mk.injEq] at observed
  obtain ⟨length, rfl, name⟩ := observed
  refine ⟨c, built, ?_⟩
  apply (remove_current_iff _ (by decide) c built 1 (.inr ⟨by decide, by rw [length]; decide⟩)).1.mpr
  intro shape found
  obtain rfl : shape = 1 := (Option.some.inj (Except.ok.inj (read.symm.trans found))).symm
  rw [name]
  decide

theorem polyline_not_removed :
    ∃ c, run shapeCall fresh [.addShape .polyline] = .ok c ∧ c.IndexValid ∧ c.currentShape = .ok (some 0) ∧
      (c.heap 0).type = .polyline ∧ c.shapeList = [0] ∧ CanvasView.removeShape c = .ok c ∧ ¬ c.RemovesCurrent := by
  have built : run shapeCall fresh [.addShape .polyline] = .ok
      { fresh with toCanvasBase := (fresh.allocate (Shape.new .polyline)).appended 0 } := rfl
  refine ⟨_, built, .inr ⟨by decide +kernel, by decide +kernel⟩, rfl, rfl, rfl, rfl, ?_⟩
  rintro ⟨_, removes⟩
  obtain ⟨d, _, removed, list, _⟩ := removes 0 0 rfl rfl
  obtain rfl := Except.ok.inj removed
  exact absurd list (by decide +kernel)

end Canvas2D

end XYAnnotation

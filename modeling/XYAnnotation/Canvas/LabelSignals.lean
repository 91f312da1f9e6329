import XYAnnotation.Canvas.Handlers
import XYAnnotation.Library.Noted

namespace XYAnnotation

open Library Noted

/-- What `sigLabelAdded` is emitted with, and what a row of a dock shows. -/
structure LabelItem where
  label : String
  color : QColor
  checked : Bool
  deriving DecidableEq, Repr

def LabelProperty.item (label : LabelProperty) : LabelItem := ⟨label.label, label.color, label.visible⟩

/-- Computations that note what `sigLabelAdded` is emitted with. -/
abbrev Signals := Noted LabelItem Fault

namespace Canvas2D

section Signals

variable (c : Canvas2D) (pixPos : QPointF) (reply : DialogReply) (containsPoint : List QPointF → QPointF → Bool)

def signalSetProperty (shape : ShapeId) : Signals Canvas2D :=
  match reply with
  | none => pure c
  | some (name, color) =>
    if name.isEmpty then pure c
    else do
      let label := LabelProperty.make name color true (c.heap shape).id
      let c := c.modifyShape shape fun s => s.setLabel label
      note label.item
      pure c

def signalCorner : Signals Canvas2D := do
  let c ← unnoted (CanvasView.addPoint c pixPos)
  match ← unnoted c.currentShape with
  | none => unnoted (.error .nullPointer)
  | some shape =>
    let c := c.modifyShape shape (·.updateEndPt pixPos)
    if (c.heap shape).points.size > 1 then (c.modifyShape shape (·.setIsClosed true)).signalSetProperty reply shape
    else pure c

def signalPoint : Signals Canvas2D :=
  match c.draw with
  | .rectangle | .line => c.signalCorner pixPos reply
  | _ => unnoted (c.drawPoint pixPos reply)

def signalDraw : Signals Canvas2D := do
  let shape ← unnoted c.currentShape
  if c.currentIndex ≥ 0 ∧ shape = none then pure c
  else if c.startsShape shape then do
    let c ← unnoted (CanvasView.addShape c)
    c.signalPoint pixPos reply
  else c.signalPoint pixPos reply

def signalPress (pos : QPointF) (leftButton : Bool) : Signals Canvas2D :=
  match c.task, leftButton, c.operat with
  | .segmentation, true, .draw => do
    let img ← unnoted c.getImage
    c.signalDraw (bindImgEdge img pos) reply
  | _, _, _ => unnoted (c.mousePressEvent containsPoint pos leftButton reply)

def signalDoubleClick (pos : QPointF) (leftButton : Bool) : Signals Canvas2D :=
  match c.task, c.operat with
  | .segmentation, .draw => do
    match ← unnoted c.currentShape with
    | none => pure c
    | some shape =>
      if (c.heap shape).pointCount > 2 then do
        let deleted ← unnoted ((c.heap shape).deletePoint ((c.heap shape).pointCount - 1))
        let c := c.modifyShape shape fun _ => deleted.setIsClosed true
        let c ← c.signalSetProperty reply shape
        c.signalPress reply containsPoint pos leftButton
      else c.signalPress reply containsPoint pos leftButton
  | _, _ => c.signalPress reply containsPoint pos leftButton

def signalKey (enter : Bool) : Signals Canvas2D :=
  match c.task, c.operat, enter with
  | .segmentation, .draw, true => do
    match ← unnoted c.currentShape with
    | none => pure c
    | some shape =>
      if (c.heap shape).pointCount > 2 then (c.modifyShape shape (·.setIsClosed true)).signalSetProperty reply shape
      else pure c
  | _, _, _ => pure c

def signalHandle : CanvasEvent → Signals Canvas2D
  | .mousePress pos leftButton reply => c.signalPress reply containsPoint pos leftButton
  | .mouseDoubleClick pos leftButton reply => c.signalDoubleClick reply containsPoint pos leftButton
  | .keyPress enter reply => c.signalKey reply enter
  | event => unnoted (c.handle containsPoint event)

theorem signalSetProperty_result (shape : ShapeId) :
    (c.signalSetProperty reply shape).result = .ok (c.slotSetProperty reply shape) := by
  unfold signalSetProperty slotSetProperty
  cases reply with
  | none => rfl
  | some reply =>
    simp only
    split
    · rfl
    · rfl

theorem signalCorner_result : (c.signalCorner pixPos reply).result = c.cornerPoint pixPos reply := by
  unfold signalCorner cornerPoint
  rw [bind_result, unnoted_result]
  congr 1
  funext c
  rw [bind_result, unnoted_result]
  congr 1
  funext shape
  cases shape with
  | none => rfl
  | some shape =>
    simp only
    split
    · exact signalSetProperty_result _ _ _
    · rfl

theorem signalPoint_result : (c.signalPoint pixPos reply).result = c.drawPoint pixPos reply := by
  unfold signalPoint drawPoint
  cases c.draw with
  | rectangle => exact c.signalCorner_result pixPos reply
  | line => exact c.signalCorner_result pixPos reply
  | curve | polygon | polyline | none => rfl

theorem signalDraw_result : (c.signalDraw pixPos reply).result = c.drawPress pixPos reply := by
  unfold signalDraw drawPress
  rw [bind_result, unnoted_result]
  congr 1
  funext shape
  split
  · rfl
  · split
    · rw [bind_result, unnoted_result]
      congr 1
      funext c
      exact c.signalPoint_result pixPos reply
    · exact c.signalPoint_result pixPos reply

theorem signalPress_result (pos : QPointF) (leftButton : Bool) :
    (c.signalPress reply containsPoint pos leftButton).result = c.mousePressEvent containsPoint pos leftButton reply := by
  unfold signalPress
  split
  · rename_i task operat
    unfold mousePressEvent
    simp only [bind_result, unnoted_result, signalDraw_result, task, operat]
  · rfl

theorem signalDoubleClick_result (pos : QPointF) (leftButton : Bool) :
    (c.signalDoubleClick reply containsPoint pos leftButton).result =
      c.mouseDoubleClickEvent containsPoint pos leftButton reply := by
  unfold signalDoubleClick mouseDoubleClickEvent
  cases task : c.task with
  | detection => exact c.signalPress_result reply containsPoint pos leftButton
  | segmentation =>
    cases operat : c.operat with
    | edit => exact c.signalPress_result reply containsPoint pos leftButton
    | draw =>
      simp only [bind_result, unnoted_result]
      congr 1
      funext shape
      cases shape with
      | none => rfl
      | some shape =>
        simp only
        split
        · simp only [bind_result, unnoted_result, signalSetProperty_result, signalPress_result]
          rfl
        · exact c.signalPress_result reply containsPoint pos leftButton

theorem signalKey_result (enter : Bool) : (c.signalKey reply enter).result = c.keyPressEvent enter reply := by
  unfold signalKey keyPressEvent
  cases task : c.task with
  | detection => rfl
  | segmentation =>
    cases operat : c.operat with
    | edit => rfl
    | draw =>
      cases enter with
      | false => rfl
      | true =>
        simp only [bind_result, unnoted_result]
        congr 1
        funext shape
        cases shape with
        | none => rfl
        | some shape =>
          simp only
          split
          · exact signalSetProperty_result _ _ _
          · rfl

/-- The notes do not change what the canvas does. -/
theorem signalHandle_result (event : CanvasEvent) :
    (c.signalHandle containsPoint event).result = c.handle containsPoint event := by
  cases event with
  | mousePress pos leftButton reply => exact c.signalPress_result reply containsPoint pos leftButton
  | mouseDoubleClick pos leftButton reply => exact c.signalDoubleClick_result reply containsPoint pos leftButton
  | keyPress enter reply => exact c.signalKey_result reply enter
  | _ => rfl

end Signals

end Canvas2D

namespace CanvasBase

variable {c d e : CanvasBase}

structure KeepsLabels (c d : CanvasBase) : Prop where
  next : d.next = c.next
  labels : ∀ shape, (d.heap shape).label = (c.heap shape).label

namespace KeepsLabels

theorem refl (c : CanvasBase) : KeepsLabels c c := ⟨rfl, fun _ => rfl⟩

theorem trans (first : KeepsLabels c d) (second : KeepsLabels d e) : KeepsLabels c e :=
  ⟨second.next.trans first.next, fun shape => (second.labels shape).trans (first.labels shape)⟩

theorem of_heap (next : d.next = c.next) (same : d.heap = c.heap) : KeepsLabels c d := by
  refine ⟨next, ?_⟩
  intro shape
  rw [same]

theorem modifyShape (c : CanvasBase) (shape : ShapeId) {f : Shape → Shape}
    (keeps : (f (c.heap shape)).label = (c.heap shape).label) : KeepsLabels c (c.modifyShape shape f) := by
  refine ⟨rfl, ?_⟩
  intro other
  by_cases same : other = shape
  · subst same
    rw [modifyShape_heap_same]
    exact keeps
  · rw [modifyShape_heap_other _ _ _ same]

theorem touched {shape : ShapeId} {f : Shape → Shape} (next : d.next = c.next) (same : d.heap = c.heap)
    (keeps : (f (c.heap shape)).label = (c.heap shape).label) : KeepsLabels c (d.modifyShape shape f) := by
  rw [← same] at keeps
  exact (of_heap next same).trans (modifyShape d shape keeps)

theorem appended (c : CanvasBase) (shape : ShapeId) : KeepsLabels c (c.appended shape) := by
  have named : KeepsLabels c (c.modifyShape shape (·.setName (c.uniqueName (Shape.typeToString (c.heap shape).type)))) :=
    modifyShape c shape rfl
  exact named.trans (of_heap rfl rfl)

end KeepsLabels

section Loops

variable {containsPoint : List QPointF → QPointF → Bool} {pixPos : QPointF} {img : QImage} {shape : ShapeId}
  {leaves : Bool}

theorem pressShape_labels (pressed : c.pressShape containsPoint pixPos shape = .ok (d, leaves)) : KeepsLabels c d := by
  unfold pressShape at pressed
  split at pressed
  · cases pressed
    exact .refl c
  · simp only at pressed
    split at pressed
    · cases pressed
      exact .touched rfl rfl rfl
    · split at pressed
      · cases pressed
        exact .touched rfl rfl rfl
      · split at pressed
        · cases pressed
          exact .touched rfl rfl rfl
        · cases pressed
          exact .touched rfl rfl rfl

theorem editPress_labels (pressed : c.editPress containsPoint pixPos = .ok d) : KeepsLabels c d := by
  unfold editPress at pressed
  split at pressed
  · cases pressed
    exact .refl c
  · have kept : ∀ state next leaves, ∀ item ∈ c.shapeList, KeepsLabels c state →
        state.pressShape containsPoint pixPos item = .ok (next, leaves) → KeepsLabels c next := by
      intro state next leaves item _ before done
      exact before.trans (pressShape_labels done)
    have start : KeepsLabels c { c with activePoint := -1, insertPoint := -1 } := .of_heap rfl rfl
    exact loop_invariant kept start pressed

theorem releaseShape_labels (released : c.releaseShape shape = .ok (d, leaves)) : KeepsLabels c d := by
  unfold releaseShape at released
  split at released
  · cases released
    exact .refl c
  · cases released
    apply KeepsLabels.modifyShape
    split <;> rfl

theorem hoverShape_labels (hovered : c.hoverShape containsPoint pixPos shape = .ok (d, leaves)) : KeepsLabels c d := by
  unfold hoverShape at hovered
  split at hovered
  · cases hovered
    exact .refl c
  · simp only at hovered
    split at hovered
    · cases hovered
      exact .modifyShape _ _ rfl
    · cases hovered
      exact (KeepsLabels.modifyShape _ _ rfl).trans (.modifyShape _ _ rfl)

theorem react_labels (reacted : c.react img pixPos shape = .ok (d, leaves)) : KeepsLabels c d := by
  unfold react at reacted
  simp only at reacted
  split at reacted
  · obtain ⟨_, rfl | ⟨result, inserted, rfl⟩⟩ := orCaught_completes reacted
    · exact .refl d
    · refine .touched rfl rfl ?_
      rcases Shape.insertPoint_completes inserted with rfl | ⟨_, ⟨points, _, rfl⟩ | ⟨_, rfl⟩⟩ <;> rfl
  · split at reacted
    · obtain ⟨_, rfl | ⟨result, updated, rfl⟩⟩ := orCaught_completes reacted
      · exact .refl d
      · refine .touched rfl rfl ?_
        obtain ⟨points, _, rfl⟩ := Shape.updatePoint_completes updated
        rfl
    · split at reacted
      · obtain ⟨_, rfl | ⟨result, moved, rfl⟩⟩ := orCaught_completes reacted
        · exact .refl d
        · refine .touched rfl rfl ?_
          rw [Shape.move_eq] at moved
          cases moved
          rfl
      · cases reacted
        exact .refl c

theorem moveShape_labels (moved : c.moveShape containsPoint pixPos img shape = .ok (d, leaves)) : KeepsLabels c d := by
  rw [moveShape_eq] at moved
  split at moved
  · cases moved
    exact .refl c
  · split at moved
    · exact react_labels moved
    · exact (KeepsLabels.modifyShape c shape rfl).trans (react_labels moved)

end Loops

end CanvasBase

namespace Command

variable {command recorded : Command} {c d : CanvasBase}

open CanvasBase

theorem redo_labels (done : command.redo c = .ok (recorded, d)) : KeepsLabels c d := by
  rcases redo_cases done with ⟨shape, _, _, rfl⟩ | ⟨shape, _, _, _, rfl⟩ | ⟨_, thinned⟩
  · exact .appended c shape
  · exact .modifyShape c shape rfl
  · exact .of_heap thinned.next thinned.heap

theorem undo_labels (done : command.undo c = .ok (recorded, d)) : KeepsLabels c d := by
  rcases undo_cases done with ⟨shape, _, _, rfl⟩ | ⟨shape, _, _, deleted, _, removed, rfl⟩ | ⟨_, thinned⟩
  · exact .appended c shape
  · apply KeepsLabels.modifyShape
    rcases Shape.deletePoint_completes removed with ⟨_, rfl⟩ | ⟨_, points, _, rfl⟩ <;> rfl
  · exact .of_heap thinned.next thinned.heap

end Command

def Shape.ListedIn (items : List LabelItem) (s : Shape) : Prop := s.label.label = "" ∨ s.label.item ∈ items

/-- A shape that has another label after the step is in the list, and a new one is unless it has no label. The list names
    a label and checks it in every item. -/
structure CanvasBase.Explained (items : List LabelItem) (c d : CanvasBase) : Prop where
  grows : c.next ≤ d.next
  known : ∀ shape, shape < c.next → (d.heap shape).label = (c.heap shape).label ∨ (d.heap shape).label.item ∈ items
  fresh : ∀ shape, c.next ≤ shape → shape < d.next → (d.heap shape).ListedIn items
  named : ∀ item ∈ items, item.label ≠ "" ∧ item.checked = true

section Explained

variable {c d e : CanvasBase} {first second items : List LabelItem} {s t : Shape}

open CanvasBase

theorem Shape.ListedIn.same (listed : s.ListedIn items) (label : t.label = s.label) : t.ListedIn items := by
  unfold Shape.ListedIn
  rw [label]
  exact listed

theorem Shape.ListedIn.mono (listed : s.ListedIn items) (more : items ⊆ second) : s.ListedIn second :=
  listed.imp_right fun member => more member

theorem CanvasBase.KeepsLabels.explained (keeps : KeepsLabels c d) : Explained [] c d where
  grows := keeps.next.ge
  known shape _ := .inl (keeps.labels shape)
  fresh shape new old := by
    rw [keeps.next] at old
    exact absurd old (not_lt.mpr new)
  named := by simp

theorem CanvasBase.Explained.trans (before : Explained first c d) (after : Explained second d e) :
    Explained (first ++ second) c e where
  grows := before.grows.trans after.grows
  known := by
    intro shape old
    rcases after.known shape (old.trans_le before.grows) with same | listed
    · rcases before.known shape old with same' | listed
      · exact .inl (same.trans same')
      · rw [same]
        exact .inr (List.mem_append_left second listed)
    · exact .inr (List.mem_append_right first listed)
  fresh := by
    intro shape new old
    by_cases made : shape < d.next
    · rcases after.known shape made with same | listed
      · have listed := (before.fresh shape new made).same same
        exact listed.mono (List.subset_append_left first second)
      · exact .inr (List.mem_append_right first listed)
    · exact (after.fresh shape (not_lt.mp made) old).mono (List.subset_append_right first second)
  named := List.forall_mem_append.mpr ⟨before.named, after.named⟩

end Explained

namespace Canvas2D

def Explains (c : Canvas2D) (m : Signals Canvas2D) : Prop :=
  ∀ d, m.result = .ok d → CanvasBase.Explained m.entries c.toCanvasBase d.toCanvasBase

variable {c d : Canvas2D} {m : Signals Canvas2D} {pixPos : QPointF} {reply : DialogReply}
  {containsPoint : List QPointF → QPointF → Bool}

theorem Explains.of_keeps {changed : Except Fault Canvas2D}
    (keeps : ∀ d, changed = .ok d → CanvasBase.KeepsLabels c.toCanvasBase d.toCanvasBase) :
    Explains c (unnoted changed) := fun d done => (keeps d done).explained

theorem Explains.same (c : Canvas2D) : Explains c (pure c) := by
  intro d done
  cases done
  exact (CanvasBase.KeepsLabels.refl _).explained

theorem Explains.after (keeps : CanvasBase.KeepsLabels c.toCanvasBase d.toCanvasBase) (explains : Explains d m) :
    Explains c m := by
  intro e done
  exact keeps.explained.trans (explains e done)

theorem Explains.bind {rest : Canvas2D → Signals Canvas2D} (first : Explains c m)
    (later : ∀ middle, m.result = .ok middle → Explains middle (rest middle)) : Explains c (m >>= rest) := by
  intro d done
  rw [bind_result] at done
  obtain ⟨middle, made, done⟩ := bind_completes done
  rw [bind_entries_ok made]
  exact (first middle made).trans (later middle made d done)

theorem Explains.reading {Value : Type} {value : Except Fault Value} {rest : Value → Signals Canvas2D}
    (later : ∀ result, value = .ok result → Explains c (rest result)) : Explains c (unnoted value >>= rest) := by
  intro d done
  rw [bind_result] at done
  obtain ⟨result, made, done⟩ := bind_completes done
  rw [bind_entries_ok made]
  exact later result made d done

theorem signalSetProperty_explains (c : Canvas2D) (reply : DialogReply) (shape : ShapeId) :
    Explains c (c.signalSetProperty reply shape) := by
  unfold signalSetProperty
  split
  · exact .same c
  · split
    · exact .same c
    · rename_i name color empty
      intro d done
      cases done
      constructor
      · exact le_refl _
      · intro other _
        by_cases same : other = shape
        · subst same
          refine .inr ?_
          simp [modifyShape, CanvasBase.modifyShape, Shape.setLabel, LabelProperty.assign, LabelProperty.make,
            LabelProperty.item, Bind.bind, note]
        · refine .inl ?_
          rw [modifyShape, CanvasBase.modifyShape_heap_other _ _ _ same]
      · intro other new old
        exact absurd old (not_lt.mpr new)
      · intro item member
        obtain rfl := List.mem_singleton.mp member
        exact ⟨fun blank => empty (String.isEmpty_iff.mpr blank), rfl⟩

theorem modifyShape_labels (c : Canvas2D) (shape : ShapeId) {f : Shape → Shape}
    (keeps : (f (c.heap shape)).label = (c.heap shape).label) :
    CanvasBase.KeepsLabels c.toCanvasBase (c.modifyShape shape f).toCanvasBase := .modifyShape _ _ keeps

theorem addPoint_labels (added : CanvasView.addPoint c pixPos = .ok d) :
    CanvasBase.KeepsLabels c.toCanvasBase d.toCanvasBase := by
  rcases addPoint_completes added with ⟨_, rfl⟩ | ⟨shape, _, base, _⟩
  · exact .refl _
  · rw [base]
    exact .modifyShape _ _ rfl

theorem addShape_explains (c : Canvas2D) : Explains c (unnoted (CanvasView.addShape c)) := by
  intro d added
  obtain ⟨img, _, _, base, _⟩ := addShape_completes added
  have blank : ((started c.toCanvasBase img).heap c.next).label.label = "" := by
    simp [started, CanvasBase.appended, CanvasBase.allocate, Shape.setName, Shape.setimgWH, Shape.new,
      LabelProperty.default]
  rw [base]
  constructor
  · exact Nat.le_succ c.next
  · intro shape old
    refine .inl ?_
    rw [started_heap_other _ _ (Nat.ne_of_lt old)]
  · intro shape new old
    obtain rfl : shape = c.next := Nat.le_antisymm (Nat.lt_succ_iff.mp old) new
    exact .inl blank
  · intro item member
    cases member

theorem signalCorner_explains (c : Canvas2D) : Explains c (c.signalCorner pixPos reply) := by
  apply Explains.bind (.of_keeps fun _ added => addPoint_labels added)
  intro c _
  apply Explains.reading
  intro shape _
  cases shape with
  | none => exact .of_keeps fun _ failed => by cases failed
  | some shape =>
    have moved : CanvasBase.KeepsLabels c.toCanvasBase (c.modifyShape shape (·.updateEndPt pixPos)).toCanvasBase :=
      modifyShape_labels c shape rfl
    simp only
    split
    · refine Explains.after (moved.trans ?_) (signalSetProperty_explains _ _ _)
      exact modifyShape_labels _ shape rfl
    · exact Explains.after moved (.same _)

theorem drawPoint_labels (uncornered : c.draw.twoPoint = false) (drawn : c.drawPoint pixPos reply = .ok d) :
    CanvasBase.KeepsLabels c.toCanvasBase d.toCanvasBase := by
  have path (done : c.pathPoint pixPos = .ok d) : CanvasBase.KeepsLabels c.toCanvasBase d.toCanvasBase := by
    obtain ⟨next, added, rest⟩ := bind_completes done
    obtain ⟨shape, _, rest⟩ := bind_completes rest
    cases shape with
    | none => cases rest
    | some shape =>
      cases rest
      exact (addPoint_labels added).trans (modifyShape_labels next shape rfl)
  unfold drawPoint at drawn
  cases mode : c.draw with
  | rectangle | line =>
    rw [mode] at uncornered
    cases uncornered
  | curve | polyline =>
    simp only [mode] at drawn
    exact path drawn
  | polygon =>
    simp only [mode] at drawn
    exact addPoint_labels drawn
  | none =>
    simp only [mode] at drawn
    cases drawn
    exact .refl _

theorem signalPoint_explains (c : Canvas2D) : Explains c (c.signalPoint pixPos reply) := by
  unfold signalPoint
  cases mode : c.draw with
  | rectangle | line => exact c.signalCorner_explains
  | curve | polygon | polyline | none => exact .of_keeps fun _ drawn => drawPoint_labels (by rw [mode]; rfl) drawn

theorem signalDraw_explains (c : Canvas2D) : Explains c (c.signalDraw pixPos reply) := by
  apply Explains.reading
  intro shape _
  split
  · exact .same c
  · split
    · apply Explains.bind c.addShape_explains
      intro c _
      exact c.signalPoint_explains
    · exact c.signalPoint_explains

theorem signalPress_explains (c : Canvas2D) {pos : QPointF} {leftButton : Bool} :
    Explains c (c.signalPress reply containsPoint pos leftButton) := by
  unfold signalPress
  split
  · apply Explains.reading
    intro img _
    exact c.signalDraw_explains
  · rename_i notDraw
    apply Explains.of_keeps
    intro d pressed
    obtain ⟨img, _, rest⟩ := bind_completes pressed
    simp only at rest
    split at rest
    · rename_i task operat
      exact (notDraw task rfl operat).elim
    · obtain ⟨base, done, rest⟩ := bind_completes rest
      cases rest
      exact CanvasBase.editPress_labels done
    · cases rest
      exact .refl _

theorem signalDoubleClick_explains (c : Canvas2D) {pos : QPointF} {leftButton : Bool} :
    Explains c (c.signalDoubleClick reply containsPoint pos leftButton) := by
  unfold signalDoubleClick
  split
  · apply Explains.reading
    intro shape _
    cases shape with
    | none => exact .same c
    | some shape =>
      simp only
      split
      · apply Explains.reading
        intro deleted taken
        have closed : CanvasBase.KeepsLabels c.toCanvasBase
            (c.modifyShape shape fun _ => deleted.setIsClosed true).toCanvasBase := by
          apply modifyShape_labels
          rcases Shape.deletePoint_completes taken with ⟨_, rfl⟩ | ⟨_, points, _, rfl⟩ <;> rfl
        apply Explains.after closed
        apply Explains.bind (signalSetProperty_explains _ reply shape)
        intro c _
        exact c.signalPress_explains
      · exact c.signalPress_explains
  · exact c.signalPress_explains

theorem signalKey_explains (c : Canvas2D) {enter : Bool} : Explains c (c.signalKey reply enter) := by
  unfold signalKey
  split
  · apply Explains.reading
    intro shape _
    cases shape with
    | none => exact .same c
    | some shape =>
      simp only
      split
      · exact Explains.after (modifyShape_labels c shape rfl) (signalSetProperty_explains _ _ _)
      · exact .same c
  · exact .same c

theorem mouseRelease_labels (released : c.mouseReleaseEvent = .ok d) :
    CanvasBase.KeepsLabels c.toCanvasBase d.toCanvasBase := by
  unfold mouseReleaseEvent at released
  split at released
  · obtain ⟨base, done, rest⟩ := bind_completes released
    cases rest
    have kept : ∀ items : List ShapeId, ∀ state next leaves, ∀ item ∈ items,
        CanvasBase.KeepsLabels c.toCanvasBase state → state.releaseShape item = .ok (next, leaves) →
        CanvasBase.KeepsLabels c.toCanvasBase next := by
      intro _ state next leaves item _ before done
      exact before.trans (CanvasBase.releaseShape_labels done)
    apply loop_invariant (kept _) _ done
    split
    · exact .of_heap rfl rfl
    · exact .refl _
  · cases released
    exact .refl _

theorem hoverMove_labels {pos : QPointF} (hovered : c.hoverMoveEvent containsPoint pos = .ok d) :
    CanvasBase.KeepsLabels c.toCanvasBase d.toCanvasBase := by
  unfold hoverMoveEvent at hovered
  split at hovered
  · obtain ⟨shape, _, rest⟩ := bind_completes hovered
    cases shape with
    | none =>
      cases rest
      exact .refl _
    | some shape =>
      simp only at rest
      split at rest
      · cases rest
        exact .refl _
      · cases rest
        exact modifyShape_labels c shape rfl
  · rename_i img _ _ _
    obtain ⟨base, done, rest⟩ := bind_completes hovered
    cases rest
    have kept : ∀ state next leaves, ∀ item ∈ c.shapeList, CanvasBase.KeepsLabels c.toCanvasBase state →
        state.hoverShape containsPoint (bindImgEdge img pos) item = .ok (next, leaves) →
        CanvasBase.KeepsLabels c.toCanvasBase next := by
      intro state next leaves item _ before done
      exact before.trans (CanvasBase.hoverShape_labels done)
    exact loop_invariant kept (.refl _) done
  · cases hovered
    exact .refl _

theorem mouseMove_labels {pos : QPointF} (moved : c.mouseMoveEvent containsPoint pos = .ok d) :
    CanvasBase.KeepsLabels c.toCanvasBase d.toCanvasBase := by
  unfold mouseMoveEvent at moved
  split at moved
  · rename_i img _ _ _
    obtain ⟨base, done, rest⟩ := bind_completes moved
    cases rest
    have kept : ∀ state next leaves, ∀ item ∈ c.shapeList, CanvasBase.KeepsLabels c.toCanvasBase state →
        state.moveShape containsPoint (bindImgEdge img pos) img item = .ok (next, leaves) →
        CanvasBase.KeepsLabels c.toCanvasBase next := by
      intro state next leaves item _ before done
      exact before.trans (CanvasBase.moveShape_labels done)
    exact loop_invariant kept (.refl _) done
  · cases moved
    exact .refl _

theorem undo_labels (undone : c.undo = .ok d) : CanvasBase.KeepsLabels c.toCanvasBase d.toCanvasBase := by
  rcases undo_completes undone with ⟨_, rfl⟩ | ⟨command, done, recorded, _, called, _⟩
  · exact .refl _
  · exact Command.undo_labels called

theorem redo_labels (redone : c.redo = .ok d) : CanvasBase.KeepsLabels c.toCanvasBase d.toCanvasBase := by
  rcases redo_completes redone with ⟨_, rfl⟩ | ⟨command, undone, recorded, _, called, _⟩
  · exact .refl _
  · exact Command.redo_labels called

theorem signalHandle_explains (c : Canvas2D) (containsPoint : List QPointF → QPointF → Bool) (event : CanvasEvent) :
    Explains c (c.signalHandle containsPoint event) := by
  cases event with
  | mousePress pos leftButton reply => exact c.signalPress_explains
  | mouseRelease pos => exact .of_keeps fun _ released => mouseRelease_labels released
  | mouseDoubleClick pos leftButton reply => exact c.signalDoubleClick_explains
  | hoverMove pos => exact .of_keeps fun _ hovered => hoverMove_labels hovered
  | mouseMove pos => exact .of_keeps fun _ moved => mouseMove_labels moved
  | keyPress enter reply => exact c.signalKey_explains
  | undo => exact .of_keeps fun _ undone => undo_labels undone
  | redo => exact .of_keeps fun _ redone => redo_labels redone
  | changeDrawMode mode =>
    apply Explains.of_keeps
    intro d changed
    cases changed
    exact .of_heap rfl rfl
  | changeOperatMode mode =>
    apply Explains.of_keeps
    intro d changed
    cases changed
    exact .of_heap rfl rfl
  | creatPolygon => exact c.addShape_explains

def signalRun (containsPoint : List QPointF → QPointF → Bool) (c : Canvas2D) : List CanvasEvent → Signals Canvas2D
  | [] => pure c
  | event :: events => do
    let c ← c.signalHandle containsPoint event
    signalRun containsPoint c events

theorem signalRun_result (containsPoint : List QPointF → QPointF → Bool) (c : Canvas2D) (events : List CanvasEvent) :
    (signalRun containsPoint c events).result = run (handle containsPoint) c events := by
  induction events generalizing c with
  | nil => rfl
  | cons event events ih =>
    rw [signalRun, run, bind_result, signalHandle_result]
    congr 1
    funext next
    exact ih next

theorem signalRun_explains (containsPoint : List QPointF → QPointF → Bool) (c : Canvas2D) (events : List CanvasEvent) :
    Explains c (signalRun containsPoint c events) := by
  induction events generalizing c with
  | nil => exact .same c
  | cons event events ih =>
    apply Explains.bind (c.signalHandle_explains containsPoint event)
    intro next _
    exact ih next

/-- However the canvas is used, the docks are told of every label that a shape gets: a shape keeps the label that it had
    at first, or its label, its colour and its visibility were emitted, and a new shape has no label until they are. Only
    labels that are visible and have a text are emitted. -/
theorem labels_announced (containsPoint : List QPointF → QPointF → Bool) (c last : Canvas2D) (events : List CanvasEvent)
    (done : run (handle containsPoint) c events = .ok last) :
    let items := (signalRun containsPoint c events).entries
    (∀ shape, shape < c.next → (last.heap shape).label = (c.heap shape).label ∨ (last.heap shape).label.item ∈ items) ∧
      (∀ shape, c.next ≤ shape → shape < last.next →
        (last.heap shape).label.label = "" ∨ (last.heap shape).label.item ∈ items) ∧
      ∀ item ∈ items, item.label ≠ "" ∧ item.checked = true := by
  have finished : (signalRun containsPoint c events).result = .ok last := by
    rw [signalRun_result]
    exact done
  have explained := signalRun_explains containsPoint c events last finished
  exact ⟨explained.known, explained.fresh, explained.named⟩

def labelledRectangle : List CanvasEvent :=
  [.changeDrawMode .rectangle, .mousePress ⟨0, 0⟩ true none, .mousePress ⟨20, 20⟩ true (some ("car", ⟨255, 0, 0⟩))]

theorem labelledRectangle_announced :
    ∃ last, run (handle fun _ _ => false) (loaded blankImage) labelledRectangle = .ok last ∧
      (last.heap 0).label.label = "car" ∧
      (last.heap 0).label.item ∈ (signalRun (fun _ _ => false) (loaded blankImage) labelledRectangle).entries := by
  have observed : (run (handle fun _ _ => false) (loaded blankImage) labelledRectangle).map
      (fun c => (c.next, (c.heap 0).label.label)) = .ok (1, "car") := by
    decide +kernel
  obtain ⟨last, done, seen⟩ := map_completes observed
  obtain ⟨allocated, labelled⟩ := Prod.mk.inj seen
  refine ⟨last, done, labelled, ?_⟩
  have made : 0 < last.next := by rw [allocated]; exact Nat.one_pos
  rcases (labels_announced _ _ last _ done).2.1 0 le_rfl made with blank | emitted
  · rw [labelled] at blank
    exact absurd blank (by decide)
  · exact emitted

end Canvas2D

end XYAnnotation

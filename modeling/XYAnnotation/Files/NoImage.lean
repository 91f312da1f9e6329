import XYAnnotation.Files.CarriedShapes

namespace XYAnnotation

open Library

/-- The canvas as an item of the scene: `scaleValue` is its own record of the scale, `scale` and `pos` are what the
    scene was told. -/
structure CanvasItem extends Canvas2D where
  scaleValue : ℚ
  scale : ℚ
  pos : QPointF

structure QSize where
  width : ℕ
  height : ℕ

/-- What can happen to the canvas from the start of the program on. `center` is the middle of the view in the scene. -/
inductive ItemEvent
  | canvas (event : CanvasEvent)
  | wheel (delta : ℤ) (pos : QPointF)
  | zoomIn
  | zoomOut
  | adjustFitWindow (size : QSize) (center : QPointF)
  | resize (size : QSize) (center : QPointF)
  | changeTask (task : TaskMode)
  | clean
  | loadImage (img : Option QImage) (size : QSize) (center : QPointF)
  | addAllOpened (shapes : List ShapeS) (colors : ℕ → QColor)

namespace CanvasItem

def fresh : CanvasItem := { Canvas2D.fresh with scaleValue := 1, scale := 1, pos := ⟨0, 0⟩ }

def scaleStep : ℚ := 1 / 20

def setScale (c : CanvasItem) (scaleValue : ℚ) : CanvasItem := { c with scaleValue, scale := scaleValue }

def zoomIn (c : CanvasItem) : CanvasItem :=
  if c.scaleValue ≥ 10 then c else c.setScale (c.scaleValue * (1 + scaleStep))

def zoomOut (c : CanvasItem) : CanvasItem :=
  if c.scaleValue ≤ scaleStep then c else c.setScale (c.scaleValue * (1 - scaleStep))

def wheelEvent (c : CanvasItem) (delta : ℤ) (pos : QPointF) : CanvasItem :=
  let lastScale := c.scaleValue
  let c := if delta > 0 then c.zoomIn else c.zoomOut
  if lastScale = c.scaleValue then c
  else
    let dir : ℚ := if delta > 0 then -1 else 1
    { c with pos := c.pos + (dir * lastScale * scaleStep) • pos }

/-- `setSize`. Without an image it throws after the scale has been reset, which the first component keeps. -/
def setSize (c : CanvasItem) (size : QSize) : CanvasItem × Except Fault CanvasItem :=
  let c := { c with scaleValue := 1 }
  (c, do
    let img ← c.getImage
    let a1 : ℚ := size.width / img.width
    let a2 : ℚ := size.height / img.height
    .ok (c.setScale ((if a1 < a2 then a1 else a2) * (98 / 100))))

def adjustFitWindow (c : CanvasItem) (size : QSize) (center : QPointF) : Except Fault CanvasItem := do
  let c ← (c.setSize size).2
  .ok { c with pos := center }

def resizeEvent (c : CanvasItem) (size : QSize) (center : QPointF) : CanvasItem :=
  match c.adjustFitWindow size center with
  | .ok c => c
  | .error _ => (c.setSize size).1

def loadImage (c : CanvasItem) (img : Option QImage) (size : QSize) (center : QPointF) : Except Fault CanvasItem := do
  let base ← c.setImage img
  adjustFitWindow { c with toCanvasBase := base } size center

def lift (c : CanvasItem) (changed : Except Fault Canvas2D) : Except Fault CanvasItem := do
  let canvas ← changed
  .ok { c with toCanvas2D := canvas }

section Step

variable (containsPoint : List QPointF → QPointF → Bool)

def step (c : CanvasItem) : ItemEvent → Except Fault CanvasItem
  | .canvas event => c.lift (c.handle containsPoint event)
  | .wheel delta pos => .ok (c.wheelEvent delta pos)
  | .zoomIn => .ok c.zoomIn
  | .zoomOut => .ok c.zoomOut
  | .adjustFitWindow size center => c.adjustFitWindow size center
  | .resize size center => .ok (c.resizeEvent size center)
  | .changeTask task => .ok { c with task }
  | .clean => .ok { c with toCanvas2D := c.toCanvas2D.clean }
  | .loadImage img size center => c.loadImage img size center
  | .addAllOpened shapes colors => c.lift (c.toCanvas2D.addAllOpened colors shapes)

end Step

end CanvasItem

inductive Handler
  | mousePressEvent (pos : QPointF) (leftButton : Bool) (reply : DialogReply)
  | mouseReleaseEvent (pos : QPointF)
  | mouseDoubleClickEvent (pos : QPointF) (leftButton : Bool) (reply : DialogReply)
  | hoverMoveEvent (pos : QPointF)
  | mouseMoveEvent (pos : QPointF)
  | keyPressEvent (enter : Bool) (reply : DialogReply)
  | wheelEvent (delta : ℤ) (pos : QPointF)
  | addShape

def Handler.event : Handler → ItemEvent
  | .mousePressEvent pos leftButton reply => .canvas (.mousePress pos leftButton reply)
  | .mouseReleaseEvent pos => .canvas (.mouseRelease pos)
  | .mouseDoubleClickEvent pos leftButton reply => .canvas (.mouseDoubleClick pos leftButton reply)
  | .hoverMoveEvent pos => .canvas (.hoverMove pos)
  | .mouseMoveEvent pos => .canvas (.mouseMove pos)
  | .keyPressEvent enter reply => .canvas (.keyPress enter reply)
  | .wheelEvent delta pos => .wheel delta pos
  | .addShape => .canvas .creatPolygon

namespace CanvasItem

variable {containsPoint : List QPointF → QPointF → Bool} {c d : CanvasItem}

def Harmless (containsPoint : List QPointF → QPointF → Bool) (c : CanvasItem) (handler : Handler) : Prop :=
  ∃ d, c.step containsPoint handler.event = .ok d ∧ d.shapeList = c.shapeList

/-- The handler does not come to `getImage` outside of its own `try`, nor to the shape under an index that `clean`
    has left behind. -/
def NeedsNoImage (c : CanvasItem) : Handler → Prop
  | .mousePressEvent _ _ _ | .addShape => False
  | .mouseDoubleClickEvent _ _ _ => c.task = .segmentation ∧ c.operat = .draw ∧ c.currentIndex = -1
  | .keyPressEvent enter _ => enter = true → c.task = .segmentation → c.operat = .draw → c.currentIndex = -1
  | .mouseReleaseEvent _ | .hoverMoveEvent _ | .mouseMoveEvent _ | .wheelEvent _ _ => True

theorem lift_completes {changed : Except Fault Canvas2D} (done : c.lift changed = .ok d) :
    changed = .ok d.toCanvas2D := by
  obtain ⟨canvas, made, rest⟩ := bind_completes done
  cases rest
  exact made

theorem setScale_canvas (c : CanvasItem) (scaleValue : ℚ) : (c.setScale scaleValue).toCanvas2D = c.toCanvas2D := rfl

theorem zoomIn_canvas (c : CanvasItem) : c.zoomIn.toCanvas2D = c.toCanvas2D := by
  unfold zoomIn
  split
  · rfl
  · exact setScale_canvas c _

theorem zoomOut_canvas (c : CanvasItem) : c.zoomOut.toCanvas2D = c.toCanvas2D := by
  unfold zoomOut
  split
  · rfl
  · exact setScale_canvas c _

theorem wheelEvent_canvas (c : CanvasItem) (delta : ℤ) (pos : QPointF) :
    (c.wheelEvent delta pos).toCanvas2D = c.toCanvas2D := by
  have zoomed : (if delta > 0 then c.zoomIn else c.zoomOut).toCanvas2D = c.toCanvas2D := by
    split
    · exact zoomIn_canvas c
    · exact zoomOut_canvas c
  unfold wheelEvent
  generalize (if delta > 0 then c.zoomIn else c.zoomOut) = zoomed' at zoomed
  simp only
  split
  · exact zoomed
  · exact zoomed

theorem adjustFitWindow_canvas {size : QSize} {center : QPointF} (adjusted : c.adjustFitWindow size center = .ok d) :
    d.toCanvas2D = c.toCanvas2D := by
  obtain ⟨sized, done, rest⟩ := bind_completes adjusted
  cases rest
  obtain ⟨img, _, done⟩ := bind_completes done
  cases done
  rfl

theorem resizeEvent_canvas (c : CanvasItem) (size : QSize) (center : QPointF) :
    (c.resizeEvent size center).toCanvas2D = c.toCanvas2D := by
  unfold resizeEvent
  split
  · rename_i adjusted
    exact adjustFitWindow_canvas adjusted
  · rfl

theorem loadImage_image {img : Option QImage} {size : QSize} {center : QPointF}
    (loaded : c.loadImage img size center = .ok d) : d.image ≠ none := by
  obtain ⟨base, set, adjusted⟩ := bind_completes loaded
  rw [adjustFitWindow_canvas adjusted]
  cases img with
  | none => cases set
  | some img =>
    cases set
    exact Option.some_ne_none img

theorem addAllOpened_unloaded {c d : Canvas2D} {shapes : List ShapeS} {colors : ℕ → QColor}
    (image : c.image = none) (added : c.addAllOpened colors shapes = .ok d) : d = c := by
  cases shapes with
  | nil =>
    cases added
    rfl
  | cons shape shapes =>
    obtain ⟨middle, first, _⟩ := bind_completes added
    unfold Canvas2D.addOpened at first
    split at first
    · cases first
    · obtain ⟨img, read, _⟩ := bind_completes first
      rw [CanvasBase.getImage, image] at read
      cases read

/-- A canvas without an image has no shapes and nothing to undo or redo. -/
def EmptyWithoutImage (c : CanvasItem) : Prop := c.image = none → c.Unloaded

theorem EmptyWithoutImage.of_same (empty : c.EmptyWithoutImage) (same : d.toCanvas2D = c.toCanvas2D) :
    d.EmptyWithoutImage := by
  unfold EmptyWithoutImage
  rw [same]
  exact empty

theorem EmptyWithoutImage.step {event : ItemEvent} (empty : c.EmptyWithoutImage)
    (taken : c.step containsPoint event = .ok d) : d.EmptyWithoutImage := by
  cases event with
  | canvas event =>
    have handled := lift_completes taken
    intro none
    have before : c.image = Option.none := (Canvas2D.handle_sameView handled).image.symm.trans none
    exact (empty before).handle handled
  | wheel delta pos =>
    cases taken
    exact empty.of_same (wheelEvent_canvas c delta pos)
  | zoomIn =>
    cases taken
    exact empty.of_same (zoomIn_canvas c)
  | zoomOut =>
    cases taken
    exact empty.of_same (zoomOut_canvas c)
  | adjustFitWindow size center => exact empty.of_same (adjustFitWindow_canvas taken)
  | resize size center =>
    cases taken
    exact empty.of_same (resizeEvent_canvas c size center)
  | changeTask task =>
    cases taken
    intro none
    exact ⟨none, (empty none).shapeList, (empty none).done, (empty none).undone⟩
  | clean =>
    cases taken
    exact fun _ => ⟨rfl, rfl, rfl, rfl⟩
  | loadImage img size center => exact fun none => absurd none (loadImage_image taken)
  | addAllOpened shapes colors =>
    have added := lift_completes taken
    intro none
    have before : c.image = Option.none := (Window.addAllOpened_image added).symm.trans none
    rw [addAllOpened_unloaded before added]
    exact empty before

section Unloaded

variable {pos : QPointF} {leftButton enter : Bool} {reply : DialogReply}

theorem currentShape_unset {c : CanvasBase} (unset : c.currentIndex = -1) : c.currentShape = .ok none := by
  rw [CanvasBase.currentShape, if_pos unset]

theorem currentIndex_unset {c : CanvasBase} {shape : ShapePtr} (empty : c.shapeList = [])
    (read : c.currentShape = .ok shape) : c.currentIndex = -1 := by
  unfold CanvasBase.currentShape at read
  split at read
  · assumption
  · obtain ⟨_, found, _⟩ := bind_completes read
    rw [empty] at found
    obtain ⟨_, missing⟩ := QVector.at_completes found
    cases missing

theorem mouseDoubleClick_unloaded {c : Canvas2D} (unloaded : c.Unloaded) :
    (∃ d, c.mouseDoubleClickEvent containsPoint pos leftButton reply = .ok d) ↔
      c.task = .segmentation ∧ c.operat = .draw ∧ c.currentIndex = -1 := by
  unfold Canvas2D.mouseDoubleClickEvent
  constructor
  · rintro ⟨d, clicked⟩
    split at clicked
    · rename_i task operat
      obtain ⟨shape, current, _⟩ := bind_completes clicked
      exact ⟨task, operat, currentIndex_unset unloaded.shapeList current⟩
    · exact absurd clicked unloaded.mousePress
  · rintro ⟨task, operat, unset⟩
    rw [task, operat, currentShape_unset unset]
    exact ⟨c, rfl⟩

theorem keyPress_unloaded {c : Canvas2D} (unloaded : c.Unloaded) :
    (∃ d, c.keyPressEvent enter reply = .ok d) ↔
      (enter = true → c.task = .segmentation → c.operat = .draw → c.currentIndex = -1) := by
  unfold Canvas2D.keyPressEvent
  constructor
  · rintro ⟨d, pressed⟩ rfl task operat
    rw [task, operat] at pressed
    obtain ⟨shape, current, _⟩ := bind_completes pressed
    exact currentIndex_unset unloaded.shapeList current
  · intro unset
    split
    · rename_i task operat
      rw [currentShape_unset (unset rfl task operat)]
      exact ⟨c, rfl⟩
    · exact ⟨c, rfl⟩

theorem harmless_canvas (unloaded : c.Unloaded) {event : CanvasEvent} :
    (∃ d, c.step containsPoint (.canvas event) = .ok d ∧ d.shapeList = c.shapeList) ↔
      ∃ canvas, c.handle containsPoint event = .ok canvas := by
  constructor
  · rintro ⟨d, taken, _⟩
    exact ⟨d.toCanvas2D, lift_completes taken⟩
  · rintro ⟨canvas, handled⟩
    refine ⟨{ c with toCanvas2D := canvas }, ?_, ?_⟩
    · rw [step, handled]
      rfl
    · exact (unloaded.handle handled).shapeList.trans unloaded.shapeList.symm

theorem harmless_iff (unloaded : c.Unloaded) (handler : Handler) :
    c.Harmless containsPoint handler ↔ c.NeedsNoImage handler := by
  unfold Harmless
  cases handler with
  | mousePressEvent pos leftButton reply =>
    refine (harmless_canvas unloaded).trans ⟨?_, False.elim⟩
    rintro ⟨canvas, pressed⟩
    exact unloaded.mousePress pressed
  | mouseReleaseEvent pos =>
    refine (harmless_canvas unloaded).trans (iff_of_true ⟨c.toCanvas2D, ?_⟩ trivial)
    rw [Canvas2D.handle, Canvas2D.mouseReleaseEvent, unloaded.image]
  | mouseDoubleClickEvent pos leftButton reply =>
    exact (harmless_canvas unloaded).trans (mouseDoubleClick_unloaded unloaded)
  | hoverMoveEvent pos =>
    refine (harmless_canvas unloaded).trans (iff_of_true ⟨c.toCanvas2D, ?_⟩ trivial)
    rw [Canvas2D.handle, Canvas2D.hoverMoveEvent, unloaded.image]
  | mouseMoveEvent pos =>
    refine (harmless_canvas unloaded).trans (iff_of_true ⟨c.toCanvas2D, ?_⟩ trivial)
    rw [Canvas2D.handle, Canvas2D.mouseMoveEvent, unloaded.image]
  | keyPressEvent enter reply => exact (harmless_canvas unloaded).trans (keyPress_unloaded unloaded)
  | wheelEvent delta pos =>
    refine iff_of_true ⟨_, rfl, ?_⟩ trivial
    rw [wheelEvent_canvas]
  | addShape =>
    refine (harmless_canvas unloaded).trans ⟨?_, False.elim⟩
    rintro ⟨canvas, added⟩
    obtain ⟨img, image, _⟩ := Canvas2D.addShape_completes added
    exact unloaded.image_ne image

end Unloaded

/-- In every state that a run reaches without an image, exactly the handlers that need none return and keep the list
    of shapes. -/
theorem handler_without_image_iff (containsPoint : List QPointF → QPointF → Bool) (events : List ItemEvent)
    (c : CanvasItem) (reached : run (step containsPoint) fresh events = .ok c) (image : c.image = none)
    (handler : Handler) : c.Harmless containsPoint handler ↔ c.NeedsNoImage handler := by
  have start : fresh.EmptyWithoutImage := fun _ => ⟨rfl, rfl, rfl, rfl⟩
  have always : Along (step containsPoint) (fun _ _ => True) fresh events :=
    along_of_forall _ (fun _ _ _ => trivial) _
  have empty := visited_invariant (fun _ _ _ before _ taken => EmptyWithoutImage.step before taken) start always
    c (run_mem_visited reached)
  exact harmless_iff (empty image) handler

theorem wheel_after_clean :
    ∃ c, run (step fun _ _ => false) fresh [.loadImage (some Canvas2D.blankImage) ⟨640, 512⟩ ⟨0, 0⟩, .clean] = .ok c ∧
      c.image = none ∧ c.Harmless (fun _ _ => false) (.wheelEvent 120 ⟨0, 0⟩) ∧
      ¬ c.Harmless (fun _ _ => false) (.mousePressEvent ⟨0, 0⟩ true none) := by
  obtain ⟨c, ran, image⟩ : ∃ c, run (step fun _ _ => false) fresh
      [.loadImage (some Canvas2D.blankImage) ⟨640, 512⟩ ⟨0, 0⟩, .clean] = .ok c ∧ c.image = none := ⟨_, rfl, rfl⟩
  have judged := handler_without_image_iff _ _ c ran image
  exact ⟨c, ran, image, (judged _).mpr trivial, (judged _).not.mpr id⟩

/-- A press before any image is loaded lets the exception of `getImage` out. -/
theorem press_without_image :
    run (step fun _ _ => false) fresh [] = .ok fresh ∧ fresh.image = none ∧
      fresh.step (fun _ _ => false) (Handler.mousePressEvent ⟨0, 0⟩ true none).event = .error .imageIsNull ∧
      ¬ fresh.Harmless (fun _ _ => false) (.mousePressEvent ⟨0, 0⟩ true none) := by
  have thrown : fresh.step (fun _ _ => false) (Handler.mousePressEvent ⟨0, 0⟩ true none).event = .error .imageIsNull :=
    rfl
  refine ⟨rfl, rfl, thrown, ?_⟩
  rintro ⟨d, taken, _⟩
  rw [thrown] at taken
  cases taken

end CanvasItem

end XYAnnotation

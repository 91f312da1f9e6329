import XYAnnotation.Canvas.PaintedShapes
import XYAnnotation.Canvas.Display

namespace XYAnnotation

open Library Drawing QPainter

namespace CanvasBase

variable {c : CanvasBase} {crossPos : QPointF} {pictures : List (Option Picture)}

def imgRectF (c : CanvasBase) : QRectF :=
  match c.image with
  | none => ⟨⟨-640, -512⟩, 320, 256⟩
  | some img => ⟨⟨-(img.width / 2 : ℕ), -(img.height / 2 : ℕ)⟩, (img.width / 2 : ℕ), (img.height / 2 : ℕ)⟩

def boundingRect (c : CanvasBase) : QRectF :=
  match c.image with
  | none => ⟨⟨-320, -256⟩, 640, 512⟩
  | some img => ⟨⟨-(img.width / 2 : ℕ), -(img.height / 2 : ℕ)⟩, img.width, img.height⟩

/-- The cross is asked for while there is no image. -/
structure CrossesNothing (c : CanvasBase) : Prop where
  task : c.task = .segmentation
  operat : c.operat = .draw
  draw : c.draw = .rectangle
  image : c.image = none

theorem drawCross_leaks (image : c.image = none) (painter : Device PaintContext Mark) :
    (c.drawCross crossPos).runOn painter =
      (.error .imageIsNull, { painter with saved := painter.context :: painter.saved }) := by
  unfold drawCross crossLines
  rw [CanvasBase.getImage, image]
  rfl

theorem paintShapes_leaks (crossPos : QPointF) (nothing : c.CrossesNothing) (drawn : c.drawShape = .ok pictures)
    (painter : Device PaintContext Mark) :
    ∃ context left, (c.paintShapes crossPos).runOn painter = (.ok (), left) ∧ left.saved = context :: painter.saved := by
  let after := (Effect.all (c.shapeList.map c.shapeEffect)).on painter
  have shapes : (c.shapeList.forM c.paintShape).runOn painter = (.ok (), after) :=
    shapes_paint nothing.task drawn painter
  have all : (c.paintAll crossPos).runOn painter =
      (.error .imageIsNull, { after with saved := after.context :: after.saved }) := by
    unfold paintAll
    simp only [nothing.task, nothing.operat, nothing.draw, if_true]
    rw [runOn_bind, shapes]
    exact drawCross_leaks nothing.image after
  refine ⟨after.context, { after with saved := after.context :: after.saved }, ?_, rfl⟩
  unfold paintShapes
  rw [runOn_catching, all]
  rfl

theorem paintShapes_balanced (crossPos : QPointF) (crosses : ¬ c.CrossesNothing) (drawn : c.drawShape = .ok pictures) :
    ∃ e, Paints (c.paintShapes crossPos) e := by
  cases task : c.task with
  | detection =>
    have nothing : Paints (c.paintAll crossPos) .none := by
      unfold paintAll
      simp only [task]
      exact Paints.pure
    exact ⟨_, nothing.catching _⟩
  | segmentation =>
    cases image : c.image with
    | some img => exact ⟨_, paintShapes_paints image task drawn⟩
    | none =>
      have shapes := shapes_paint task drawn
      have only : ∃ e, Paints (c.paintAll crossPos) e := by
        unfold paintAll
        cases operat : c.operat with
        | edit =>
          simp only [task]
          exact ⟨_, shapes⟩
        | draw =>
          have other : c.draw ≠ .rectangle := fun rectangle => crosses ⟨task, operat, rectangle, image⟩
          simp only [task, other, if_false]
          exact ⟨_, shapes.bind Paints.pure⟩
      obtain ⟨e, paints⟩ := only
      exact ⟨e, paints.catching _⟩

end CanvasBase

namespace Display

def paint (c : Display) (crossPos : QPointF) : Painting Unit :=
  match c.disImg with
  | none => put fun _ => .white c.boundingRect
  | some img => do
    put fun _ => .image c.imgRectF.topLeft img
    c.paintShapes crossPos

variable {c d : Display} {mode : DrawMode} {toRgb888 : QImage → QImage} {level : ℤ → ℤ → UInt8 → ℤ}

theorem image_paints (c : Display) (img : QImage) :
    Paints (put fun _ => .image c.imgRectF.topLeft img : Painting Unit) (.put fun _ => .image c.imgRectF.topLeft img) :=
  put_paints _

/-- The painter is given back with the contexts that were saved. -/
def Balanced (c : Display) : Prop :=
  ∀ crossPos painter, ((c.paint crossPos).runOn painter).2.saved = painter.saved

theorem balanced_iff {pictures : List (Option Picture)} (drawn : c.drawShape = .ok pictures) :
    c.Balanced ↔ c.disImg = none ∨ ¬ c.CrossesNothing := by
  unfold Balanced paint
  cases shown : c.disImg with
  | none =>
    refine iff_of_true ?_ (.inl rfl)
    intro crossPos painter
    rfl
  | some img =>
    by_cases nothing : c.CrossesNothing
    · refine iff_of_false ?_ (by simp [nothing])
      intro balanced
      have found := balanced ⟨0, 0⟩ CanvasBase.newPainter
      simp only at found
      rw [runOn_bind, c.image_paints img] at found
      simp only at found
      obtain ⟨context, left, ran, saved⟩ := CanvasBase.paintShapes_leaks ⟨0, 0⟩ nothing drawn
        ((Effect.put fun _ => .image c.imgRectF.topLeft img).on CanvasBase.newPainter)
      rw [ran] at found
      rw [saved] at found
      cases found
    · refine iff_of_true ?_ (.inr nothing)
      intro crossPos painter
      obtain ⟨e, paints⟩ := CanvasBase.paintShapes_balanced crossPos nothing drawn
      have both := (c.image_paints img).bind paints
      rw [both painter]
      rfl

structure Blank (mode : DrawMode) (c : Display) : Prop where
  task : c.task = .segmentation
  operat : c.operat = .draw
  draw : c.draw = mode
  shapeList : c.shapeList = []
  shown : c.disImg = none → c.image = none

def opened (mode : DrawMode) : Display := { fresh with draw := mode }

theorem Blank.balanced_iff (blank : c.Blank mode) : c.Balanced ↔ c.disImg = none ∨ mode ≠ .rectangle ∨ c.image ≠ none := by
  have drawn : c.drawShape = .ok [] := by
    rw [CanvasBase.drawShape_shapes blank.task, blank.shapeList]
    rfl
  rw [Display.balanced_iff drawn]
  refine or_congr_right ?_
  constructor
  · intro crosses
    by_cases rectangle : mode = .rectangle
    · refine .inr fun image => crosses ?_
      exact ⟨blank.task, blank.operat, blank.draw.trans rectangle, image⟩
    · exact .inl rectangle
  · rintro (other | image) nothing
    · exact other (blank.draw.symm.trans nothing.draw)
    · exact image nothing.image

/-- The canvas is not cleaned of an image while rectangles are drawn. -/
def CleansBare (c : Display) : DisplayCall → Prop
  | .clean => c.draw = .rectangle → c.image = none
  | _ => True

theorem Blank.call {made : DisplayCall} (blank : c.Blank mode) (balanced : c.Balanced)
    (done : c.call toRgb888 level made = .ok d) : d.Blank mode ∧ (d.Balanced ↔ c.CleansBare made) := by
  have kept : c.disImg = none ∨ mode ≠ .rectangle ∨ c.image ≠ none := blank.balanced_iff.mp balanced
  cases made with
  | setImage img =>
    cases done
    have next : Blank mode { c with image := some img, disImg := some img } :=
      ⟨blank.task, blank.operat, blank.draw, blank.shapeList, fun missing => by cases missing⟩
    exact ⟨next, iff_of_true (next.balanced_iff.mpr (.inr (.inr (by simp)))) trivial⟩
  | setBrightness brightness =>
    cases done
    have next : Blank mode (c.setBrightness toRgb888 level brightness) :=
      ⟨blank.task, blank.operat, blank.draw, blank.shapeList, fun missing => Option.map_eq_none_iff.mp missing⟩
    refine ⟨next, iff_of_true (next.balanced_iff.mpr ?_) trivial⟩
    cases image : c.image with
    | none => exact .inl (Option.map_eq_none_iff.mpr image)
    | some img => exact .inr (.inr (by simp [setBrightness, image]))
  | setContrast contrast =>
    cases done
    have next : Blank mode (c.setContrast toRgb888 level contrast) :=
      ⟨blank.task, blank.operat, blank.draw, blank.shapeList, fun missing => Option.map_eq_none_iff.mp missing⟩
    refine ⟨next, iff_of_true (next.balanced_iff.mpr ?_) trivial⟩
    cases image : c.image with
    | none => exact .inl (Option.map_eq_none_iff.mpr image)
    | some img => exact .inr (.inr (by simp [setContrast, image]))
  | clean =>
    cases done
    have next : Blank mode c.clean := ⟨blank.task, blank.operat, blank.draw, rfl, fun _ => rfl⟩
    refine ⟨next, ?_⟩
    rw [next.balanced_iff]
    constructor
    · rintro (missing | other | image) rectangle
      · exact blank.shown missing
      · exact absurd (blank.draw.symm.trans rectangle) other
      · exact absurd rfl image
    · intro bare
      by_cases rectangle : mode = .rectangle
      · have image := bare (blank.draw.trans rectangle)
        rcases kept with missing | other | shown
        · exact .inl missing
        · exact absurd rectangle other
        · exact absurd image shown
      · exact .inr (.inl rectangle)

/-- Painting gives the painter back with the contexts that were saved, in every state of a run, exactly when the canvas is
    never cleaned of an image while rectangles are drawn. -/
theorem always_balanced_iff (toRgb888 : QImage → QImage) (level : ℤ → ℤ → UInt8 → ℤ) (mode : DrawMode)
    (calls : List DisplayCall) :
    (∀ reached ∈ visited (call toRgb888 level) (opened mode) calls, reached.Balanced) ↔
      Along (call toRgb888 level) CleansBare (opened mode) calls := by
  have blank : Blank mode (opened mode) := ⟨rfl, rfl, rfl, rfl, fun _ => rfl⟩
  apply visited_invariant_iff (Blank mode)
  · intro c made d before balanced done
    exact before.call balanced done
  · exact blank
  · exact blank.balanced_iff.mpr (.inl rfl)

end Display

end XYAnnotation

import XYAnnotation.Files.Zoom

namespace XYAnnotation

open Library

namespace CanvasItem

/-- The scale at which an image fills most of a view. -/
def fitScale (img : QImage) (size : QSize) : ℚ :=
  (if (size.width / img.width : ℚ) < size.height / img.height then (size.width / img.width : ℚ)
    else size.height / img.height) * (98 / 100)

variable {containsPoint : List QPointF → QPointF → Bool} {c d : CanvasItem}

section Fitting

variable {size : QSize} {center : QPointF}

theorem adjustFitWindow_some {img : QImage} (image : c.image = some img) (size : QSize) (center : QPointF) :
    c.adjustFitWindow size center = .ok { c.setScale (fitScale img size) with pos := center } := by
  have read : c.getImage = .ok img := by rw [CanvasBase.getImage, image]
  simp only [adjustFitWindow, setSize, fitScale]
  rw [show CanvasBase.getImage _ = _ from read]
  rfl

theorem adjustFitWindow_none (image : c.image = none) (size : QSize) (center : QPointF) :
    c.adjustFitWindow size center = .error .imageIsNull := by
  have read : c.getImage = .error .imageIsNull := by rw [CanvasBase.getImage, image]
  simp only [adjustFitWindow, setSize]
  rw [show CanvasBase.getImage _ = _ from read]
  rfl

theorem resizeEvent_some {img : QImage} (image : c.image = some img) (size : QSize) (center : QPointF) :
    c.resizeEvent size center = { c.setScale (fitScale img size) with pos := center } := by
  rw [resizeEvent, adjustFitWindow_some image]

theorem resizeEvent_none (image : c.image = none) (size : QSize) (center : QPointF) :
    c.resizeEvent size center = { c with scaleValue := 1 } := by
  rw [resizeEvent, adjustFitWindow_none image]
  rfl

theorem loadImage_some {img : Option QImage} (loaded : c.loadImage img size center = .ok d) :
    ∃ shown base, img = some shown ∧
      d = { (setScale { c with toCanvasBase := base } (fitScale shown size)) with pos := center } := by
  obtain ⟨base, set, adjusted⟩ := bind_completes loaded
  cases img with
  | none => cases set
  | some shown =>
    cases set
    have image : some shown = some shown := rfl
    rw [adjustFitWindow_some image] at adjusted
    cases adjusted
    exact ⟨shown, _, rfl, rfl⟩

end Fitting

section Steps

variable {event : ItemEvent}

/-- Without an image a fit sets the record back to 1 and tells the scene nothing. -/
def KeepsScale (c : CanvasItem) : ItemEvent → Prop
  | .resize _ _ => c.image = none → c.scale = 1
  | _ => True

theorem setScale_scaled (c : CanvasItem) (scaleValue : ℚ) : (c.setScale scaleValue).Scaled := rfl

theorem lift_view {changed : Except Fault Canvas2D} (done : c.lift changed = .ok d) :
    d.scaleValue = c.scaleValue ∧ d.scale = c.scale ∧ d.pos = c.pos := by
  obtain ⟨canvas, _, rest⟩ := bind_completes done
  cases rest
  exact ⟨rfl, rfl, rfl⟩

theorem lift_scaled {changed : Except Fault Canvas2D} (scaled : c.Scaled) (done : c.lift changed = .ok d) : d.Scaled := by
  obtain ⟨value, scale, _⟩ := lift_view done
  unfold Scaled
  rw [value, scale]
  exact scaled

theorem zoomIn_scaled (scaled : c.Scaled) : c.zoomIn.Scaled := by
  unfold zoomIn
  split
  · exact scaled
  · exact setScale_scaled c _

theorem zoomOut_scaled (scaled : c.Scaled) : c.zoomOut.Scaled := by
  unfold zoomOut
  split
  · exact scaled
  · exact setScale_scaled c _

theorem step_scaled_iff (scaled : c.Scaled) (taken : c.step containsPoint event = .ok d) :
    d.Scaled ↔ c.KeepsScale event := by
  cases event with
  | canvas event => exact iff_of_true (lift_scaled scaled taken) trivial
  | wheel delta pos =>
    cases taken
    exact iff_of_true (wheelEvent_scaled scaled delta pos) trivial
  | zoomIn =>
    cases taken
    exact iff_of_true (zoomIn_scaled scaled) trivial
  | zoomOut =>
    cases taken
    exact iff_of_true (zoomOut_scaled scaled) trivial
  | adjustFitWindow size center =>
    change c.adjustFitWindow size center = .ok d at taken
    refine iff_of_true ?_ trivial
    cases image : c.image with
    | none =>
      rw [adjustFitWindow_none image] at taken
      cases taken
    | some img =>
      rw [adjustFitWindow_some image] at taken
      cases taken
      rfl
  | resize size center =>
    cases taken
    cases image : c.image with
    | none =>
      rw [resizeEvent_none image]
      simp only [Scaled, KeepsScale, image, forall_const]
    | some img =>
      rw [resizeEvent_some image]
      refine iff_of_true rfl ?_
      intro none
      exact absurd (image.symm.trans none) (Option.some_ne_none img)
  | changeTask task =>
    cases taken
    exact iff_of_true scaled trivial
  | clean =>
    cases taken
    exact iff_of_true scaled trivial
  | loadImage img size center =>
    obtain ⟨shown, base, _, rfl⟩ := loadImage_some taken
    exact iff_of_true rfl trivial
  | addAllOpened shapes colors => exact iff_of_true (lift_scaled scaled taken) trivial

end Steps

/-- The record of the scale and the scene stay in step as long as the window is not resized while no image is shown
    and the scene is zoomed. -/
theorem scale_in_step_iff (containsPoint : List QPointF → QPointF → Bool) (events : List ItemEvent) :
    (∀ reached ∈ visited (step containsPoint) fresh events, reached.Scaled) ↔
      Along (step containsPoint) KeepsScale fresh events := by
  apply visited_invariant_iff (fun _ => True)
  · intro c event d _ scaled taken
    exact ⟨trivial, step_scaled_iff scaled taken⟩
  · trivial
  · rfl

section Limits

variable {event : ItemEvent}

/-- A fit that has an image to fit gives a scale within the limits of the zoom. -/
def FitsInLimits (c : CanvasItem) : ItemEvent → Prop
  | .adjustFitWindow size _ | .resize size _ => ∀ img ∈ c.image, (c.setScale (fitScale img size)).InLimits
  | .loadImage img size _ => ∀ shown ∈ img, (c.setScale (fitScale shown size)).InLimits
  | _ => True

theorem InLimits.of_value (inLimits : c.InLimits) (same : d.scaleValue = c.scaleValue) : d.InLimits := by
  unfold InLimits
  rw [same]
  exact inLimits

theorem inLimits_congr (same : d.scaleValue = c.scaleValue) : d.InLimits ↔ c.InLimits := by
  unfold InLimits
  rw [same]

theorem InLimits.zoomIn (inLimits : c.InLimits) : c.zoomIn.InLimits := by
  obtain ⟨low, high⟩ := inLimits
  unfold CanvasItem.zoomIn
  split
  · exact ⟨low, high⟩
  · rename_i smaller
    have below : c.scaleValue < 10 := not_le.mp smaller
    change 475 / 10000 < c.scaleValue * (1 + scaleStep) ∧ c.scaleValue * (1 + scaleStep) < 105 / 10
    unfold scaleStep
    constructor
    · linarith
    · linarith

theorem InLimits.zoomOut (inLimits : c.InLimits) : c.zoomOut.InLimits := by
  obtain ⟨low, high⟩ := inLimits
  unfold CanvasItem.zoomOut
  split
  · exact ⟨low, high⟩
  · rename_i larger
    have above : scaleStep < c.scaleValue := not_le.mp larger
    change 475 / 10000 < c.scaleValue * (1 - scaleStep) ∧ c.scaleValue * (1 - scaleStep) < 105 / 10
    unfold scaleStep at above ⊢
    constructor
    · linarith
    · linarith

theorem wheelEvent_scaleValue (c : CanvasItem) (delta : ℤ) (pos : QPointF) :
    (c.wheelEvent delta pos).scaleValue = (if delta > 0 then c.zoomIn else c.zoomOut).scaleValue := by
  unfold wheelEvent
  generalize (if delta > 0 then c.zoomIn else c.zoomOut) = zoomed
  simp only
  split
  · rfl
  · rfl

theorem InLimits.wheelEvent (inLimits : c.InLimits) (delta : ℤ) (pos : QPointF) :
    (c.wheelEvent delta pos).InLimits := by
  apply of_value _ (wheelEvent_scaleValue c delta pos)
  split
  · exact inLimits.zoomIn
  · exact inLimits.zoomOut

theorem step_inLimits_iff (inLimits : c.InLimits) (taken : c.step containsPoint event = .ok d) :
    d.InLimits ↔ c.FitsInLimits event := by
  cases event with
  | canvas event => exact iff_of_true (inLimits.of_value (lift_view taken).1) trivial
  | wheel delta pos =>
    cases taken
    exact iff_of_true (inLimits.wheelEvent delta pos) trivial
  | zoomIn =>
    cases taken
    exact iff_of_true inLimits.zoomIn trivial
  | zoomOut =>
    cases taken
    exact iff_of_true inLimits.zoomOut trivial
  | adjustFitWindow size center =>
    change c.adjustFitWindow size center = .ok d at taken
    cases image : c.image with
    | none =>
      rw [adjustFitWindow_none image] at taken
      cases taken
    | some img =>
      rw [adjustFitWindow_some image] at taken
      cases taken
      simp only [FitsInLimits, image, Option.mem_some_iff, forall_eq']
      exact inLimits_congr rfl
  | resize size center =>
    cases taken
    cases image : c.image with
    | none =>
      rw [resizeEvent_none image]
      simp only [FitsInLimits, image]
      refine iff_of_true ?_ (by simp)
      constructor
      · norm_num
      · norm_num
    | some img =>
      rw [resizeEvent_some image]
      simp only [FitsInLimits, image, Option.mem_some_iff, forall_eq']
      exact inLimits_congr rfl
  | changeTask task =>
    cases taken
    exact iff_of_true inLimits trivial
  | clean =>
    cases taken
    exact iff_of_true inLimits trivial
  | loadImage img size center =>
    obtain ⟨shown, base, rfl, rfl⟩ := loadImage_some taken
    simp only [FitsInLimits, Option.mem_some_iff, forall_eq']
    exact inLimits_congr rfl
  | addAllOpened shapes colors => exact iff_of_true (inLimits.of_value (lift_view taken).1) trivial

end Limits

/-- Only a fit can bring the scale out of the limits of the zoom. -/
theorem scale_in_limits_iff (containsPoint : List QPointF → QPointF → Bool) (events : List ItemEvent) :
    (∀ reached ∈ visited (step containsPoint) fresh events, reached.InLimits) ↔
      Along (step containsPoint) FitsInLimits fresh events := by
  apply visited_invariant_iff (fun _ => True)
  · intro c event d _ inLimits taken
    exact ⟨trivial, step_inLimits_iff inLimits taken⟩
  · trivial
  · constructor
    · norm_num [fresh]
    · norm_num [fresh]

section Shown

def drawnImage (img : QImage) (point : QPointF) : Prop :=
  -(img.width / 2 : ℕ) ≤ point.x ∧ point.x ≤ -(img.width / 2 : ℕ) + img.width ∧
    -(img.height / 2 : ℕ) ≤ point.y ∧ point.y ≤ -(img.height / 2 : ℕ) + img.height

/-- The view: its size, the size of its viewport, which the frame leaves, and the point of the scene in the corner of the
    viewport. -/
structure Viewport where
  size : QSize
  shown : QSize
  corner : QPointF

namespace Viewport

variable (view : Viewport)

def center : QPointF :=
  view.corner + ⟨((view.size.width - 1 : ℤ).tdiv 2 : ℤ), ((view.size.height - 1 : ℤ).tdiv 2 : ℤ)⟩

def Shows (point : QPointF) : Prop :=
  view.corner.x ≤ point.x ∧ point.x ≤ view.corner.x + view.shown.width ∧
    view.corner.y ≤ point.y ∧ point.y ≤ view.corner.y + view.shown.height

def Fits : ItemEvent → Prop
  | .adjustFitWindow size center | .resize size center | .loadImage _ size center =>
    size = view.size ∧ center = view.center
  | _ => False

end Viewport

/-- The events that leave the image and its place in the view alone. -/
def Still : ItemEvent → Prop
  | .canvas _ | .changeTask _ | .addAllOpened _ _ => True
  | _ => False

/-- The margin of a fit holds the frame of the view. Where the two halves of the image differ by a pixel, half of the
    margin goes to that pixel. -/
def Framed (pixels side shown : ℕ) : Prop :=
  100 ≤ side ∧ (Even pixels ∧ 99 * side ≤ 100 * shown ∨ 99 ≤ pixels ∧ 199 * side ≤ 200 * shown)
  deriving Decidable

theorem right_half_shown {pixels side shown : ℕ} {scale : ℚ} (positive : 0 ≤ scale)
    (fits : scale * pixels ≤ 98 / 100 * side) (framed : Framed pixels side shown) :
    side + scale * (2 * (-((pixels / 2 : ℕ) : ℚ) + pixels)) ≤ 2 * shown := by
  rcases framed.2 with ⟨even, frame⟩ | ⟨many, frame⟩
  · have halves : 2 * ((pixels / 2 : ℕ) : ℚ) = pixels := by exact_mod_cast Nat.two_mul_div_two_of_even even
    have frame' : 99 * (side : ℚ) ≤ 100 * shown := by exact_mod_cast frame
    rw [show 2 * (-((pixels / 2 : ℕ) : ℚ) + pixels) = pixels by linarith]
    linarith
  · have whole : 99 * (2 * pixels) ≤ 100 * pixels + 99 * (2 * (pixels / 2)) := by omega
    have whole' : 99 * (2 * (pixels : ℚ)) ≤ 100 * pixels + 99 * (2 * ((pixels / 2 : ℕ) : ℚ)) := by
      exact_mod_cast whole
    have wider : 99 * (2 * (-((pixels / 2 : ℕ) : ℚ) + pixels)) ≤ 100 * pixels := by linarith
    have frame' : 199 * (side : ℚ) ≤ 200 * shown := by exact_mod_cast frame
    have scaled := mul_le_mul_of_nonneg_left wider positive
    linarith

theorem side_shown {pixels side shown : ℕ} {scale x : ℚ} (positive : 0 ≤ scale) (fits : scale * pixels ≤ 98 / 100 * side)
    (framed : Framed pixels side shown) (left : -(pixels / 2 : ℕ) ≤ x) (right : x ≤ -(pixels / 2 : ℕ) + pixels) :
    0 ≤ ((side - 1 : ℤ).tdiv 2 : ℤ) + scale * x ∧ ((side - 1 : ℤ).tdiv 2 : ℤ) + scale * x ≤ shown := by
  have roomy : (100 : ℚ) ≤ side := by exact_mod_cast framed.1
  have middle : (side : ℤ) - 2 ≤ 2 * (side - 1 : ℤ).tdiv 2 ∧ 2 * (side - 1 : ℤ).tdiv 2 ≤ side - 1 := by
    have room := framed.1
    rw [Int.tdiv_eq_ediv_of_nonneg (by omega)]
    omega
  have low : (side : ℚ) - 2 ≤ 2 * ((side - 1 : ℤ).tdiv 2 : ℤ) := by exact_mod_cast middle.1
  have high : 2 * (((side - 1 : ℤ).tdiv 2 : ℤ) : ℚ) ≤ side - 1 := by exact_mod_cast middle.2
  have half : 2 * ((pixels / 2 : ℕ) : ℚ) ≤ pixels := by exact_mod_cast Nat.mul_div_le pixels 2
  have lowest : scale * (-(pixels / 2 : ℕ)) ≤ scale * x := mul_le_mul_of_nonneg_left left positive
  have highest : scale * x ≤ scale * (-(pixels / 2 : ℕ) + pixels) := mul_le_mul_of_nonneg_left right positive
  have smaller : scale * (2 * ((pixels / 2 : ℕ) : ℚ)) ≤ 98 / 100 * side :=
    (mul_le_mul_of_nonneg_left half positive).trans fits
  have larger := right_half_shown positive fits framed
  constructor
  · linarith
  · linarith

theorem fitScale_nonneg (img : QImage) (size : QSize) : 0 ≤ fitScale img size := by
  unfold fitScale
  split
  · positivity
  · positivity

theorem fitScale_width (img : QImage) (size : QSize) : fitScale img size * img.width ≤ 98 / 100 * size.width := by
  have wide : (0 : ℚ) < img.width := by exact_mod_cast img.width_pos
  have least := min_le_left (size.width / img.width : ℚ) (size.height / img.height)
  rw [min_def_lt] at least
  have scaled := (le_div_iff₀ wide).mp least
  unfold fitScale
  linarith

theorem fitScale_height (img : QImage) (size : QSize) : fitScale img size * img.height ≤ 98 / 100 * size.height := by
  have high : (0 : ℚ) < img.height := by exact_mod_cast img.height_pos
  have least := min_le_right (size.width / img.width : ℚ) (size.height / img.height)
  rw [min_def_lt] at least
  have scaled := (le_div_iff₀ high).mp least
  unfold fitScale
  linarith

/-- The image lies in the view as the last fit has put it there. -/
def FittedIn (view : Viewport) (c : CanvasItem) : Prop :=
  ∀ img ∈ c.image, c.scale = fitScale img view.size ∧ c.pos = view.center

variable {view : Viewport} {event : ItemEvent}

theorem FittedIn.shows {img : QImage} (fitted : FittedIn view c) (image : c.image = some img)
    (across : Framed img.width view.size.width view.shown.width)
    (down : Framed img.height view.size.height view.shown.height)
    {point : QPointF} (inside : drawnImage img point) : view.Shows (c.mapToScene point) := by
  obtain ⟨scale, pos⟩ := fitted img image
  obtain ⟨left, right, top, bottom⟩ := inside
  have positive := fitScale_nonneg img view.size
  obtain ⟨fromLeft, fromRight⟩ := side_shown positive (fitScale_width img view.size) across left right
  obtain ⟨fromTop, fromBottom⟩ := side_shown positive (fitScale_height img view.size) down top bottom
  unfold mapToScene Viewport.Shows
  rw [pos, scale]
  simp only [Viewport.center, QPointF.add_x, QPointF.add_y, QPointF.smul_x, QPointF.smul_y]
  refine ⟨?_, ?_, ?_, ?_⟩
  · linarith
  · linarith
  · linarith
  · linarith

theorem adjustFitWindow_fittedIn (adjusted : c.adjustFitWindow view.size view.center = .ok d) : FittedIn view d := by
  cases image : c.image with
  | none =>
    rw [adjustFitWindow_none image] at adjusted
    cases adjusted
  | some img =>
    rw [adjustFitWindow_some image] at adjusted
    cases adjusted
    intro shown same
    obtain rfl := Option.some.inj (image.symm.trans same)
    exact ⟨rfl, rfl⟩

theorem fittedIn_of_fits (fits : view.Fits event) (taken : c.step containsPoint event = .ok d) : FittedIn view d := by
  cases event with
  | adjustFitWindow size center =>
    obtain ⟨rfl, rfl⟩ := fits
    exact adjustFitWindow_fittedIn taken
  | resize size center =>
    obtain ⟨rfl, rfl⟩ := fits
    cases taken
    unfold resizeEvent
    split
    · rename_i adjusted
      exact adjustFitWindow_fittedIn adjusted
    · rename_i failed
      intro img image
      rw [adjustFitWindow_some (show c.image = some img from image)] at failed
      cases failed
  | loadImage img size center =>
    obtain ⟨rfl, rfl⟩ := fits
    obtain ⟨base, _, adjusted⟩ := bind_completes taken
    exact adjustFitWindow_fittedIn adjusted
  | canvas | wheel | zoomIn | zoomOut | changeTask | clean | addAllOpened => exact fits.elim

theorem FittedIn.still (fitted : FittedIn view c) (still : Still event) (taken : c.step containsPoint event = .ok d) :
    FittedIn view d := by
  have same (lifted : d.scale = c.scale ∧ d.pos = c.pos) (image : d.image = c.image) : FittedIn view d := by
    unfold FittedIn
    rw [lifted.1, lifted.2, image]
    exact fitted
  cases event with
  | canvas event =>
    have handled := lift_completes taken
    exact same (lift_view taken).2 (Canvas2D.handle_sameView handled).image
  | changeTask task =>
    cases taken
    exact fitted
  | addAllOpened shapes colors =>
    exact same (lift_view taken).2 (Window.addAllOpened_image (lift_completes taken))
  | wheel | zoomIn | zoomOut | adjustFitWindow | resize | clean | loadImage => exact still.elim

/-- After the last fit, and whatever is drawn then, the whole image is in the viewport, when its frame is narrow. -/
theorem whole_image_shown (containsPoint : List QPointF → QPointF → Bool) (view : Viewport) (before after : List ItemEvent)
    (fit : ItemEvent) (fits : view.Fits fit) (still : ∀ event ∈ after, Still event) (c : CanvasItem)
    (reached : run (step containsPoint) fresh (before ++ fit :: after) = .ok c) (img : QImage)
    (image : c.image = some img) (across : Framed img.width view.size.width view.shown.width)
    (down : Framed img.height view.size.height view.shown.height) (point : QPointF) (inside : drawnImage img point) :
    view.Shows (c.mapToScene point) := by
  obtain ⟨unfitted, _, rest⟩ := run_append_ok reached
  obtain ⟨fitted, taken, later⟩ := run_cons_ok rest
  have along : Along (step containsPoint) (fun _ event => Still event) fitted after :=
    along_of_forall _ (fun _ => still) fitted
  have kept (c : CanvasItem) (event : ItemEvent) (d : CanvasItem) (fitted : FittedIn view c) (still : Still event)
      (taken : c.step containsPoint event = .ok d) : FittedIn view d := fitted.still still taken
  have everywhere := visited_invariant kept (fittedIn_of_fits fits taken) along
  exact (everywhere c (run_mem_visited later)).shows image across down inside

def viewport : Viewport := ⟨⟨800, 600⟩, ⟨794, 594⟩, ⟨0, 0⟩⟩

theorem loaded_image_shown :
    ∃ c, run (step fun _ _ => false) fresh ([.loadImage (some Canvas2D.blankImage) ⟨640, 512⟩ ⟨0, 0⟩] ++
      .resize viewport.size viewport.center :: [.changeTask .segmentation]) = .ok c ∧
      ∀ point, drawnImage Canvas2D.blankImage point → viewport.Shows (c.mapToScene point) := by
  refine ⟨_, rfl, ?_⟩
  apply whole_image_shown (fun _ _ => false) viewport [.loadImage (some Canvas2D.blankImage) ⟨640, 512⟩ ⟨0, 0⟩]
    [.changeTask .segmentation] (.resize viewport.size viewport.center) ⟨rfl, rfl⟩ _ _ rfl _ rfl
  · decide
  · decide
  · intro event member
    rw [List.mem_singleton.mp member]
    trivial

end Shown

end CanvasItem

end XYAnnotation

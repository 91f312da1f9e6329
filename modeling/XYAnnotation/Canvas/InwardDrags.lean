import XYAnnotation.Canvas.Borders

namespace XYAnnotation

/-- A drag that brings no vertex nearer to a border than `dragMargin`, unless it was nearer before. -/
structure InwardDrag (img : QImage) (shape : Shape) (delta : QPointF) : Prop where
  wide : 7 ≤ img.width
  high : 7 ≤ img.height
  centred : shape.points.Paired (centre img)
  placed : ∀ vertex ∈ shape.points.oriPoints, ∃ pos, vertex = bindImgEdge img pos
  stays : ∀ vertex ∈ shape.points.oriPoints, ∃ pos, vertex + delta = bindImgEdge img pos
  left : ∀ vertex ∈ shape.points.imgPoints, dragMargin ≤ vertex.x + delta.x ∨ vertex.x ≤ vertex.x + delta.x
  right : ∀ vertex ∈ shape.points.imgPoints,
    dragMargin ≤ img.width - (vertex.x + delta.x) ∨ img.width - vertex.x ≤ img.width - (vertex.x + delta.x)
  top : ∀ vertex ∈ shape.points.imgPoints, dragMargin ≤ vertex.y + delta.y ∨ vertex.y ≤ vertex.y + delta.y
  bottom : ∀ vertex ∈ shape.points.imgPoints,
    dragMargin ≤ img.height - (vertex.y + delta.y) ∨ img.height - vertex.y ≤ img.height - (vertex.y + delta.y)

/-- Nearer to a border than `dragMargin` across the axis, and not carried out of there. -/
def heldX (img : QImage) (delta vertex : QPointF) : Bool := beyondX img ⟨0, 0⟩ vertex && beyondX img delta vertex

def heldY (img : QImage) (delta vertex : QPointF) : Bool := beyondY img ⟨0, 0⟩ vertex && beyondY img delta vertex

def Shape.firstHeld (img : QImage) (shape : Shape) (delta : QPointF) : Option QPointF :=
  shape.points.imgPoints.find? fun vertex => heldX img delta vertex || heldY img delta vertex

variable {img : QImage} {shape : Shape} {delta vertex : QPointF}

theorem near_before {bound margin place shift : ℚ} (low : margin ≤ place + shift ∨ place ≤ place + shift)
    (high : margin ≤ bound - (place + shift) ∨ bound - place ≤ bound - (place + shift))
    (near : place + shift > bound - margin ∨ place + shift < margin) : place > bound - margin ∨ place < margin := by
  rcases near with above | below
  · rcases high with far | away
    · linarith
    · exact .inl (by linarith)
  · rcases low with far | away
    · linarith
    · exact .inr (by linarith)

namespace InwardDrag

theorem heldX_eq (inward : InwardDrag img shape delta) (member : vertex ∈ shape.points.imgPoints) :
    heldX img delta vertex = beyondX img delta vertex := by
  rw [heldX, Bool.and_eq_right_iff_imp]
  intro beyond
  simp only [beyondX, Bool.or_eq_true, decide_eq_true_eq, add_zero] at beyond ⊢
  exact near_before (inward.left vertex member) (inward.right vertex member) beyond

theorem heldY_eq (inward : InwardDrag img shape delta) (member : vertex ∈ shape.points.imgPoints) :
    heldY img delta vertex = beyondY img delta vertex := by
  rw [heldY, Bool.and_eq_right_iff_imp]
  intro beyond
  simp only [beyondY, Bool.or_eq_true, decide_eq_true_eq, add_zero] at beyond ⊢
  exact near_before (inward.top vertex member) (inward.bottom vertex member) beyond

theorem firstHeld_eq (inward : InwardDrag img shape delta) : shape.firstHeld img delta = shape.nearBorder img delta := by
  unfold Shape.firstHeld Shape.nearBorder
  apply List.find?_congr
  intro vertex member
  rw [inward.heldX_eq member, inward.heldY_eq member]

end InwardDrag

/-- An inward drag is left as it is exactly when the first vertex that stays near a border is not moved across the
    axis of that border. -/
theorem inward_drag_kept_iff (img : QImage) (shape : Shape) (delta : QPointF) (inward : InwardDrag img shape delta) :
    (isCloseToEdge img shape delta).2 = delta ↔ ∀ first, shape.firstHeld img delta = some first →
      (heldX img delta first = true → delta.x = 0) ∧ (heldY img delta first = true → delta.y = 0) := by
  rw [inward.firstHeld_eq]
  cases found : shape.nearBorder img delta with
  | none => exact iff_of_true (isCloseToEdge_far found) (by simp)
  | some first =>
    have member := List.mem_of_find?_eq_some found
    rw [isCloseToEdge_near found]
    simp only [Option.some.injEq, forall_eq', inward.heldX_eq member, inward.heldY_eq member]
    constructor
    · intro kept
      have x := congrArg QPointF.x kept
      have y := congrArg QPointF.y kept
      constructor
      · intro beyond
        rw [← x, if_pos beyond]
      · intro beyond
        rw [← y, if_pos beyond]
    · rintro ⟨x, y⟩
      ext
      · simp only
        split
        · rename_i beyond
          exact (x beyond).symm
        · rfl
      · simp only
        split
        · rename_i beyond
          exact (y beyond).symm
        · rfl

section Touching

open Canvas2D

def touching : Shape :=
  ((((Shape.new .polygon).setimgWH blankImage).appendPoint ⟨-50 + 4 / 3, 0⟩).appendPoint ⟨0, -20⟩).appendPoint ⟨0, 20⟩

theorem touching_inward {step : ℚ} (forward : 0 ≤ step)
    (stays : ∀ vertex ∈ touching.points.oriPoints, vertex + ⟨step, 0⟩ = bindImgEdge blankImage (vertex + ⟨step, 0⟩))
    (room : ∀ vertex ∈ touching.points.imgPoints, dragMargin ≤ blankImage.width - (vertex.x + step)) :
    InwardDrag blankImage touching ⟨step, 0⟩ where
  wide := by decide
  high := by decide
  centred := ⟨by decide +kernel, by decide +kernel⟩
  placed vertex member := by
    have fixed : ∀ vertex ∈ touching.points.oriPoints, vertex = bindImgEdge blankImage vertex := by decide +kernel
    exact ⟨vertex, fixed vertex member⟩
  stays vertex member := ⟨_, stays vertex member⟩
  left _ _ := .inr (by linarith)
  right vertex member := .inl (room vertex member)
  top _ _ := .inr (by linarith)
  bottom _ _ := .inr (by linarith)

theorem long_step_kept :
    InwardDrag blankImage touching ⟨2, 0⟩ ∧ (isCloseToEdge blankImage touching ⟨2, 0⟩).2 = ⟨2, 0⟩ := by
  have inward : InwardDrag blankImage touching ⟨2, 0⟩ :=
    touching_inward (by norm_num) (by decide +kernel) (by decide +kernel)
  refine ⟨inward, (inward_drag_kept_iff blankImage touching ⟨2, 0⟩ inward).mpr ?_⟩
  have none : touching.firstHeld blankImage ⟨2, 0⟩ = none := by decide +kernel
  simp [none]

theorem short_step_blocked :
    InwardDrag blankImage touching ⟨1, 0⟩ ∧ (isCloseToEdge blankImage touching ⟨1, 0⟩).2 = ⟨0, 0⟩ ∧
      (isCloseToEdge blankImage touching ⟨1, 0⟩).2 ≠ ⟨1, 0⟩ :=
  ⟨touching_inward (by norm_num) (by decide +kernel) (by decide +kernel), by decide +kernel, by decide +kernel⟩

end Touching

end XYAnnotation

import XYAnnotation.Files.NoImage

namespace XYAnnotation

open Library

namespace CanvasItem

/-- `mapToScene` of an item that is scaled about its origin. -/
def mapToScene (c : CanvasItem) (point : QPointF) : QPointF := c.pos + c.scale • point

def Scaled (c : CanvasItem) : Prop := c.scale = c.scaleValue

def InLimits (c : CanvasItem) : Prop := 475 / 10000 < c.scaleValue ∧ c.scaleValue < 105 / 10

/-- The direction of the wheel, as `wheelEvent` computes it. -/
def wheelDir (delta : ℤ) : ℚ := if delta > 0 then -1 else 1

variable {c : CanvasItem}

theorem zoom_cases (c : CanvasItem) (delta : ℤ) :
    (if delta > 0 then c.zoomIn else c.zoomOut) = c ∨
      (if delta > 0 then c.zoomIn else c.zoomOut) = c.setScale (c.scaleValue * (1 - wheelDir delta * scaleStep)) ∧
        (if delta > 0 then c.scaleValue < 10 else scaleStep < c.scaleValue) := by
  unfold wheelDir
  by_cases forward : delta > 0
  · simp only [forward, if_true, zoomIn]
    by_cases largest : c.scaleValue ≥ 10
    · exact .inl (if_pos largest)
    · rw [if_neg largest, neg_one_mul, sub_neg_eq_add]
      exact .inr ⟨rfl, not_le.mp largest⟩
  · simp only [forward, if_false, zoomOut]
    by_cases smallest : c.scaleValue ≤ scaleStep
    · exact .inl (if_pos smallest)
    · rw [if_neg smallest, one_mul]
      exact .inr ⟨rfl, not_le.mp smallest⟩

theorem setScale_same (scaled : c.Scaled) : c.setScale c.scaleValue = c := by
  obtain ⟨canvas, scaleValue, scale, pos⟩ := c
  obtain rfl : scale = scaleValue := scaled
  rfl

theorem wheelEvent_cases (scaled : c.Scaled) (delta : ℤ) (pos : QPointF) :
    c.wheelEvent delta pos = c ∨
      ((c.wheelEvent delta pos).scaleValue = c.scaleValue * (1 - wheelDir delta * scaleStep) ∧
        (c.wheelEvent delta pos).scale = c.scaleValue * (1 - wheelDir delta * scaleStep) ∧
        (c.wheelEvent delta pos).pos = c.pos + (wheelDir delta * c.scaleValue * scaleStep) • pos ∧
        (if delta > 0 then c.scaleValue < 10 else scaleStep < c.scaleValue)) := by
  unfold wheelEvent
  simp only
  rcases zoom_cases c delta with still | ⟨zoomed, limit⟩
  · rw [still, if_pos rfl]
    exact .inl rfl
  · rw [zoomed]
    split
    · rename_i same
      have value : c.scaleValue * (1 - wheelDir delta * scaleStep) = c.scaleValue := same.symm
      rw [value]
      exact .inl (setScale_same scaled)
    · exact .inr ⟨rfl, rfl, rfl, limit⟩

/-- The item moves against the zoom, so the point under the mouse stays in its place. -/
theorem wheelEvent_fixes_cursor (scaled : c.Scaled) (delta : ℤ) (pos : QPointF) :
    (c.wheelEvent delta pos).mapToScene pos = c.mapToScene pos := by
  rcases wheelEvent_cases scaled delta pos with still | ⟨_, scale, moved, _⟩
  · rw [still]
  · unfold mapToScene
    rw [scale, moved, scaled]
    ext
    · simp only [QPointF.add_x, QPointF.smul_x]
      ring
    · simp only [QPointF.add_y, QPointF.smul_y]
      ring

theorem wheelEvent_scaled (scaled : c.Scaled) (delta : ℤ) (pos : QPointF) : (c.wheelEvent delta pos).Scaled := by
  rcases wheelEvent_cases scaled delta pos with still | ⟨value, scale, _⟩
  · rw [still]
    exact scaled
  · exact scale.trans value.symm

theorem wheelEvent_inLimits (scaled : c.Scaled) (inLimits : c.InLimits) (delta : ℤ) (pos : QPointF) :
    (c.wheelEvent delta pos).InLimits := by
  rcases wheelEvent_cases scaled delta pos with still | ⟨value, _, _, limit⟩
  · rw [still]
    exact inLimits
  · obtain ⟨low, high⟩ := inLimits
    unfold InLimits
    rw [value]
    unfold wheelDir scaleStep
    split at limit
    · rename_i forward
      rw [if_pos forward]
      constructor <;> linarith
    · rename_i back
      unfold scaleStep at limit
      rw [if_neg back]
      constructor <;> linarith

def wheels (events : List (ℤ × QPointF)) : List ItemEvent := events.map fun event => .wheel event.1 event.2

theorem wheels_run (containsPoint : List QPointF → QPointF → Bool) (scaled : c.Scaled) (events : List (ℤ × QPointF)) :
    ∃ d, run (step containsPoint) c (wheels events) = .ok d ∧ d.Scaled := by
  induction events generalizing c with
  | nil => exact ⟨c, rfl, scaled⟩
  | cons event events ih =>
    obtain ⟨d, ran, kept⟩ := ih (wheelEvent_scaled scaled event.1 event.2)
    exact ⟨d, ran, kept⟩

theorem wheels_inLimits (containsPoint : List QPointF → QPointF → Bool) (scaled : c.Scaled) (inLimits : c.InLimits)
    (events : List (ℤ × QPointF)) :
    ∀ reached ∈ visited (step containsPoint) c (wheels events), reached.InLimits := by
  induction events generalizing c with
  | nil =>
    intro reached member
    rw [List.mem_singleton.mp member]
    exact inLimits
  | cons event events ih =>
    intro reached member
    rcases List.mem_cons.mp member with rfl | later
    · exact inLimits
    · exact ih (wheelEvent_scaled scaled event.1 event.2) (wheelEvent_inLimits scaled inLimits event.1 event.2)
        reached later

/-- Every event of a run leaves the point under its mouse where it is in the scene, and the scale never leaves the
    limits. -/
theorem wheel_zooms_about_cursor (containsPoint : List QPointF → QPointF → Bool) (c : CanvasItem) (scaled : c.Scaled)
    (events : List (ℤ × QPointF)) :
    (∀ before delta pos after, events = before ++ (delta, pos) :: after →
      ∃ earlier later, run (step containsPoint) c (wheels before) = .ok earlier ∧
        step containsPoint earlier (.wheel delta pos) = .ok later ∧ later.mapToScene pos = earlier.mapToScene pos) ∧
    (c.InLimits → ∀ reached ∈ visited (step containsPoint) c (wheels events), reached.InLimits) := by
  constructor
  · intro before delta pos _ _
    obtain ⟨earlier, ran, kept⟩ := wheels_run containsPoint scaled before
    exact ⟨earlier, earlier.wheelEvent delta pos, ran, rfl, wheelEvent_fixes_cursor kept delta pos⟩
  · intro inLimits
    exact wheels_inLimits containsPoint scaled inLimits events

theorem fresh_wheel_zoom :
    fresh.Scaled ∧ fresh.InLimits ∧ ∀ reached ∈ visited (step fun _ _ => false) fresh
      (wheels [(120, ⟨10, 20⟩), (-120, ⟨-30, 5⟩)]), reached.InLimits := by
  have inLimits : fresh.InLimits := by
    constructor <;> norm_num [fresh]
  exact ⟨rfl, inLimits, (wheel_zooms_about_cursor (fun _ _ => false) fresh rfl _).2 inLimits⟩

end CanvasItem

end XYAnnotation

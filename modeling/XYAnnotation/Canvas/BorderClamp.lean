import XYAnnotation.Annotations.EdgeHits
import XYAnnotation.Canvas.Base
import XYAnnotation.Library.Clamp

namespace XYAnnotation

open Library Set

def bindEdge : ℚ := 2 * penLineWidth / 3

def InBorders (img : QImage) (q : QPointF) : Prop :=
  (mapToImg img q).x ∈ Icc bindEdge (img.width - bindEdge) ∧ (mapToImg img q).y ∈ Icc bindEdge (img.height - bindEdge)

theorem bindEdge_eq : bindEdge = 4 / 3 := by
  unfold bindEdge penLineWidth
  norm_num

theorem border_room {n : ℕ} (large : 3 ≤ n) : bindEdge ≤ (n : ℚ) - bindEdge := by
  have size : (3 : ℚ) ≤ n := by exact_mod_cast large
  rw [bindEdge_eq]
  linarith

section Map

variable (img : QImage)

theorem mapToImg_mapFromImg (q : QPointF) : mapToImg img (mapFromImg img q) = q := by
  ext
  · simp [mapToImg, mapFromImg]
  · simp [mapToImg, mapFromImg]

theorem mapFromImg_mapToImg (q : QPointF) : mapFromImg img (mapToImg img q) = q := by
  ext
  · simp [mapToImg, mapFromImg]
  · simp [mapToImg, mapFromImg]

theorem mapToImg_sub (p q : QPointF) : mapToImg img p - mapToImg img q = p - q := by
  ext
  · simp [mapToImg]
  · simp [mapToImg]

end Map

section Clamp

variable {img : QImage} (wide : 3 ≤ img.width) (high : 3 ≤ img.height) (p : QPointF)

include wide high

theorem mapToImg_bindImgEdge : mapToImg img (bindImgEdge img p) =
    ⟨projIcc bindEdge (img.width - bindEdge) (border_room wide) (mapToImg img p).x,
      projIcc bindEdge (img.height - bindEdge) (border_room high) (mapToImg img p).y⟩ := by
  rw [← cuts_eq_projIcc, ← cuts_eq_projIcc]
  exact mapToImg_mapFromImg img _

theorem bindImgEdge_inBorders : InBorders img (bindImgEdge img p) := by
  unfold InBorders
  rw [mapToImg_bindImgEdge wide high]
  exact ⟨Subtype.property _, Subtype.property _⟩

theorem bindImgEdge_sq_le {q : QPointF} (inside : InBorders img q) :
    ((p - bindImgEdge img p).x ^ 2 + (p - bindImgEdge img p).y ^ 2) +
        ((q - bindImgEdge img p).x ^ 2 + (q - bindImgEdge img p).y ^ 2) ≤ (p - q).x ^ 2 + (p - q).y ^ 2 := by
  have x := projIcc_sq_le (border_room wide) (mapToImg img p).x inside.1
  have y := projIcc_sq_le (border_room high) (mapToImg img p).y inside.2
  rw [← mapToImg_sub img p (bindImgEdge img p), ← mapToImg_sub img q (bindImgEdge img p), ← mapToImg_sub img p q,
    mapToImg_bindImgEdge wide high]
  simp only [QPointF.sub_x, QPointF.sub_y]
  linarith

theorem nearest_iff_bound (q : QPointF) :
    (InBorders img q ∧ ∀ r, InBorders img r → p.distance q ≤ p.distance r) ↔ q = bindImgEdge img p := by
  constructor
  · rintro ⟨inside, nearest⟩
    have bound := bindImgEdge_sq_le wide high p inside
    have beside := (QPointF.distance_le_iff p q _).mp (nearest _ (bindImgEdge_inBorders wide high p))
    have zero : (q - bindImgEdge img p).x ^ 2 + (q - bindImgEdge img p).y ^ 2 = 0 :=
      le_antisymm (by linarith) (by positivity)
    rw [add_eq_zero_iff_of_nonneg (sq_nonneg _) (sq_nonneg _)] at zero
    ext
    · exact sub_eq_zero.mp (pow_eq_zero_iff two_ne_zero |>.mp zero.1)
    · exact sub_eq_zero.mp (pow_eq_zero_iff two_ne_zero |>.mp zero.2)
  · rintro rfl
    refine ⟨bindImgEdge_inBorders wide high p, ?_⟩
    intro r inside
    rw [QPointF.distance_le_iff]
    have bound := bindImgEdge_sq_le wide high p inside
    have apart : 0 ≤ (r - bindImgEdge img p).x ^ 2 + (r - bindImgEdge img p).y ^ 2 := by positivity
    linarith

theorem bindImgEdge_of_inBorders (inside : InBorders img p) : bindImgEdge img p = p := by
  rw [← mapFromImg_mapToImg img (bindImgEdge img p), mapToImg_bindImgEdge wide high,
    projIcc_of_mem (border_room wide) inside.1, projIcc_of_mem (border_room high) inside.2]
  exact mapFromImg_mapToImg img p

theorem bindImgEdge_contracts (q : QPointF) :
    |(bindImgEdge img p - bindImgEdge img q).x| ≤ |(p - q).x| ∧ |(bindImgEdge img p - bindImgEdge img q).y| ≤ |(p - q).y| := by
  rw [← mapToImg_sub img (bindImgEdge img p), ← mapToImg_sub img p, mapToImg_bindImgEdge wide high p,
    mapToImg_bindImgEdge wide high q]
  exact ⟨abs_projIcc_sub_projIcc (border_room wide), abs_projIcc_sub_projIcc (border_room high)⟩

end Clamp

/-- `bindImgEdge` is the projection to the rectangle within the margin: its result is the one nearest point there.
    Points of the rectangle stay, and no two points get farther apart along an axis. -/
theorem bindImgEdge_nearest (img : QImage) (wide : 3 ≤ img.width) (high : 3 ≤ img.height) (p : QPointF) :
    (∀ q, (InBorders img q ∧ ∀ r, InBorders img r → p.distance q ≤ p.distance r) ↔ q = bindImgEdge img p) ∧
    bindImgEdge img (bindImgEdge img p) = bindImgEdge img p ∧
    (InBorders img p → bindImgEdge img p = p) ∧
    ∀ q, |(bindImgEdge img p).x - (bindImgEdge img q).x| ≤ |p.x - q.x| ∧
      |(bindImgEdge img p).y - (bindImgEdge img q).y| ≤ |p.y - q.y| :=
  ⟨nearest_iff_bound wide high p,
    bindImgEdge_of_inBorders wide high (bindImgEdge img p) (bindImgEdge_inBorders wide high p),
    bindImgEdge_of_inBorders wide high p, bindImgEdge_contracts wide high p⟩

theorem small_image_clamped :
    ∃ img : QImage, img.width = 3 ∧ img.height = 3 ∧ bindImgEdge img ⟨10, 0⟩ = ⟨2 / 3, 1 / 3⟩ ∧
      ∀ r, InBorders img r → QPointF.distance ⟨10, 0⟩ ⟨2 / 3, 1 / 3⟩ ≤ QPointF.distance ⟨10, 0⟩ r := by
  let img : QImage := ⟨3, 3, [], by decide, by decide, by decide, by decide⟩
  have place : bindImgEdge img ⟨10, 0⟩ = ⟨2 / 3, 1 / 3⟩ := by decide +kernel
  refine ⟨img, rfl, rfl, place, ?_⟩
  exact (((bindImgEdge_nearest img (by decide) (by decide) ⟨10, 0⟩).1 ⟨2 / 3, 1 / 3⟩).mpr place.symm).2

end XYAnnotation

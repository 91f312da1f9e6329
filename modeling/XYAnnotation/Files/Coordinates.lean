import XYAnnotation.Files.OpenSave

namespace XYAnnotation

section Drift

variable {img : QImage}

/-- By how much a vertex is moved when the file is opened and saved: half a pixel along a side that
    is odd. -/
def drift (img : QImage) : QPointF := ⟨(img.width % 2 : ℕ) / 2, (img.height % 2 : ℕ) / 2⟩

theorem half_sub_floor (n : ℕ) : (n : ℚ) / 2 - (n / 2 : ℕ) = (n % 2 : ℕ) / 2 := by
  have split : (n : ℚ) = 2 * (n / 2 : ℕ) + (n % 2 : ℕ) := by exact_mod_cast (Nat.div_add_mod n 2).symm
  linarith

theorem reopenedPoint_eq (point : QPointF) : reopenedPoint img point = point + drift img := by
  have x := half_sub_floor img.width
  have y := half_sub_floor img.height
  ext
  · simp only [reopenedPoint, mapFromImg, drift, QPointF.add_x, QPointF.sub_x]
    linarith
  · simp only [reopenedPoint, mapFromImg, drift, QPointF.add_y, QPointF.sub_y]
    linarith

theorem iterate_resaved_points (mode : DrawMode) (n : ℕ) (shapes : List ShapeS) :
    ((List.map (resaved img mode))^[n] shapes).map ShapeS.points =
      shapes.map fun shape => shape.points.map fun point => point + (n : ℚ) • drift img := by
  induction n generalizing shapes with
  | zero =>
    apply List.map_congr_left
    intro shape _
    have stays : ∀ point : QPointF, point + ((0 : ℕ) : ℚ) • drift img = point := by
      intro point
      ext <;> simp [HSMul.hSMul, SMul.smul]
    simp only [stays, List.map_id']
  | succ n ih =>
    rw [Function.iterate_succ_apply, ih, List.map_map]
    apply List.map_congr_left
    intro shape _
    change (shape.points.map (reopenedPoint img)).map _ = _
    rw [List.map_map]
    apply List.map_congr_left
    intro point _
    rw [Function.comp_apply, reopenedPoint_eq]
    ext
    · simp only [QPointF.add_x, QPointF.smul_x]
      push_cast
      ring
    · simp only [QPointF.add_y, QPointF.smul_y]
      push_cast
      ring

theorem drift_stays_iff (n : ℕ) (point : QPointF) :
    point + ((n + 1 : ℕ) : ℚ) • drift img = point ↔ 2 ∣ img.width ∧ 2 ∣ img.height := by
  have positive : ((n + 1 : ℕ) : ℚ) ≠ 0 := by exact_mod_cast Nat.succ_ne_zero n
  have side (size : ℕ) (a : ℚ) : a + ((n + 1 : ℕ) : ℚ) * ((size % 2 : ℕ) / 2) = a ↔ 2 ∣ size := by
    rw [add_eq_left, mul_eq_zero, or_iff_right positive, div_eq_zero_iff, or_iff_left two_ne_zero,
      Nat.cast_eq_zero, Nat.dvd_iff_mod_eq_zero]
  rw [QPointF.ext_iff]
  exact and_congr (side img.width point.x) (side img.height point.y)

theorem drifted_eq_iff (n : ℕ) (shapes : List ShapeS) :
    (shapes.map fun shape => shape.points.map fun point => point + ((n + 1 : ℕ) : ℚ) • drift img) =
      shapes.map ShapeS.points ↔
    (∀ shape ∈ shapes, shape.points = []) ∨ (2 ∣ img.width ∧ 2 ∣ img.height) := by
  rw [List.map_inj_left]
  constructor
  · intro kept
    by_cases even : 2 ∣ img.width ∧ 2 ∣ img.height
    · exact .inr even
    · left
      intro shape member
      have same := kept shape member
      cases points : shape.points with
      | nil => rfl
      | cons point rest =>
        rw [points, List.map_cons] at same
        exact absurd ((drift_stays_iff n point).mp (List.cons.inj same).1) even
  · rintro (none | even) shape member
    · rw [none shape member]
      rfl
    · have stays : ∀ point ∈ shape.points, point + ((n + 1 : ℕ) : ℚ) • drift img = point :=
        fun point _ => (drift_stays_iff n point).mpr even
      rw [List.map_congr_left stays, List.map_id']

end Drift

open Window in
/-- Opening a file and saving it again, once or more often, keeps the coordinates exactly when there
    are none or both sides of the image are even. -/
theorem coordinates_kept_iff (p : Platform) (absolute : p.Absolute) (w : Window)
    (source : AnnotationFile p w.disk) (selected : w.canvas.draw ≠ .none) (colors : ℕ → ℕ → QColor) (n : ℕ) :
    ∃ last, w.cycles p source.file colors (n + 1) = .ok last ∧
      ((last.fileShapes p source.file).map ShapeS.points = (w.fileShapes p source.file).map ShapeS.points ↔
        (∀ shape ∈ w.fileShapes p source.file, shape.points = []) ∨
          (2 ∣ source.img.width ∧ 2 ∣ source.img.height)) := by
  obtain ⟨last, ran, shapes⟩ :=
    cycles_completes absolute selected source.holds colors (n + 1)
  refine ⟨last, ran, ?_⟩
  rw [shapes, source.holds.fileShapes, iterate_resaved_points]
  exact drifted_eq_iff n source.root.shapes

theorem one_pixel_coordinates :
    ∃ last, deskWindow.cycles desk "/pics/a.json" (fun _ => deskColors) 2 = .ok last ∧
      ((last.fileShapes desk "/pics/a.json").map ShapeS.points =
        (deskWindow.fileShapes desk "/pics/a.json").map ShapeS.points ↔
          (∀ shape ∈ deskWindow.fileShapes desk "/pics/a.json", shape.points = []) ∨ (2 ∣ 1 ∧ 2 ∣ 1)) :=
  coordinates_kept_iff desk desk_absolute deskWindow deskSource (by decide) (fun _ => deskColors) 1

/-- The vertex in the corner of an image of one pixel comes back in the middle of the pixel. -/
theorem vertex_moved_by_cycle :
    ∃ last, deskWindow.cycle desk "/pics/a.json" deskColors = .ok last ∧
      (last.fileShapes desk "/pics/a.json").map ShapeS.points = [[⟨1 / 2, 1 / 2⟩]] ∧
      (last.fileShapes desk "/pics/a.json").map ShapeS.points ≠
        (deskWindow.fileShapes desk "/pics/a.json").map ShapeS.points := by
  have observed : (deskWindow.cycle desk "/pics/a.json" deskColors).map
      (fun last => (last.fileShapes desk "/pics/a.json").map ShapeS.points) = .ok [[⟨1 / 2, 1 / 2⟩]] := by
    decide +kernel
  obtain ⟨last, ran, moved⟩ := Library.map_completes observed
  refine ⟨last, ran, moved, ?_⟩
  rw [moved]
  decide +kernel

end XYAnnotation

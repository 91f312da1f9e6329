import XYAnnotation.Annotations.Bezier
import XYAnnotation.Annotations.PolylineHits
import XYAnnotation.Canvas.Borders

namespace XYAnnotation

open Library Set QPointF

def Spanned (values : List ℚ) (value : ℚ) : Prop :=
  ∃ low high, values.min? = some low ∧ values.max? = some high ∧ low ≤ value ∧ value ≤ high

def Boxed (low high q : QPointF) : Prop := q.x ∈ Icc low.x high.x ∧ q.y ∈ Icc low.y high.y

def Path.DrawnIn (path : Path) (Inside : QPointF → Prop) : Prop :=
  ∀ segment ∈ path.segments, ∀ u : ℚ, 0 ≤ u → u ≤ 1 → Inside (between segment.1 segment.2 u)

theorem exists_span {values : List ℚ} (nonempty : values ≠ []) :
    ∃ low high, values.min? = some low ∧ values.max? = some high ∧ ∀ value ∈ values, value ∈ Icc low high := by
  obtain ⟨low, least⟩ := Option.isSome_iff_exists.mp (List.isSome_min?_of_ne_nil nonempty)
  obtain ⟨high, greatest⟩ := Option.isSome_iff_exists.mp (List.isSome_max?_of_ne_nil nonempty)
  refine ⟨low, high, least, greatest, ?_⟩
  intro value member
  exact ⟨(List.min?_eq_some_iff.mp least).2 value member, (List.max?_eq_some_iff.mp greatest).2 value member⟩

theorem inImage_iff_boxed (img : QImage) (offset q : QPointF) :
    InImage img (q + offset) ↔ Boxed (⟨0, 0⟩ - offset) (⟨img.width, img.height⟩ - offset) q := by
  simp only [InImage, Boxed, mem_Icc, add_x, add_y, sub_x, sub_y, sub_le_iff_le_add, le_sub_iff_add_le, and_assoc]

theorem Boxed.between {low high a b : QPointF} (first : Boxed low high a) (last : Boxed low high b) {u : ℚ}
    (nonneg : 0 ≤ u) (most : u ≤ 1) : Boxed low high (between a b u) := by
  have x := (convex_Icc low.x high.x).add_smul_sub_mem first.1 last.1 ⟨nonneg, most⟩
  have y := (convex_Icc low.y high.y).add_smul_sub_mem first.2 last.2 ⟨nonneg, most⟩
  exact ⟨x, y⟩

namespace Shape

variable {points : List QPointF} {t low high : ℚ} {q v : QPointF}

theorem coordinate_mem (nonempty : points ≠ []) (coordinate : QPointF → ℚ) (nonneg : 0 ≤ t) (most : t ≤ 1)
    (inside : ∀ point ∈ points, coordinate point ∈ Icc low high) :
    (lerp t ^ (points.length - 1)) (fun i => coordinate (points.getD i ⟨0, 0⟩)) 0 ∈ Icc low high := by
  have positive : 0 < points.length := List.length_pos_iff.mpr nonempty
  apply lerp_pow_mem (convex_Icc low high) nonneg most
  intro j bound
  have listed : 0 + j < points.length := by omega
  rw [List.getD_eq_getElem _ _ listed]
  exact inside _ (List.getElem_mem listed)

theorem deCasteljau_x_mem (nonempty : points ≠ []) (nonneg : 0 ≤ t) (most : t ≤ 1) (done : deCasteljau points t = .ok q)
    (inside : ∀ point ∈ points, point.x ∈ Icc low high) : q.x ∈ Icc low high := by
  rw [deCasteljau_eq nonempty] at done
  rw [← Except.ok.inj done, bezierRow_x]
  exact coordinate_mem nonempty QPointF.x nonneg most inside

theorem deCasteljau_y_mem (nonempty : points ≠ []) (nonneg : 0 ≤ t) (most : t ≤ 1) (done : deCasteljau points t = .ok q)
    (inside : ∀ point ∈ points, point.y ∈ Icc low high) : q.y ∈ Icc low high := by
  rw [deCasteljau_eq nonempty] at done
  rw [← Except.ok.inj done, bezierRow_y]
  exact coordinate_mem nonempty QPointF.y nonneg most inside

theorem bezierRow_translated {values moved : ℕ → QPointF} {k i : ℕ}
    (translated : ∀ j ≤ k, moved (i + j) = values (i + j) + v) :
    bezierRow moved t k i = bezierRow values t k i + v := by
  induction k generalizing i with
  | zero => exact translated 0 (Nat.le_refl 0)
  | succ k ih =>
    have first : bezierRow moved t k i = bezierRow values t k i + v := ih fun j bound => translated j (by omega)
    have second : bezierRow moved t k (i + 1) = bezierRow values t k (i + 1) + v := by
      apply ih
      intro j bound
      rw [Nat.add_assoc, Nat.add_comm 1 j]
      exact translated (j + 1) (by omega)
    rw [bezierRow, bezierRow, first, second]
    ext
    · simp only [add_x, smul_x]
      ring
    · simp only [add_y, smul_y]
      ring

theorem deCasteljau_translated (nonempty : points ≠ []) (done : deCasteljau points t = .ok q) (v : QPointF) :
    deCasteljau (points.map (· + v)) t = .ok (q + v) := by
  have positive : 0 < points.length := List.length_pos_iff.mpr nonempty
  rw [deCasteljau_eq nonempty] at done
  rw [deCasteljau_eq (by simpa using nonempty), ← Except.ok.inj done, List.length_map]
  congr 1
  apply bezierRow_translated
  intro j bound
  have listed : 0 + j < points.length := by omega
  rw [List.getD_eq_getElem _ _ listed, List.getD_eq_getElem _ _ (by rw [List.length_map]; exact listed), List.getElem_map]

theorem deCasteljau_boxed {low high : QPointF} (nonempty : points ≠ []) (nonneg : 0 ≤ t) (most : t ≤ 1)
    (inside : ∀ point ∈ points, Boxed low high point) (done : deCasteljau points t = .ok q) : Boxed low high q :=
  ⟨deCasteljau_x_mem nonempty nonneg most done fun point member => (inside point member).1,
    deCasteljau_y_mem nonempty nonneg most done fun point member => (inside point member).2⟩

theorem curve_path {shape : Shape} {isdisEndPt : Bool} {picture : Picture} (curve : shape.type = .curve)
    (drawn : shape.draw isdisEndPt = .ok (some picture)) :
    ∃ first path, picture.path = .curve (first :: path) ∧ first ∈ shape.shownPoints isdisEndPt ∧
      ∀ q ∈ path, ∃ t, 0 ≤ t ∧ t ≤ 1 ∧ deCasteljau (shape.shownPoints isdisEndPt) t = .ok q := by
  unfold draw at drawn
  simp only [curve] at drawn
  split at drawn
  · cases drawn
  · obtain ⟨first, read, drawn⟩ := bind_completes drawn
    obtain ⟨path, steps, drawn⟩ := bind_completes drawn
    obtain ⟨markers, _, drawn⟩ := bind_completes drawn
    obtain rfl := Option.some.inj (Except.ok.inj drawn)
    refine ⟨first, path, rfl, List.mem_of_getElem? (QVector.at_completes read).2, ?_⟩
    intro q member
    obtain ⟨i, step, computed⟩ : ∃ i ∈ List.range' 1 numSteps,
        deCasteljau (shape.shownPoints isdisEndPt) (i / numSteps) = .ok q := by
      obtain ⟨k, inside, rfl⟩ := List.getElem_of_mem member
      have each := mapM_forall₂ steps
      have bound : k < (List.range' 1 numSteps).length := by
        rw [each.length_eq]
        exact inside
      exact ⟨_, List.getElem_mem bound, each.get bound inside⟩
    have most : i ≤ numSteps := by
      have range := List.mem_range'_1.mp step
      omega
    refine ⟨i / numSteps, by positivity, ?_, computed⟩
    rw [div_le_one (by norm_num [numSteps])]
    exact_mod_cast most

theorem curve_drawn_boxed {shape : Shape} {isdisEndPt : Bool} {picture : Picture} {low high : QPointF}
    (curve : shape.type = .curve) (inside : ∀ point ∈ shape.shownPoints isdisEndPt, Boxed low high point)
    (drawn : shape.draw isdisEndPt = .ok (some picture)) : picture.path.DrawnIn (Boxed low high) := by
  obtain ⟨first, path, same, listed, steps⟩ := curve_path curve drawn
  have each : ∀ q ∈ first :: path, Boxed low high q := by
    intro q member
    rcases List.mem_cons.mp member with rfl | member
    · exact inside q listed
    · obtain ⟨t, nonneg, most, computed⟩ := steps q member
      exact deCasteljau_boxed (List.ne_nil_of_mem listed) nonneg most inside computed
  intro segment painted u nonneg most
  rw [same] at painted
  obtain ⟨start, stop⟩ := List.of_mem_zip painted
  exact (each _ start).between (each _ (List.mem_of_mem_tail stop)) nonneg most

theorem deCasteljau_spanned (nonempty : points ≠ []) (nonneg : 0 ≤ t) (most : t ≤ 1)
    (done : deCasteljau points t = .ok q) :
    Spanned (points.map QPointF.x) q.x ∧ Spanned (points.map QPointF.y) q.y := by
  constructor
  · obtain ⟨low, high, least, greatest, inside⟩ := exists_span (List.map_eq_nil_iff.not.mpr nonempty)
    exact ⟨low, high, least, greatest, deCasteljau_x_mem nonempty nonneg most done fun point member =>
      inside _ (List.mem_map_of_mem member)⟩
  · obtain ⟨low, high, least, greatest, inside⟩ := exists_span (List.map_eq_nil_iff.not.mpr nonempty)
    exact ⟨low, high, least, greatest, deCasteljau_y_mem nonempty nonneg most done fun point member =>
      inside _ (List.mem_map_of_mem member)⟩

/-- A curve stays in the box of its control points and moves with them, so it is drawn inside the image when they are
    there. `offset` takes the coordinates of the canvas to those of the image. -/
theorem curve_boxed_and_rigid :
    (∀ (points : List QPointF) (t : ℚ), points ≠ [] → 0 ≤ t → t ≤ 1 → ∃ q, deCasteljau points t = .ok q ∧
      Spanned (points.map QPointF.x) q.x ∧ Spanned (points.map QPointF.y) q.y ∧
      ∀ v : QPointF, deCasteljau (points.map (· + v)) t = .ok (q + v) ∧
        ∀ shape : Shape, shape.points.oriPoints = points → ∃ moved, shape.move v = .ok moved ∧
          moved.points.oriPoints = points.map (· + v)) ∧
    ∀ (shape : Shape) (isdisEndPt : Bool) (img : QImage) (offset : QPointF), shape.type = .curve →
      (∀ point ∈ shape.shownPoints isdisEndPt, InImage img (point + offset)) →
      ∃ picture, shape.draw isdisEndPt = .ok picture ∧
        ∀ drawn, picture = some drawn → drawn.path.DrawnIn fun q => InImage img (q + offset) := by
  constructor
  · intro points t nonempty nonneg most
    obtain ⟨q, done⟩ := deCasteljau_completes nonempty t
    obtain ⟨x, y⟩ := deCasteljau_spanned nonempty nonneg most done
    refine ⟨q, done, x, y, ?_⟩
    intro v
    refine ⟨deCasteljau_translated nonempty done v, ?_⟩
    rintro shape rfl
    exact ⟨_, shape.move_eq v, rfl⟩
  · intro shape isdisEndPt img offset curve inside
    obtain ⟨picture, done⟩ := shape.curve_draw_completes isdisEndPt curve
    refine ⟨picture, done, ?_⟩
    rintro drawn rfl
    simp only [inImage_iff_boxed] at inside ⊢
    exact curve_drawn_boxed curve inside done

theorem arch_boxed :
    ∃ q, deCasteljau [⟨0, 0⟩, ⟨1, 2⟩, ⟨2, 0⟩] (1 / 2) = .ok q ∧ Spanned [0, 1, 2] q.x ∧ Spanned [0, 2, 0] q.y := by
  obtain ⟨q, done, x, y, _⟩ :=
    curve_boxed_and_rigid.1 [⟨0, 0⟩, ⟨1, 2⟩, ⟨2, 0⟩] (1 / 2) (by simp) (by norm_num) (by norm_num)
  exact ⟨q, done, x, y⟩

end Shape

end XYAnnotation

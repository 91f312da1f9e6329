import XYAnnotation.Annotations.Draw
import XYAnnotation.Library.Bernstein

namespace XYAnnotation

open Library

/-- The triangle of points that `deCasteljau` computes, row by row. -/
def bezierRow (values : ℕ → QPointF) (t : ℚ) : ℕ → ℕ → QPointF
  | 0, i => values i
  | k + 1, i => (1 - t) • bezierRow values t k i + t • bezierRow values t k (i + 1)

section Triangle

variable (values : ℕ → QPointF) (t : ℚ) (k i : ℕ)

theorem bezierRow_x : (bezierRow values t k i).x = (lerp t ^ k) (fun j => (values j).x) i := by
  induction k generalizing i with
  | zero => rfl
  | succ k ih =>
    rw [bezierRow, QPointF.add_x, QPointF.smul_x, QPointF.smul_x, ih, ih, lerp_pow_succ_apply]
    rfl

theorem bezierRow_y : (bezierRow values t k i).y = (lerp t ^ k) (fun j => (values j).y) i := by
  induction k generalizing i with
  | zero => rfl
  | succ k ih =>
    rw [bezierRow, QPointF.add_y, QPointF.smul_y, QPointF.smul_y, ih, ih, lerp_pow_succ_apply]
    rfl

end Triangle

namespace Shape

variable {values : ℕ → QPointF} {t : ℚ} {n k m : ℕ} {points : List QPointF}

structure InRound (values : ℕ → QPointF) (t : ℚ) (n k m : ℕ) (points : List QPointF) : Prop where
  length : points.length = n
  done : ∀ j < m, j + (k + 1) < n → points[j]? = some (bezierRow values t (k + 1) j)
  ahead : ∀ j, m ≤ j → j + k < n → points[j]? = some (bezierRow values t k j)

theorem InRound.lerpAt (inRound : InRound values t n k m points) (inside : m + (k + 1) < n) :
    ∃ next, lerpAt t points m = .ok next ∧ InRound values t n k (m + 1) next := by
  have first := inRound.ahead m (Nat.le_refl m) (by omega)
  have second := inRound.ahead (m + 1) (Nat.le_succ m) (by omega)
  obtain ⟨bound, here⟩ := List.getElem?_eq_some_iff.mp first
  obtain ⟨bound', there⟩ := List.getElem?_eq_some_iff.mp second
  refine ⟨points.set m (bezierRow values t (k + 1) m), ?_, ?_, ?_, ?_⟩
  · have read : QVector.at points (m + 1) = .ok points[m + 1] := by
      exact_mod_cast QVector.at_natCast points (m + 1) bound'
    rw [Shape.lerpAt, QVector.at_natCast points m bound, read, here, there]
    rfl
  · rw [List.length_set]
    exact inRound.length
  · intro j before room
    by_cases new : j = m
    · rw [new, List.getElem?_set_self bound]
    · rw [List.getElem?_set_ne (Ne.symm new)]
      exact inRound.done j (by omega) room
  · intro j beyond room
    rw [List.getElem?_set_ne (by omega)]
    exact inRound.ahead j (by omega) room

/-- One round overwrites row `k` by row `k + 1` from the left; each place is read for the last time when its
    neighbour on the left is written. -/
theorem InRound.round (start : InRound values t n k 0 points) :
    ∃ next, (List.range (n - (k + 1))).foldlM (Shape.lerpAt t) points = .ok next ∧ InRound values t n (k + 1) 0 next := by
  have steps : ∀ m ≤ n - (k + 1), ∃ next, (List.range m).foldlM (Shape.lerpAt t) points = .ok next ∧
      InRound values t n k m next := by
    intro m
    induction m with
    | zero => exact fun _ => ⟨points, rfl, start⟩
    | succ m ih =>
      intro room
      obtain ⟨middle, ran, inRound⟩ := ih (by omega)
      obtain ⟨next, taken, kept⟩ := inRound.lerpAt (by omega)
      refine ⟨next, ?_, kept⟩
      rw [List.range_succ, List.foldlM_append, ran]
      exact (bind_pure _).trans taken
  obtain ⟨next, ran, last⟩ := steps _ (Nat.le_refl _)
  refine ⟨next, ran, last.length, ?_, ?_⟩
  · intro j before
    omega
  · intro j _ room
    exact last.done j (by omega) room

theorem rounds_complete (controlPoints : List QPointF) (t : ℚ) :
    ∃ points, (List.range' 1 (controlPoints.length - 1)).foldlM (fun (points : List QPointF) (k : ℕ) =>
      (List.range (controlPoints.length - k)).foldlM (lerpAt t) points) controlPoints = .ok points ∧
      InRound (fun i => controlPoints.getD i ⟨0, 0⟩) t controlPoints.length (controlPoints.length - 1) 0 points := by
  generalize controlPoints.length - 1 = rounds
  induction rounds with
  | zero =>
    refine ⟨controlPoints, rfl, rfl, ?_, ?_⟩
    · intro j before
      omega
    · intro j _ room
      rw [bezierRow, List.getD_eq_getElem?_getD, List.getElem?_eq_getElem (by omega)]
      rfl
  | succ rounds ih =>
    obtain ⟨middle, ran, start⟩ := ih
    obtain ⟨next, taken, kept⟩ := start.round
    refine ⟨next, ?_, kept⟩
    rw [List.range'_concat, List.foldlM_append, ran, Nat.one_mul, Nat.add_comm 1]
    exact (bind_pure _).trans taken

theorem deCasteljau_eq {controlPoints : List QPointF} (nonempty : controlPoints ≠ []) (t : ℚ) :
    deCasteljau controlPoints t =
      .ok (bezierRow (fun i => controlPoints.getD i ⟨0, 0⟩) t (controlPoints.length - 1) 0) := by
  have positive : 0 < controlPoints.length := List.length_pos_iff.mpr nonempty
  obtain ⟨points, ran, last⟩ := rounds_complete controlPoints t
  obtain ⟨bound, front⟩ := List.getElem?_eq_some_iff.mp (last.ahead 0 (Nat.le_refl 0) (by omega))
  have read : QVector.at points 0 = .ok points[0] := QVector.at_natCast points 0 bound
  rw [deCasteljau, ran]
  change QVector.at points 0 = _
  rw [read, front]

theorem bernstein_form (controlPoints : List QPointF) (nonempty : controlPoints ≠ []) (t : ℚ)
    (coordinate : QPointF → ℚ) :
    (lerp t ^ (controlPoints.length - 1)) (fun i => coordinate (controlPoints.getD i ⟨0, 0⟩)) 0 =
      ∑ i : Fin controlPoints.length, (controlPoints.length - 1).choose i * (1 - t) ^ (controlPoints.length - 1 - i) *
        t ^ (i : ℕ) * coordinate (controlPoints.get i) := by
  have degree : controlPoints.length - 1 + 1 = controlPoints.length :=
    Nat.succ_pred_eq_of_pos (List.length_pos_iff.mpr nonempty)
  rw [lerp_pow_apply, degree, Finset.sum_range]
  apply Finset.sum_congr rfl
  intro i _
  rw [Nat.zero_add, List.getD_eq_getElem _ _ i.isLt, smul_eq_mul, bernsteinWeight]
  rfl

/-- `deCasteljau` reads within its copy of the points, and its result is the value of the Bernstein form. -/
theorem deCasteljau_bernstein (controlPoints : List QPointF) (nonempty : controlPoints ≠ []) (t : ℚ) :
    deCasteljau controlPoints t = .ok
      ⟨∑ i : Fin controlPoints.length, (controlPoints.length - 1).choose i * (1 - t) ^ (controlPoints.length - 1 - i) *
          t ^ (i : ℕ) * (controlPoints.get i).x,
        ∑ i : Fin controlPoints.length, (controlPoints.length - 1).choose i * (1 - t) ^ (controlPoints.length - 1 - i) *
          t ^ (i : ℕ) * (controlPoints.get i).y⟩ := by
  rw [deCasteljau_eq nonempty t]
  congr 1
  ext
  · rw [bezierRow_x]
    exact bernstein_form controlPoints nonempty t QPointF.x
  · rw [bezierRow_y]
    exact bernstein_form controlPoints nonempty t QPointF.y

theorem deCasteljau_arch : deCasteljau [⟨0, 0⟩, ⟨1, 2⟩, ⟨2, 0⟩] (1 / 2) = .ok ⟨1, 1⟩ := by
  rw [deCasteljau_bernstein [⟨0, 0⟩, ⟨1, 2⟩, ⟨2, 0⟩] (by simp) (1 / 2)]
  simp only [List.length_cons, List.length_nil, Fin.sum_univ_succ, Fin.sum_univ_zero]
  norm_num [Nat.choose]

end Shape

end XYAnnotation

import XYAnnotation.Annotations.RawPoints

namespace XYAnnotation

open Library

namespace YPolygonPoints

theorem toRaw_injective {p q : YPolygonPoints} (same : p.toRaw = q.toRaw) : p = q := by
  obtain ⟨img, ori, offset⟩ := RawPoints.mk.inj same
  exact points_ext img ori offset

theorem outcome_injective {points : YPolygonPoints} {first second : Except Fault YPolygonPoints}
    (same : points.outcome first = points.outcome second) : first = second := by
  cases first with
  | error fault =>
    cases second with
    | error other =>
      rw [Except.error.inj (Prod.mk.inj same).1]
    | ok q => cases (Prod.mk.inj same).1
  | ok p =>
    cases second with
    | error other => cases (Prod.mk.inj same).1
    | ok q => rw [toRaw_injective (Prod.mk.inj same).2]

end YPolygonPoints

namespace Shape

variable {s t result : Shape} {call : PointCall}

def pointsAfter (s : Shape) (call : PointCall) : YPolygonPoints :=
  match (s.call call).map Shape.points with
  | .ok points => points
  | .error _ => s.points

theorem pointsAfter_ok (done : s.call call = .ok result) : s.pointsAfter call = result.points := by
  rw [pointsAfter, done]
  rfl

theorem pointsAfter_error {fault : Fault} (failed : s.call call = .error fault) : s.pointsAfter call = s.points := by
  rw [pointsAfter, failed]
  rfl

theorem pointsAfter_congr (type : t.type = s.type) (points : t.points = s.points) (call : PointCall) :
    t.pointsAfter call = s.pointsAfter call := by
  have ran := t.run_call call
  rw [type, points, s.run_call call] at ran
  have same := YPolygonPoints.outcome_injective ran
  rw [pointsAfter, pointsAfter, same, points]

def inserts (s : Shape) : Bool :=
  match s.type with
  | .rectangle | .line | .curve => false
  | _ => true

theorem call_insertPoint (s : Shape) (point : QPointF) (pos : ℤ) :
    s.call (.insertPoint point pos) =
      if s.inserts then
        if pos < s.points.size ∧ 0 ≤ pos then do
          let points ← s.points.insert point pos
          .ok { s with points }
        else if pos = s.points.size then .ok { s with points := s.points.append point }
        else .ok s
      else .ok s := by
  unfold Shape.call insertPoint inserts
  cases s.type <;> rfl

theorem pointsAfter_insert (s : Shape) (point : QPointF) (pos : ℤ) :
    (s.pointsAfter (.insertPoint point pos)).oriPoints =
      if s.inserts ∧ 0 ≤ pos then s.points.oriPoints.insertIdx pos.toNat point else s.points.oriPoints := by
  have call := s.call_insertPoint point pos
  by_cases takes : s.inserts
  · rw [if_pos takes] at call
    by_cases inside : pos < s.points.size ∧ 0 ≤ pos
    · obtain ⟨points, inserted⟩ := YPolygonPoints.insert_inside s.points point inside.2 (le_of_lt inside.1)
      rw [if_pos inside, inserted] at call
      rw [pointsAfter_ok call, if_pos ⟨takes, inside.2⟩]
      exact (YPolygonPoints.insert_completes inserted).2.2.2.1
    · rw [if_neg inside] at call
      unfold YPolygonPoints.size at inside call
      by_cases last : pos = s.points.oriPoints.length
      · rw [if_pos last] at call
        rw [pointsAfter_ok call, if_pos ⟨takes, by omega⟩, last, Int.toNat_natCast, List.insertIdx_length_self]
        rfl
      · rw [if_neg last] at call
        rw [pointsAfter_ok call]
        split
        · rw [List.insertIdx_of_length_lt]
          omega
        · rfl
  · rw [if_neg takes] at call
    rw [pointsAfter_ok call, if_neg fun both => takes both.1]

theorem deletePoint_natCast (s : Shape) (index : ℕ) :
    ∃ deleted, s.deletePoint index = .ok deleted ∧ deleted.points.oriPoints = s.points.oriPoints.eraseIdx index := by
  by_cases beyond : index ≥ s.points.oriPoints.length
  · refine ⟨s, if_pos (Int.ofNat_le.mpr beyond), ?_⟩
    rw [List.eraseIdx_of_length_le beyond]
  · have inside : ¬ (s.points.size : ℤ) ≤ index := by
      unfold YPolygonPoints.size
      omega
    have done : s.deletePoint index = _ := if_neg inside
    rw [YPolygonPoints.erase, if_neg inside, if_pos (Int.natCast_nonneg index)] at done
    exact ⟨_, done, rfl⟩

theorem pointsAfter_delete (s : Shape) (index : ℕ) :
    (s.pointsAfter (.deletePoint index)).oriPoints = s.points.oriPoints.eraseIdx index := by
  obtain ⟨deleted, done, points⟩ := s.deletePoint_natCast index
  have call : s.call (.deletePoint index) = .ok deleted := done
  rw [pointsAfter_ok call]
  exact points

theorem pointsAfter_update_length (s : Shape) (point : QPointF) (pos : ℤ) :
    (s.pointsAfter (.updatePoint point pos)).size = s.points.size := by
  cases done : s.call (.updatePoint point pos) with
  | error fault => rw [pointsAfter_error done]
  | ok result =>
    obtain ⟨points, replaced, rfl⟩ := updatePoint_completes done
    obtain ⟨_, _, _, ori, _⟩ := YPolygonPoints.replace_completes replaced
    rw [pointsAfter_ok done, YPolygonPoints.size, ori, List.length_set]
    rfl

/-- Where a call leaves the vertex at an index of the list: at an index, or nowhere. -/
def follow (s : Shape) (i : ℕ) : PointCall → Option ℕ
  | .insertPoint _ pos => if s.inserts ∧ 0 ≤ pos ∧ pos ≤ i then some (i + 1) else some i
  | .deletePoint index => if index = i then none else if index < i then some (i - 1) else some i
  | _ => some i

variable {i j : ℕ}

theorem follow_vertex (bound : i < s.pointCount) (followed : s.follow i call = some j)
    (recorded : (∀ point pos, call ≠ .updatePoint point pos) ∧ ∀ delta, call ≠ .move delta) :
    (s.pointsAfter call).oriPoints[j]? = s.points.oriPoints[i]? := by
  cases call with
  | appendPoint point =>
    cases followed
    exact List.getElem?_append_left bound
  | insertPoint point pos =>
    rw [pointsAfter_insert]
    simp only [follow] at followed
    split at followed
    · rename_i shifts
      cases followed
      rw [if_pos ⟨shifts.1, shifts.2.1⟩, List.getElem?_insertIdx_of_gt (by omega)]
      rfl
    · rename_i stays
      cases followed
      split
      · rename_i takes
        rw [List.getElem?_insertIdx_of_lt]
        simp only [takes, true_and, not_le] at stays
        omega
      · rfl
  | updatePoint point pos => exact absurd rfl (recorded.1 point pos)
  | deletePoint index =>
    rw [pointsAfter_delete]
    simp only [follow] at followed
    split at followed
    · cases followed
    · split at followed
      · cases followed
        rw [List.getElem?_eraseIdx_of_ge (by omega), Nat.sub_add_cancel (by omega)]
      · cases followed
        rw [List.getElem?_eraseIdx_of_lt (by omega)]
  | move delta => exact absurd rfl (recorded.2 delta)

theorem follow_lt (bound : i < s.pointCount) (followed : s.follow i call = some j) :
    j < (s.pointsAfter call).size := by
  have known : ((∀ point pos, call ≠ .updatePoint point pos) ∧ ∀ delta, call ≠ .move delta) →
      j < (s.pointsAfter call).size := by
    intro recorded
    have same := follow_vertex bound followed recorded
    rw [List.getElem?_eq_getElem bound] at same
    exact (List.getElem?_eq_some_iff.mp same).1
  cases call with
  | updatePoint point pos =>
    cases followed
    rw [pointsAfter_update_length]
    exact bound
  | move delta =>
    cases followed
    have call : s.call (.move delta) = .ok { s with points := s.points.translate delta } := move_eq s delta
    rw [pointsAfter_ok call, YPolygonPoints.translate, YPolygonPoints.size, List.length_map]
    exact bound
  | appendPoint point => exact known ⟨by simp, by simp⟩
  | insertPoint point pos => exact known ⟨by simp, by simp⟩
  | deletePoint index => exact known ⟨by simp, by simp⟩

def pointsAfterAny (s : Shape) (call : Option PointCall) : YPolygonPoints := call.elim s.points s.pointsAfter

end Shape

end XYAnnotation

import XYAnnotation.Annotations.Shape

namespace XYAnnotation

namespace YPolygonPoints

@[simp] theorem size_append (points : YPolygonPoints) (point : QPointF) :
    (points.append point).size = points.size + 1 := by simp [append, size]

theorem replace_completes {points result : YPolygonPoints} {point : QPointF} {pos : ℤ}
    (replaced : points.replace point pos = .ok result) :
    0 ≤ pos ∧ pos < points.size ∧ result.offset = points.offset ∧
      result.oriPoints = points.oriPoints.set pos.toNat point ∧
      result.imgPoints = points.imgPoints.set pos.toNat (point + points.offset) := by
  unfold replace at replaced
  split at replaced
  · cases replaced
  · split at replaced
    · rename_i inside
      cases replaced
      exact ⟨inside.1, inside.2, rfl, rfl, rfl⟩
    · cases replaced

theorem insert_completes {points result : YPolygonPoints} {point : QPointF} {pos : ℤ}
    (inserted : points.insert point pos = .ok result) :
    0 ≤ pos ∧ pos ≤ points.size ∧ result.offset = points.offset ∧
      result.oriPoints = points.oriPoints.insertIdx pos.toNat point ∧
      result.imgPoints = points.imgPoints.insertIdx pos.toNat (point + points.offset) := by
  unfold insert at inserted
  split at inserted
  · cases inserted
  · rename_i bound
    split at inserted
    · rename_i low
      cases inserted
      exact ⟨low, by omega, rfl, rfl, rfl⟩
    · cases inserted

theorem erase_completes {points result : YPolygonPoints} {idx : ℤ} (erased : points.erase idx = .ok result) :
    0 ≤ idx ∧ idx < points.size ∧ result.offset = points.offset ∧
      result.oriPoints = points.oriPoints.eraseIdx idx.toNat ∧
      result.imgPoints = points.imgPoints.eraseIdx idx.toNat := by
  unfold erase at erased
  split at erased
  · cases erased
  · rename_i bound
    split at erased
    · rename_i low
      cases erased
      exact ⟨low, by omega, rfl, rfl, rfl⟩
    · cases erased

theorem erase_size {points result : YPolygonPoints} {idx : ℤ} (erased : points.erase idx = .ok result) :
    result.size = points.size - 1 := by
  obtain ⟨low, high, _, ori, _⟩ := erase_completes erased
  have bound : idx.toNat < points.oriPoints.length := by
    unfold size at high
    omega
  rw [size, ori, List.length_eraseIdx_of_lt bound]
  rfl

theorem points_ext {p q : YPolygonPoints} (img : p.imgPoints = q.imgPoints) (ori : p.oriPoints = q.oriPoints)
    (offset : p.offset = q.offset) : p = q := by
  cases p
  cases q
  simp_all

theorem replace_inside (old : YPolygonPoints) (point : QPointF) {pos : ℤ} (low : 0 ≤ pos) (high : pos < old.size) :
    ∃ points, old.replace point pos = .ok points := by
  rw [replace, if_neg (by omega), if_pos ⟨low, high⟩]
  exact ⟨_, rfl⟩

theorem insert_inside (old : YPolygonPoints) (point : QPointF) {pos : ℤ} (low : 0 ≤ pos) (high : pos ≤ old.size) :
    ∃ points, old.insert point pos = .ok points := by
  rw [insert, if_neg (by omega), if_pos low]
  exact ⟨_, rfl⟩

def translate (points : YPolygonPoints) (delta : QPointF) : YPolygonPoints :=
  { points with
    oriPoints := points.oriPoints.map (· + delta)
    imgPoints := points.oriPoints.map fun vertex => vertex + delta + points.offset
    inStep := by simp }

def movedUpTo (points : YPolygonPoints) (delta : QPointF) (k : ℕ) : YPolygonPoints :=
  { points with
    oriPoints := (points.oriPoints.take k).map (· + delta) ++ points.oriPoints.drop k
    imgPoints := (points.oriPoints.take k).map (fun vertex => vertex + delta + points.offset) ++
      points.imgPoints.drop k
    inStep := by simp [points.inStep] }

theorem movedUpTo_zero (points : YPolygonPoints) (delta : QPointF) : points.movedUpTo delta 0 = points := by
  simp [movedUpTo]

theorem movedUpTo_size (points : YPolygonPoints) (delta : QPointF) :
    points.movedUpTo delta points.size = points.translate delta := by
  have all : points.oriPoints.take points.size = points.oriPoints := List.take_length
  have none : points.oriPoints.drop points.size = [] := List.drop_length
  have noneImg : points.imgPoints.drop points.size = [] := by
    rw [size, ← points.inStep, List.drop_length]
  simp only [movedUpTo, translate, all, none, noneImg, List.append_nil]

theorem set_split {α : Type} (front back : List α) (old new : α) {k : ℕ} (length : front.length = k) :
    (front ++ old :: back).set k new = front ++ new :: back := by
  subst length
  simp

theorem movedUpTo_step (points : YPolygonPoints) (delta : QPointF) {k : ℕ} (bound : k < points.size) :
    (do
      let vertex ← (points.movedUpTo delta k).at k
      (points.movedUpTo delta k).replace (vertex + delta) k) = .ok (points.movedUpTo delta (k + 1)) := by
  have ori : k < points.oriPoints.length := bound
  have img : k < points.imgPoints.length := by
    rw [points.inStep]
    exact ori
  have front : ((points.oriPoints.take k).map (· + delta)).length = k := by
    rw [List.length_map, List.length_take_of_le (Nat.le_of_lt ori)]
  have frontImg : ((points.oriPoints.take k).map fun vertex => vertex + delta + points.offset).length = k := by
    rw [List.length_map, List.length_take_of_le (Nat.le_of_lt ori)]
  have count : (points.movedUpTo delta k).size = points.size := by
    simp [movedUpTo, size]
    omega
  have read : (points.movedUpTo delta k).at k = .ok points.oriPoints[k] := by
    have here : (points.movedUpTo delta k).oriPoints[k]? = some points.oriPoints[k] := by
      rw [movedUpTo, List.getElem?_append_right (Nat.le_of_eq front), front, Nat.sub_self,
        List.getElem?_drop, Nat.add_zero, List.getElem?_eq_getElem ori]
    rw [YPolygonPoints.at, count, if_neg (by omega), QVector.at, if_pos (by omega), Int.toNat_natCast, here]
  have replaced : (points.movedUpTo delta k).replace (points.oriPoints[k] + delta) k =
      .ok (points.movedUpTo delta (k + 1)) := by
    rw [replace, count, if_neg (by omega), if_pos (by omega)]
    simp only [movedUpTo, Int.toNat_natCast]
    congr 2
    · rw [List.drop_eq_getElem_cons img, set_split _ _ _ _ frontImg,
        ← List.take_append_getElem ori, List.map_append, List.append_assoc]
      rfl
    · rw [List.drop_eq_getElem_cons ori, set_split _ _ _ _ front,
        ← List.take_append_getElem ori, List.map_append, List.append_assoc]
      rfl
  rw [read]
  exact replaced

/-- Both vertex lists hold the same vertices, the given offset apart. -/
structure Paired (offset : QPointF) (points : YPolygonPoints) : Prop where
  offset_eq : points.offset = offset
  aligned : points.imgPoints = points.oriPoints.map (· + points.offset)

namespace Paired

variable {offset : QPointF} {points result : YPolygonPoints}

theorem append (paired : points.Paired offset) (point : QPointF) : (points.append point).Paired offset where
  offset_eq := paired.offset_eq
  aligned := by simp [YPolygonPoints.append, paired.aligned]

theorem replace (paired : points.Paired offset) {point : QPointF} {pos : ℤ}
    (done : points.replace point pos = .ok result) : result.Paired offset := by
  have ⟨_, _, same, ori, img⟩ := replace_completes done
  apply Paired.mk (same.trans paired.offset_eq)
  rw [img, ori, same, List.map_set, paired.aligned]

theorem insert (paired : points.Paired offset) {point : QPointF} {pos : ℤ}
    (done : points.insert point pos = .ok result) : result.Paired offset := by
  have ⟨_, _, same, ori, img⟩ := insert_completes done
  apply Paired.mk (same.trans paired.offset_eq)
  rw [img, ori, same, List.map_insertIdx, paired.aligned]

theorem erase (paired : points.Paired offset) {idx : ℤ} (done : points.erase idx = .ok result) :
    result.Paired offset := by
  have ⟨_, _, same, ori, img⟩ := erase_completes done
  apply Paired.mk (same.trans paired.offset_eq)
  rw [img, ori, same, ← List.eraseIdx_map, paired.aligned]

theorem translate (paired : points.Paired offset) (delta : QPointF) : (points.translate delta).Paired offset where
  offset_eq := paired.offset_eq
  aligned := by simp [YPolygonPoints.translate, Function.comp_def]

end Paired

end YPolygonPoints

namespace Shape

open YPolygonPoints

@[simp] theorem appendPoint_pointCount (shape : Shape) (point : QPointF) :
    (shape.appendPoint point).pointCount = shape.pointCount + 1 := size_append _ _

@[simp] theorem setIsClosed_pointCount (shape : Shape) (isClosed : Bool) :
    (shape.setIsClosed isClosed).pointCount = shape.pointCount := rfl

@[simp] theorem appendPoint_type (shape : Shape) (point : QPointF) :
    (shape.appendPoint point).type = shape.type := rfl

@[simp] theorem setIsClosed_type (shape : Shape) (isClosed : Bool) :
    (shape.setIsClosed isClosed).type = shape.type := rfl

@[simp] theorem setIsClosed_isClosed (shape : Shape) (isClosed : Bool) :
    (shape.setIsClosed isClosed).isClosed = isClosed := rfl

theorem move_eq (shape : Shape) (delta : QPointF) :
    shape.move delta = .ok { shape with points := shape.points.translate delta } := by
  have rounds : ∀ k ≤ shape.points.size,
      (List.range k).foldlM (fun (points : YPolygonPoints) (i : ℕ) => do
        let vertex ← points.at i
        points.replace (vertex + delta) i) shape.points = .ok (shape.points.movedUpTo delta k) := by
    intro k
    induction k with
    | zero =>
      intro _
      rw [movedUpTo_zero]
      rfl
    | succ k ih =>
      intro bound
      rw [List.range_succ, List.foldlM_append, ih (by omega)]
      have step := movedUpTo_step shape.points delta (k := k) (by omega)
      simp only [List.foldlM_cons, List.foldlM_nil, bind_pure]
      exact step
  rw [move, rounds _ (Nat.le_refl _), movedUpTo_size]
  rfl

theorem updatePoint_completes {shape result : Shape} {point : QPointF} {pos : ℤ}
    (updated : shape.updatePoint point pos = .ok result) :
    ∃ points, shape.points.replace point pos = .ok points ∧ result = { shape with points } := by
  unfold updatePoint at updated
  split at updated
  · cases replaced : shape.points.replace point pos with
    | error fault => simp [replaced, Bind.bind, Except.bind] at updated
    | ok points =>
      rw [replaced] at updated
      cases updated
      exact ⟨points, rfl, rfl⟩
  · cases updated

theorem insertPoint_completes {shape result : Shape} {point : QPointF} {pos : ℤ}
    (inserted : shape.insertPoint point pos = .ok result) :
    result = shape ∨ shape.type.twoPoint = false ∧
      ((∃ points, shape.points.insert point pos = .ok points ∧ result = { shape with points }) ∨
        pos = shape.points.size ∧ result = { shape with points := shape.points.append point }) := by
  unfold insertPoint at inserted
  split at inserted
  · exact .inl (Except.ok.inj inserted).symm
  · exact .inl (Except.ok.inj inserted).symm
  · exact .inl (Except.ok.inj inserted).symm
  · rename_i notRectangle notLine _
    have more : shape.type.twoPoint = false := by
      cases type : shape.type <;> simp_all [DrawMode.twoPoint]
    split at inserted
    · cases done : shape.points.insert point pos with
      | error fault => simp [done, Bind.bind, Except.bind] at inserted
      | ok points =>
        rw [done] at inserted
        cases inserted
        exact .inr ⟨more, .inl ⟨points, rfl, rfl⟩⟩
    · split at inserted
      · rename_i last
        exact .inr ⟨more, .inr ⟨last, (Except.ok.inj inserted).symm⟩⟩
      · exact .inl (Except.ok.inj inserted).symm

theorem deletePoint_completes {shape result : Shape} {index : ℤ}
    (deleted : shape.deletePoint index = .ok result) :
    index ≥ shape.points.size ∧ result = shape ∨
      index < shape.points.size ∧ ∃ points, shape.points.erase index = .ok points ∧ result = { shape with points } := by
  unfold deletePoint at deleted
  split at deleted
  · rename_i beyond
    exact .inl ⟨beyond, (Except.ok.inj deleted).symm⟩
  · rename_i inside
    cases erased : shape.points.erase index with
    | error fault => simp [erased, Bind.bind, Except.bind] at deleted
    | ok points =>
      rw [erased] at deleted
      cases deleted
      exact .inr ⟨by omega, points, rfl, rfl⟩

end Shape

end XYAnnotation

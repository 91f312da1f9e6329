import XYAnnotation.Annotations.Editing
import XYAnnotation.Library.Attempts
import XYAnnotation.Library.Runs

namespace XYAnnotation

open Library

namespace QVector

variable {α : Type}

/-- `replace(i, value)`, which asserts `0 <= i < size()`. -/
def replace (values : List α) (i : ℤ) (value : α) : Except Fault (List α) :=
  if 0 ≤ i ∧ i < values.length then .ok (values.set i.toNat value) else .error .outOfRange

def insert (values : List α) (i : ℤ) (value : α) : Except Fault (List α) :=
  if 0 ≤ i ∧ i ≤ values.length then .ok (values.insertIdx i.toNat value) else .error .outOfRange

def erase (values : List α) (i : ℤ) : Except Fault (List α) :=
  if 0 ≤ i ∧ i < values.length then .ok (values.eraseIdx i.toNat) else .error .outOfRange

end QVector

/-- `YPolygonPoints` as its members are declared: two vectors that nothing ties together. -/
structure RawPoints where
  imgPoints : List QPointF
  oriPoints : List QPointF
  offset : QPointF
  deriving DecidableEq, Repr

/-- A method that changes the vectors one after the other and may throw in between. -/
abbrev Method := Attempt Fault RawPoints

namespace RawPoints

def setImgWH (points : RawPoints) (width height : ℤ) : RawPoints :=
  { points with offset := ⟨width / 2, height / 2⟩ }

def size (points : RawPoints) : ℕ := points.oriPoints.length

def append (point : QPointF) : Method Unit := do
  modify fun points => { points with oriPoints := points.oriPoints ++ [point] }
  modify fun points => { points with imgPoints := points.imgPoints ++ [point + points.offset] }

def «at» (idx : ℤ) : Method QPointF := do
  let points ← get
  if points.size < idx then throw .idxOutOfRange
  else check (QVector.at points.oriPoints idx)

/-- `replace` and `insert`: the check compares with `<`, and then each vector is changed. -/
def change (change : List QPointF → ℤ → QPointF → Except Fault (List QPointF)) (point : QPointF) (pos : ℤ) :
    Method Unit := do
  let points ← get
  if points.size < pos then throw .idxOutOfRange
  else do
    let oriPoints ← check (change points.oriPoints pos point)
    modify fun points => { points with oriPoints }
    let imgPoints ← check (change points.imgPoints pos (point + points.offset))
    modify fun points => { points with imgPoints }

def replace (point : QPointF) (pos : ℤ) : Method Unit := change QVector.replace point pos

def insert (point : QPointF) (pos : ℤ) : Method Unit := change QVector.insert point pos

def erase (idx : ℤ) : Method Unit := do
  let points ← get
  if points.size ≤ idx then throw .idxOutOfRange
  else do
    let oriPoints ← check (QVector.erase points.oriPoints idx)
    modify fun points => { points with oriPoints }
    let imgPoints ← check (QVector.erase points.imgPoints idx)
    modify fun points => { points with imgPoints }

end RawPoints

inductive PointCall
  | appendPoint (point : QPointF)
  | insertPoint (point : QPointF) (pos : ℤ)
  | updatePoint (point : QPointF) (pos : ℤ)
  | deletePoint (index : ℕ)
  | move (delta : QPointF)

namespace RawPoints

def insertPoint (type : DrawMode) (point : QPointF) (pos : ℤ) : Method Unit :=
  match type with
  | .rectangle | .line | .curve => pure ()
  | _ => do
    let points ← get
    if pos < points.size ∧ 0 ≤ pos then insert point pos
    else if pos = points.size then append point
    else pure ()

def updatePoint (point : QPointF) (pos : ℤ) : Method Unit := do
  let points ← get
  if pos < points.size ∧ 0 ≤ pos then replace point pos else throw .posOutOfRange

def deletePoint (index : ℤ) : Method Unit := do
  let points ← get
  if index ≥ points.size then pure () else erase index

def moveFrom (delta : QPointF) : List ℕ → Method Unit
  | [] => pure ()
  | i :: rest => do
    let vertex ← RawPoints.at i
    replace (vertex + delta) i
    moveFrom delta rest

def move (delta : QPointF) : Method Unit := do
  let points ← get
  moveFrom delta (List.range points.size)

end RawPoints

def PointCall.method (type : DrawMode) : PointCall → Method Unit
  | .appendPoint point => RawPoints.append point
  | .insertPoint point pos => RawPoints.insertPoint type point pos
  | .updatePoint point pos => RawPoints.updatePoint point pos
  | .deletePoint index => RawPoints.deletePoint index
  | .move delta => RawPoints.move delta

def Shape.call (shape : Shape) : PointCall → Except Fault Shape
  | .appendPoint point => .ok (shape.appendPoint point)
  | .insertPoint point pos => shape.insertPoint point pos
  | .updatePoint point pos => shape.updatePoint point pos
  | .deletePoint index => shape.deletePoint index
  | .move delta => shape.move delta

def YPolygonPoints.toRaw (points : YPolygonPoints) : RawPoints := ⟨points.imgPoints, points.oriPoints, points.offset⟩

namespace RawPoints

variable {change : List QPointF → ℤ → QPointF → Except Fault (List QPointF)} {points : RawPoints}
  {point : QPointF} {pos : ℤ}

theorem change_outside (outside : points.size < pos) :
    (RawPoints.change change point pos).run points = (.error .idxOutOfRange, points) := by
  have guard : (RawPoints.change change point pos).run points =
      (if points.size < pos then throw .idxOutOfRange else _ : Method Unit).run points := rfl
  rw [guard, if_pos outside]
  rfl

theorem change_refused (inside : ¬ points.size < pos) {fault : Fault}
    (refused : change points.oriPoints pos point = .error fault) :
    (RawPoints.change change point pos).run points = (.error fault, points) := by
  have guard : (RawPoints.change change point pos).run points =
      (if points.size < pos then throw .idxOutOfRange else _ : Method Unit).run points := rfl
  rw [guard, if_neg inside, run_bind, run_check, refused]

theorem change_both (inside : ¬ points.size < pos) {oriPoints imgPoints : List QPointF}
    (first : change points.oriPoints pos point = .ok oriPoints)
    (second : change points.imgPoints pos (point + points.offset) = .ok imgPoints) :
    (RawPoints.change change point pos).run points = (.ok (), ⟨imgPoints, oriPoints, points.offset⟩) := by
  have guard : (RawPoints.change change point pos).run points =
      (if points.size < pos then throw .idxOutOfRange else _ : Method Unit).run points := rfl
  rw [guard, if_neg inside, run_bind, run_check, first, second]
  rfl

end RawPoints

namespace YPolygonPoints

def outcome (points : YPolygonPoints) : Except Fault YPolygonPoints → Except Fault Unit × RawPoints
  | .ok result => (.ok (), result.toRaw)
  | .error fault => (.error fault, points.toRaw)

variable (points : YPolygonPoints) (point : QPointF)

theorem run_at (idx : ℤ) : (RawPoints.at idx).run points.toRaw = (points.at idx, points.toRaw) := by
  have guard : (RawPoints.at idx).run points.toRaw =
      (if points.size < idx then throw .idxOutOfRange
        else check (QVector.at points.oriPoints idx) : Method QPointF).run points.toRaw := rfl
  rw [guard, YPolygonPoints.at]
  split
  · rfl
  · rfl

theorem run_replace (pos : ℤ) :
    (RawPoints.replace point pos).run points.toRaw = points.outcome (points.replace point pos) := by
  unfold RawPoints.replace YPolygonPoints.replace
  by_cases outside : points.size < pos
  · rw [if_pos outside]
    exact RawPoints.change_outside outside
  · rw [if_neg outside]
    by_cases inside : 0 ≤ pos ∧ pos < points.size
    · rw [if_pos inside]
      have insideImg : 0 ≤ pos ∧ pos < points.imgPoints.length := by
        rw [points.inStep]
        exact inside
      exact RawPoints.change_both outside (if_pos inside) (if_pos insideImg)
    · rw [if_neg inside]
      exact RawPoints.change_refused outside (if_neg inside)

theorem run_insert (pos : ℤ) :
    (RawPoints.insert point pos).run points.toRaw = points.outcome (points.insert point pos) := by
  unfold RawPoints.insert YPolygonPoints.insert
  by_cases outside : points.size < pos
  · rw [if_pos outside]
    exact RawPoints.change_outside outside
  · rw [if_neg outside]
    by_cases low : 0 ≤ pos
    · rw [if_pos low]
      have inside : 0 ≤ pos ∧ pos ≤ points.oriPoints.length := ⟨low, not_lt.mp outside⟩
      have insideImg : 0 ≤ pos ∧ pos ≤ points.imgPoints.length := by
        rw [points.inStep]
        exact inside
      exact RawPoints.change_both outside (if_pos inside) (if_pos insideImg)
    · rw [if_neg low]
      exact RawPoints.change_refused outside (if_neg fun inside => low inside.1)

theorem run_erase (idx : ℤ) :
    (RawPoints.erase idx).run points.toRaw = points.outcome (points.erase idx) := by
  have guard : (RawPoints.erase idx).run points.toRaw =
      (if points.size ≤ idx then throw .idxOutOfRange else _ : Method Unit).run points.toRaw := rfl
  rw [guard, YPolygonPoints.erase]
  by_cases outside : points.size ≤ idx
  · rw [if_pos outside, if_pos outside]
    rfl
  · rw [if_neg outside, if_neg outside, run_bind, run_check]
    by_cases low : 0 ≤ idx
    · have inside : 0 ≤ idx ∧ idx < points.oriPoints.length := ⟨low, not_le.mp outside⟩
      have insideImg : 0 ≤ idx ∧ idx < points.imgPoints.length := by
        rw [points.inStep]
        exact inside
      rw [if_pos low, show QVector.erase points.toRaw.oriPoints idx = .ok _ from if_pos inside,
        show QVector.erase points.toRaw.imgPoints idx = .ok _ from if_pos insideImg]
      rfl
    · have refused : QVector.erase points.toRaw.oriPoints idx = .error .outOfRange :=
        if_neg fun inside => low inside.1
      rw [if_neg low, refused]
      rfl

theorem run_moveFrom (delta : QPointF) {k n : ℕ} (bound : k + n = points.size) :
    (RawPoints.moveFrom delta (List.range' k n)).run (points.movedUpTo delta k).toRaw =
      (.ok (), (points.translate delta).toRaw) := by
  induction n generalizing k with
  | zero =>
    rw [Nat.add_zero] at bound
    rw [bound, movedUpTo_size]
    rfl
  | succ n ih =>
    have step := movedUpTo_step points delta (k := k) (by omega)
    obtain ⟨vertex, read, replaced⟩ := bind_completes step
    rw [List.range'_succ, RawPoints.moveFrom, run_bind, run_at, read]
    simp only
    rw [run_bind, run_replace, replaced]
    exact ih (by omega)

end YPolygonPoints

def PointCall.outside (size : ℕ) : PointCall → Prop
  | .insertPoint _ pos => pos < 0 ∨ size < pos
  | .updatePoint _ pos => pos < 0 ∨ size ≤ pos
  | .deletePoint index => size ≤ index
  | _ => False

namespace Shape

variable {shape result : Shape} {call : PointCall}

theorem map_points (shape : Shape) (changed : Except Fault YPolygonPoints) :
    (do
      let points ← changed
      .ok { shape with points } : Except Fault Shape).map Shape.points = changed := by
  cases changed <;> rfl

theorem run_read (points : YPolygonPoints) (body : RawPoints → Method Unit) :
    (get >>= body).run points.toRaw = (body points.toRaw).run points.toRaw := rfl

theorem size_toRaw (points : YPolygonPoints) : points.toRaw.size = points.size := rfl

theorem run_insertPoint (shape : Shape) (point : QPointF) (pos : ℤ) :
    (RawPoints.insertPoint shape.type point pos).run shape.points.toRaw =
      shape.points.outcome ((shape.insertPoint point pos).map Shape.points) := by
  cases kind : shape.type with
  | rectangle | line | curve =>
    simp only [RawPoints.insertPoint, Shape.insertPoint, kind]
    rfl
  | polygon | polyline | none =>
    simp only [RawPoints.insertPoint, Shape.insertPoint, kind]
    rw [run_read, size_toRaw]
    split
    · cases done : shape.points.insert point pos with
      | error fault =>
        rw [shape.points.run_insert, done]
        rfl
      | ok points =>
        rw [shape.points.run_insert, done]
        rfl
    · split
      · rfl
      · rfl

theorem run_call (shape : Shape) (call : PointCall) :
    (call.method shape.type).run shape.points.toRaw =
      shape.points.outcome ((shape.call call).map Shape.points) := by
  cases call with
  | appendPoint point => rfl
  | insertPoint point pos => exact shape.run_insertPoint point pos
  | updatePoint point pos =>
    rw [PointCall.method, RawPoints.updatePoint, Shape.call, Shape.updatePoint, run_read, size_toRaw]
    split
    · rw [map_points]
      exact shape.points.run_replace point pos
    · rfl
  | deletePoint index =>
    rw [PointCall.method, RawPoints.deletePoint, Shape.call, Shape.deletePoint, run_read, size_toRaw]
    split
    · rfl
    · rw [map_points]
      exact shape.points.run_erase index
  | move delta =>
    have moved := shape.points.run_moveFrom delta (k := 0) (Nat.zero_add _)
    rw [YPolygonPoints.movedUpTo_zero, ← List.range_eq_range'] at moved
    rw [PointCall.method, RawPoints.move, run_read, size_toRaw, moved, Shape.call, move_eq]
    rfl

/-- The guards of the shape make every access of the vectors safe: only `updatePoint` fails, and it
    throws. -/
theorem call_fault {fault : Fault} (failed : shape.call call = .error fault) : fault = .posOutOfRange := by
  cases call with
  | appendPoint point => cases failed
  | insertPoint point pos =>
    simp only [Shape.call, Shape.insertPoint] at failed
    split at failed
    · cases failed
    · cases failed
    · cases failed
    · split at failed
      · rename_i inside
        rw [YPolygonPoints.insert, if_neg (by omega), if_pos inside.2] at failed
        cases failed
      · split at failed
        · cases failed
        · cases failed
  | updatePoint point pos =>
    simp only [Shape.call, Shape.updatePoint] at failed
    split at failed
    · rename_i inside
      rw [YPolygonPoints.replace, if_neg (by omega), if_pos inside.symm] at failed
      cases failed
    · exact (Except.error.inj failed).symm
  | deletePoint index =>
    simp only [Shape.call, Shape.deletePoint] at failed
    split at failed
    · cases failed
    · rename_i inside
      rw [YPolygonPoints.erase, if_neg inside, if_pos (by omega)] at failed
      cases failed
  | move delta =>
    rw [Shape.call, move_eq] at failed
    cases failed

theorem call_paired {offset : QPointF} (paired : shape.points.Paired offset) (done : shape.call call = .ok result) :
    result.points.Paired offset := by
  cases call with
  | appendPoint point =>
    cases done
    exact paired.append point
  | insertPoint point pos =>
    rcases insertPoint_completes done with rfl | ⟨_, ⟨points, inserted, rfl⟩ | ⟨_, rfl⟩⟩
    · exact paired
    · exact paired.insert inserted
    · exact paired.append point
  | updatePoint point pos =>
    obtain ⟨points, replaced, rfl⟩ := updatePoint_completes done
    exact paired.replace replaced
  | deletePoint index =>
    rcases deletePoint_completes done with ⟨_, rfl⟩ | ⟨_, points, erased, rfl⟩
    · exact paired
    · exact paired.erase erased
  | move delta =>
    rw [Shape.call, move_eq] at done
    cases done
    exact paired.translate delta

theorem call_outside (outside : call.outside shape.points.size) (done : shape.call call = .ok result) :
    result = shape := by
  cases call with
  | appendPoint point => exact outside.elim
  | insertPoint point pos =>
    simp only [PointCall.outside] at outside
    simp only [Shape.call, Shape.insertPoint] at done
    split at done
    · exact (Except.ok.inj done).symm
    · exact (Except.ok.inj done).symm
    · exact (Except.ok.inj done).symm
    · rw [if_neg (by omega), if_neg (by omega)] at done
      exact (Except.ok.inj done).symm
  | updatePoint point pos =>
    simp only [PointCall.outside] at outside
    rw [Shape.call, Shape.updatePoint, if_neg (by omega)] at done
    cases done
  | deletePoint index =>
    simp only [PointCall.outside] at outside
    rw [Shape.call, Shape.deletePoint, if_pos (by omega)] at done
    exact (Except.ok.inj done).symm
  | move delta => exact outside.elim

end Shape

namespace RawPoints

def after (type : DrawMode) (points : RawPoints) (call : PointCall) : Except Fault RawPoints :=
  match (call.method type).run points with
  | (.ok _, points) => .ok points
  | (.error fault, points) => if fault.isException then .ok points else .error fault

def Paired (offset : QPointF) (points : RawPoints) : Prop :=
  ∃ shaped : YPolygonPoints, shaped.Paired offset ∧ shaped.toRaw = points

variable {type : DrawMode} {offset : QPointF} {points : RawPoints}

theorem Paired.call (paired : Paired offset points) (type : DrawMode) (call : PointCall) :
    (call.method type).run points = (.error .posOutOfRange, points) ∨
      ∃ next, (call.method type).run points = (.ok (), next) ∧ Paired offset next ∧
        (call.outside points.size → next = points) := by
  obtain ⟨shaped, paired, rfl⟩ := paired
  have ran := Shape.run_call { Shape.new type with points := shaped } call
  cases done : Shape.call { Shape.new type with points := shaped } call with
  | error fault =>
    rw [done, Shape.call_fault done] at ran
    exact .inl ran
  | ok result =>
    rw [done] at ran
    refine .inr ⟨result.points.toRaw, ran, ⟨result.points, Shape.call_paired paired done, rfl⟩, ?_⟩
    intro outside
    have unchanged : result = { Shape.new type with points := shaped } := Shape.call_outside outside done
    rw [unchanged]

theorem Paired.after (paired : Paired offset points) (type : DrawMode) (call : PointCall) :
    ∃ next, points.after type call = .ok next ∧ Paired offset next := by
  unfold RawPoints.after
  rcases paired.call type call with ran | ⟨next, ran, kept, _⟩
  · rw [ran]
    exact ⟨points, rfl, paired⟩
  · rw [ran]
    exact ⟨next, rfl, kept⟩

theorem Paired.run (paired : Paired offset points) (calls : List PointCall) :
    ∃ last, Library.run (RawPoints.after type) points calls = .ok last := by
  induction calls generalizing points with
  | nil => exact ⟨points, rfl⟩
  | cons call calls ih =>
    obtain ⟨next, taken, kept⟩ := paired.after type call
    rw [Library.run, taken]
    exact ih kept

/-- From a shape without points on, whatever is called and however it ends, the two lists stay paired and
    no vector is accessed out of range. -/
theorem coordinate_pairs (type : DrawMode) (offset : QPointF) (width height : ℤ) (calls : List PointCall) :
    let start := (RawPoints.mk [] [] offset).setImgWH width height
    (∃ last, run (RawPoints.after type) start calls = .ok last) ∧
    ∀ reached ∈ visited (RawPoints.after type) start calls,
      reached.imgPoints.length = reached.oriPoints.length ∧
      reached.offset = ⟨width / 2, height / 2⟩ ∧
      (∀ (i : ℕ) (vertex : QPointF), reached.oriPoints[i]? = some vertex →
        reached.imgPoints[i]? = some (vertex + reached.offset)) ∧
      ∀ call : PointCall,
        ((call.method type).run reached).1 ≠ .error .outOfRange ∧
        ((∃ fault, ((call.method type).run reached).1 = .error fault) ∨ call.outside reached.size →
          ((call.method type).run reached).2 = reached) := by
  intro start
  have initial : Paired ⟨width / 2, height / 2⟩ start :=
    ⟨⟨[], [], ⟨width / 2, height / 2⟩, rfl⟩, ⟨rfl, rfl⟩, rfl⟩
  refine ⟨initial.run calls, ?_⟩
  intro reached member
  have preserved : ∀ points call next, Paired ⟨width / 2, height / 2⟩ points → True →
      points.after type call = .ok next → Paired ⟨width / 2, height / 2⟩ next := by
    intro points call next paired _ taken
    obtain ⟨result, done, kept⟩ := paired.after type call
    rw [taken] at done
    rw [Except.ok.inj done]
    exact kept
  have unconditional : Along (RawPoints.after type) (fun _ _ => True) start calls :=
    along_of_forall _ (fun _ _ _ => trivial) start
  have paired := visited_invariant preserved initial unconditional reached member
  have calledOn := paired.call type
  obtain ⟨shaped, aligned, rfl⟩ := paired
  refine ⟨shaped.inStep, aligned.offset_eq, ?_, ?_⟩
  · intro i vertex found
    have mapped : shaped.toRaw.imgPoints = shaped.oriPoints.map (· + shaped.offset) := aligned.aligned
    rw [mapped, List.getElem?_map]
    exact congrArg (Option.map (· + shaped.offset)) found
  · intro call
    rcases calledOn call with ran | ⟨next, ran, _, ignored⟩
    · rw [ran]
      have thrown : (Except.error Fault.posOutOfRange : Except Fault Unit) ≠ .error .outOfRange := by decide
      exact ⟨thrown, fun _ => rfl⟩
    · rw [ran]
      have completed : (Except.ok () : Except Fault Unit) ≠ .error .outOfRange := by decide
      refine ⟨completed, ?_⟩
      rintro (⟨fault, failed⟩ | outside)
      · cases failed
      · exact ignored outside

end RawPoints

end XYAnnotation

import XYAnnotation.Canvas.PointCalls

namespace XYAnnotation

open Library CanvasBase

namespace Canvas2D

variable {containsPoint : List QPointF → QPointF → Bool} {c d : Canvas2D} {shape : ShapeId}

def followed (c : Canvas2D) (shape : ShapeId) (event : CanvasEvent) (i : ℕ) : Option ℕ :=
  match c.pointCall shape event with
  | none => some i
  | some call => (c.heap shape).follow i call

theorem followed_lt {event : CanvasEvent} {i j : ℕ} (known : shape < c.next)
    (handled : c.handle containsPoint event = .ok d) (bound : i < (c.heap shape).pointCount)
    (followed : c.followed shape event i = some j) : j < (d.heap shape).pointCount := by
  rw [Shape.pointCount, handle_points known handled]
  unfold Canvas2D.followed at followed
  split at followed
  · rename_i none
    cases followed
    rw [none]
    exact bound
  · rename_i call made
    rw [made]
    exact Shape.follow_lt bound followed

/-- The event neither puts a vertex before the one at the index nor takes that one back as the last of the shape. -/
def KeepsVertex (c : Canvas2D) (shape : ShapeId) (index : ℕ) : CanvasEvent → Prop
  | .mouseMove pos => ∀ point place, c.moveCall shape pos = some (.insertPoint point place) →
      (c.heap shape).inserts = true → index < place
  | .mouseDoubleClick _ _ _ => c.drawn = some shape → 2 < (c.heap shape).pointCount →
      (c.heap shape).pointCount ≠ index + 1
  | _ => True

theorem pressCall_follow {pos : QPointF} {leftButton : Bool} {call : PointCall} {i : ℕ} {s : Shape}
    (made : c.pressCall shape pos leftButton = some call) : s.follow i call = some i := by
  unfold pressCall at made
  split at made
  · cases made
  · split at made
    · cases made
      rfl
    · cases made

theorem moveCall_cases {pos : QPointF} {call : PointCall} (made : c.moveCall shape pos = some call) :
    (∃ point place, call = .insertPoint point place ∧ 0 ≤ place) ∨
      (∀ point place, call ≠ .insertPoint point place) ∧ ∀ (s : Shape) i, s.follow i call = some i := by
  unfold moveCall at made
  split at made
  · split at made
    · unfold CanvasBase.reactCall at made
      split at made
      · rename_i insert
        cases made
        exact .inl ⟨_, _, rfl, insert.1⟩
      · split at made
        · cases made
          exact .inr ⟨by simp, fun _ _ => rfl⟩
        · split at made
          · cases made
            exact .inr ⟨by simp, fun _ _ => rfl⟩
          · cases made
    · cases made
  · cases made

section Followed

variable {i : ℕ}

theorem followed_press {event : CanvasEvent} {pos : QPointF} {leftButton : Bool}
    (call : c.pointCall shape event = c.pressCall shape pos leftButton) : c.followed shape event i = some i := by
  unfold followed
  rw [call]
  split
  · rfl
  · rename_i call made
    exact pressCall_follow made

theorem followed_doubleClick {pos : QPointF} {leftButton : Bool} {reply : DialogReply}
    (bound : i < (c.heap shape).pointCount) :
    (c.KeepsVertex shape i (.mouseDoubleClick pos leftButton reply) ∧
        c.followed shape (.mouseDoubleClick pos leftButton reply) i = some i) ∨
      (¬ c.KeepsVertex shape i (.mouseDoubleClick pos leftButton reply) ∧
        c.followed shape (.mouseDoubleClick pos leftButton reply) i = none) := by
  by_cases finishes : c.drawn = some shape ∧ 2 < (c.heap shape).pointCount
  · have call : c.pointCall shape (.mouseDoubleClick pos leftButton reply) =
        some (.deletePoint ((c.heap shape).pointCount - 1)) := if_pos finishes
    simp only [KeepsVertex, followed, call, Shape.follow, finishes.1, finishes.2, forall_const]
    by_cases last : (c.heap shape).pointCount = i + 1
    · right
      rw [if_pos (by omega)]
      exact ⟨fun keeps => keeps last, rfl⟩
    · left
      rw [if_neg (by omega), if_neg (by omega)]
      exact ⟨last, rfl⟩
  · have call : c.pointCall shape (.mouseDoubleClick pos leftButton reply) = c.pressCall shape pos leftButton :=
      if_neg finishes
    exact .inl ⟨fun found many => absurd ⟨found, many⟩ finishes, followed_press call⟩

theorem followed_mouseMove (pos : QPointF) :
    (c.KeepsVertex shape i (.mouseMove pos) ∧ c.followed shape (.mouseMove pos) i = some i) ∨
      (¬ c.KeepsVertex shape i (.mouseMove pos) ∧ c.followed shape (.mouseMove pos) i = some (i + 1)) := by
  simp only [KeepsVertex, followed, pointCall]
  split
  · rename_i none
    left
    refine ⟨?_, rfl⟩
    intro point place made
    rw [none] at made
    cases made
  · rename_i call made
    rcases moveCall_cases made with ⟨point, place, rfl, low⟩ | ⟨other, still⟩
    · simp only [Shape.follow]
      by_cases shifts : (c.heap shape).inserts = true ∧ 0 ≤ place ∧ place ≤ i
      · right
        rw [if_pos shifts]
        refine ⟨?_, rfl⟩
        intro keeps
        have := keeps point place made shifts.1
        omega
      · left
        rw [if_neg shifts]
        refine ⟨?_, rfl⟩
        intro point' place' made' takes
        rw [made] at made'
        cases made'
        by_contra before
        exact shifts ⟨takes, low, by omega⟩
    · left
      refine ⟨?_, still _ _⟩
      intro point place made'
      rw [made] at made'
      exact absurd (Option.some.inj made') (other point place)

theorem followed_redo : c.followed shape .redo i = some i := by
  simp only [followed, pointCall]
  split
  · rfl
  · rename_i call made
    obtain ⟨command, _, made⟩ := Option.bind_eq_some_iff.mp made
    unfold Command.redoCall at made
    split at made
    · split at made
      · cases made
        rfl
      · cases made
    · cases made

theorem followed_cases {event : CanvasEvent} (records : event = .undo → c.undoStack.done = [])
    (bound : i < (c.heap shape).pointCount) :
    (c.KeepsVertex shape i event ∧ c.followed shape event i = some i) ∨
      (¬ c.KeepsVertex shape i event ∧ (c.followed shape event i = none ∨ c.followed shape event i = some (i + 1))) := by
  cases event with
  | mousePress pos leftButton reply => exact .inl ⟨trivial, followed_press rfl⟩
  | mouseDoubleClick pos leftButton reply =>
    rcases followed_doubleClick bound with keeps | ⟨loses, gone⟩
    · exact .inl keeps
    · exact .inr ⟨loses, .inl gone⟩
  | mouseMove pos =>
    rcases followed_mouseMove pos with keeps | ⟨loses, further⟩
    · exact .inl keeps
    · exact .inr ⟨loses, .inr further⟩
  | undo =>
    left
    refine ⟨trivial, ?_⟩
    rw [followed, pointCall, records rfl]
    rfl
  | redo => exact .inl ⟨trivial, followed_redo⟩
  | mouseRelease pos => exact .inl ⟨trivial, rfl⟩
  | hoverMove pos => exact .inl ⟨trivial, rfl⟩
  | keyPress enter reply => exact .inl ⟨trivial, rfl⟩
  | changeDrawMode mode => exact .inl ⟨trivial, rfl⟩
  | changeOperatMode mode => exact .inl ⟨trivial, rfl⟩
  | creatPolygon => exact .inl ⟨trivial, rfl⟩

end Followed

theorem undoCall_of_pointless {command : Command} (pointless : command.pointOf = none) :
    command.undoCall shape = none := by
  cases command with
  | addPoint other point pointName =>
    cases other with
    | none => rfl
    | some other => cases pointless
  | _ => rfl

theorem Recorded.deletes {pushed : List Command} (recorded : Recorded c d pushed) (known : shape < c.next)
    {command : Command} (member : command ∈ pushed) {deleted : ℕ}
    (undoes : command.undoCall shape = some (.deletePoint deleted)) : deleted = (c.heap shape).pointCount := by
  cases recorded with
  | pointless none =>
    rw [undoCall_of_pointless (none command member)] at undoes
    cases undoes
  | @point other point previous commands appended before none =>
    rcases List.mem_cons.mp member with rfl | member
    · rw [Command.undoCall] at undoes
      split at undoes
      · rename_i same
        subst same
        rw [QString.toInt_number, Int.toNat_natCast] at undoes
        cases undoes
        rw [← before known]
        rfl
      · cases undoes
    · rw [undoCall_of_pointless (none command member)] at undoes
      cases undoes

/-- The vertex that was appended at `index` is at `i` now, and no command above those of `stack` takes back a vertex
    that comes before it. -/
structure Located (stack : List Command) (shape : ShapeId) (index : ℕ) (c : Canvas2D) (i : ℕ) : Prop where
  since : index ≤ i
  bound : i < (c.heap shape).pointCount
  above : ∃ above, c.undoStack.done = above ++ stack ∧ ∀ command ∈ above, ∀ deleted,
    command.undoCall shape = some (.deletePoint deleted) → index < deleted

variable {stack : List Command} {index i : ℕ} {event : CanvasEvent}

theorem Located.recorded {pushed : List Command} {j : ℕ} (located : Located stack shape index c i)
    (known : shape < c.next) (done : d.undoStack.done = pushed ++ c.undoStack.done) (recorded : Recorded c d pushed)
    (since : index ≤ j) (bound : j < (d.heap shape).pointCount) : Located stack shape index d j := by
  obtain ⟨above, before, later⟩ := located.above
  refine ⟨since, bound, pushed ++ above, ?_, ?_⟩
  · rw [done, before, List.append_assoc]
  · intro command member deleted undoes
    rcases List.mem_append.mp member with member | member
    · rw [recorded.deletes known member undoes]
      exact located.since.trans_lt located.bound
    · exact later command member deleted undoes

theorem Located.undone {command : Command} (located : Located stack shape index c i)
    (top : c.undoStack.done = command :: d.undoStack.done) (stays : stack <:+ d.undoStack.done) :
    (∀ deleted, command.undoCall shape = some (.deletePoint deleted) → index < deleted) ∧
      ∃ above, d.undoStack.done = above ++ stack ∧ ∀ command ∈ above, ∀ deleted,
        command.undoCall shape = some (.deletePoint deleted) → index < deleted := by
  obtain ⟨above, before, later⟩ := located.above
  rw [before] at top
  cases above with
  | nil =>
    have shorter := stays.length_le
    have longer := congrArg List.length top
    simp only [List.nil_append, List.length_cons] at longer
    omega
  | cons first above =>
    obtain ⟨rfl, rest⟩ := List.cons.inj top
    rw [List.forall_mem_cons] at later
    exact ⟨later.1, above, rest.symm, later.2⟩

theorem followed_undo {command : Command} {rest : List Command} (top : c.undoStack.done = command :: rest) :
    c.followed shape .undo i = some i ∨ ∃ deleted, command.undoCall shape = some (.deletePoint deleted) ∧
      c.followed shape .undo i = (c.heap shape).follow i (.deletePoint deleted) := by
  have call : c.pointCall shape .undo = command.undoCall shape := by
    rw [pointCall, top, List.head?_cons, Option.bind_some]
  unfold followed
  rw [call]
  cases made : command.undoCall shape with
  | none => exact .inl rfl
  | some call =>
    unfold Command.undoCall at made
    split at made
    · split at made
      · cases made
        exact .inr ⟨_, rfl, rfl⟩
      · cases made
    · cases made

theorem Located.handle_undo {command : Command} (located : Located stack shape index c i) (known : shape < c.next)
    (handled : c.handle containsPoint .undo = .ok d) (top : c.undoStack.done = command :: d.undoStack.done)
    (stays : stack <:+ d.undoStack.done) :
    (∀ j, c.followed shape .undo i = some j → Located stack shape index d j) ∧
      (c.followed shape .undo i = some index ↔ i = index) := by
  have since := located.since
  obtain ⟨ahead, above⟩ := located.undone top stays
  have places : ∀ j, c.followed shape .undo i = some j → index ≤ j ∧ (j = index ↔ i = index) := by
    intro j followed
    rcases followed_undo (i := i) top with same | ⟨deleted, undoes, same⟩
    · rw [same] at followed
      cases followed
      exact ⟨since, Iff.rfl⟩
    · have later := ahead deleted undoes
      rw [same, Shape.follow] at followed
      split at followed
      · cases followed
      · split at followed
        · cases followed
          omega
        · cases followed
          exact ⟨since, Iff.rfl⟩
  refine ⟨?_, ?_, ?_⟩
  · intro j followed
    exact ⟨(places j followed).1, followed_lt known handled located.bound followed, above⟩
  · intro followed
    exact (places index followed).2.mp rfl
  · rintro rfl
    rcases followed_undo (i := i) top with same | ⟨deleted, undoes, same⟩
    · exact same
    · have later := ahead deleted undoes
      rw [same, Shape.follow, if_neg (by omega), if_neg (by omega)]

theorem Located.handle (located : Located stack shape index c i) (known : shape < c.next)
    (handled : c.handle containsPoint event = .ok d) (stays : stack <:+ d.undoStack.done) :
    (∀ j, c.followed shape event i = some j → Located stack shape index d j) ∧
      (c.followed shape event i = some index ↔ i = index ∧ c.KeepsVertex shape index event) := by
  have since := located.since
  rcases handle_stack handled with ⟨command, rfl, top⟩ | ⟨records, pushed, done, recorded⟩
  · obtain ⟨kept, judged⟩ := located.handle_undo known handled top stays
    exact ⟨kept, judged.trans (and_iff_left trivial).symm⟩
  · have kept : ∀ j, c.followed shape event i = some j → index ≤ j → Located stack shape index d j := by
      intro j followed later
      exact located.recorded known done recorded later (followed_lt known handled located.bound followed)
    rcases followed_cases records located.bound with ⟨keeps, same⟩ | ⟨loses, moved⟩
    · refine ⟨?_, ?_⟩
      · intro j followed
        apply kept j followed
        rw [same] at followed
        cases followed
        exact since
      · rw [same, Option.some_inj]
        constructor
        · rintro rfl
          exact ⟨rfl, keeps⟩
        · exact fun both => both.1
    · have later : ∀ j, c.followed shape event i = some j → index < j := by
        intro j followed
        rcases moved with gone | further
        · rw [gone] at followed
          cases followed
        · rw [further] at followed
          cases followed
          omega
      refine ⟨fun j followed => kept j followed (le_of_lt (later j followed)), iff_of_false ?_ ?_⟩
      · intro followed
        exact lt_irrefl index (later index followed)
      · rintro ⟨rfl, keeps⟩
        exact loses keeps

theorem eraseIdx_concat_eq_iff {α : Type} {values : List α} {n : ℕ} (bound : n < values.length) (value : α) :
    values.eraseIdx n ++ [value] = values ↔ ∀ other ∈ values.drop n, other = value := by
  have rotated : ∀ (rest : List α) (first : α),
      rest ++ [value] = first :: rest ↔ ∀ other ∈ first :: rest, other = value := by
    intro rest
    induction rest with
    | nil => simp [eq_comm]
    | cons second rest ih =>
      intro first
      rw [List.cons_append, List.cons.injEq, ih second]
      simp only [List.forall_mem_cons]
      constructor
      · rintro ⟨rfl, same, all⟩
        exact ⟨same, same, all⟩
      · rintro ⟨same, same', all⟩
        exact ⟨same'.trans same.symm, same', all⟩
  induction n generalizing values with
  | zero =>
    cases values with
    | nil => cases bound
    | cons first rest => exact rotated rest first
  | succ n ih =>
    cases values with
    | nil => cases bound
    | cons first rest =>
      rw [List.eraseIdx_cons_succ, List.cons_append, List.cons.injEq, List.drop_succ_cons]
      simp only [true_and]
      exact ih (Nat.lt_of_succ_lt_succ bound)

/-- The undo takes back the vertex at the place and no other, and the redo that follows brings the list back to what
    it was. -/
structure UndoesVertex (c : Canvas2D) (shape : ShapeId) (place : Option ℕ) : Prop where
  present : ∃ i, place = some i ∧ i < (c.heap shape).pointCount
  exactly : ∀ i < (c.heap shape).pointCount, c.followed shape .undo i = none ↔ place = some i
  restored : ∃ undone redone, c.undo = .ok undone ∧ undone.redo = .ok redone ∧
    (∀ other, other ≠ shape → (undone.heap other).points = (c.heap other).points) ∧
    (redone.heap shape).points.oriPoints = (c.heap shape).points.oriPoints

theorem undo_addPoint {point : QPointF} {rest : List Command}
    (top : c.undoStack.done = .addPoint (some shape) point (QString.number index) :: rest) :
    ∃ undone redone, c.undo = .ok undone ∧ undone.redo = .ok redone ∧
      (∀ other, other ≠ shape → (undone.heap other).points = (c.heap other).points) ∧
      (redone.heap shape).points.oriPoints = (c.heap shape).points.oriPoints.eraseIdx index ++ [point] := by
  obtain ⟨deleted, done, points⟩ := (c.heap shape).deletePoint_natCast index
  rw [← QString.toInt_number index] at done
  have undone : c.undo = .ok ⟨c.toCanvasBase.modifyShape shape fun _ => deleted,
      ⟨rest, .addPoint (some shape) point (QString.number index) :: c.undoStack.undone⟩⟩ := by
    simp only [Canvas2D.undo, UndoStack.undo, top, Command.methods, Command.undo, CanvasBase.deletePoint, done,
      Bind.bind, Except.bind]
  refine ⟨_, _, undone, rfl, ?_, ?_⟩
  · intro other different
    rw [CanvasBase.modifyShape_heap_other _ _ _ different]
  · rw [← points]
    simp [CanvasBase.modifyShape, Shape.appendPoint, YPolygonPoints.append]

theorem undoesVertex_iff {point : QPointF} {rest : List Command} {place : Option ℕ}
    (top : c.undoStack.done = .addPoint (some shape) point (QString.number index) :: rest)
    (inside : ∀ i, place = some i → i < (c.heap shape).pointCount) :
    c.UndoesVertex shape place ↔
      place = some index ∧ ∀ vertex ∈ (c.heap shape).points.oriPoints.drop index, vertex = point := by
  have call : c.pointCall shape .undo = some (.deletePoint index) := by
    rw [pointCall, top, List.head?_cons, Option.bind_some, Command.undoCall, if_pos rfl, QString.toInt_number,
      Int.toNat_natCast]
  have follows : ∀ i, c.followed shape .undo i = none ↔ i = index := by
    intro i
    simp only [followed, call, Shape.follow]
    by_cases here : index = i
    · rw [if_pos here]
      exact iff_of_true rfl here.symm
    · rw [if_neg here]
      refine iff_of_false ?_ (Ne.symm here)
      split
      · exact Option.some_ne_none _
      · exact Option.some_ne_none _
  obtain ⟨undone, redone, undoes, redoes, others, points⟩ := undo_addPoint top
  constructor
  · rintro ⟨⟨i, rfl, bound⟩, exactly, undone', redone', undoes', redoes', _, same⟩
    obtain rfl := (follows i).mp ((exactly i bound).mpr rfl)
    rw [undoes] at undoes'
    cases undoes'
    rw [redoes] at redoes'
    cases redoes'
    rw [points] at same
    exact ⟨rfl, (eraseIdx_concat_eq_iff bound point).mp same⟩
  · rintro ⟨rfl, all⟩
    have bound := inside index rfl
    refine ⟨⟨index, rfl, bound⟩, ?_, undone, redone, undoes, redoes, others, ?_⟩
    · intro i _
      rw [follows, Option.some_inj]
      exact eq_comm
    · rw [points]
      exact (eraseIdx_concat_eq_iff bound point).mpr all

section Redone

variable {point : QPointF} {pointName : String} {rest : List Command}

theorem suffix_of_pointless {commands done : List Command} (none : ∀ command ∈ commands, command.pointOf = none)
    (below : .addPoint (some shape) point pointName :: rest <:+ commands ++ done) :
    .addPoint (some shape) point pointName :: rest <:+ done := by
  induction commands with
  | nil => exact below
  | cons command commands ih =>
    rw [List.forall_mem_cons] at none
    rw [List.cons_append, List.suffix_cons_iff] at below
    rcases below with same | below
    · obtain ⟨rfl, _⟩ := List.cons.inj same
      cases none.1
    · exact ih none.2 below

theorem handle_appends (handled : c.handle containsPoint event = .ok d)
    (below : .addPoint (some shape) point pointName :: rest <:+ d.undoStack.done)
    (absent : ¬ .addPoint (some shape) point pointName :: rest <:+ c.undoStack.done) :
    d.undoStack.done = .addPoint (some shape) point pointName :: rest ∧
      ∃ previous, (d.heap shape).points.oriPoints = previous ++ [point] ∧
        pointName = QString.number previous.length := by
  rcases handle_stack handled with ⟨command, _, top⟩ | ⟨_, pushed, done, recorded⟩
  · rw [top] at absent
    exact absurd (below.trans (List.suffix_cons _ _)) absent
  · rw [done] at below ⊢
    cases recorded with
    | pointless none => exact absurd (suffix_of_pointless none below) absent
    | @point other vertex previous commands appended before none =>
      rw [List.cons_append, List.suffix_cons_iff] at below
      rcases below with same | below
      · rw [List.cons_append, ← same]
        obtain ⟨head, _⟩ := List.cons.inj same
        cases head
        exact ⟨rfl, previous, appended, rfl⟩
      · exact absurd (suffix_of_pointless none below) absent

end Redone

end Canvas2D

end XYAnnotation

import XYAnnotation.Canvas.PointUndo
import XYAnnotation.Files.Session

namespace XYAnnotation

open Library

namespace Canvas2D

variable {c d : Canvas2D}

theorem Placed.addOpened {shape : ShapeS} {color : QColor} (placed : c.Placed)
    (added : c.addOpened shape color = .ok d) : d.Placed ∧ d.undoStack = c.undoStack := by
  unfold Canvas2D.addOpened at added
  split at added
  · cases added
  · obtain ⟨img, _, added⟩ := bind_completes added
    simp only [CanvasBase.addShape_eq] at added
    cases added
    refine ⟨⟨?_, ?_, ?_⟩, rfl⟩
    · intro address member
      rcases List.mem_append.mp member with member | member
      · exact Nat.lt_succ_of_lt (placed.listed address member)
      · rw [List.mem_singleton.mp member]
        exact Nat.lt_succ_self c.next
    · intro command member address found
      exact Nat.lt_succ_of_lt (placed.done command member address found)
    · intro command member address found
      exact Nat.lt_succ_of_lt (placed.undone command member address found)

theorem Placed.addAllOpened {colors : ℕ → QColor} {shapes : List ShapeS} (placed : c.Placed)
    (added : c.addAllOpened colors shapes = .ok d) : d.Placed ∧ d.undoStack = c.undoStack := by
  induction shapes generalizing c colors with
  | nil =>
    cases added
    exact ⟨placed, rfl⟩
  | cons shape shapes ih =>
    obtain ⟨middle, first, rest⟩ := bind_completes added
    obtain ⟨placed', same⟩ := placed.addOpened first
    obtain ⟨placed'', same'⟩ := ih placed' rest
    exact ⟨placed'', same'.trans same⟩

end Canvas2D

namespace Window

variable {p : Platform} {w next : Window}

def Opened (w : Window) : Prop := w.canvas.Placed ∧ w.canvas.undoStack = .empty

theorem showFile_opened {idx : ℤ} (opened : w.Opened) (shown : w.showFile p idx = .ok next) : next.Opened := by
  obtain ⟨path, img, _, _, rfl⟩ := showFile_completes shown
  exact ⟨opened.1.of_same rfl rfl rfl, opened.2⟩

theorem clean_opened (w : Window) : w.clean.Opened := ⟨Canvas2D.placed_of_empty rfl rfl, rfl⟩

theorem openFile_opened {file : String} {colors : ℕ → QColor} (done : w.openFile p file colors = .ok next) :
    next.Opened := by
  unfold openFile at done
  split at done
  · obtain ⟨⟨files, root⟩, _, done⟩ := bind_completes done
    obtain ⟨shown, loaded, done⟩ := bind_completes done
    cases image : p.base64ToImg root.imageData with
    | none =>
      rw [image] at loaded
      cases loaded
    | some img =>
      rw [image, loadImage_some] at loaded
      cases loaded
      obtain ⟨canvas, added, rest⟩ := bind_completes done
      cases rest
      have placed : (w.clean.canvas.withImage img).Placed := Canvas2D.placed_of_empty rfl rfl
      obtain ⟨placed', same⟩ := placed.addAllOpened added
      exact ⟨placed', same⟩
  · refine showFile_opened ?_ done
    exact clean_opened w

theorem handle_cases {event : WindowEvent} (handled : w.handle p event = .ok next) :
    (∃ input, event = .canvas input ∧ w.canvas.handle p.containsPoint input = .ok next.canvas) ∨
      ((∀ input, event ≠ .canvas input) ∧
        (next.Opened ∨ ∃ image, next.canvas = { w.canvas with image })) := by
  cases event with
  | openFile file colors => exact .inr ⟨by simp, .inl (openFile_opened handled)⟩
  | openDir path =>
    refine .inr ⟨by simp, .inl (showFile_opened ?_ handled)⟩
    exact clean_opened w
  | clickRow row reply =>
    refine .inr ⟨by simp, .inr ?_⟩
    rcases clickRow_completes handled with ⟨_, rfl⟩ | ⟨_, ready, canvas, _, _, shown⟩
    · exact ⟨_, rfl⟩
    · obtain ⟨path, img, _, _, rfl⟩ := showFile_completes shown
      exact ⟨some img, by rw [← canvas]; rfl⟩
  | canvas input =>
    obtain ⟨canvas, done, rest⟩ := bind_completes handled
    cases rest
    exact .inl ⟨input, rfl, done⟩
  | saveFile chosen => exact .inr ⟨by simp, .inr ⟨w.canvas.image, (saveFile_completes handled).1⟩⟩

theorem handle_placed {event : WindowEvent} (placed : w.canvas.Placed) (handled : w.handle p event = .ok next) :
    next.canvas.Placed := by
  rcases handle_cases handled with ⟨input, _, done⟩ | ⟨_, opened | ⟨image, same⟩⟩
  · exact placed.handle done
  · exact opened.1
  · rw [same]
    exact placed.of_same rfl rfl rfl

theorem fresh_placed (curIdx : ℤ) (disk : Disk) : (fresh curIdx disk).canvas.Placed :=
  Canvas2D.placed_of_empty rfl rfl

theorem run_placed {curIdx : ℤ} {disk : Disk} {events : List WindowEvent}
    (ran : run (handle p) (fresh curIdx disk) events = .ok w) : w.canvas.Placed := by
  have kept : ∀ w event next, w.canvas.Placed → True → handle p w event = .ok next → next.canvas.Placed :=
    fun _ _ _ placed _ handled => handle_placed placed handled
  have unconditional : Along (handle p) (fun _ _ => True) (fresh curIdx disk) events :=
    along_of_forall _ (fun _ _ _ => trivial) _
  exact visited_invariant kept (fresh_placed curIdx disk) unconditional w (run_mem_visited ran)

def followed (w : Window) (shape : ShapeId) : WindowEvent → ℕ → Option ℕ
  | .canvas event, i => w.canvas.followed shape event i
  | _, i => some i

def KeepsVertex (shape : ShapeId) (index : ℕ) (w : Window) : WindowEvent → Prop
  | .canvas event => w.canvas.KeepsVertex shape index event
  | _ => True

def place (p : Platform) (shape : ShapeId) (w : Window) (index : ℕ) (events : List WindowEvent) : Option ℕ :=
  traced (handle p) (fun w event place => place.bind (w.followed shape event)) w (some index) events

section Vertex

variable {shape : ShapeId} {point : QPointF} {pointName : String} {rest stack : List Command} {index : ℕ}
  {event : WindowEvent}

theorem handle_appends (handled : w.handle p event = .ok next)
    (below : .addPoint (some shape) point pointName :: rest <:+ next.canvas.undoStack.done)
    (absent : ¬ .addPoint (some shape) point pointName :: rest <:+ w.canvas.undoStack.done) :
    next.canvas.undoStack.done = .addPoint (some shape) point pointName :: rest ∧
      ∃ previous, (next.canvas.heap shape).points.oriPoints = previous ++ [point] ∧
        pointName = QString.number previous.length := by
  rcases handle_cases handled with ⟨input, _, done⟩ | ⟨_, opened | ⟨image, same⟩⟩
  · exact Canvas2D.handle_appends done below absent
  · rw [opened.2] at below
    cases List.suffix_nil.mp below
  · rw [same] at below
    exact absurd below absent

theorem shape_made {c : Canvas2D} (placed : c.Placed)
    (below : .addPoint (some shape) point pointName :: rest <:+ c.undoStack.done) : shape < c.next := by
  have member : .addPoint (some shape) point pointName ∈ c.undoStack.done := below.subset List.mem_cons_self
  exact placed.done _ member shape rfl

structure Located (stack : List Command) (shape : ShapeId) (index : ℕ) (w : Window) (place : Option ℕ) : Prop where
  placed : w.canvas.Placed
  here : ∀ i, place = some i → w.canvas.Located stack shape index i

theorem Located.handle {place : Option ℕ}
    (located : Located (.addPoint (some shape) point pointName :: rest) shape index w place)
    (handled : w.handle p event = .ok next)
    (stays : .addPoint (some shape) point pointName :: rest <:+ next.canvas.undoStack.done) :
    Located (.addPoint (some shape) point pointName :: rest) shape index next (place.bind (w.followed shape event)) ∧
      (place.bind (w.followed shape event) = some index ↔ place = some index ∧ KeepsVertex shape index w event) := by
  have placed := handle_placed located.placed handled
  cases place with
  | none =>
    refine ⟨⟨placed, ?_⟩, ?_⟩
    · intro i impossible
      cases impossible
    · simp
  | some i =>
    have here := located.here i rfl
    rw [Option.bind_some, Option.some_inj]
    rcases handle_cases handled with ⟨input, rfl, done⟩ | ⟨other, opened | ⟨image, same⟩⟩
    · obtain ⟨above, all, _⟩ := here.above
      have known := shape_made located.placed ⟨above, all.symm⟩
      obtain ⟨kept, judged⟩ := here.handle known done stays
      exact ⟨⟨placed, kept⟩, judged⟩
    · rw [opened.2] at stays
      cases List.suffix_nil.mp stays
    · have still : w.followed shape event i = some i := by
        cases event with
        | canvas input => exact absurd rfl (other input)
        | _ => rfl
      have keeps : KeepsVertex shape index w event := by
        cases event with
        | canvas input => exact absurd rfl (other input)
        | _ => trivial
      rw [still, Option.some_inj]
      refine ⟨⟨placed, ?_⟩, ?_⟩
      · intro j found
        cases found
        rw [same]
        exact ⟨here.since, here.bound, here.above⟩
      · exact (and_iff_left keeps).symm

end Vertex

/-- The command that adds a point and is on top in the window `w` was redone for the last time before `after`, where
    it appended the vertex with the given index; `since` are the events from then on. -/
structure LastRedo (p : Platform) (start : Window) (events : List WindowEvent) (w : Window) (shape : ShapeId)
    (point : QPointF) (after : Window) (since : List WindowEvent) (index : ℕ) : Prop where
  redone : ∃ earlier event before, events = earlier ++ event :: since ∧ run (handle p) start earlier = .ok before ∧
    ¬ w.canvas.undoStack.done <:+ before.canvas.undoStack.done ∧ before.handle p event = .ok after
  done : after.canvas.undoStack.done = w.canvas.undoStack.done
  stays : ∀ reached ∈ visited (handle p) after since, w.canvas.undoStack.done <:+ reached.canvas.undoStack.done
  appended : ∃ previous, (after.canvas.heap shape).points.oriPoints = previous ++ [point] ∧ previous.length = index

section Redo

variable {curIdx : ℤ} {disk : Disk} {events since : List WindowEvent} {after : Window} {shape : ShapeId}
  {point : QPointF} {pointName : String} {rest : List Command} {index : ℕ}

theorem exists_lastRedo (ran : run (handle p) (fresh curIdx disk) events = .ok w)
    (top : w.canvas.undoStack.done = .addPoint (some shape) point pointName :: rest) :
    ∃ after since index, LastRedo p (fresh curIdx disk) events w shape point after since index := by
  rcases inside_or_last_entry (fun reached => w.canvas.undoStack.done <:+ reached.canvas.undoStack.done) ran
    List.suffix_rfl with all | ⟨earlier, event, since, before, after, split, ran', absent, handled, _, stays⟩
  · have empty := all _ (visited_head _ _ _)
    rw [top] at empty
    cases List.suffix_nil.mp empty
  · have below := stays after (visited_head _ _ _)
    have entered := top ▸ below
    have outside := top ▸ absent
    obtain ⟨done, previous, appended, _⟩ := handle_appends handled entered outside
    exact ⟨after, since, previous.length, ⟨earlier, event, before, split, ran', absent, handled⟩, done.trans top.symm,
      stays, previous, appended, rfl⟩

theorem LastRedo.undoesVertex_iff (last : LastRedo p (fresh curIdx disk) events w shape point after since index)
    (ran : run (handle p) (fresh curIdx disk) events = .ok w)
    (top : w.canvas.undoStack.done = .addPoint (some shape) point pointName :: rest) :
    w.canvas.UndoesVertex shape (place p shape after index since) ↔
      Along (handle p) (KeepsVertex shape index) after since ∧
        ∀ vertex ∈ (w.canvas.heap shape).points.oriPoints.drop index, vertex = point := by
  obtain ⟨⟨earlier, event, before, rfl, ran', absent, handled⟩, done, stays, previous, appended, rfl⟩ := last
  rw [top] at done stays absent
  have rest' : run (handle p) after since = .ok w := by
    rw [run_append ran', run, handled] at ran
    exact ran
  obtain ⟨_, previous', appended', name⟩ := handle_appends handled (done ▸ List.suffix_rfl) absent
  have same : previous' = previous := (List.append_cancel_right (appended'.symm.trans appended))
  rw [same] at name
  have start : Located (.addPoint (some shape) point pointName :: rest) shape previous.length after
      (some previous.length) := by
    refine ⟨handle_placed (run_placed ran') handled, ?_⟩
    intro i found
    cases found
    refine ⟨le_refl _, ?_, [], done, by simp⟩
    rw [Shape.pointCount, YPolygonPoints.size, appended]
    simp
  have decides : ∀ (w : Window) (event : WindowEvent) (next : Window) (place : Option ℕ),
      Located (.addPoint (some shape) point pointName :: rest) shape previous.length w place →
      handle p w event = .ok next → .addPoint (some shape) point pointName :: rest <:+ next.canvas.undoStack.done →
      Located (.addPoint (some shape) point pointName :: rest) shape previous.length next
          (place.bind (w.followed shape event)) ∧
        (place.bind (w.followed shape event) = some previous.length ↔
          place = some previous.length ∧ KeepsVertex shape previous.length w event) :=
    fun _ _ _ _ located handled stays => located.handle handled stays
  obtain ⟨final, judged⟩ := traced_eq_iff _ decides start rest' stays
  rw [name] at top
  rw [place, Canvas2D.undoesVertex_iff top fun i found => (final.here i found).bound]
  apply and_congr_left
  intro _
  exact judged.trans (and_iff_right rfl)

end Redo

/-- An undo takes back exactly the vertex that its command appended, and the redo after it restores the list, if and
    only if since the append no vertex came in at or before the recorded index and no finishing double click took the
    vertex away, and if the vertices from the index on have the coordinates of the command. -/
theorem point_undo_exact_iff (p : Platform) (curIdx : ℤ) (disk : Disk) (events : List WindowEvent) (w : Window)
    (ran : run (handle p) (fresh curIdx disk) events = .ok w) (shape : ShapeId) (point : QPointF)
    (pointName : String) (rest : List Command)
    (top : w.canvas.undoStack.done = .addPoint (some shape) point pointName :: rest) :
    (∃ after since index, LastRedo p (fresh curIdx disk) events w shape point after since index) ∧
      ∀ after since index, LastRedo p (fresh curIdx disk) events w shape point after since index →
        (w.canvas.UndoesVertex shape (place p shape after index since) ↔
          Along (handle p) (KeepsVertex shape index) after since ∧
            ∀ vertex ∈ (w.canvas.heap shape).points.oriPoints.drop index, vertex = point) :=
  ⟨exists_lastRedo ran top, fun _ _ _ last => last.undoesVertex_iff ran top⟩

def easel : Platform :=
  { desk with
    imageAt := fun _ => some Canvas2D.blankImage
    imgToBase64 := fun _ => blackText
    base64ToImg := fun _ => some Canvas2D.blankImage }

def twoVertices : List WindowEvent :=
  [.openDir "/pics", .canvas (.mousePress ⟨-20, -20⟩ true none), .canvas (.mousePress ⟨20, -20⟩ true none)]

def thirdVertex : WindowEvent := .canvas (.mousePress ⟨0, 20⟩ true none)

theorem third_vertex_undone :
    ∃ w rest, run (handle easel) (fresh 0 deskDisk) (twoVertices ++ [thirdVertex]) = .ok w ∧
      w.canvas.undoStack.done = .addPoint (some 0) ⟨0, 20⟩ "2" :: rest ∧
      ∀ after since index,
        LastRedo easel (fresh 0 deskDisk) (twoVertices ++ [thirdVertex]) w 0 ⟨0, 20⟩ after since index →
        (w.canvas.UndoesVertex 0 (place easel 0 after index since) ↔
          Along (handle easel) (KeepsVertex 0 index) after since ∧
            ∀ vertex ∈ (w.canvas.heap 0).points.oriPoints.drop index, vertex = ⟨0, 20⟩) := by
  have observed : (run (handle easel) (fresh 0 deskDisk) (twoVertices ++ [thirdVertex])).map
      (fun w => w.canvas.undoStack.done.head?) = .ok (some (.addPoint (some 0) ⟨0, 20⟩ "2")) := by decide +kernel
  obtain ⟨w, ran, head⟩ := map_completes observed
  obtain ⟨rest, top⟩ := List.head?_eq_some_iff.mp head
  exact ⟨w, rest, ran, top, (point_undo_exact_iff easel 0 deskDisk _ w ran 0 ⟨0, 20⟩ "2" rest top).2⟩

def vertexInserted : List WindowEvent :=
  [.canvas (.keyPress true none), .canvas (.changeOperatMode .edit), .canvas (.mousePress ⟨0, -20⟩ true none),
    .canvas (.mouseMove ⟨0, -30⟩), .canvas (.mouseRelease ⟨0, -30⟩)]

/-- The vertex that the command appended as the third is the fourth now, and the undo takes another one. -/
theorem inserted_vertex_undone :
    ∃ w after rest, run (handle easel) (fresh 0 deskDisk) (twoVertices ++ thirdVertex :: vertexInserted) = .ok w ∧
      w.canvas.undoStack.done = .addPoint (some 0) ⟨0, 20⟩ "2" :: rest ∧
      LastRedo easel (fresh 0 deskDisk) (twoVertices ++ thirdVertex :: vertexInserted) w 0 ⟨0, 20⟩ after
        vertexInserted 2 ∧
      place easel 0 after 2 vertexInserted = some 3 ∧ w.canvas.followed 0 .undo 2 = none ∧
      ¬ w.canvas.UndoesVertex 0 (place easel 0 after 2 vertexInserted) := by
  have observed : (do
      let before ← run (handle easel) (fresh 0 deskDisk) twoVertices
      let after ← before.handle easel thirdVertex
      let w ← run (handle easel) after vertexInserted
      .ok (w.canvas.undoStack.done.head?, (after.canvas.heap 0).points.oriPoints,
        [w.canvas.undoStack.done.isSuffixOf before.canvas.undoStack.done,
          decide (after.canvas.undoStack.done = w.canvas.undoStack.done),
          (visited (handle easel) after vertexInserted).all fun reached =>
            w.canvas.undoStack.done.isSuffixOf reached.canvas.undoStack.done,
          decide (place easel 0 after 2 vertexInserted = some 3), decide (w.canvas.followed 0 .undo 2 = none),
          decide (2 < (w.canvas.heap 0).pointCount)]) : Except Fault _) =
      .ok (some (.addPoint (some 0) ⟨0, 20⟩ "2"), [⟨-20, -20⟩, ⟨20, -20⟩, ⟨0, 20⟩],
        [false, true, true, true, true, true]) := by decide +kernel
  obtain ⟨before, ran, observed⟩ := bind_completes observed
  obtain ⟨after, handled, observed⟩ := bind_completes observed
  obtain ⟨w, ran', observed⟩ := bind_completes observed
  simp only [Except.ok.injEq, Prod.mk.injEq, List.cons.injEq, List.all_eq_true, List.isSuffixOf_iff_suffix,
    decide_eq_true_eq] at observed
  obtain ⟨head, points, absent, done, stays, moved, taken, inside, _⟩ := observed
  obtain ⟨rest, top⟩ := List.head?_eq_some_iff.mp head
  refine ⟨w, after, rest, ?_, top, ⟨⟨twoVertices, thirdVertex, before, rfl, ran, ?_, handled⟩, done, stays, ?_⟩, moved,
    taken, ?_⟩
  · rw [run_append ran, run, handled]
    exact ran'
  · intro below
    rw [List.isSuffixOf_iff_suffix.mpr below] at absent
    cases absent
  · exact ⟨[⟨-20, -20⟩, ⟨20, -20⟩], points, rfl⟩
  · intro undoes
    have same := (undoes.exactly 2 inside).mp taken
    rw [moved] at same
    cases same

end Window

end XYAnnotation

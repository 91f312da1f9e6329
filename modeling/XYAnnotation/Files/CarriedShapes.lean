import XYAnnotation.Files.Session

namespace XYAnnotation

open Library

namespace Canvas2D

variable {c d : Canvas2D} {containsPoint : List QPointF → QPointF → Bool}

structure Unloaded (c : Canvas2D) : Prop where
  image : c.image = none
  shapeList : c.shapeList = []
  done : c.undoStack.done = []
  undone : c.undoStack.undone = []

theorem Unloaded.still (unloaded : c.Unloaded) (still : Still c d) : d.Unloaded where
  image := still.base.image.trans unloaded.image
  shapeList := still.base.shapeList.trans unloaded.shapeList
  done := still.undoStack ▸ unloaded.done
  undone := still.undoStack ▸ unloaded.undone

theorem Unloaded.drawn (unloaded : c.Unloaded) {shape : ShapeId} : c.drawn ≠ some shape := by
  intro found
  have member := drawn_mem found
  rw [unloaded.shapeList] at member
  cases member

theorem Unloaded.image_ne (unloaded : c.Unloaded) {img : QImage} : c.image ≠ some img := by
  rw [unloaded.image]
  exact Option.some_ne_none img |>.symm

theorem Unloaded.mousePress (unloaded : c.Unloaded) {pos : QPointF} {leftButton : Bool} {reply : DialogReply} :
    c.mousePressEvent containsPoint pos leftButton reply ≠ .ok d := by
  intro pressed
  obtain ⟨img, image, _⟩ := mousePressEvent_completes pressed
  exact unloaded.image_ne image

theorem Unloaded.handle {event : CanvasEvent} (unloaded : c.Unloaded)
    (handled : c.handle containsPoint event = .ok d) : d.Unloaded := by
  cases event with
  | mousePress pos leftButton reply => exact absurd handled unloaded.mousePress
  | mouseRelease pos => exact unloaded.still (mouseReleaseEvent_still handled)
  | mouseDoubleClick pos leftButton reply =>
    rcases mouseDoubleClickEvent_completes handled with ⟨_, rfl⟩ | ⟨shape, found, _⟩ | ⟨_, pressed⟩
    · exact unloaded
    · exact absurd found unloaded.drawn
    · exact absurd pressed unloaded.mousePress
  | hoverMove pos => exact unloaded.still (hoverMoveEvent_still handled)
  | mouseMove pos =>
    rcases mouseMoveEvent_completes handled with ⟨still, _⟩ | ⟨img, image, _⟩
    · exact unloaded.still still
    · exact absurd image unloaded.image_ne
  | keyPress enter reply =>
    rcases keyPressEvent_completes handled with ⟨shape, _, found, _⟩ | ⟨still, _⟩
    · exact absurd found unloaded.drawn
    · exact unloaded.still still
  | undo =>
    rcases undo_completes handled with ⟨_, rfl⟩ | ⟨command, done, _, some, _⟩
    · exact unloaded
    · rw [unloaded.done] at some
      cases some
  | redo =>
    rcases redo_completes handled with ⟨_, rfl⟩ | ⟨command, undone, _, some, _⟩
    · exact unloaded
    · rw [unloaded.undone] at some
      cases some
  | changeDrawMode mode =>
    cases handled
    exact ⟨unloaded.image, unloaded.shapeList, unloaded.done, unloaded.undone⟩
  | changeOperatMode mode =>
    cases handled
    exact ⟨unloaded.image, unloaded.shapeList, unloaded.done, unloaded.undone⟩
  | creatPolygon =>
    obtain ⟨img, image, _⟩ := addShape_completes handled
    exact absurd image unloaded.image_ne

end Canvas2D

/-- Browsing a directory: it is opened, rows of its list are clicked, shapes are drawn and saved. -/
inductive BrowseEvent
  | openDir (path : String)
  | clickRow (row : ℕ) (reply : Option String)
  | canvas (event : CanvasEvent)
  | saveFile (chosen : String)

def BrowseEvent.toWindow : BrowseEvent → WindowEvent
  | .openDir path => .openDir path
  | .clickRow row reply => .clickRow row reply
  | .canvas event => .canvas event
  | .saveFile chosen => .saveFile chosen

namespace Session

variable {p : Platform} {s d : Session}

def browse (p : Platform) (s : Session) (event : BrowseEvent) : Except Fault Session := s.step p event.toWindow

/-- A save writes the shapes of the canvas to the label file of the current image, and each of them
    came onto the canvas while that image was loaded. -/
def WritesOwnShapes (p : Platform) (s : Session) : Prop :=
  ∀ chosen files filename root, s.saving p chosen = .ok (files, some (filename, root)) →
    ∃ file, s.files.imageFileNameAt s.files.curIdx = .ok file ∧
      filename = files.savePath ++ "/" ++ (p.baseName file ++ FileManager.labelSuffix) ∧
      root.shapes = s.canvas.shapes.map savedShape ∧
      ∀ shape ∈ s.canvas.shapeList, s.addedOn shape = s.files.path ++ file

/-- A click is on the row that is shown already, or it finds no shape on the canvas. -/
def ClicksOnEmpty (s : Session) : BrowseEvent → Prop
  | .clickRow row _ => row < s.rows.length → (row : ℤ) = s.files.curIdx ∨ s.canvas.shapeList = []
  | _ => True

def OwnShapes (s : Session) : Prop := ∀ shape ∈ s.canvas.shapeList, s.addedOn shape = s.shownPath

structure Browsed (s : Session) : Prop where
  notJson : s.files.isOpenJsonFile = false
  rows : s.rows = s.files.imageFiles
  nodup : s.files.imageFiles.Nodup
  shown : (s.canvas.Unloaded ∧ s.rows = []) ∨ s.files.getCurrentImageFile = .ok s.shownPath

theorem saving_writes {w : Window} {path : String} (current : w.files.getCurrentImageFile = .ok path)
    (listed : w.canvas.shapeList ≠ []) :
    ∃ files filename root, w.saving p "/" = .ok (files, some (filename, root)) := by
  have same := FileManager.getSavePath_same w.files "/"
  have place : (w.files.getSavePath "/").savePath.isEmpty = false := by
    unfold FileManager.getSavePath
    split
    · rfl
    · rename_i nonempty
      simpa using nonempty
  obtain ⟨file, named, _⟩ := bind_completes current
  have labelled : ∃ files, (w.files.getSavePath "/").getLabelFile p = .ok files := by
    unfold FileManager.getLabelFile
    split
    · exact ⟨_, rfl⟩
    · rw [FileManager.imageFileNameAt, same.imageFiles, same.curIdx]
      change ∃ files, (w.files.imageFileNameAt w.files.curIdx >>= _) = .ok files
      rw [named]
      exact ⟨_, rfl⟩
  obtain ⟨files, labelled⟩ := labelled
  have images := same.trans (FileManager.getLabelFile_completes labelled).1
  have image : ∃ root, Window.savedImage p { w with files } = .ok root := by
    rw [Window.savedImage_same images]
    exact Window.savedImage_current current
  obtain ⟨root, image⟩ := image
  have built : ∃ saved, Window.savedRoot p { w with files } = .ok saved := by
    rw [Window.savedRoot, image]
    exact ⟨_, rfl⟩
  obtain ⟨saved, built⟩ := built
  refine ⟨files, files.savePath ++ "/" ++ files.labelFile, saved, ?_⟩
  unfold Window.saving
  simp only [place]
  rw [labelled]
  change (if w.canvas.shapeList.isEmpty then _ else Window.savedRoot p { w with files } >>= _) = _
  rw [if_neg (by simpa using listed), built]
  rfl

theorem Browsed.writesOwnShapes_iff (browsed : Browsed s) : WritesOwnShapes p s ↔ OwnShapes s := by
  constructor
  · intro writes shape member
    have listed : s.canvas.shapeList ≠ [] := List.ne_nil_of_mem member
    rcases browsed.shown with ⟨unloaded, _⟩ | current
    · exact absurd unloaded.shapeList listed
    · obtain ⟨files, filename, root, saved⟩ := saving_writes current listed
      obtain ⟨file, named, _, _, own⟩ := writes "/" files filename root saved
      obtain ⟨file', named', path⟩ := bind_completes current
      obtain rfl := Except.ok.inj (named.symm.trans named')
      rw [own shape member, Except.ok.inj path]
  · intro own chosen files filename root saved
    obtain ⟨built, name, label⟩ := (Window.saving_completes saved).2 filename root rfl
    obtain ⟨listed, shapes⟩ := Window.saving_shapes saved
    rcases browsed.shown with ⟨unloaded, _⟩ | current
    · exact absurd unloaded.shapeList listed
    · obtain ⟨file, named, path⟩ := bind_completes current
      have some : s.files.imageFiles ≠ [] := by
        rintro none
        rw [FileManager.imageFileNameAt, none] at named
        obtain ⟨_, missing⟩ := QVector.at_completes named
        cases missing
      obtain ⟨file', named', text⟩ := label some
      obtain rfl := Except.ok.inj (named.symm.trans named')
      refine ⟨file, named, by rw [name, text], shapes, ?_⟩
      intro shape member
      rw [own shape member, ← Except.ok.inj path]

theorem OwnShapes.of_same {event : WindowEvent} {next : Window} (own : OwnShapes s)
    (loads : loadedPath p s.toWindow next event = none) : OwnShapes (s.noted p event next) := by
  intro shape member
  rw [noted_shownPath loads]
  change (if shape ∈ s.canvas.shapeList then s.addedOn shape else (s.noted p event next).shownPath) = _
  split
  · rename_i old
    exact own shape old
  · exact noted_shownPath loads

theorem Browsed.of_same {event : WindowEvent} {next : Window} (browsed : Browsed s)
    (loads : loadedPath p s.toWindow next event = none) (rows : next.rows = s.rows)
    (files : s.files.SameImages next.files) (unloaded : s.canvas.Unloaded → next.canvas.Unloaded) :
    Browsed (s.noted p event next) where
  notJson := files.isOpenJsonFile.trans browsed.notJson
  rows := rows.trans (browsed.rows.trans files.imageFiles.symm)
  nodup := files.imageFiles ▸ browsed.nodup
  shown := by
    rcases browsed.shown with ⟨none, empty⟩ | current
    · exact .inl ⟨unloaded none, rows.trans empty⟩
    · rw [noted_shownPath loads]
      exact .inr (files.getCurrentImageFile.trans current)

theorem browsed_of_showFile {w next : Window} {idx : ℤ} {event : WindowEvent}
    (shown : w.showFile p idx = .ok next)
    (loads : loadedPath p s.toWindow next event = next.files.getCurrentImageFile.toOption)
    (notJson : w.files.isOpenJsonFile = false) (rows : w.rows = w.files.imageFiles)
    (nodup : w.files.imageFiles.Nodup) : Browsed (s.noted p event next) := by
  have path := noted_showFile shown loads
  obtain ⟨file, img, _, _, rfl⟩ := Window.showFile_completes shown
  refine ⟨?_, ?_, ?_, .inr path⟩
  · exact (FileManager.selectFile_isOpenJsonFile _ _).trans notJson
  · exact rows.trans (FileManager.selectFile_imageFiles _ _).symm
  · exact (FileManager.selectFile_imageFiles w.files idx).symm ▸ nodup

theorem path_eq_iff {m : FileManager} {i j : ℤ} {first second : String} (nodup : m.imageFiles.Nodup)
    (current : m.getCurrentImageFile = .ok first) (index : m.curIdx = i)
    (other : (m.selectFile j).getCurrentImageFile = .ok second) : second = first ↔ j = i := by
  obtain ⟨file, named, rest⟩ := bind_completes current
  obtain ⟨file', named', rest'⟩ := bind_completes other
  cases rest
  cases rest'
  rw [FileManager.imageFileNameAt, index] at named
  rw [FileManager.imageFileNameAt, FileManager.selectFile_imageFiles, FileManager.selectFile_curIdx] at named'
  rw [FileManager.selectFile_path, String.append_right_inj]
  obtain ⟨low, found⟩ := QVector.at_completes named
  obtain ⟨low', found'⟩ := QVector.at_completes named'
  constructor
  · rintro rfl
    have bound : j.toNat < m.imageFiles.length := (List.getElem?_eq_some_iff.mp found').1
    have same := (List.getElem?_inj bound nodup).mp (found'.trans found.symm)
    omega
  · rintro rfl
    exact Option.some.inj (found'.symm.trans found)

theorem OwnShapes.reshown_iff {event : WindowEvent} {next : Window} (own : OwnShapes s)
    (list : next.canvas.shapeList = s.canvas.shapeList) :
    OwnShapes (s.noted p event next) ↔
      (s.noted p event next).shownPath = s.shownPath ∨ s.canvas.shapeList = [] := by
  have kept : ∀ shape ∈ s.canvas.shapeList, (s.noted p event next).addedOn shape = s.shownPath := by
    intro shape member
    exact (if_pos member).trans (own shape member)
  constructor
  · intro owns
    cases listed : s.canvas.shapeList with
    | nil => exact .inr rfl
    | cons shape shapes =>
      have member : shape ∈ s.canvas.shapeList := by simp [listed]
      exact .inl ((owns shape (list ▸ member)).symm.trans (kept shape member))
  · rintro (same | none) shape member
    · rw [same]
      exact kept shape (list ▸ member)
    · have absent : shape ∈ s.canvas.shapeList := list ▸ member
      rw [none] at absent
      cases absent

theorem Browsed.clickRow {row : ℕ} {reply : Option String} {next : Window} (browsed : Browsed s)
    (clicked : s.toWindow.clickRow p row reply = .ok next) :
    Browsed (s.noted p (.clickRow row reply) next) ∧ (OwnShapes s →
      (OwnShapes (s.noted p (.clickRow row reply) next) ↔ ClicksOnEmpty s (.clickRow row reply))) := by
  rcases Window.clickRow_completes clicked with ⟨absent, rfl⟩ | ⟨present, ready, canvas, rows, files, shown⟩
  · have loads : loadedPath p s.toWindow s.toWindow (.clickRow row reply) = none := if_neg absent
    refine ⟨browsed.of_same loads rfl ⟨rfl, rfl, rfl, rfl, rfl⟩ id, ?_⟩
    intro own
    exact iff_of_true (own.of_same loads) fun present => absurd present absent
  · have loads : loadedPath p s.toWindow next (.clickRow row reply) =
        next.files.getCurrentImageFile.toOption := if_pos present
    have nodup : ready.files.imageFiles.Nodup := files.imageFiles ▸ browsed.nodup
    refine ⟨browsed_of_showFile shown loads (files.isOpenJsonFile.trans browsed.notJson)
      (rows.trans (browsed.rows.trans files.imageFiles.symm)) nodup, ?_⟩
    intro own
    have current : ready.files.getCurrentImageFile = .ok s.shownPath := by
      rcases browsed.shown with ⟨_, none⟩ | current
      · rw [none] at present
        exact absurd present (Nat.not_lt_zero row)
      · exact files.getCurrentImageFile.trans current
    have path := noted_showFile shown loads
    obtain ⟨file, img, _, _, result⟩ := Window.showFile_completes shown
    have selected : next.files = ready.files.selectFile row := by rw [result]
    have list : next.canvas.shapeList = s.canvas.shapeList := by
      rw [result]
      exact congrArg (·.shapeList) canvas
    rw [selected] at path
    rw [own.reshown_iff list, path_eq_iff nodup current files.curIdx path]
    exact ⟨fun kept _ => kept, fun kept => kept present⟩

theorem Browsed.openDir {path : String} {next : Window} (browsed : Browsed s)
    (opened : s.toWindow.openDir p path = .ok next) :
    Browsed (s.noted p (.openDir path) next) ∧ OwnShapes (s.noted p (.openDir path) next) := by
  have nodup : (QStringList.sort (p.entryList (path ++ "/"))).Nodup :=
    (List.perm_insertionSort _ _).nodup_iff.mpr (p.entryList_nodup _)
  rw [Window.openDir] at opened
  refine ⟨browsed_of_showFile opened rfl browsed.notJson rfl nodup, ?_⟩
  obtain ⟨file, img, _, _, rfl⟩ := Window.showFile_completes opened
  intro shape member
  cases member

theorem Browsed.browse {event : BrowseEvent} (browsed : Browsed s) (taken : s.browse p event = .ok d) :
    Browsed d ∧ (OwnShapes s → (OwnShapes d ↔ ClicksOnEmpty s event)) := by
  obtain ⟨next, handled, rfl⟩ := step_completes taken
  cases event with
  | openDir path =>
    obtain ⟨browsed', own⟩ := browsed.openDir handled
    exact ⟨browsed', fun _ => iff_of_true own trivial⟩
  | clickRow row reply => exact browsed.clickRow handled
  | canvas event =>
    obtain ⟨canvas, drawn, rest⟩ := bind_completes handled
    cases rest
    refine ⟨browsed.of_same rfl rfl ⟨rfl, rfl, rfl, rfl, rfl⟩ fun unloaded => unloaded.handle drawn, ?_⟩
    exact fun own => iff_of_true (own.of_same rfl) trivial
  | saveFile chosen =>
    obtain ⟨canvas, rows, files⟩ := Window.saveFile_completes handled
    refine ⟨browsed.of_same rfl rows files fun unloaded => canvas ▸ unloaded, ?_⟩
    exact fun own => iff_of_true (own.of_same rfl) trivial

theorem fresh_browsed (curIdx : ℤ) (disk : Disk) : Browsed (fresh curIdx disk) :=
  ⟨rfl, rfl, List.nodup_nil, .inl ⟨⟨rfl, rfl, rfl, rfl⟩, rfl⟩⟩

theorem visited_browsed (p : Platform) (curIdx : ℤ) (disk : Disk) (events : List BrowseEvent) :
    ∀ reached ∈ visited (browse p) (fresh curIdx disk) events, Browsed reached := by
  have preserved : ∀ s event d, Browsed s → True → browse p s event = .ok d → Browsed d :=
    fun s event d browsed _ taken => (browsed.browse taken).1
  exact visited_invariant preserved (fresh_browsed curIdx disk)
    (along_of_forall (browse p) (fun _ _ _ => trivial) (fresh curIdx disk))

/-- In a run of browsing, all that is ever written for an image came onto the canvas while it was loaded, exactly when
    rows are only clicked while the canvas is empty or to show the same image again. -/
theorem writes_own_shapes_iff (p : Platform) (curIdx : ℤ) (disk : Disk) (events : List BrowseEvent) :
    (∀ reached ∈ visited (browse p) (fresh curIdx disk) events, WritesOwnShapes p reached) ↔
      Along (browse p) ClicksOnEmpty (fresh curIdx disk) events := by
  have own : OwnShapes (fresh curIdx disk) := by
    intro shape member
    cases member
  have decides : ∀ s event d, Browsed s → OwnShapes s → browse p s event = .ok d →
      Browsed d ∧ (OwnShapes d ↔ ClicksOnEmpty s event) := by
    intro s event d browsed own taken
    obtain ⟨browsed', judged⟩ := browsed.browse taken
    exact ⟨browsed', judged own⟩
  rw [← visited_invariant_iff Browsed decides (fresh_browsed curIdx disk) own]
  apply forall₂_congr
  intro reached member
  exact (visited_browsed p curIdx disk events reached member).writesOwnShapes_iff

/-- A shape is drawn on the first picture of a directory. After a click on the second row it is
    written to the label file of the second picture. -/
theorem shape_carried_to_second_image :
    ∃ reached ∈ visited (browse desk) (fresh 0 deskDisk)
      [.openDir "/pics", .canvas (.mousePress ⟨0, 0⟩ true none), .clickRow 1 none],
      ¬ WritesOwnShapes desk reached := by
  have observed : (do
      let reached ← run (browse desk) (fresh 0 deskDisk)
        [.openDir "/pics", .canvas (.mousePress ⟨0, 0⟩ true none), .clickRow 1 none]
      let saved ← reached.saving desk "/out"
      let path ← reached.files.getCurrentImageFile
      .ok (saved.2.map Prod.fst, path, reached.canvas.shapeList.map reached.addedOn) : Except Fault _) =
        .ok (some "/out/b_labels.json", "/pics/b.png", ["/pics/a.png"]) := by decide +kernel
  obtain ⟨reached, ran, observed⟩ := bind_completes observed
  obtain ⟨⟨files, written⟩, saved, observed⟩ := bind_completes observed
  obtain ⟨path, current, observed⟩ := bind_completes observed
  obtain ⟨wrote, rest⟩ := Prod.mk.inj (Except.ok.inj observed)
  obtain ⟨rfl, added⟩ := Prod.mk.inj rest
  obtain ⟨⟨filename, root⟩, rfl, _⟩ := Option.map_eq_some_iff.mp wrote
  refine ⟨reached, run_mem_visited ran, ?_⟩
  intro writes
  obtain ⟨file, named, _, _, own⟩ := writes "/out" files filename root saved
  obtain ⟨other, named', path⟩ := bind_completes current
  obtain rfl := Except.ok.inj (named.symm.trans named')
  have carried : "/pics/a.png" ∈ reached.canvas.shapeList.map reached.addedOn := by simp [added]
  obtain ⟨shape, member, drawnOn⟩ := List.mem_map.mp carried
  have same := drawnOn.symm.trans ((own shape member).trans (Except.ok.inj path))
  exact absurd same (by decide)

end Session

end XYAnnotation

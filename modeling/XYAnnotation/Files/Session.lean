import XYAnnotation.Canvas.Handlers
import XYAnnotation.Files.OpenSave

namespace XYAnnotation

open Library

namespace FileManager

variable {p : Platform} {m files : FileManager}

structure SameImages (m files : FileManager) : Prop where
  root : files.root = m.root
  imageFiles : files.imageFiles = m.imageFiles
  path : files.path = m.path
  curIdx : files.curIdx = m.curIdx
  isOpenJsonFile : files.isOpenJsonFile = m.isOpenJsonFile

theorem SameImages.trans {first second third : FileManager} (left : SameImages first second)
    (right : SameImages second third) : SameImages first third where
  root := right.root.trans left.root
  imageFiles := right.imageFiles.trans left.imageFiles
  path := right.path.trans left.path
  curIdx := right.curIdx.trans left.curIdx
  isOpenJsonFile := right.isOpenJsonFile.trans left.isOpenJsonFile

theorem SameImages.getCurrentImageFile (same : SameImages m files) :
    files.getCurrentImageFile = m.getCurrentImageFile := by
  rw [FileManager.getCurrentImageFile, FileManager.getCurrentImageFile, imageFileNameAt, imageFileNameAt,
    same.imageFiles, same.curIdx, same.path]

theorem getSavePath_same (m : FileManager) (chosen : String) : SameImages m (m.getSavePath chosen) := by
  unfold getSavePath
  split <;> exact ⟨rfl, rfl, rfl, rfl, rfl⟩

theorem getLabelFile_completes (labelled : m.getLabelFile p = .ok files) :
    SameImages m files ∧ files.savePath = m.savePath ∧
      (m.imageFiles ≠ [] → ∃ file, m.imageFileNameAt m.curIdx = .ok file ∧
        files.labelFile = p.baseName file ++ labelSuffix) := by
  unfold getLabelFile at labelled
  split at labelled
  · rename_i empty
    cases labelled
    exact ⟨⟨rfl, rfl, rfl, rfl, rfl⟩, rfl, fun some => absurd (List.isEmpty_iff.mp empty) some⟩
  · obtain ⟨file, found, rest⟩ := bind_completes labelled
    cases rest
    exact ⟨⟨rfl, rfl, rfl, rfl, rfl⟩, rfl, fun _ => ⟨file, found, rfl⟩⟩

@[simp] theorem selectFile_imageFiles (m : FileManager) (idx : ℤ) :
    (m.selectFile idx).imageFiles = m.imageFiles := by
  unfold selectFile
  split <;> rfl

@[simp] theorem selectFile_path (m : FileManager) (idx : ℤ) : (m.selectFile idx).path = m.path := by
  unfold selectFile
  split <;> rfl

@[simp] theorem selectFile_curIdx (m : FileManager) (idx : ℤ) : (m.selectFile idx).curIdx = idx := by
  unfold selectFile
  split
  · assumption
  · rfl

@[simp] theorem selectFile_isOpenJsonFile (m : FileManager) (idx : ℤ) :
    (m.selectFile idx).isOpenJsonFile = m.isOpenJsonFile := by
  unfold selectFile
  split <;> rfl

end FileManager

namespace Window

variable {p : Platform} {w d : Window}

theorem showFile_completes {idx : ℤ} (shown : w.showFile p idx = .ok d) :
    ∃ path img, (w.files.selectFile idx).getCurrentImageFile = .ok path ∧ p.imageAt path = some img ∧
      d = { w with files := w.files.selectFile idx, canvas := w.canvas.withImage img } := by
  obtain ⟨path, found, rest⟩ := bind_completes shown
  cases image : p.imageAt path with
  | none =>
    rw [image] at rest
    cases rest
  | some img =>
    rw [image, loadImage_some] at rest
    cases rest
    exact ⟨path, img, found, image, rfl⟩

theorem savedImage_same {files : FileManager} (same : w.files.SameImages files) :
    savedImage p { w with files } = savedImage p w := by
  unfold savedImage
  simp only [same.isOpenJsonFile, same.root, same.getCurrentImageFile]

theorem savedImage_current {path : String} (current : w.files.getCurrentImageFile = .ok path) :
    ∃ root, w.savedImage p = .ok root := by
  unfold savedImage
  split
  · exact ⟨_, rfl⟩
  · rw [current]
    simp only [Bind.bind, Except.bind]
    cases p.imageAt path with
    | none => exact ⟨_, rfl⟩
    | some img => exact ⟨_, rfl⟩

theorem saving_completes {chosen : String} {files : FileManager} {written : Option (String × RootS)}
    (saved : w.saving p chosen = .ok (files, written)) :
    w.files.SameImages files ∧ ∀ filename root, written = some (filename, root) →
      w.savedRoot p = .ok root ∧ filename = files.savePath ++ "/" ++ files.labelFile ∧
      (w.files.imageFiles ≠ [] → ∃ file, w.files.imageFileNameAt w.files.curIdx = .ok file ∧
        files.labelFile = p.baseName file ++ FileManager.labelSuffix) := by
  have same := FileManager.getSavePath_same w.files chosen
  unfold saving at saved
  simp only at saved
  split at saved
  · cases saved
    exact ⟨same, fun _ _ none => by cases none⟩
  · obtain ⟨labelled, found, saved⟩ := bind_completes saved
    obtain ⟨sameLabel, _, label⟩ := FileManager.getLabelFile_completes found
    have both := same.trans sameLabel
    split at saved
    · cases saved
      exact ⟨both, fun _ _ none => by cases none⟩
    · obtain ⟨root, built, rest⟩ := bind_completes saved
      cases rest
      refine ⟨both, ?_⟩
      rintro filename _ ⟨⟩
      rw [savedRoot, savedImage_same both] at built
      refine ⟨built, rfl, ?_⟩
      intro some
      rw [same.imageFiles] at label
      obtain ⟨file, named, text⟩ := label some
      refine ⟨file, ?_, text⟩
      rw [FileManager.imageFileNameAt, ← same.imageFiles, ← same.curIdx]
      exact named

theorem saveFile_completes {chosen : String} (saved : w.saveFile p chosen = .ok d) :
    d.canvas = w.canvas ∧ d.rows = w.rows ∧ w.files.SameImages d.files := by
  obtain ⟨⟨files, written⟩, built, rest⟩ := bind_completes saved
  have same := (saving_completes built).1
  cases written with
  | none =>
    cases rest
    exact ⟨rfl, rfl, same⟩
  | some written =>
    cases rest
    exact ⟨rfl, rfl, same⟩

theorem clickRow_completes {row : ℕ} {reply : Option String} (clicked : w.clickRow p row reply = .ok d) :
    ¬ row < w.rows.length ∧ d = w ∨ row < w.rows.length ∧ ∃ ready : Window, ready.canvas = w.canvas ∧
      ready.rows = w.rows ∧ w.files.SameImages ready.files ∧ ready.showFile p row = .ok d := by
  unfold clickRow at clicked
  split at clicked
  · rename_i exists'
    right
    refine ⟨exists', ?_⟩
    split at clicked
    · obtain ⟨ready, saved, shown⟩ := bind_completes clicked
      obtain ⟨canvas, rows, files⟩ := saveFile_completes saved
      exact ⟨ready, canvas, rows, files, shown⟩
    · exact ⟨w, rfl, rfl, ⟨rfl, rfl, rfl, rfl, rfl⟩, clicked⟩
  · rename_i absent
    cases clicked
    exact .inl ⟨absent, rfl⟩

theorem addAllOpened_image {c d : Canvas2D} {colors : ℕ → QColor} {shapes : List ShapeS}
    (added : c.addAllOpened colors shapes = .ok d) : d.image = c.image := by
  induction shapes generalizing c colors with
  | nil =>
    cases added
    rfl
  | cons shape shapes ih =>
    obtain ⟨middle, first, rest⟩ := bind_completes added
    rw [ih rest]
    unfold Canvas2D.addOpened at first
    split at first
    · cases first
    · obtain ⟨img, _, first⟩ := bind_completes first
      simp only [CanvasBase.addShape_eq] at first
      cases first
      rfl

theorem openJson_files {file : String} {colors : ℕ → QColor} (opened : w.openJson p file colors = .ok d) :
    d.rows = w.rows ∧ (d.files = w.files ∨ ∃ root, readJson (w.disk (p.location file)) .empty = .ok (true, root) ∧
      d.files = openedFiles p w.files file root) := by
  obtain ⟨⟨files, root⟩, read, opened⟩ := bind_completes opened
  obtain ⟨loaded, image, opened⟩ := bind_completes opened
  obtain ⟨canvas, _, opened⟩ := bind_completes opened
  cases opened
  obtain ⟨base, _, image⟩ := bind_completes image
  cases image
  rcases openedFiles_cases read with ⟨_, same⟩ | ⟨found, taken⟩
  · exact ⟨rfl, .inl same⟩
  · exact ⟨rfl, .inr ⟨root, found, taken⟩⟩

theorem openJson_completes {file : String} {root : RootS} {img : QImage} {colors : ℕ → QColor}
    (holds : Holds p w.disk file root img) (done : w.openFile p file colors = .ok d) :
    d.files = openedFiles p w.files file root ∧ d.rows = [] ∧ d.canvas.image = some img := by
  have files : w.files.openFile p w.disk .empty file = .ok (openedFiles p w.files file root, root) := by
    rw [FileManager.openFile, holds.read]
    rfl
  rw [openFile, if_pos holds.json] at done
  obtain ⟨⟨opened, read⟩, first, done⟩ := bind_completes done
  obtain ⟨rfl, rfl⟩ := Prod.mk.inj (Except.ok.inj (files.symm.trans first))
  obtain ⟨shown, loaded, done⟩ := bind_completes done
  rw [holds.image, loadImage_some] at loaded
  cases loaded
  obtain ⟨canvas, added, rest⟩ := bind_completes done
  cases rest
  exact ⟨rfl, rfl, addAllOpened_image added⟩

end Window

/-- The window with what an observer notes: the path that the loaded image has, and for each shape
    the path of the image that was loaded when the shape came onto the canvas. -/
structure Session extends Window where
  shownPath : String
  addedOn : ShapeId → String

namespace Session

def fresh (curIdx : ℤ) (disk : Disk) : Session := ⟨.fresh curIdx disk, "", fun _ => ""⟩

/-- The path of the image that an event loads. An image in a JSON file has the path given there. -/
def loadedPath (p : Platform) (w next : Window) : WindowEvent → Option String
  | .openFile file _ =>
    if Window.IsJson file then
      match readJson (w.disk (p.location file)) .empty with
      | .ok (_, root) => some root.imagePath
      | .error _ => none
    else next.files.getCurrentImageFile.toOption
  | .openDir _ => next.files.getCurrentImageFile.toOption
  | .clickRow row _ => if row < w.rows.length then next.files.getCurrentImageFile.toOption else none
  | .canvas _ | .saveFile _ => none

def noted (p : Platform) (s : Session) (event : WindowEvent) (next : Window) : Session :=
  let shownPath := (loadedPath p s.toWindow next event).getD s.shownPath
  { next with
    shownPath
    addedOn := fun shape => if shape ∈ s.canvas.shapeList then s.addedOn shape else shownPath }

def step (p : Platform) (s : Session) (event : WindowEvent) : Except Fault Session := do
  let next ← s.toWindow.handle p event
  .ok (s.noted p event next)

theorem step_completes {p : Platform} {s d : Session} {event : WindowEvent} (taken : s.step p event = .ok d) :
    ∃ next, s.toWindow.handle p event = .ok next ∧ d = s.noted p event next := by
  obtain ⟨next, handled, rest⟩ := bind_completes taken
  cases rest
  exact ⟨next, handled, rfl⟩

theorem noted_showFile {p : Platform} {s : Session} {w next : Window} {idx : ℤ} {event : WindowEvent}
    (shown : w.showFile p idx = .ok next)
    (loads : loadedPath p s.toWindow next event = next.files.getCurrentImageFile.toOption) :
    next.files.getCurrentImageFile = .ok (s.noted p event next).shownPath := by
  obtain ⟨path, img, current, _, rfl⟩ := Window.showFile_completes shown
  have path : loadedPath p s.toWindow _ event = some path := loads.trans (congrArg Except.toOption current)
  rw [noted, path]
  exact current

theorem noted_shownPath {p : Platform} {s : Session} {next : Window} {event : WindowEvent}
    (loads : loadedPath p s.toWindow next event = none) : (s.noted p event next).shownPath = s.shownPath := by
  rw [noted, loads]
  rfl

end Session

end XYAnnotation

import XYAnnotation.Files.Session

namespace XYAnnotation

open Library

variable {p : Platform} {s d : Session}

structure RootS.Describes (p : Platform) (root : RootS) (path : String) (img : QImage) : Prop where
  data : p.base64ToImg root.imageData = some img
  path : root.imagePath = path
  height : root.imageHeight = stdToString img.height
  width : root.imageWidth = stdToString img.width

namespace Session

/-- Whatever a save would write is about the image on the canvas. -/
def SavesDisplayed (p : Platform) (s : Session) : Prop :=
  ∀ chosen files filename root, s.saving p chosen = .ok (files, some (filename, root)) →
    ∃ img, s.canvas.image = some img ∧ root.Describes p s.shownPath img

/-- No directory is opened while a JSON file is open, and every JSON file that is opened can be read and
    gives the size of its image. -/
def OpensCleanly (p : Platform) (s : Session) : WindowEvent → Prop
  | .openFile file _ => Window.IsJson file → ∃ root img, Window.Holds p s.disk file root img ∧
      root.imageHeight = stdToString img.height ∧ root.imageWidth = stdToString img.width
  | .openDir _ => s.files.isOpenJsonFile = false
  | _ => True

structure InStep (p : Platform) (s : Session) : Prop where
  json : s.files.isOpenJsonFile = true →
    s.rows = [] ∧ ∃ img, s.canvas.image = some img ∧ s.files.root.Describes p s.shownPath img
  file : s.files.isOpenJsonFile = false → ∀ path, s.files.getCurrentImageFile = .ok path →
    path = s.shownPath ∧ ∃ img, s.canvas.image = some img ∧ p.imageAt path = some img

theorem InStep.savesDisplayed (coded : p.Coded) (inStep : InStep p s) : SavesDisplayed p s := by
  intro chosen files filename root saved
  obtain ⟨built, _, _⟩ := (Window.saving_completes saved).2 filename root rfl
  obtain ⟨start, image, rest⟩ := bind_completes built
  cases rest
  unfold Window.savedImage at image
  split at image
  · rename_i json
    cases image
    obtain ⟨_, img, shown, describes⟩ := inStep.json json
    exact ⟨img, shown, describes.data, describes.path, describes.height, describes.width⟩
  · rename_i notJson
    obtain ⟨path, current, image⟩ := bind_completes image
    obtain ⟨same, img, shown, loaded⟩ := inStep.file (by simpa using notJson) path current
    rw [loaded] at image
    cases image
    exact ⟨img, shown, coded path img loaded, same, rfl, rfl⟩

theorem inStep_of_showFile {w : Window} {idx : ℤ} {event : WindowEvent} {next : Window}
    (shown : w.showFile p idx = .ok next) (notJson : w.files.isOpenJsonFile = false)
    (loads : loadedPath p s.toWindow next event = next.files.getCurrentImageFile.toOption) :
    InStep p (s.noted p event next) := by
  have path := noted_showFile shown loads
  obtain ⟨file, img, current, image, rfl⟩ := Window.showFile_completes shown
  have flag : (w.files.selectFile idx).isOpenJsonFile = false := by
    rw [FileManager.selectFile_isOpenJsonFile, notJson]
  constructor
  · intro json
    exact absurd (flag.symm.trans json) (by decide)
  · intro _ other current'
    obtain rfl := Except.ok.inj (current.symm.trans current')
    exact ⟨Except.ok.inj (current.symm.trans path), img, rfl, image⟩

theorem InStep.of_same {event : WindowEvent} {next : Window} (inStep : InStep p s)
    (loads : loadedPath p s.toWindow next event = none) (image : next.canvas.image = s.canvas.image)
    (rows : next.rows = s.rows) (files : s.files.SameImages next.files) : InStep p (s.noted p event next) := by
  have path := noted_shownPath loads
  constructor
  · intro json
    obtain ⟨none, img, shown, describes⟩ := inStep.json (files.isOpenJsonFile ▸ json)
    refine ⟨rows.trans none, img, image.trans shown, ?_⟩
    rw [path]
    change next.files.root.Describes p s.shownPath img
    rw [files.root]
    exact describes
  · intro notJson path' current
    rw [path]
    obtain ⟨same, img, shown, loaded⟩ := inStep.file (files.isOpenJsonFile ▸ notJson) path'
      (files.getCurrentImageFile ▸ current)
    exact ⟨same, img, image.trans shown, loaded⟩

theorem InStep.openFile {file : String} {colors : ℕ → QColor} {next : Window}
    (opensCleanly : OpensCleanly p s (.openFile file colors))
    (opened : s.toWindow.openFile p file colors = .ok next) : InStep p (s.noted p (.openFile file colors) next) := by
  by_cases json : Window.IsJson file
  · obtain ⟨root, img, holds, height, width⟩ := opensCleanly json
    obtain ⟨files, rows, image⟩ := Window.openJson_completes holds opened
    have loads : loadedPath p s.toWindow next (.openFile file colors) = some root.imagePath := by
      rw [loadedPath, if_pos json, holds.read]
    have path : (s.noted p (.openFile file colors) next).shownPath = root.imagePath := by rw [noted, loads]; rfl
    constructor
    · intro _
      refine ⟨rows, img, image, ?_⟩
      rw [path]
      change next.files.root.Describes p root.imagePath img
      rw [files]
      exact ⟨holds.image, rfl, height, width⟩
    · intro notJson
      have flag : next.files.isOpenJsonFile = true := by rw [files]; rfl
      exact absurd (flag.symm.trans notJson) (by decide)
  · rw [Window.openFile, if_neg json] at opened
    exact inStep_of_showFile opened rfl (if_neg json)

theorem InStep.clickRow {row : ℕ} {reply : Option String} {next : Window} (inStep : InStep p s)
    (clicked : s.toWindow.clickRow p row reply = .ok next) : InStep p (s.noted p (.clickRow row reply) next) := by
  rcases Window.clickRow_completes clicked with ⟨absent, rfl⟩ | ⟨present, ready, _, _, files, shown⟩
  · exact inStep.of_same (if_neg absent) rfl rfl ⟨rfl, rfl, rfl, rfl, rfl⟩
  · have notJson : s.files.isOpenJsonFile = false := by
      by_contra json
      -- the list of files is empty while a JSON file is open
      have none := (inStep.json (by simpa using json)).1
      rw [none] at present
      exact absurd present (Nat.not_lt_zero row)
    exact inStep_of_showFile shown (files.isOpenJsonFile.trans notJson) (if_pos present)

theorem InStep.step {event : WindowEvent} (inStep : InStep p s) (opensCleanly : OpensCleanly p s event)
    (taken : s.step p event = .ok d) : InStep p d := by
  obtain ⟨next, handled, rfl⟩ := step_completes taken
  cases event with
  | openFile file colors => exact InStep.openFile opensCleanly handled
  | openDir path =>
    rw [Window.handle, Window.openDir] at handled
    exact inStep_of_showFile handled opensCleanly rfl
  | clickRow row reply => exact inStep.clickRow handled
  | canvas event =>
    obtain ⟨canvas, drawn, rest⟩ := bind_completes handled
    cases rest
    exact inStep.of_same rfl (Canvas2D.handle_sameView drawn).image rfl ⟨rfl, rfl, rfl, rfl, rfl⟩
  | saveFile chosen =>
    obtain ⟨canvas, rows, files⟩ := Window.saveFile_completes handled
    exact inStep.of_same rfl (congrArg (·.image) canvas) rows files

/-- In every run that opens cleanly, a save writes the data, the path and the size of the image that is
    on the canvas. -/
theorem saves_displayed_image (p : Platform) (coded : p.Coded) (curIdx : ℤ) (disk : Disk)
    (events : List WindowEvent) (clean : Along (step p) (OpensCleanly p) (fresh curIdx disk) events) :
    ∀ reached ∈ visited (step p) (fresh curIdx disk) events, SavesDisplayed p reached := by
  have initial : InStep p (fresh curIdx disk) := by
    constructor
    · intro json
      cases json
    · intro _ path current
      obtain ⟨file, found, _⟩ := bind_completes current
      obtain ⟨_, missing⟩ := QVector.at_completes found
      cases missing
  intro reached member
  have inStep := visited_invariant (fun s event d => InStep.step) initial clean reached member
  exact inStep.savesDisplayed coded

theorem opened_json_saves_displayed :
    ∃ last, run (step desk) (fresh 0 deskDisk)
        [.openFile "/pics/a.json" deskColors, .canvas .creatPolygon, .saveFile ""] = .ok last ∧
      last.shownPath = "/pics/a.png" ∧
      ∀ reached ∈ visited (step desk) (fresh 0 deskDisk)
        [.openFile "/pics/a.json" deskColors, .canvas .creatPolygon, .saveFile ""], SavesDisplayed desk reached := by
  have observed : (run (step desk) (fresh 0 deskDisk)
      [.openFile "/pics/a.json" deskColors, .canvas .creatPolygon, .saveFile ""]).map (·.shownPath) =
        .ok "/pics/a.png" := by decide +kernel
  obtain ⟨last, done, seen⟩ := map_completes observed
  refine ⟨last, done, seen, ?_⟩
  apply saves_displayed_image desk desk_coded 0 deskDisk
  apply along_cons
  · exact fun _ => ⟨annotated, black, deskDisk_holds, by decide +kernel, by decide +kernel⟩
  · intro next _
    apply along_of_forall
    simp [OpensCleanly]

/-- A JSON file is opened, then a directory; the second picture is shown and a shape is added. A save
    still writes the image of the JSON file. -/
theorem json_image_saved_for_directory :
    ∃ reached ∈ visited (step desk) (fresh 0 deskDisk) [.openFile "/pics/a.json" deskColors,
      .openDir "/pics", .clickRow 1 none, .canvas .creatPolygon], ¬ SavesDisplayed desk reached := by
  have observed : (do
      let reached ← run (step desk) (fresh 0 deskDisk) [.openFile "/pics/a.json" deskColors,
        .openDir "/pics", .clickRow 1 none, .canvas .creatPolygon]
      let saved ← reached.saving desk ""
      .ok (reached.shownPath, saved.2.map fun written => written.2.imagePath) : Except Fault _) =
        .ok ("/pics/b.png", some "/pics/a.png") := by decide +kernel
  obtain ⟨reached, ran, observed⟩ := bind_completes observed
  obtain ⟨⟨files, written⟩, saved, observed⟩ := bind_completes observed
  obtain ⟨shown, path⟩ := Prod.mk.inj (Except.ok.inj observed)
  obtain ⟨⟨filename, root⟩, rfl, imagePath⟩ := Option.map_eq_some_iff.mp path
  refine ⟨reached, run_mem_visited ran, ?_⟩
  intro displayed
  obtain ⟨img, _, describes⟩ := displayed "" files filename root saved
  have same := imagePath.symm.trans (describes.path.trans shown)
  exact absurd same (by decide)

end Session

end XYAnnotation

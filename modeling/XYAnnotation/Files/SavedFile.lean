import XYAnnotation.Files.FileIndex
import XYAnnotation.Files.PointUndo
import XYAnnotation.Files.Reader

namespace XYAnnotation

open Library

def Json.entry (j : Json) : Option Json × Option Json := (j.lookup? "label", j.lookup? "points")

/-- The document lists exactly the shapes, in their order, with their labels and image points. -/
def Mirrors (document : Json) (shapes : List Shape) : Prop :=
  ∃ items, document.lookup? "shapes" = some (.arr items) ∧ items.map Json.entry =
    shapes.map fun shape => (some (.str shape.label.label), some (pointsJson shape.points.imgPoints))

theorem rootJson_mirrors {root : RootS} {shapes : List Shape} (saved : root.shapes = shapes.map savedShape)
    (height width : ℤ) : Mirrors (rootJson root height width) shapes := by
  refine ⟨root.shapes.map shapeJson, rfl, ?_⟩
  rw [saved, List.map_map, List.map_map]
  rfl

namespace FileManager

variable {m files : FileManager}

def RootSized (m : FileManager) : Prop := m.isOpenJsonFile = true → ∃ height width, m.root.Sized height width

theorem RootSized.of_same (sized : m.RootSized) (root : files.root = m.root)
    (isOpenJsonFile : files.isOpenJsonFile = m.isOpenJsonFile) : files.RootSized := by
  unfold RootSized
  rw [root, isOpenJsonFile]
  exact sized

theorem selectFile_root (m : FileManager) (idx : ℤ) : (m.selectFile idx).root = m.root := by
  unfold selectFile
  split <;> rfl

theorem RootSized.selectFile (sized : m.RootSized) (idx : ℤ) : (m.selectFile idx).RootSized :=
  sized.of_same (selectFile_root m idx) (selectFile_isOpenJsonFile m idx)

end FileManager

namespace Window

variable {p : Platform} {w d : Window}

theorem rootSized_of_showFile {idx : ℤ} (sized : w.files.RootSized) (shown : w.showFile p idx = .ok d) :
    d.files.RootSized := by
  obtain ⟨path, img, _, _, rfl⟩ := showFile_completes shown
  exact sized.selectFile idx

theorem rootSized_openFile {file : String} {colors : ℕ → QColor} (sized : w.files.RootSized)
    (opened : w.openFile p file colors = .ok d) : d.files.RootSized := by
  unfold openFile at opened
  split at opened
  · obtain ⟨_, files | ⟨root, found, files⟩⟩ := openJson_files opened
    · rw [files]
      exact sized
    · rw [files]
      exact fun _ => readJson_sized found
  · refine rootSized_of_showFile (w := { w.clean with files := _, rows := _ }) ?_ opened
    intro json
    cases json

theorem rootSized_handle {event : WindowEvent} (sized : w.files.RootSized) (handled : w.handle p event = .ok d) :
    d.files.RootSized := by
  cases event with
  | openFile file colors => exact rootSized_openFile sized handled
  | openDir path =>
    refine rootSized_of_showFile (w := { w.clean with files := _, rows := _ }) ?_ handled
    exact sized.of_same rfl rfl
  | clickRow row reply =>
    rcases clickRow_completes handled with ⟨_, rfl⟩ | ⟨_, ready, _, _, same, shown⟩
    · exact sized
    · exact rootSized_of_showFile (sized.of_same same.root same.isOpenJsonFile) shown
  | canvas event =>
    obtain ⟨canvas, _, rest⟩ := bind_completes handled
    cases rest
    exact sized
  | saveFile chosen =>
    obtain ⟨_, _, same⟩ := saveFile_completes handled
    exact sized.of_same same.root same.isOpenJsonFile

theorem savedRoot_sized {root : RootS} (sized : w.files.RootSized) (built : w.savedRoot p = .ok root) :
    ∃ height width, root.Sized height width := by
  obtain ⟨start, found, rest⟩ := bind_completes built
  cases rest
  suffices ∃ height width, start.Sized height width by
    obtain ⟨height, width, heightText, widthText, heightInt, widthInt⟩ := this
    exact ⟨height, width, heightText, widthText, heightInt, widthInt⟩
  unfold savedImage at found
  split at found
  · rename_i json
    cases found
    exact sized json
  · obtain ⟨path, _, found⟩ := bind_completes found
    split at found
    · rename_i img _
      have height := img.height_int
      have width := img.width_int
      cases found
      exact ⟨img.height, img.width, rfl, rfl, ⟨by omega, by omega⟩, by omega, by omega⟩
    · cases found
      exact ⟨0, 0, rfl, rfl, by decide, by decide⟩

/-- What a save with a path leaves behind. -/
structure Saved (p : Platform) (w d : Window) : Prop where
  mirrored : w.canvas.shapeList ≠ [] → ∃ document,
    d.disk (p.location (d.files.savePath ++ "/" ++ d.files.labelFile)) = some document ∧
      Mirrors document w.canvas.shapes
  untouched : w.canvas.shapeList = [] → d.disk = w.disk

theorem saving_some {chosen : String} {files : FileManager} {written : Option (String × RootS)}
    (path : (w.files.getSavePath chosen).savePath ≠ "") (listed : w.canvas.shapeList ≠ [])
    (saved : w.saving p chosen = .ok (files, written)) : ∃ filename root, written = some (filename, root) := by
  unfold saving at saved
  simp only at saved
  split at saved
  · rename_i empty
    exact absurd (String.isEmpty_iff.mp empty) path
  · obtain ⟨labelled, _, saved⟩ := bind_completes saved
    split at saved
    · rename_i empty
      exact absurd (List.isEmpty_iff.mp empty) listed
    · obtain ⟨root, _, saved⟩ := bind_completes saved
      cases saved
      exact ⟨_, _, rfl⟩

theorem saveFile_saved {chosen : String} (sized : w.files.RootSized)
    (path : (w.files.getSavePath chosen).savePath ≠ "") (saved : w.saveFile p chosen = .ok d) : Saved p w d := by
  obtain ⟨⟨files, written⟩, built, rest⟩ := bind_completes saved
  constructor
  · intro listed
    obtain ⟨filename, root, rfl⟩ := saving_some path listed built
    cases rest
    obtain ⟨root', name, _⟩ := (saving_completes built).2 filename root rfl
    obtain ⟨height, width, fits⟩ := savedRoot_sized sized root'
    refine ⟨rootJson root height width, ?_, rootJson_mirrors (saving_shapes built).2 height width⟩
    rw [name, store, writeJson_eq fits]
    exact Function.update_self _ _ _
  · intro empty
    cases written with
    | none =>
      cases rest
      rfl
    | some written => exact absurd empty (saving_shapes built).1

theorem savedImage_total (inRange : w.files.imageFiles ≠ [] → w.files.InRange)
    (source : w.files.isOpenJsonFile = true ∨ w.files.imageFiles ≠ []) : ∃ root, w.savedImage p = .ok root := by
  by_cases json : w.files.isOpenJsonFile = true
  · exact ⟨_, if_pos json⟩
  · obtain ⟨low, high⟩ := inRange (source.resolve_left json)
    have bound : w.files.curIdx.toNat < w.files.imageFiles.length := by omega
    have read := QVector.at_natCast w.files.imageFiles w.files.curIdx.toNat bound
    rw [Int.toNat_of_nonneg low] at read
    apply savedImage_current
    rw [FileManager.getCurrentImageFile, FileManager.imageFileNameAt, read]
    rfl

theorem saveFile_total {chosen : String} (indexed : w.Indexed)
    (source : w.canvas.shapeList = [] ∨ w.files.isOpenJsonFile = true ∨ w.files.imageFiles ≠ []) :
    ∃ d, w.saveFile p chosen = .ok d := by
  suffices ∃ result, w.saving p chosen = .ok result by
    obtain ⟨⟨files, written⟩, saved⟩ := this
    rw [saveFile, saved]
    cases written <;> exact ⟨_, rfl⟩
  have same := FileManager.getSavePath_same w.files chosen
  have inRange : (w.files.getSavePath chosen).imageFiles ≠ [] → (w.files.getSavePath chosen).InRange := by
    unfold FileManager.InRange
    rw [same.imageFiles, same.curIdx]
    exact indexed.inRange
  obtain ⟨files, labelled, sameLabel⟩ := getLabelFile_total (p := p) inRange
  unfold saving
  simp only
  split
  · exact ⟨_, rfl⟩
  · rw [labelled]
    change ∃ result, (if w.canvas.shapeList.isEmpty then _ else savedRoot p { w with files } >>= _) = Except.ok result
    split
    · exact ⟨_, rfl⟩
    · rename_i listed
      have document := source.resolve_left fun empty => listed (List.isEmpty_iff.mpr empty)
      obtain ⟨root, found⟩ := savedImage_total (p := p) indexed.inRange document
      rw [savedRoot, savedImage_same (same.trans sameLabel), found]
      exact ⟨_, rfl⟩

theorem run_indexed {curIdx : ℤ} {disk : Disk} {events : List WindowEvent}
    (reached : run (handle p) (fresh curIdx disk) events = .ok w) : w.Indexed ∧ w.files.RootSized := by
  have start : (fresh curIdx disk).Indexed ∧ (fresh curIdx disk).files.RootSized := by
    refine ⟨⟨.inl rfl, fun some => absurd rfl some, rfl⟩, ?_⟩
    intro json
    cases json
  have unconditional : Along (handle p) (fun _ _ => True) (fresh curIdx disk) events :=
    along_of_forall _ (fun _ _ _ => trivial) _
  have preserved : ∀ state event next, state.Indexed ∧ state.files.RootSized → True →
      handle p state event = .ok next → next.Indexed ∧ next.files.RootSized := by
    rintro state event next ⟨indexed, sized⟩ _ handled
    exact ⟨indexed.handle handled, rootSized_handle sized handled⟩
  exact visited_invariant preserved start unconditional w (run_mem_visited reached)

/-- A save that has shapes to write leaves a file that mirrors the canvas; with an empty canvas it leaves all files
    alone. It returns, unless it has neither a document nor a list of files to name the image of the shapes. -/
theorem saved_file_mirrors (p : Platform) (curIdx : ℤ) (disk : Disk) (events : List WindowEvent) (w : Window)
    (reached : run (handle p) (fresh curIdx disk) events = .ok w) (chosen : String)
    (path : (w.files.getSavePath chosen).savePath ≠ "") :
    (∀ d, w.saveFile p chosen = .ok d → Saved p w d) ∧
      (w.canvas.shapeList = [] ∨ w.files.isOpenJsonFile = true ∨ w.files.imageFiles ≠ [] →
        ∃ d, w.saveFile p chosen = .ok d) := by
  obtain ⟨indexed, sized⟩ := run_indexed reached
  exact ⟨fun d saved => saveFile_saved sized path saved, saveFile_total indexed⟩

def vertexSaved : List WindowEvent :=
  [.openDir "/pics", .canvas (.mousePress ⟨-20, -20⟩ true none), .saveFile "/out"]

theorem vertex_saved_again :
    ∃ w d, run (handle easel) (fresh 0 deskDisk) vertexSaved = .ok w ∧ w.saveFile easel "" = .ok d ∧
      w.canvas.shapeList = [0] ∧ Saved easel w d := by
  have observed : (run (handle easel) (fresh 0 deskDisk) vertexSaved).map
      (fun w => (w.canvas.shapeList, w.files.savePath, w.files.imageFiles)) =
        .ok ([0], "/out", ["a.png", "b.png"]) := by decide +kernel
  obtain ⟨w, ran, observed⟩ := map_completes observed
  obtain ⟨listed, rest⟩ := Prod.mk.inj observed
  obtain ⟨place, images⟩ := Prod.mk.inj rest
  have path : (w.files.getSavePath "").savePath ≠ "" := by
    rw [FileManager.getSavePath, if_neg (by rw [place]; decide +kernel), place]
    decide
  obtain ⟨saves, total⟩ := saved_file_mirrors easel 0 deskDisk vertexSaved w ran "" path
  obtain ⟨d, saved⟩ := total (.inr (.inr (by rw [images]; decide)))
  exact ⟨w, d, ran, saved, listed, saves d saved⟩

/-- The shape is undone and the canvas is saved again: the file still lists it. -/
theorem undone_shape_stays_in_file :
    ∃ w d document, run (handle easel) (fresh 0 deskDisk) (vertexSaved ++ [.canvas .undo, .canvas .undo]) = .ok w ∧
      w.canvas.shapeList = [] ∧ (w.files.getSavePath "").savePath = "/out" ∧ w.saveFile easel "" = .ok d ∧
      d.disk (easel.location (d.files.savePath ++ "/" ++ d.files.labelFile)) = some document ∧
      ¬ Mirrors document w.canvas.shapes := by
  have observed : (do
      let w ← run (handle easel) (fresh 0 deskDisk) (vertexSaved ++ [.canvas .undo, .canvas .undo])
      let d ← w.saveFile easel ""
      .ok (w.canvas.shapeList, (w.files.getSavePath "").savePath,
        (d.disk (easel.location (d.files.savePath ++ "/" ++ d.files.labelFile))).map fun document =>
          (document.itemsAt "shapes").length) : Except Fault _) = .ok ([], "/out", some 1) := by decide +kernel
  obtain ⟨w, ran, observed⟩ := bind_completes observed
  obtain ⟨d, saved, observed⟩ := bind_completes observed
  obtain ⟨empty, rest⟩ := Prod.mk.inj (Except.ok.inj observed)
  obtain ⟨path, file⟩ := Prod.mk.inj rest
  obtain ⟨document, found, one⟩ := Option.map_eq_some_iff.mp file
  refine ⟨w, d, document, ran, empty, path, saved, found, ?_⟩
  rintro ⟨items, listed, same⟩
  rw [CanvasBase.shapes, empty] at same
  have none : items = [] := List.map_eq_nil_iff.mp same
  rw [Json.itemsAt, listed, none] at one
  cases one

end Window

end XYAnnotation

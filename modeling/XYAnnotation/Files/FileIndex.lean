import XYAnnotation.Files.Session
import XYAnnotation.Library.Noted

namespace XYAnnotation

open Library Noted

/-- Computations that note in which states of the file manager `imageFiles[curIdx]` is evaluated. -/
abbrev Indexing := Noted FileManager Fault

namespace FileManager

variable (p : Platform) (m : FileManager)

def InRange : Prop := 0 ≤ m.curIdx ∧ m.curIdx < m.imageFiles.length

def indexFile : Indexing String := do
  note m
  unnoted (m.imageFileNameAt m.curIdx)

def indexCurrentImageFile : Indexing String := do
  let file ← m.indexFile
  pure (m.path ++ file)

def indexLabelFile : Indexing FileManager :=
  if m.imageFiles.isEmpty then pure m
  else do
    let file ← m.indexFile
    pure { m with labelFile := p.baseName file ++ labelSuffix }

theorem indexCurrentImageFile_result : m.indexCurrentImageFile.result = m.getCurrentImageFile := by
  simp only [indexCurrentImageFile, indexFile, bind_result, note_result, unnoted_result, pure_result]
  rfl

theorem indexLabelFile_result : (m.indexLabelFile p).result = m.getLabelFile p := by
  unfold indexLabelFile getLabelFile
  split
  · rfl
  · simp only [indexFile, bind_result, note_result, unnoted_result, pure_result]
    rfl

theorem indexCurrentImageFile_entries : m.indexCurrentImageFile.entries = [m] := by
  simp only [indexCurrentImageFile, indexFile, Bind.bind, note, unnoted]
  cases m.imageFileNameAt m.curIdx <;> rfl

theorem indexLabelFile_entries : (m.indexLabelFile p).entries = if m.imageFiles.isEmpty then [] else [m] := by
  unfold indexLabelFile
  split
  · rfl
  · simp only [indexFile, Bind.bind, note, unnoted]
    cases m.imageFileNameAt m.curIdx <;> rfl

end FileManager

namespace Window

section Indexing

variable (p : Platform) (w : Window)

def indexShowFile (idx : ℤ) : Indexing Window := do
  let w := { w with files := w.files.selectFile idx }
  let path ← w.files.indexCurrentImageFile
  unnoted (w.loadImage (p.imageAt path))

def indexSavedImage : Indexing RootS :=
  if w.files.isOpenJsonFile then pure w.files.root
  else do
    let imgPath ← w.files.indexCurrentImageFile
    match p.imageAt imgPath with
    | some img => pure { RootS.empty with
        imageData := p.imgToBase64 img
        imageHeight := stdToString img.height
        imagePath := imgPath
        imageWidth := stdToString img.width }
    | none => pure { RootS.empty with
        imageHeight := stdToString 0
        imagePath := imgPath
        imageWidth := stdToString 0 }

def indexSavedRoot : Indexing RootS := do
  let root ← w.indexSavedImage p
  pure { root with
    shapes := w.canvas.shapeList.map fun shape => savedShape (w.canvas.heap shape)
    version := appVersion
    flags := "" }

def indexWriting (files : FileManager) : Indexing (FileManager × Option (String × RootS)) :=
  if w.canvas.shapeList.isEmpty then pure (files, none)
  else do
    let root ← indexSavedRoot p { w with files }
    pure (files, some (files.savePath ++ "/" ++ files.labelFile, root))

def indexSaving (chosen : String) : Indexing (FileManager × Option (String × RootS)) :=
  let files := w.files.getSavePath chosen
  if files.savePath.isEmpty then pure (files, none)
  else do
    let files ← files.indexLabelFile p
    w.indexWriting p files

def indexSaveFile (chosen : String) : Indexing Window := do
  let (files, written) ← w.indexSaving p chosen
  match written with
  | some (filename, root) => pure { w with files, disk := store p w.disk filename root }
  | none => pure { w with files }

def indexOpenFile (file : String) (colors : ℕ → QColor) : Indexing Window :=
  if IsJson file then unnoted (w.clean.openJson p file colors)
  else
    let files := w.clean.files.setSingleImage p file
    indexShowFile p { w.clean with files, rows := files.imageFiles } 0

def indexOpenDir (path : String) : Indexing Window :=
  let files := w.clean.files.setMultiImage p path
  indexShowFile p { w.clean with files, rows := files.imageFiles } 0

def indexClickRow (row : ℕ) (reply : Option String) : Indexing Window :=
  if row < w.rows.length then
    match w.files.changeNotSaved, reply with
    | true, some chosen => do
      let w ← w.indexSaveFile p chosen
      w.indexShowFile p row
    | _, _ => w.indexShowFile p row
  else pure w

def indexHandle : WindowEvent → Indexing Window
  | .openFile file colors => w.indexOpenFile p file colors
  | .openDir path => w.indexOpenDir p path
  | .clickRow row reply => w.indexClickRow p row reply
  | .canvas event => unnoted (w.handle p (.canvas event))
  | .saveFile chosen => w.indexSaveFile p chosen

theorem indexShowFile_result (idx : ℤ) : (w.indexShowFile p idx).result = w.showFile p idx := by
  simp only [indexShowFile, bind_result, FileManager.indexCurrentImageFile_result, unnoted_result]
  rfl

theorem indexSavedImage_result : (w.indexSavedImage p).result = w.savedImage p := by
  unfold indexSavedImage savedImage
  split
  · rfl
  · rw [bind_result, FileManager.indexCurrentImageFile_result]
    congr 1
    funext path
    cases p.imageAt path <;> rfl

theorem indexSavedRoot_result : (w.indexSavedRoot p).result = w.savedRoot p := by
  simp only [indexSavedRoot, bind_result, indexSavedImage_result, pure_result]
  rfl

theorem indexSaving_result (chosen : String) : (w.indexSaving p chosen).result = w.saving p chosen := by
  unfold indexSaving saving
  simp only
  split
  · rfl
  · rw [bind_result, FileManager.indexLabelFile_result]
    congr 1
    funext files
    unfold indexWriting
    split
    · rfl
    · simp only [bind_result, indexSavedRoot_result, pure_result]

theorem indexSaveFile_result (chosen : String) : (w.indexSaveFile p chosen).result = w.saveFile p chosen := by
  unfold indexSaveFile saveFile
  rw [bind_result, indexSaving_result]
  congr 1
  funext ⟨files, written⟩
  cases written <;> rfl

/-- The notes do not change what the window does. -/
theorem indexHandle_result (event : WindowEvent) : (w.indexHandle p event).result = w.handle p event := by
  cases event with
  | openFile file colors =>
    simp only [indexHandle, handle, indexOpenFile, openFile]
    split
    · rfl
    · exact indexShowFile_result p _ 0
  | openDir path => exact indexShowFile_result p _ 0
  | clickRow row reply =>
    simp only [indexHandle, handle, indexClickRow, clickRow]
    split
    · cases w.files.changeNotSaved with
      | false => exact indexShowFile_result p w row
      | true =>
        cases reply with
        | none => exact indexShowFile_result p w row
        | some chosen =>
          simp only [bind_result, indexSaveFile_result, indexShowFile_result]
    · rfl
  | canvas event => rfl
  | saveFile chosen => exact indexSaveFile_result p w chosen

def IndexesInRange (event : WindowEvent) : Prop := ∀ m ∈ (w.indexHandle p event).entries, m.InRange

/-- A directory that is opened lists an image, and a save that gets as far as to write finds a list or an opened
    document. -/
def HasFiles : WindowEvent → Prop
  | .openDir path => p.entryList (path ++ "/") ≠ []
  | .saveFile chosen => (w.files.getSavePath chosen).savePath ≠ "" → w.canvas.shapeList ≠ [] →
      w.files.isOpenJsonFile = false → w.files.imageFiles ≠ []
  | _ => True

end Indexing

variable {p : Platform} {w next : Window}

structure Indexed (w : Window) : Prop where
  rows : w.rows = [] ∨ w.rows = w.files.imageFiles
  inRange : w.files.imageFiles ≠ [] → w.files.InRange
  saved : w.files.changeNotSaved = false

theorem indexShowFile_entries (w : Window) (idx : ℤ) :
    (∀ m ∈ (w.indexShowFile p idx).entries, m.InRange) ↔ (w.files.selectFile idx).InRange := by
  rw [indexShowFile, bind_entries, FileManager.indexCurrentImageFile_entries]
  simp

theorem indexSavedRoot_entries (w : Window) :
    (∀ m ∈ (w.indexSavedRoot p).entries, m.InRange) ↔ (w.files.isOpenJsonFile = false → w.files.InRange) := by
  rw [indexSavedRoot, bind_entries]
  unfold indexSavedImage
  cases json : w.files.isOpenJsonFile with
  | true => simp
  | false =>
    simp only [Bool.false_eq_true, if_false, bind_entries, FileManager.indexCurrentImageFile_entries]
    have quiet : ∀ path, (match p.imageAt path with
        | some img => (pure { RootS.empty with
            imageData := p.imgToBase64 img, imageHeight := stdToString img.height, imagePath := path,
            imageWidth := stdToString img.width } : Indexing RootS)
        | none => pure { RootS.empty with
            imageHeight := stdToString 0, imagePath := path, imageWidth := stdToString 0 }).entries = [] := by
      intro path
      cases p.imageAt path <;> rfl
    simp [quiet]

theorem indexSaveFile_entries (w : Window) (chosen : String) :
    (∀ m ∈ (w.indexSaveFile p chosen).entries, m.InRange) ↔
      ∀ m ∈ (w.indexSaving p chosen).entries, m.InRange := by
  rw [indexSaveFile, bind_entries]
  apply and_iff_left
  rintro ⟨files, written⟩ _
  cases written <;> simp

theorem indexWriting_entries (w : Window) (files : FileManager) :
    (∀ m ∈ (w.indexWriting p files).entries, m.InRange) ↔
      (w.canvas.shapeList ≠ [] → files.isOpenJsonFile = false → files.InRange) := by
  unfold indexWriting
  cases w.canvas.shapeList with
  | nil => simp
  | cons shape rest => simp [bind_entries, indexSavedRoot_entries]

theorem getLabelFile_total {m : FileManager} (inRange : m.imageFiles ≠ [] → m.InRange) :
    ∃ labelled, m.getLabelFile p = .ok labelled ∧ m.SameImages labelled := by
  unfold FileManager.getLabelFile
  split
  · exact ⟨m, rfl, rfl, rfl, rfl, rfl, rfl⟩
  · rename_i some
    obtain ⟨low, high⟩ := inRange (by simpa using some)
    have bound : m.curIdx.toNat < m.imageFiles.length := by omega
    have read := QVector.at_natCast m.imageFiles m.curIdx.toNat bound
    rw [Int.toNat_of_nonneg low] at read
    rw [FileManager.imageFileNameAt, read]
    exact ⟨_, rfl, rfl, rfl, rfl, rfl, rfl⟩

theorem indexSaving_entries (w : Window) (chosen : String) :
    (∀ m ∈ (w.indexSaving p chosen).entries, m.InRange) ↔
      ((w.files.getSavePath chosen).savePath ≠ "" → (w.files.imageFiles ≠ [] → w.files.InRange) ∧
        (w.canvas.shapeList ≠ [] → w.files.isOpenJsonFile = false → w.files.InRange)) := by
  have same := FileManager.getSavePath_same w.files chosen
  have range : ∀ {m : FileManager}, w.files.SameImages m → (m.InRange ↔ w.files.InRange) := by
    intro m same
    rw [FileManager.InRange, FileManager.InRange, same.curIdx, same.imageFiles]
  unfold indexSaving
  by_cases path : (w.files.getSavePath chosen).savePath.isEmpty = true
  · simp [String.isEmpty_iff.mp path]
  · rw [if_neg path, bind_entries, FileManager.indexLabelFile_result, FileManager.indexLabelFile_entries,
      same.imageFiles]
    rw [String.isEmpty_iff] at path
    have first : (∀ m ∈ if w.files.imageFiles.isEmpty then [] else [w.files.getSavePath chosen], m.InRange) ↔
        (w.files.imageFiles ≠ [] → w.files.InRange) := by
      rw [← range same]
      cases w.files.imageFiles <;> simp
    rw [first]
    have second : ∀ labelled, w.files.SameImages labelled →
        ((∀ m ∈ (w.indexWriting p labelled).entries, m.InRange) ↔
          (w.canvas.shapeList ≠ [] → w.files.isOpenJsonFile = false → w.files.InRange)) := by
      intro labelled both
      rw [indexWriting_entries, range both, both.isOpenJsonFile]
    constructor
    · rintro ⟨inRange, rest⟩ _
      have total : (w.files.getSavePath chosen).imageFiles ≠ [] → (w.files.getSavePath chosen).InRange := by
        rw [same.imageFiles, range same]
        exact inRange
      obtain ⟨labelled, done, sameLabel⟩ := getLabelFile_total (p := p) total
      exact ⟨inRange, (second labelled (same.trans sameLabel)).mp (rest labelled done)⟩
    · intro both
      refine ⟨(both path).1, ?_⟩
      intro labelled done
      have sameLabel := (FileManager.getLabelFile_completes done).1
      exact (second labelled (same.trans sameLabel)).mpr (both path).2

theorem Indexed.saveFile_inRange (indexed : w.Indexed) (chosen : String) :
    w.IndexesInRange p (.saveFile chosen) ↔ w.HasFiles p (.saveFile chosen) := by
  rw [IndexesInRange, indexHandle, indexSaveFile_entries, indexSaving_entries, HasFiles]
  have nonempty : w.files.InRange → w.files.imageFiles ≠ [] := by
    rintro ⟨low, high⟩ empty
    rw [empty] at high
    exact absurd high (not_lt.mpr low)
  constructor
  · intro safe path shapes json
    exact nonempty ((safe path).2 shapes json)
  · intro has path
    exact ⟨indexed.inRange, fun shapes json => indexed.inRange (has path shapes json)⟩

theorem Indexed.clickRow_eq (indexed : w.Indexed) {row : ℕ} {reply : Option String} :
    w.indexClickRow p row reply = if row < w.rows.length then w.indexShowFile p row else pure w := by
  unfold indexClickRow
  simp only [indexed.saved]

theorem Indexed.row_inRange (indexed : w.Indexed) {row : ℕ} (listed : row < w.rows.length) :
    (w.files.selectFile row).InRange := by
  rw [FileManager.InRange, FileManager.selectFile_curIdx, FileManager.selectFile_imageFiles]
  rcases indexed.rows with none | same
  · rw [none] at listed
    cases listed
  · rw [← same]
    exact ⟨Int.natCast_nonneg row, Int.ofNat_lt.mpr listed⟩

theorem openDir_inRange (w : Window) (path : String) :
    w.IndexesInRange p (.openDir path) ↔ w.HasFiles p (.openDir path) := by
  have perm : (QStringList.sort (p.entryList (path ++ "/"))).Perm (p.entryList (path ++ "/")) :=
    List.perm_insertionSort _ _
  rw [IndexesInRange, indexHandle, indexOpenDir, indexShowFile_entries, FileManager.InRange,
    FileManager.selectFile_curIdx, FileManager.selectFile_imageFiles, HasFiles]
  change 0 ≤ (0 : ℤ) ∧ (0 : ℤ) < (QStringList.sort (p.entryList (path ++ "/"))).length ↔ _
  rw [perm.length_eq, Int.natCast_pos, List.length_pos_iff]
  exact and_iff_right (Int.le_refl 0)

theorem Indexed.inRange_iff (indexed : w.Indexed) (event : WindowEvent) :
    w.IndexesInRange p event ↔ w.HasFiles p event := by
  cases event with
  | openFile file colors =>
    refine iff_of_true ?_ trivial
    rw [IndexesInRange, indexHandle, indexOpenFile]
    split
    · simp
    · rw [indexShowFile_entries, FileManager.InRange, FileManager.selectFile_curIdx, FileManager.selectFile_imageFiles]
      exact ⟨Int.le_refl 0, Int.zero_lt_one⟩
  | openDir path => exact openDir_inRange w path
  | clickRow row reply =>
    refine iff_of_true ?_ trivial
    rw [IndexesInRange, indexHandle, indexed.clickRow_eq]
    split
    · rename_i listed
      rw [indexShowFile_entries]
      exact indexed.row_inRange listed
    · simp
  | canvas event =>
    refine iff_of_true ?_ trivial
    simp [IndexesInRange, indexHandle]
  | saveFile chosen => exact indexed.saveFile_inRange chosen

theorem selectFile_changeNotSaved (m : FileManager) (idx : ℤ) : (m.selectFile idx).changeNotSaved = m.changeNotSaved := by
  unfold FileManager.selectFile
  split <;> rfl

theorem indexed_of_showFile {idx : ℤ} (rows : w.rows = w.files.imageFiles) (saved : w.files.changeNotSaved = false)
    (shown : w.showFile p idx = .ok next) : next.Indexed := by
  obtain ⟨path, img, current, _, rfl⟩ := showFile_completes shown
  refine ⟨.inr ?_, ?_, ?_⟩
  · change w.rows = (w.files.selectFile idx).imageFiles
    rw [FileManager.selectFile_imageFiles, rows]
  · intro _
    obtain ⟨file, read, _⟩ := bind_completes current
    obtain ⟨low, found⟩ := QVector.at_completes read
    have bound := (List.getElem?_eq_some_iff.mp found).1
    exact ⟨low, (Int.toNat_lt low).mp bound⟩
  · change (w.files.selectFile idx).changeNotSaved = false
    rw [selectFile_changeNotSaved, saved]

theorem saving_changeNotSaved {chosen : String} {files : FileManager} {written : Option (String × RootS)}
    (saved : w.saving p chosen = .ok (files, written)) : files.changeNotSaved = w.files.changeNotSaved := by
  have path : (w.files.getSavePath chosen).changeNotSaved = w.files.changeNotSaved := by
    unfold FileManager.getSavePath
    split <;> rfl
  unfold saving at saved
  simp only at saved
  split at saved
  · cases saved
    exact path
  · obtain ⟨labelled, found, saved⟩ := bind_completes saved
    have label : labelled.changeNotSaved = (w.files.getSavePath chosen).changeNotSaved := by
      unfold FileManager.getLabelFile at found
      split at found
      · cases found
        rfl
      · obtain ⟨_, _, found⟩ := bind_completes found
        cases found
        rfl
    split at saved
    · cases saved
      exact label.trans path
    · obtain ⟨_, _, saved⟩ := bind_completes saved
      cases saved
      exact label.trans path

theorem Indexed.saveFile (indexed : w.Indexed) {chosen : String} (saved : w.saveFile p chosen = .ok next) :
    next.Indexed := by
  obtain ⟨_, rows, same⟩ := saveFile_completes saved
  obtain ⟨⟨files, written⟩, built, rest⟩ := bind_completes saved
  have unchanged := saving_changeNotSaved built
  have files : next.files.changeNotSaved = w.files.changeNotSaved := by
    cases written <;> cases rest <;> exact unchanged
  refine ⟨?_, ?_, files.trans indexed.saved⟩
  · rw [rows, same.imageFiles]
    exact indexed.rows
  · rw [same.imageFiles, FileManager.InRange, same.curIdx, same.imageFiles]
    exact indexed.inRange

theorem Indexed.openJson (indexed : w.Indexed) {file : String} {colors : ℕ → QColor}
    (opened : w.clean.openJson p file colors = .ok next) : next.Indexed := by
  obtain ⟨rows, files | ⟨root, _, files⟩⟩ := openJson_files opened
  · refine ⟨.inl rows, ?_, ?_⟩
    · rw [files]
      exact indexed.inRange
    · rw [files]
      exact indexed.saved
  · refine ⟨.inl rows, ?_, ?_⟩
    · rw [files]
      exact fun listed => absurd rfl listed
    · rw [files]
      exact indexed.saved

theorem Indexed.handle {event : WindowEvent} (indexed : w.Indexed) (handled : w.handle p event = .ok next) :
    next.Indexed := by
  cases event with
  | openFile file colors =>
    simp only [Window.handle, openFile] at handled
    split at handled
    · exact indexed.openJson handled
    · exact indexed_of_showFile (w := { w.clean with files := _, rows := _ }) rfl rfl handled
  | openDir path => exact indexed_of_showFile (w := { w.clean with files := _, rows := _ }) rfl rfl handled
  | clickRow row reply =>
    have shown := indexHandle_result p w (.clickRow row reply)
    rw [handled, indexHandle, indexed.clickRow_eq] at shown
    split at shown
    · rename_i listed
      rw [indexShowFile_result] at shown
      rcases indexed.rows with none | same
      · rw [none] at listed
        cases listed
      · exact indexed_of_showFile same indexed.saved shown
    · cases shown
      exact indexed
  | canvas event =>
    obtain ⟨canvas, _, rest⟩ := bind_completes handled
    cases rest
    exact ⟨indexed.rows, indexed.inRange, indexed.saved⟩
  | saveFile chosen => exact indexed.saveFile handled

/-- Every evaluation of `imageFiles[curIdx]` in a run of the window is in range exactly when every directory that is
    opened lists an image and every save that writes finds a file list or an opened document. -/
theorem file_index_inRange_iff (p : Platform) (curIdx : ℤ) (disk : Disk) (events : List WindowEvent) :
    Throughout (handle p) (fun w event => w.IndexesInRange p event) (fresh curIdx disk) events ↔
      Throughout (handle p) (fun w event => w.HasFiles p event) (fresh curIdx disk) events := by
  have start : (fresh curIdx disk).Indexed := ⟨.inl rfl, fun some => absurd rfl some, rfl⟩
  exact throughout_iff Indexed (fun _ event indexed => indexed.inRange_iff event)
    (fun _ _ _ indexed handled => indexed.handle handled) start

/-- The first image of an empty directory is asked for. -/
theorem empty_directory_indexed :
    desk.entryList "/empty/" = [] ∧
    (∃ m ∈ ((fresh 0 fun _ => none).indexHandle desk (.openDir "/empty")).entries, ¬ m.InRange) ∧
    ¬ Throughout (handle desk) (fun w event => w.IndexesInRange desk event) (fresh 0 fun _ => none)
      [.openDir "/empty"] := by
  have listing : desk.entryList "/empty/" = [] := by decide +kernel
  have outside : ¬ (fresh 0 fun _ => none).IndexesInRange desk (.openDir "/empty") := by
    rw [openDir_inRange]
    exact fun some => some listing
  refine ⟨listing, ?_, fun all => outside all.1⟩
  unfold IndexesInRange at outside
  push Not at outside
  exact outside

end Window

end XYAnnotation

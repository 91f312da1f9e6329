import XYAnnotation.Files.Session

namespace XYAnnotation

open Library

inductive FileCall
  | setSingleImage (file : String)
  | setMultiImage (path : String)
  | openFile (disk : Disk) (root : RootS) (file : String)
  | prevFile
  | nextFile
  | selectFile (idx : ℤ)
  | close

namespace FileManager

def call (p : Platform) (m : FileManager) : FileCall → Except Fault FileManager
  | .setSingleImage file => .ok (m.setSingleImage p file)
  | .setMultiImage path => .ok (m.setMultiImage p path)
  | .openFile disk root file => do
    let (files, _) ← m.openFile p disk root file
    .ok files
  | .prevFile => .ok m.prevFile
  | .nextFile => .ok m.nextFile
  | .selectFile idx => .ok (m.selectFile idx)
  | .close => .ok m.close

/-- A call that neither sets the images up nor gives them up, and selects an index of the list. -/
def Undisturbed (p : Platform) (m : FileManager) : FileCall → Prop
  | .setSingleImage _ | .setMultiImage _ | .close => False
  | .openFile disk root file => ∀ result, readJson (disk (p.location file)) root ≠ .ok (true, result)
  | .prevFile | .nextFile => True
  | .selectFile idx => 0 ≤ idx ∧ idx < m.imageFiles.length

def NamesImage (p : Platform) (m : FileManager) : FileCall → Prop
  | .setSingleImage file => m.getCurrentImageFile = .ok file
  | .setMultiImage path => p.entryList (path ++ "/") ≠ [] →
      ∃ file, QVector.at (QStringList.sort (p.entryList (path ++ "/"))) m.curIdx = .ok file ∧
        m.getCurrentImageFile = .ok (path ++ "/" ++ file)
  | _ => True

/-- A single image is opened before any directory is. -/
def OpensFirst (earlier : List FileCall) : FileCall → Prop
  | .setSingleImage _ => ∀ path, .setMultiImage path ∉ earlier
  | _ => True

variable {p : Platform} {m d : FileManager} {files : List String}

structure Selects (files : List String) (path : String) (m : FileManager) : Prop where
  imageFiles : m.imageFiles = files
  path : m.path = path
  inside : files ≠ [] → 0 ≤ m.curIdx ∧ m.curIdx < files.length

theorem Selects.selectFile {path : String} (selects : Selects files path m) {idx : ℤ}
    (inside : files ≠ [] → 0 ≤ idx ∧ idx < files.length) : Selects files path (m.selectFile idx) where
  imageFiles := by rw [selectFile_imageFiles, selects.imageFiles]
  path := by rw [selectFile_path, selects.path]
  inside := by
    rw [selectFile_curIdx]
    exact inside

theorem Selects.prevFile {path : String} (selects : Selects files path m) : Selects files path m.prevFile := by
  unfold FileManager.prevFile
  split
  · rename_i positive
    apply selects.selectFile
    intro listed
    have inside := selects.inside listed
    omega
  · exact selects

theorem Selects.nextFile {path : String} (selects : Selects files path m) : Selects files path m.nextFile := by
  unfold FileManager.nextFile
  rw [selects.imageFiles]
  split
  · rename_i below
    apply selects.selectFile
    intro listed
    have inside := selects.inside listed
    omega
  · exact selects

theorem openFile_unread {disk : Disk} {root : RootS} {file : String}
    (unread : ∀ result, readJson (disk (p.location file)) root ≠ .ok (true, result))
    (called : m.call p (.openFile disk root file) = .ok d) : d = m := by
  obtain ⟨⟨files, result⟩, opened, rest⟩ := bind_completes called
  cases rest
  rcases Window.openedFiles_cases opened with ⟨_, same⟩ | ⟨read, _⟩
  · exact same
  · exact absurd read (unread result)

theorem Selects.call {path : String} {made : FileCall} (selects : Selects files path m)
    (undisturbed : m.Undisturbed p made) (called : m.call p made = .ok d) : Selects files path d := by
  cases made with
  | setSingleImage file => exact undisturbed.elim
  | setMultiImage path => exact undisturbed.elim
  | close => exact undisturbed.elim
  | openFile disk root file =>
    rw [openFile_unread undisturbed called]
    exact selects
  | prevFile =>
    cases called
    exact selects.prevFile
  | nextFile =>
    cases called
    exact selects.nextFile
  | selectFile idx =>
    cases called
    apply selects.selectFile
    intro _
    rw [← selects.imageFiles]
    exact undisturbed

theorem Selects.run {path : String} {calls : List FileCall} (selects : Selects files path m)
    (undisturbed : Along (FileManager.call p) (Undisturbed p) m calls)
    (ran : run (FileManager.call p) m calls = .ok d) : Selects files path d := by
  have kept : ∀ m made d, Selects files path m → Undisturbed p m made → m.call p made = .ok d → Selects files path d :=
    fun _ _ _ selects undisturbed called => selects.call undisturbed called
  exact visited_invariant kept selects undisturbed d (run_mem_visited ran)

theorem Selects.getCurrentImageFile {path : String} (selects : Selects files path m) (some : files ≠ []) :
    ∃ file, QVector.at files m.curIdx = .ok file ∧ m.getCurrentImageFile = .ok (path ++ file) := by
  obtain ⟨low, high⟩ := selects.inside some
  have bound : m.curIdx.toNat < files.length := by omega
  have read : QVector.at files m.curIdx = .ok files[m.curIdx.toNat] := by
    have here := QVector.at_natCast files m.curIdx.toNat bound
    rwa [Int.toNat_of_nonneg low] at here
  refine ⟨_, read, ?_⟩
  rw [FileManager.getCurrentImageFile, imageFileNameAt, selects.imageFiles, selects.path, read]
  rfl

theorem call_path {made : FileCall} (called : m.call p made = .ok d) :
    d.path = "" ↔ m.path = "" ∧ ∀ path, made ≠ .setMultiImage path := by
  cases made with
  | setSingleImage file =>
    cases called
    simp [setSingleImage, emitPrevNextEnable]
  | setMultiImage path =>
    cases called
    simp [setMultiImage, emitPrevNextEnable]
  | openFile disk root file =>
    obtain ⟨⟨files, result⟩, opened, rest⟩ := bind_completes called
    cases rest
    rcases Window.openedFiles_cases opened with ⟨_, rfl⟩ | ⟨_, rfl⟩
    · simp
    · simp [Window.openedFiles]
  | prevFile =>
    cases called
    unfold prevFile
    split <;> simp
  | nextFile =>
    cases called
    unfold nextFile
    split <;> simp
  | selectFile idx =>
    cases called
    simp
  | close =>
    cases called
    simp [close]

theorem run_path {calls : List FileCall} (ran : run (FileManager.call p) m calls = .ok d) :
    d.path = "" ↔ m.path = "" ∧ ∀ path, .setMultiImage path ∉ calls := by
  induction calls generalizing m with
  | nil =>
    cases ran
    simp
  | cons made calls ih =>
    obtain ⟨next, called, rest⟩ := run_cons_ok ran
    rw [ih rest, call_path called]
    simp only [List.mem_cons, not_or]
    constructor
    · rintro ⟨⟨path, other⟩, later⟩
      exact ⟨path, fun path => ⟨fun same => other path same.symm, later path⟩⟩
    · rintro ⟨path, all⟩
      exact ⟨⟨path, fun path same => (all path).1 same.symm⟩, fun path => (all path).2⟩

/-- The current image is the right one as long as nothing disturbs the list, except for a single image that is
    opened after a directory: it gets the path of the directory before its own. -/
theorem current_image_iff (p : Platform) (curIdx : ℤ) (earlier later : List FileCall) (opening : FileCall)
    (before m d : FileManager) (began : run (FileManager.call p) (fresh curIdx) earlier = .ok before)
    (opened : before.call p opening = .ok m) (undisturbed : Along (FileManager.call p) (Undisturbed p) m later)
    (ran : run (FileManager.call p) m later = .ok d) :
    d.NamesImage p opening ↔ OpensFirst earlier opening := by
  cases opening with
  | setSingleImage file =>
    cases opened
    have selects : Selects [file] before.path (before.setSingleImage p file) :=
      ⟨rfl, rfl, fun _ => ⟨Int.le_refl 0, Int.zero_lt_one⟩⟩
    have still := selects.run undisturbed ran
    obtain ⟨low, high⟩ := still.inside (List.cons_ne_nil file [])
    have zero : d.curIdx = 0 := by
      simp only [List.length_singleton] at high
      omega
    obtain ⟨name, read, current⟩ := still.getCurrentImageFile (List.cons_ne_nil file [])
    rw [zero] at read
    cases read
    have path : before.path = "" ↔ ∀ path, .setMultiImage path ∉ earlier := by
      rw [run_path began]
      exact and_iff_right rfl
    rw [NamesImage, OpensFirst, ← path, current]
    simp
  | setMultiImage path =>
    cases opened
    refine iff_of_true ?_ trivial
    have selects : Selects (QStringList.sort (p.entryList (path ++ "/"))) (path ++ "/") (before.setMultiImage p path) := by
      refine ⟨rfl, rfl, fun some => ⟨Int.le_refl 0, ?_⟩⟩
      exact Int.natCast_pos.mpr (List.length_pos_of_ne_nil some)
    intro some
    have listed : QStringList.sort (p.entryList (path ++ "/")) ≠ [] := by
      intro empty
      have perm : (QStringList.sort (p.entryList (path ++ "/"))).Perm (p.entryList (path ++ "/")) :=
        List.perm_insertionSort _ _
      rw [empty] at perm
      exact some perm.nil_eq.symm
    exact (selects.run undisturbed ran).getCurrentImageFile listed
  | _ => exact iff_of_true trivial trivial

theorem single_image_named :
    ∃ d, run (FileManager.call desk) (fresh 7) [.setSingleImage "/pics/a.png", .nextFile, .selectFile 0] = .ok d ∧
      d.NamesImage desk (.setSingleImage "/pics/a.png") := by
  refine ⟨_, rfl, ?_⟩
  apply (current_image_iff desk 7 [] [.nextFile, .selectFile 0] (.setSingleImage "/pics/a.png") (fresh 7)
    ((fresh 7).setSingleImage desk "/pics/a.png") _ rfl rfl ⟨trivial, ⟨by decide, by decide⟩, trivial⟩ rfl).mpr
  intro path
  exact List.not_mem_nil

/-- The image is looked for at `/pics//home/b.png`. -/
theorem single_image_under_directory :
    ∃ d, run (FileManager.call desk) (fresh 0) [.setMultiImage "/pics", .setSingleImage "/home/b.png"] = .ok d ∧
      d.getCurrentImageFile = .ok "/pics//home/b.png" ∧ ¬ d.NamesImage desk (.setSingleImage "/home/b.png") := by
  refine ⟨_, rfl, rfl, ?_⟩
  intro named
  have other : (Except.ok "/pics//home/b.png" : Except Fault String) = .ok "/home/b.png" := named
  exact absurd (Except.ok.inj other) (by decide)

end FileManager

end XYAnnotation

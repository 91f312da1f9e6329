import XYAnnotation.Files.Session

namespace XYAnnotation

open Library

def stem (file : String) : String := String.ofList (file.toList.takeWhile (· ≠ '.'))

namespace FileManager

variable {p : Platform} {m : FileManager}

theorem getLabelFile_selected {i : ℕ} {file : String} (listed : m.imageFiles[i]? = some file) :
    ∃ files, (m.selectFile i).getLabelFile p = .ok files ∧ files.labelFile = p.baseName file ++ labelSuffix := by
  have bound : i < m.imageFiles.length := (List.getElem?_eq_some_iff.mp listed).1
  have value : m.imageFiles[i] = file := (List.getElem?_eq_some_iff.mp listed).2
  have named : (m.selectFile i).imageFileNameAt (m.selectFile i).curIdx = .ok file := by
    rw [imageFileNameAt, selectFile_imageFiles, selectFile_curIdx, QVector.at_natCast _ _ bound, value]
  have some : (m.selectFile i).imageFiles.isEmpty = false := by
    rw [selectFile_imageFiles, ← Bool.not_eq_true, List.isEmpty_iff]
    exact List.ne_nil_of_length_pos (Nat.zero_lt_of_lt bound)
  unfold getLabelFile
  rw [some, named]
  exact ⟨_, rfl, rfl⟩

/-- Two images of a directory have different label files exactly when their names differ before the
    first dot. -/
theorem label_files_differ_iff (p : Platform)
    (documented : ∀ path, ∀ file ∈ p.entryList path, p.baseName file = stem file)
    (m : FileManager) (path : String) (i j : ℕ) (first second : String)
    (atFirst : (m.setMultiImage p path).imageFiles[i]? = some first)
    (atSecond : (m.setMultiImage p path).imageFiles[j]? = some second) :
    ∃ files other, ((m.setMultiImage p path).selectFile i).getLabelFile p = .ok files ∧
      ((m.setMultiImage p path).selectFile j).getLabelFile p = .ok other ∧
      (files.labelFile ≠ other.labelFile ↔ stem first ≠ stem second) := by
  have baseName : ∀ {k : ℕ} {file : String}, (m.setMultiImage p path).imageFiles[k]? = some file →
      p.baseName file = stem file := by
    intro k file listed
    have member : file ∈ QStringList.sort (p.entryList (path ++ "/")) := List.mem_of_getElem? listed
    exact documented _ file ((List.perm_insertionSort _ _).mem_iff.mp member)
  obtain ⟨files, selected, label⟩ := getLabelFile_selected (p := p) atFirst
  obtain ⟨other, selected', label'⟩ := getLabelFile_selected (p := p) atSecond
  refine ⟨files, other, selected, selected', ?_⟩
  rw [label, label', baseName atFirst, baseName atSecond, Ne, String.append_left_inj]

def suffixDesk : Platform :=
  { desk with
    entryList := fun _ => ["a.bmp", "a.png", "b.v2.png"]
    entryList_nodup := fun _ => by decide }

theorem suffixDesk_documented (path : String) (file : String) (listed : file ∈ suffixDesk.entryList path) :
    suffixDesk.baseName file = stem file := by
  have cases : file = "a.bmp" ∨ file = "a.png" ∨ file = "b.v2.png" := by simpa [suffixDesk] using listed
  rcases cases with rfl | rfl | rfl <;> decide +kernel

theorem suffixDesk_labels :
    ∃ files other, (((fresh 0).setMultiImage suffixDesk "/pics").selectFile 1).getLabelFile suffixDesk = .ok files ∧
      (((fresh 0).setMultiImage suffixDesk "/pics").selectFile 2).getLabelFile suffixDesk = .ok other ∧
      (files.labelFile ≠ other.labelFile ↔ stem "a.png" ≠ stem "b.v2.png") :=
  label_files_differ_iff suffixDesk suffixDesk_documented (fresh 0) "/pics" 1 2 "a.png" "b.v2.png"
    (by decide +kernel) (by decide +kernel)

/-- `a.bmp` and `a.png` share the label file `a_labels.json`. -/
theorem label_file_shared :
    ∃ files other, (((fresh 0).setMultiImage suffixDesk "/pics").selectFile 0).getLabelFile suffixDesk = .ok files ∧
      (((fresh 0).setMultiImage suffixDesk "/pics").selectFile 1).getLabelFile suffixDesk = .ok other ∧
      ((fresh 0).setMultiImage suffixDesk "/pics").imageFiles[0]? = some "a.bmp" ∧
      ((fresh 0).setMultiImage suffixDesk "/pics").imageFiles[1]? = some "a.png" ∧
      files.labelFile = "a_labels.json" ∧ files.labelFile = other.labelFile := by
  have observed : (do
      let files ← (((fresh 0).setMultiImage suffixDesk "/pics").selectFile 0).getLabelFile suffixDesk
      let other ← (((fresh 0).setMultiImage suffixDesk "/pics").selectFile 1).getLabelFile suffixDesk
      .ok (files.labelFile, other.labelFile) : Except Fault _) =
        .ok ("a_labels.json", "a_labels.json") := by decide +kernel
  obtain ⟨files, selected, observed⟩ := bind_completes observed
  obtain ⟨other, selected', observed⟩ := bind_completes observed
  obtain ⟨label, label'⟩ := Prod.mk.inj (Except.ok.inj observed)
  exact ⟨files, other, selected, selected', by decide +kernel, by decide +kernel, label, label.trans label'.symm⟩

end FileManager

end XYAnnotation

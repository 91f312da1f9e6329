import XYAnnotation.Files.CurrentImage

namespace XYAnnotation

open Library

/-- The calls of the file manager with `set3DImage`, which no action of the window makes. -/
inductive NavigationCall
  | file (made : FileCall)
  | set3DImage (fileNames : List String)

def NavigationCall.sets : NavigationCall → Bool
  | .file (.setSingleImage _) | .file (.setMultiImage _) | .set3DImage _ => true
  | _ => false

namespace FileManager

def set3DImage (m : FileManager) (fileNames : List String) : FileManager :=
  emitPrevNextEnable { m with
    imageFiles := QStringList.sort fileNames
    labelFile := ""
    changeNotSaved := false
    curIdx := 0 }

def navigate (p : Platform) (m : FileManager) : NavigationCall → Except Fault FileManager
  | .file made => m.call p made
  | .set3DImage fileNames => .ok (m.set3DImage fileNames)

/-- The last values of the two signals are right for the list and the index. -/
def TellsTruth (m : FileManager) : Prop :=
  m.prevEnable = some (decide (0 < m.curIdx ∧ m.imageFiles ≠ [])) ∧
    m.nextEnable = some (decide (m.curIdx < m.imageFiles.length - 1))

def SelectsListed (m : FileManager) : NavigationCall → Prop
  | .file (.selectFile idx) => 0 ≤ idx ∧ idx < m.imageFiles.length
  | _ => True

/-- A JSON file that can be read is opened while at most one image is listed. -/
def OpensBare (p : Platform) (m : FileManager) : NavigationCall → Prop
  | .file (.openFile disk root file) =>
    (∃ result, readJson (disk (p.location file)) root = .ok (true, result)) → m.imageFiles.length ≤ 1
  | _ => True

def Ranged (m : FileManager) : Prop :=
  0 ≤ m.curIdx ∧ (m.imageFiles = [] → m.curIdx = 0) ∧ (m.imageFiles ≠ [] → m.curIdx < m.imageFiles.length)

def Kept (isSet : Bool) (m : FileManager) : Prop :=
  if isSet then m.TellsTruth ∧ m.Ranged else m.imageFiles = []

variable {p : Platform} {m d : FileManager} {isSet : Bool}

theorem Ranged.zero_or_below (ranged : m.Ranged) : m.curIdx = 0 ∨ m.curIdx < m.imageFiles.length := by
  by_cases none : m.imageFiles = []
  · exact .inl (ranged.2.1 none)
  · exact .inr (ranged.2.2 none)

theorem emitPrevNextEnable_tells (ranged : m.Ranged) : m.emitPrevNextEnable.TellsTruth := by
  have both : (0 < m.curIdx ∧ m.imageFiles ≠ []) ↔ 0 < m.curIdx := by
    apply and_iff_left_of_imp
    intro positive none
    have zero := ranged.2.1 none
    omega
  exact ⟨congrArg some (decide_eq_decide.mpr both.symm), rfl⟩

theorem ranged_zero (zero : m.curIdx = 0) : m.Ranged := by
  refine ⟨by omega, fun _ => zero, ?_⟩
  intro listed
  have positive := List.length_pos_of_ne_nil listed
  omega

theorem kept_emitted (zero : m.curIdx = 0) : m.emitPrevNextEnable.Kept true :=
  ⟨emitPrevNextEnable_tells (ranged_zero zero), ranged_zero zero⟩

theorem Kept.selectFile (kept : m.Kept isSet) {idx : ℤ}
    (inside : isSet = true → 0 ≤ idx ∧ idx < m.imageFiles.length) : (m.selectFile idx).Kept isSet := by
  cases isSet with
  | false => exact (selectFile_imageFiles m idx).trans kept
  | true =>
    obtain ⟨low, high⟩ := inside rfl
    unfold FileManager.selectFile
    split
    · exact kept
    · have ranged : Ranged { m with curIdx := idx } := by
        refine ⟨low, ?_, fun _ => high⟩
        intro none
        rw [none] at high
        simp only [List.length_nil, Nat.cast_zero] at high
        omega
      exact ⟨emitPrevNextEnable_tells ranged, ranged⟩

theorem Kept.prevFile (kept : m.Kept isSet) : m.prevFile.Kept isSet := by
  unfold FileManager.prevFile
  split
  · rename_i positive
    apply kept.selectFile
    rintro rfl
    have place := kept.2.zero_or_below
    omega
  · exact kept

theorem Kept.nextFile (kept : m.Kept isSet) : m.nextFile.Kept isSet := by
  unfold FileManager.nextFile
  split
  · apply kept.selectFile
    rintro rfl
    obtain ⟨_, low, _⟩ := kept
    omega
  · exact kept

theorem Kept.close (kept : m.Kept isSet) : m.close.Kept isSet := by
  cases isSet with
  | false => rfl
  | true => exact ⟨⟨rfl, rfl⟩, ranged_zero rfl⟩

theorem cleared_tells_iff (tells : m.TellsTruth) (ranged : m.Ranged) (cleared : d.imageFiles = [])
    (index : d.curIdx = m.curIdx) (prev : d.prevEnable = m.prevEnable) (next : d.nextEnable = m.nextEnable) :
    d.TellsTruth ↔ m.imageFiles.length ≤ 1 := by
  obtain ⟨low, empty, below⟩ := ranged
  unfold TellsTruth
  rw [prev, next, tells.1, tells.2, cleared, index]
  simp only [Option.some.injEq, decide_eq_decide, ne_eq, not_true_eq_false, and_false, iff_false, List.length_nil,
    Nat.cast_zero]
  by_cases none : m.imageFiles = []
  · simp [none]
  · have bound := below none
    constructor
    · rintro ⟨first, last⟩
      have zero : ¬ 0 < m.curIdx := fun positive => first ⟨positive, none⟩
      omega
    · intro single
      exact ⟨fun both => by omega, by omega⟩

theorem openFile_cases {disk : Disk} {root : RootS} {file : String}
    (called : m.call p (.openFile disk root file) = .ok d) :
    (d = m ∧ ∀ result, readJson (disk (p.location file)) root ≠ .ok (true, result)) ∨
      (∃ result, readJson (disk (p.location file)) root = .ok (true, result)) ∧ d.imageFiles = [] ∧
        d.curIdx = m.curIdx ∧ d.prevEnable = m.prevEnable ∧ d.nextEnable = m.nextEnable := by
  obtain ⟨⟨files, result⟩, opened, rest⟩ := bind_completes called
  cases rest
  rcases Window.openedFiles_cases opened with ⟨read, rfl⟩ | ⟨read, rfl⟩
  · refine .inl ⟨rfl, ?_⟩
    intro result other
    rw [read] at other
    cases other
  · exact .inr ⟨⟨_, read⟩, rfl, rfl, rfl, rfl⟩

theorem Kept.openFile {disk : Disk} {root : RootS} {file : String} (kept : m.Kept isSet)
    (bare : m.OpensBare p (.file (.openFile disk root file))) (called : m.call p (.openFile disk root file) = .ok d) :
    d.Kept isSet := by
  rcases openFile_cases called with ⟨rfl, _⟩ | ⟨read, cleared, index, prev, next⟩
  · exact kept
  · cases isSet with
    | false => exact cleared
    | true =>
      obtain ⟨tells, ranged⟩ := kept
      have single := bare read
      refine ⟨(cleared_tells_iff tells ranged cleared index prev next).mpr single, ?_⟩
      apply ranged_zero
      have low := ranged.1
      have place := ranged.zero_or_below
      omega

theorem Kept.navigate (kept : m.Kept isSet) {made : NavigationCall} (listed : m.SelectsListed made)
    (bare : m.OpensBare p made) (called : m.navigate p made = .ok d) : d.Kept (isSet || made.sets) := by
  cases made with
  | set3DImage fileNames =>
    cases called
    rw [NavigationCall.sets, Bool.or_true]
    exact kept_emitted rfl
  | file made =>
    cases made with
    | setSingleImage file =>
      cases called
      rw [NavigationCall.sets, Bool.or_true]
      exact kept_emitted rfl
    | setMultiImage path =>
      cases called
      rw [NavigationCall.sets, Bool.or_true]
      exact kept_emitted rfl
    | openFile disk root file =>
      simp only [NavigationCall.sets, Bool.or_false]
      exact kept.openFile bare called
    | prevFile =>
      cases called
      simp only [NavigationCall.sets, Bool.or_false]
      exact kept.prevFile
    | nextFile =>
      cases called
      simp only [NavigationCall.sets, Bool.or_false]
      exact kept.nextFile
    | selectFile idx =>
      cases called
      simp only [NavigationCall.sets, Bool.or_false]
      exact kept.selectFile fun _ => listed
    | close =>
      cases called
      simp only [NavigationCall.sets, Bool.or_false]
      exact kept.close

theorem Kept.opensBare (kept : m.Kept isSet) {made : NavigationCall} (called : m.navigate p made = .ok d)
    (tells : isSet = true → d.TellsTruth) : m.OpensBare p made := by
  cases made with
  | set3DImage fileNames => trivial
  | file made =>
    cases made with
    | openFile disk root file =>
      rintro ⟨result, read⟩
      rcases openFile_cases called with ⟨_, unread⟩ | ⟨_, cleared, index, prev, next⟩
      · exact absurd read (unread result)
      · cases isSet with
        | false =>
          have none : m.imageFiles = [] := kept
          rw [none]
          exact Nat.zero_le 1
        | true => exact (cleared_tells_iff kept.1 kept.2 cleared index prev next).mp (tells rfl)
    | _ => trivial

/-- After every sequence of calls with a set operation in it the last signals are right, exactly when no JSON file is
    opened while two or more images are listed. -/
theorem navigation_signals_iff (p : Platform) (curIdx : ℤ) (calls : List NavigationCall)
    (listed : Along (navigate p) SelectsListed (fresh curIdx) calls) :
    (∀ before later d, calls = before ++ later → before.any NavigationCall.sets = true →
      run (navigate p) (fresh curIdx) before = .ok d → d.TellsTruth) ↔
      Along (navigate p) (OpensBare p) (fresh curIdx) calls := by
  have initial : (fresh curIdx).Kept false := rfl
  have tells (m : FileManager) (kept : m.Kept true) : m.TellsTruth := kept.1
  exact opened_prefixes_iff Kept tells
    (fun _ _ _ _ kept listed bare called => kept.navigate listed bare called)
    (fun _ _ _ _ kept called tells => kept.opensBare called tells) initial listed

theorem listed_images_shown :
    ∃ d, run (navigate desk) (fresh 7) [.file .prevFile, .set3DImage ["b.png", "a.png"], .file (.selectFile 1),
        .file (.openFile (fun _ => none) .empty "/pics/a.json")] = .ok d ∧ d.TellsTruth := by
  have listed : Along (navigate desk) SelectsListed (fresh 7) [.file .prevFile, .set3DImage ["b.png", "a.png"],
      .file (.selectFile 1), .file (.openFile (fun _ => none) .empty "/pics/a.json")] :=
    ⟨trivial, trivial, ⟨by decide +kernel, by decide +kernel⟩, trivial, trivial⟩
  refine ⟨_, rfl, (navigation_signals_iff desk 7 _ listed).mpr ?_ _ [] _ (List.append_nil _).symm rfl rfl⟩
  refine ⟨trivial, trivial, trivial, ?_, trivial⟩
  rintro ⟨_, read⟩
  cases read

/-- The second image can be asked for while there is none. -/
theorem opened_json_not_told :
    ∃ d, run (navigate desk) (fresh 0)
        [.set3DImage ["b.png", "a.png"], .file (.openFile deskDisk .empty "/pics/a.json")] = .ok d ∧
      d.imageFiles = [] ∧ d.curIdx = 0 ∧ d.nextEnable = some true ∧ ¬ d.TellsTruth := by
  have observed : (run (navigate desk) (fresh 0)
      [.set3DImage ["b.png", "a.png"], .file (.openFile deskDisk .empty "/pics/a.json")]).map
      (fun d => (d.imageFiles, d.curIdx, d.nextEnable)) = .ok ([], 0, some true) := by decide +kernel
  obtain ⟨d, ran, observed⟩ := map_completes observed
  simp only [Prod.mk.injEq] at observed
  obtain ⟨files, index, next⟩ := observed
  refine ⟨d, ran, files, index, next, ?_⟩
  rintro ⟨_, right⟩
  rw [files, index, next] at right
  exact absurd right (by decide)

end FileManager

end XYAnnotation

import XYAnnotation.Files.ByteFiles
import XYAnnotation.Files.Session
import XYAnnotation.Files.PointUndo

namespace XYAnnotation

open Library StdString

section Writing

namespace Window

variable (p : Platform) (w : Window)

def writing : WindowEvent → Except Fault (Option (String × RootS))
  | .saveFile chosen => (w.saving p chosen).map Prod.snd
  | .clickRow row (some chosen) =>
    if row < w.rows.length ∧ w.files.changeNotSaved = true then (w.saving p chosen).map Prod.snd else .ok none
  | .clickRow _ none | .openFile _ _ | .openDir _ | .canvas _ => .ok none

def stored (disk : Disk) : Option (String × RootS) → Disk
  | some (filename, root) => store p disk filename root
  | none => disk

variable {p w} {d : Window}

theorem saveFile_disk {chosen : String} (saved : w.saveFile p chosen = .ok d) :
    ∃ written, (w.saving p chosen).map Prod.snd = .ok written ∧ d.disk = stored p w.disk written := by
  obtain ⟨⟨files, written⟩, built, rest⟩ := bind_completes saved
  refine ⟨written, by rw [built]; rfl, ?_⟩
  cases written with
  | none =>
    cases rest
    rfl
  | some written =>
    cases rest
    rfl

theorem showFile_disk {idx : ℤ} (shown : w.showFile p idx = .ok d) : d.disk = w.disk := by
  obtain ⟨path, img, _, _, rfl⟩ := showFile_completes shown
  rfl

theorem openFile_disk {file : String} {colors : ℕ → QColor} (opened : w.openFile p file colors = .ok d) :
    d.disk = w.disk := by
  unfold openFile at opened
  split at opened
  · obtain ⟨⟨files, root⟩, _, opened⟩ := bind_completes opened
    obtain ⟨loaded, image, opened⟩ := bind_completes opened
    obtain ⟨canvas, _, opened⟩ := bind_completes opened
    cases opened
    obtain ⟨base, _, image⟩ := bind_completes image
    cases image
    rfl
  · have kept := showFile_disk opened
    exact kept

theorem writing_none {row : ℕ} {reply : Option String}
    (plain : ∀ chosen, reply = some chosen → ¬ (row < w.rows.length ∧ w.files.changeNotSaved = true)) :
    w.writing p (.clickRow row reply) = .ok none := by
  cases reply with
  | none => rfl
  | some chosen => exact if_neg (plain chosen rfl)

theorem handle_disk {event : WindowEvent} (handled : w.handle p event = .ok d) :
    ∃ written, w.writing p event = .ok written ∧ d.disk = stored p w.disk written := by
  cases event with
  | openFile file colors => exact ⟨none, rfl, openFile_disk handled⟩
  | openDir path =>
    have kept := showFile_disk (w := { w.clean with files := _, rows := _ }) handled
    exact ⟨none, rfl, kept⟩
  | canvas event =>
    obtain ⟨canvas, _, rest⟩ := bind_completes handled
    cases rest
    exact ⟨none, rfl, rfl⟩
  | saveFile chosen => exact saveFile_disk handled
  | clickRow row reply =>
    change w.clickRow p row reply = .ok d at handled
    unfold clickRow at handled
    split at handled
    · rename_i inside
      split at handled
      · rename_i chosen notSaved
        obtain ⟨saved, done, shown⟩ := bind_completes handled
        obtain ⟨written, built, disk⟩ := saveFile_disk done
        exact ⟨written, (if_pos ⟨inside, notSaved⟩).trans built, (showFile_disk shown).trans disk⟩
      · rename_i plain
        refine ⟨none, writing_none fun chosen asked both => plain chosen both.2 asked, showFile_disk handled⟩
    · rename_i outside
      cases handled
      exact ⟨none, writing_none fun _ _ both => outside both.1, rfl⟩

end Window

end Writing

/-- The window over files of bytes, by location. -/
structure ByteWindow where
  canvas : Canvas2D
  files : FileManager
  rows : List String
  bytes : FileSystem

namespace ByteWindow

variable (dumpFloat : ℚ → StdString) (strtod : StdString → Option ℚ) (p : Platform)

/-- The window with the documents that its files hold. -/
def view (s : ByteWindow) : Window :=
  { canvas := s.canvas, files := s.files, rows := s.rows, disk := diskOf strtod s.bytes }

def fresh (curIdx : ℤ) (bytes : FileSystem) : ByteWindow :=
  { canvas := .fresh, files := .fresh curIdx, rows := [], bytes }

def stored (bytes : FileSystem) : Option (String × RootS) → FileSystem
  | some (filename, root) =>
    (JsonManager.writeJson dumpFloat bytes true (utf8 (p.location filename)) root.bytes).2
  | none => bytes

def handle (s : ByteWindow) (event : WindowEvent) : Except Fault ByteWindow := do
  let next ← (s.view strtod).handle p event
  let written ← (s.view strtod).writing p event
  .ok { canvas := next.canvas, files := next.files, rows := next.rows, bytes := stored dumpFloat p s.bytes written }

/-- What an event writes has numbers of the types that they have. -/
def Writes (w : Window) (event : WindowEvent) : Prop :=
  ∀ filename root, w.writing p event = .ok (some (filename, root)) → root.Storable dumpFloat strtod

instance (w : Window) (event : WindowEvent) : Decidable (Writes dumpFloat strtod p w event) :=
  match same : w.writing p event with
  | .ok (some (filename, root)) =>
    decidable_of_iff (root.Storable dumpFloat strtod) (by
      simp only [Writes, same, Except.ok.injEq, Option.some.injEq, Prod.mk.injEq]
      exact ⟨fun storable _ _ equal => equal.2 ▸ storable, fun writes => writes filename root ⟨rfl, rfl⟩⟩)
  | .ok none => isTrue (by simp [Writes, same])
  | .error _ => isTrue (by simp [Writes, same])

variable {dumpFloat strtod p}

theorem diskOf_stored (bytes : FileSystem) {written : Option (String × RootS)}
    (storable : ∀ filename root, written = some (filename, root) → root.Storable dumpFloat strtod) :
    diskOf strtod (stored dumpFloat p bytes written) = Window.stored p (diskOf strtod bytes) written := by
  cases written with
  | none => rfl
  | some written =>
    obtain ⟨filename, root⟩ := written
    exact diskOf_writeJson p bytes filename (storable filename root rfl)

theorem handle_view (s : ByteWindow) (event : WindowEvent)
    (writes : ∀ next, (s.view strtod).handle p event = .ok next → Writes dumpFloat strtod p (s.view strtod) event) :
    (s.handle dumpFloat strtod p event).map (view strtod) = (s.view strtod).handle p event := by
  unfold handle
  cases handled : (s.view strtod).handle p event with
  | error fault => rfl
  | ok next =>
    obtain ⟨written, built, disk⟩ := Window.handle_disk handled
    have storable : ∀ filename root, written = some (filename, root) → root.Storable dumpFloat strtod := by
      rintro filename root rfl
      exact writes next handled filename root built
    have same := diskOf_stored (p := p) s.bytes storable
    rw [built]
    change Except.ok _ = Except.ok _
    rw [Except.ok.injEq]
    change { next with disk := diskOf strtod (stored dumpFloat p s.bytes written) } = next
    rw [same]
    exact congrArg (fun disk => { next with disk }) disk.symm

/-- Whatever the files hold at the start, the window over bytes runs as the window over documents. -/
theorem run_view (dumpFloat : ℚ → StdString) (strtod : StdString → Option ℚ) (p : Platform) (curIdx : ℤ)
    (bytes : FileSystem) (events : List WindowEvent)
    (doubles : Along (Window.handle p) (Writes dumpFloat strtod p) (.fresh curIdx (diskOf strtod bytes)) events) :
    (run (handle dumpFloat strtod p) (fresh curIdx bytes) events).map (view strtod) =
      run (Window.handle p) (.fresh curIdx (diskOf strtod bytes)) events :=
  run_refines (view strtod) (fun s event => handle_view s event) doubles

def vertexReread : List WindowEvent :=
  [.openDir "/pics", .canvas (.mousePress ⟨-20, -20⟩ true none), .saveFile "/out",
    .openFile "/out/a_labels.json" fun _ => ⟨0, 0, 0⟩]

theorem vertex_reread_from_bytes :
    (run (handle wholeText wholeValue Window.easel) (fresh 0 fun _ => none) vertexReread).map (view wholeValue) =
      run (Window.handle Window.easel) (.fresh 0 (diskOf wholeValue fun _ => none)) vertexReread :=
  run_view wholeText wholeValue Window.easel 0 (fun _ => none) vertexReread (by decide +kernel)

end ByteWindow

end XYAnnotation

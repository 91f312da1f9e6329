import XYAnnotation.Canvas.Prepared
import XYAnnotation.Files.Window

namespace XYAnnotation

open Library

section OpenedShape

variable {img : QImage}

/-- A vertex after it was read and written: `mapFromImg` takes half of the size rounded down away,
    and `append` adds the exact half. -/
def reopenedPoint (img : QImage) (point : QPointF) : QPointF :=
  mapFromImg img point + ⟨img.width / 2, img.height / 2⟩

theorem foldl_appendPoint (points : List QPointF) (made : Shape)
    (offset : made.points.offset = ⟨img.width / 2, img.height / 2⟩) :
    let result := points.foldl (fun made point => made.appendPoint (mapFromImg img point)) made
    result.points.imgPoints = made.points.imgPoints ++ points.map (reopenedPoint img) ∧
      result.type = made.type ∧ result.label = made.label := by
  induction points generalizing made with
  | nil => simp
  | cons point points ih =>
    obtain ⟨imgPoints, type, label⟩ := ih (made.appendPoint (mapFromImg img point)) offset
    refine ⟨?_, type, label⟩
    have first : (made.appendPoint (mapFromImg img point)).points.imgPoints =
        made.points.imgPoints ++ [reopenedPoint img point] := by
      rw [reopenedPoint, ← offset]
      rfl
    rw [List.foldl_cons, imgPoints, first, List.map_cons, List.append_assoc, List.singleton_append]

theorem openedShape_spec (img : QImage) (mode : DrawMode) (shape : ShapeS) :
    (openedShape img (Shape.new mode) shape).points.imgPoints = shape.points.map (reopenedPoint img) ∧
      (openedShape img (Shape.new mode) shape).type = mode ∧
      (openedShape img (Shape.new mode) shape).label = .default :=
  foldl_appendPoint shape.points ((Shape.new mode).setimgWH img) rfl

end OpenedShape

namespace CanvasBase

def shapes (c : CanvasBase) : List Shape := c.shapeList.map c.heap

def withOpened (c : CanvasBase) (made : Shape) (label : LabelProperty) : CanvasBase :=
  ((c.allocate made).appended c.next).modifyShape c.next (·.setLabel label)

theorem withOpened_shapes {c : CanvasBase} (listed : c.Listed) (made : Shape) (label : LabelProperty) :
    ∃ name, (c.withOpened made label).shapes = c.shapes ++ [(made.setName name).setLabel label] := by
  have old : ∀ shape ∈ c.shapeList, (c.withOpened made label).heap shape = c.heap shape := by
    intro shape member
    have different : shape ≠ c.next := Nat.ne_of_lt (listed shape member)
    simp [withOpened, modifyShape, appended, allocate, different]
  refine ⟨(c.allocate made).uniqueName (Shape.typeToString made.type), ?_⟩
  change (c.shapeList ++ [c.next]).map (c.withOpened made label).heap = _
  rw [List.map_append, List.map_congr_left old]
  simp [shapes, withOpened, modifyShape, appended, allocate]

end CanvasBase

namespace Canvas2D

variable {c : Canvas2D} {img : QImage}

theorem create_of_selected {mode : DrawMode} (selected : mode ≠ .none) :
    ShapeFactory.create mode = some (Shape.new mode) := by
  cases mode <;> first | rfl | contradiction

theorem addOpened_eq (selected : c.draw ≠ .none) (image : c.image = some img) (shape : ShapeS) (color : QColor) :
    c.addOpened shape color = .ok { c with
      toCanvasBase := c.toCanvasBase.withOpened (openedShape img (Shape.new c.draw) shape)
        (.make (openedLabel shape.label) color true 0) } := by
  unfold addOpened
  rw [create_of_selected selected]
  simp only [CanvasBase.getImage, image]
  change ((CanvasBase.addShape _ _) >>= _) = _
  rw [CanvasBase.addShape_eq]
  rfl

def withImage (c : Canvas2D) (img : QImage) : Canvas2D := { c with image := some img }

/-- What the loop in `openFile` leaves: the new shapes follow those that were there. `f` is anything
    that does not depend on the name and the colour. -/
structure Opened (img : QImage) (c d : Canvas2D) (shapes : List ShapeS) : Prop where
  image : d.image = some img
  draw : d.draw = c.draw
  listed : d.Listed
  shapes : ∀ {α : Type} (f : Shape → α) (g : ShapeS → α),
    (∀ shape name color, f (((openedShape img (Shape.new c.draw) shape).setName name).setLabel
      (.make (openedLabel shape.label) color true 0)) = g shape) →
    d.shapes.map f = c.shapes.map f ++ shapes.map g

theorem addAllOpened_completes (selected : c.draw ≠ .none) (image : c.image = some img) (listed : c.Listed)
    (colors : ℕ → QColor) (shapes : List ShapeS) :
    ∃ d, c.addAllOpened colors shapes = .ok d ∧ Opened img c d shapes := by
  induction shapes generalizing c colors with
  | nil => exact ⟨c, rfl, image, rfl, listed, fun f g _ => by simp⟩
  | cons shape shapes ih =>
    have first := addOpened_eq selected image shape (colors 0)
    set base := c.toCanvasBase.withOpened (openedShape img (Shape.new c.draw) shape)
      (.make (openedLabel shape.label) (colors 0) true 0) with opened
    have baseListed : base.Listed := by
      intro address member
      rcases List.mem_append.mp member with member | member
      · exact Nat.lt_succ_of_lt (listed address member)
      · rw [List.mem_singleton.mp member]
        exact Nat.lt_succ_self c.next
    obtain ⟨d, rest, result⟩ := @ih { c with toCanvasBase := base } selected image baseListed
      (fun i => colors (i + 1))
    refine ⟨d, ?_, result.image, result.draw, result.listed, ?_⟩
    · rw [addAllOpened, first]
      exact rest
    · intro α f g agrees
      obtain ⟨name, added⟩ := CanvasBase.withOpened_shapes listed (openedShape img (Shape.new c.draw) shape)
        (.make (openedLabel shape.label) (colors 0) true 0)
      rw [result.shapes f g agrees]
      change base.shapes.map f ++ _ = _
      rw [opened, added, List.map_append, List.map_singleton, agrees, List.append_assoc, List.singleton_append,
        List.map_cons]

end Canvas2D

/-- What a shape of the file becomes when the file is opened in the given draw mode and saved. -/
def resaved (img : QImage) (mode : DrawMode) (shape : ShapeS) : ShapeS :=
  { label := openedLabel shape.label
    points := shape.points.map (reopenedPoint img)
    groupId := 0
    description := "description"
    shapeType := Shape.drawModeToStr mode
    flags := ""
    mask := 0 }

theorem savedShape_opened (img : QImage) (mode : DrawMode) (shape : ShapeS) (name : String) (color : QColor) :
    savedShape (((openedShape img (Shape.new mode) shape).setName name).setLabel
      (.make (openedLabel shape.label) color true 0)) = resaved img mode shape := by
  obtain ⟨points, type, label⟩ := openedShape_spec img mode shape
  simp only [savedShape, Shape.setLabel, Shape.setName, points, type, label]
  rfl

theorem resaved_reread (img : QImage) (mode : DrawMode) (shape : ShapeS) :
    (resaved img mode shape).reread = resaved img mode shape := rfl

namespace Window

variable {p : Platform} {w : Window} {file : String} {root : RootS} {img : QImage}

/-- The file can be opened: it is taken for a JSON file, it can be read and its image can be decoded. -/
structure Holds (p : Platform) (disk : Disk) (file : String) (root : RootS) (img : QImage) : Prop where
  json : IsJson file
  read : readJson (disk (p.location file)) .empty = .ok (true, root)
  image : p.base64ToImg root.imageData = some img

def openedFiles (p : Platform) (files : FileManager) (file : String) (root : RootS) : FileManager :=
  { files with
    root
    isOpenJsonFile := true
    imageFiles := []
    savePath := p.absolutePath file
    labelFile := p.fileName file }

theorem openedFiles_cases {m files : FileManager} {disk : Disk} {before : RootS}
    (opened : m.openFile p disk before file = .ok (files, root)) :
    (readJson (disk (p.location file)) before = .ok (false, root) ∧ files = m) ∨
      (readJson (disk (p.location file)) before = .ok (true, root) ∧ files = openedFiles p m file root) := by
  obtain ⟨⟨answer, filled⟩, read, opened⟩ := bind_completes opened
  cases answer with
  | true =>
    cases opened
    exact .inr ⟨read, rfl⟩
  | false =>
    cases opened
    exact .inl ⟨read, rfl⟩

theorem loadImage_some (img : QImage) :
    w.loadImage (some img) = .ok { w with canvas := w.canvas.withImage img } := rfl

theorem openFile_completes (selected : w.canvas.draw ≠ .none) (holds : Holds p w.disk file root img)
    (colors : ℕ → QColor) :
    ∃ canvas, w.openFile p file colors = .ok { w with
        canvas, files := openedFiles p w.files file root, rows := [] } ∧
      Canvas2D.Opened img (w.canvas.clean.withImage img) canvas root.shapes := by
  have listed : (w.canvas.clean.withImage img).Listed := by
    intro shape member
    cases member
  obtain ⟨canvas, added, opened⟩ := Canvas2D.addAllOpened_completes (c := w.canvas.clean.withImage img)
    selected rfl listed colors root.shapes
  refine ⟨canvas, ?_, opened⟩
  have files : w.files.openFile p w.disk .empty file = .ok (openedFiles p w.files file root, root) := by
    rw [FileManager.openFile, holds.read]
    rfl
  rw [openFile, if_pos holds.json, openJson]
  change (w.files.openFile p w.disk .empty file >>= _) = _
  rw [files]
  change ((loadImage _ (p.base64ToImg root.imageData)) >>= _) = _
  rw [holds.image, loadImage_some]
  change ((w.canvas.clean.withImage img).addAllOpened colors root.shapes >>= _) = _
  rw [added]
  rfl

theorem store_holds {disk : Disk} {filename : String} {height width : ℤ} (json : IsJson file)
    (place : p.location filename = p.location file) (sized : root.Sized height width)
    (image : p.base64ToImg root.imageData = some img) :
    Holds p (store p disk filename root) file root.reread img := by
  obtain ⟨document, written, read⟩ := readJson_writeJson sized
  refine ⟨json, ?_, image⟩
  rw [store, written, ← place]
  change readJson (Function.update disk (p.location filename) (some document) (p.location filename)) .empty = _
  rw [Function.update_self]
  exact read

theorem saveFile_opened (w : Window) (canvas : Canvas2D) (root : RootS) (chosen : String)
    (absolute : p.absolutePath file ≠ "") :
    saveFile p { w with canvas, files := openedFiles p w.files file root, rows := [] } chosen =
      .ok { w with
        canvas, files := openedFiles p w.files file root, rows := []
        disk := if canvas.shapeList.isEmpty then w.disk
          else store p w.disk (p.absolutePath file ++ "/" ++ p.fileName file)
            { root with shapes := canvas.shapes.map savedShape, version := appVersion, flags := "" } } := by
  have path : (p.absolutePath file).isEmpty = false := by
    rw [← Bool.not_eq_true, String.isEmpty_iff]
    exact absolute
  have savePath : (openedFiles p w.files file root).getSavePath chosen = openedFiles p w.files file root := by
    simp [FileManager.getSavePath, openedFiles, path]
  unfold saveFile saving
  simp only [savePath]
  rw [if_neg (by simp [openedFiles, path])]
  change ((if canvas.shapeList.isEmpty then _ else _) >>= _) = _
  split
  · rfl
  · change Except.ok _ = _
    rw [CanvasBase.shapes, List.map_map]
    rfl

theorem saving_shapes {chosen filename : String} {files : FileManager}
    (writes : w.saving p chosen = .ok (files, some (filename, root))) :
    w.canvas.shapeList ≠ [] ∧ root.shapes = w.canvas.shapes.map savedShape := by
  unfold saving at writes
  simp only at writes
  split at writes
  · cases writes
  · obtain ⟨labelled, _, writes⟩ := bind_completes writes
    split at writes
    · cases writes
    · rename_i listed
      obtain ⟨saved, built, done⟩ := bind_completes writes
      obtain ⟨start, _, rest⟩ := bind_completes built
      cases done
      cases rest
      refine ⟨by simpa using listed, ?_⟩
      rw [CanvasBase.shapes, List.map_map]
      rfl

def cycle (p : Platform) (w : Window) (file : String) (colors : ℕ → QColor) : Except Fault Window := do
  let w ← w.openFile p file colors
  w.saveFile p ""

theorem IsJson.ne_empty (json : IsJson file) : file ≠ "" := by
  rintro rfl
  exact absurd json (by decide)

theorem cycle_completes (absolute : p.Absolute) (selected : w.canvas.draw ≠ .none)
    (holds : Holds p w.disk file root img) (colors : ℕ → QColor) :
    ∃ next after, w.cycle p file colors = .ok next ∧ Holds p next.disk file after img ∧
      next.canvas.draw = w.canvas.draw ∧ after.shapes = root.shapes.map (resaved img w.canvas.draw) := by
  obtain ⟨canvas, done, opened⟩ := openFile_completes selected holds colors
  have shapes : canvas.shapes.map savedShape = root.shapes.map (resaved img w.canvas.draw) :=
    opened.shapes savedShape _ (savedShape_opened img w.canvas.draw)
  have empty : canvas.shapeList.isEmpty = root.shapes.isEmpty := by
    simpa [CanvasBase.shapes] using congrArg List.isEmpty shapes
  have ran : ∃ next, w.cycle p file colors = .ok next ∧ next.canvas = canvas ∧
      next.disk = if root.shapes.isEmpty then w.disk
        else store p w.disk (p.absolutePath file ++ "/" ++ p.fileName file)
          { root with shapes := root.shapes.map (resaved img w.canvas.draw), version := appVersion, flags := "" } := by
    have saved := saveFile_opened w canvas root "" (absolute.directory file holds.json.ne_empty)
    rw [empty, shapes] at saved
    rw [cycle, done]
    exact ⟨_, saved, rfl, rfl⟩
  obtain ⟨next, ran, rfl, disk⟩ := ran
  cases none : root.shapes with
  | nil =>
    -- nothing is on the canvas, so nothing is written
    refine ⟨next, root, ran, ?_, opened.draw, by rw [none]; rfl⟩
    rw [disk, none]
    exact holds
  | cons shape shapes =>
    obtain ⟨height, width, sized⟩ := readJson_sized holds.read
    refine ⟨next, RootS.reread { root with
      shapes := root.shapes.map (resaved img w.canvas.draw), version := appVersion, flags := "" }, ran, ?_,
      opened.draw, ?_⟩
    · rw [disk, none]
      exact store_holds holds.json (absolute.location file holds.json.ne_empty)
        ⟨sized.heightText, sized.widthText, sized.heightInt, sized.widthInt⟩ holds.image
    · rw [← none]
      change (root.shapes.map (resaved img w.canvas.draw)).map ShapeS.reread = _
      rw [List.map_map]
      exact List.map_congr_left fun shape _ => resaved_reread img w.canvas.draw shape

structure AnnotationFile (p : Platform) (disk : Disk) where
  file : String
  root : RootS
  img : QImage
  holds : Holds p disk file root img

def fileShapes (p : Platform) (w : Window) (file : String) : List ShapeS :=
  match readJson (w.disk (p.location file)) .empty with
  | .ok (_, root) => root.shapes
  | .error _ => []

theorem Holds.fileShapes (holds : Holds p w.disk file root img) : w.fileShapes p file = root.shapes := by
  rw [Window.fileShapes, holds.read]

def cycles (p : Platform) (w : Window) (file : String) (colors : ℕ → ℕ → QColor) : ℕ → Except Fault Window
  | 0 => .ok w
  | n + 1 => do
    let w ← w.cycle p file (colors n)
    cycles p w file colors n

theorem cycles_completes (absolute : p.Absolute) (selected : w.canvas.draw ≠ .none)
    (holds : Holds p w.disk file root img) (colors : ℕ → ℕ → QColor) (n : ℕ) :
    ∃ last, w.cycles p file colors n = .ok last ∧
      last.fileShapes p file = (List.map (resaved img w.canvas.draw))^[n] root.shapes := by
  induction n generalizing w root with
  | zero => exact ⟨w, rfl, holds.fileShapes⟩
  | succ n ih =>
    obtain ⟨next, after, ran, kept, draw, shapes⟩ :=
      cycle_completes absolute selected holds (colors n)
    obtain ⟨last, rest, final⟩ := ih (draw ▸ selected) kept
    refine ⟨last, ?_, ?_⟩
    · rw [cycles, ran]
      exact rest
    · rw [final, draw, shapes, Function.iterate_succ_apply]

end Window

section Desk

def black : QImage := .pixel [0, 0, 0, 255]
def white : QImage := .pixel [255, 255, 255, 255]

def blackText : String := "Qk06AAAAAAAAADYAAAAoAAAAAQAAAAEAAAABABgAAAAAAAQAAADEDgAAxA4AAAAAAAAAAAAAAAAAAA=="
def whiteText : String := "Qk06AAAAAAAAADYAAAAoAAAAAQAAAAEAAAABABgAAAAAAAQAAADEDgAAxA4AAAAAAAAAAAAA////AA=="

def slashless (cs : List Char) : List Char := cs.dropWhile (· = '/')

def pathHead (path : String) : List Char := (path.toList.reverse.dropWhile (· ≠ '/')).reverse
def pathTail (path : String) : List Char := (path.toList.reverse.takeWhile (· ≠ '/')).reverse

theorem pathHead_append (path : String) : pathHead path ++ pathTail path = path.toList := by
  rw [pathHead, pathTail, ← List.reverse_append, List.takeWhile_append_dropWhile, List.reverse_reverse]

theorem slashless_append (cs rest : List Char) : slashless (slashless cs ++ rest) = slashless (cs ++ rest) := by
  induction cs with
  | nil => rfl
  | cons c cs ih =>
    by_cases slash : c = '/'
    · simpa [slashless, slash] using ih
    · simp [slashless, slash]

theorem pathHead_cases (path : String) : pathHead path = [] ∨ ∃ dir, pathHead path = dir ++ ['/'] := by
  cases found : path.toList.reverse.dropWhile (· ≠ '/') with
  | nil => exact .inl (by rw [pathHead, found]; rfl)
  | cons c cs =>
    have slash := List.head?_dropWhile_not (fun c => decide (c ≠ '/')) path.toList.reverse
    rw [found] at slash
    have same : c = '/' := by simpa using slash
    exact .inr ⟨cs.reverse, by rw [pathHead, found, same, List.reverse_cons]⟩

def deskAbsolutePath (path : String) : String := "/" ++ String.ofList (slashless (pathHead path).dropLast)
def deskFileName (path : String) : String := String.ofList (pathTail path)
def deskLocation (path : String) : String := String.ofList (slashless path.toList)

theorem deskLocation_absolute (path : String) :
    deskLocation (deskAbsolutePath path ++ "/" ++ deskFileName path) = deskLocation path := by
  have front : (deskAbsolutePath path ++ "/" ++ deskFileName path).toList =
      '/' :: (slashless (pathHead path).dropLast ++ '/' :: pathTail path) := by
    simp [deskAbsolutePath, deskFileName]
  have dropped (cs : List Char) : slashless ('/' :: cs) = slashless cs := by simp [slashless]
  unfold deskLocation
  rw [front, dropped, slashless_append, ← pathHead_append path]
  rcases pathHead_cases path with none | ⟨dir, head⟩
  · rw [none]
    exact congrArg String.ofList (dropped (pathTail path))
  · rw [head, List.dropLast_concat, List.append_assoc, List.singleton_append]

def deskImageAt (path : String) : Option QImage :=
  if deskLocation path = "pics/a.png" then some black
  else if deskLocation path = "pics/b.png" then some white
  else none

def deskBase64ToImg (text : String) : Option QImage :=
  if text = blackText then some black else if text = whiteText then some white else none

def deskImgToBase64 (img : QImage) : String := if img = black then blackText else whiteText

/-- A computer with two pictures in the directory `/pics`, working in the root directory. -/
def desk : Platform where
  containsPoint _ _ := false
  imageAt := deskImageAt
  imgToBase64 := deskImgToBase64
  base64ToImg := deskBase64ToImg
  absolutePath := deskAbsolutePath
  fileName := deskFileName
  baseName path := String.ofList ((pathTail path).takeWhile (· ≠ '.'))
  entryList path := if deskLocation path = "pics/" then ["a.png", "b.png"] else []
  location := deskLocation
  entryList_nodup path := by
    split <;> decide

theorem desk_coded : desk.Coded := by
  intro path img found
  change deskImageAt path = some img at found
  have either : img = black ∨ img = white := by
    unfold deskImageAt at found
    split at found
    · exact .inl (Option.some.inj found).symm
    · split at found
      · exact .inr (Option.some.inj found).symm
      · cases found
  rcases either with rfl | rfl <;> decide +kernel

theorem desk_absolute : desk.Absolute where
  directory path _ same := by
    have length := congrArg String.length (show deskAbsolutePath path = "" from same)
    simp [deskAbsolutePath] at length
  location path _ := deskLocation_absolute path

def annotated : RootS :=
  { version := "1.0.0", flags := "1.0.0"
    shapes := [⟨"cat", [⟨0, 0⟩], 3, "left ear", "polygon", "", 0⟩]
    imagePath := "/pics/a.png", imageData := blackText, imageHeight := "1", imageWidth := "1" }

def deskDisk : Disk := fun location =>
  if location = "pics/a.json" then some (rootJson annotated 1 1) else none

def deskColors : ℕ → QColor := fun _ => LabelProperty.defaultColor

def deskWindow : Window := .fresh 0 deskDisk

theorem deskDisk_holds : Window.Holds desk deskDisk "/pics/a.json" annotated black where
  json := by decide
  read := by
    have sized : annotated.Sized 1 1 := ⟨by decide +kernel, by decide +kernel, by decide, by decide⟩
    have place : desk.location "/pics/a.json" = "pics/a.json" := by decide +kernel
    have same : annotated.reread = annotated := by decide +kernel
    rw [place, deskDisk, if_pos rfl]
    simp only [readJson, sized.fromJson, same]
  image := by decide +kernel

def deskSource : Window.AnnotationFile desk deskWindow.disk :=
  ⟨"/pics/a.json", annotated, black, deskDisk_holds⟩

end Desk

end XYAnnotation

import XYAnnotation.Canvas.Events
import XYAnnotation.Files.FileManager

namespace XYAnnotation

section Conversion

def dropMark : List Char → List Char
  | '\uFEFF' :: cs => cs
  | cs => cs

/-- `QString(label.c_str())`, which ends at the first NUL. -/
def fromCString (label : String) : String := String.ofList (dropMark (label.toList.takeWhile (· ≠ '\x00')))

def openedLabel (label : String) : String :=
  if (fromCString label).isEmpty then "unknonw" else fromCString label

def savedShape (shape : Shape) : ShapeS :=
  { label := shape.label.label
    points := shape.points.imgPoints
    groupId := shape.label.groupId
    description := shape.label.description
    shapeType := Shape.drawModeToStr shape.type
    flags := ""
    mask := 0 }

def openedShape (img : QImage) (newShape : Shape) (shape : ShapeS) : Shape :=
  (shape.points.foldl (fun made point => made.appendPoint (mapFromImg img point))
    (newShape.setimgWH img)).setIsClosed true

end Conversion

namespace Canvas2D

def addOpened (c : Canvas2D) (shape : ShapeS) (color : QColor) : Except Fault Canvas2D :=
  match ShapeFactory.create c.draw with
  | none => .error .nullPointer
  | some newShape => do
    let img ← c.getImage
    let address := c.next
    let (base, _) ← (c.allocate (openedShape img newShape shape)).addShape (some address)
    let label := LabelProperty.make (openedLabel shape.label) color true 0
    .ok { c with toCanvasBase := base.modifyShape address (·.setLabel label) }

/-- The loop in `openFile`; `colors` are the random colours. -/
def addAllOpened (c : Canvas2D) (colors : ℕ → QColor) : List ShapeS → Except Fault Canvas2D
  | [] => .ok c
  | shape :: shapes => do
    let c ← c.addOpened shape (colors 0)
    c.addAllOpened (fun i => colors (i + 1)) shapes

end Canvas2D

/-- The window: the canvas, the file manager, the rows of the file list and the disk. -/
structure Window where
  canvas : Canvas2D
  files : FileManager
  rows : List String
  disk : Disk

namespace Window

variable (p : Platform) (w : Window)

def fresh (curIdx : ℤ) (disk : Disk) : Window :=
  { canvas := .fresh, files := .fresh curIdx, rows := [], disk }

def loadImage (img : Option QImage) : Except Fault Window := do
  let base ← w.canvas.toCanvasBase.setImage img
  .ok { w with canvas := { w.canvas with toCanvasBase := base } }

def clean : Window := { w with canvas := w.canvas.clean, rows := [] }

def showFile (idx : ℤ) : Except Fault Window := do
  let w := { w with files := w.files.selectFile idx }
  let path ← w.files.getCurrentImageFile
  w.loadImage (p.imageAt path)

section Save

def appVersion : String := "1.0.0"

/-- The root that `saveFile` starts from: the one that was opened, or one for the current image. A
    null image has no data and the size 0. -/
def savedImage : Except Fault RootS :=
  if w.files.isOpenJsonFile then .ok w.files.root
  else do
    let imgPath ← w.files.getCurrentImageFile
    match p.imageAt imgPath with
    | some img => .ok { RootS.empty with
        imageData := p.imgToBase64 img
        imageHeight := stdToString img.height
        imagePath := imgPath
        imageWidth := stdToString img.width }
    | none => .ok { RootS.empty with
        imageHeight := stdToString 0
        imagePath := imgPath
        imageWidth := stdToString 0 }

def savedRoot : Except Fault RootS := do
  let root ← w.savedImage p
  .ok { root with
    shapes := w.canvas.shapeList.map fun shape => savedShape (w.canvas.heap shape)
    version := appVersion
    flags := "" }

/-- `saveFile` up to the writing: the file name and the root, or `none` where it returns early. -/
def saving (chosen : String) : Except Fault (FileManager × Option (String × RootS)) :=
  let files := w.files.getSavePath chosen
  if files.savePath.isEmpty then .ok (files, none)
  else do
    let files ← files.getLabelFile p
    if w.canvas.shapeList.isEmpty then .ok (files, none)
    else do
      let root ← savedRoot p { w with files }
      .ok (files, some (files.savePath ++ "/" ++ files.labelFile, root))

def store (disk : Disk) (filename : String) (root : RootS) : Disk :=
  match writeJson root with
  | some document => Function.update disk (p.location filename) (some document)
  | none => disk

def saveFile (chosen : String) : Except Fault Window := do
  let (files, written) ← w.saving p chosen
  match written with
  | some (filename, root) => .ok { w with files, disk := store p w.disk filename root }
  | none => .ok { w with files }

end Save

section Open

def IsJson (file : String) : Prop := "json".toList <:+: file.toList

instance (file : String) : Decidable (IsJson file) := inferInstanceAs (Decidable (_ <:+: _))

def openJson (file : String) (colors : ℕ → QColor) : Except Fault Window := do
  let (files, root) ← w.files.openFile p w.disk .empty file
  let w ← { w with files }.loadImage (p.base64ToImg root.imageData)
  let canvas ← w.canvas.addAllOpened colors root.shapes
  .ok { w with canvas }

def openFile (file : String) (colors : ℕ → QColor) : Except Fault Window :=
  if IsJson file then w.clean.openJson p file colors
  else
    let files := w.clean.files.setSingleImage p file
    showFile p { w.clean with files, rows := files.imageFiles } 0

def openDir (path : String) : Except Fault Window :=
  let files := w.clean.files.setMultiImage p path
  showFile p { w.clean with files, rows := files.imageFiles } 0

/-- A click on an existing row of the file list. `reply` is the answer to the question whether to
    save, with that in the directory dialog. -/
def clickRow (row : ℕ) (reply : Option String) : Except Fault Window :=
  if row < w.rows.length then
    match w.files.changeNotSaved, reply with
    | true, some chosen => do
      let w ← w.saveFile p chosen
      w.showFile p row
    | _, _ => w.showFile p row
  else .ok w

end Open

end Window

inductive WindowEvent
  | openFile (file : String) (colors : ℕ → QColor)
  | openDir (path : String)
  | clickRow (row : ℕ) (reply : Option String)
  | canvas (event : CanvasEvent)
  | saveFile (chosen : String)

def Window.handle (p : Platform) (w : Window) : WindowEvent → Except Fault Window
  | .openFile file colors => w.openFile p file colors
  | .openDir path => w.openDir p path
  | .clickRow row reply => w.clickRow p row reply
  | .canvas event => do
    let canvas ← w.canvas.handle p.containsPoint event
    .ok { w with canvas }
  | .saveFile chosen => w.saveFile p chosen

end XYAnnotation

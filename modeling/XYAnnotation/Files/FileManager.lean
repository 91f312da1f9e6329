import XYAnnotation.Files.JsonRoundTrip

namespace XYAnnotation

/-- What the program takes from Qt: the image readers, the base64 codec, `QFileInfo`, `QDir` and the
    winding test. `location` tells which file a path leads to. -/
structure Platform where
  containsPoint : List QPointF → QPointF → Bool
  imageAt : String → Option QImage
  imgToBase64 : QImage → String
  base64ToImg : String → Option QImage
  absolutePath : String → String
  fileName : String → String
  baseName : String → String
  entryList : String → List String
  location : String → String
  entryList_nodup : ∀ path, (entryList path).Nodup

/-- An image that was read from a file can be coded in base64 and decoded again. -/
def Platform.Coded (p : Platform) : Prop :=
  ∀ path img, p.imageAt path = some img → p.base64ToImg (p.imgToBase64 img) = some img

/-- Every path but the empty one has a directory, in which its file is found under its name. -/
structure Platform.Absolute (p : Platform) : Prop where
  directory : ∀ path, path ≠ "" → p.absolutePath path ≠ ""
  location : ∀ path, path ≠ "" → p.location (p.absolutePath path ++ "/" ++ p.fileName path) = p.location path

abbrev Disk := String → Option Json

namespace QStringList

def le (s t : String) : Prop := QString.utf16 s ≤ QString.utf16 t

instance : DecidableRel le := fun s t => inferInstanceAs (Decidable (QString.utf16 s ≤ QString.utf16 t))

def sort (strings : List String) : List String := strings.insertionSort le

end QStringList

/-- `FileManager`, with the values of the last signals sent. Nothing reads the mode and the output
    files. -/
structure FileManager where
  root : RootS
  imageFiles : List String
  labelFile : String
  path : String
  savePath : String
  curIdx : ℤ
  changeNotSaved : Bool
  isOpenJsonFile : Bool
  prevEnable : Option Bool
  nextEnable : Option Bool
  deriving DecidableEq

namespace FileManager

variable (p : Platform) (m : FileManager)

/-- The constructor does not initialise `curIdx`. -/
def fresh (curIdx : ℤ) : FileManager :=
  { root := .empty, imageFiles := [], labelFile := "", path := "", savePath := "", curIdx,
    changeNotSaved := false, isOpenJsonFile := false, prevEnable := none, nextEnable := none }

def labelSuffix : String := "_labels.json"

def imageFileNameAt (idx : ℤ) : Except Fault String := QVector.at m.imageFiles idx

def getCurrentImageFile : Except Fault String := do
  let file ← m.imageFileNameAt m.curIdx
  .ok (m.path ++ file)

def emitPrevNextEnable : FileManager :=
  { m with
    prevEnable := some (decide (0 < m.curIdx))
    nextEnable := some (decide (m.curIdx < m.imageFiles.length - 1)) }

/-- `openFile(root_, fileName)`: a file that cannot be read changes `root_` only. -/
def openFile (disk : Disk) (root : RootS) (file : String) : Except Fault (FileManager × RootS) := do
  let (read, root) ← readJson (disk (p.location file)) root
  if read then
    .ok ({ m with
      root
      isOpenJsonFile := true
      imageFiles := []
      savePath := p.absolutePath file
      labelFile := p.fileName file }, root)
  else .ok (m, root)

def getLabelFile : Except Fault FileManager :=
  if m.imageFiles.isEmpty then .ok m
  else do
    let file ← m.imageFileNameAt m.curIdx
    .ok { m with labelFile := p.baseName file ++ labelSuffix }

/-- `getSavePath`; `chosen` is the answer in the directory dialog, empty when it is cancelled. -/
def getSavePath (chosen : String) : FileManager :=
  if m.savePath.isEmpty then { m with savePath := chosen } else m

def setSingleImage (file : String) : FileManager :=
  emitPrevNextEnable { m with
    imageFiles := [file]
    labelFile := p.absolutePath file ++ labelSuffix
    isOpenJsonFile := false
    changeNotSaved := false
    curIdx := 0 }

/-- `setMultiImage`. It leaves `isOpenJsonFile` as it is. -/
def setMultiImage (path : String) : FileManager :=
  let imageFiles := QStringList.sort (p.entryList (path ++ "/"))
  emitPrevNextEnable { m with
    imageFiles
    labelFile := match imageFiles with
      | [] => ""
      | file :: _ => p.absolutePath file ++ labelSuffix
    changeNotSaved := false
    path := path ++ "/"
    curIdx := 0 }

def selectFile (idx : ℤ) : FileManager :=
  if m.curIdx = idx then m else emitPrevNextEnable { m with curIdx := idx }

def prevFile : FileManager := if m.curIdx > 0 then m.selectFile (m.curIdx - 1) else m

def nextFile : FileManager := if m.curIdx < m.imageFiles.length - 1 then m.selectFile (m.curIdx + 1) else m

def close : FileManager :=
  { m with
    imageFiles := []
    labelFile := ""
    curIdx := 0
    changeNotSaved := false
    prevEnable := some false
    nextEnable := some false }

end FileManager

end XYAnnotation

import XYAnnotation.Annotations.Shape
import XYAnnotation.Files.Json
import XYAnnotation.Library.Runs

namespace XYAnnotation

namespace QJson

/-- `QJsonValue::isDouble`; the absence of a value is `Undefined`. -/
def isDouble : Option Json → Bool
  | some (.int _) | some (.float _) => true
  | _ => false

def toDouble : Option Json → ℚ
  | some (.int value) => value
  | some (.float value) => value
  | _ => 0

end QJson

namespace LabelProperty

def toJsonObject (label : LabelProperty) : Json :=
  .obj [("color", .arr [.int label.color.red.toNat, .int label.color.green.toNat, .int label.color.blue.toNat]),
    ("id", .int label.id), ("label", .str label.label), ("visible", .bool label.visible)]

def readLabel (label : LabelProperty) : Option Json → LabelProperty
  | some (.str text) => { label with label := text }
  | _ => label

def readColor (label : LabelProperty) : Option Json → LabelProperty
  | some (.arr array) =>
    let r := truncate (QJson.toDouble array[0]?)
    let g := truncate (QJson.toDouble array[1]?)
    let b := truncate (QJson.toDouble array[2]?)
    { label with color := QColor.ofInts r g b }
  | _ => label

def readVisible (label : LabelProperty) : Option Json → LabelProperty
  | some (.bool visible) => { label with visible }
  | _ => label

def readId (label : LabelProperty) (value : Option Json) : LabelProperty :=
  if QJson.isDouble value then { label with id := truncate (QJson.toDouble value) } else label

/-- `LabelProperty::fromJsonObject`: a member that is missing or of another type is passed over. -/
def fromJsonObject (label : LabelProperty) (json : List (String × Json)) : LabelProperty :=
  (((label.readLabel (json.lookup "label")).readColor (json.lookup "color")).readVisible
    (json.lookup "visible")).readId (json.lookup "id")

end LabelProperty

/-- `LabelManager`. Its signals are not modelled. -/
structure LabelManager where
  labels : Std.TreeMap String LabelProperty QString.compare
  currentMaxId : ℤ

inductive LabelChange
  | addLabel (label : String) (color : QColor) (visible : Bool) (id : ℤ)
  | removeLabel (label : String)
  | setColor (label : String) (color : QColor)
  | setVisible (label : String) (visible : Bool)
  | allClear

/-- The calls of a program: one change, or a file that makes several. -/
inductive LabelCall
  | change (made : LabelChange)
  | fromJsonArray (json : List Json)

namespace LabelManager

def empty : LabelManager := ⟨∅, 0⟩

def checkLabel (m : LabelManager) (label : String) : Except String Unit :=
  if label ∈ m.labels then .ok () else .error ("can not find label " ++ label ++ " in label manager")

def toJsonArray (m : LabelManager) : List Json := m.labels.toList.map fun entry => entry.2.toJsonObject

/-- `labels[label] = value`: the assignment goes to a new entry when there is none. -/
def store (m : LabelManager) (label : String) (value : LabelProperty) : LabelManager :=
  { m with labels := m.labels.insert label ((m.labels.getD label .default).assign value) }

def addLabel (m : LabelManager) (label : String) (color : QColor) (visible : Bool) (id : ℤ) : LabelManager :=
  if id = -1 then
    let id := m.currentMaxId + 1
    store { m with currentMaxId := id } label (.make label color visible id)
  else
    store { m with currentMaxId := max id m.currentMaxId } label (.make label color visible id)

def item? : Json → Option LabelProperty
  | .obj members => some (LabelProperty.default.fromJsonObject members)
  | _ => none

def items (json : List Json) : List LabelProperty := json.filterMap item?

def fromJsonArray (m : LabelManager) (json : List Json) : LabelManager :=
  (items json).foldl (fun m item => m.addLabel item.label item.color item.visible item.id) m

def fromJsonObject (m : LabelManager) (json : List (String × Json)) : LabelManager :=
  match json.lookup "labels" with
  | some (.arr array) => m.fromJsonArray array
  | _ => m

def removeLabel (m : LabelManager) (label : String) : LabelManager := { m with labels := m.labels.erase label }

/-- `setColor` and `setVisible`: an entry that has the value already is left alone. -/
def setMember (m : LabelManager) (label : String) (has : LabelProperty → Bool)
    (set : LabelProperty → LabelProperty) : Except String LabelManager := do
  m.checkLabel label
  if !has (m.labels.getD label .default) then .ok { m with labels := m.labels.modify label set } else .ok m

def setColor (m : LabelManager) (label : String) (color : QColor) : Except String LabelManager :=
  m.setMember label (·.color == color) fun entry => { entry with color }

def setVisible (m : LabelManager) (label : String) (visible : Bool) : Except String LabelManager :=
  m.setMember label (·.visible == visible) fun entry => { entry with visible }

def allClear (_ : LabelManager) : LabelManager := empty

def change (m : LabelManager) : LabelChange → Except String LabelManager
  | .addLabel label color visible id => .ok (m.addLabel label color visible id)
  | .removeLabel label => .ok (m.removeLabel label)
  | .setColor label color => m.setColor label color
  | .setVisible label visible => m.setVisible label visible
  | .allClear => .ok m.allClear

def after (m : LabelManager) (made : LabelChange) : LabelManager :=
  match m.change made with
  | .ok next => next
  | .error _ => m

def afterCall (m : LabelManager) : LabelCall → LabelManager
  | .change made => m.after made
  | .fromJsonArray json => m.fromJsonArray json

end LabelManager

end XYAnnotation

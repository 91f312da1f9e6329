import XYAnnotation.Library.Attempts
import XYAnnotation.Library.Loops
import XYAnnotation.Qt.Values

namespace XYAnnotation

open Library

section Numerals

def stdToString (n : ℤ) : String := if n < 0 then "-" ++ Nat.repr n.natAbs else Nat.repr n.natAbs

def IsInt (n : ℤ) : Prop := -2 ^ 31 ≤ n ∧ n < 2 ^ 31

instance (n : ℤ) : Decidable (IsInt n) := inferInstanceAs (Decidable (_ ∧ _))

def stoiDigits (sign : ℤ) (cs : List Char) : Except Fault ℤ :=
  let digits := cs.takeWhile Char.isDigit
  if digits = [] then .error .jsonError
  else
    let n := sign * (Nat.ofDigitChars 10 digits 0 : ℕ)
    if IsInt n then .ok n else .error .jsonError

def isBlank (c : Char) : Bool := c = ' ' || 9 ≤ c.toNat && c.toNat ≤ 13

def stoi (s : String) : Except Fault ℤ :=
  match s.toList.dropWhile isBlank with
  | '-' :: cs => stoiDigits (-1) cs
  | '+' :: cs => stoiDigits 1 cs
  | cs => stoiDigits 1 cs

theorem stoiDigits_repr (sign : ℤ) (n : ℕ) (range : IsInt (sign * n)) :
    stoiDigits sign (Nat.repr n).toList = .ok (sign * n) := by
  have digits : ∀ c ∈ (Nat.repr n).toList, c.isDigit = true := QString.number_digits n
  have nonempty : (Nat.repr n).toList ≠ [] := by simp
  have front : (Nat.repr n).toList.takeWhile Char.isDigit = (Nat.repr n).toList :=
    List.takeWhile_eq_self_iff.mpr digits
  have value : Nat.ofDigitChars 10 (Nat.repr n).toList 0 = n := by simp [Nat.toList_repr]
  simp only [stoiDigits, front, value, nonempty, range, if_false, if_true]

theorem isBlank_digit {c : Char} (digit : c.isDigit = true) : isBlank c = false := by
  simp only [Char.isDigit, Bool.and_eq_true, decide_eq_true_eq] at digit
  have low : 48 ≤ c.toNat := UInt32.le_iff_toNat_le.mp digit.1
  have notSpace : c ≠ ' ' := by
    rintro rfl
    revert low
    decide
  simp only [isBlank, Bool.or_eq_false_iff, Bool.and_eq_false_iff, decide_eq_false_iff_not]
  exact ⟨notSpace, .inr (by omega)⟩

theorem stoi_stdToString {n : ℤ} (range : IsInt n) : stoi (stdToString n) = .ok n := by
  unfold stdToString
  split
  · rename_i negative
    have sign : -1 * (n.natAbs : ℤ) = n := by omega
    have text : ("-" ++ Nat.repr n.natAbs).toList = '-' :: (Nat.repr n.natAbs).toList := by simp
    have read := stoiDigits_repr (-1) n.natAbs (by rw [sign]; exact range)
    have notBlank : isBlank '-' = false := by decide
    rw [stoi, text, List.dropWhile_cons_of_neg (by simp [notBlank])]
    rw [sign] at read
    exact read
  · rename_i nonneg
    have sign : 1 * (n.natAbs : ℤ) = n := by omega
    have digits : ∀ c ∈ (Nat.repr n.natAbs).toList, c.isDigit = true := QString.number_digits n.natAbs
    have read := stoiDigits_repr 1 n.natAbs (by rw [sign]; exact range)
    rw [sign] at read
    unfold stoi
    rw [Format.dropWhile_of_digits (fun _ => isBlank_digit) digits]
    split
    · rename_i cs same
      exact absurd (digits '-' (by simp [same])) (by decide)
    · rename_i cs same
      exact absurd (digits '+' (by simp [same])) (by decide)
    · exact read

end Numerals

/-- A document as the JSON library holds it, with exact fractions. -/
inductive Json
  | null
  | bool (value : Bool)
  | int (value : ℤ)
  | float (value : ℚ)
  | str (value : String)
  | arr (items : List Json)
  | obj (members : List (String × Json))

namespace Json

def empty : Json → Bool
  | .null => true
  | .arr items => items.isEmpty
  | .obj members => members.isEmpty
  | _ => false

/-- `operator[](key) const`: a missing key is an assertion, a value that is no object an exception. -/
def «at» (j : Json) (key : String) : Except Fault Json :=
  match j with
  | .obj members =>
    match members.lookup key with
    | some value => .ok value
    | none => .error .outOfRange
  | _ => .error .jsonError

def index (j : Json) (i : ℕ) : Except Fault Json :=
  match j with
  | .arr items => QVector.at items i
  | _ => .error .jsonError

/-- What a range-based `for` visits. -/
def items : Json → List Json
  | .null => []
  | .arr items => items
  | .obj members => members.map Prod.snd
  | j => [j]

def getText : Json → Except Fault String
  | .str value => .ok value
  | _ => .error .jsonError

/-- The conversion to `int`: integers wrap around, and a fraction must fit once it is cut off. -/
def getInt : Json → Except Fault ℤ
  | .int value => .ok (value.bmod (2 ^ 32))
  | .float value => if IsInt (truncate value) then .ok (truncate value) else .error .outOfRange
  | .bool value => .ok (if value then 1 else 0)
  | _ => .error .jsonError

def getDouble : Json → Except Fault ℚ
  | .int value => .ok value
  | .float value => .ok value
  | _ => .error .jsonError

section Value

variable {α : Type} (get : Json → Except Fault α) (default : α)

def value (j : Json) (key : String) : Except Fault α :=
  match j with
  | .obj members =>
    match members.lookup key with
    | some value => get value
    | none => .ok default
  | _ => .error .jsonError

/-- `j[key].empty() ? default : j.value(source, default)` -/
def member (j : Json) (key source : String) : Except Fault α := do
  let found ← j.at key
  if found.empty then .ok default else j.value get default source

end Value

def text (j : Json) (key : String) : Except Fault String := j.member getText "" key key

def integer (j : Json) (key : String) : Except Fault ℤ := j.member getInt 0 key key

def emplaceBack (j item : Json) : Except Fault Json :=
  match j with
  | .null => .ok (.arr [item])
  | .arr items => .ok (.arr (items ++ [item]))
  | _ => .error .jsonError

end Json

structure ShapeS where
  label : String
  points : List QPointF
  groupId : ℤ
  description : String
  shapeType : String
  flags : String
  mask : ℤ
  deriving DecidableEq, Repr

structure RootS where
  version : String
  flags : String
  shapes : List ShapeS
  imagePath : String
  imageData : String
  imageHeight : String
  imageWidth : String
  deriving DecidableEq, Repr

def RootS.empty : RootS := ⟨"", "", [], "", "", "", ""⟩

section FromJson

def pointFromJson (j : Json) : Except Fault QPointF := do
  let x ← (← j.index 0).getDouble
  let y ← (← j.index 1).getDouble
  .ok ⟨x, y⟩

def shapeFromJson (j : Json) : Except Fault ShapeS := do
  let label ← j.text "label"
  let description ← j.text "description"
  let shapeType ← j.text "shape_type"
  let flags ← j.text "flags"
  let groupId ← j.integer "group_id"
  let mask ← j.integer "mask"
  let points ← (← j.at "points").items.mapM pointFromJson
  .ok { label, points, groupId, description, shapeType, flags, mask }

/-- Fills in a root member by member. What was filled in stays when a later member fails. -/
abbrev Filling := Attempt Fault RootS

def fetch {α : Type} (result : Except Fault α) : Filling α := check result

def shapesFromJson : List Json → Filling Unit
  | [] => pure ()
  | item :: items => do
    let shape ← fetch (shapeFromJson item)
    modify fun root => { root with shapes := root.shapes ++ [shape] }
    shapesFromJson items

def imageFromJson (j : Json) : Filling Unit := do
  let imagePath ← fetch (j.text "imagePath")
  modify fun root => { root with imagePath }
  let imageData ← fetch (j.text "imageData")
  modify fun root => { root with imageData }
  let height ← fetch (j.integer "imageHeight")
  modify fun root => { root with imageHeight := stdToString height }
  let width ← fetch (j.integer "imageWidth")
  modify fun root => { root with imageWidth := stdToString width }

/-- `from_json(j, root)`. The flags are taken from the member `version`. -/
def rootFromJson (j : Json) : Filling Unit := do
  let version ← fetch (j.text "version")
  modify fun root => { root with version }
  let flags ← fetch (j.member Json.getText "" "flags" "version")
  modify fun root => { root with flags }
  let shapes ← fetch (j.at "shapes")
  shapesFromJson shapes.items
  imageFromJson j

/-- `readJson`: the answer and the root as it was left. A file that is missing or holds no document
    is `none`. -/
def readJson (document : Option Json) (root : RootS) : Except Fault (Bool × RootS) :=
  match document with
  | none => .ok (false, root)
  | some j =>
    match (rootFromJson j).run root with
    | (.ok _, root) => .ok (true, root)
    | (.error fault, root) => if fault.isException then .ok (false, root) else .error fault

end FromJson

section ToJson

def pointToJson (j : Json) (point : QPointF) : Except Fault Json :=
  j.emplaceBack (.arr [.float point.x, .float point.y])

def shapeToJson (shape : ShapeS) : Except Fault Json := do
  let points ← shape.points.foldlM pointToJson .null
  .ok (.obj [("label", .str shape.label), ("points", points), ("group_id", .int shape.groupId),
    ("description", .str shape.description), ("shape_type", .str shape.shapeType),
    ("flags", .str shape.flags), ("mask", .int shape.mask)])

def rootToJson (root : RootS) : Except Fault Json := do
  let shapes ← root.shapes.mapM shapeToJson
  let height ← stoi root.imageHeight
  let width ← stoi root.imageWidth
  .ok (.obj [("version", .str root.version), ("flags", .str root.flags), ("shapes", .arr shapes),
    ("imagePath", .str root.imagePath), ("imageData", .str root.imageData),
    ("imageHeight", .int height), ("imageWidth", .int width)])

/-- `writeJson`: the document written, or `none` where an exception leaves the file as it was. -/
def writeJson (root : RootS) : Option Json :=
  match rootToJson root with
  | .ok document => some document
  | .error _ => none

end ToJson

end XYAnnotation

import XYAnnotation.Files.Json
import XYAnnotation.Library.FirstMatch
import XYAnnotation.Library.Format

namespace XYAnnotation

open Library

inductive IniNodeType
  | unknown
  | root
  | sectionHead
  | keyValue
  | div
  | span
  deriving DecidableEq

structure IniNode where
  type : IniNodeType
  /-- The section, the key or the comment. -/
  label : String
  value : String
  children : List IniNode

namespace IniNode

def named (label : String) (type : IniNodeType) (node : IniNode) : Bool := node.type = type ∧ node.label = label

def get (node : IniNode) (label : String) (type : IniNodeType) : Option IniNode :=
  node.children.find? (named label type)

def fresh (label : String) (type : IniNodeType) : IniNode := ⟨type, label, "", []⟩

def update (node : IniNode) (label : String) (type : IniNodeType) (change : IniNode → IniNode) : IniNode :=
  { node with children := updateFirst (named label type) (fresh label type) change node.children }

/-- Where the keys of a section stand; without a section they stand at the root. -/
def scope (root : IniNode) (label : String) : Option IniNode :=
  if label = "" then some root else root.get label .sectionHead

def valueAt (node : IniNode) (key : String) : String :=
  match node.get key .keyValue with
  | none => ""
  | some pair => pair.value

def setKey (node : IniNode) (key value : String) : IniNode :=
  node.update key .keyValue fun pair => { pair with value := value }

end IniNode

structure IniParser where
  root : Option IniNode

namespace IniParser

def getValue (config : IniParser) (key label : String) : String :=
  match config.root with
  | none => ""
  | some root =>
    match root.scope label with
    | none => ""
    | some node => node.valueAt key

def setValue (config : IniParser) (key value label : String) : IniParser :=
  -- The type of a root made here is never set; only `DumpString` would read it.
  let root := config.root.getD (.fresh "" .unknown)
  ⟨some (if label = "" then root.setKey key value
    else root.update label .sectionHead fun node => node.setKey key value)⟩

end IniParser

namespace IniNode

variable {label other : String} {type kind : IniNodeType} {change : IniNode → IniNode}

theorem named_iff {node : IniNode} : named label type node = true ↔ node.type = type ∧ node.label = label := by
  simp [named]

theorem named_fresh : named label type (fresh label type) = true := named_iff.mpr ⟨rfl, rfl⟩

@[simp]
theorem get_fresh : (fresh label type).get other kind = none := rfl

@[simp]
theorem valueAt_fresh (key : String) : (fresh label type).valueAt key = "" := rfl

theorem get_update (kept : ∀ node, named label type node = true → named label type (change node) = true)
    (node : IniNode) :
    (node.update label type change).get label type = some (change ((node.get label type).getD (fresh label type))) :=
  find?_updateFirst named_fresh kept node.children

theorem get_update_of_ne (kept : ∀ node, named label type node = true → named label type (change node) = true)
    (apart : ¬(kind = type ∧ other = label)) (node : IniNode) :
    (node.update label type change).get other kind = node.get other kind := by
  refine find?_updateFirst_of_disjoint named_fresh kept ?_ node.children
  intro child fits
  obtain ⟨rfl, rfl⟩ := named_iff.mp fits
  exact Bool.eq_false_iff.mpr fun same => apart ⟨(named_iff.mp same).1.symm, (named_iff.mp same).2.symm⟩

theorem valueAt_setKey (node : IniNode) (key value asked : String) :
    (node.setKey key value).valueAt asked = if asked = key then value else node.valueAt asked := by
  have kept (pair : IniNode) : named key .keyValue pair = true → named key .keyValue { pair with value := value } = true :=
    id
  by_cases same : asked = key
  · subst same
    rw [valueAt, setKey, get_update kept, if_pos rfl]
  · rw [valueAt, setKey, get_update_of_ne kept (fun both => same both.2), if_neg same, valueAt]

def read (root : IniNode) (key label : String) : String :=
  ((root.scope label).getD (fresh label .sectionHead)).valueAt key

end IniNode

namespace IniParser

open IniNode

theorem getValue_eq_read (config : IniParser) (key label : String) :
    config.getValue key label = (config.root.getD (fresh "" .unknown)).read key label := by
  unfold getValue IniNode.read
  cases config.root with
  | none =>
    by_cases atRoot : label = ""
    · simp [scope, atRoot]
    · simp [scope, atRoot]
  | some root =>
    cases found : root.scope label with
    | none => simp [found]
    | some node => simp [found]

/-- `GetValue` gives what `SetValue` stored last for the key in the section, and every other key keeps its value. -/
theorem getValue_setValue (config : IniParser) (key value label asked place : String) :
    (config.setValue key value label).getValue asked place =
      if asked = key ∧ place = label then value else config.getValue asked place := by
  have setKey_named (node : IniNode) (fits : named label .sectionHead node = true) :
      named label .sectionHead (node.setKey key value) = true := fits
  have value_named (pair : IniNode) (fits : named key .keyValue pair = true) :
      named key .keyValue { pair with value := value } = true := fits
  rw [getValue_eq_read, getValue_eq_read config, setValue, Option.getD_some]
  generalize config.root.getD (fresh "" .unknown) = root
  unfold IniNode.read scope
  by_cases atRoot : label = ""
  · subst atRoot
    rw [if_pos rfl]
    by_cases same : place = ""
    · simp [same, valueAt_setKey]
    · have other : ¬(asked = key ∧ place = "") := fun both => same both.2
      rw [if_neg other, if_neg same, if_neg same, setKey, get_update_of_ne value_named (by simp)]
  · rw [if_neg atRoot]
    by_cases same : place = label
    · subst same
      simp [atRoot, get_update setKey_named, valueAt_setKey]
    · have other : ¬(asked = key ∧ place = label) := fun both => same both.2
      rw [if_neg other]
      by_cases outside : place = ""
      · rw [if_pos outside, if_pos outside, Option.getD_some, Option.getD_some, valueAt,
          get_update_of_ne setKey_named (by simp), valueAt]
      · rw [if_neg outside, if_neg outside, get_update_of_ne setKey_named (fun both => same both.2)]

end IniParser

section Calls

open Format

def asprintf (format : String) (args : List (BitVec 32)) : String :=
  String.ofList (print (directives format.toList) (args.map BitVec.toInt))

/-- The `int` that is stored for a number. C leaves open what is stored for one out of range; the `atoi` of Visual C++
    stores the nearest `int`. -/
def saturated (n : ℤ) : BitVec 32 :=
  BitVec.ofInt 32 (if n < -2 ^ 31 then -2 ^ 31 else if 2 ^ 31 ≤ n then 2 ^ 31 - 1 else n)

/-- The numbers `sscanf` stores, in order; the variables left over keep what they held. -/
def sscanf (text format : String) : List (BitVec 32) :=
  (scan isBlank (directives format.toList) text.toList).map saturated

def atoi (text : String) : BitVec 32 :=
  match scanDecimal isBlank text.toList with
  | none => 0
  | some (n, _) => saturated n

/-- `getboolean` of `hbase.c`; `stricmp` ignores the case. -/
def getboolean (text : String) : Bool :=
  match text.length with
  | 1 => text = "1" || text = "y" || text = "Y"
  | 2 => text.toLower = "on"
  | 3 => text.toLower = "yes"
  | 4 => text.toLower = "true"
  | 6 => text.toLower = "enable"
  | _ => false

end Calls

namespace IniParser

def getInt (config : IniParser) (key label : String) (defvalue : BitVec 32) : BitVec 32 :=
  let text := config.getValue key label
  if text.isEmpty then defvalue else atoi text

def getBool (config : IniParser) (key label : String) (defvalue : Bool) : Bool :=
  let text := config.getValue key label
  if text.isEmpty then defvalue else getboolean text

def setInt (config : IniParser) (key : String) (value : BitVec 32) (label : String) : IniParser :=
  config.setValue key (asprintf "%d" [value]) label

end IniParser

section Numerals

open Format

theorem isBlank_minus : isBlank '-' = false := by decide

@[simp]
theorem saturated_toInt (n : BitVec 32) : saturated n.toInt = n := by
  have low : ¬ n.toInt < -2 ^ 31 := not_lt.mpr n.le_toInt
  have high : ¬ 2 ^ 31 ≤ n.toInt := not_le.mpr BitVec.toInt_lt
  rw [saturated, if_neg low, if_neg high, BitVec.ofInt_toInt]

/-- What `asprintf` writes `sscanf` reads back with the same format. -/
theorem sscanf_asprintf {format : String} {args : List (BitVec 32)}
    (apart : separated isBlank (directives format.toList) = true)
    (arity : (directives format.toList).count .decimal = args.length) :
    sscanf (asprintf format args) format = args := by
  have arity : (directives format.toList).count .decimal = (args.map BitVec.toInt).length := by simpa using arity
  have read := scan_print (fun _ => isBlank_digit) isBlank_minus apart arity
  rw [sscanf, asprintf, String.toList_ofList, read, List.map_map]
  simp [Function.comp_def]

theorem atoi_asprintf (n : BitVec 32) : atoi (asprintf "%d" [n]) = n := by
  have ends : EndsNumber [] := by simp [EndsNumber]
  have read := scanDecimal_print (fun _ => isBlank_digit) isBlank_minus n.toInt ends
  have text : (asprintf "%d" [n]).toList = (toString n.toInt).toList ++ [] := by
    simp [asprintf, directives, print]
  rw [atoi, text, read]
  simp

end Numerals

end XYAnnotation

import XYAnnotation.Files.JsonRoundTrip
import XYAnnotation.Library.Utf8

namespace XYAnnotation

open Library

abbrev StdString := List UInt8

namespace StdString

def utf8 (text : String) : StdString := text.toList.flatMap String.utf8EncodeChar

def chars (s : StdString) : List Char := s.map fun byte => Char.ofNat byte.toNat

def stoi (s : StdString) : Except Fault ℤ := XYAnnotation.stoi (String.ofList s.chars)

end StdString

open StdString

/-- The document of the JSON library over bytes. An object keeps the order in which its keys were set. -/
inductive YJson
  | null
  | bool (value : Bool)
  | int (value : ℤ)
  | float (value : ℚ)
  | str (value : StdString)
  | arr (items : List YJson)
  | obj (members : List (StdString × YJson))

namespace YJson

def emplaceBack (j item : YJson) : Except Fault YJson :=
  match j with
  | .null => .ok (.arr [item])
  | .arr items => .ok (.arr (items ++ [item]))
  | _ => .error .jsonError

section Dump

def codepoint (state : ℕ) (codep : UInt32) (byte : UInt8) : UInt32 :=
  if state ≠ 0 then (byte &&& 0x3f).toUInt32 ||| (codep <<< 6)
  else ((0xFF : UInt32) >>> UInt32.ofNat (Utf8.byteClass byte.toNat)) &&& byte.toUInt32

def hexDigit (n : ℕ) : UInt8 := UInt8.ofNat (if n < 10 then n + 0x30 else n + 0x57)

def escaped (codep : UInt32) (byte : UInt8) : StdString :=
  if codep = 0x08 then utf8 "\\b"
  else if codep = 0x09 then utf8 "\\t"
  else if codep = 0x0A then utf8 "\\n"
  else if codep = 0x0C then utf8 "\\f"
  else if codep = 0x0D then utf8 "\\r"
  else if codep = 0x22 then utf8 "\\\""
  else if codep = 0x5C then utf8 "\\\\"
  else if codep ≤ 0x1F then utf8 "\\u00" ++ [hexDigit (codep.toNat / 16), hexDigit (codep.toNat % 16)]
  else [byte]

/-- The loop of `dump_escaped`, which throws at a byte that is not allowed and at the end of an incomplete text. -/
def dumpBytes (state : ℕ) (codep : UInt32) : StdString → Except Fault StdString
  | [] => if state = 0 then .ok [] else .error .jsonError
  | byte :: bytes =>
    let codep := codepoint state codep byte
    let state := Utf8.next state byte.toNat
    if state = 1 then .error .jsonError
    else do
      let rest ← dumpBytes state codep bytes
      .ok ((if state = 0 then escaped codep byte else [byte]) ++ rest)

def dumpEscaped (s : StdString) : Except Fault StdString := dumpBytes 0 0 s

def quoted (s : StdString) : Except Fault StdString := do
  let text ← dumpEscaped s
  .ok (utf8 "\"" ++ text ++ utf8 "\"")

def spaces (n : ℕ) : StdString := List.replicate n 0x20

variable (dumpFloat : ℚ → StdString)

mutual

/-- `dump(4)` inside an indentation; `dumpFloat` writes the fractions. -/
def dump (indent : ℕ) : YJson → Except Fault StdString
  | .null => .ok (utf8 "null")
  | .bool value => .ok (utf8 (if value then "true" else "false"))
  | .int value => .ok (utf8 (stdToString value))
  | .float value => .ok (dumpFloat value)
  | .str value => quoted value
  | .arr [] => .ok (utf8 "[]")
  | .arr (item :: items) => do
    let inner ← dumpItems (indent + 4) (item :: items)
    .ok (utf8 "[\n" ++ inner ++ utf8 "\n" ++ spaces indent ++ utf8 "]")
  | .obj [] => .ok (utf8 "\x7b\x7d")
  | .obj (member :: members) => do
    let inner ← dumpMembers (indent + 4) (member :: members)
    .ok (utf8 "\x7b\n" ++ inner ++ utf8 "\n" ++ spaces indent ++ utf8 "\x7d")

def dumpItems (indent : ℕ) : List YJson → Except Fault StdString
  | [] => .ok []
  | item :: items => do
    let text ← dump indent item
    let rest ← dumpItems indent items
    .ok (spaces indent ++ text ++ (if items.isEmpty then [] else utf8 ",\n") ++ rest)

def dumpMembers (indent : ℕ) : List (StdString × YJson) → Except Fault StdString
  | [] => .ok []
  | (key, value) :: members => do
    let name ← quoted key
    let text ← dump indent value
    let rest ← dumpMembers indent members
    .ok (spaces indent ++ name ++ utf8 ": " ++ text ++ (if members.isEmpty then [] else utf8 ",\n") ++ rest)

end

end Dump

mutual

def strings : YJson → List StdString
  | .str value => [value]
  | .arr items => itemStrings items
  | .obj members => memberStrings members
  | .null | .bool _ | .int _ | .float _ => []

def itemStrings : List YJson → List StdString
  | [] => []
  | item :: items => strings item ++ itemStrings items

def memberStrings : List (StdString × YJson) → List StdString
  | [] => []
  | (key, value) :: members => key :: (strings value ++ memberStrings members)

end

section Completes

variable (dumpFloat : ℚ → StdString)

theorem dumpBytes_completes (state : ℕ) (codep : UInt32) (s : StdString) :
    (∃ text, dumpBytes state codep s = .ok text) ↔ Utf8.reached state s = 0 := by
  induction s generalizing state codep with
  | nil =>
    rw [dumpBytes, Utf8.reached]
    split
    · rename_i accepted
      exact iff_of_true ⟨[], rfl⟩ accepted
    · rename_i incomplete
      refine iff_of_false ?_ incomplete
      rintro ⟨text, done⟩
      cases done
  | cons byte bytes ih =>
    rw [dumpBytes, Utf8.reached]
    split
    · rename_i rejected
      rw [rejected, Utf8.reached_rejected]
      refine iff_of_false ?_ Nat.one_ne_zero
      rintro ⟨text, done⟩
      cases done
    · rw [← ih (Utf8.next state byte.toNat) (codepoint state codep byte)]
      constructor
      · rintro ⟨text, done⟩
        obtain ⟨rest, read, _⟩ := bind_completes done
        exact ⟨rest, read⟩
      · rintro ⟨rest, read⟩
        rw [read]
        exact ⟨_, rfl⟩

theorem quoted_completes (s : StdString) : (∃ text, quoted s = .ok text) ↔ Utf8.Valid s := by
  rw [← Utf8.reached_zero_iff, ← dumpBytes_completes 0 0 s]
  constructor
  · rintro ⟨text, done⟩
    obtain ⟨inner, read, _⟩ := bind_completes done
    exact ⟨inner, read⟩
  · rintro ⟨inner, read⟩
    rw [quoted, dumpEscaped, read]
    exact ⟨_, rfl⟩

theorem bind_ok_completes {α β : Type} {first : Except Fault α} {f : α → β} :
    (∃ result, (first >>= fun value => .ok (f value)) = .ok result) ↔ ∃ value, first = .ok value := by
  constructor
  · rintro ⟨result, done⟩
    obtain ⟨value, read, _⟩ := bind_completes done
    exact ⟨value, read⟩
  · rintro ⟨value, read⟩
    rw [read]
    exact ⟨_, rfl⟩

mutual

/-- The serialisation throws exactly at a string that is no valid text. -/
theorem dump_completes (indent : ℕ) (j : YJson) :
    (∃ text, dump dumpFloat indent j = .ok text) ↔ ∀ s ∈ j.strings, Utf8.Valid s := by
  cases j with
  | null | bool value | int value | float value => exact iff_of_true ⟨_, rfl⟩ (by simp [strings])
  | str value =>
    rw [dump, quoted_completes, strings, List.forall_mem_singleton]
  | arr items =>
    cases items with
    | nil => exact iff_of_true ⟨_, rfl⟩ (by simp [strings, itemStrings])
    | cons item items =>
      rw [dump, bind_ok_completes, strings]
      exact dumpItems_completes (indent + 4) (item :: items)
  | obj members =>
    cases members with
    | nil => exact iff_of_true ⟨_, rfl⟩ (by simp [strings, memberStrings])
    | cons member members =>
      rw [dump, bind_ok_completes, strings]
      exact dumpMembers_completes (indent + 4) (member :: members)

theorem dumpItems_completes (indent : ℕ) (items : List YJson) :
    (∃ text, dumpItems dumpFloat indent items = .ok text) ↔ ∀ s ∈ itemStrings items, Utf8.Valid s := by
  cases items with
  | nil => exact iff_of_true ⟨_, rfl⟩ (by simp [itemStrings])
  | cons item items =>
    rw [itemStrings, List.forall_mem_append, ← dump_completes indent item, ← dumpItems_completes indent items,
      dumpItems]
    constructor
    · rintro ⟨text, done⟩
      obtain ⟨first, head, rest⟩ := bind_completes done
      exact ⟨⟨first, head⟩, bind_ok_completes.mp ⟨text, rest⟩⟩
    · rintro ⟨⟨first, head⟩, others, tail⟩
      rw [head, tail]
      exact ⟨_, rfl⟩

theorem dumpMembers_completes (indent : ℕ) (members : List (StdString × YJson)) :
    (∃ text, dumpMembers dumpFloat indent members = .ok text) ↔ ∀ s ∈ memberStrings members, Utf8.Valid s := by
  match members with
  | [] => exact iff_of_true ⟨_, rfl⟩ (by simp [memberStrings])
  | (key, value) :: members =>
    rw [memberStrings, List.forall_mem_cons, List.forall_mem_append, ← quoted_completes key,
      ← dump_completes indent value, ← dumpMembers_completes indent members, dumpMembers]
    constructor
    · rintro ⟨text, done⟩
      obtain ⟨name, named, done⟩ := bind_completes done
      obtain ⟨first, head, rest⟩ := bind_completes done
      exact ⟨⟨name, named⟩, ⟨first, head⟩, bind_ok_completes.mp ⟨text, rest⟩⟩
    · rintro ⟨⟨name, named⟩, ⟨first, head⟩, others, tail⟩
      rw [named, head, tail]
      exact ⟨_, rfl⟩

end

end Completes

end YJson

structure ShapeBytes where
  label : StdString
  points : List QPointF
  groupId : ℤ
  description : StdString
  shapeType : StdString
  flags : StdString
  mask : ℤ

structure RootBytes where
  version : StdString
  flags : StdString
  shapes : List ShapeBytes
  imagePath : StdString
  imageData : StdString
  imageHeight : StdString
  imageWidth : StdString

section ToYJson

def pointToYJson (j : YJson) (point : QPointF) : Except Fault YJson :=
  j.emplaceBack (.arr [.float point.x, .float point.y])

def ShapeBytes.toYJson (shape : ShapeBytes) : Except Fault YJson := do
  let points ← shape.points.foldlM pointToYJson .null
  .ok (.obj [(utf8 "label", .str shape.label), (utf8 "points", points), (utf8 "group_id", .int shape.groupId),
    (utf8 "description", .str shape.description), (utf8 "shape_type", .str shape.shapeType),
    (utf8 "flags", .str shape.flags), (utf8 "mask", .int shape.mask)])

def RootBytes.toYJson (root : RootBytes) : Except Fault YJson := do
  let shapes ← root.shapes.mapM ShapeBytes.toYJson
  let height ← root.imageHeight.stoi
  let width ← root.imageWidth.stoi
  .ok (.obj [(utf8 "version", .str root.version), (utf8 "flags", .str root.flags), (utf8 "shapes", .arr shapes),
    (utf8 "imagePath", .str root.imagePath), (utf8 "imageData", .str root.imageData),
    (utf8 "imageHeight", .int height), (utf8 "imageWidth", .int width)])

end ToYJson

abbrev FileSystem := StdString → Option StdString

namespace JsonManager

variable (dumpFloat : ℚ → StdString)

def serialise (root : RootBytes) : Except Fault StdString := do
  let j ← root.toYJson
  let text ← j.dump dumpFloat 0
  .ok (text ++ utf8 "\n")

/-- `writeJson`: the answer and the files. `opens` says whether the stream can be opened, which truncates the file. A
    stream that could not be opened drops what is written to it without a word. -/
def writeJson (files : FileSystem) (opens : Bool) (filename : StdString) (root : RootBytes) : Bool × FileSystem :=
  match root.toYJson with
  | .error _ => (false, files)
  | .ok j =>
    let files := if opens then Function.update files filename (some []) else files
    match j.dump dumpFloat 0 with
    | .error _ => (false, files)
    | .ok text => (true, if opens then Function.update files filename (some (text ++ utf8 "\n")) else files)

/-- The answer `true` comes with the serialisation in the file, the answer `false` with the file as it was. -/
def AllOrNothing (files : FileSystem) (opens : Bool) (filename : StdString) (root : RootBytes) : Prop :=
  ((writeJson dumpFloat files opens filename root).1 = true →
    ∃ text, serialise dumpFloat root = .ok text ∧
      (writeJson dumpFloat files opens filename root).2 filename = some text) ∧
  ((writeJson dumpFloat files opens filename root).1 = false →
    (writeJson dumpFloat files opens filename root).2 filename = files filename)

end JsonManager

namespace RootBytes

def Numeric (root : RootBytes) : Prop :=
  (∃ height, root.imageHeight.stoi = .ok height) ∧ ∃ width, root.imageWidth.stoi = .ok width

def texts (root : RootBytes) : List StdString :=
  [root.version, root.flags, root.imagePath, root.imageData] ++
    root.shapes.flatMap fun shape => [shape.label, shape.description, shape.shapeType, shape.flags]

/-- All strings of the root are UTF-8, the sizes apart, which are written as numbers. -/
def AllUtf8 (root : RootBytes) : Prop := ∀ s ∈ root.texts, Utf8.Valid s

end RootBytes

section Encoding

theorem utf8_valid (text : String) : Utf8.Valid (utf8 text) := ⟨text.toList, rfl⟩

def pointYJson (point : QPointF) : YJson := .arr [.float point.x, .float point.y]

def pointsYJson : List QPointF → YJson
  | [] => .null
  | points => .arr (points.map pointYJson)

theorem foldlM_pointToYJson (items : List YJson) (points : List QPointF) :
    points.foldlM pointToYJson (.arr items) = .ok (.arr (items ++ points.map pointYJson)) := by
  induction points generalizing items with
  | nil => simp [pure, Except.pure]
  | cons point points ih =>
    rw [List.foldlM_cons]
    change points.foldlM pointToYJson (.arr (items ++ [pointYJson point])) = _
    rw [ih, List.map_cons, List.append_assoc, List.singleton_append]

theorem foldlM_pointToYJson_null (points : List QPointF) :
    points.foldlM pointToYJson .null = .ok (pointsYJson points) := by
  cases points with
  | nil => rfl
  | cons point points =>
    rw [List.foldlM_cons]
    change points.foldlM pointToYJson (.arr [pointYJson point]) = _
    rw [foldlM_pointToYJson, List.singleton_append]
    rfl

def shapeYJson (shape : ShapeBytes) : YJson :=
  .obj [(utf8 "label", .str shape.label), (utf8 "points", pointsYJson shape.points),
    (utf8 "group_id", .int shape.groupId), (utf8 "description", .str shape.description),
    (utf8 "shape_type", .str shape.shapeType), (utf8 "flags", .str shape.flags), (utf8 "mask", .int shape.mask)]

def rootYJson (root : RootBytes) (height width : ℤ) : YJson :=
  .obj [(utf8 "version", .str root.version), (utf8 "flags", .str root.flags),
    (utf8 "shapes", .arr (root.shapes.map shapeYJson)), (utf8 "imagePath", .str root.imagePath),
    (utf8 "imageData", .str root.imageData), (utf8 "imageHeight", .int height), (utf8 "imageWidth", .int width)]

theorem mapM_shapeToYJson (shapes : List ShapeBytes) :
    shapes.mapM ShapeBytes.toYJson = .ok (shapes.map shapeYJson) := by
  have writes : ShapeBytes.toYJson = fun shape => (pure (shapeYJson shape) : Except Fault YJson) := by
    funext shape
    rw [ShapeBytes.toYJson, foldlM_pointToYJson_null]
    rfl
  rw [writes, List.mapM_pure]
  rfl

theorem rootToYJson_eq (root : RootBytes) :
    root.toYJson = root.imageHeight.stoi >>= fun height => root.imageWidth.stoi >>= fun width =>
      .ok (rootYJson root height width) := by
  rw [RootBytes.toYJson, mapM_shapeToYJson]
  rfl

theorem rootToYJson_completes {root : RootBytes} {j : YJson} (made : root.toYJson = .ok j) :
    ∃ height width, root.imageHeight.stoi = .ok height ∧ root.imageWidth.stoi = .ok width ∧
      j = rootYJson root height width := by
  rw [rootToYJson_eq] at made
  obtain ⟨height, heightRead, made⟩ := bind_completes made
  obtain ⟨width, widthRead, made⟩ := bind_completes made
  cases made
  exact ⟨height, width, heightRead, widthRead, rfl⟩

theorem rootToYJson_iff (root : RootBytes) : (∃ j, root.toYJson = .ok j) ↔ root.Numeric := by
  constructor
  · rintro ⟨j, made⟩
    obtain ⟨height, width, heightRead, widthRead, _⟩ := rootToYJson_completes made
    exact ⟨⟨height, heightRead⟩, width, widthRead⟩
  · rintro ⟨⟨height, heightRead⟩, width, widthRead⟩
    rw [rootToYJson_eq, heightRead, widthRead]
    exact ⟨_, rfl⟩

theorem pointsYJson_strings (points : List QPointF) : (pointsYJson points).strings = [] := by
  have items : ∀ points : List QPointF, YJson.itemStrings (points.map pointYJson) = [] := by
    intro points
    induction points with
    | nil => rfl
    | cons point points ih =>
      rw [List.map_cons, YJson.itemStrings, ih]
      rfl
  cases points with
  | nil => rfl
  | cons point points => exact items (point :: points)

theorem shapeYJson_strings (shape : ShapeBytes) :
    (∀ s ∈ (shapeYJson shape).strings, Utf8.Valid s) ↔
      ∀ s ∈ [shape.label, shape.description, shape.shapeType, shape.flags], Utf8.Valid s := by
  simp only [shapeYJson, YJson.strings, YJson.memberStrings, pointsYJson_strings, List.forall_mem_cons,
    List.forall_mem_append, utf8_valid, true_and]
  simp

theorem shapesYJson_strings (shapes : List ShapeBytes) :
    (∀ s ∈ YJson.itemStrings (shapes.map shapeYJson), Utf8.Valid s) ↔
      ∀ s ∈ shapes.flatMap fun shape => [shape.label, shape.description, shape.shapeType, shape.flags],
        Utf8.Valid s := by
  induction shapes with
  | nil => exact Iff.rfl
  | cons shape shapes ih =>
    rw [List.map_cons, YJson.itemStrings, List.flatMap_cons, List.forall_mem_append, List.forall_mem_append, ih,
      shapeYJson_strings]

theorem rootYJson_strings (root : RootBytes) (height width : ℤ) :
    (∀ s ∈ (rootYJson root height width).strings, Utf8.Valid s) ↔ root.AllUtf8 := by
  have shapes := shapesYJson_strings root.shapes
  simp only [RootBytes.AllUtf8, RootBytes.texts, rootYJson, YJson.strings, YJson.memberStrings, List.forall_mem_cons,
    List.forall_mem_append, utf8_valid, true_and, shapes]
  simp only [List.not_mem_nil, false_imp_iff, implies_true, and_true]
  tauto

end Encoding

namespace JsonManager

variable {dumpFloat : ℚ → StdString} {files : FileSystem} {opens : Bool} {filename : StdString} {root : RootBytes}

theorem writeJson_cases (dumpFloat : ℚ → StdString) (files : FileSystem) (opens : Bool) (filename : StdString)
    (root : RootBytes) :
    (¬ root.Numeric ∧ writeJson dumpFloat files opens filename root = (false, files)) ∨
    (root.Numeric ∧ root.AllUtf8 ∧ ∃ text, serialise dumpFloat root = .ok text ∧
      writeJson dumpFloat files opens filename root =
        (true, if opens then Function.update files filename (some text) else files)) ∨
    (root.Numeric ∧ ¬ root.AllUtf8 ∧ writeJson dumpFloat files opens filename root =
      (false, if opens then Function.update files filename (some []) else files)) := by
  rw [← rootToYJson_iff]
  unfold writeJson serialise
  cases made : root.toYJson with
  | error fault =>
    left
    refine ⟨?_, rfl⟩
    rintro ⟨j, done⟩
    cases done
  | ok j =>
    right
    obtain ⟨height, width, _, _, rfl⟩ := rootToYJson_completes made
    rw [← rootYJson_strings root height width, ← YJson.dump_completes dumpFloat 0]
    simp only
    cases dumped : YJson.dump dumpFloat 0 (rootYJson root height width) with
    | error fault =>
      right
      refine ⟨⟨_, rfl⟩, ?_, rfl⟩
      rintro ⟨text, done⟩
      cases done
    | ok text =>
      left
      refine ⟨⟨_, rfl⟩, ⟨text, rfl⟩, text ++ utf8 "\n", ?_, ?_⟩
      · simp only [Bind.bind, Except.bind, dumped]
      · cases opens with
        | true => simp
        | false => rfl

/-- A write keeps its promise exactly when, for a root with numeric sizes, one of UTF-8 strings meets a file that opens
    or holds the serialisation already, and one with another string does not open the file or finds it empty. -/
theorem all_or_nothing_iff (dumpFloat : ℚ → StdString) (files : FileSystem) (opens : Bool) (filename : StdString)
    (root : RootBytes) :
    AllOrNothing dumpFloat files opens filename root ↔
      (root.Numeric → root.AllUtf8 → opens = true ∨
        ∃ text, serialise dumpFloat root = .ok text ∧ files filename = some text) ∧
      (root.Numeric → ¬ root.AllUtf8 → opens = true → files filename = some []) := by
  unfold AllOrNothing
  rcases writeJson_cases dumpFloat files opens filename root with
    ⟨notNumeric, written⟩ | ⟨numeric, valid, text, serialised, written⟩ | ⟨numeric, invalid, written⟩
  · rw [written]
    simp [notNumeric]
  · rw [written, serialised]
    cases opens with
    | true => simp [valid]
    | false => simp [numeric, valid]
  · rw [written]
    cases opens with
    | true => simp [numeric, invalid, eq_comm]
    | false => simp [invalid]

def labelled (label : StdString) : RootBytes :=
  { version := utf8 "1.0.0", flags := [], shapes := [⟨label, [], 0, [], utf8 "polygon", [], 0⟩], imagePath := [],
    imageData := [], imageHeight := utf8 "12", imageWidth := utf8 "34" }

/-- A label that is no UTF-8 empties the file, and a file that cannot be opened is reported as written. -/
theorem write_half_done :
    (writeJson (fun _ => []) (fun _ => some (utf8 "old")) true (utf8 "a.json") (labelled [0xFF])).1 = false ∧
    (writeJson (fun _ => []) (fun _ => some (utf8 "old")) true (utf8 "a.json") (labelled [0xFF])).2 (utf8 "a.json") =
      some [] ∧
    ¬ AllOrNothing (fun _ => []) (fun _ => some (utf8 "old")) true (utf8 "a.json") (labelled [0xFF]) ∧
    (writeJson (fun _ => []) (fun _ => none) false (utf8 "a.json") (labelled (utf8 "cat"))).1 = true ∧
    ¬ AllOrNothing (fun _ => []) (fun _ => none) false (utf8 "a.json") (labelled (utf8 "cat")) := by
  have failed : (writeJson (fun _ => []) (fun _ => some (utf8 "old")) true (utf8 "a.json") (labelled [0xFF])).1 =
      false := by decide +kernel
  have emptied : (writeJson (fun _ => []) (fun _ => some (utf8 "old")) true (utf8 "a.json") (labelled [0xFF])).2
      (utf8 "a.json") = some [] := by decide +kernel
  have reported : (writeJson (fun _ => []) (fun _ => none) false (utf8 "a.json") (labelled (utf8 "cat"))).1 =
      true := by decide +kernel
  have absent : (writeJson (fun _ => []) (fun _ => none) false (utf8 "a.json") (labelled (utf8 "cat"))).2
      (utf8 "a.json") = none := by decide +kernel
  refine ⟨failed, emptied, ?_, reported, ?_⟩
  · intro kept
    have same := kept.2 failed
    rw [emptied] at same
    exact absurd same (by decide +kernel)
  · intro kept
    obtain ⟨text, _, holds⟩ := kept.1 reported
    rw [absent] at holds
    cases holds

end JsonManager

section Texts

def byteChars (c : Char) : List Char := StdString.chars (String.utf8EncodeChar c)

theorem byteChars_ascii {c : Char} (ascii : c.toNat < 0x80) : byteChars c = [c] := by
  have code : c.val.toNat ≤ 0x7f := Nat.le_of_lt_succ ascii
  have byte : (UInt8.ofNat c.val.toNat).toNat = c.toNat := by
    rw [UInt8.toNat_ofNat']
    exact Nat.mod_eq_of_lt (by omega)
  unfold byteChars StdString.chars String.utf8EncodeChar
  rw [if_pos code, List.map_singleton, byte, Char.ofNat_toNat]

theorem chars_beyond {s : StdString} (beyond : ∀ byte ∈ s, 0x80 ≤ byte.toNat) : ∀ d ∈ s.chars, 0x80 ≤ d.toNat := by
  intro d member
  obtain ⟨byte, listed, rfl⟩ := List.mem_map.mp member
  have valid : byte.toNat.isValidChar := .inl (Nat.lt_trans byte.toNat_lt (by decide))
  rw [Char.toNat_ofNat, if_pos valid]
  exact beyond byte listed

theorem byteChars_beyond {c : Char} (beyond : 0x80 ≤ c.toNat) :
    byteChars c ≠ [] ∧ ∀ d ∈ byteChars c, 0x80 ≤ d.toNat := by
  have code : ¬ c.val.toNat ≤ 0x7f := Nat.not_le_of_lt beyond
  unfold byteChars
  constructor
  · intro none
    unfold StdString.chars String.utf8EncodeChar at none
    rw [if_neg code] at none
    split at none
    · cases none
    · split at none <;> cases none
  · apply chars_beyond
    unfold String.utf8EncodeChar
    rw [if_neg code]
    split
    · simp only [List.forall_mem_cons, UInt8.toNat_ofNat', List.not_mem_nil, false_imp_iff, implies_true, and_true]
      omega
    · split
      · simp only [List.forall_mem_cons, UInt8.toNat_ofNat', List.not_mem_nil, false_imp_iff, implies_true, and_true]
        omega
      · simp only [List.forall_mem_cons, UInt8.toNat_ofNat', List.not_mem_nil, false_imp_iff, implies_true, and_true]
        omega

def AsciiOnly (test : Char → Bool) : Prop := ∀ c : Char, 0x80 ≤ c.toNat → test c = false

theorem takeWhile_byteChars {test : Char → Bool} (asciiOnly : AsciiOnly test) (cs : List Char) :
    (cs.flatMap byteChars).takeWhile test = cs.takeWhile test := by
  induction cs with
  | nil => rfl
  | cons c cs ih =>
    rw [List.flatMap_cons]
    by_cases ascii : c.toNat < 0x80
    · rw [byteChars_ascii ascii, List.singleton_append, List.takeWhile_cons, List.takeWhile_cons, ih]
    · obtain ⟨nonempty, all⟩ := byteChars_beyond (Nat.le_of_not_lt ascii)
      obtain ⟨d, ds, same⟩ := List.exists_cons_of_ne_nil nonempty
      have first := asciiOnly d (all d (by simp [same]))
      have whole := asciiOnly c (Nat.le_of_not_lt ascii)
      rw [same, List.cons_append, List.takeWhile_cons, List.takeWhile_cons, first, whole]
      rfl

theorem dropWhile_byteChars {test : Char → Bool} (asciiOnly : AsciiOnly test) (cs : List Char) :
    (cs.flatMap byteChars).dropWhile test = (cs.dropWhile test).flatMap byteChars := by
  induction cs with
  | nil => rfl
  | cons c cs ih =>
    by_cases ascii : c.toNat < 0x80
    · rw [List.flatMap_cons, byteChars_ascii ascii, List.singleton_append, List.dropWhile_cons, List.dropWhile_cons, ih]
      split
      · rfl
      · rw [List.flatMap_cons, byteChars_ascii ascii, List.singleton_append]
    · obtain ⟨nonempty, all⟩ := byteChars_beyond (Nat.le_of_not_lt ascii)
      obtain ⟨d, ds, same⟩ := List.exists_cons_of_ne_nil nonempty
      have first := asciiOnly d (all d (by simp [same]))
      have whole := asciiOnly c (Nat.le_of_not_lt ascii)
      rw [List.dropWhile_cons, whole]
      simp only [Bool.false_eq_true, if_false, List.flatMap_cons, same, List.cons_append]
      rw [List.dropWhile_cons, first]
      rfl

theorem isDigit_asciiOnly : AsciiOnly Char.isDigit := by
  intro c beyond
  have large : ¬ c.toNat ≤ 57 := by omega
  simp only [Char.isDigit, Bool.and_eq_false_iff, decide_eq_false_iff_not]
  exact .inr fun small => large (UInt32.le_iff_toNat_le.mp small)

theorem isBlank_asciiOnly : AsciiOnly isBlank := by
  intro c beyond
  have notSpace : c ≠ ' ' := by
    rintro rfl
    revert beyond
    decide
  simp only [isBlank, Bool.or_eq_false_iff, Bool.and_eq_false_iff, decide_eq_false_iff_not]
  exact ⟨notSpace, .inr (by omega)⟩

theorem stoiDigits_byteChars (sign : ℤ) (cs : List Char) :
    stoiDigits sign (cs.flatMap byteChars) = stoiDigits sign cs := by
  unfold stoiDigits
  rw [takeWhile_byteChars isDigit_asciiOnly]

def signed : List Char → Except Fault ℤ
  | '-' :: cs => stoiDigits (-1) cs
  | '+' :: cs => stoiDigits 1 cs
  | cs => stoiDigits 1 cs

theorem stoi_eq_signed (s : String) : XYAnnotation.stoi s = signed (s.toList.dropWhile isBlank) := rfl

theorem signed_other {c : Char} (minus : c ≠ '-') (plus : c ≠ '+') (cs : List Char) :
    signed (c :: cs) = stoiDigits 1 (c :: cs) := by
  unfold signed
  split
  · rename_i same
    exact absurd (List.cons.inj same).1 minus
  · rename_i same
    exact absurd (List.cons.inj same).1 plus
  · rfl

theorem signed_byteChars (cs : List Char) : signed (cs.flatMap byteChars) = signed cs := by
  cases cs with
  | nil => rfl
  | cons c cs =>
    have digits := stoiDigits_byteChars 1 (c :: cs)
    by_cases ascii : c.toNat < 0x80
    · rw [List.flatMap_cons, byteChars_ascii ascii, List.singleton_append] at digits ⊢
      by_cases minus : c = '-'
      · rw [minus]
        exact stoiDigits_byteChars (-1) cs
      · by_cases plus : c = '+'
        · rw [plus]
          exact stoiDigits_byteChars 1 cs
        · rw [signed_other minus plus, signed_other minus plus, digits]
    · have notSign : ∀ d : Char, 0x80 ≤ d.toNat → d ≠ '-' ∧ d ≠ '+' := by
        intro d beyond
        constructor <;> rintro rfl <;> revert beyond <;> decide
      obtain ⟨nonempty, all⟩ := byteChars_beyond (Nat.le_of_not_lt ascii)
      obtain ⟨d, ds, same⟩ := List.exists_cons_of_ne_nil nonempty
      obtain ⟨minus, plus⟩ := notSign d (all d (by simp [same]))
      obtain ⟨minus', plus'⟩ := notSign c (Nat.le_of_not_lt ascii)
      rw [List.flatMap_cons, same, List.cons_append] at digits ⊢
      rw [signed_other minus plus, signed_other minus' plus', digits]

theorem stoi_utf8 (text : String) : (utf8 text).stoi = stoi text := by
  have bytes : (utf8 text).chars = text.toList.flatMap byteChars := List.map_flatMap
  rw [StdString.stoi, stoi_eq_signed, stoi_eq_signed, String.toList_ofList, bytes, dropWhile_byteChars isBlank_asciiOnly,
    signed_byteChars]

end Texts

section Bytes

mutual

def Json.bytes : Json → YJson
  | .null => .null
  | .bool value => .bool value
  | .int value => .int value
  | .float value => .float value
  | .str value => .str (utf8 value)
  | .arr items => .arr (itemBytes items)
  | .obj members => .obj (memberBytes members)

def itemBytes : List Json → List YJson
  | [] => []
  | item :: items => item.bytes :: itemBytes items

def memberBytes : List (String × Json) → List (StdString × YJson)
  | [] => []
  | (key, value) :: members => (utf8 key, value.bytes) :: memberBytes members

end

def ShapeS.bytes (shape : ShapeS) : ShapeBytes :=
  { label := utf8 shape.label, points := shape.points, groupId := shape.groupId,
    description := utf8 shape.description, shapeType := utf8 shape.shapeType, flags := utf8 shape.flags,
    mask := shape.mask }

def RootS.bytes (root : RootS) : RootBytes :=
  { version := utf8 root.version, flags := utf8 root.flags, shapes := root.shapes.map ShapeS.bytes,
    imagePath := utf8 root.imagePath, imageData := utf8 root.imageData, imageHeight := utf8 root.imageHeight,
    imageWidth := utf8 root.imageWidth }

theorem itemBytes_eq (items : List Json) : itemBytes items = items.map Json.bytes := by
  induction items with
  | nil => rfl
  | cons item items ih => rw [itemBytes, ih, List.map_cons]

theorem pointsJson_bytes (points : List QPointF) : (pointsJson points).bytes = pointsYJson points := by
  cases points with
  | nil => rfl
  | cons point points =>
    change YJson.arr (itemBytes ((point :: points).map pointJson)) = YJson.arr ((point :: points).map pointYJson)
    rw [itemBytes_eq, List.map_map]
    rfl

theorem shapeJson_bytes (shape : ShapeS) : (shapeJson shape).bytes = shapeYJson shape.bytes := by
  have points := pointsJson_bytes shape.points
  simp only [shapeJson, shapeYJson, Json.bytes, memberBytes, ShapeS.bytes, points]

theorem rootJson_bytes (root : RootS) (height width : ℤ) :
    (rootJson root height width).bytes = rootYJson root.bytes height width := by
  have shapes : itemBytes (root.shapes.map shapeJson) = (root.shapes.map ShapeS.bytes).map shapeYJson := by
    rw [itemBytes_eq, List.map_map, List.map_map]
    exact List.map_congr_left fun shape _ => shapeJson_bytes shape
  simp only [rootJson, rootYJson, Json.bytes, memberBytes, RootS.bytes, shapes]

theorem bytes_allUtf8 (root : RootS) : root.bytes.AllUtf8 := by
  intro s member
  rcases List.mem_append.mp member with header | shape
  · simp only [RootS.bytes, List.mem_cons, List.not_mem_nil, or_false] at header
    rcases header with rfl | rfl | rfl | rfl <;> exact utf8_valid _
  · obtain ⟨bytes, listed, text⟩ := List.mem_flatMap.mp shape
    obtain ⟨shape, _, rfl⟩ := List.mem_map.mp listed
    simp only [ShapeS.bytes, List.mem_cons, List.not_mem_nil, or_false] at text
    rcases text with rfl | rfl | rfl | rfl <;> exact utf8_valid _

/-- On texts, and with a file that opens, the bytes that are written are those of the document. -/
theorem writeJson_bytes (dumpFloat : ℚ → StdString) (files : FileSystem) (filename : StdString) (root : RootS) :
    (∃ document text, writeJson root = some document ∧ document.bytes.dump dumpFloat 0 = .ok text ∧
      JsonManager.writeJson dumpFloat files true filename root.bytes =
        (true, Function.update files filename (some (text ++ utf8 "\n")))) ∨
    (writeJson root = none ∧ JsonManager.writeJson dumpFloat files true filename root.bytes = (false, files)) := by
  rcases JsonManager.writeJson_cases dumpFloat files true filename root.bytes with
    ⟨notNumeric, written⟩ | ⟨⟨⟨height, heightRead⟩, width, widthRead⟩, _, content, serialised, written⟩ | ⟨_, invalid, _⟩
  · right
    refine ⟨?_, written⟩
    cases made : rootToJson root with
    | error fault => rw [writeJson, made]
    | ok document =>
      obtain ⟨_, _, made⟩ := bind_completes made
      obtain ⟨height, heightRead, made⟩ := bind_completes made
      obtain ⟨width, widthRead, _⟩ := bind_completes made
      rw [← stoi_utf8] at heightRead widthRead
      exact absurd ⟨⟨height, heightRead⟩, width, widthRead⟩ notNumeric
  · left
    obtain ⟨j, made, serialised⟩ := bind_completes serialised
    obtain ⟨text, dumped, serialised⟩ := bind_completes serialised
    cases serialised
    obtain ⟨height, width, heightRead, widthRead, rfl⟩ := rootToYJson_completes made
    rw [← rootJson_bytes] at dumped
    refine ⟨rootJson root height width, text, ?_, dumped, written⟩
    change (utf8 root.imageHeight).stoi = .ok height at heightRead
    change (utf8 root.imageWidth).stoi = .ok width at widthRead
    rw [stoi_utf8] at heightRead widthRead
    rw [writeJson, rootToJson_eq heightRead widthRead]
  · exact absurd (bytes_allUtf8 root) invalid

end Bytes

end XYAnnotation

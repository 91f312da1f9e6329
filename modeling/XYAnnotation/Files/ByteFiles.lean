import XYAnnotation.Files.Accepted
import XYAnnotation.Files.CutShort
import XYAnnotation.Files.OpenSave

namespace XYAnnotation

open Library StdString

section Decode

def StdString.text (s : StdString) : Option String := String.fromUTF8? s.toByteArray

theorem text_utf8 (text : String) : (utf8 text).text = some text := by
  have bytes : (utf8 text).toByteArray = text.toByteArray := String.utf8Encode_toList
  have valid : (utf8 text).toByteArray.IsValidUTF8 := ⟨text.toList, rfl⟩
  rw [StdString.text, String.fromUTF8?, dif_pos valid]
  exact congrArg some (String.toByteArray_inj.mp bytes)

theorem utf8_injective : Function.Injective utf8 := by
  intro first second same
  exact Option.some.inj ((text_utf8 first).symm.trans ((congrArg StdString.text same).trans (text_utf8 second)))

mutual

def YJson.decode : YJson → Option Json
  | .null => some .null
  | .bool value => some (.bool value)
  | .int value => some (.int value)
  | .float value => some (.float value)
  | .str s => s.text.map .str
  | .arr items => (decodeItems items).map .arr
  | .obj members => (decodeMembers members).map .obj

def decodeItems : List YJson → Option (List Json)
  | [] => some []
  | item :: items => do
    let item ← item.decode
    let items ← decodeItems items
    some (item :: items)

def decodeMembers : List (StdString × YJson) → Option (List (String × Json))
  | [] => some []
  | (key, value) :: members => do
    let key ← key.text
    let value ← value.decode
    let members ← decodeMembers members
    some ((key, value) :: members)

end

mutual

theorem decode_bytes (j : Json) : j.bytes.decode = some j := by
  cases j with
  | null | bool | int | float => rfl
  | str s => rw [Json.bytes, YJson.decode, text_utf8, Option.map_some]
  | arr items => rw [Json.bytes, YJson.decode, decodeItems_bytes items, Option.map_some]
  | obj members => rw [Json.bytes, YJson.decode, decodeMembers_bytes members, Option.map_some]

theorem decodeItems_bytes (items : List Json) : decodeItems (itemBytes items) = some items := by
  match items with
  | [] => rfl
  | item :: items =>
    rw [itemBytes, decodeItems, decode_bytes item, decodeItems_bytes items]
    rfl

theorem decodeMembers_bytes (members : List (String × Json)) : decodeMembers (memberBytes members) = some members := by
  match members with
  | [] => rfl
  | (key, value) :: members =>
    rw [memberBytes, decodeMembers, text_utf8, decode_bytes value, decodeMembers_bytes members]
    rfl

end

end Decode

section Written

variable {dumpFloat : ℚ → StdString} {strtod : StdString → Option ℚ}

/-- The numbers of the root are values of `int` and `double`. -/
def RootS.Storable (dumpFloat : ℚ → StdString) (strtod : StdString → Option ℚ) (root : RootS) : Prop :=
  ∀ shape ∈ root.shapes, IsInt shape.groupId ∧ IsInt shape.mask ∧
    ∀ point ∈ shape.points, Parser.FloatText dumpFloat strtod point.x ∧ Parser.FloatText dumpFloat strtod point.y

instance (dumpFloat : ℚ → StdString) (strtod : StdString → Option ℚ) (root : RootS) :
    Decidable (root.Storable dumpFloat strtod) :=
  inferInstanceAs (Decidable (∀ shape ∈ root.shapes, IsInt shape.groupId ∧ IsInt shape.mask ∧
    ∀ point ∈ shape.points, Parser.FloatText dumpFloat strtod point.x ∧ Parser.FloatText dumpFloat strtod point.y))

theorem int_wellFormed {n : ℤ} (range : IsInt n) {fits : ℚ → Prop} : (YJson.int n).WellFormed fits := by
  obtain ⟨low, high⟩ := range
  exact ⟨by omega, by omega⟩

theorem text_wellFormed (text : String) {fits : ℚ → Prop} : (YJson.str (utf8 text)).WellFormed fits := utf8_valid text

theorem pointsYJson_wellFormed {fits : ℚ → Prop} {points : List QPointF}
    (doubles : ∀ point ∈ points, fits point.x ∧ fits point.y) : (pointsYJson points).WellFormed fits := by
  cases points with
  | nil => trivial
  | cons point points =>
    refine YJson.wellFormedItems_iff.mpr fun item member => ?_
    obtain ⟨point, listed, rfl⟩ := List.mem_map.mp member
    obtain ⟨x, y⟩ := doubles point listed
    exact ⟨x, y, trivial⟩

theorem shapeKeys_nodup : (["label", "points", "group_id", "description", "shape_type", "flags", "mask"].map utf8).Nodup :=
  List.Nodup.map utf8_injective (by decide)

theorem rootKeys_nodup :
    (["version", "flags", "shapes", "imagePath", "imageData", "imageHeight", "imageWidth"].map utf8).Nodup :=
  List.Nodup.map utf8_injective (by decide)

theorem rootJson_wellFormed {root : RootS} (storable : root.Storable dumpFloat strtod) {height width : ℤ}
    (heightInt : IsInt height) (widthInt : IsInt width) :
    (rootJson root height width).bytes.WellFormed (Parser.FloatText dumpFloat strtod) := by
  rw [rootJson_bytes]
  have shapes : (YJson.arr (root.bytes.shapes.map shapeYJson)).WellFormed (Parser.FloatText dumpFloat strtod) := by
    refine YJson.wellFormedItems_iff.mpr fun item member => ?_
    obtain ⟨bytes, listed, rfl⟩ := List.mem_map.mp member
    obtain ⟨shape, inside, rfl⟩ := List.mem_map.mp listed
    obtain ⟨groupId, mask, doubles⟩ := storable shape inside
    exact ⟨shapeKeys_nodup, utf8_valid _, text_wellFormed _, utf8_valid _, pointsYJson_wellFormed doubles, utf8_valid _,
      int_wellFormed groupId, utf8_valid _, text_wellFormed _, utf8_valid _, text_wellFormed _, utf8_valid _,
      text_wellFormed _, utf8_valid _, int_wellFormed mask, trivial⟩
  exact ⟨rootKeys_nodup, utf8_valid _, text_wellFormed _, utf8_valid _, text_wellFormed _, utf8_valid _, shapes,
    utf8_valid _, text_wellFormed _, utf8_valid _, text_wellFormed _, utf8_valid _, int_wellFormed heightInt,
    utf8_valid _, int_wellFormed widthInt, trivial⟩

end Written

section Documents

variable (dumpFloat : ℚ → StdString) (strtod : StdString → Option ℚ)

def document (text : StdString) : Option Json :=
  match Parser.parse strtod text with
  | .ok j => j.decode
  | .error _ => none

def diskOf (files : FileSystem) : Disk := fun location => (files (utf8 location)).bind (document strtod)

/-- `readJson`: a missing file is an empty stream, which holds no document. -/
def JsonManager.readJson (files : FileSystem) (filename : StdString) (root : RootS) : Except Fault (Bool × RootS) :=
  XYAnnotation.readJson ((files filename).bind (document strtod)) root

variable {dumpFloat strtod}

theorem endsNumber_newline : Lexer.EndsNumber (utf8 "\n") := Parser.endsNumber_of_other rfl (by decide) rfl []

theorem writeJson_some {root : RootS} {found : Json} (written : writeJson root = some found) :
    ∃ height width, IsInt height ∧ IsInt width ∧ found = rootJson root height width := by
  cases made : rootToJson root with
  | error fault =>
    rw [writeJson, made] at written
    cases written
  | ok j =>
    rw [writeJson, made] at written
    cases written
    obtain ⟨_, _, rest⟩ := bind_completes made
    obtain ⟨height, heightRead, rest⟩ := bind_completes rest
    obtain ⟨width, widthRead, _⟩ := bind_completes rest
    refine ⟨height, width, stoi_isInt heightRead, stoi_isInt widthRead, ?_⟩
    exact Except.ok.inj (made.symm.trans (rootToJson_eq heightRead widthRead))

theorem document_written {root : RootS} (storable : root.Storable dumpFloat strtod) {found : Json}
    (written : writeJson root = some found) {text : StdString} (dumped : found.bytes.dump dumpFloat 0 = .ok text)
    {rest : StdString} (ends : Lexer.EndsNumber rest) : document strtod (text ++ rest) = some found := by
  obtain ⟨height, width, heightInt, widthInt, rfl⟩ := writeJson_some written
  obtain ⟨text', dumped', parsed⟩ := Parser.parse_dump (rootJson_wellFormed storable heightInt widthInt)
  obtain rfl := Except.ok.inj (dumped.symm.trans dumped')
  rw [document, parsed rest ends]
  exact decode_bytes _

theorem document_cut {root : RootS} (storable : root.Storable dumpFloat strtod) {found : Json}
    (written : writeJson root = some found) {short missing : StdString}
    (dumped : found.bytes.dump dumpFloat 0 = .ok (short ++ missing)) (lost : missing ≠ []) :
    document strtod short = none := by
  obtain ⟨height, width, heightInt, widthInt, rfl⟩ := writeJson_some written
  have rejected := Parser.prefix_rejected rfl (rootJson_wellFormed storable heightInt widthInt) dumped rfl lost
  rw [document]
  cases parsed : Parser.parse strtod short with
  | error fault => rfl
  | ok j => exact absurd parsed (rejected j)

theorem diskOf_update (files : FileSystem) (location : String) (text : StdString) :
    diskOf strtod (Function.update files (utf8 location) (some text)) =
      Function.update (diskOf strtod files) location (document strtod text) := by
  funext other
  by_cases same : other = location
  · subst same
    simp [diskOf]
  · simp [diskOf, same, utf8_injective.eq_iff]

/-- Storing a root on the disk of documents is writing its bytes. -/
theorem diskOf_writeJson (p : Platform) (files : FileSystem) (filename : String) {root : RootS}
    (storable : root.Storable dumpFloat strtod) :
    diskOf strtod (JsonManager.writeJson dumpFloat files true (utf8 (p.location filename)) root.bytes).2 =
      Window.store p (diskOf strtod files) filename root := by
  rcases writeJson_bytes dumpFloat files (utf8 (p.location filename)) root with
    ⟨found, text, made, dumped, written⟩ | ⟨unmade, written⟩
  · rw [written, diskOf_update, document_written storable made dumped endsNumber_newline, Window.store, made]
  · rw [written, Window.store, unmade]

/-- A file that was cut off behind the closing brace is read in full, and one that was cut off before it not at all: then
    what was to be read stays as it was. -/
theorem cut_file_all_or_nothing (dumpFloat : ℚ → StdString) (strtod : StdString → Option ℚ) (files : FileSystem)
    (filename : StdString) (root : RootS) (storable : root.Storable dumpFloat strtod) (height width : ℤ)
    (sized : root.Sized height width) :
    ∃ written, JsonManager.writeJson dumpFloat files true filename root.bytes =
        (true, Function.update files filename (some written)) ∧
      ∀ short, short <+: written →
        (written.length ≤ short.length + 1 →
          JsonManager.readJson strtod (Function.update files filename (some short)) filename .empty =
            .ok (true, root.reread)) ∧
        (short.length + 1 < written.length → ∀ before,
          JsonManager.readJson strtod (Function.update files filename (some short)) filename before =
            .ok (false, before)) := by
  obtain ⟨found, made, read⟩ := readJson_writeJson sized
  rcases writeJson_bytes dumpFloat files filename root with ⟨found', text, made', dumped, written⟩ | ⟨unmade, -⟩
  · obtain rfl := Option.some.inj (made.symm.trans made')
    refine ⟨text ++ utf8 "\n", written, fun short cut => ?_⟩
    have newline : utf8 "\n" = [0x0A] := rfl
    rw [newline] at cut ⊢
    simp only [JsonManager.readJson, Function.update_self, Option.bind_some]
    rcases List.prefix_concat_iff.mp cut with rfl | ⟨missing, rfl⟩
    · rw [← newline, document_written storable made dumped endsNumber_newline]
      exact ⟨fun _ => read, fun shorter => absurd shorter (by omega)⟩
    · cases missing with
      | nil =>
        rw [List.append_nil] at dumped ⊢
        have whole := document_written storable made dumped Lexer.endsNumber_nil
        rw [List.append_nil] at whole
        have last : (short ++ [0x0A]).length ≤ short.length + 1 := List.length_append.le
        rw [whole]
        exact ⟨fun _ => read, fun shorter => absurd last (not_le.mpr shorter)⟩
      | cons byte missing =>
        have longer : ¬ (short ++ byte :: missing ++ [0x0A]).length ≤ short.length + 1 := by
          simp only [List.length_append, List.length_cons, List.length_nil]
          omega
        rw [document_cut storable made dumped (List.cons_ne_nil _ _)]
        exact ⟨fun shorter => absurd shorter longer, fun _ _ => rfl⟩
  · rw [made] at unmade
    cases unmade

def wholeText (x : ℚ) : StdString := utf8 (stdToString ⌊x⌋ ++ ".0")

def wholeValue (text : StdString) : Option ℚ := text.stoi.toOption.map fun n => (n : ℚ)

def oneLine : RootS :=
  { savedHeader with shapes := [⟨"cät", [⟨3, -4⟩, ⟨10, 0⟩], 2, "ear", "line", "", 0⟩] }

theorem oneLine_cut :
    ∃ written, JsonManager.writeJson wholeText (fun _ => none) true (utf8 "a.json") oneLine.bytes =
        (true, Function.update (fun _ => none) (utf8 "a.json") (some written)) ∧
      ∀ short, short <+: written →
        (written.length ≤ short.length + 1 →
          JsonManager.readJson wholeValue (Function.update (fun _ => none) (utf8 "a.json") (some short)) (utf8 "a.json")
            .empty = .ok (true, oneLine.reread)) ∧
        (short.length + 1 < written.length → ∀ before,
          JsonManager.readJson wholeValue (Function.update (fun _ => none) (utf8 "a.json") (some short)) (utf8 "a.json")
            before = .ok (false, before)) :=
  cut_file_all_or_nothing wholeText wholeValue (fun _ => none) (utf8 "a.json") oneLine (by decide +kernel) 12 (-34)
    ⟨savedHeader_sized.heightText, savedHeader_sized.widthText, savedHeader_sized.heightInt, savedHeader_sized.widthInt⟩

end Documents

end XYAnnotation

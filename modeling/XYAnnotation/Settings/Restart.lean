import XYAnnotation.Settings.IniRoundTrip
import XYAnnotation.Settings.WindowGeometry

namespace XYAnnotation

open Library IniNode IniEntry Loading

section Text

variable {text : String}

theorem clean_lines (text : String) : ∀ line ∈ pieces '\n' (cString text), '\n' ∉ line ∧ '\x00' ∉ line := by
  intro line member
  refine ⟨mark_not_mem_pieces line member, fun nul => ?_⟩
  have inside := List.mem_takeWhile_imp (mem_of_mem_pieces member nul)
  simp at inside

/-- A tree that a file can hold. -/
structure Printable (root : IniNode) : Prop where
  type : root.type = .root
  blocks : ∀ node ∈ root.children, IsBlock node

/-- A tree as `LoadFromMem` builds it and `SetValue` keeps it in a section. -/
structure Regular (root : IniNode) : Prop extends Printable root where
  sorted : Sorted root.children

theorem regular_loadFromMem (text : String) : Regular (loadFromMem (cString text)) where
  type := rfl
  blocks := isBlock_load (clean_lines text)
  sorted := sorted_load (clean_lines text)

theorem entries_loadFromMem (text : String) :
    entries (loadFromMem (cString text)).children = readEntries (cString text) := entries_load (clean_lines text)

theorem getValue_loadFromFile (config : IniParser) (text key label : String) :
    (config.loadFromFile (some text)).getValue key label = lookup (readEntries (cString text)) key label := by
  rw [IniParser.getValue_eq_read, IniParser.loadFromFile, Option.getD_some,
    read_eq_lookup (regular_loadFromMem text).sorted, entries_loadFromMem]

end Text

namespace Printable

variable {root : IniNode} (printable : Printable root)

include printable

theorem dump_eq : IniParser.dump ⟨some root⟩ = dumpStrings [] root.children := by
  have start : dumpString [] root = dumpStrings [] root.children := by
    rw [dumpString_eq, printable.type]
    rfl
  exact start

theorem cString_dump :
    cString (String.ofList (IniParser.dump ⟨some root⟩)) = IniParser.dump ⟨some root⟩ := by
  rw [cString_of_noNul, String.toList_ofList]
  rw [String.toList_ofList, printable.dump_eq]
  exact nul_not_mem_dump printable.blocks List.not_mem_nil

theorem readEntries_dump :
    readEntries (IniParser.dump ⟨some root⟩) = entries root.children := by
  rw [printable.dump_eq, IniNode.readEntries_dump printable.blocks]
  rfl

end Printable

section Printed

/-- The line that stands in the saved file for a line of the loaded one. -/
def printedLine (line : List Char) : Option (List Char) :=
  match readLine line with
  | .blank => some []
  | .remark => some line
  | .malformed => none
  | .sectionHead label comment => some (headText label comment)
  | .keyValue key value comment => some (pairText key value comment)

variable {line : List Char} (noEnd : '\n' ∉ line) (noNul : '\x00' ∉ line)

include noEnd noNul

theorem pieces_printLine (str : List Char) :
    pieces '\n' (printLine str line) = pieces '\n' str ++ (printedLine line).toList := by
  have fields := readLine_fits noEnd noNul
  unfold printLine printedLine
  cases read : readLine line with
  | blank =>
    have noEnd : '\n' ∉ ([] : List Char) := List.not_mem_nil
    exact pieces_write_marked noEnd str
  | remark => exact pieces_write_marked noEnd str
  | malformed => simp
  | sectionHead label comment =>
    rw [read] at fields
    exact pieces_write (end_not_mem_headText fields.1 fields.2) headText_ne_nil str
  | keyValue key value comment =>
    rw [read] at fields
    exact pieces_write (end_not_mem_pairText fields.1 fields.2.1 fields.2.2) pairText_ne_nil str

theorem printLine_printedLine (str : List Char) :
    (printedLine line).toList.foldl printLine str = printLine str line := by
  have fields := readLine_fits noEnd noNul
  unfold printedLine
  cases read : readLine line with
  | blank =>
    have again : readLine [] = .blank := rfl
    simp [printLine, read, again]
  | remark => simp
  | malformed => simp [printLine, read]
  | sectionHead label comment =>
    rw [read] at fields
    simp [printLine, read, readLine_headText fields.1 fields.2]
  | keyValue key value comment =>
    rw [read] at fields
    simp [printLine, read, readLine_pairText fields.1 fields.2.1 fields.2.2]

end Printed

section Saved

variable {lines : List (List Char)} (clean : ∀ line ∈ lines, '\n' ∉ line ∧ '\x00' ∉ line)

include clean

theorem pieces_printed (str : List Char) :
    pieces '\n' (lines.foldl printLine str) = pieces '\n' str ++ lines.filterMap printedLine := by
  induction lines generalizing str with
  | nil => simp
  | cons line lines ih =>
    have first := clean line List.mem_cons_self
    rw [List.foldl_cons, ih (fun line member => clean line (List.mem_cons_of_mem _ member)),
      pieces_printLine first.1 first.2, List.append_assoc]
    cases printed : printedLine line with
    | none => simp [printed]
    | some text => simp [printed]

theorem foldl_printed (str : List Char) :
    (lines.filterMap printedLine).foldl printLine str = lines.foldl printLine str := by
  induction lines generalizing str with
  | nil => rfl
  | cons line lines ih =>
    have first := clean line List.mem_cons_self
    have rest := ih fun line member => clean line (List.mem_cons_of_mem _ member)
    rw [List.foldl_cons, ← printLine_printedLine first.1 first.2 str, ← rest]
    cases printed : printedLine line with
    | none => simp [printed]
    | some text => simp [printed]

end Saved

theorem dump_loadFromMem (text : String) : IniParser.dump ⟨some (loadFromMem (cString text))⟩ =
    (pieces '\n' (cString text)).foldl printLine [] := by
  rw [(regular_loadFromMem text).dump_eq]
  exact dump_load (clean_lines text)

theorem dump_reloaded (text : String) :
    let config : IniParser := ⟨some (loadFromMem (cString text))⟩
    IniParser.dump ⟨some (loadFromMem config.dump)⟩ = config.dump := by
  intro config
  have whole := (regular_loadFromMem text).cString_dump
  have lines : pieces '\n' config.dump = (pieces '\n' (cString text)).filterMap printedLine := by
    rw [dump_loadFromMem, pieces_printed (clean_lines text)]
    rfl
  rw [← whole, dump_loadFromMem, whole, lines, foldl_printed (clean_lines text), dump_loadFromMem]

/-- Each line of a saved file stands for a line of the loaded one, in the same order. Remarks stay as they are, a line of
    blanks is written as an empty one, only lines that are no part of the format are gone, and once a file was saved so,
    loading and saving it again leaves it as it is. -/
theorem save_loadFromFile (config : IniParser) (text : String) :
    let loaded := config.loadFromFile (some text)
    let file := loaded.save (some text) true
    pieces '\n' loaded.dump = (pieces '\n' (cString text)).filterMap printedLine ∧
      (loaded.loadFromFile file).save file true = file := by
  intro loaded file
  constructor
  · have printed : loaded.dump = _ := dump_loadFromMem text
    rw [printed, pieces_printed (clean_lines text)]
    rfl
  · have saved : file = if loaded.dump = [] then some text else some (String.ofList loaded.dump) := by
      simp [file, IniParser.save]
    by_cases empty : loaded.dump = []
    · rw [saved, if_pos empty]
      exact if_pos empty
    · have whole : cString (String.ofList loaded.dump) = loaded.dump := (regular_loadFromMem text).cString_dump
      have again : IniParser.dump ⟨some (loadFromMem loaded.dump)⟩ = loaded.dump := dump_reloaded text
      rw [saved, if_neg empty, IniParser.loadFromFile, whole, IniParser.save, again, if_neg empty, if_pos rfl]

section Stored

variable {root node : IniNode} {key value label : String}

theorem IsPair.set {pair : IniNode} (isPair : pair.IsPair) (plain : Plain value.toList) :
    IniNode.IsPair { pair with value := value } := ⟨isPair.type, isPair.key, plain, isPair.comment⟩

theorem isPair_fresh (isKey : IsKey key.toList) (plain : Plain value.toList) :
    IniNode.IsPair { fresh key .keyValue with value := value } :=
  ⟨rfl, isKey, plain, [], ⟨.inl rfl, by simp, by simp⟩, rfl⟩

theorem isSection_fresh (plain : Plain label.toList) : (fresh label .sectionHead).IsSection :=
  ⟨rfl, plain, [], [], ⟨.inl rfl, by simp, by simp⟩, by simp, rfl⟩

theorem spans_not_named {comment : List Char} : ∀ node ∈ spans comment, named key .keyValue node = false := by
  intro node member
  unfold spans at member
  split at member
  · cases member
  · rw [List.mem_singleton.mp member, named]
    simp

theorem IsSection.setKey (head : node.IsSection) (isKey : IsKey key.toList) (plain : Plain value.toList) :
    (node.setKey key value).IsSection := by
  obtain ⟨comment, items, isComment, isItems, children⟩ := head.children
  have stored : (node.setKey key value).children = spans comment ++
      updateFirst (named key .keyValue) (fresh key .keyValue) (fun pair => { pair with value := value }) items := by
    rw [IniNode.setKey, update, children, updateFirst_append spans_not_named]
  refine ⟨head.type, head.label, comment, _, isComment, ?_, stored⟩
  intro item member
  rcases mem_updateFirst member with member | ⟨pair, source, rfl⟩
  · exact isItems item member
  · rcases source with ⟨found, fits⟩ | rfl
    · rcases isItems pair found with isPair | isDiv
      · exact .inl (IsPair.set isPair plain)
      · have type := (named_iff.mp fits).1
        rw [isDiv.type] at type
        cases type
    · exact .inl (isPair_fresh isKey plain)

theorem Regular.setValue (regular : Regular root) (nonempty : label ≠ "") (isLabel : Plain label.toList)
    (isKey : IsKey key.toList) (plain : Plain value.toList) :
    ∃ changed, IniParser.setValue ⟨some root⟩ key value label = ⟨some changed⟩ ∧ Regular changed ∧
      IniEntry.head label ∈ entries changed.children := by
  have kept (node : IniNode) (fits : named label .sectionHead node = true) :
      named label .sectionHead (node.setKey key value) = true := fits
  refine ⟨root.update label .sectionHead fun node => node.setKey key value, ?_, ⟨⟨regular.type, ?_⟩, ?_⟩, ?_⟩
  · rw [IniParser.setValue, Option.getD_some, if_neg nonempty]
  · intro node member
    rcases mem_updateFirst member with member | ⟨head, source, rfl⟩
    · exact regular.blocks node member
    · rcases source with ⟨found, fits⟩ | rfl
      · rcases regular.blocks head found with item | isSection
        · exact absurd (named_iff.mp fits).1 item.type_ne
        · exact .inr (IsSection.setKey isSection isKey plain)
      · exact .inr (IsSection.setKey (isSection_fresh isLabel) isKey plain)
  · have type (node : IniNode) (_ : named label .sectionHead node = true) :
        (node.setKey key value).type = node.type := rfl
    rcases map_updateFirst type root.children with same | new
    · rw [Sorted, update, same]
      exact regular.sorted
    · rw [Sorted, update, new, List.pairwise_append]
      refine ⟨regular.sorted, List.pairwise_singleton _ _, ?_⟩
      intro type _ other member
      rw [List.mem_singleton.mp member]
      intro _ pair
      cases pair
  · have found := get_update kept root
    obtain ⟨-, front, back, children, -⟩ := List.find?_eq_some_iff_append.mp found
    rw [children, entries_append, entries_cons, entries_head]
    · have name := (named_iff.mp (List.find?_some found)).2
      simp [name]
    · exact (named_iff.mp (List.find?_some found)).1

end Stored

section Safe

def isSafeChar (c : Char) : Bool := c.isAlphanum || c ∈ ['_', '(', ')', ',', '-']

theorem ne_of_safe {c d : Char} (safe : isSafeChar c = true) (outside : isSafeChar d = false) : c ≠ d := by
  rintro rfl
  rw [safe] at outside
  cases outside

theorem plain_of_safe {text : List Char} (safe : text.all isSafeChar = true) : Plain text where
  tight := by
    refine tight_of_forall fun c member => ?_
    have safe := List.all_eq_true.mp safe c member
    simp [isSpaceChar, ne_of_safe safe (show isSafeChar ' ' = false by decide),
      ne_of_safe safe (show isSafeChar '\t' = false by decide), ne_of_safe safe (show isSafeChar '\r' = false by decide),
      ne_of_safe safe (show isSafeChar '\n' = false by decide)]
  noComment := fun member => ne_of_safe (List.all_eq_true.mp safe _ member) (show isSafeChar '#' = false by decide) rfl
  noEnd := fun member => ne_of_safe (List.all_eq_true.mp safe _ member) (show isSafeChar '\n' = false by decide) rfl
  noNul := fun member => ne_of_safe (List.all_eq_true.mp safe _ member) (show isSafeChar '\x00' = false by decide) rfl

theorem isKey_of_safe {text : List Char} (safe : text.all isSafeChar = true) : IsKey text where
  toPlain := plain_of_safe safe
  noDelim := fun member => ne_of_safe (List.all_eq_true.mp safe _ member) (show isSafeChar '=' = false by decide) rfl
  noHead := fun first => ne_of_safe (List.all_eq_true.mp safe _ (List.mem_of_mem_head? first))
    (show isSafeChar '[' = false by decide) rfl

def isSafeDirective : Format.Directive → Bool
  | .literal c => isSafeChar c
  | .decimal => true

theorem plain_asprintf {format : String} (safe : (Format.directives format.toList).all isSafeDirective = true)
    (args : List (BitVec 32)) : Plain (asprintf format args).toList := by
  refine plain_of_safe (List.all_eq_true.mpr fun c member => ?_)
  rw [asprintf, String.toList_ofList] at member
  rcases Format.mem_print member with literal | digit | rfl
  · exact List.all_eq_true.mp safe _ literal
  · simp [isSafeChar, Char.isAlphanum, digit]
  · decide

end Safe

structure IniCall where
  key : String
  value : String
  label : String

namespace IniCall

def sets (key label : String) (call : IniCall) : Bool := call.key = key ∧ call.label = label

/-- The texts can stand in a file, and the key stands in a section. -/
structure Storable (call : IniCall) : Prop where
  named : call.label ≠ ""
  label : Plain call.label.toList
  key : IsKey call.key.toList
  value : Plain call.value.toList

def last (calls : List IniCall) (key label : String) : Option String :=
  (calls.reverse.find? (sets key label)).map IniCall.value

theorem last_append (calls more : List IniCall) (key label : String) :
    last (calls ++ more) key label = (last more key label).or (last calls key label) := by
  rw [last, List.reverse_append, List.find?_append]
  cases found : more.reverse.find? (sets key label) with
  | none => simp [last, found]
  | some call => simp [last, found]

end IniCall

namespace IniParser

def store (config : IniParser) (calls : List IniCall) : IniParser :=
  calls.foldl (fun config call => config.setValue call.key call.value call.label) config

/-- The text of the configuration file after a run of the program that stores something. -/
def session (text : String) (calls : List IniCall) : String :=
  (((IniParser.loadFromFile ⟨none⟩ (some text)).store calls).save (some text) true).getD text

end IniParser

section Sessions

open IniParser IniCall

variable {calls : List IniCall} (storable : ∀ call ∈ calls, call.Storable)

theorem store_concat (config : IniParser) (calls : List IniCall) (call : IniCall) :
    config.store (calls ++ [call]) = (config.store calls).setValue call.key call.value call.label := by simp [store]

theorem getValue_store (config : IniParser) (calls : List IniCall) (key label : String) :
    (config.store calls).getValue key label = (last calls key label).getD (config.getValue key label) := by
  induction calls using List.reverseRecOn with
  | nil => rfl
  | append_singleton calls call ih =>
    rw [store_concat, getValue_setValue, ih, last_append]
    by_cases same : key = call.key ∧ label = call.label
    · have found : last [call] key label = some call.value := by simp [last, sets, same]
      rw [if_pos same, found]
      rfl
    · have other : last [call] key label = none := by
        rw [last, List.reverse_singleton, List.find?_cons, sets, decide_eq_false fun both => same ⟨both.1.symm, both.2.symm⟩]
        rfl
      rw [if_neg same, other]
      rfl

include storable

theorem regular_store (text : String) : ∃ root, (IniParser.loadFromFile ⟨none⟩ (some text)).store calls = ⟨some root⟩ ∧
    Regular root ∧ (calls ≠ [] → entries root.children ≠ []) := by
  induction calls using List.reverseRecOn with
  | nil => exact ⟨_, rfl, regular_loadFromMem text, fun none => absurd rfl none⟩
  | append_singleton calls call ih =>
    obtain ⟨root, stored, regular, -⟩ := ih fun call member => storable call (by simp [member])
    have fits := storable call (by simp)
    obtain ⟨changed, same, regular, head⟩ := regular.setValue fits.named fits.label fits.key fits.value
    refine ⟨changed, ?_, regular, fun _ => List.ne_nil_of_mem head⟩
    rw [store_concat, stored, same]

theorem lookup_session (text key label : String) : lookup (readEntries (cString (session text calls))) key label =
    (last calls key label).getD (lookup (readEntries (cString text)) key label) := by
  by_cases none : calls = []
  · have same : readEntries (cString (session text calls)) = readEntries (cString text) := by
      have regular := regular_loadFromMem text
      rw [none, session, store, List.foldl_nil, IniParser.loadFromFile, save]
      split
      · rfl
      · rw [if_pos rfl, Option.getD_some, regular.cString_dump, regular.readEntries_dump, entries_loadFromMem]
    rw [same, none]
    rfl
  · obtain ⟨root, stored, regular, nonempty⟩ := regular_store storable text
    have said := regular.readEntries_dump
    have written : IniParser.dump ⟨some root⟩ ≠ [] := by
      intro empty
      rw [empty] at said
      exact nonempty none said.symm
    have read := getValue_store (IniParser.loadFromFile ⟨Option.none⟩ (some text)) calls key label
    rw [stored, getValue_eq_read, Option.getD_some, read_eq_lookup regular.sorted, getValue_loadFromFile] at read
    rw [session, stored, save, if_neg written, if_pos rfl, Option.getD_some, regular.cString_dump, said, read]

theorem getValue_session (text key label : String) :
    (IniParser.loadFromFile ⟨none⟩ (some (session text calls))).getValue key label =
      ((IniParser.loadFromFile ⟨none⟩ (some text)).store calls).getValue key label := by
  rw [getValue_loadFromFile, lookup_session storable, getValue_store, getValue_loadFromFile]

end Sessions

/-- Over any number of sessions, each of which loads the file, stores settings in sections and saves, a later start reads
    for every key the value that was stored last, and what the file said at first where none was. -/
theorem getValue_after_sessions (text key label : String) (sessions : List (List IniCall))
    (storable : ∀ calls ∈ sessions, ∀ call ∈ calls, call.Storable) :
    (IniParser.loadFromFile ⟨none⟩ (some (sessions.foldl IniParser.session text))).getValue key label =
      (IniCall.last sessions.flatten key label).getD (lookup (readEntries (cString text)) key label) := by
  rw [getValue_loadFromFile]
  induction sessions using List.reverseRecOn with
  | nil => rfl
  | append_singleton sessions calls ih =>
    have before := ih fun calls member => storable calls (by simp [member])
    rw [List.foldl_append, List.foldl_cons, List.foldl_nil, lookup_session (storable calls (by simp)), before,
      List.flatten_append, List.flatten_singleton, IniCall.last_append]
    cases IniCall.last calls key label with
    | none => rfl
    | some value => rfl

theorem contrast_of_the_first_session_read :
    (IniParser.loadFromFile ⟨none⟩ (some ([[⟨"default_contrast", "80", "image"⟩], []].foldl IniParser.session
      "[image]\ndefault_contrast = 150\n"))).getValue "default_contrast" "image" = "80" := by
  have storable : IniCall.Storable ⟨"default_contrast", "80", "image"⟩ :=
    ⟨by decide, plain_of_safe (by decide), isKey_of_safe (by decide), plain_of_safe (by decide)⟩
  rw [getValue_after_sessions _ _ _ _ (by simpa using storable)]
  simp [IniCall.last, IniCall.sets]

section RootKeys

variable {root : IniNode} {key value : String}

theorem isBlock_setKey (regular : Regular root) (isKey : IsKey key.toList) (plain : Plain value.toList) :
    ∀ node ∈ (root.setKey key value).children, IsBlock node := by
  intro node member
  rcases mem_updateFirst member with member | ⟨pair, source, rfl⟩
  · exact regular.blocks node member
  · rcases source with ⟨found, fits⟩ | rfl
    · have type := (named_iff.mp fits).1
      rcases regular.blocks pair found with (isPair | isDiv) | isSection
      · exact .inl (.inl (IsPair.set isPair plain))
      · rw [isDiv.type] at type
        cases type
      · rw [isSection.type] at type
        cases type
    · exact .inl (.inl (isPair_fresh isKey plain))

theorem mem_pairs {nodes : List IniNode} :
    (∃ old, IniEntry.pair key old ∈ pairs nodes) ↔ ∃ node ∈ nodes, named key .keyValue node = true := by
  constructor
  · rintro ⟨old, member⟩
    obtain ⟨node, inside, same⟩ := List.mem_filterMap.mp member
    by_cases type : node.type = .keyValue
    · rw [if_pos type] at same
      cases same
      exact ⟨node, inside, named_iff.mpr ⟨type, rfl⟩⟩
    · rw [if_neg type] at same
      cases same
  · rintro ⟨node, inside, fits⟩
    obtain ⟨type, rfl⟩ := named_iff.mp fits
    exact ⟨node.value, List.mem_filterMap.mpr ⟨node, inside, if_pos type⟩⟩

theorem sorted_of_no_head {nodes : List IniNode} (noHead : ∀ node ∈ nodes, node.type ≠ .sectionHead) : Sorted nodes := by
  rw [Sorted, List.pairwise_map]
  refine List.pairwise_of_forall_mem_list ?_
  intro node member other _ head
  exact absurd head (noHead node member)

theorem no_head_of_entries {nodes : List IniNode} (all : ∀ entry ∈ entries nodes, isPair entry = true) :
    ∀ node ∈ nodes, node.type ≠ .sectionHead := by
  intro node member head
  have said : IniEntry.head node.label ∈ entries nodes :=
    List.mem_flatMap.mpr ⟨node, member, by simp [head]⟩
  cases all _ said

theorem sorted_setKey (regular : Regular root) (place : (∀ entry ∈ entries root.children, isPair entry = true) ∨
    ∃ old, IniEntry.pair key old ∈ pairs root.children) : Sorted (root.setKey key value).children := by
  rcases place with all | found
  · refine sorted_of_no_head ?_
    have noHead := no_head_of_entries all
    intro node member
    rcases mem_updateFirst member with member | ⟨pair, source, rfl⟩
    · exact noHead node member
    · rcases source with ⟨found, -⟩ | rfl
      · exact noHead pair found
      · simp [fresh]
  · have same (pair : IniNode) (_ : named key .keyValue pair = true) :
        IniNode.type { pair with value := value } = pair.type := rfl
    rw [Sorted, IniNode.setKey, update, map_updateFirst_of_mem same (mem_pairs.mp found)]
    exact regular.sorted

theorem entries_setKey_ne_nil : entries (root.setKey key value).children ≠ [] := by
  have kept (pair : IniNode) (fits : named key .keyValue pair = true) :
      named key .keyValue { pair with value := value } = true := fits
  have found := get_update kept root
  obtain ⟨-, front, back, children, -⟩ := List.find?_eq_some_iff_append.mp found
  rw [IniNode.setKey, children, entries_append, entries_cons, entries_pair (named_iff.mp (List.find?_some found)).1]
  simp

theorem getValue_session_root {text : String} (regular : Regular (loadFromMem (cString text)))
    (isKey : IsKey key.toList) (plain : Plain value.toList) :
    (IniParser.loadFromFile ⟨none⟩ (some (IniParser.session text [⟨key, value, ""⟩]))).getValue key "" =
      lookup (entries ((loadFromMem (cString text)).setKey key value).children) key "" := by
  have printable : Printable ((loadFromMem (cString text)).setKey key value) :=
    ⟨rfl, isBlock_setKey regular isKey plain⟩
  have written : IniParser.dump ⟨some ((loadFromMem (cString text)).setKey key value)⟩ ≠ [] := by
    intro empty
    have said := printable.readEntries_dump
    rw [empty] at said
    exact entries_setKey_ne_nil said.symm
  have saved : IniParser.session text [⟨key, value, ""⟩] =
      String.ofList (IniParser.dump ⟨some ((loadFromMem (cString text)).setKey key value)⟩) := by
    rw [IniParser.session, IniParser.store, List.foldl_cons, List.foldl_nil, IniParser.loadFromFile, IniParser.setValue,
      Option.getD_some, if_pos rfl, IniParser.save, if_neg written, if_pos rfl, Option.getD_some]
  rw [getValue_loadFromFile, saved, printable.cString_dump, printable.readEntries_dump]

theorem lookup_append_of_head {said more : List IniEntry} (head : ¬∀ entry ∈ said, isPair entry = true) (key : String) :
    lookup (said ++ more) key "" = lookup said key "" := by
  have stops : said.takeWhile isPair ≠ said := fun all => head (List.takeWhile_eq_self_iff.mp all)
  have shorter : (said.takeWhile isPair).length ≠ said.length := fun same =>
    stops ((List.takeWhile_prefix isPair).eq_of_length same)
  rw [lookup, lookup, if_pos rfl, if_pos rfl, List.takeWhile_append, if_neg shorter]

theorem lookup_of_not_mem {said : List IniEntry} (absent : ∀ old, IniEntry.pair key old ∉ said.takeWhile isPair) :
    lookup said key "" = "" := by
  have none : (said.takeWhile isPair).findSome? (valueOf key) = none := by
    rw [List.findSome?_eq_none_iff]
    intro entry member
    cases entry with
    | head label => rfl
    | pair label old =>
      rw [valueOf, if_neg]
      rintro rfl
      exact absent old member
  rw [lookup, if_pos rfl, none]
  rfl

end RootKeys

/-- A setting that is stored outside every section survives the restart exactly where the file has no section, or has the
    key before the first one. -/
theorem root_key_kept_iff (text key value : String) (isKey : IsKey key.toList) (plain : Plain value.toList)
    (nonempty : value ≠ "") :
    (IniParser.loadFromFile ⟨none⟩ (some (IniParser.session text [⟨key, value, ""⟩]))).getValue key "" = value ↔
      (∀ entry ∈ readEntries (cString text), isPair entry = true) ∨
        ∃ old, IniEntry.pair key old ∈ (readEntries (cString text)).takeWhile isPair := by
  have loaded := regular_loadFromMem text
  have said := entries_loadFromMem text
  rw [getValue_session_root loaded isKey plain, ← said, takeWhile_sorted loaded.sorted]
  constructor
  · intro kept
    by_contra lost
    rw [not_or] at lost
    have new : ∀ node ∈ (loadFromMem (cString text)).children, named key .keyValue node = false := fun node member =>
      Bool.eq_false_iff.mpr fun fits => lost.2 (mem_pairs.mpr ⟨node, member, fits⟩)
    have absent : ∀ old, IniEntry.pair key old ∉ (entries (loadFromMem (cString text)).children).takeWhile isPair := by
      rw [takeWhile_sorted loaded.sorted]
      exact not_exists.mp lost.2
    rw [IniNode.setKey, update, updateFirst_of_none new, entries_append, lookup_append_of_head lost.1,
      lookup_of_not_mem absent] at kept
    exact nonempty kept.symm
  · intro place
    rw [← read_eq_lookup (sorted_setKey loaded place), IniNode.read, IniNode.scope, if_pos rfl, Option.getD_some,
      valueAt_setKey, if_pos rfl]

theorem logfile_lost :
    (IniParser.loadFromFile ⟨none⟩ (some (IniParser.session "[ui]\nskin = dark" [⟨"logfile", "log", ""⟩]))).getValue
      "logfile" "" ≠ "log" := by
  have said : readEntries (cString "[ui]\nskin = dark") = [.head "ui", .pair "skin" "dark"] := by decide
  rw [ne_eq, root_key_kept_iff _ _ _ (isKey_of_safe (by decide)) (plain_of_safe (by decide)) (by decide), said]
  simp [isPair]

section Window

def windowCalls (state : WindowState) (rect : Geometry) : List IniCall :=
  [⟨"main_window_state", asprintf "%d" [state.toInt], "ui"⟩,
    ⟨"main_window_rect", asprintf "rect(%d,%d,%d,%d)" [rect.x, rect.y, rect.w, rect.h], "ui"⟩]

theorem store_windowCalls (config : IniParser) (state : WindowState) (rect : Geometry) :
    config.store (windowCalls state rect) = saveWindow config state rect := rfl

theorem storable_windowCalls (state : WindowState) (rect : Geometry) :
    ∀ call ∈ windowCalls state rect, call.Storable := by
  have label : Plain "ui".toList := plain_of_safe (by decide)
  have stateKey : IsKey "main_window_state".toList := isKey_of_safe (by decide)
  have rectKey : IsKey "main_window_rect".toList := isKey_of_safe (by decide)
  have named : "ui" ≠ "" := by decide
  intro call member
  rcases List.mem_cons.mp member with rfl | member
  · exact ⟨named, label, stateKey, plain_asprintf (by decide) _⟩
  · rw [List.mem_singleton.mp member]
    exact ⟨named, label, rectKey, plain_asprintf (by decide) _⟩

theorem last_windowCalls (state : WindowState) (rect : Geometry) :
    IniCall.last (windowCalls state rect) "main_window_state" "ui" = some (asprintf "%d" [state.toInt]) ∧
      IniCall.last (windowCalls state rect) "main_window_rect" "ui" =
        some (asprintf "rect(%d,%d,%d,%d)" [rect.x, rect.y, rect.w, rect.h]) := by
  simp [IniCall.last, windowCalls, IniCall.sets]

/-- A run of the program: what it stores on the way, and where the window stands when it is closed. -/
structure ProgramRun where
  stale : Geometry
  settings : List IniCall
  rect : Geometry

namespace ProgramRun

def calls (run : ProgramRun) (text : String) : List IniCall :=
  run.settings ++ windowCalls (windowInit run.stale (IniParser.loadFromFile ⟨none⟩ (some text))).1 run.rect

def file (text : String) (run : ProgramRun) : String := IniParser.session text (run.calls text)

/-- The settings are texts that a file can hold, and none of them is the state of the window. -/
def Proper (run : ProgramRun) : Prop :=
  ∀ call ∈ run.settings, call.Storable ∧ call.sets "main_window_state" "ui" = false

end ProgramRun

theorem toInt_ofInt (n : BitVec 32) : (WindowState.ofInt n).toInt = n := by
  unfold WindowState.ofInt
  split_ifs with zero one two three
  · exact zero.symm
  · exact one.symm
  · exact two.symm
  · exact three.symm
  · rfl

def storedState (text : String) : WindowState :=
  WindowState.ofInt (atoi (lookup (readEntries (cString text)) "main_window_state" "ui"))

theorem windowInit_state (stale : Geometry) (text : String) :
    (windowInit stale (IniParser.loadFromFile ⟨none⟩ (some text))).1 = storedState text := by
  rw [windowInit, getInt_zero, getValue_loadFromFile, storedState]

variable {run : ProgramRun} (proper : run.Proper) (text : String)

include proper

theorem storable_calls : ∀ call ∈ run.calls text, call.Storable := by
  intro call member
  rcases List.mem_append.mp member with member | member
  · exact (proper call member).1
  · exact storable_windowCalls _ _ call member

theorem lookup_file_rect : lookup (readEntries (cString (run.file text))) "main_window_rect" "ui" =
    asprintf "rect(%d,%d,%d,%d)" [run.rect.x, run.rect.y, run.rect.w, run.rect.h] := by
  rw [ProgramRun.file, lookup_session (storable_calls proper text), ProgramRun.calls, IniCall.last_append,
    (last_windowCalls _ _).2, Option.some_or, Option.getD_some]

theorem storedState_file : storedState (run.file text) = storedState text := by
  have stored : IniCall.last (run.calls text) "main_window_state" "ui" =
      some (asprintf "%d" [(storedState text).toInt]) := by
    rw [ProgramRun.calls, IniCall.last_append, windowInit_state, (last_windowCalls _ _).1, Option.some_or]
  rw [storedState, ProgramRun.file, lookup_session (storable_calls proper text), stored, Option.getD_some, atoi_asprintf,
    storedState, toInt_ofInt]

theorem setGeometry_file_iff (stale placed : Geometry) :
    .setGeometry placed ∈ (windowInit stale (IniParser.loadFromFile ⟨none⟩ (some (run.file text)))).2 ↔
      (storedState text = .normal ∨ ∃ n, storedState text = .unnamed n) ∧
        placed = run.rect ∧ run.rect.w &&& run.rect.h ≠ 0 := by
  rw [mem_windowInit, getInt_zero, getValue_loadFromFile, ← storedState, storedState_file proper, getValue_loadFromFile,
    lookup_file_rect proper, mem_placeWindow, rect_text_nonempty, scanRect_asprintf]
  constructor
  · rintro ⟨shown, -, rfl, common⟩
    exact ⟨shown, rfl, common⟩
  · rintro ⟨shown, rfl, common⟩
    exact ⟨shown, rfl, rfl, common⟩

end Window

theorem storedState_files {runs : List ProgramRun} (proper : ∀ run ∈ runs, run.Proper) (text : String) :
    storedState (runs.foldl ProgramRun.file text) = storedState text := by
  induction runs generalizing text with
  | nil => rfl
  | cons run runs ih =>
    rw [List.foldl_cons, ih fun run member => proper run (List.mem_cons_of_mem _ member),
      storedState_file (proper run List.mem_cons_self)]

/-- After any number of runs the window starts in the state that the first file named, and is placed where the last run
    left it, unless the two sizes have no bit in common or the state is one that is not placed. -/
theorem window_after_runs (text : String) (runs : List ProgramRun) (last : ProgramRun)
    (proper : ∀ run ∈ runs ++ [last], run.Proper) (stale placed : Geometry) :
    let config := IniParser.loadFromFile ⟨none⟩ (some ((runs ++ [last]).foldl ProgramRun.file text))
    (windowInit stale config).1 = storedState text ∧
      (.setGeometry placed ∈ (windowInit stale config).2 ↔
        (storedState text = .normal ∨ ∃ n, storedState text = .unnamed n) ∧
          placed = last.rect ∧ last.rect.w &&& last.rect.h ≠ 0) := by
  intro config
  have before : storedState (runs.foldl ProgramRun.file text) = storedState text :=
    storedState_files (fun run member => proper run (by simp [member])) text
  have file : (runs ++ [last]).foldl ProgramRun.file text = last.file (runs.foldl ProgramRun.file text) := by
    rw [List.foldl_append, List.foldl_cons, List.foldl_nil]
  constructor
  · rw [windowInit_state, storedState_files proper]
  · rw [show config = _ from congrArg (fun text => IniParser.loadFromFile ⟨none⟩ (some text)) file,
      setGeometry_file_iff (proper last (by simp)), before]

theorem window_placed_after_two_runs :
    .setGeometry ⟨5, 6, 800, 600⟩ ∈ (windowInit ⟨7, 7, 7, 7⟩ (IniParser.loadFromFile ⟨none⟩ (some
      ([⟨⟨1, 1, 1, 1⟩, [], ⟨0, 0, 640, 512⟩⟩, ⟨⟨1, 1, 1, 1⟩, [], ⟨5, 6, 800, 600⟩⟩].foldl ProgramRun.file
        "[ui]\nskin = dark")))).2 := by
  have proper : ∀ run ∈ ([⟨⟨1, 1, 1, 1⟩, [], ⟨0, 0, 640, 512⟩⟩] ++ [⟨⟨1, 1, 1, 1⟩, [], ⟨5, 6, 800, 600⟩⟩] : List ProgramRun),
      run.Proper := by simp [ProgramRun.Proper]
  have normal : storedState "[ui]\nskin = dark" = .normal := by decide
  exact ((window_after_runs _ _ _ proper ⟨7, 7, 7, 7⟩ _).2).mpr ⟨.inl normal, rfl, by decide⟩

end XYAnnotation

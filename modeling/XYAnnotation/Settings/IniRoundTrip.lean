import XYAnnotation.Settings.IniEntries

namespace XYAnnotation

open Library

/-- A line that `LoadFromMem` keeps as it is; of a blank one only the end is kept. -/
structure IsRemark (line : List Char) : Prop where
  noEnd : '\n' ∉ line
  noNul : '\x00' ∉ line
  kept : line = [] ∨ readLine line = .remark

def IsDivText (text : List Char) : Prop := ∃ lines, (∀ line ∈ lines, IsRemark line) ∧ text = marked '\n' lines

namespace IniNode

structure IsPair (node : IniNode) : Prop where
  type : node.type = .keyValue
  key : IsKey node.label.toList
  value : Plain node.value.toList
  comment : ∃ comment, IsComment comment ∧ node.children = spans comment

structure IsDiv (node : IniNode) : Prop where
  type : node.type = .div
  text : IsDivText node.label.toList
  leaf : node.children = []

def IsItem (node : IniNode) : Prop := node.IsPair ∨ node.IsDiv

structure IsSection (node : IniNode) : Prop where
  type : node.type = .sectionHead
  label : Plain node.label.toList
  children : ∃ comment items, IsComment comment ∧ (∀ item ∈ items, IsItem item) ∧ node.children = spans comment ++ items

def IsBlock (node : IniNode) : Prop := node.IsItem ∨ node.IsSection

variable {node : IniNode} {nodes : List IniNode} {str line comment : List Char}

theorem IsItem.type_ne (item : node.IsItem) : node.type ≠ .sectionHead := by
  rcases item with pair | div
  · simp [pair.type]
  · simp [div.type]

theorem sorted_of_items (items : ∀ node ∈ nodes, IsItem node) : Sorted nodes := by
  induction nodes with
  | nil => exact List.Pairwise.nil
  | cons node nodes ih =>
    refine sorted_cons.mpr ⟨fun head => absurd head (items node List.mem_cons_self).type_ne, ih ?_⟩
    exact fun node member => items node (List.mem_cons_of_mem _ member)

theorem entries_items (items : ∀ node ∈ nodes, IsItem node) : entries nodes = pairs nodes := by
  induction nodes with
  | nil => rfl
  | cons node nodes ih =>
    rw [entries_cons, pairs_cons, ih fun node member => items node (List.mem_cons_of_mem _ member)]
    rcases items node List.mem_cons_self with pair | div
    · rw [entries_pair pair.type, if_pos pair.type]
      rfl
    · rw [entries_other (by simp [div.type]) (by simp [div.type]), if_neg (by simp [div.type])]
      rfl

theorem pairs_spans : pairs (spans comment) = [] := by
  unfold spans
  split <;> rfl

section Dump

theorem dumpStrings_append (str : List Char) (nodes more : List IniNode) :
    dumpStrings str (nodes ++ more) = dumpStrings (dumpStrings str nodes) more := by
  induction nodes generalizing str with
  | nil => rw [dumpStrings, List.nil_append]
  | cons node nodes ih => rw [List.cons_append, dumpStrings, dumpStrings, ih]

theorem dumpStrings_single (str : List Char) (node : IniNode) : dumpStrings str [node] = dumpString str node := by
  rw [dumpStrings, dumpStrings]

theorem dumpString_eq (str : List Char) (node : IniNode) :
    dumpString str node = dumpStrings (print str node.type node.label node.value) node.children := by
  cases node
  rw [dumpString]

theorem dumpStrings_spans (str comment : List Char) : dumpStrings str (spans comment) = str ++ tailText comment := by
  unfold spans tailText
  split
  · rw [dumpStrings, List.append_nil]
  · rw [dumpStrings_single, dumpString_eq, dumpStrings, print, String.toList_ofList]

theorem cString_of_noNul {text : String} (noNul : '\x00' ∉ text.toList) : cString text = text.toList := by
  rw [cString, List.takeWhile_eq_self_iff]
  intro c member
  rw [decide_eq_true_iff]
  rintro rfl
  exact noNul member

theorem IsPair.dump (pair : node.IsPair) : ∃ comment, IsComment comment ∧ ∀ str,
    dumpString str node = startPiece '\n' str ++ pairText node.label.toList node.value.toList comment := by
  obtain ⟨comment, isComment, children⟩ := pair.comment
  refine ⟨comment, isComment, fun str => ?_⟩
  rw [dumpString_eq, children, dumpStrings_spans, pair.type, print, cString_of_noNul pair.key.noNul,
    cString_of_noNul pair.value.noNul, pairText, List.append_assoc]

theorem IsDiv.dump (div : node.IsDiv) (str : List Char) :
    dumpString str node = startPiece '\n' str ++ node.label.toList := by
  rw [dumpString_eq, div.leaf, div.type, dumpStrings, print]

theorem IsSection.dump (head : node.IsSection) : ∃ comment items, IsComment comment ∧ (∀ item ∈ items, IsItem item) ∧
    node.children = spans comment ++ items ∧ ∀ str,
      dumpString str node = dumpStrings (startPiece '\n' str ++ headText node.label.toList comment) items := by
  obtain ⟨comment, items, isComment, isItems, children⟩ := head.children
  refine ⟨comment, items, isComment, isItems, children, fun str => ?_⟩
  rw [dumpString_eq, children, dumpStrings_append, dumpStrings_spans, head.type, print, headText, List.append_assoc]

end Dump

section Lines

variable {key value label : List Char}

theorem end_not_mem_tailText (isComment : IsComment comment) : '\n' ∉ tailText comment := by
  unfold tailText
  split
  · exact List.not_mem_nil
  · simpa using isComment.noEnd

theorem end_not_mem_pairText (isKey : IsKey key) (plain : Plain value) (isComment : IsComment comment) :
    '\n' ∉ pairText key value comment := by
  simp [pairText, isKey.noEnd, plain.noEnd, end_not_mem_tailText isComment]

theorem end_not_mem_headText (plain : Plain label) (isComment : IsComment comment) : '\n' ∉ headText label comment := by
  simp [headText, plain.noEnd, end_not_mem_tailText isComment]

theorem pairText_ne_nil : pairText key value comment ≠ [] := by simp [pairText]

theorem headText_ne_nil : headText label comment ≠ [] := by simp [headText]

theorem readEntries_write (noEnd : '\n' ∉ line) (nonempty : line ≠ []) (str : List Char) :
    readEntries (startPiece '\n' str ++ line) = readEntries str ++ (readEntry line).toList := by
  rw [readEntries, pieces_write noEnd nonempty, List.filterMap_append, ← readEntries]
  cases said : readEntry line with
  | none => simp [said]
  | some entry => simp [said]

theorem readEntry_remark (remark : IsRemark line) : readEntry line = none := by
  rcases remark.kept with rfl | kept
  · rfl
  · rw [readEntry, kept]

theorem readEntries_div {text : List Char} (div : IsDivText text) (str : List Char) :
    readEntries (startPiece '\n' str ++ text) = readEntries str := by
  obtain ⟨lines, remarks, rfl⟩ := div
  have none : lines.filterMap readEntry = [] :=
    List.filterMap_eq_nil_iff.mpr fun line member => readEntry_remark (remarks line member)
  rw [readEntries, pieces_append (startPiece_ended '\n' str), pieces_startPiece,
    pieces_marks fun line member => (remarks line member).noEnd, List.filterMap_append, none, List.append_nil, readEntries]

theorem readEntries_item (item : node.IsItem) (str : List Char) :
    readEntries (dumpString str node) = readEntries str ++ entries [node] := by
  rcases item with pair | div
  · obtain ⟨comment, isComment, text⟩ := pair.dump
    rw [text, readEntries_write (end_not_mem_pairText pair.key pair.value isComment) pairText_ne_nil, readEntry,
      readLine_pairText pair.key pair.value isComment, entries_pair pair.type]
    simp
  · rw [div.dump, readEntries_div div.text, entries_other (by simp [div.type]) (by simp [div.type]), List.append_nil]

theorem readEntries_nodes
    (each : ∀ node ∈ nodes, ∀ str, readEntries (dumpString str node) = readEntries str ++ entries [node])
    (str : List Char) : readEntries (dumpStrings str nodes) = readEntries str ++ entries nodes := by
  induction nodes generalizing str with
  | nil => simp [dumpStrings, entries]
  | cons node nodes ih =>
    rw [dumpStrings, ih fun node member => each node (List.mem_cons_of_mem _ member), each node List.mem_cons_self,
      List.append_assoc, ← entries_cons]

theorem readEntries_section (head : node.IsSection) (str : List Char) :
    readEntries (dumpString str node) = readEntries str ++ entries [node] := by
  obtain ⟨comment, items, isComment, isItems, children, text⟩ := head.dump
  have said : entries [node] = .head node.label :: entries items := by
    rw [entries_head head.type, children, pairs_append, pairs_spans, List.nil_append, entries_items isItems]
  rw [text, readEntries_nodes fun node member => readEntries_item (isItems node member),
    readEntries_write (end_not_mem_headText head.label isComment) headText_ne_nil, readEntry,
    readLine_headText head.label isComment, said]
  simp

/-- The lines of a tree say what the tree says. -/
theorem readEntries_dump (blocks : ∀ node ∈ nodes, IsBlock node) (str : List Char) :
    readEntries (dumpStrings str nodes) = readEntries str ++ entries nodes :=
  readEntries_nodes (fun node member => (blocks node member).elim readEntries_item readEntries_section) str

end Lines

section Nul

variable {text : List Char}

theorem nul_not_mem_startPiece (noNul : '\x00' ∉ str) : '\x00' ∉ startPiece '\n' str := by
  unfold startPiece
  split
  · simpa using noNul
  · exact noNul

theorem nul_not_mem_tailText (isComment : IsComment comment) : '\x00' ∉ tailText comment := by
  unfold tailText
  split
  · exact List.not_mem_nil
  · simpa using isComment.noNul

theorem nul_not_mem_div (div : IsDivText text) : '\x00' ∉ text := by
  obtain ⟨lines, remarks, rfl⟩ := div
  intro member
  obtain ⟨line, isLine, inside⟩ := List.mem_flatMap.mp member
  exact (remarks line isLine).noNul (by simpa using inside)

theorem nul_not_mem_nodes (each : ∀ node ∈ nodes, ∀ str, '\x00' ∉ str → '\x00' ∉ dumpString str node)
    (noNul : '\x00' ∉ str) : '\x00' ∉ dumpStrings str nodes := by
  induction nodes generalizing str with
  | nil => rwa [dumpStrings]
  | cons node nodes ih =>
    rw [dumpStrings]
    exact ih (fun node member => each node (List.mem_cons_of_mem _ member)) (each node List.mem_cons_self str noNul)

theorem nul_not_mem_item (item : node.IsItem) (str : List Char) (noNul : '\x00' ∉ str) : '\x00' ∉ dumpString str node := by
  have start := nul_not_mem_startPiece noNul
  rcases item with pair | div
  · obtain ⟨comment, isComment, text⟩ := pair.dump
    simp [text, start, pairText, pair.key.noNul, pair.value.noNul, nul_not_mem_tailText isComment]
  · simp [div.dump, start, nul_not_mem_div div.text]

theorem nul_not_mem_dump (blocks : ∀ node ∈ nodes, IsBlock node) (noNul : '\x00' ∉ str) :
    '\x00' ∉ dumpStrings str nodes := by
  refine nul_not_mem_nodes (fun node member str noNul => ?_) noNul
  rcases blocks node member with item | head
  · exact nul_not_mem_item item str noNul
  · obtain ⟨comment, items, isComment, isItems, -, text⟩ := head.dump
    rw [text]
    refine nul_not_mem_nodes (fun node member => nul_not_mem_item (isItems node member)) ?_
    simp [nul_not_mem_startPiece noNul, headText, head.label.noNul, nul_not_mem_tailText isComment]

end Nul

end IniNode

namespace Loading

open IniNode

def nodes (l : Loading) : List IniNode := l.root ++ l.scope.toList

/-- While a file is read. Until the first section everything stands right under the root. -/
structure Fits (l : Loading) : Prop where
  root : ∀ node ∈ l.root, IsBlock node
  items : l.scope = none → ∀ node ∈ l.root, IsItem node
  scope : ∀ node ∈ l.scope, node.IsSection
  sorted : Sorted l.nodes
  strDiv : IsDivText l.strDiv

variable {l : Loading} {more : List IniNode} {line : List Char}

theorem finish_eq (l : Loading) : l.finish = l.nodes ++ remarks l.strDiv := rfl

theorem fits_start : Fits ⟨[], none, []⟩ where
  root := by simp
  items := by simp
  scope := by simp
  sorted := List.Pairwise.nil
  strDiv := ⟨[], by simp, rfl⟩

theorem isItem_remarks {strDiv : List Char} (div : IsDivText strDiv) : ∀ node ∈ remarks strDiv, IsItem node := by
  intro node member
  unfold remarks at member
  split at member
  · cases member
  · rw [List.mem_singleton.mp member]
    exact .inr ⟨rfl, by rwa [String.toList_ofList], rfl⟩

theorem IsSection.append {node : IniNode} (head : node.IsSection) (items : ∀ item ∈ more, IsItem item) :
    IniNode.IsSection { node with children := node.children ++ more } := by
  obtain ⟨comment, items', isComment, isItems, children⟩ := head.children
  refine ⟨head.type, head.label, comment, items' ++ more, isComment, ?_, by simp [children]⟩
  intro item member
  exact (List.mem_append.mp member).elim (isItems item) (items item)

theorem Fits.add (fits : l.Fits) (items : ∀ node ∈ more, IsItem node) : (l.add more).Fits := by
  obtain ⟨root, scope, strDiv⟩ := l
  cases scope with
  | none =>
    have all : ∀ node ∈ root ++ more, IsItem node := fun node member =>
      (List.mem_append.mp member).elim (fits.items rfl node) (items node)
    exact ⟨fun node member => .inl (all node member), fun _ => all, by simp [add], by simpa [add, nodes] using sorted_of_items all,
      fits.strDiv⟩
  | some node =>
    refine ⟨fits.root, by simp [add], ?_, ?_, fits.strDiv⟩
    · intro changed member
      cases member
      exact IsSection.append (fits.scope node rfl) items
    · simpa [add, nodes, Sorted] using fits.sorted

theorem Fits.flush (fits : l.Fits) : l.flush.Fits :=
  have added := fits.add (isItem_remarks fits.strDiv)
  ⟨added.root, added.items, added.scope, added.sorted, [], by simp, rfl⟩

theorem fits_remark (fits : l.Fits) (remark : IsRemark line) :
    Fits { l with strDiv := l.strDiv ++ (line ++ ['\n']) } := by
  obtain ⟨lines, isRemarks, text⟩ := fits.strDiv
  refine ⟨fits.root, fits.items, fits.scope, fits.sorted, lines ++ [line], ?_, by simp [text, marked]⟩
  intro piece member
  rcases List.mem_append.mp member with member | member
  · exact isRemarks piece member
  · rwa [List.mem_singleton.mp member]

theorem Fits.block (fits : l.Fits) : ∀ node ∈ l.nodes, IsBlock node := by
  intro node member
  rcases List.mem_append.mp member with member | member
  · exact fits.root node member
  · exact .inr (fits.scope node (Option.mem_toList.mp member))

theorem sorted_concat {nodes : List IniNode} {node : IniNode} (sorted : Sorted nodes) (other : node.type ≠ .keyValue) :
    Sorted (nodes ++ [node]) := by
  rw [Sorted, List.map_append, List.pairwise_append]
  exact ⟨sorted, List.pairwise_singleton _ _, by simp [other]⟩

/-- One line keeps the tree in shape. -/
theorem Fits.step (fits : l.Fits) (noEnd : '\n' ∉ line) (noNul : '\x00' ∉ line) : (l.step line).Fits := by
  have fields := readLine_fits noEnd noNul
  unfold Loading.step
  cases read : readLine line with
  | blank =>
    have remark : IsRemark [] := ⟨by simp, by simp, .inl rfl⟩
    exact fits_remark fits remark
  | remark => exact fits_remark fits ⟨noEnd, noNul, .inr read⟩
  | malformed => exact fits.flush
  | sectionHead label comment =>
    rw [read] at fields
    have block := fits.flush.block
    refine ⟨block, by simp, ?_, sorted_concat fits.flush.sorted (by simp), [], by simp, rfl⟩
    intro node member
    cases member
    exact ⟨rfl, by simpa using fields.1, comment, [], fields.2, by simp, by simp⟩
  | keyValue key value comment =>
    rw [read] at fields
    refine fits.flush.add ?_
    intro node member
    rw [List.mem_singleton.mp member]
    exact .inl ⟨rfl, by simpa using fields.1, by simpa using fields.2.1, comment, fields.2.2, rfl⟩

theorem entries_remarks (strDiv : List Char) : entries (remarks strDiv) = [] := by
  unfold remarks
  split <;> rfl

theorem entries_add (fits : l.Fits) (items : ∀ node ∈ more, IsItem node) :
    entries (l.add more).nodes = entries l.nodes ++ entries more := by
  obtain ⟨root, scope, strDiv⟩ := l
  cases scope with
  | none => simp [add, nodes, entries_append]
  | some node =>
    have type := (fits.scope node rfl).type
    have before := entries_head type
    have after : entries [{ node with children := node.children ++ more }] =
        .head node.label :: pairs (node.children ++ more) := entries_head type
    simp [add, nodes, entries_append, after, before, pairs_append, entries_items items]

theorem entries_flush (fits : l.Fits) : entries l.flush.nodes = entries l.nodes := by
  have same := entries_add fits (isItem_remarks fits.strDiv)
  rwa [entries_remarks, List.append_nil] at same

theorem entries_step (fits : l.Fits) (noEnd : '\n' ∉ line) (noNul : '\x00' ∉ line) :
    entries (l.step line).nodes = entries l.nodes ++ (readEntry line).toList := by
  have fields := readLine_fits noEnd noNul
  unfold Loading.step readEntry
  cases read : readLine line with
  | blank => simp [nodes]
  | remark => simp [nodes]
  | malformed => simp [entries_flush fits]
  | sectionHead label comment =>
    have said : entries [⟨.sectionHead, String.ofList label, "", spans comment⟩] = [.head (String.ofList label)] := by
      rw [entries_head rfl, pairs_spans]
    rw [nodes, Option.toList_some, entries_append, ← nodes, entries_flush fits, said]
    rfl
  | keyValue key value comment =>
    rw [read] at fields
    have item : ∀ node ∈ [(⟨.keyValue, String.ofList key, String.ofList value, spans comment⟩ : IniNode)], IsItem node := by
      intro node member
      rw [List.mem_singleton.mp member]
      exact .inl ⟨rfl, by simpa using fields.1, by simpa using fields.2.1, comment, fields.2.2, rfl⟩
    rw [entries_add fits.flush item, entries_flush fits, entries_pair rfl]
    rfl

def printLine (str line : List Char) : List Char :=
  match readLine line with
  | .blank => startPiece '\n' str ++ ['\n']
  | .remark => startPiece '\n' str ++ (line ++ ['\n'])
  | .malformed => str
  | .sectionHead label comment => startPiece '\n' str ++ headText label comment
  | .keyValue key value comment => startPiece '\n' str ++ pairText key value comment

theorem dump_remarks (str strDiv : List Char) (nonempty : strDiv ≠ []) :
    dumpStrings str (remarks strDiv) = startPiece '\n' str ++ strDiv := by
  rw [remarks, if_neg nonempty, dumpStrings_single, dumpString_eq, dumpStrings, print, String.toList_ofList]

theorem dump_remark (div : IsDivText l.strDiv) (str line : List Char) :
    dumpStrings str (remarks (l.strDiv ++ (line ++ ['\n']))) =
      startPiece '\n' (dumpStrings str (remarks l.strDiv)) ++ (line ++ ['\n']) := by
  obtain ⟨lines, -, text⟩ := div
  have ended := marked_ended '\n' lines
  rw [← text] at ended
  rw [dump_remarks _ _ (by simp)]
  by_cases none : l.strDiv = []
  · rw [none, remarks, if_pos rfl, dumpStrings, List.nil_append]
  · have last : (startPiece '\n' str ++ l.strDiv).getLast? = some '\n' := by
      rw [List.getLast?_append_of_ne_nil _ none]
      exact ended.resolve_left none
    rw [dump_remarks _ _ none, startPiece_of_ended (.inr last), List.append_assoc]

theorem dump_add (l : Loading) (more : List IniNode) :
    dumpStrings [] (l.add more).nodes = dumpStrings (dumpStrings [] l.nodes) more := by
  obtain ⟨root, scope, strDiv⟩ := l
  cases scope with
  | none => simp [add, nodes, dumpStrings_append]
  | some node => simp [add, nodes, dumpStrings_append, dumpStrings_single, dumpString_eq]

theorem dump_flush (l : Loading) : dumpStrings [] l.flush.nodes = dumpStrings [] l.finish := by
  rw [finish_eq, dumpStrings_append]
  exact dump_add l (remarks l.strDiv)

theorem dump_step (fits : l.Fits) (noEnd : '\n' ∉ line) (noNul : '\x00' ∉ line) :
    dumpStrings [] (l.step line).finish = printLine (dumpStrings [] l.finish) line := by
  have fields := readLine_fits noEnd noNul
  have finished (l : Loading) (none : l.strDiv = []) : l.finish = l.nodes := by
    rw [finish_eq, none, remarks, if_pos rfl, List.append_nil]
  unfold Loading.step printLine
  cases read : readLine line with
  | blank =>
    rw [finish_eq, finish_eq, dumpStrings_append, dumpStrings_append]
    exact dump_remark fits.strDiv _ []
  | remark =>
    rw [finish_eq, finish_eq, dumpStrings_append, dumpStrings_append]
    exact dump_remark fits.strDiv _ line
  | malformed => exact (congrArg _ (finished l.flush rfl)).trans (dump_flush l)
  | sectionHead label comment =>
    rw [finished _ rfl, nodes, Option.toList_some, dumpStrings_append, ← nodes, dump_flush, dumpStrings_single,
      dumpString_eq, dumpStrings_spans, print, String.toList_ofList]
    exact List.append_assoc _ _ _
  | keyValue key value comment =>
    rw [read] at fields
    have key' : cString (String.ofList key) = key := by
      rw [cString_of_noNul (by simpa using fields.1.noNul), String.toList_ofList]
    have value' : cString (String.ofList value) = value := by
      rw [cString_of_noNul (by simpa using fields.2.1.noNul), String.toList_ofList]
    have empty : (l.flush.add [⟨.keyValue, String.ofList key, String.ofList value, spans comment⟩]).strDiv = [] := by
      rw [add]
      split <;> rfl
    rw [finished _ empty, dump_add, dump_flush, dumpStrings_single, dumpString_eq, dumpStrings_spans, print, key', value']
    exact List.append_assoc _ _ _

def load (lines : List (List Char)) : Loading := lines.foldl step ⟨[], none, []⟩

theorem load_concat (lines : List (List Char)) (line : List Char) : load (lines ++ [line]) = (load lines).step line := by
  rw [load, List.foldl_append, ← load, List.foldl_cons, List.foldl_nil]

section Lines

variable {lines : List (List Char)} (clean : ∀ line ∈ lines, '\n' ∉ line ∧ '\x00' ∉ line)

include clean

theorem load_fits : (load lines).Fits := by
  induction lines using List.reverseRecOn with
  | nil => exact fits_start
  | append_singleton lines line ih =>
    have last := clean line (by simp)
    rw [load_concat]
    exact (ih fun line member => clean line (by simp [member])).step last.1 last.2

theorem entries_load : entries (load lines).finish = lines.filterMap readEntry := by
  rw [finish_eq, entries_append, entries_remarks, List.append_nil]
  induction lines using List.reverseRecOn with
  | nil => rfl
  | append_singleton lines line ih =>
    have last := clean line (by simp)
    have before : ∀ line ∈ lines, '\n' ∉ line ∧ '\x00' ∉ line := fun line member => clean line (by simp [member])
    rw [load_concat, entries_step (load_fits before) last.1 last.2, ih before, List.filterMap_append]
    cases said : readEntry line with
    | none => simp [said]
    | some entry => simp [said]

theorem dump_load : dumpStrings [] (load lines).finish = lines.foldl printLine [] := by
  induction lines using List.reverseRecOn with
  | nil =>
    rw [load, List.foldl_nil, List.foldl_nil, finish, Option.toList_none, remarks, if_pos rfl]
    exact dumpStrings.eq_1 []
  | append_singleton lines line ih =>
    have last := clean line (by simp)
    have before : ∀ line ∈ lines, '\n' ∉ line ∧ '\x00' ∉ line := fun line member => clean line (by simp [member])
    rw [load_concat, dump_step (load_fits before) last.1 last.2, ih before, List.foldl_append, List.foldl_cons,
      List.foldl_nil]

theorem isBlock_load : ∀ node ∈ (load lines).finish, IsBlock node := by
  have fits := load_fits clean
  intro node member
  rcases List.mem_append.mp member with member | member
  · exact fits.block node member
  · exact .inl (isItem_remarks fits.strDiv node member)

theorem sorted_load : Sorted (load lines).finish := by
  have fits := load_fits clean
  rw [finish_eq, remarks]
  split
  · rw [List.append_nil]
    exact fits.sorted
  · exact sorted_concat fits.sorted (by simp)

end Lines

end Loading

end XYAnnotation

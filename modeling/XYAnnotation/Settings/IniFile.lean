import XYAnnotation.Library.Lines
import XYAnnotation.Settings.IniParser

namespace XYAnnotation

open Library

def isSpaceChar (c : Char) : Bool := c = ' ' || c = '\t' || c = '\r' || c = '\n'

def trimL (text : List Char) : List Char := text.dropWhile isSpaceChar

def trimR (text : List Char) : List Char := text.rdropWhile isSpaceChar

def trim (text : List Char) : List Char := trimmed isSpaceChar text

/-- What `LoadFromMem` takes a line for. -/
inductive IniLine
  | blank
  | remark
  | sectionHead (label comment : List Char)
  | keyValue (key value comment : List Char)
  | malformed
  deriving DecidableEq

def readContent (content comment : List Char) : IniLine :=
  if content = [] then .remark
  else if content.head? = some '[' then
    if content.getLast? = some ']' then .sectionHead (trim content.tail.dropLast) comment else .malformed
  else if '=' ∈ content then
    .keyValue (trim (content.takeWhile (· ≠ '='))) (trim (content.dropWhile (· ≠ '=')).tail) comment
  else .malformed

def readLine (line : List Char) : IniLine :=
  let content := trimL line
  if content = [] then .blank
  else readContent (trimR (content.takeWhile (· ≠ '#'))) (content.dropWhile (· ≠ '#'))

namespace IniNode

def spans (comment : List Char) : List IniNode :=
  if comment = [] then [] else [⟨.span, String.ofList comment, "", []⟩]

def remarks (strDiv : List Char) : List IniNode :=
  if strDiv = [] then [] else [⟨.div, String.ofList strDiv, "", []⟩]

end IniNode

/-- The tree while it is read. `scope` is the section that is being filled, and the root when there is none: the last
    child of the root, which `root` does not hold yet. -/
structure Loading where
  root : List IniNode
  scope : Option IniNode
  strDiv : List Char

namespace Loading

def add (l : Loading) (nodes : List IniNode) : Loading :=
  match l.scope with
  | none => { l with root := l.root ++ nodes }
  | some node => { l with scope := some { node with children := node.children ++ nodes } }

def flush (l : Loading) : Loading := { l.add (IniNode.remarks l.strDiv) with strDiv := [] }

def step (l : Loading) (line : List Char) : Loading :=
  match readLine line with
  | .blank => { l with strDiv := l.strDiv ++ ['\n'] }
  | .remark => { l with strDiv := l.strDiv ++ (line ++ ['\n']) }
  | .malformed => l.flush
  | .sectionHead label comment =>
    { root := l.flush.root ++ l.flush.scope.toList
      scope := some ⟨.sectionHead, String.ofList label, "", IniNode.spans comment⟩
      strDiv := [] }
  | .keyValue key value comment =>
    l.flush.add [⟨.keyValue, String.ofList key, String.ofList value, IniNode.spans comment⟩]

/-- The children of the root; a comment at the end of the file stands there. -/
def finish (l : Loading) : List IniNode := l.root ++ l.scope.toList ++ IniNode.remarks l.strDiv

end Loading

def loadFromMem (data : List Char) : IniNode :=
  ⟨.root, "", "", ((pieces '\n' data).foldl Loading.step ⟨[], none, []⟩).finish⟩

/-- `c_str()` as a C function reads it. -/
def cString (text : String) : List Char := text.toList.takeWhile (· ≠ '\x00')

namespace IniNode

def print (str : List Char) (type : IniNodeType) (label value : String) : List Char :=
  match type with
  | .sectionHead => startPiece '\n' str ++ '[' :: (label.toList ++ [']'])
  | .keyValue => startPiece '\n' str ++ (cString label ++ ' ' :: '=' :: ' ' :: cString value)
  | .div => startPiece '\n' str ++ label.toList
  | .span => str ++ '\t' :: label.toList
  | .unknown | .root => startPiece '\n' str

mutual

def dumpString (str : List Char) : IniNode → List Char
  | ⟨type, label, value, children⟩ => dumpStrings (print str type label value) children

def dumpStrings (str : List Char) : List IniNode → List Char
  | [] => str
  | node :: nodes => dumpStrings (dumpString str node) nodes

end

end IniNode

namespace IniParser

def dump (config : IniParser) : List Char :=
  match config.root with
  | none => []
  | some root => root.dumpString []

/-- `LoadFromFile`; there is no text where the file cannot be opened. -/
def loadFromFile (config : IniParser) (file : Option String) : IniParser :=
  match file with
  | none => config
  | some text => ⟨some (loadFromMem (cString text))⟩

/-- `Save`: the text of the file afterwards. Nothing is written for an empty tree. -/
def save (config : IniParser) (file : Option String) (opens : Bool) : Option String :=
  if config.dump = [] then file else if opens then some (String.ofList config.dump) else file

end IniParser

section Fields

/-- A text that a line can hold as it is. -/
structure Plain (text : List Char) : Prop where
  tight : Tight isSpaceChar text
  noComment : '#' ∉ text
  noEnd : '\n' ∉ text
  noNul : '\x00' ∉ text

structure IsKey (key : List Char) : Prop extends Plain key where
  noDelim : '=' ∉ key
  noHead : key.head? ≠ some '['

structure IsComment (comment : List Char) : Prop where
  starts : comment = [] ∨ comment.head? = some '#'
  noEnd : '\n' ∉ comment
  noNul : '\x00' ∉ comment

variable {line label key value comment text : List Char}

theorem trim_plain (plain : Plain text) : trim text = text := plain.tight.trimmed

theorem plain_trim (noComment : '#' ∉ text) (noEnd : '\n' ∉ text) (noNul : '\x00' ∉ text) : Plain (trim text) where
  tight := tight_trimmed isSpaceChar text
  noComment := fun member => noComment (trimmed_subset isSpaceChar text member)
  noEnd := fun member => noEnd (trimmed_subset isSpaceChar text member)
  noNul := fun member => noNul (trimmed_subset isSpaceChar text member)

theorem readLine_content (noEnd : '\n' ∉ line) (noNul : '\x00' ∉ line) :
    readLine line = .blank ∨ ∃ content comment, readLine line = readContent content comment ∧
      (∀ c ∈ content.head?, isSpaceChar c = false) ∧ '#' ∉ content ∧ '\n' ∉ content ∧ '\x00' ∉ content ∧
      IsComment comment := by
  by_cases blank : trimL line = []
  · exact .inl (by rw [readLine, if_pos blank])
  · right
    have inside : trimL line ⊆ line := (List.dropWhile_sublist isSpaceChar).subset
    have front : (trimL line).takeWhile (· ≠ '#') ⊆ trimL line := (List.takeWhile_sublist _).subset
    have body : trimR ((trimL line).takeWhile (· ≠ '#')) ⊆ (trimL line).takeWhile (· ≠ '#') :=
      (List.rdropWhile_prefix _ _).subset
    have back : (trimL line).dropWhile (· ≠ '#') ⊆ trimL line := (List.dropWhile_sublist _).subset
    refine ⟨_, _, by rw [readLine, if_neg blank], ?_, ?_, fun member => noEnd (inside (front (body member))),
      fun member => noNul (inside (front (body member))), ?_, fun member => noEnd (inside (back member)),
      fun member => noNul (inside (back member))⟩
    · intro c first
      have first := head?_rdropWhile isSpaceChar first
      obtain ⟨rest, same⟩ := List.takeWhile_prefix (· ≠ '#') (l := trimL line)
      have first : (trimL line).head? = some c := by
        rw [← same, List.head?_append, first]
        rfl
      have stop := List.head?_dropWhile_not isSpaceChar line
      rw [trimL] at first
      rw [first] at stop
      exact stop
    · intro member
      have sign := List.mem_takeWhile_imp (body member)
      simp at sign
    · have stop := List.head?_dropWhile_not (· ≠ '#') (trimL line)
      cases first : ((trimL line).dropWhile (· ≠ '#')).head? with
      | none => exact .inl (List.head?_eq_none_iff.mp first)
      | some c =>
        rw [first] at stop
        right
        rw [show c = '#' by simpa using stop]

def IniLine.Fits : IniLine → Prop
  | .sectionHead label comment => Plain label ∧ IsComment comment
  | .keyValue key value comment => IsKey key ∧ Plain value ∧ IsComment comment
  | .blank | .remark | .malformed => True

theorem readContent_fits (tightL : ∀ c ∈ text.head?, isSpaceChar c = false) (noComment : '#' ∉ text)
    (noEnd : '\n' ∉ text) (noNul : '\x00' ∉ text) (isComment : IsComment comment) :
    (readContent text comment).Fits := by
  have part {piece : List Char} (inside : piece ⊆ text) : Plain (trim piece) :=
    plain_trim (fun member => noComment (inside member)) (fun member => noEnd (inside member))
      fun member => noNul (inside member)
  unfold readContent
  split
  · trivial
  split
  · split
    · exact ⟨part fun c member => List.mem_of_mem_tail (List.mem_of_mem_dropLast member), isComment⟩
    · trivial
  rename_i noHead
  split
  · refine ⟨⟨part (List.takeWhile_sublist _).subset, ?_, ?_⟩, ?_, isComment⟩
    · intro member
      have sign := List.mem_takeWhile_imp (trimmed_subset isSpaceChar _ member)
      simp at sign
    · intro first
      have first := head?_rdropWhile isSpaceChar first
      cases text with
      | nil => simp at first
      | cons c rest =>
        rw [List.takeWhile_cons] at first
        split at first
        · rw [List.dropWhile_cons, if_neg (Bool.eq_false_iff.mp (tightL c rfl))] at first
          exact noHead first
        · simp at first
    · exact part fun c member => (List.dropWhile_sublist _).subset (List.mem_of_mem_tail member)
  · trivial

theorem readLine_fits (noEnd : '\n' ∉ line) (noNul : '\x00' ∉ line) : (readLine line).Fits := by
  rcases readLine_content noEnd noNul with same | ⟨content, comment, same, tightL, noComment, noEnd, noNul, isComment⟩
  · rw [same]
    trivial
  · rw [same]
    exact readContent_fits tightL noComment noEnd noNul isComment

theorem readLine_append {content : List Char} (tight : Tight isSpaceChar content) (nonempty : content ≠ [])
    (noComment : '#' ∉ content) {gap : List Char} (blanks : ∀ c ∈ gap, isSpaceChar c = true) (isComment : IsComment comment) :
    readLine (content ++ (gap ++ comment)) = readContent content comment := by
  have front : trimL (content ++ (gap ++ comment)) = content ++ (gap ++ comment) := by
    cases content with
    | nil => exact absurd rfl nonempty
    | cons c rest => simp [trimL, tight.1 c rfl]
  have noSign : ∀ c ∈ content ++ gap, decide (c ≠ '#') = true := by
    intro c member
    rw [decide_eq_true_iff]
    rintro rfl
    rcases List.mem_append.mp member with member | member
    · exact noComment member
    · exact absurd (blanks _ member) (by decide)
  have stop : comment.takeWhile (· ≠ '#') = [] ∧ comment.dropWhile (· ≠ '#') = comment := by
    rcases isComment.starts with rfl | first
    · exact ⟨rfl, rfl⟩
    · cases comment with
      | nil => exact ⟨rfl, rfl⟩
      | cons c rest =>
        rw [List.head?_cons, Option.some.injEq] at first
        simp [first]
  have tail : trimR (content ++ gap) = content := by rw [trimR, rdropWhile_append_blanks blanks, tight.rdropWhile]
  rw [readLine, front, if_neg (by simp [nonempty]), ← List.append_assoc, List.takeWhile_append_of_pos noSign,
    List.dropWhile_append_of_pos noSign, stop.1, stop.2, List.append_nil, tail]

theorem readLine_blanks {before : List Char} (blanks : ∀ c ∈ before, isSpaceChar c = true) (line : List Char) :
    readLine (before ++ line) = readLine line := by
  have same : trimL (before ++ line) = trimL line := List.dropWhile_append_of_pos blanks
  rw [readLine, readLine, same]

def tailText (comment : List Char) : List Char := if comment = [] then [] else '\t' :: comment

def headText (label comment : List Char) : List Char := '[' :: (label ++ [']']) ++ tailText comment

def pairText (key value comment : List Char) : List Char :=
  key ++ ' ' :: '=' :: ' ' :: value ++ tailText comment

theorem tailText_eq (comment : List Char) :
    ∃ gap, tailText comment = gap ++ comment ∧ ∀ c ∈ gap, isSpaceChar c = true := by
  by_cases none : comment = []
  · exact ⟨[], by simp [tailText, none], by simp⟩
  · exact ⟨['\t'], by simp [tailText, none], by simp [isSpaceChar]⟩

theorem readLine_headText (plain : Plain label) (isComment : IsComment comment) :
    readLine (headText label comment) = .sectionHead label comment := by
  obtain ⟨gap, tail, blanks⟩ := tailText_eq comment
  have tight : Tight isSpaceChar ('[' :: (label ++ [']'])) := by
    constructor
    · intro c first
      cases first
      decide
    · intro c last
      rw [← List.cons_append, List.getLast?_concat] at last
      cases last
      decide
  have noComment : '#' ∉ '[' :: (label ++ [']']) := by simp [plain.noComment]
  rw [headText, tail, readLine_append tight (List.cons_ne_nil _ _) noComment blanks isComment, readContent,
    if_neg (List.cons_ne_nil _ _), if_pos List.head?_cons, if_pos (by rw [← List.cons_append, List.getLast?_concat]),
    List.tail_cons, List.dropLast_concat, trim_plain plain]

theorem readContent_pair (noDelim : '=' ∉ key) (noHead : key.head? ≠ some '[') (value comment : List Char) :
    readContent (key ++ '=' :: value) comment = .keyValue (trim key) (trim value) comment := by
  have before : ∀ c ∈ key, decide (c ≠ '=') = true := by
    intro c member
    rw [decide_eq_true_iff]
    rintro rfl
    exact noDelim member
  have first : (key ++ '=' :: value).head? ≠ some '[' := by
    cases key with
    | nil => simp
    | cons c rest => simpa using noHead
  rw [readContent, if_neg (by simp), if_neg first, if_pos (by simp), List.takeWhile_append_of_pos before,
    List.dropWhile_append_of_pos before]
  simp

theorem space_blank : ∀ c ∈ [' '], isSpaceChar c = true := by simp [isSpaceChar]

theorem key_space (isKey : IsKey key) : ∃ before front, key ++ [' '] = before ++ front ∧
    (∀ c ∈ before, isSpaceChar c = true) ∧ (∀ c ∈ front.head?, isSpaceChar c = false) ∧ trim front = key ∧
    '=' ∉ front ∧ front.head? ≠ some '[' ∧ '#' ∉ front := by
  cases key with
  | nil => exact ⟨[' '], [], rfl, space_blank, by simp, rfl, by simp, by simp, by simp⟩
  | cons c rest =>
    have same : trimmed isSpaceChar ([] ++ (c :: rest ++ [' '])) = c :: rest :=
      isKey.tight.trimmed_pad (by simp) space_blank
    exact ⟨[], c :: rest ++ [' '], rfl, by simp, isKey.tight.1, same, by simpa using isKey.noDelim, isKey.noHead,
      by simpa using isKey.noComment⟩

theorem space_value (plain : Plain value) : ∃ back after, ' ' :: value = back ++ after ∧
    (∀ c ∈ after, isSpaceChar c = true) ∧ (∀ c ∈ back.getLast?, isSpaceChar c = false) ∧ trim back = value ∧
    '#' ∉ back := by
  by_cases none : value = []
  · subst none
    exact ⟨[], [' '], rfl, space_blank, by simp, rfl, by simp⟩
  · have same : trimmed isSpaceChar ([' '] ++ (value ++ [])) = value := plain.tight.trimmed_pad space_blank (by simp)
    refine ⟨' ' :: value, [], by simp, by simp, ?_, by simpa [trim] using same, by simpa using plain.noComment⟩
    rw [List.getLast?_cons_of_ne_nil none]
    exact plain.tight.2

theorem readLine_pairText (isKey : IsKey key) (plain : Plain value) (isComment : IsComment comment) :
    readLine (pairText key value comment) = .keyValue key value comment := by
  obtain ⟨gap, tail, blanks⟩ := tailText_eq comment
  obtain ⟨before, front, keyText, blanksL, first, key', noDelim, noHead, noComment⟩ := key_space isKey
  obtain ⟨back, after, valueText, blanksR, last, value', noComment'⟩ := space_value plain
  have text : pairText key value comment = before ++ (front ++ '=' :: back ++ (after ++ gap ++ comment)) :=
    calc pairText key value comment
      _ = key ++ [' '] ++ '=' :: (' ' :: value) ++ (gap ++ comment) := by simp [pairText, tail]
      _ = before ++ (front ++ '=' :: back ++ (after ++ gap ++ comment)) := by simp [keyText, valueText]
  have tight : Tight isSpaceChar (front ++ '=' :: back) := by
    constructor
    · cases front with
      | nil => simp [isSpaceChar]
      | cons c rest => simpa using first
    · rw [List.getLast?_append_of_ne_nil front (List.cons_ne_nil _ _)]
      by_cases none : back = []
      · simp [none, isSpaceChar]
      · rwa [List.getLast?_cons_of_ne_nil none]
  have gaps : ∀ c ∈ after ++ gap, isSpaceChar c = true := by
    intro c member
    exact (List.mem_append.mp member).elim (blanksR c) (blanks c)
  rw [text, readLine_blanks blanksL, readLine_append tight (by simp) (by simp [noComment, noComment']) gaps isComment,
    readContent_pair noDelim noHead, key', value']

end Fields

end XYAnnotation

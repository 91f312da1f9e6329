import XYAnnotation.Files.Parser

namespace XYAnnotation

open Library StdString Lexer

namespace YJson

section WellFormed

variable (fits : ℚ → Prop)

mutual

/-- A document as the library can hold it: the numbers fit, the texts are UTF-8, and no object has a key twice. -/
def WellFormed : YJson → Prop
  | .int n => -2 ^ 63 ≤ n ∧ n < 2 ^ 64
  | .float x => fits x
  | .str s => Utf8.Valid s
  | .arr items => WellFormedItems items
  | .obj members => (members.map Prod.fst).Nodup ∧ WellFormedMembers members
  | .null | .bool _ => True

def WellFormedItems : List YJson → Prop
  | [] => True
  | item :: items => WellFormed item ∧ WellFormedItems items

def WellFormedMembers : List (StdString × YJson) → Prop
  | [] => True
  | (key, value) :: members => Utf8.Valid key ∧ WellFormed value ∧ WellFormedMembers members

end

variable {fits}

mutual

theorem WellFormed.strings (j : YJson) (wellFormed : j.WellFormed fits) : ∀ s ∈ j.strings, Utf8.Valid s := by
  cases j with
  | null | bool | int | float => exact fun s member => absurd member List.not_mem_nil
  | str s => exact List.forall_mem_singleton.mpr wellFormed
  | arr items => exact WellFormedItems.strings items wellFormed
  | obj members => exact WellFormedMembers.strings members wellFormed.2

theorem WellFormedItems.strings (items : List YJson) (wellFormed : WellFormedItems fits items) :
    ∀ s ∈ itemStrings items, Utf8.Valid s := by
  match items with
  | [] => exact fun s member => absurd member List.not_mem_nil
  | item :: items =>
    rw [itemStrings, List.forall_mem_append]
    exact ⟨WellFormed.strings item wellFormed.1, WellFormedItems.strings items wellFormed.2⟩

theorem WellFormedMembers.strings (members : List (StdString × YJson)) (wellFormed : WellFormedMembers fits members) :
    ∀ s ∈ memberStrings members, Utf8.Valid s := by
  match members with
  | [] => exact fun s member => absurd member List.not_mem_nil
  | (key, value) :: members =>
    rw [memberStrings, List.forall_mem_cons, List.forall_mem_append]
    exact ⟨wellFormed.1, WellFormed.strings value wellFormed.2.1, WellFormedMembers.strings members wellFormed.2.2⟩

end

end WellFormed

end YJson

namespace Parser

variable (dumpFloat : ℚ → StdString) (strtod : StdString → Option ℚ)

/-- A fraction that is written as a number with a point or an exponent, and read as it was. -/
structure FloatText (x : ℚ) : Prop where
  number : scanNumberFrom .init .unsigned (dumpFloat x) = some (.float, dumpFloat x, [])
  value : strtod (dumpFloat x) = some x

instance (x : ℚ) : Decidable (FloatText dumpFloat strtod x) :=
  decidable_of_iff (scanNumberFrom .init .unsigned (dumpFloat x) = some (.float, dumpFloat x, []) ∧
    strtod (dumpFloat x) = some x) ⟨fun both => ⟨both.1, both.2⟩, fun text => ⟨text.number, text.value⟩⟩

/-- A value is read from the front of `bytes`, and `rest` is left. -/
def Reads (bytes rest : StdString) (j : YJson) : Prop :=
  ∀ (states : List Bool) (dom : DomParser), parseLoop strtod (readValue strtod bytes states dom) =
    parseLoop strtod ⟨rest, .evaluation, states, dom.handleValue j⟩

section Values

variable {dumpFloat strtod} {bytes rest : StdString} {j : YJson}

theorem readValue_blanks {blanks : StdString} (all : ∀ byte ∈ blanks, isSpace byte = true) (bytes : StdString)
    (states : List Bool) (dom : DomParser) :
    readValue strtod (blanks ++ bytes) states dom = readValue strtod bytes states dom := by
  rw [readValue, scan_blanks strtod all, ← readValue]

theorem Reads.blanks (reads : Reads strtod bytes rest j) {blanks : StdString}
    (all : ∀ byte ∈ blanks, isSpace byte = true) : Reads strtod (blanks ++ bytes) rest j := by
  intro states dom
  rw [readValue_blanks all]
  exact reads states dom

theorem parseLoop_value {token : Token} (scanned : scan strtod bytes = (token, rest)) (states : List Bool)
    (dom : DomParser) {q : Parser} (done : valueStep strtod token rest states dom = .next q) :
    parseLoop strtod (readValue strtod bytes states dom) = parseLoop strtod q := by
  refine parseLoop_next ?_
  rw [readValue, scanned]
  exact done

theorem not_endArray {states : List Bool} {dom : DomParser} {q : Parser}
    (read : parseLoop strtod (readValue strtod bytes states dom) = .ok q) : (scan strtod bytes).1 ≠ .endArray := by
  intro same
  have failed : step strtod (readValue strtod bytes states dom) = .failed := by
    rw [readValue, same]
    rfl
  cases (parseLoop_failed failed).symm.trans read

theorem not_endObject {states : List Bool} {dom : DomParser} {q : Parser}
    (key : keyStep strtod bytes states dom = .next q) : (scan strtod bytes).1 ≠ .endObject := by
  intro same
  rw [keyStep, same] at key
  cases key

theorem valueStep_beginArray (more : (scan strtod bytes).1 ≠ .endArray) (states : List Bool) (dom : DomParser) :
    valueStep strtod .beginArray bytes states dom =
      .next (readValue strtod bytes (true :: states) dom.startArray) := by
  simp only [valueStep]

theorem valueStep_beginObject (more : (scan strtod bytes).1 ≠ .endObject) (states : List Bool) (dom : DomParser) :
    valueStep strtod .beginObject bytes states dom = keyStep strtod bytes (false :: states) dom.startObject := by
  simp only [valueStep]

theorem reads_token {token : Token} (scanned : scan strtod bytes = (token, rest))
    (handled_ : ∀ states dom, valueStep strtod token rest states dom = handled rest states dom j) :
    Reads strtod bytes rest j := by
  intro states dom
  exact parseLoop_value scanned states dom (handled_ states dom)

theorem scanNumberFrom_starts {type type' : NumberType} {buffer : StdString}
    (read : scanNumberFrom .init type bytes = some (type', buffer, rest)) :
    ∃ byte tail, bytes = byte :: tail ∧ (byte = 0x2D ∨ isDigit byte = true) := by
  cases bytes with
  | nil => cases read
  | cons byte tail =>
    refine ⟨byte, tail, rfl, ?_⟩
    by_contra other
    obtain ⟨minus, digit⟩ := not_or.mp other
    have zero : byte ≠ 0x30 := by
      rintro rfl
      exact digit rfl
    have stops : NumberState.init.next byte = none := (if_neg minus).trans ((if_neg zero).trans (if_neg digit))
    rw [scanNumberFrom, stops] at read
    cases read

theorem scan_of_scanNumber {token : Token} (read : scanNumber strtod bytes = (token, rest))
    (proper : token ≠ .parseError) : scan strtod bytes = (token, rest) := by
  cases found : scanNumberFrom .init .unsigned bytes with
  | none =>
    rw [scanNumber, found] at read
    exact absurd (Prod.mk.inj read).1.symm proper
  | some number =>
    obtain ⟨byte, tail, rfl, starts⟩ := scanNumberFrom_starts found
    rw [scan_number strtod starts, read]

theorem reads_int {n : ℤ} (low : -2 ^ 63 ≤ n) (high : n < 2 ^ 64) (ends : EndsNumber rest) :
    Reads strtod (utf8 (stdToString n) ++ rest) rest (.int n) := by
  have number := scanNumber_int strtod low high ends
  by_cases negative : n < 0
  · rw [if_pos negative] at number
    exact reads_token (scan_of_scanNumber number Token.noConfusion) fun _ _ => rfl
  · rw [if_neg negative] at number
    exact reads_token (scan_of_scanNumber number Token.noConfusion) fun _ _ => rfl

theorem reads_float {x : ℚ} (text : FloatText dumpFloat strtod x) (ends : EndsNumber rest) :
    Reads strtod (dumpFloat x ++ rest) rest (.float x) := by
  have number : scanNumber strtod (dumpFloat x ++ rest) = (.valueFloat (some x), rest) := by
    rw [scanNumber, scanNumberFrom_append text.number ends]
    simp only [numberToken, text.value]
  exact reads_token (scan_of_scanNumber number Token.noConfusion) fun _ _ => rfl

theorem reads_string {s text : StdString} (written : YJson.quoted s = .ok text) :
    Reads strtod (text ++ rest) rest (.str s) :=
  reads_token (scan_quoted strtod written rest) fun _ _ => rfl

end Values

section Containers

theorem endsNumber_of_other {byte : UInt8} (digit : isDigit byte = false) (point : byte ≠ 0x2E)
    (exponent : isExponent byte = false) (rest : StdString) : EndsNumber (byte :: rest) := by
  refine endsNumber_cons (fun state done => ?_) rest
  cases state with
  | init | minus | decimal1 | exponent | sign => cases done
  | zero => exact (if_neg point).trans (if_neg (by simp [exponent]))
  | any1 => exact (if_neg (by simp [digit])).trans ((if_neg point).trans (if_neg (by simp [exponent])))
  | decimal2 => exact (if_neg (by simp [digit])).trans (if_neg (by simp [exponent]))
  | any2 => exact if_neg (by simp [digit])

theorem spaces_blank (n : ℕ) : ∀ byte ∈ YJson.spaces n, isSpace byte = true := by
  intro byte member
  rw [List.eq_of_mem_replicate member]
  rfl

theorem newline_blank : ∀ byte ∈ [(0x0A : UInt8)], isSpace byte = true := by simp [isSpace]

theorem scan_closing (strtod : StdString → Option ℚ) {byte : UInt8} {token : Token}
    (read : structural byte = some token) (visible : isSpace byte = false) (indent : ℕ) (rest : StdString) :
    scan strtod (0x0A :: (YJson.spaces indent ++ byte :: rest)) = (token, rest) := by
  rw [← List.singleton_append, scan_blanks strtod newline_blank, scan_blanks strtod (spaces_blank indent),
    scan_structural strtod read visible]

theorem parseLoop_comma {strtod : StdString → Option ℚ} (bytes : StdString) (states : List Bool) (dom : DomParser) :
    parseLoop strtod ⟨0x2C :: 0x0A :: bytes, .evaluation, true :: states, dom⟩ =
      parseLoop strtod (readValue strtod bytes (true :: states) dom) := by
  have separator : scan strtod (0x2C :: 0x0A :: bytes) = (.valueSeparator, 0x0A :: bytes) :=
    scan_structural strtod rfl rfl _
  rw [← readValue_blanks newline_blank, List.singleton_append]
  refine parseLoop_next ?_
  simp only [step, evaluationStep, separator]

theorem reads_array {strtod : StdString → Option ℚ} {bytes rest : StdString} {items : List YJson}
    (body : ∀ states root frames, parseLoop strtod (readValue strtod bytes (true :: states) ⟨root, .array [] :: frames⟩) =
      parseLoop strtod ⟨rest, .evaluation, states, DomParser.handleValue ⟨root, frames⟩ (.arr items)⟩) :
    Reads strtod (0x5B :: 0x0A :: bytes) rest (.arr items) := by
  have opened : scan strtod (0x5B :: 0x0A :: bytes) = (.beginArray, 0x0A :: bytes) := scan_structural strtod rfl rfl _
  have skipped : scan strtod (0x0A :: bytes) = scan strtod bytes := scan_blanks strtod newline_blank bytes
  have more : (scan strtod (0x0A :: bytes)).1 ≠ .endArray := by
    rw [skipped]
    exact not_endArray ((body [] .null []).trans (parseLoop_finished rfl))
  intro states dom
  refine (parseLoop_value opened states dom ?_).trans (body states dom.root dom.refStack)
  rw [valueStep_beginArray more, readValue, skipped]
  rfl

section Members

variable {strtod : StdString → Option ℚ} {states : List Bool} {dom : DomParser} {q : Parser}

theorem keyStep_newline (bytes : StdString) (states : List Bool) (dom : DomParser) :
    keyStep strtod (0x0A :: bytes) states dom = keyStep strtod bytes states dom := by
  have skipped : scan strtod (0x0A :: bytes) = scan strtod bytes := scan_blanks strtod newline_blank bytes
  simp only [keyStep, skipped]

theorem parseLoop_nextMember {bytes : StdString} (key : keyStep strtod bytes (false :: states) dom = .next q) :
    parseLoop strtod ⟨0x2C :: 0x0A :: bytes, .evaluation, false :: states, dom⟩ = parseLoop strtod q := by
  have separator : scan strtod (0x2C :: 0x0A :: bytes) = (.valueSeparator, 0x0A :: bytes) :=
    scan_structural strtod rfl rfl _
  refine parseLoop_next ?_
  simp only [step, evaluationStep, separator, keyStep_newline, key]

theorem keyStep_written {key name : StdString} (written : YJson.quoted key = .ok name) (indent : ℕ) (bytes : StdString)
    (states : List Bool) (dom : DomParser) :
    keyStep strtod (YJson.spaces indent ++ (name ++ (utf8 ": " ++ bytes))) states dom =
      .next (readValue strtod bytes states (dom.key key)) := by
  have blank : ∀ byte ∈ [(0x20 : UInt8)], isSpace byte = true := by simp [isSpace]
  have first : scan strtod (YJson.spaces indent ++ (name ++ (utf8 ": " ++ bytes))) =
      (.valueString key, utf8 ": " ++ bytes) := by
    rw [scan_blanks strtod (spaces_blank indent), scan_quoted strtod written]
  have separator : scan strtod (utf8 ": " ++ bytes) = (.nameSeparator, [0x20] ++ bytes) :=
    scan_structural strtod rfl rfl _
  simp only [keyStep, first, separator, readValue_blanks blank]

theorem reads_object {bytes rest : StdString} {members : List (StdString × YJson)}
    (body : ∀ states root frames, ∃ q, keyStep strtod bytes (false :: states) ⟨root, .object [] [] :: frames⟩ = .next q ∧
      parseLoop strtod q =
        parseLoop strtod ⟨rest, .evaluation, states, DomParser.handleValue ⟨root, frames⟩ (.obj members)⟩) :
    Reads strtod (0x7B :: 0x0A :: bytes) rest (.obj members) := by
  have opened : scan strtod (0x7B :: 0x0A :: bytes) = (.beginObject, 0x0A :: bytes) := scan_structural strtod rfl rfl _
  intro states dom
  obtain ⟨q, key, read⟩ := body states dom.root dom.refStack
  refine (parseLoop_value opened states dom ?_).trans read
  rw [← keyStep_newline] at key
  exact (valueStep_beginObject (not_endObject key) states dom).trans key

theorem setMember_new {members : List (StdString × YJson)} {key : StdString} (value : YJson)
    (new : key ∉ members.map Prod.fst) : DomParser.setMember members key value = members ++ [(key, value)] := by
  refine updateFirst_of_none fun member listed => decide_eq_false ?_
  rintro rfl
  exact new (List.mem_map_of_mem listed)

theorem handleValue_member (root : YJson) (frames : List Frame) {done : List (StdString × YJson)} (last : StdString)
    {key : StdString} (value : YJson) {members : List (StdString × YJson)}
    (distinct : ((done ++ (key, value) :: members).map Prod.fst).Nodup) :
    ((DomParser.mk root (.object done last :: frames)).key key).handleValue value =
      ⟨root, .object (done ++ [(key, value)]) key :: frames⟩ := by
  rw [List.map_append, List.nodup_append] at distinct
  have new : key ∉ done.map Prod.fst := fun member => distinct.2.2 key member key List.mem_cons_self rfl
  rw [← setMember_new value new]
  rfl

end Members

variable {dumpFloat strtod}

mutual

theorem reads_dump (indent : ℕ) (j : YJson) (wellFormed : j.WellFormed (FloatText dumpFloat strtod)) {text : StdString}
    (dumped : YJson.dump dumpFloat indent j = .ok text) {rest : StdString} (ends : EndsNumber rest) :
    Reads strtod (text ++ rest) rest j := by
  cases j with
  | null =>
    cases dumped
    exact reads_token (scan_null strtod rest) fun _ _ => rfl
  | bool value =>
    cases dumped
    cases value with
    | true => exact reads_token (scan_true strtod rest) fun _ _ => rfl
    | false => exact reads_token (scan_false strtod rest) fun _ _ => rfl
  | int n =>
    cases dumped
    exact reads_int wellFormed.1 wellFormed.2 ends
  | float x =>
    cases dumped
    exact reads_float wellFormed ends
  | str s => exact reads_string dumped
  | arr items =>
    cases items with
    | nil =>
      cases dumped
      have opened : scan strtod (utf8 "[]" ++ rest) = (.beginArray, 0x5D :: rest) := scan_structural strtod rfl rfl _
      have closed : scan strtod (0x5D :: rest) = (.endArray, rest) := scan_structural strtod rfl rfl _
      intro states dom
      refine parseLoop_value opened states dom ?_
      simp only [valueStep, closed]
      rfl
    | cons item items =>
      obtain ⟨inner, innerDumped, tail⟩ := bind_completes dumped
      cases tail
      have closed := scan_closing strtod (show structural 0x5D = some .endArray from rfl) rfl indent rest
      have body := reads_items (indent + 4) (item :: items) (List.cons_ne_nil _ _) wellFormed innerDumped closed
        (endsNumber_of_other rfl (by decide) rfl _)
      simp only [List.append_assoc]
      exact reads_array fun states root frames => body states root frames []
  | obj members =>
    cases members with
    | nil =>
      cases dumped
      have opened : scan strtod (utf8 "\x7b\x7d" ++ rest) = (.beginObject, 0x7D :: rest) :=
        scan_structural strtod rfl rfl _
      have closed : scan strtod (0x7D :: rest) = (.endObject, rest) := scan_structural strtod rfl rfl _
      intro states dom
      refine parseLoop_value opened states dom ?_
      simp only [valueStep, closed]
      rfl
    | cons member members =>
      obtain ⟨inner, innerDumped, tail⟩ := bind_completes dumped
      cases tail
      have closed := scan_closing strtod (show structural 0x7D = some .endObject from rfl) rfl indent rest
      have body := reads_members (indent + 4) (member :: members) (List.cons_ne_nil _ _) wellFormed.2 innerDumped closed
        (endsNumber_of_other rfl (by decide) rfl _)
      simp only [List.append_assoc]
      exact reads_object fun states root frames => body states root frames [] [] wellFormed.1

theorem reads_items (indent : ℕ) (items : List YJson) (nonempty : items ≠ [])
    (wellFormed : YJson.WellFormedItems (FloatText dumpFloat strtod) items) {text : StdString}
    (dumped : YJson.dumpItems dumpFloat indent items = .ok text) {closing rest : StdString}
    (closed : scan strtod closing = (.endArray, rest)) (ends : EndsNumber closing) (states : List Bool) (root : YJson)
    (frames : List Frame) (done : List YJson) :
    parseLoop strtod (readValue strtod (text ++ closing) (true :: states) ⟨root, .array done :: frames⟩) =
      parseLoop strtod ⟨rest, .evaluation, states, DomParser.handleValue ⟨root, frames⟩ (.arr (done ++ items))⟩ := by
  match items with
  | [] => exact absurd rfl nonempty
  | [item] =>
    obtain ⟨itemText, itemDumped, tail⟩ := bind_completes dumped
    cases tail
    have reads := (reads_dump indent item wellFormed.1 itemDumped ends).blanks (spaces_blank indent)
    simp only [List.isEmpty_nil, if_true, List.append_nil, List.append_assoc]
    refine (reads (true :: states) ⟨root, .array done :: frames⟩).trans (parseLoop_next ?_)
    simp only [step, evaluationStep, closed]
    rfl
  | item :: next :: items =>
    obtain ⟨itemText, itemDumped, tail⟩ := bind_completes dumped
    obtain ⟨restText, restDumped, tail⟩ := bind_completes tail
    cases tail
    have others := reads_items indent (next :: items) (List.cons_ne_nil _ _) wellFormed.2 restDumped closed ends states
      root frames (done ++ [item])
    rw [List.append_assoc, List.singleton_append] at others
    have comma : EndsNumber (utf8 ",\n" ++ restText ++ closing) := endsNumber_of_other rfl (by decide) rfl _
    have reads := (reads_dump indent item wellFormed.1 itemDumped comma).blanks (spaces_blank indent)
    simp only [List.isEmpty_cons, Bool.false_eq_true, if_false, List.append_assoc] at reads ⊢
    exact (reads (true :: states) ⟨root, .array done :: frames⟩).trans ((parseLoop_comma _ states _).trans others)

theorem reads_members (indent : ℕ) (members : List (StdString × YJson)) (nonempty : members ≠ [])
    (wellFormed : YJson.WellFormedMembers (FloatText dumpFloat strtod) members) {text : StdString}
    (dumped : YJson.dumpMembers dumpFloat indent members = .ok text) {closing rest : StdString}
    (closed : scan strtod closing = (.endObject, rest)) (ends : EndsNumber closing) (states : List Bool) (root : YJson)
    (frames : List Frame) (done : List (StdString × YJson)) (last : StdString)
    (distinct : ((done ++ members).map Prod.fst).Nodup) :
    ∃ q, keyStep strtod (text ++ closing) (false :: states) ⟨root, .object done last :: frames⟩ = .next q ∧
      parseLoop strtod q =
        parseLoop strtod ⟨rest, .evaluation, states, DomParser.handleValue ⟨root, frames⟩ (.obj (done ++ members))⟩ := by
  match members with
  | [] => exact absurd rfl nonempty
  | [(key, value)] =>
    obtain ⟨name, written, tail⟩ := bind_completes dumped
    obtain ⟨valueText, valueDumped, tail⟩ := bind_completes tail
    cases tail
    have reads := reads_dump indent value wellFormed.2.1 valueDumped ends
    simp only [List.isEmpty_nil, if_true, List.append_nil, List.append_assoc]
    refine ⟨_, keyStep_written written indent _ _ _, (reads (false :: states) _).trans (parseLoop_next ?_)⟩
    simp only [step, evaluationStep, closed, handleValue_member root frames last value distinct]
    rfl
  | (key, value) :: next :: members =>
    obtain ⟨name, written, tail⟩ := bind_completes dumped
    obtain ⟨valueText, valueDumped, tail⟩ := bind_completes tail
    obtain ⟨restText, restDumped, tail⟩ := bind_completes tail
    cases tail
    have others := reads_members indent (next :: members) (List.cons_ne_nil _ _) wellFormed.2.2 restDumped closed ends states
      root frames (done ++ [(key, value)]) key (by rwa [List.append_assoc, List.singleton_append])
    rw [List.append_assoc, List.singleton_append] at others
    obtain ⟨q, nextKey, read⟩ := others
    have comma : EndsNumber (utf8 ",\n" ++ restText ++ closing) := endsNumber_of_other rfl (by decide) rfl _
    have reads := reads_dump indent value wellFormed.2.1 valueDumped comma
    simp only [List.isEmpty_cons, Bool.false_eq_true, if_false, List.append_assoc] at reads ⊢
    refine ⟨_, keyStep_written written indent _ _ _, (reads (false :: states) _).trans ?_⟩
    rw [handleValue_member root frames last value distinct]
    exact (parseLoop_nextMember nextKey).trans read

end

end Containers

section Document

variable {strtod : StdString → Option ℚ}

theorem skipBom_of_read {bytes : StdString} {q : Parser} (read : parseLoop strtod (start strtod bytes) = .ok q) :
    skipBom bytes = some bytes := by
  have failed (rest : StdString) : parseLoop strtod (start strtod (0xEF :: rest)) = .error .jsonError :=
    parseLoop_failed rfl
  unfold skipBom
  split
  · cases (failed _).symm.trans read
  · cases (failed _).symm.trans read
  · rfl

theorem parse_of_reads {bytes rest : StdString} {j : YJson} (reads : Reads strtod bytes rest j) :
    parse strtod bytes = .ok j := by
  have read := (reads [] ⟨.null, []⟩).trans (parseLoop_finished rfl)
  rw [parse, skipBom_of_read read]
  simp only [start, read]
  rfl

/-- Every document is read as it was written. -/
theorem parse_dump {dumpFloat : ℚ → StdString} {j : YJson} (wellFormed : j.WellFormed (FloatText dumpFloat strtod)) :
    ∃ text, j.dump dumpFloat 0 = .ok text ∧ ∀ rest, EndsNumber rest → parse strtod (text ++ rest) = .ok j := by
  obtain ⟨text, dumped⟩ := (YJson.dump_completes dumpFloat 0 j).mpr (YJson.WellFormed.strings j wellFormed)
  exact ⟨text, dumped, fun rest ends => parse_of_reads (reads_dump 0 j wellFormed dumped ends)⟩

end Document

end Parser

end XYAnnotation

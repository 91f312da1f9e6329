import XYAnnotation.Files.JsonText

namespace XYAnnotation

open Library StdString

namespace Lexer

section Strings

theorem nextBytesInRange_append {ranges : List (ℕ × ℕ)} {bytes read rest : StdString}
    (found : nextBytesInRange ranges bytes = some (read, rest)) (extra : StdString) :
    nextBytesInRange ranges (bytes ++ extra) = some (read, rest ++ extra) := by
  induction ranges generalizing bytes read with
  | nil =>
    cases found
    rfl
  | cons range ranges ih =>
    cases bytes with
    | nil => cases found
    | cons byte bytes =>
      rw [nextBytesInRange] at found
      split at found
      · rename_i inside
        obtain ⟨⟨read', rest'⟩, found, same⟩ := Option.map_eq_some_iff.mp found
        cases same
        exact nextBytesInRange_cons inside (ih found)
      · cases found

theorem getCodepoint_append {bytes rest : StdString} {codepoint : ℕ}
    (read : getCodepoint bytes = some (codepoint, rest)) (extra : StdString) :
    getCodepoint (bytes ++ extra) = some (codepoint, rest ++ extra) := by
  match bytes, read with
  | a :: b :: c :: d :: tail, read =>
    simp only [List.cons_append, getCodepoint, Option.bind_eq_bind, Option.bind_eq_some_iff, Option.some.injEq,
      Prod.mk.injEq] at read ⊢
    obtain ⟨a', first, b', second, c', third, d', fourth, same, rfl⟩ := read
    exact ⟨a', first, b', second, c', third, d', fourth, same, rfl⟩

def StringStep.append (step : StringStep) (extra : StdString) : StringStep :=
  match step with
  | .closed rest => .closed (rest ++ extra)
  | .added bytes rest => .added bytes (rest ++ extra)
  | .failed => .failed

theorem unicodeStep_append {bytes : StdString} (read : unicodeStep bytes ≠ .failed) (extra : StdString) :
    unicodeStep (bytes ++ extra) = (unicodeStep bytes).append extra := by
  unfold unicodeStep at read ⊢
  cases first : getCodepoint bytes with
  | none =>
    rw [first] at read
    exact absurd rfl read
  | some found =>
    obtain ⟨codepoint1, rest⟩ := found
    rw [getCodepoint_append first]
    simp only [first] at read ⊢
    split at read
    · rename_i high
      rw [if_pos high, if_pos high]
      split at read
      · rename_i tail
        cases second : getCodepoint tail with
        | none =>
          rw [second] at read
          exact absurd rfl read
        | some found =>
          obtain ⟨codepoint2, rest⟩ := found
          simp only [List.cons_append, getCodepoint_append second, second] at read ⊢
          split at read
          · rename_i low
            rw [if_pos low, if_pos low]
            rfl
          · exact absurd rfl read
      · exact absurd rfl read
    · rename_i notHigh
      rw [if_neg notHigh, if_neg notHigh]
      split at read
      · exact absurd rfl read
      · rename_i notLow
        rw [if_neg notLow, if_neg notLow]
        rfl

theorem escapeStep_append {bytes : StdString} (read : escapeStep bytes ≠ .failed) (extra : StdString) :
    escapeStep (bytes ++ extra) = (escapeStep bytes).append extra := by
  cases bytes with
  | nil => exact absurd rfl read
  | cons byte rest =>
    simp only [List.cons_append, escapeStep] at read ⊢
    split
    · rfl
    · rename_i other
      simp only [other] at read
      split
      · rename_i isUnicode
        rw [if_pos isUnicode] at read
        exact unicodeStep_append read extra
      · rfl

theorem stringStep_append {bytes : StdString} (read : stringStep bytes ≠ .failed) (extra : StdString) :
    stringStep (bytes ++ extra) = (stringStep bytes).append extra := by
  cases bytes with
  | nil => exact absurd rfl read
  | cons byte rest =>
    rw [List.cons_append, stringStep, stringStep]
    rw [stringStep] at read
    split
    · rfl
    rename_i notQuote
    rw [if_neg notQuote] at read
    split
    · rename_i backslash
      rw [if_pos backslash] at read
      exact escapeStep_append read extra
    rename_i notBackslash
    rw [if_neg notBackslash] at read
    split
    · rfl
    · rename_i ranges ranged
      simp only [ranged] at read
      cases found : nextBytesInRange ranges rest with
      | none =>
        rw [found] at read
        exact absurd rfl read
      | some pair =>
        obtain ⟨added, tail⟩ := pair
        simp only [nextBytesInRange_append found]
        rfl

theorem scanString_append {bytes content rest : StdString} (read : scanString bytes = some (content, rest))
    (extra : StdString) : scanString (bytes ++ extra) = some (content, rest ++ extra) := by
  induction bytes using scanString.induct generalizing content with
  | case1 bytes rest' step =>
    have whole := stringStep_append (by rw [step]; exact StringStep.noConfusion) extra
    rw [scanString_closed_of step] at read
    cases read
    rw [step] at whole
    exact scanString_closed_of whole
  | case2 bytes added rest' step ih =>
    have whole := stringStep_append (by rw [step]; exact StringStep.noConfusion) extra
    rw [scanString_added step] at read
    obtain ⟨⟨content', last⟩, read, same⟩ := Option.map_eq_some_iff.mp read
    cases same
    rw [step] at whole
    rw [scanString_added whole, ih read]
    rfl
  | case3 bytes step =>
    rw [scanString_failed step] at read
    cases read

end Strings

section Scan

theorem scanNumberFrom_extended {state : NumberState} {type type' : NumberType} {bytes buffer rest : StdString}
    (read : scanNumberFrom state type bytes = some (type', buffer, rest)) (more : rest ≠ []) (extra : StdString) :
    scanNumberFrom state type (bytes ++ extra) = some (type', buffer, rest ++ extra) := by
  induction bytes generalizing state type buffer with
  | nil =>
    rw [scanNumberFrom] at read
    split at read
    · cases read
      exact absurd rfl more
    · cases read
  | cons byte bytes ih =>
    rw [scanNumberFrom] at read
    rw [List.cons_append, scanNumberFrom]
    split at read
    · rename_i next step
      obtain ⟨⟨type₁, buffer₁, rest₁⟩, read, same⟩ := Option.map_eq_some_iff.mp read
      cases same
      rw [ih read]
      rfl
    · split at read
      · rename_i done
        cases read
        rw [if_pos done]
        rfl
      · cases read

theorem scanLiteral_append {text bytes rest : StdString} {token found : Token}
    (read : scanLiteral text token bytes = (found, rest)) (proper : found ≠ .parseError) (extra : StdString) :
    scanLiteral text token (bytes ++ extra) = (found, rest ++ extra) := by
  unfold scanLiteral at read ⊢
  split at read
  · rename_i same
    cases read
    have long : text.length ≤ bytes.length := by
      have whole := congrArg List.length same
      rw [List.length_take] at whole
      omega
    rw [List.take_append_of_le_length long, if_pos same, List.drop_append_of_le_length long]
  · cases read
    exact absurd rfl proper

/-- A token that ends where it ends only because of what follows. -/
def isNumber : Token → Bool
  | .valueUnsigned _ | .valueInteger _ | .valueFloat _ => true
  | _ => false

variable {strtod : StdString → Option ℚ}

/-- The token is complete: it is no error, not the end, and no number that more bytes could go on with. -/
structure Complete (token : Token) (rest : StdString) : Prop where
  proper : token ≠ .parseError
  more : token ≠ .endOfInput
  delimited : isNumber token = true → rest ≠ []

theorem scanNumber_append {bytes rest : StdString} {token : Token} (read : scanNumber strtod bytes = (token, rest))
    (complete : Complete token rest) (extra : StdString) :
    scanNumber strtod (bytes ++ extra) = (token, rest ++ extra) := by
  unfold scanNumber at read
  split at read
  · rename_i type buffer rest' found
    cases read
    have number : isNumber (numberToken strtod type buffer) = true := by
      unfold numberToken
      split
      · split <;> rfl
      · split <;> rfl
      · rfl
    rw [scanNumber, scanNumberFrom_extended found (complete.delimited number)]
  · cases read
    exact absurd rfl complete.proper

theorem scanLong_append {byte : UInt8} {bytes rest : StdString} {token : Token}
    (read : scanLong strtod byte bytes = (token, rest)) (complete : Complete token rest) (extra : StdString) :
    scanLong strtod byte (bytes ++ extra) = (token, rest ++ extra) := by
  unfold scanLong at read ⊢
  rw [← List.cons_append]
  split at read
  · rename_i first
    rw [if_pos first]
    exact scanLiteral_append read complete.proper extra
  rename_i notTrue
  rw [if_neg notTrue]
  split at read
  · rename_i first
    rw [if_pos first]
    exact scanLiteral_append read complete.proper extra
  rename_i notFalse
  rw [if_neg notFalse]
  split at read
  · rename_i first
    rw [if_pos first]
    exact scanLiteral_append read complete.proper extra
  rename_i notNull
  rw [if_neg notNull]
  split at read
  · rename_i first
    rw [if_pos first]
    split at read
    · rename_i found
      cases read
      rw [scanString_append found]
    · cases read
      exact absurd rfl complete.proper
  rename_i notString
  rw [if_neg notString]
  split at read
  · rename_i first
    rw [if_pos first]
    exact scanNumber_append read complete extra
  rename_i notNumber
  rw [if_neg notNumber]
  split at read
  · cases read
    exact absurd rfl complete.more
  · cases read
    exact absurd rfl complete.proper

/-- What follows a complete token does not change it. -/
theorem scan_append {bytes rest : StdString} {token : Token} (read : scan strtod bytes = (token, rest))
    (complete : Complete token rest) (extra : StdString) : scan strtod (bytes ++ extra) = (token, rest ++ extra) := by
  unfold scan at read ⊢
  split at read
  · cases read
    exact absurd rfl complete.more
  · rename_i byte tail visible
    have whole : (bytes ++ extra).dropWhile isSpace = byte :: (tail ++ extra) := by
      rw [List.dropWhile_append, visible]
      rfl
    rw [whole]
    cases found : structural byte with
    | some token' =>
      simp only [found] at read ⊢
      cases read
      rfl
    | none =>
      simp only [found] at read ⊢
      exact scanLong_append read complete extra

end Scan

end Lexer

def YJson.isStructured : YJson → Bool
  | .arr _ | .obj _ => true
  | .null | .bool _ | .int _ | .float _ | .str _ => false

namespace Parser

open Lexer

variable {strtod : StdString → Option ℚ}

def append (p : Parser) (extra : StdString) : Parser := { p with rest := p.rest ++ extra }

theorem parseLoop_exhausted {states : List Bool} (inside : states ≠ []) (dom : DomParser) :
    parseLoop strtod ⟨[], .evaluation, states, dom⟩ = .error .jsonError := by
  have ended : (scan strtod []).1 = .endOfInput := rfl
  refine parseLoop_failed ?_
  cases states with
  | nil => exact absurd rfl inside
  | cons isArray outer =>
    cases isArray with
    | true => simp only [step, evaluationStep, ended]
    | false => simp only [step, evaluationStep, ended]

section Inside

variable {bytes : StdString} {states : List Bool} {dom : DomParser} {p q : Parser}

theorem readValue_complete (inside : states ≠ []) (read : parseLoop strtod (readValue strtod bytes states dom) = .ok q) :
    Complete (scan strtod bytes).1 (scan strtod bytes).2 := by
  have failed (stops : valueStep strtod (scan strtod bytes).1 (scan strtod bytes).2 states dom = .failed) : False := by
    have error : parseLoop strtod (readValue strtod bytes states dom) = .error .jsonError := parseLoop_failed stops
    cases error.symm.trans read
  have handled_ (value : YJson) (none : (scan strtod bytes).2 = [])
      (next : valueStep strtod (scan strtod bytes).1 (scan strtod bytes).2 states dom =
        handled (scan strtod bytes).2 states dom value) : False := by
    rw [parseLoop_value rfl states dom next, none, parseLoop_exhausted inside] at read
    cases read
  constructor
  · intro error
    exact failed (by rw [error]; rfl)
  · intro ended
    exact failed (by rw [ended]; rfl)
  · intro number none
    cases token : (scan strtod bytes).1 with
    | valueUnsigned n | valueInteger n => exact handled_ _ none (by rw [token]; rfl)
    | valueFloat value =>
      cases value with
      | some x => exact handled_ _ none (by rw [token]; rfl)
      | none => exact failed (by rw [token]; rfl)
    | _ =>
      rw [token] at number
      cases number

theorem readValue_append (inside : states ≠ [])
    (read : parseLoop strtod (readValue strtod bytes states dom) = .ok q) (extra : StdString) :
    readValue strtod (bytes ++ extra) states dom = (readValue strtod bytes states dom).append extra := by
  rw [readValue, scan_append rfl (readValue_complete inside read) extra]
  rfl

theorem scan_append_of {token : Token} (read : (scan strtod bytes).1 = token) (complete : Complete token (scan strtod bytes).2)
    (extra : StdString) : scan strtod (bytes ++ extra) = (token, (scan strtod bytes).2 ++ extra) :=
  scan_append (Prod.ext read rfl) complete extra

theorem complete_of {token : Token} {rest : StdString} (proper : token ≠ .parseError) (more : token ≠ .endOfInput)
    (other : isNumber token = false) : Complete token rest :=
  ⟨proper, more, fun number => absurd number (by simp [other])⟩

theorem keyStep_append (inside : states ≠ []) (done : keyStep strtod bytes states dom = .next p)
    (read : parseLoop strtod p = .ok q) (extra : StdString) :
    keyStep strtod (bytes ++ extra) states dom = .next (p.append extra) := by
  unfold keyStep at done
  split at done
  · rename_i name first
    split at done
    · rename_i second
      cases done
      have name' := scan_append_of first (complete_of (by simp) (by simp) rfl) extra
      have separator := scan_append_of second (complete_of (by simp) (by simp) rfl) extra
      simp only [keyStep, name', separator, readValue_append inside read]
    · cases done
  · cases done

theorem valueStep_append {token : Token} (done : valueStep strtod token bytes states dom = .next p)
    (read : parseLoop strtod p = .ok q) (extra : StdString) :
    valueStep strtod token (bytes ++ extra) states dom = .next (p.append extra) := by
  unfold valueStep at done
  split at done
  · split at done
    · rename_i closed
      cases done
      have closed' := scan_append_of closed (complete_of (by simp) (by simp) rfl) extra
      simp only [valueStep, closed']
      rfl
    · have key := keyStep_append (by simp) done read extra
      exact (valueStep_beginObject (not_endObject key) states dom).trans key
  · split at done
    · rename_i closed
      cases done
      have closed' := scan_append_of closed (complete_of (by simp) (by simp) rfl) extra
      simp only [valueStep, closed']
      rfl
    · rename_i other
      cases done
      have inside : true :: states ≠ [] := List.cons_ne_nil _ _
      have first := scan_append rfl (readValue_complete inside read) extra
      have more : (scan strtod (bytes ++ extra)).1 ≠ .endArray := by
        rw [first]
        exact other
      rw [valueStep_beginArray more, readValue_append inside read]
  · cases done
    rfl
  · cases done
  · cases done
    rfl
  · cases done
    rfl
  · cases done
    rfl
  · cases done
    rfl
  · cases done
    rfl
  · cases done
    rfl
  all_goals cases done

theorem evaluationStep_append (done : evaluationStep strtod bytes states dom = .next p)
    (read : parseLoop strtod p = .ok q) (extra : StdString) :
    evaluationStep strtod (bytes ++ extra) states dom = .next (p.append extra) := by
  unfold evaluationStep at done
  split at done
  · cases done
  · split at done
    · rename_i found
      cases done
      have found' := scan_append_of found (complete_of (by simp) (by simp) rfl) extra
      simp only [evaluationStep, found', readValue_append (List.cons_ne_nil _ _) read]
    · rename_i found
      cases done
      have found' := scan_append_of found (complete_of (by simp) (by simp) rfl) extra
      simp only [evaluationStep, found']
      rfl
    · cases done
  · split at done
    · rename_i found
      have found' := scan_append_of found (complete_of (by simp) (by simp) rfl) extra
      have key := keyStep_append (List.cons_ne_nil _ _) done read extra
      simp only [evaluationStep, found', key]
    · rename_i found
      cases done
      have found' := scan_append_of found (complete_of (by simp) (by simp) rfl) extra
      simp only [evaluationStep, found']
      rfl
    · cases done

theorem step_append (done : step strtod p = .next q) {last : Parser} (read : parseLoop strtod q = .ok last)
    (extra : StdString) : step strtod (p.append extra) = .next (q.append extra) := by
  obtain ⟨rest, phase, states, dom⟩ := p
  cases phase with
  | value token => exact valueStep_append done read extra
  | evaluation => exact evaluationStep_append done read extra

theorem keyStep_goes_on : keyStep strtod bytes states dom ≠ .finished := by
  unfold keyStep
  split
  · split <;> exact ParserStep.noConfusion
  · exact ParserStep.noConfusion

theorem valueStep_goes_on (token : Token) : valueStep strtod token bytes states dom ≠ .finished := by
  unfold valueStep
  split
  · split
    · exact ParserStep.noConfusion
    · exact keyStep_goes_on
  · split <;> exact ParserStep.noConfusion
  all_goals exact ParserStep.noConfusion

theorem step_finished (done : step strtod p = .finished) : p.phase = .evaluation ∧ p.states = [] := by
  obtain ⟨rest, phase, states, dom⟩ := p
  cases phase with
  | value token => exact absurd done (valueStep_goes_on token)
  | evaluation =>
    refine ⟨rfl, ?_⟩
    change evaluationStep strtod rest states dom = .finished at done
    unfold evaluationStep at done
    split at done
    · rfl
    · split at done <;> cases done
    · split at done
      · exact absurd done keyStep_goes_on
      · cases done
      · cases done

theorem parseLoop_append (read : parseLoop strtod p = .ok q) (extra : StdString) :
    parseLoop strtod (p.append extra) = .ok (q.append extra) := by
  induction p using parseLoop.induct strtod with
  | case1 p next done ih =>
    rw [parseLoop_next done] at read
    rw [parseLoop_next (step_append done read extra), ih read]
  | case2 p done =>
    rw [parseLoop_finished done] at read
    cases read
    obtain ⟨evaluation, outside⟩ := step_finished done
    refine parseLoop_finished ?_
    simp only [step, append, evaluation, outside, evaluationStep]
  | case3 p done =>
    rw [parseLoop_failed done] at read
    cases read

end Inside

section Prefix

variable {dumpFloat : ℚ → StdString} {j : YJson} {text : StdString}

theorem dump_structured (structured : j.isStructured = true) (indent : ℕ)
    (dumped : j.dump dumpFloat indent = .ok text) :
    ∃ byte tail, text = byte :: tail ∧ (byte = 0x5B ∨ byte = 0x7B) := by
  cases j with
  | arr items =>
    cases items with
    | nil =>
      cases dumped
      exact ⟨_, _, rfl, .inl rfl⟩
    | cons item items =>
      obtain ⟨inner, _, tail⟩ := bind_completes dumped
      cases tail
      exact ⟨_, _, rfl, .inl rfl⟩
  | obj members =>
    cases members with
    | nil =>
      cases dumped
      exact ⟨_, _, rfl, .inr rfl⟩
    | cons member members =>
      obtain ⟨inner, _, tail⟩ := bind_completes dumped
      cases tail
      exact ⟨_, _, rfl, .inr rfl⟩
  | null | bool | int | float | str => cases structured

theorem start_append {byte : UInt8} (bracket : byte = 0x5B ∨ byte = 0x7B) (bytes extra : StdString) :
    start strtod (byte :: bytes ++ extra) = (start strtod (byte :: bytes)).append extra := by
  rcases bracket with rfl | rfl
  · rfl
  · rfl

/-- A text that is cut short anywhere is no document. -/
theorem prefix_rejected (structured : j.isStructured = true) (wellFormed : j.WellFormed (FloatText dumpFloat strtod))
    (dumped : j.dump dumpFloat 0 = .ok text) {short missing : StdString} (cut : text = short ++ missing)
    (lost : missing ≠ []) (found : YJson) : parse strtod short ≠ .ok found := by
  intro parsed
  obtain ⟨byte, tail, starts, bracket⟩ := dump_structured structured 0 dumped
  cases short with
  | nil =>
    have failed : parseLoop strtod (start strtod []) = .error .jsonError := parseLoop_failed rfl
    simp only [parse, skipBom, failed] at parsed
    cases parsed
  | cons first short =>
    have same : first = byte := by
      rw [cut] at starts
      exact (List.cons.inj starts).1
    rw [← same] at bracket
    have noMark : skipBom (first :: short) = some (first :: short) := by
      rcases bracket with rfl | rfl
      · rfl
      · rfl
    rw [parse, noMark] at parsed
    cases read : parseLoop strtod (start strtod (first :: short)) with
    | error fault =>
      simp only [read] at parsed
      cases parsed
    | ok p =>
      have longer := parseLoop_append read missing
      rw [← start_append bracket, ← cut] at longer
      have whole := (reads_dump 0 j wellFormed dumped endsNumber_nil [] ⟨.null, []⟩).trans (parseLoop_finished rfl)
      rw [List.append_nil] at whole
      have left := congrArg Parser.rest (Except.ok.inj (longer.symm.trans whole))
      exact lost (List.append_eq_nil_iff.mp left).2

end Prefix

end Parser

end XYAnnotation

import XYAnnotation.Files.Tokens
import XYAnnotation.Library.FirstMatch

namespace XYAnnotation

open Library StdString Lexer

/-- An array or an object that is not closed yet; `object_element` is the value under `key`. -/
inductive Frame
  | array (items : List YJson)
  | object (members : List (StdString × YJson)) (key : StdString)

/-- `json_sax_dom_parser`. A container is put into the one around it when it is closed. -/
structure DomParser where
  root : YJson
  /-- The innermost container is the first. -/
  refStack : List Frame

namespace DomParser

def setMember (members : List (StdString × YJson)) (key : StdString) (value : YJson) : List (StdString × YJson) :=
  updateFirst (fun member => decide (member.1 = key)) (key, .null) (fun member => (member.1, value)) members

def handleValue (d : DomParser) (value : YJson) : DomParser :=
  match d.refStack with
  | [] => { d with root := value }
  | .array items :: frames => { d with refStack := .array (items ++ [value]) :: frames }
  | .object members key :: frames => { d with refStack := .object (setMember members key value) key :: frames }

def startArray (d : DomParser) : DomParser := { d with refStack := .array [] :: d.refStack }

def startObject (d : DomParser) : DomParser := { d with refStack := .object [] [] :: d.refStack }

def key (d : DomParser) (name : StdString) : DomParser :=
  match d.refStack with
  | .object members _ :: frames => { d with refStack := .object members name :: frames }
  | _ => d

def endContainer (d : DomParser) : DomParser :=
  match d.refStack with
  | [] => d
  | .array items :: frames => ({ d with refStack := frames } : DomParser).handleValue (.arr items)
  | .object members _ :: frames => ({ d with refStack := frames } : DomParser).handleValue (.obj members)

end DomParser

/-- Where the loop of `sax_parse_internal` stands: at a token, or behind a value. -/
inductive ParserPhase
  | value (token : Token)
  | evaluation

structure Parser where
  rest : StdString
  phase : ParserPhase
  /-- `true` for an array, `false` for an object, the innermost first -/
  states : List Bool
  dom : DomParser

inductive ParserStep
  | next (p : Parser)
  | finished
  | failed

namespace Parser

variable (strtod : StdString → Option ℚ)

def readValue (bytes : StdString) (states : List Bool) (dom : DomParser) : Parser :=
  ⟨(scan strtod bytes).2, .value (scan strtod bytes).1, states, dom⟩

def keyStep (bytes : StdString) (states : List Bool) (dom : DomParser) : ParserStep :=
  match (scan strtod bytes).1 with
  | .valueString name =>
    match (scan strtod (scan strtod bytes).2).1 with
    | .nameSeparator => .next (readValue strtod (scan strtod (scan strtod bytes).2).2 states (dom.key name))
    | _ => .failed
  | _ => .failed

def handled (rest : StdString) (states : List Bool) (dom : DomParser) (value : YJson) : ParserStep :=
  .next ⟨rest, .evaluation, states, dom.handleValue value⟩

def valueStep (token : Token) (rest : StdString) (states : List Bool) (dom : DomParser) : ParserStep :=
  match token with
  | .beginObject =>
    match (scan strtod rest).1 with
    | .endObject => .next ⟨(scan strtod rest).2, .evaluation, states, dom.startObject.endContainer⟩
    | _ => keyStep strtod rest (false :: states) dom.startObject
  | .beginArray =>
    match (scan strtod rest).1 with
    | .endArray => .next ⟨(scan strtod rest).2, .evaluation, states, dom.startArray.endContainer⟩
    | _ => .next (readValue strtod rest (true :: states) dom.startArray)
  | .valueFloat (some value) => handled rest states dom (.float value)
  | .valueFloat none => .failed
  | .literalFalse => handled rest states dom (.bool false)
  | .literalNull => handled rest states dom .null
  | .literalTrue => handled rest states dom (.bool true)
  | .valueInteger n | .valueUnsigned n => handled rest states dom (.int n)
  | .valueString s => handled rest states dom (.str s)
  | .parseError | .endOfInput | .endArray | .endObject | .nameSeparator | .valueSeparator => .failed

def evaluationStep (rest : StdString) (states : List Bool) (dom : DomParser) : ParserStep :=
  match states with
  | [] => .finished
  | true :: outer =>
    match (scan strtod rest).1 with
    | .valueSeparator => .next (readValue strtod (scan strtod rest).2 states dom)
    | .endArray => .next ⟨(scan strtod rest).2, .evaluation, outer, dom.endContainer⟩
    | _ => .failed
  | false :: outer =>
    match (scan strtod rest).1 with
    | .valueSeparator => keyStep strtod (scan strtod rest).2 states dom
    | .endObject => .next ⟨(scan strtod rest).2, .evaluation, outer, dom.endContainer⟩
    | _ => .failed

def step (p : Parser) : ParserStep :=
  match p.phase with
  | .value token => valueStep strtod token p.rest p.states p.dom
  | .evaluation => evaluationStep strtod p.rest p.states p.dom

section Termination

def isLast : Token → Bool
  | .parseError | .endOfInput => true
  | _ => false

def measure (p : Parser) : ℕ :=
  2 * p.rest.length +
    match p.phase with
    | .value token => if isLast token then 0 else 1
    | .evaluation => 0

theorem readValue_measure (bytes : StdString) (states : List Bool) (dom : DomParser) :
    (readValue strtod bytes states dom).measure ≤ 2 * bytes.length := by
  have whole := scan_length_le strtod bytes
  cases token : isLast (scan strtod bytes).1 with
  | true =>
    simp only [measure, readValue, token, if_true]
    omega
  | false =>
    have proper : (scan strtod bytes).1 ≠ .parseError := by
      intro same
      rw [same] at token
      cases token
    have more : (scan strtod bytes).1 ≠ .endOfInput := by
      intro same
      rw [same] at token
      cases token
    have shorter := scan_length strtod (Prod.mk.eta (p := scan strtod bytes)).symm proper more
    simp only [measure, readValue, token, Bool.false_eq_true, if_false]
    omega

variable {strtod} {rest : StdString} {states : List Bool} {dom : DomParser} {q : Parser}

theorem keyStep_measure (done : keyStep strtod rest states dom = .next q) : q.measure ≤ 2 * rest.length := by
  have first := scan_length_le strtod rest
  have second := scan_length_le strtod (scan strtod rest).2
  unfold keyStep at done
  split at done
  · split at done
    · cases done
      refine (readValue_measure strtod _ _ _).trans ?_
      omega
    · cases done
  · cases done

theorem handled_measure {value : YJson} (done : handled rest states dom value = .next q) :
    q.measure ≤ 2 * rest.length := by
  cases done
  exact le_rfl

theorem valueStep_measure {token : Token} (done : valueStep strtod token rest states dom = .next q) :
    q.measure < 2 * rest.length + if isLast token then 0 else 1 := by
  have shorter := scan_length_le strtod rest
  suffices isLast token = false ∧ q.measure ≤ 2 * rest.length by
    rw [this.1, if_neg Bool.false_ne_true]
    omega
  unfold valueStep at done
  split at done
  · refine ⟨rfl, ?_⟩
    split at done
    · cases done
      exact Nat.mul_le_mul_left 2 shorter
    · exact keyStep_measure done
  · refine ⟨rfl, ?_⟩
    split at done
    · cases done
      exact Nat.mul_le_mul_left 2 shorter
    · cases done
      exact readValue_measure strtod rest _ _
  · exact ⟨rfl, handled_measure done⟩
  · cases done
  · exact ⟨rfl, handled_measure done⟩
  · exact ⟨rfl, handled_measure done⟩
  · exact ⟨rfl, handled_measure done⟩
  · exact ⟨rfl, handled_measure done⟩
  · exact ⟨rfl, handled_measure done⟩
  · exact ⟨rfl, handled_measure done⟩
  all_goals cases done

theorem evaluationStep_measure (done : evaluationStep strtod rest states dom = .next q) :
    q.measure < 2 * rest.length := by
  have proper {token : Token} (read : (scan strtod rest).1 = token) (other : token ≠ .parseError)
      (more : token ≠ .endOfInput) : (scan strtod rest).2.length < rest.length :=
    scan_length strtod (Prod.ext read rfl) other more
  unfold evaluationStep at done
  split at done
  · cases done
  · split at done
    · rename_i read
      have shorter := proper read (by decide) (by decide)
      cases done
      refine lt_of_le_of_lt (readValue_measure strtod _ _ _) ?_
      omega
    · rename_i read
      have shorter := proper read (by decide) (by decide)
      cases done
      exact Nat.mul_lt_mul_of_pos_left shorter (by decide)
    · cases done
  · split at done
    · rename_i read
      have shorter := proper read (by decide) (by decide)
      refine lt_of_le_of_lt (keyStep_measure done) ?_
      omega
    · rename_i read
      have shorter := proper read (by decide) (by decide)
      cases done
      exact Nat.mul_lt_mul_of_pos_left shorter (by decide)
    · cases done

theorem step_measure {p : Parser} (done : step strtod p = .next q) : q.measure < p.measure := by
  obtain ⟨rest, phase, states, dom⟩ := p
  cases phase with
  | value token => exact valueStep_measure done
  | evaluation => exact evaluationStep_measure done

end Termination

/-- `sax_parse_internal` from a point in its loop: where it stands at the end. -/
def parseLoop (p : Parser) : Except Fault Parser :=
  match _h : step strtod p with
  | .next q => parseLoop q
  | .finished => .ok p
  | .failed => .error .jsonError
termination_by p.measure
decreasing_by exact step_measure _h

section Rounds

variable {strtod} {p : Parser}

theorem parseLoop_next {q : Parser} (done : step strtod p = .next q) : parseLoop strtod p = parseLoop strtod q := by
  rw [parseLoop]
  split
  · rename_i same
    cases done.symm.trans same
    rfl
  · rename_i same
    cases done.symm.trans same
  · rename_i same
    cases done.symm.trans same

theorem parseLoop_finished (done : step strtod p = .finished) : parseLoop strtod p = .ok p := by
  rw [parseLoop]
  split
  · rename_i same
    cases done.symm.trans same
  · rfl
  · rename_i same
    cases done.symm.trans same

theorem parseLoop_failed (done : step strtod p = .failed) : parseLoop strtod p = .error .jsonError := by
  rw [parseLoop]
  split
  · rename_i same
    cases done.symm.trans same
  · rename_i same
    cases done.symm.trans same
  · rfl

end Rounds

def start (bytes : StdString) : Parser := readValue strtod bytes [] ⟨.null, []⟩

/-- `operator>>`, which does not look at what follows the value. -/
def parse (text : StdString) : Except Fault YJson :=
  match skipBom text with
  | none => .error .jsonError
  | some bytes => (parseLoop strtod (start strtod bytes)).map fun p => p.dom.root

end Parser

end XYAnnotation

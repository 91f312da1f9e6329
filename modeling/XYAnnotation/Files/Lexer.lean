import XYAnnotation.Files.Writer

namespace XYAnnotation

open Library StdString

/-- `token_type`, with the value that the lexer holds for it. A number that is not finite is `none`. -/
inductive Token
  | literalTrue
  | literalFalse
  | literalNull
  | valueString (s : StdString)
  | valueUnsigned (n : ℤ)
  | valueInteger (n : ℤ)
  | valueFloat (value : Option ℚ)
  | beginArray
  | beginObject
  | endArray
  | endObject
  | nameSeparator
  | valueSeparator
  | parseError
  | endOfInput
  deriving DecidableEq

namespace Lexer

section Strings

/-- One round of the loop of `scan_string`: the closing quote, a character with its bytes, or an error. -/
inductive StringStep
  | closed (rest : StdString)
  | added (bytes rest : StdString)
  | failed

/-- The ranges for the bytes that have to follow a byte, and nothing for a byte that may not stand in a string. -/
def tailRanges (byte : UInt8) : Option (List (ℕ × ℕ)) :=
  let b := byte.toNat
  if b < 0x20 then none
  else if b < 0x80 then some []
  else if 0xC2 ≤ b ∧ b ≤ 0xDF then some [(0x80, 0xBF)]
  else if b = 0xE0 then some [(0xA0, 0xBF), (0x80, 0xBF)]
  else if b = 0xED then some [(0x80, 0x9F), (0x80, 0xBF)]
  else if 0xE1 ≤ b ∧ b ≤ 0xEF then some [(0x80, 0xBF), (0x80, 0xBF)]
  else if b = 0xF0 then some [(0x90, 0xBF), (0x80, 0xBF), (0x80, 0xBF)]
  else if 0xF1 ≤ b ∧ b ≤ 0xF3 then some [(0x80, 0xBF), (0x80, 0xBF), (0x80, 0xBF)]
  else if b = 0xF4 then some [(0x80, 0x8F), (0x80, 0xBF), (0x80, 0xBF)]
  else none

def nextBytesInRange : List (ℕ × ℕ) → StdString → Option (StdString × StdString)
  | [], rest => some ([], rest)
  | _ :: _, [] => none
  | (low, high) :: ranges, byte :: rest =>
    if low ≤ byte.toNat ∧ byte.toNat ≤ high then
      (nextBytesInRange ranges rest).map fun (bytes, rest) => (byte :: bytes, rest)
    else none

def hexValue (byte : UInt8) : Option ℕ :=
  let b := byte.toNat
  if 0x30 ≤ b ∧ b ≤ 0x39 then some (b - 0x30)
  else if 0x41 ≤ b ∧ b ≤ 0x46 then some (b - 0x37)
  else if 0x61 ≤ b ∧ b ≤ 0x66 then some (b - 0x57)
  else none

def getCodepoint : StdString → Option (ℕ × StdString)
  | a :: b :: c :: d :: rest => do
    let a ← hexValue a
    let b ← hexValue b
    let c ← hexValue c
    let d ← hexValue d
    some (a * 4096 + b * 256 + c * 16 + d, rest)
  | _ => none

def encodeCodepoint (codepoint : ℕ) : StdString :=
  if codepoint < 0x80 then [UInt8.ofNat codepoint]
  else if codepoint ≤ 0x7FF then
    [UInt8.ofNat (0xC0 ||| codepoint >>> 6), UInt8.ofNat (0x80 ||| codepoint &&& 0x3F)]
  else if codepoint ≤ 0xFFFF then
    [UInt8.ofNat (0xE0 ||| codepoint >>> 12), UInt8.ofNat (0x80 ||| codepoint >>> 6 &&& 0x3F),
      UInt8.ofNat (0x80 ||| codepoint &&& 0x3F)]
  else
    [UInt8.ofNat (0xF0 ||| codepoint >>> 18), UInt8.ofNat (0x80 ||| codepoint >>> 12 &&& 0x3F),
      UInt8.ofNat (0x80 ||| codepoint >>> 6 &&& 0x3F), UInt8.ofNat (0x80 ||| codepoint &&& 0x3F)]

def unicodeStep (bytes : StdString) : StringStep :=
  match getCodepoint bytes with
  | none => .failed
  | some (codepoint1, rest) =>
    if 0xD800 ≤ codepoint1 ∧ codepoint1 ≤ 0xDBFF then
      match rest with
      | 0x5C :: 0x75 :: rest =>
        match getCodepoint rest with
        | none => .failed
        | some (codepoint2, rest) =>
          if 0xDC00 ≤ codepoint2 ∧ codepoint2 ≤ 0xDFFF then
            .added (encodeCodepoint (codepoint1 * 1024 + codepoint2 - 0x35FDC00)) rest
          else .failed
      | _ => .failed
    else if 0xDC00 ≤ codepoint1 ∧ codepoint1 ≤ 0xDFFF then .failed
    else .added (encodeCodepoint codepoint1) rest

def simpleEscape (byte : UInt8) : Option UInt8 :=
  if byte = 0x22 then some 0x22
  else if byte = 0x5C then some 0x5C
  else if byte = 0x2F then some 0x2F
  else if byte = 0x62 then some 0x08
  else if byte = 0x66 then some 0x0C
  else if byte = 0x6E then some 0x0A
  else if byte = 0x72 then some 0x0D
  else if byte = 0x74 then some 0x09
  else none

def escapeStep : StdString → StringStep
  | [] => .failed
  | byte :: rest =>
    match simpleEscape byte with
    | some char => .added [char] rest
    | none => if byte = 0x75 then unicodeStep rest else .failed

def stringStep : StdString → StringStep
  | [] => .failed
  | byte :: rest =>
    if byte = 0x22 then .closed rest
    else if byte = 0x5C then escapeStep rest
    else
      match tailRanges byte with
      | none => .failed
      | some ranges =>
        match nextBytesInRange ranges rest with
        | none => .failed
        | some (bytes, rest) => .added (byte :: bytes) rest

theorem nextBytesInRange_length {ranges : List (ℕ × ℕ)} {bytes read rest : StdString}
    (found : nextBytesInRange ranges bytes = some (read, rest)) : rest.length ≤ bytes.length := by
  induction ranges generalizing bytes read with
  | nil =>
    cases found
    exact le_rfl
  | cons range ranges ih =>
    cases bytes with
    | nil => cases found
    | cons byte bytes =>
      rw [nextBytesInRange] at found
      split at found
      · obtain ⟨⟨read', rest'⟩, found, same⟩ := Option.map_eq_some_iff.mp found
        cases same
        exact (ih found).trans (Nat.le_succ _)
      · cases found

theorem getCodepoint_length {bytes rest : StdString} {codepoint : ℕ} (read : getCodepoint bytes = some (codepoint, rest)) :
    rest.length < bytes.length := by
  match bytes, read with
  | a :: b :: c :: d :: _, read =>
    simp only [getCodepoint, Option.bind_eq_bind, Option.bind_eq_some_iff, Option.some.injEq, Prod.mk.injEq] at read
    obtain ⟨_, _, _, _, _, _, _, _, _, rfl⟩ := read
    simp only [List.length_cons]
    omega

def StringStep.Shorter (length : ℕ) : StringStep → Prop
  | .closed rest | .added _ rest => rest.length < length
  | .failed => True

theorem StringStep.Shorter.mono {step : StringStep} {length more : ℕ} (shorter : step.Shorter length)
    (le : length ≤ more) : step.Shorter more := by
  cases step with
  | closed rest => exact lt_of_lt_of_le shorter le
  | added bytes rest => exact lt_of_lt_of_le shorter le
  | failed => trivial

theorem unicodeStep_shorter (bytes : StdString) : (unicodeStep bytes).Shorter bytes.length := by
  unfold unicodeStep
  split
  · trivial
  · rename_i codepoint1 rest1 read
    have first := getCodepoint_length read
    split
    · split
      · rename_i rest2
        split
        · trivial
        · rename_i codepoint2 rest3 read2
          have second := getCodepoint_length read2
          split
          · simp only [List.length_cons] at first
            exact show rest3.length < bytes.length by omega
          · trivial
      · trivial
    · split
      · trivial
      · exact first

theorem escapeStep_shorter (bytes : StdString) : (escapeStep bytes).Shorter bytes.length := by
  cases bytes with
  | nil => trivial
  | cons byte rest =>
    rw [escapeStep]
    split
    · exact Nat.lt_succ_self _
    split
    · exact (unicodeStep_shorter rest).mono (Nat.le_succ _)
    · trivial

theorem stringStep_shorter (bytes : StdString) : (stringStep bytes).Shorter bytes.length := by
  cases bytes with
  | nil => trivial
  | cons byte rest =>
    rw [stringStep]
    split
    · exact Nat.lt_succ_self _
    split
    · exact (escapeStep_shorter rest).mono (Nat.le_succ _)
    split
    · trivial
    split
    · trivial
    · rename_i found
      exact Nat.lt_succ_of_le (nextBytesInRange_length found)

/-- `scan_string` behind the opening quote: the content and what is left. -/
def scanString (bytes : StdString) : Option (StdString × StdString) :=
  match _step : stringStep bytes with
  | .closed rest => some ([], rest)
  | .added added rest => (scanString rest).map fun (content, rest) => (added ++ content, rest)
  | .failed => none
termination_by bytes.length
decreasing_by
  have shorter := stringStep_shorter bytes
  rw [_step] at shorter
  exact shorter

theorem scanString_closed_of {bytes rest : StdString} (step : stringStep bytes = .closed rest) :
    scanString bytes = some ([], rest) := by
  rw [scanString]
  split
  · rename_i same
    rw [step] at same
    cases same
    rfl
  · rename_i same
    rw [step] at same
    cases same
  · rename_i same
    rw [step] at same
    cases same

theorem scanString_added {bytes added rest : StdString} (step : stringStep bytes = .added added rest) :
    scanString bytes = (scanString rest).map fun (content, rest) => (added ++ content, rest) := by
  rw [scanString]
  split
  · rename_i same
    rw [step] at same
    cases same
  · rename_i same
    rw [step] at same
    cases same
    rfl
  · rename_i same
    rw [step] at same
    cases same

theorem scanString_failed {bytes : StdString} (step : stringStep bytes = .failed) : scanString bytes = none := by
  rw [scanString]
  split
  · rename_i same
    rw [step] at same
    cases same
  · rename_i same
    rw [step] at same
    cases same
  · rfl

theorem scanString_length {bytes content rest : StdString} (read : scanString bytes = some (content, rest)) :
    rest.length < bytes.length := by
  induction bytes using scanString.induct generalizing content with
  | case1 bytes rest' step =>
    rw [scanString_closed_of step] at read
    cases read
    have shorter := stringStep_shorter bytes
    rwa [step] at shorter
  | case2 bytes added rest' step ih =>
    rw [scanString_added step] at read
    obtain ⟨⟨content', last⟩, read, same⟩ := Option.map_eq_some_iff.mp read
    cases same
    have shorter := stringStep_shorter bytes
    rw [step] at shorter
    exact (ih read).trans shorter
  | case3 bytes step =>
    rw [scanString_failed step] at read
    cases read

end Strings

section Numbers

/-- The states of `scan_number`, named as its labels. -/
inductive NumberState
  | init
  | minus
  | zero
  | any1
  | decimal1
  | decimal2
  | exponent
  | sign
  | any2
  deriving DecidableEq

inductive NumberType
  | unsigned
  | integer
  | float
  deriving DecidableEq

def isDigit (byte : UInt8) : Bool := 0x30 ≤ byte.toNat ∧ byte.toNat ≤ 0x39

def isExponent (byte : UInt8) : Bool := byte = 0x65 ∨ byte = 0x45

namespace NumberState

def next (state : NumberState) (byte : UInt8) : Option NumberState :=
  match state with
  | init =>
    if byte = 0x2D then some minus else if byte = 0x30 then some zero else if isDigit byte then some any1 else none
  | minus => if byte = 0x30 then some zero else if isDigit byte then some any1 else none
  | zero => if byte = 0x2E then some decimal1 else if isExponent byte then some exponent else none
  | any1 =>
    if isDigit byte then some any1 else if byte = 0x2E then some decimal1
    else if isExponent byte then some exponent else none
  | decimal1 => if isDigit byte then some decimal2 else none
  | decimal2 => if isDigit byte then some decimal2 else if isExponent byte then some exponent else none
  | exponent =>
    if byte = 0x2B ∨ byte = 0x2D then some sign else if isDigit byte then some any2 else none
  | sign => if isDigit byte then some any2 else none
  | any2 => if isDigit byte then some any2 else none

def isDone : NumberState → Bool
  | zero | any1 | decimal2 | any2 => true
  | init | minus | decimal1 | exponent | sign => false

def type (state : NumberState) (before : NumberType) : NumberType :=
  match state with
  | minus => .integer
  | decimal1 | exponent => .float
  | init | zero | any1 | decimal2 | sign | any2 => before

end NumberState

/-- The loop of `scan_number`: the type, the bytes of the number, and what is left. -/
def scanNumberFrom (state : NumberState) (type : NumberType) : StdString → Option (NumberType × StdString × StdString)
  | [] => if state.isDone then some (type, [], []) else none
  | byte :: rest =>
    match state.next byte with
    | some next =>
      (scanNumberFrom next (next.type type) rest).map fun (type, buffer, rest) => (type, byte :: buffer, rest)
    | none => if state.isDone then some (type, [], byte :: rest) else none

def strtoll (buffer : StdString) : ℤ :=
  if buffer.head? = some 0x2D then -(Nat.ofDigitChars 10 (StdString.chars buffer.tail) 0 : ℕ)
  else (Nat.ofDigitChars 10 (StdString.chars buffer) 0 : ℕ)

variable (strtod : StdString → Option ℚ)

/-- An integer that does not fit is taken for a fraction; `strtod` gives nothing for a number that is not finite. -/
def numberToken (type : NumberType) (buffer : StdString) : Token :=
  match type with
  | .unsigned =>
    if strtoll buffer < 2 ^ 64 then .valueUnsigned (strtoll buffer) else .valueFloat (strtod buffer)
  | .integer =>
    if -2 ^ 63 ≤ strtoll buffer then .valueInteger (strtoll buffer) else .valueFloat (strtod buffer)
  | .float => .valueFloat (strtod buffer)

def scanNumber (bytes : StdString) : Token × StdString :=
  match scanNumberFrom .init .unsigned bytes with
  | some (type, buffer, rest) => (numberToken strtod type buffer, rest)
  | none => (.parseError, [])

theorem scanNumberFrom_length {state : NumberState} {type type' : NumberType} {bytes buffer rest : StdString}
    (read : scanNumberFrom state type bytes = some (type', buffer, rest)) :
    rest.length ≤ bytes.length ∧ (state.isDone = false → rest.length < bytes.length) := by
  induction bytes generalizing state type buffer with
  | nil =>
    rw [scanNumberFrom] at read
    split at read
    · rename_i done
      cases read
      exact ⟨le_rfl, fun open_ => absurd done (by simp [open_])⟩
    · cases read
  | cons byte bytes ih =>
    rw [scanNumberFrom] at read
    split at read
    · obtain ⟨⟨type₁, buffer₁, rest₁⟩, read, same⟩ := Option.map_eq_some_iff.mp read
      cases same
      have shorter := (ih read).1
      simp only [List.length_cons]
      exact ⟨by omega, fun _ => by omega⟩
    · split at read
      · rename_i done
        cases read
        exact ⟨le_rfl, fun open_ => absurd done (by simp [open_])⟩
      · cases read

end Numbers

section Scan

def isSpace (byte : UInt8) : Bool := byte = 0x20 || byte = 0x09 || byte = 0x0A || byte = 0x0D

def scanLiteral (text : StdString) (token : Token) (bytes : StdString) : Token × StdString :=
  if bytes.take text.length = text then (token, bytes.drop text.length) else (.parseError, [])

variable (strtod : StdString → Option ℚ)

def structural (byte : UInt8) : Option Token :=
  if byte = 0x5B then some .beginArray
  else if byte = 0x5D then some .endArray
  else if byte = 0x7B then some .beginObject
  else if byte = 0x7D then some .endObject
  else if byte = 0x3A then some .nameSeparator
  else if byte = 0x2C then some .valueSeparator
  else none

def scanLong (byte : UInt8) (rest : StdString) : Token × StdString :=
  if byte = 0x74 then scanLiteral (utf8 "true") .literalTrue (byte :: rest)
  else if byte = 0x66 then scanLiteral (utf8 "false") .literalFalse (byte :: rest)
  else if byte = 0x6E then scanLiteral (utf8 "null") .literalNull (byte :: rest)
  else if byte = 0x22 then
    match scanString rest with
    | some (content, rest) => (.valueString content, rest)
    | none => (.parseError, [])
  else if byte = 0x2D ∨ isDigit byte then scanNumber strtod (byte :: rest)
  else if byte = 0x00 then (.endOfInput, rest)
  else (.parseError, [])

/-- `scan`: the token and what is left. After an error nothing more is read. -/
def scan (bytes : StdString) : Token × StdString :=
  match bytes.dropWhile isSpace with
  | [] => (.endOfInput, [])
  | byte :: rest =>
    match structural byte with
    | some token => (token, rest)
    | none => scanLong strtod byte rest

theorem scanLiteral_length {text bytes rest : StdString} {token found : Token} (nonempty : text ≠ [])
    (read : scanLiteral text token bytes = (found, rest)) (proper : found ≠ .parseError) : rest.length < bytes.length := by
  unfold scanLiteral at read
  split at read
  · rename_i same
    cases read
    have whole := congrArg List.length same
    have positive := List.length_pos_iff.mpr nonempty
    rw [List.length_take] at whole
    rw [List.length_drop]
    omega
  · cases read
    exact absurd rfl proper

theorem scan_length {bytes rest : StdString} {token : Token} (read : scan strtod bytes = (token, rest))
    (proper : token ≠ .parseError) (more : token ≠ .endOfInput) : rest.length < bytes.length := by
  unfold scan at read
  have shorter := (List.dropWhile_sublist isSpace (l := bytes)).length_le
  split at read
  · cases read
    exact absurd rfl more
  · rename_i byte tail split
    rw [split, List.length_cons] at shorter
    suffices rest.length < tail.length + 1 by omega
    split at read
    · cases read
      exact Nat.lt_succ_self _
    unfold scanLong at read
    split at read
    · exact scanLiteral_length (by decide) read proper
    split at read
    · exact scanLiteral_length (by decide) read proper
    split at read
    · exact scanLiteral_length (by decide) read proper
    split at read
    · split at read
      · rename_i found
        cases read
        exact (scanString_length found).trans (Nat.lt_succ_self _)
      · cases read
        exact absurd rfl proper
    split at read
    · unfold scanNumber at read
      split at read
      · rename_i found
        cases read
        exact (scanNumberFrom_length found).2 rfl
      · cases read
        exact absurd rfl proper
    split at read
    · cases read
      exact absurd rfl more
    · cases read
      exact absurd rfl proper

theorem scanLiteral_length_le (text bytes : StdString) (token : Token) :
    (scanLiteral text token bytes).2.length ≤ bytes.length := by
  unfold scanLiteral
  split
  · exact (List.drop_sublist _ _).length_le
  · exact Nat.zero_le _

theorem scanNumber_length_le (bytes : StdString) : (scanNumber strtod bytes).2.length ≤ bytes.length := by
  unfold scanNumber
  split
  · rename_i found
    exact (scanNumberFrom_length found).1
  · exact Nat.zero_le _

theorem scanLong_length_le (byte : UInt8) (rest : StdString) :
    (scanLong strtod byte rest).2.length ≤ (byte :: rest).length := by
  unfold scanLong
  split
  · exact scanLiteral_length_le _ _ _
  split
  · exact scanLiteral_length_le _ _ _
  split
  · exact scanLiteral_length_le _ _ _
  split
  · split
    · rename_i found
      exact (scanString_length found).le.trans (Nat.le_succ _)
    · exact Nat.zero_le _
  split
  · exact scanNumber_length_le strtod _
  split
  · exact Nat.le_succ _
  · exact Nat.zero_le _

theorem scan_length_le (bytes : StdString) : (scan strtod bytes).2.length ≤ bytes.length := by
  have shorter := (List.dropWhile_sublist isSpace (l := bytes)).length_le
  unfold scan
  split
  · exact Nat.zero_le _
  · rename_i byte rest visible
    rw [visible] at shorter
    split
    · exact (Nat.le_succ _).trans shorter
    · exact (scanLong_length_le strtod byte rest).trans shorter

/-- `skip_bom`, before the first token: what is left, and nothing where the mark is broken off. -/
def skipBom : StdString → Option StdString
  | 0xEF :: 0xBB :: 0xBF :: rest => some rest
  | 0xEF :: _ => none
  | bytes => some bytes

end Scan

end Lexer

end XYAnnotation

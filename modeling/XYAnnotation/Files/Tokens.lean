import XYAnnotation.Files.Lexer

namespace XYAnnotation

open Library StdString

namespace Lexer

section Strings

open YJson

theorem codepoint_first (codep : UInt32) (byte : UInt8) :
    (codepoint 0 codep byte).toNat = (255 >>> Utf8.byteClass byte.toNat) &&& byte.toNat := by
  have small : ∀ byte < 256, Utf8.byteClass byte < 32 := by
    intro byte bound
    refine Utf8.along_table byte bound ?_
    decide +kernel
  have fits := small byte.toNat byte.toNat_lt
  have exact_ : (UInt32.ofNat (Utf8.byteClass byte.toNat)).toNat = Utf8.byteClass byte.toNat :=
    UInt32.toNat_ofNat_of_lt' (Nat.lt_trans fits (by decide))
  rw [codepoint, if_neg (by simp), UInt32.toNat_and, UInt32.toNat_shiftRight, exact_, Nat.mod_eq_of_lt fits,
    UInt8.toNat_toUInt32]
  rfl

theorem first_bits : ∀ byte < 256, byte < 0x80 ∧ (255 >>> Utf8.byteClass byte) &&& byte = byte ∨
    0xC2 ≤ byte ∧ byte ≤ 0xDF ∧ (255 >>> Utf8.byteClass byte) &&& byte = byte - 0xC0 ∨
    0xE0 ≤ byte ∧ byte ≤ 0xEF ∧ (255 >>> Utf8.byteClass byte) &&& byte = byte - 0xE0 ∨
    0xF0 ≤ byte ∧ byte ≤ 0xF4 ∧ (255 >>> Utf8.byteClass byte) &&& byte = byte - 0xF0 ∨
    0x80 ≤ byte ∧ byte < 0xC2 ∨ 0xF4 < byte := by
  intro byte bound
  refine Utf8.along_table byte bound ?_
  decide +kernel

theorem codepoint_later {state : ℕ} (later : state ≠ 0) {codep : UInt32} (small : codep.toNat < 2 ^ 26) (byte : UInt8) :
    (codepoint state codep byte).toNat = 64 * codep.toNat + byte.toNat % 64 := by
  have low : byte.toNat &&& 63 = byte.toNat % 64 := Nat.and_two_pow_sub_one_eq_mod byte.toNat 6
  have below : byte.toNat % 64 < 2 ^ 6 := Nat.mod_lt _ (by decide)
  have shifted : codep.toNat <<< 6 % 2 ^ 32 = 2 ^ 6 * codep.toNat := by
    rw [Nat.shiftLeft_eq, Nat.mul_comm]
    exact Nat.mod_eq_of_lt (by omega)
  rw [codepoint, if_pos later, UInt32.toNat_or, UInt8.toNat_toUInt32, UInt8.toNat_and, UInt32.toNat_shiftLeft]
  change byte.toNat &&& 63 ||| codep.toNat <<< 6 % 2 ^ 32 = _
  rw [low, shifted, Nat.or_comm, ← Nat.two_pow_add_eq_or_of_lt below]

theorem escaped_beyond {codep : UInt32} (beyond : 0x80 ≤ codep.toNat) (byte : UInt8) : escaped codep byte = [byte] := by
  have other (c : UInt32) (small : c.toNat < 0x80) : codep ≠ c := by
    rintro rfl
    omega
  have high : ¬codep ≤ 0x1F := by
    rw [UInt32.le_iff_toNat_le]
    change ¬codep.toNat ≤ 31
    omega
  rw [escaped, if_neg (other _ (by decide)), if_neg (other _ (by decide)), if_neg (other _ (by decide)),
    if_neg (other _ (by decide)), if_neg (other _ (by decide)), if_neg (other _ (by decide)),
    if_neg (other _ (by decide)), if_neg high]

theorem dumpBytes_cons {state next : ℕ} {byte : UInt8} (step : Utf8.next state byte.toNat = next) (goesOn : next ≠ 1)
    (codep : UInt32) (bytes : StdString) : dumpBytes state codep (byte :: bytes) =
      (dumpBytes next (codepoint state codep byte) bytes).map fun rest =>
        (if next = 0 then escaped (codepoint state codep byte) byte else [byte]) ++ rest := by
  rw [dumpBytes, step, if_neg goesOn]
  cases dumpBytes next (codepoint state codep byte) bytes <;> rfl

theorem map_map {α : Type} (result : Except Fault α) (f g : α → α) :
    (result.map f).map g = result.map fun value => g (f value) := by
  cases result <;> rfl

def escapedCharacter : StdString → StdString
  | [a] => escaped a.toUInt32 a
  | char => char

theorem dumpBytes_tail {codep : UInt32} (low : 2 ≤ codep.toNat) (small : codep.toNat < 2 ^ 26) {a : UInt8}
    (tail : Utf8.IsTail a) (bytes : StdString) :
    ∃ codep', dumpBytes 2 codep (a :: bytes) = (dumpBytes 0 codep' bytes).map fun rest => a :: rest := by
  have step : Utf8.next 2 a.toNat = 0 := by
    rw [Utf8.next_later 2 (by decide) (by decide) a.toNat a.toNat_lt]
    exact if_pos tail
  have beyond : 0x80 ≤ (codepoint 2 codep a).toNat := by
    rw [codepoint_later (by decide) small]
    omega
  refine ⟨codepoint 2 codep a, ?_⟩
  rw [dumpBytes_cons step (by decide), if_pos rfl, escaped_beyond beyond]
  rfl

theorem dumpBytes_inner {state next : ℕ} {a : UInt8} (step : Utf8.next state a.toNat = next) (inner : 2 ≤ next)
    (codep : UInt32) (bytes : StdString) :
    dumpBytes state codep (a :: bytes) =
      (dumpBytes next (codepoint state codep a) bytes).map fun rest => a :: rest := by
  rw [dumpBytes_cons step (by omega), if_neg (by omega)]
  rfl

theorem dumpBytes_two_tails {codep : UInt32} (low : 1 ≤ codep.toNat) (small : codep.toNat < 2 ^ 20) {a b : UInt8}
    (first : Utf8.IsTail a) (second : Utf8.IsTail b) (bytes : StdString) :
    ∃ codep', dumpBytes 3 codep (a :: b :: bytes) = (dumpBytes 0 codep' bytes).map fun rest => a :: b :: rest := by
  have step : Utf8.next 3 a.toNat = 2 := by
    rw [Utf8.next_later 3 (by decide) (by decide) a.toNat a.toNat_lt]
    exact if_pos first
  have value := codepoint_later (show (3 : ℕ) ≠ 0 by decide) (Nat.lt_trans small (by decide)) a
  obtain ⟨codep', rest⟩ := dumpBytes_tail (show 2 ≤ (codepoint 3 codep a).toNat by omega) (by omega) second bytes
  exact ⟨codep', by rw [dumpBytes_inner step (by decide), rest, map_map]⟩

theorem dumpBytes_character {char : StdString} (character : Utf8.Character char) (codep : UInt32) (bytes : StdString) :
    ∃ codep', dumpBytes 0 codep (char ++ bytes) =
      (dumpBytes 0 codep' bytes).map fun rest => escapedCharacter char ++ rest := by
  cases character with
  | @one a first =>
    have step : Utf8.next 0 a.toNat = 0 := by
      have := Utf8.next_first a.toNat a.toNat_lt
      omega
    have bits := codepoint_first codep a
    have value := first_bits a.toNat a.toNat_lt
    have same : codepoint 0 codep a = a.toUInt32 := by
      apply UInt32.toNat_inj.mp
      rw [UInt8.toNat_toUInt32]
      omega
    refine ⟨codepoint 0 codep a, ?_⟩
    rw [List.singleton_append, dumpBytes_cons step (by decide), if_pos rfl, same]
    rfl
  | @two a b low high second =>
    have step : Utf8.next 0 a.toNat = 2 := by
      have := Utf8.next_first a.toNat a.toNat_lt
      omega
    have bits := codepoint_first codep a
    have value := first_bits a.toNat a.toNat_lt
    obtain ⟨codep', rest⟩ :=
      dumpBytes_tail (show 2 ≤ (codepoint 0 codep a).toNat by omega) (by omega) second bytes
    exact ⟨codep', by
      rw [List.cons_append, List.singleton_append, dumpBytes_inner step (by decide), rest, map_map]
      rfl⟩
  | @three a b c low high second third short surrogate =>
    have first := Utf8.next_first a.toNat a.toNat_lt
    have bits := codepoint_first codep a
    have value := first_bits a.toNat a.toNat_lt
    rw [List.cons_append, List.cons_append, List.singleton_append]
    have inner (state : ℕ) (later : state ≠ 0) := codepoint_later later
      (show (codepoint 0 codep a).toNat < 2 ^ 26 by omega) b
    by_cases isShort : a.toNat = 0xE0
    · have step : Utf8.next 0 a.toNat = 4 := by omega
      have step' : Utf8.next 4 b.toNat = 2 := by
        rw [Utf8.next_later 4 (by decide) (by decide) b.toNat b.toNat_lt]
        exact if_pos ⟨short isShort, second.2⟩
      have value' := inner 4 (by decide)
      have short := short isShort
      have tail := second.2
      obtain ⟨codep', rest⟩ := dumpBytes_tail
        (show 2 ≤ (codepoint 4 (codepoint 0 codep a) b).toNat by omega) (by omega) third bytes
      exact ⟨codep', by
        rw [dumpBytes_inner step (by decide), dumpBytes_inner step' (by decide), rest, map_map, map_map]
        rfl⟩
    · by_cases isSurrogate : a.toNat = 0xED
      · have step : Utf8.next 0 a.toNat = 5 := by omega
        have step' : Utf8.next 5 b.toNat = 2 := by
          rw [Utf8.next_later 5 (by decide) (by decide) b.toNat b.toNat_lt]
          exact if_pos ⟨second.1, surrogate isSurrogate⟩
        have value' := inner 5 (by decide)
        obtain ⟨codep', rest⟩ := dumpBytes_tail
          (show 2 ≤ (codepoint 5 (codepoint 0 codep a) b).toNat by omega) (by omega) third bytes
        exact ⟨codep', by
          rw [dumpBytes_inner step (by decide), dumpBytes_inner step' (by decide), rest, map_map, map_map]
          rfl⟩
      · have step : Utf8.next 0 a.toNat = 3 := by omega
        obtain ⟨codep', rest⟩ := dumpBytes_two_tails
          (show 1 ≤ (codepoint 0 codep a).toNat by omega) (by omega) second third bytes
        exact ⟨codep', by
          rw [dumpBytes_inner step (by decide), rest, map_map]
          rfl⟩
  | @four a b c d low high second third fourth short last =>
    have first := Utf8.next_first a.toNat a.toNat_lt
    have bits := codepoint_first codep a
    have value := first_bits a.toNat a.toNat_lt
    rw [List.cons_append, List.cons_append, List.cons_append, List.singleton_append]
    obtain ⟨state, later, step, step'⟩ : ∃ state, state ≠ 0 ∧ Utf8.next 0 a.toNat = state ∧ 2 ≤ state ∧
        Utf8.next state b.toNat = 3 := by
      by_cases isShort : a.toNat = 0xF0
      · refine ⟨6, by decide, by omega, by decide, ?_⟩
        rw [Utf8.next_later 6 (by decide) (by decide) b.toNat b.toNat_lt]
        exact if_pos ⟨short isShort, second.2⟩
      · by_cases isLast : a.toNat = 0xF4
        · refine ⟨8, by decide, by omega, by decide, ?_⟩
          rw [Utf8.next_later 8 (by decide) (by decide) b.toNat b.toNat_lt]
          exact if_pos ⟨second.1, last isLast⟩
        · refine ⟨7, by decide, by omega, by decide, ?_⟩
          rw [Utf8.next_later 7 (by decide) (by decide) b.toNat b.toNat_lt]
          exact if_pos second
    have value' := codepoint_later later (show (codepoint 0 codep a).toNat < 2 ^ 26 by omega) b
    have bLow := second.1
    have bHigh := second.2
    obtain ⟨codep', rest⟩ := dumpBytes_two_tails
      (show 1 ≤ (codepoint state (codepoint 0 codep a) b).toNat by omega) (by omega) third fourth bytes
    exact ⟨codep', by
      rw [dumpBytes_inner step step'.1, dumpBytes_inner step'.2 (by decide), rest, map_map, map_map]
      rfl⟩

theorem hexValue_hexDigit : ∀ n < 16, hexValue (hexDigit n) = some n := by decide

theorem stringStep_plain {byte : UInt8} (quote : byte ≠ 0x22) (backslash : byte ≠ 0x5C) {ranges : List (ℕ × ℕ)}
    (ranged : tailRanges byte = some ranges) {bytes rest added : StdString}
    (found : nextBytesInRange ranges bytes = some (added, rest)) :
    stringStep (byte :: bytes) = .added (byte :: added) rest := by
  rw [stringStep, if_neg quote, if_neg backslash, ranged]
  simp only [found]

theorem stringStep_one {a : UInt8} (first : a.toNat < 0x80) (rest : StdString) :
    stringStep (escaped a.toUInt32 a ++ rest) = .added [a] rest := by
  have word (b : UInt8) (c : UInt32) (same : b.toUInt32 = c) (other : a ≠ b) : a.toUInt32 ≠ c := by
    rw [← same]
    exact fun equal => other (UInt8.toUInt32_inj.mp equal)
  by_cases b08 : a = 0x08
  · subst b08
    rfl
  by_cases b09 : a = 0x09
  · subst b09
    rfl
  by_cases b0A : a = 0x0A
  · subst b0A
    rfl
  by_cases b0C : a = 0x0C
  · subst b0C
    rfl
  by_cases b0D : a = 0x0D
  · subst b0D
    rfl
  by_cases b22 : a = 0x22
  · subst b22
    rfl
  by_cases b5C : a = 0x5C
  · subst b5C
    rfl
  have control : a.toUInt32 ≤ 0x1F ↔ a.toNat < 0x20 := by
    rw [UInt32.le_iff_toNat_le, UInt8.toNat_toUInt32]
    exact Nat.lt_succ_iff.symm
  rw [escaped, if_neg (word 0x08 0x08 rfl b08), if_neg (word 0x09 0x09 rfl b09), if_neg (word 0x0A 0x0A rfl b0A), if_neg (word 0x0C 0x0C rfl b0C),
    if_neg (word 0x0D 0x0D rfl b0D), if_neg (word 0x22 0x22 rfl b22), if_neg (word 0x5C 0x5C rfl b5C)]
  by_cases low : a.toNat < 0x20
  · have high := hexValue_hexDigit (a.toNat / 16) (by omega)
    have digit := hexValue_hexDigit (a.toNat % 16) (by omega)
    have zero : hexValue 0x30 = some 0 := by decide
    have read : getCodepoint (0x30 :: 0x30 :: hexDigit (a.toNat / 16) :: hexDigit (a.toNat % 16) :: rest) =
        some (a.toNat, rest) := by
      have sum : 0 * 4096 + 0 * 256 + a.toNat / 16 * 16 + a.toNat % 16 = a.toNat := by omega
      rw [getCodepoint, zero, high, digit]
      exact congrArg (fun n => some (n, rest)) sum
    have encoded : encodeCodepoint a.toNat = [a] := by rw [encodeCodepoint, if_pos first, UInt8.ofNat_toNat]
    have text : utf8 "\\u00" ++ [hexDigit (a.toUInt32.toNat / 16), hexDigit (a.toUInt32.toNat % 16)] ++ rest =
        0x5C :: 0x75 :: 0x30 :: 0x30 :: hexDigit (a.toNat / 16) :: hexDigit (a.toNat % 16) :: rest := rfl
    rw [if_pos (control.mpr low), text]
    change unicodeStep _ = _
    rw [unicodeStep, read]
    change (if _ then _ else if _ then _ else _) = _
    rw [if_neg (by omega), if_neg (by omega), encoded]
  · have ranged : tailRanges a = some [] := by
      rw [tailRanges, if_neg low, if_pos first]
    rw [if_neg (low ∘ control.mp), List.singleton_append]
    exact stringStep_plain b22 b5C ranged rfl

theorem nextBytesInRange_cons {low high : ℕ} {byte : UInt8} (inside : low ≤ byte.toNat ∧ byte.toNat ≤ high)
    {ranges : List (ℕ × ℕ)} {bytes added rest : StdString}
    (found : nextBytesInRange ranges bytes = some (added, rest)) :
    nextBytesInRange ((low, high) :: ranges) (byte :: bytes) = some (byte :: added, rest) := by
  rw [nextBytesInRange, if_pos inside, found]
  rfl

theorem stringStep_character {char : StdString} (character : Utf8.Character char) (rest : StdString) :
    stringStep (escapedCharacter char ++ rest) = .added char rest := by
  have done : nextBytesInRange [] rest = some ([], rest) := rfl
  have high (a : UInt8) (beyond : 0x80 ≤ a.toNat) : a ≠ 0x22 ∧ a ≠ 0x5C := by
    constructor
    · rintro rfl
      revert beyond
      decide
    · rintro rfl
      revert beyond
      decide
  cases character with
  | one first => exact stringStep_one first rest
  | @two a b low up second =>
    obtain ⟨quote, backslash⟩ := high a (by omega)
    have ranged : tailRanges a = some [(0x80, 0xBF)] := by
      simp only [tailRanges]
      rw [if_neg (by omega), if_neg (by omega), if_pos ⟨low, up⟩]
    exact stringStep_plain quote backslash ranged (nextBytesInRange_cons second done)
  | @three a b c low up second third short surrogate =>
    obtain ⟨quote, backslash⟩ := high a (by omega)
    have tail := nextBytesInRange_cons third done
    by_cases isShort : a.toNat = 0xE0
    · have ranged : tailRanges a = some [(0xA0, 0xBF), (0x80, 0xBF)] := by
        simp only [tailRanges]
        rw [if_neg (by omega), if_neg (by omega), if_neg (by omega), if_pos isShort]
      exact stringStep_plain quote backslash ranged (nextBytesInRange_cons ⟨short isShort, second.2⟩ tail)
    · by_cases isSurrogate : a.toNat = 0xED
      · have ranged : tailRanges a = some [(0x80, 0x9F), (0x80, 0xBF)] := by
          simp only [tailRanges]
          rw [if_neg (by omega), if_neg (by omega), if_neg (by omega), if_neg isShort, if_pos isSurrogate]
        exact stringStep_plain quote backslash ranged (nextBytesInRange_cons ⟨second.1, surrogate isSurrogate⟩ tail)
      · have ranged : tailRanges a = some [(0x80, 0xBF), (0x80, 0xBF)] := by
          simp only [tailRanges]
          rw [if_neg (by omega), if_neg (by omega), if_neg (by omega), if_neg isShort, if_neg isSurrogate,
            if_pos (by omega)]
        exact stringStep_plain quote backslash ranged (nextBytesInRange_cons second tail)
  | @four a b c d low up second third fourth short last =>
    obtain ⟨quote, backslash⟩ := high a (by omega)
    have tails := nextBytesInRange_cons third (nextBytesInRange_cons fourth done)
    by_cases isShort : a.toNat = 0xF0
    · have ranged : tailRanges a = some [(0x90, 0xBF), (0x80, 0xBF), (0x80, 0xBF)] := by
        simp only [tailRanges]
        rw [if_neg (by omega), if_neg (by omega), if_neg (by omega), if_neg (by omega), if_neg (by omega),
          if_neg (by omega), if_pos isShort]
      exact stringStep_plain quote backslash ranged (nextBytesInRange_cons ⟨short isShort, second.2⟩ tails)
    · by_cases isLast : a.toNat = 0xF4
      · have ranged : tailRanges a = some [(0x80, 0x8F), (0x80, 0xBF), (0x80, 0xBF)] := by
          simp only [tailRanges]
          rw [if_neg (by omega), if_neg (by omega), if_neg (by omega), if_neg (by omega), if_neg (by omega),
            if_neg (by omega), if_neg isShort, if_neg (by omega), if_pos isLast]
        exact stringStep_plain quote backslash ranged (nextBytesInRange_cons ⟨second.1, last isLast⟩ tails)
      · have ranged : tailRanges a = some [(0x80, 0xBF), (0x80, 0xBF), (0x80, 0xBF)] := by
          simp only [tailRanges]
          rw [if_neg (by omega), if_neg (by omega), if_neg (by omega), if_neg (by omega), if_neg (by omega),
            if_neg (by omega), if_neg isShort, if_pos (by omega)]
        exact stringStep_plain quote backslash ranged (nextBytesInRange_cons second tails)

/-- `scan_string` gives back every string that `dump_escaped` wrote. -/
theorem scanString_dumpBytes (s : StdString) (accepted : Utf8.reached 0 s = 0) (codep : UInt32) :
    ∃ text, dumpBytes 0 codep s = .ok text ∧ ∀ rest, scanString (text ++ 0x22 :: rest) = some (s, rest) := by
  induction length : s.length using Nat.strong_induction_on generalizing s codep with
  | _ n ih =>
    rcases Utf8.accepted_cases accepted with rfl | ⟨char, tail, rfl, character, accepted⟩
    · exact ⟨[], rfl, fun rest => scanString_closed_of rfl⟩
    · have shorter : tail.length < n := by
        have positive : 0 < char.length := by
          cases character <;> simp
        rw [← length, List.length_append]
        omega
      obtain ⟨codep', dumped⟩ := dumpBytes_character character codep tail
      obtain ⟨text, written, read⟩ := ih tail.length shorter tail accepted codep' rfl
      refine ⟨escapedCharacter char ++ text, by rw [dumped, written]; rfl, fun rest => ?_⟩
      rw [List.append_assoc, scanString_added (stringStep_character character _), read]
      rfl

end Strings

section Numbers

def EndsNumber (rest : StdString) : Prop := ∀ byte ∈ rest.head?, ∀ state : NumberState, state.isDone = true → state.next byte = none

theorem endsNumber_nil : EndsNumber [] := by simp [EndsNumber]

theorem endsNumber_cons {byte : UInt8} (stops : ∀ state : NumberState, state.isDone = true → state.next byte = none)
    (rest : StdString) : EndsNumber (byte :: rest) := by
  intro first same
  cases same
  exact stops

theorem scanNumberFrom_append {state : NumberState} {type type' : NumberType} {text buffer rest : StdString}
    (read : scanNumberFrom state type text = some (type', buffer, [])) (ends : EndsNumber rest) :
    scanNumberFrom state type (text ++ rest) = some (type', buffer, rest) := by
  induction text generalizing state type buffer with
  | nil =>
    rw [scanNumberFrom] at read
    split at read
    · rename_i done
      cases read
      cases rest with
      | nil => rw [List.append_nil, scanNumberFrom, if_pos done]
      | cons byte rest =>
        have stop := ends byte rfl state done
        rw [List.nil_append, scanNumberFrom, stop]
        exact if_pos done
    · cases read
  | cons byte text ih =>
    rw [scanNumberFrom] at read
    cases step : state.next byte with
    | none =>
      rw [step] at read
      simp only at read
      split at read
      · cases read
      · cases read
    | some next =>
      rw [step] at read
      obtain ⟨⟨type₁, buffer₁, rest₁⟩, read, same⟩ := Option.map_eq_some_iff.mp read
      cases same
      rw [List.cons_append, scanNumberFrom, step]
      simp only [ih read, Option.map_some]

theorem encode_digit {c : Char} (digit : c.isDigit = true) :
    ∃ byte : UInt8, String.utf8EncodeChar c = [byte] ∧ isDigit byte = true ∧ byte.toNat = c.toNat := by
  simp only [Char.isDigit, Bool.and_eq_true, decide_eq_true_eq] at digit
  have low : 48 ≤ c.toNat := UInt32.le_iff_toNat_le.mp digit.1
  have high : c.toNat ≤ 57 := UInt32.le_iff_toNat_le.mp digit.2
  have code : c.val.toNat ≤ 0x7F := show c.toNat ≤ 127 by omega
  have byte : (UInt8.ofNat c.val.toNat).toNat = c.toNat := by
    rw [UInt8.toNat_ofNat']
    exact Nat.mod_eq_of_lt (show c.toNat < 2 ^ 8 by omega)
  refine ⟨UInt8.ofNat c.val.toNat, ?_, ?_, byte⟩
  · rw [String.utf8EncodeChar, if_pos code]
  · rw [isDigit, byte]
    simp only [decide_eq_true_eq]
    omega

theorem scanNumberFrom_digits {digits : StdString} (all : ∀ byte ∈ digits, isDigit byte = true) (type : NumberType) :
    scanNumberFrom .any1 type digits = some (type, digits, []) := by
  induction digits with
  | nil => rfl
  | cons byte digits ih =>
    have step : NumberState.any1.next byte = some .any1 := if_pos (all byte List.mem_cons_self)
    rw [scanNumberFrom, step]
    simp only [NumberState.type, ih fun byte member => all byte (List.mem_cons_of_mem _ member), Option.map_some]

theorem digits_bytes {cs : List Char} (digits : ∀ c ∈ cs, c.isDigit = true) :
    ∀ byte ∈ cs.flatMap String.utf8EncodeChar, isDigit byte = true := by
  intro byte member
  obtain ⟨c, inside, member⟩ := List.mem_flatMap.mp member
  obtain ⟨byte', encoded, isDigit, -⟩ := encode_digit (digits c inside)
  rw [encoded, List.mem_singleton] at member
  rwa [member]

theorem digits_chars {cs : List Char} (digits : ∀ c ∈ cs, c.isDigit = true) :
    StdString.chars (cs.flatMap String.utf8EncodeChar) = cs := by
  induction cs with
  | nil => rfl
  | cons c cs ih =>
    obtain ⟨byte, encoded, -, value⟩ := encode_digit (digits c List.mem_cons_self)
    have first : Char.ofNat byte.toNat = c := by rw [value, Char.ofNat_toNat]
    rw [List.flatMap_cons, encoded, List.singleton_append, StdString.chars, List.map_cons, first, ← StdString.chars,
      ih fun c member => digits c (List.mem_cons_of_mem _ member)]

theorem toDigits_head {n : ℕ} (positive : 0 < n) : ∃ d ds, Nat.toDigits 10 n = d :: ds ∧ d ≠ '0' := by
  induction n using Nat.strong_induction_on with
  | _ n ih =>
    rw [Nat.toDigits_eq_if (by decide)]
    by_cases small : n < 10
    · rw [if_pos small]
      refine ⟨Nat.digitChar n, [], rfl, ?_⟩
      have table : ∀ n < 10, 0 < n → Nat.digitChar n ≠ '0' := by decide
      exact table n small positive
    · obtain ⟨d, ds, same, other⟩ := ih (n / 10) (by omega) (by omega)
      rw [if_neg small, same]
      exact ⟨d, ds ++ [Nat.digitChar (n % 10)], rfl, other⟩

theorem scanNumberFrom_repr {state : NumberState} (start : state = .init ∨ state = .minus) (type : NumberType) (n : ℕ) :
    scanNumberFrom state type (utf8 (Nat.repr n)) = some (type, utf8 (Nat.repr n), []) := by
  by_cases zero : n = 0
  · subst zero
    have text : utf8 (Nat.repr 0) = [0x30] := by decide
    rw [text]
    rcases start with rfl | rfl
    · rfl
    · rfl
  · obtain ⟨d, ds, text, other⟩ := toDigits_head (Nat.pos_of_ne_zero zero)
    have digits : ∀ c ∈ d :: ds, c.isDigit = true := by
      rw [← text, ← Nat.toList_repr]
      exact QString.number_digits n
    obtain ⟨byte, encoded, isDigit', value⟩ := encode_digit (digits d List.mem_cons_self)
    have notZero : byte ≠ 0x30 := by
      rintro rfl
      have same : d = Char.ofNat 48 := by rw [← Char.ofNat_toNat d, ← value]; rfl
      exact other same
    have notMinus : byte ≠ 0x2D := by
      rintro rfl
      exact absurd isDigit' (by decide)
    have step : state.next byte = some .any1 := by
      rcases start with rfl | rfl
      · exact (if_neg notMinus).trans ((if_neg notZero).trans (if_pos isDigit'))
      · exact (if_neg notZero).trans (if_pos isDigit')
    have rest := scanNumberFrom_digits
      (digits_bytes fun c member => digits c (List.mem_cons_of_mem _ member)) type
    rw [utf8, Nat.toList_repr, text, List.flatMap_cons, encoded, List.singleton_append, scanNumberFrom, step]
    simp only [NumberState.type, rest, Option.map_some]

theorem strtoll_repr (n : ℕ) : Nat.ofDigitChars 10 (StdString.chars (utf8 (Nat.repr n))) 0 = n := by
  have digits : ∀ c ∈ (Nat.repr n).toList, c.isDigit = true := QString.number_digits n
  rw [utf8, digits_chars digits, Nat.toList_repr, Nat.ofDigitChars_ten_toDigits]

variable (strtod : StdString → Option ℚ)

/-- `dump_integer` writes what `scan_number` reads. -/
theorem scanNumber_int {n : ℤ} (low : -2 ^ 63 ≤ n) (high : n < 2 ^ 64) {rest : StdString} (ends : EndsNumber rest) :
    scanNumber strtod (utf8 (stdToString n) ++ rest) =
      (if n < 0 then .valueInteger n else .valueUnsigned n, rest) := by
  unfold stdToString
  by_cases negative : n < 0
  · have bytes : utf8 ("-" ++ Nat.repr n.natAbs) = 0x2D :: utf8 (Nat.repr n.natAbs) := by
      rw [utf8, String.toList_append, List.flatMap_append]
      rfl
    have whole : scanNumberFrom .init .unsigned (0x2D :: utf8 (Nat.repr n.natAbs)) =
        some (.integer, 0x2D :: utf8 (Nat.repr n.natAbs), []) := by
      have step : NumberState.init.next 0x2D = some .minus := rfl
      rw [scanNumberFrom, step]
      simp only [NumberState.type, scanNumberFrom_repr (.inr rfl) .integer n.natAbs, Option.map_some]
    have value : strtoll (0x2D :: utf8 (Nat.repr n.natAbs)) = n := by
      rw [strtoll, if_pos List.head?_cons, List.tail_cons, strtoll_repr]
      omega
    rw [if_pos negative, if_pos negative, bytes, scanNumber, scanNumberFrom_append whole ends]
    simp only [numberToken, value, if_pos low]
  · have whole := scanNumberFrom_repr (.inl rfl) .unsigned n.natAbs
    have value : strtoll (utf8 (Nat.repr n.natAbs)) = n := by
      rw [strtoll, if_neg, strtoll_repr]
      · omega
      · intro first
        have digit := digits_bytes (QString.number_digits n.natAbs) 0x2D (List.mem_of_mem_head? first)
        exact absurd digit (by decide)
    rw [if_neg negative, if_neg negative, scanNumber, scanNumberFrom_append whole ends]
    simp only [numberToken, value, if_pos high]

end Numbers

section Scan

variable (strtod : StdString → Option ℚ)

theorem scan_blanks {blanks : StdString} (all : ∀ byte ∈ blanks, isSpace byte = true) (text : StdString) :
    scan strtod (blanks ++ text) = scan strtod text := by
  rw [scan, List.dropWhile_append_of_pos all, ← scan]

theorem scan_structural {byte : UInt8} {token : Token} (read : structural byte = some token)
    (visible : isSpace byte = false) (rest : StdString) : scan strtod (byte :: rest) = (token, rest) := by
  rw [scan, List.dropWhile_cons, visible, if_neg Bool.false_ne_true]
  simp only [read]

theorem scan_long {byte : UInt8} (other : structural byte = none) (visible : isSpace byte = false) (rest : StdString) :
    scan strtod (byte :: rest) = scanLong strtod byte rest := by
  rw [scan, List.dropWhile_cons, visible, if_neg Bool.false_ne_true]
  simp only [other]

theorem scan_null (rest : StdString) : scan strtod (utf8 "null" ++ rest) = (.literalNull, rest) := rfl

theorem scan_true (rest : StdString) : scan strtod (utf8 "true" ++ rest) = (.literalTrue, rest) := rfl

theorem scan_false (rest : StdString) : scan strtod (utf8 "false" ++ rest) = (.literalFalse, rest) := rfl

theorem scan_quoted {s text : StdString} (written : YJson.quoted s = .ok text) (rest : StdString) :
    scan strtod (text ++ rest) = (.valueString s, rest) := by
  obtain ⟨inner, dumped, same⟩ := bind_completes written
  cases same
  have accepted : Utf8.reached 0 s = 0 := (YJson.dumpBytes_completes 0 0 s).mp ⟨inner, dumped⟩
  obtain ⟨text, written, read⟩ := scanString_dumpBytes s accepted 0
  cases Except.ok.inj (dumped.symm.trans written)
  have bytes : utf8 "\"" ++ inner ++ utf8 "\"" ++ rest = 0x22 :: (inner ++ 0x22 :: rest) := by
    simp [show utf8 "\"" = [0x22] from rfl]
  rw [bytes, scan_long strtod rfl rfl, scanLong, if_neg (by decide), if_neg (by decide), if_neg (by decide), if_pos rfl,
    read]

theorem scan_number {byte : UInt8} (starts : byte = 0x2D ∨ isDigit byte = true) (bytes : StdString) :
    scan strtod (byte :: bytes) = scanNumber strtod (byte :: bytes) := by
  have other (c : UInt8) (outside : c ≠ 0x2D ∧ isDigit c = false) : byte ≠ c := by
    rintro rfl
    rcases starts with same | digit
    · exact outside.1 same
    · rw [digit] at outside
      exact absurd outside.2 (by decide)
  have noStructure : structural byte = none := by
    rw [structural, if_neg (other _ (by decide)), if_neg (other _ (by decide)), if_neg (other _ (by decide)),
      if_neg (other _ (by decide)), if_neg (other _ (by decide)), if_neg (other _ (by decide))]
  have visible : isSpace byte = false := by
    simp [isSpace, other 0x20 (by decide), other 0x09 (by decide), other 0x0A (by decide), other 0x0D (by decide)]
  rw [scan_long strtod noStructure visible, scanLong, if_neg (other _ (by decide)), if_neg (other _ (by decide)),
    if_neg (other _ (by decide)), if_neg (other _ (by decide)), if_pos starts]

end Scan

end Lexer

end XYAnnotation

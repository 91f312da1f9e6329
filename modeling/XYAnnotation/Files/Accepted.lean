import XYAnnotation.Files.JsonText

namespace XYAnnotation

open Library StdString

def Token.Good (fits : ℚ → Prop) : Token → Prop
  | .valueString s => Utf8.Valid s
  | .valueUnsigned n | .valueInteger n => -2 ^ 63 ≤ n ∧ n < 2 ^ 64
  | .valueFloat (some x) => fits x
  | _ => True

namespace Lexer

section Strings

theorem valid_nil : Utf8.Valid [] := ⟨[], rfl⟩

theorem valid_append {s t : StdString} (first : Utf8.Valid s) (second : Utf8.Valid t) : Utf8.Valid (s ++ t) := by
  obtain ⟨cs, rfl⟩ := first
  obtain ⟨ds, rfl⟩ := second
  exact ⟨cs ++ ds, List.flatMap_append.symm⟩

theorem valid_character {char : StdString} (character : Utf8.Character char) : Utf8.Valid char := by
  obtain ⟨c, rfl⟩ := character.encoded
  exact ⟨[c], (List.append_nil _).symm⟩

theorem valid_byte {byte : UInt8} (low : byte.toNat < 0x80) : Utf8.Valid [byte] := valid_character (.one low)

def IsScalar (codepoint : ℕ) : Prop := codepoint < 0xD800 ∨ (0xDFFF < codepoint ∧ codepoint < 0x110000)

theorem or_add (k a : ℕ) {b : ℕ} (below : b < 2 ^ k) : 2 ^ k * a ||| b = b + 2 ^ k * a := by
  rw [← Nat.two_pow_add_eq_or_of_lt below, Nat.add_comm]

theorem encodeCodepoint_eq (c : Char) : encodeCodepoint c.val.toNat = String.utf8EncodeChar c := by
  have low (n : ℕ) : n &&& 0x3F = n % 64 := Nat.and_two_pow_sub_one_eq_mod n 6
  have tail (n : ℕ) : 0x80 ||| n % 64 = n % 64 + 0x80 := or_add 6 2 (Nat.mod_lt n (by decide))
  have two {n : ℕ} (small : n ≤ 0x7FF) : 0xC0 ||| n / 64 = n / 64 % 32 + 0xC0 := by
    rw [Nat.mod_eq_of_lt (show n / 64 < 32 by omega)]
    exact or_add 6 3 (show n / 64 < 64 by omega)
  have three {n : ℕ} (small : n ≤ 0xFFFF) : 0xE0 ||| n / 4096 = n / 4096 % 16 + 0xE0 := by
    rw [Nat.mod_eq_of_lt (show n / 4096 < 16 by omega)]
    exact or_add 5 7 (show n / 4096 < 32 by omega)
  have four {n : ℕ} (small : n < 0x110000) : 0xF0 ||| n / 262144 = n / 262144 % 8 + 0xF0 := by
    rw [Nat.mod_eq_of_lt (show n / 262144 < 8 by omega)]
    exact or_add 4 15 (show n / 262144 < 16 by omega)
  have scalar : IsScalar c.val.toNat := c.valid
  have bound : c.val.toNat < 0x110000 := by
    unfold IsScalar at scalar
    omega
  simp only [encodeCodepoint, String.utf8EncodeChar, Nat.shiftRight_eq_div_pow, low, tail, Nat.reducePow]
  by_cases ascii : c.val.toNat < 0x80
  · rw [if_pos ascii, if_pos (Nat.le_of_lt_succ ascii)]
  rw [if_neg ascii, if_neg fun le => ascii (Nat.lt_succ_of_le le)]
  by_cases second : c.val.toNat ≤ 0x7FF
  · rw [if_pos second, if_pos second, two second]
  rw [if_neg second, if_neg second]
  by_cases third : c.val.toNat ≤ 0xFFFF
  · rw [if_pos third, if_pos third, three third]
  · rw [if_neg third, if_neg third, four bound]

theorem valid_encodeCodepoint {codepoint : ℕ} (scalar : IsScalar codepoint) : Utf8.Valid (encodeCodepoint codepoint) := by
  obtain ⟨c, rfl⟩ := Utf8.exists_char scalar
  rw [encodeCodepoint_eq]
  exact valid_character (Utf8.encodeChar_character c)

def StringStep.Valid : StringStep → Prop
  | .added bytes _ => Utf8.Valid bytes
  | .closed _ | .failed => True

theorem hexValue_lt {byte : UInt8} {value : ℕ} (read : hexValue byte = some value) : value < 16 := by
  simp only [hexValue] at read
  split at read
  · cases read
    omega
  split at read
  · cases read
    omega
  split at read
  · cases read
    omega
  · cases read

theorem getCodepoint_lt {bytes rest : StdString} {codepoint : ℕ} (read : getCodepoint bytes = some (codepoint, rest)) :
    codepoint < 0x10000 := by
  match bytes, read with
  | a :: b :: c :: d :: _, read =>
    simp only [getCodepoint, Option.bind_eq_bind, Option.bind_eq_some_iff, Option.some.injEq, Prod.mk.injEq] at read
    obtain ⟨a', first, b', second, c', third, d', fourth, rfl, -⟩ := read
    have := hexValue_lt first
    have := hexValue_lt second
    have := hexValue_lt third
    have := hexValue_lt fourth
    omega

theorem unicodeStep_valid (bytes : StdString) : (unicodeStep bytes).Valid := by
  unfold unicodeStep
  split
  · trivial
  · rename_i codepoint1 rest1 read
    have first := getCodepoint_lt read
    split
    · split
      · split
        · trivial
        · split
          · exact valid_encodeCodepoint (.inr (by omega))
          · trivial
      · trivial
    · split
      · trivial
      · exact valid_encodeCodepoint (by unfold IsScalar; omega)

theorem simpleEscape_valid {byte char : UInt8} (read : simpleEscape byte = some char) : Utf8.Valid [char] := by
  apply valid_byte
  unfold simpleEscape at read
  repeat (split at read; · cases read; decide)
  cases read

theorem escapeStep_valid (bytes : StdString) : (escapeStep bytes).Valid := by
  cases bytes with
  | nil => trivial
  | cons byte rest =>
    rw [escapeStep]
    split
    · rename_i char read
      exact simpleEscape_valid read
    · split
      · exact unicodeStep_valid rest
      · trivial

theorem nextBytesInRange_some {ranges : List (ℕ × ℕ)} {low high : ℕ} {bytes read rest : StdString}
    (found : nextBytesInRange ((low, high) :: ranges) bytes = some (read, rest)) :
    ∃ byte bytes' read', read = byte :: read' ∧ low ≤ byte.toNat ∧ byte.toNat ≤ high ∧
      nextBytesInRange ranges bytes' = some (read', rest) := by
  cases bytes with
  | nil => cases found
  | cons byte bytes =>
    rw [nextBytesInRange] at found
    split at found
    · rename_i inside
      obtain ⟨⟨read', rest'⟩, found, same⟩ := Option.map_eq_some_iff.mp found
      cases same
      exact ⟨byte, bytes, read', rfl, inside.1, inside.2, found⟩
    · cases found

theorem one_in_range {low high : ℕ} {bytes read rest : StdString}
    (found : nextBytesInRange [(low, high)] bytes = some (read, rest)) :
    ∃ b, read = [b] ∧ low ≤ b.toNat ∧ b.toNat ≤ high := by
  obtain ⟨b, _, _, rfl, above, below, found⟩ := nextBytesInRange_some found
  cases found
  exact ⟨b, rfl, above, below⟩

theorem two_in_range {low high : ℕ} {bytes read rest : StdString}
    (found : nextBytesInRange [(low, high), (0x80, 0xBF)] bytes = some (read, rest)) :
    ∃ b c, read = [b, c] ∧ (low ≤ b.toNat ∧ b.toNat ≤ high) ∧ Utf8.IsTail c := by
  obtain ⟨b, _, _, rfl, above, below, found⟩ := nextBytesInRange_some found
  obtain ⟨c, rfl, tail⟩ := one_in_range found
  exact ⟨b, c, rfl, ⟨above, below⟩, tail⟩

theorem three_in_range {low high : ℕ} {bytes read rest : StdString}
    (found : nextBytesInRange [(low, high), (0x80, 0xBF), (0x80, 0xBF)] bytes = some (read, rest)) :
    ∃ b c d, read = [b, c, d] ∧ (low ≤ b.toNat ∧ b.toNat ≤ high) ∧ Utf8.IsTail c ∧ Utf8.IsTail d := by
  obtain ⟨b, _, _, rfl, above, below, found⟩ := nextBytesInRange_some found
  obtain ⟨c, d, rfl, tail, tail'⟩ := two_in_range found
  exact ⟨b, c, d, rfl, ⟨above, below⟩, tail, tail'⟩

theorem ranged_character {byte : UInt8} {ranges : List (ℕ × ℕ)} {bytes read rest : StdString}
    (ranged : tailRanges byte = some ranges) (found : nextBytesInRange ranges bytes = some (read, rest)) :
    Utf8.Character (byte :: read) := by
  unfold tailRanges at ranged
  simp only at ranged
  split at ranged
  · cases ranged
  split at ranged
  · cases ranged
    cases found
    exact .one ‹_›
  split at ranged
  · cases ranged
    obtain ⟨b, rfl, tail⟩ := one_in_range found
    exact .two (by omega) (by omega) tail
  split at ranged
  · cases ranged
    obtain ⟨b, c, rfl, second, third⟩ := two_in_range found
    exact .three (by omega) (by omega) ⟨by omega, second.2⟩ third (by omega) (by omega)
  split at ranged
  · cases ranged
    obtain ⟨b, c, rfl, second, third⟩ := two_in_range found
    exact .three (by omega) (by omega) ⟨second.1, by omega⟩ third (by omega) (by omega)
  split at ranged
  · cases ranged
    obtain ⟨b, c, rfl, second, third⟩ := two_in_range found
    exact .three (by omega) (by omega) second third (by omega) (by omega)
  split at ranged
  · cases ranged
    obtain ⟨b, c, d, rfl, second, third, fourth⟩ := three_in_range found
    exact .four (by omega) (by omega) ⟨by omega, second.2⟩ third fourth (by omega) (by omega)
  split at ranged
  · cases ranged
    obtain ⟨b, c, d, rfl, second, third, fourth⟩ := three_in_range found
    exact .four (by omega) (by omega) second third fourth (by omega) (by omega)
  split at ranged
  · cases ranged
    obtain ⟨b, c, d, rfl, second, third, fourth⟩ := three_in_range found
    exact .four (by omega) (by omega) ⟨second.1, by omega⟩ third fourth (by omega) (by omega)
  · cases ranged

theorem stringStep_valid (bytes : StdString) : (stringStep bytes).Valid := by
  cases bytes with
  | nil => trivial
  | cons byte rest =>
    rw [stringStep]
    split
    · trivial
    split
    · exact escapeStep_valid rest
    split
    · trivial
    · rename_i ranges ranged
      split
      · trivial
      · rename_i read rest' found
        exact valid_character (ranged_character ranged found)

theorem scanString_valid {bytes content rest : StdString} (read : scanString bytes = some (content, rest)) :
    Utf8.Valid content := by
  induction bytes using scanString.induct generalizing content with
  | case1 bytes rest' step =>
    rw [scanString_closed_of step] at read
    cases read
    exact valid_nil
  | case2 bytes added rest' step ih =>
    rw [scanString_added step] at read
    obtain ⟨⟨content', last⟩, read, same⟩ := Option.map_eq_some_iff.mp read
    cases same
    have valid := stringStep_valid bytes
    rw [step] at valid
    exact valid_append valid (ih read)
  | case3 bytes step =>
    rw [scanString_failed step] at read
    cases read

end Strings

section Numbers

theorem NumberState.next_later {state next : NumberState} (later : state ≠ .init) {byte : UInt8}
    (step : state.next byte = some next) (type : NumberType) :
    next ≠ .init ∧ (next.type type = type ∨ next.type type = .float) := by
  cases state with
  | init => exact absurd rfl later
  | minus | zero | any1 | decimal1 | decimal2 | exponent | sign | any2 =>
    simp only [NumberState.next] at step
    split_ifs at step <;> cases step <;> exact ⟨by decide, by simp [NumberState.type]⟩

theorem scanNumberFrom_type {state : NumberState} (later : state ≠ .init) {type type' : NumberType}
    {bytes buffer rest : StdString} (read : scanNumberFrom state type bytes = some (type', buffer, rest)) :
    type' = type ∨ type' = .float := by
  induction bytes generalizing state type buffer with
  | nil =>
    rw [scanNumberFrom] at read
    split at read
    · cases read
      exact .inl rfl
    · cases read
  | cons byte bytes ih =>
    rw [scanNumberFrom] at read
    split at read
    · rename_i next step
      obtain ⟨later', kept⟩ := NumberState.next_later later step type
      obtain ⟨⟨type₁, buffer₁, rest₁⟩, read, same⟩ := Option.map_eq_some_iff.mp read
      cases same
      rcases ih later' read with same | float
      · rwa [same]
      · exact .inr float
    · split at read
      · cases read
        exact .inl rfl
      · cases read

theorem scanNumberFrom_sign {bytes buffer rest : StdString} {type : NumberType}
    (read : scanNumberFrom .init .unsigned bytes = some (type, buffer, rest)) :
    (type = .unsigned → buffer.head? ≠ some 0x2D) ∧ (type = .integer → buffer.head? = some 0x2D) := by
  cases bytes with
  | nil => cases read
  | cons byte bytes =>
    rw [scanNumberFrom] at read
    split at read
    · rename_i next step
      obtain ⟨⟨type₁, buffer₁, rest₁⟩, read, same⟩ := Option.map_eq_some_iff.mp read
      cases same
      by_cases sign : byte = 0x2D
      · have minus : next = .minus := (Option.some.inj ((if_pos sign).symm.trans step)).symm
        subst minus
        have kept := scanNumberFrom_type (by decide) read
        refine ⟨fun unsigned => ?_, fun _ => congrArg some sign⟩
        rw [unsigned] at kept
        exact absurd kept (by decide)
      · have plain : next ≠ .init ∧ next.type .unsigned = .unsigned := by
          simp only [NumberState.next, if_neg sign] at step
          split_ifs at step <;> cases step <;> exact ⟨by decide, rfl⟩
        have kept := scanNumberFrom_type plain.1 read
        rw [plain.2] at kept
        refine ⟨fun _ same => sign (Option.some.inj same), fun integer => ?_⟩
        rw [integer] at kept
        exact absurd kept (by decide)
    · split at read
      · rename_i done
        cases done
      · cases read

end Numbers

section Tokens

variable {fits : ℚ → Prop} {strtod : StdString → Option ℚ} (float : ∀ text x, strtod text = some x → fits x)

include float

theorem valueFloat_good (buffer : StdString) : (Token.valueFloat (strtod buffer)).Good fits := by
  cases read : strtod buffer with
  | none => trivial
  | some x => exact float buffer x read

theorem scanNumber_good (bytes : StdString) : (scanNumber strtod bytes).1.Good fits := by
  unfold scanNumber
  split
  · rename_i type buffer rest read
    obtain ⟨plain, signed⟩ := scanNumberFrom_sign read
    simp only [numberToken]
    split
    · have sign : 0 ≤ strtoll buffer := by
        rw [strtoll, if_neg (plain rfl)]
        exact Int.natCast_nonneg _
      split
      · rename_i small
        exact ⟨by omega, small⟩
      · exact valueFloat_good float buffer
    · have sign : strtoll buffer ≤ 0 := by
        rw [strtoll, if_pos (signed rfl)]
        exact Int.neg_nonpos_of_nonneg (Int.natCast_nonneg _)
      split
      · rename_i large
        exact ⟨large, by omega⟩
      · exact valueFloat_good float buffer
    · exact valueFloat_good float buffer
  · trivial

theorem scanLong_good (byte : UInt8) (rest : StdString) : (scanLong strtod byte rest).1.Good fits := by
  have literal (text bytes : StdString) (token : Token) (good : token.Good fits) :
      (scanLiteral text token bytes).1.Good fits := by
    unfold scanLiteral
    split
    · exact good
    · trivial
  unfold scanLong
  split
  · exact literal _ _ _ trivial
  split
  · exact literal _ _ _ trivial
  split
  · exact literal _ _ _ trivial
  split
  · split
    · rename_i read
      exact scanString_valid read
    · trivial
  split
  · exact scanNumber_good float _
  split <;> trivial

theorem scan_good (bytes : StdString) : (scan strtod bytes).1.Good fits := by
  unfold scan
  split
  · trivial
  · rename_i byte rest _
    split
    · rename_i token read
      unfold structural at read
      split_ifs at read <;> cases read <;> trivial
    · exact scanLong_good float byte rest

end Tokens

end Lexer

namespace YJson

variable {fits : ℚ → Prop}

theorem wellFormedItems_iff {items : List YJson} : WellFormedItems fits items ↔ ∀ item ∈ items, item.WellFormed fits := by
  induction items with
  | nil => exact iff_of_true trivial fun _ member => absurd member List.not_mem_nil
  | cons item items ih => rw [WellFormedItems, ih, List.forall_mem_cons]

theorem wellFormedMembers_iff {members : List (StdString × YJson)} :
    WellFormedMembers fits members ↔ ∀ member ∈ members, Utf8.Valid member.1 ∧ member.2.WellFormed fits := by
  induction members with
  | nil => exact iff_of_true trivial fun _ member => absurd member List.not_mem_nil
  | cons member members ih => rw [WellFormedMembers, ih, List.forall_mem_cons, and_assoc]

end YJson

open YJson

def Frame.Good (fits : ℚ → Prop) : Frame → Prop
  | .array items => WellFormedItems fits items
  | .object members key => (YJson.obj members).WellFormed fits ∧ Utf8.Valid key

namespace DomParser

variable {fits : ℚ → Prop}

structure Good (fits : ℚ → Prop) (d : DomParser) : Prop where
  root : d.root.WellFormed fits
  frames : ∀ frame ∈ d.refStack, frame.Good fits

theorem setMember_wellFormed {members : List (StdString × YJson)} (before : (YJson.obj members).WellFormed fits)
    {key : StdString} (valid : Utf8.Valid key) {value : YJson} (wellFormed : value.WellFormed fits) :
    (YJson.obj (setMember members key value)).WellFormed fits := by
  obtain ⟨distinct, all⟩ := before
  rw [wellFormedMembers_iff] at all
  constructor
  · by_cases found : ∃ member ∈ members, decide (member.1 = key) = true
    · have keys : (setMember members key value).map Prod.fst = members.map Prod.fst :=
        map_updateFirst_of_mem (fun _ _ => rfl) found
      rwa [keys]
    · have new : key ∉ members.map Prod.fst := by
        intro listed
        obtain ⟨member, inside, same⟩ := List.mem_map.mp listed
        exact found ⟨member, inside, decide_eq_true same⟩
      rw [Parser.setMember_new value new, List.map_append, List.map_singleton]
      exact List.nodup_append.mpr ⟨distinct, List.nodup_singleton key, by
        intro listed inside other same
        rw [List.mem_singleton.mp same]
        rintro rfl
        exact new inside⟩
  · rw [wellFormedMembers_iff]
    intro member inside
    rcases mem_updateFirst inside with old | ⟨changed, source, rfl⟩
    · exact all member old
    · rcases source with ⟨listed, -⟩ | rfl
      · exact ⟨(all changed listed).1, wellFormed⟩
      · exact ⟨valid, wellFormed⟩

theorem handleValue_good {d : DomParser} (good : d.Good fits) {value : YJson} (wellFormed : value.WellFormed fits) :
    (d.handleValue value).Good fits := by
  obtain ⟨root, stack⟩ := d
  obtain ⟨rootGood, frames⟩ := good
  cases stack with
  | nil => exact ⟨wellFormed, frames⟩
  | cons frame outer =>
    obtain ⟨first, others⟩ := List.forall_mem_cons.mp frames
    refine ⟨by cases frame <;> exact rootGood, ?_⟩
    cases frame with
    | array items =>
      refine List.forall_mem_cons.mpr ⟨?_, others⟩
      have all := wellFormedItems_iff.mp first
      refine wellFormedItems_iff.mpr fun item member => ?_
      rcases List.mem_append.mp member with old | new
      · exact all item old
      · rwa [List.mem_singleton.mp new]
    | object members key =>
      exact List.forall_mem_cons.mpr ⟨⟨setMember_wellFormed first.1 first.2 wellFormed, first.2⟩, others⟩

theorem startArray_good {d : DomParser} (good : d.Good fits) : d.startArray.Good fits :=
  ⟨good.root, List.forall_mem_cons.mpr ⟨trivial, good.frames⟩⟩

theorem startObject_good {d : DomParser} (good : d.Good fits) : d.startObject.Good fits :=
  ⟨good.root, List.forall_mem_cons.mpr ⟨⟨⟨List.nodup_nil, trivial⟩, Lexer.valid_nil⟩, good.frames⟩⟩

theorem key_good {d : DomParser} (good : d.Good fits) {name : StdString} (valid : Utf8.Valid name) :
    (d.key name).Good fits := by
  obtain ⟨root, stack⟩ := d
  obtain ⟨rootGood, frames⟩ := good
  cases stack with
  | nil => exact ⟨rootGood, frames⟩
  | cons frame outer =>
    cases frame with
    | array items => exact ⟨rootGood, frames⟩
    | object members key =>
      obtain ⟨first, others⟩ := List.forall_mem_cons.mp frames
      exact ⟨rootGood, List.forall_mem_cons.mpr ⟨⟨first.1, valid⟩, others⟩⟩

theorem endContainer_good {d : DomParser} (good : d.Good fits) : d.endContainer.Good fits := by
  obtain ⟨root, stack⟩ := d
  obtain ⟨rootGood, frames⟩ := good
  cases stack with
  | nil => exact ⟨rootGood, frames⟩
  | cons frame outer =>
    obtain ⟨first, others⟩ := List.forall_mem_cons.mp frames
    have inner : (DomParser.mk root outer).Good fits := ⟨rootGood, others⟩
    cases frame with
    | array items => exact handleValue_good inner first
    | object members key => exact handleValue_good inner first.1

end DomParser

namespace Parser

section Kept

variable {fits : ℚ → Prop} {strtod : StdString → Option ℚ} (float : ∀ text x, strtod text = some x → fits x)

/-- Whatever the parser has put together is well formed, and so is the value that comes next. -/
structure Good (fits : ℚ → Prop) (p : Parser) : Prop where
  token : ∀ token, p.phase = .value token → token.Good fits
  dom : p.dom.Good fits

theorem evaluation_good {dom : DomParser} (good : dom.Good fits) (rest : StdString) (states : List Bool) :
    Good fits ⟨rest, .evaluation, states, dom⟩ := ⟨fun _ phase => ParserPhase.noConfusion phase, good⟩

include float

theorem readValue_good {dom : DomParser} (good : dom.Good fits) (bytes : StdString) (states : List Bool) :
    (readValue strtod bytes states dom).Good fits := by
  refine ⟨fun token phase => ?_, good⟩
  rw [← ParserPhase.value.inj phase]
  exact Lexer.scan_good float bytes

variable {rest : StdString} {states : List Bool} {dom : DomParser} {q : Parser}

theorem keyStep_good (good : dom.Good fits) (done : keyStep strtod rest states dom = .next q) : q.Good fits := by
  unfold keyStep at done
  split at done
  · rename_i name read
    split at done
    · cases done
      have valid := Lexer.scan_good float rest
      rw [read] at valid
      exact readValue_good float (DomParser.key_good good valid) _ _
    · cases done
  · cases done

theorem valueStep_good {token : Token} (tokenGood : token.Good fits) (good : dom.Good fits)
    (done : valueStep strtod token rest states dom = .next q) : q.Good fits := by
  have value {value : YJson} (done : handled rest states dom value = .next q) (wellFormed : value.WellFormed fits) :
      q.Good fits := by
    cases done
    exact evaluation_good (DomParser.handleValue_good good wellFormed) _ _
  unfold valueStep at done
  split at done
  · split at done
    · cases done
      exact evaluation_good (DomParser.endContainer_good (DomParser.startObject_good good)) _ _
    · exact keyStep_good float (DomParser.startObject_good good) done
  · split at done
    · cases done
      exact evaluation_good (DomParser.endContainer_good (DomParser.startArray_good good)) _ _
    · cases done
      exact readValue_good float (DomParser.startArray_good good) _ _
  · exact value done tokenGood
  · cases done
  · exact value done trivial
  · exact value done trivial
  · exact value done trivial
  · exact value done tokenGood
  · exact value done tokenGood
  · exact value done tokenGood
  all_goals cases done

theorem evaluationStep_good (good : dom.Good fits) (done : evaluationStep strtod rest states dom = .next q) :
    q.Good fits := by
  unfold evaluationStep at done
  split at done
  · cases done
  · split at done
    · cases done
      exact readValue_good float good _ _
    · cases done
      exact evaluation_good (DomParser.endContainer_good good) _ _
    · cases done
  · split at done
    · exact keyStep_good float good done
    · cases done
      exact evaluation_good (DomParser.endContainer_good good) _ _
    · cases done

theorem step_good {p : Parser} (good : p.Good fits) (done : step strtod p = .next q) : q.Good fits := by
  obtain ⟨rest, phase, states, dom⟩ := p
  cases phase with
  | value token => exact valueStep_good float (good.token token rfl) good.dom done
  | evaluation => exact evaluationStep_good float good.dom done

theorem parseLoop_good {p : Parser} (good : p.Good fits) (read : parseLoop strtod p = .ok q) : q.Good fits := by
  induction p using parseLoop.induct strtod with
  | case1 p next done ih =>
    rw [parseLoop_next done] at read
    exact ih (step_good float good done) read
  | case2 p done =>
    rw [parseLoop_finished done] at read
    cases read
    exact good
  | case3 p done =>
    rw [parseLoop_failed done] at read
    cases read

/-- What is accepted is well formed. -/
theorem parse_wellFormed {text : StdString} {j : YJson} (parsed : parse strtod text = .ok j) : j.WellFormed fits := by
  unfold parse at parsed
  split at parsed
  · cases parsed
  · rename_i bytes _
    cases read : parseLoop strtod (start strtod bytes) with
    | error fault =>
      rw [read] at parsed
      cases parsed
    | ok p =>
      rw [read] at parsed
      have started : (start strtod bytes).Good fits :=
        readValue_good float ⟨show YJson.null.WellFormed fits from trivial, by simp⟩ bytes []
      rw [← Except.ok.inj parsed]
      exact (parseLoop_good float started read).dom.root

end Kept

/-- Whatever is accepted can be written, and what is written is read as the same document. -/
theorem parse_dump_parse (dumpFloat : ℚ → StdString) (strtod : StdString → Option ℚ)
    (exact_ : ∀ text x, strtod text = some x → FloatText dumpFloat strtod x) (text : StdString) (j : YJson)
    (parsed : parse strtod text = .ok j) :
    ∃ written, j.dump dumpFloat 0 = .ok written ∧
      ∀ rest, Lexer.EndsNumber rest → parse strtod (written ++ rest) = .ok j :=
  parse_dump (parse_wellFormed exact_ parsed)

def halfText (_ : ℚ) : StdString := utf8 "0.5"

def halfValue (text : StdString) : Option ℚ := if text = utf8 "0.5" then some (1 / 2) else none

def untidy : StdString := utf8 " \x7b\"a\":[0.5 ,-7],\"\\u00e9\":null, \"a\" : true\x7d "

theorem untidy_settles :
    ∃ j written, parse halfValue untidy = .ok j ∧ j.dump halfText 0 = .ok written ∧
      ∀ rest, Lexer.EndsNumber rest → parse halfValue (written ++ rest) = .ok j := by
  have exact_ : ∀ text x, halfValue text = some x → FloatText halfText halfValue x := by
    intro text x read
    unfold halfValue at read
    split at read
    · cases read
      decide +kernel
    · cases read
  have accepted : (parse halfValue untidy).toOption.isSome = true := by decide +kernel
  cases parsed : parse halfValue untidy with
  | error fault =>
    rw [parsed] at accepted
    cases accepted
  | ok j =>
    obtain ⟨written, dumped, read⟩ := parse_dump_parse halfText halfValue exact_ untidy j parsed
    exact ⟨j, written, rfl, dumped, read⟩

end Parser

end XYAnnotation

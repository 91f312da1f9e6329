import Mathlib

namespace Library.Utf8

/-- The classes of the 256 bytes, and from index 256 on the next state for each state and class. State 0 accepts and
    state 1 rejects. -/
def utf8d : List ℕ :=
  [0, 0, 0, 0, 0, 0, 0, 0, 0, 0, 0, 0, 0, 0, 0, 0, 0, 0, 0, 0, 0, 0, 0, 0, 0, 0, 0, 0, 0, 0, 0, 0,
   0, 0, 0, 0, 0, 0, 0, 0, 0, 0, 0, 0, 0, 0, 0, 0, 0, 0, 0, 0, 0, 0, 0, 0, 0, 0, 0, 0, 0, 0, 0, 0,
   0, 0, 0, 0, 0, 0, 0, 0, 0, 0, 0, 0, 0, 0, 0, 0, 0, 0, 0, 0, 0, 0, 0, 0, 0, 0, 0, 0, 0, 0, 0, 0,
   0, 0, 0, 0, 0, 0, 0, 0, 0, 0, 0, 0, 0, 0, 0, 0, 0, 0, 0, 0, 0, 0, 0, 0, 0, 0, 0, 0, 0, 0, 0, 0,
   1, 1, 1, 1, 1, 1, 1, 1, 1, 1, 1, 1, 1, 1, 1, 1, 9, 9, 9, 9, 9, 9, 9, 9, 9, 9, 9, 9, 9, 9, 9, 9,
   7, 7, 7, 7, 7, 7, 7, 7, 7, 7, 7, 7, 7, 7, 7, 7, 7, 7, 7, 7, 7, 7, 7, 7, 7, 7, 7, 7, 7, 7, 7, 7,
   8, 8, 2, 2, 2, 2, 2, 2, 2, 2, 2, 2, 2, 2, 2, 2, 2, 2, 2, 2, 2, 2, 2, 2, 2, 2, 2, 2, 2, 2, 2, 2,
   0xA, 0x3, 0x3, 0x3, 0x3, 0x3, 0x3, 0x3, 0x3, 0x3, 0x3, 0x3, 0x3, 0x4, 0x3, 0x3,
   0xB, 0x6, 0x6, 0x6, 0x5, 0x8, 0x8, 0x8, 0x8, 0x8, 0x8, 0x8, 0x8, 0x8, 0x8, 0x8,
   0x0, 0x1, 0x2, 0x3, 0x5, 0x8, 0x7, 0x1, 0x1, 0x1, 0x4, 0x6, 0x1, 0x1, 0x1, 0x1,
   1, 1, 1, 1, 1, 1, 1, 1, 1, 1, 1, 1, 1, 1, 1, 1, 1, 0, 1, 1, 1, 1, 1, 0, 1, 0, 1, 1, 1, 1, 1, 1,
   1, 2, 1, 1, 1, 1, 1, 2, 1, 2, 1, 1, 1, 1, 1, 1, 1, 1, 1, 1, 1, 1, 1, 2, 1, 1, 1, 1, 1, 1, 1, 1,
   1, 2, 1, 1, 1, 1, 1, 1, 1, 2, 1, 1, 1, 1, 1, 1, 1, 1, 1, 1, 1, 1, 1, 3, 1, 3, 1, 1, 1, 1, 1, 1,
   1, 3, 1, 1, 1, 1, 1, 3, 1, 3, 1, 1, 1, 1, 1, 1, 1, 3, 1, 1, 1, 1, 1, 1, 1, 1, 1, 1, 1, 1, 1, 1]

def byteClass (byte : ℕ) : ℕ := utf8d.getD byte 1

def next (state byte : ℕ) : ℕ := utf8d.getD (256 + state * 16 + byteClass byte) 1

def reached (state : ℕ) : List UInt8 → ℕ
  | [] => state
  | byte :: bytes => reached (next state byte.toNat) bytes

/-- The bytes encode a text. -/
def Encodes (cs : List Char) (bytes : List UInt8) : Prop := bytes = cs.flatMap String.utf8EncodeChar

def Valid (bytes : List UInt8) : Prop := ∃ cs, Encodes cs bytes

section Table

@[elab_as_elim]
theorem along_table {P : ℕ → ℕ → Prop} (byte : ℕ) (bound : byte < 256)
    (table : ∀ entry ∈ (utf8d.take 256).zipIdx, P entry.2 entry.1) : P byte (byteClass byte) := by
  have size : utf8d.length = 400 := by decide +kernel
  apply table (byteClass byte, byte)
  rw [List.mk_mem_zipIdx_iff_getElem?, List.getElem?_take_of_lt bound, byteClass, List.getD_eq_getElem _ _ (by omega)]
  exact List.getElem?_eq_getElem _

theorem next_eq (state byte : ℕ) :
    next state byte = (utf8d.drop (256 + state * 16)).getD (byteClass byte) 1 := by
  rw [next, List.getD_eq_getElem?_getD, List.getD_eq_getElem?_getD, List.getElem?_drop]

theorem next_first : ∀ byte < 256,
    (byte < 0x80 ∧ next 0 byte = 0) ∨ (0xC2 ≤ byte ∧ byte ≤ 0xDF ∧ next 0 byte = 2) ∨
    (byte = 0xE0 ∧ next 0 byte = 4) ∨ (0xE1 ≤ byte ∧ byte ≤ 0xEF ∧ byte ≠ 0xED ∧ next 0 byte = 3) ∨
    (byte = 0xED ∧ next 0 byte = 5) ∨ (byte = 0xF0 ∧ next 0 byte = 6) ∨
    (0xF1 ≤ byte ∧ byte ≤ 0xF3 ∧ next 0 byte = 7) ∨ (byte = 0xF4 ∧ next 0 byte = 8) ∨
    ((0x80 ≤ byte ∧ byte < 0xC2 ∨ 0xF4 < byte) ∧ next 0 byte = 1) := by
  intro byte bound
  rw [next_eq]
  refine along_table byte bound ?_
  decide +kernel

def expected : ℕ → ℕ × ℕ × ℕ
  | 2 => (0x80, 0xBF, 0)
  | 3 => (0x80, 0xBF, 2)
  | 4 => (0xA0, 0xBF, 2)
  | 5 => (0x80, 0x9F, 2)
  | 6 => (0x90, 0xBF, 3)
  | 7 => (0x80, 0xBF, 3)
  | 8 => (0x80, 0x8F, 3)
  | _ => (1, 0, 1)

theorem next_later : ∀ state < 9, state ≠ 0 → ∀ byte < 256,
    next state byte = if (expected state).1 ≤ byte ∧ byte ≤ (expected state).2.1 then (expected state).2.2 else 1 := by
  have rows : ∀ state < 9, state ≠ 0 → ∀ entry ∈ (utf8d.take 256).zipIdx,
      (utf8d.drop (256 + state * 16)).getD entry.1 1 =
        if (expected state).1 ≤ entry.2 ∧ entry.2 ≤ (expected state).2.1 then (expected state).2.2 else 1 := by
    decide +kernel
  intro state inside later byte bound
  rw [next_eq]
  exact along_table byte bound (rows state inside later)

theorem reached_rejected (bytes : List UInt8) : reached 1 bytes = 1 := by
  induction bytes with
  | nil => rfl
  | cons byte bytes ih =>
    have rejected := next_later 1 (by decide) (by decide) byte.toNat byte.toNat_lt
    simp only [expected, ite_self] at rejected
    rw [reached, rejected, ih]

theorem reached_later (state : ℕ) (later : state < 9 ∧ state ≠ 0) {byte : UInt8}
    (low : (expected state).1 ≤ byte.toNat) (high : byte.toNat ≤ (expected state).2.1) (bytes : List UInt8) :
    reached state (byte :: bytes) = reached (expected state).2.2 bytes := by
  rw [reached, next_later state later.1 later.2 byte.toNat byte.toNat_lt, if_pos ⟨low, high⟩]

theorem accepted_later (state : ℕ) (later : state < 9 ∧ state ≠ 0) {bytes : List UInt8}
    (accepted : reached state bytes = 0) :
    ∃ byte rest, bytes = byte :: rest ∧ (expected state).1 ≤ byte.toNat ∧ byte.toNat ≤ (expected state).2.1 ∧
      reached (expected state).2.2 rest = 0 := by
  cases bytes with
  | nil => exact absurd accepted later.2
  | cons byte rest =>
    rw [reached, next_later state later.1 later.2 byte.toNat byte.toNat_lt] at accepted
    split at accepted
    · rename_i inside
      exact ⟨byte, rest, rfl, inside.1, inside.2, accepted⟩
    · rw [reached_rejected] at accepted
      cases accepted

end Table

section Characters

def IsTail (byte : UInt8) : Prop := 0x80 ≤ byte.toNat ∧ byte.toNat ≤ 0xBF

/-- The bytes of one character, as the standard lists them. -/
inductive Character : List UInt8 → Prop
  | one {a : UInt8} (first : a.toNat < 0x80) : Character [a]
  | two {a b : UInt8} (low : 0xC2 ≤ a.toNat) (high : a.toNat ≤ 0xDF) (second : IsTail b) : Character [a, b]
  | three {a b c : UInt8} (low : 0xE0 ≤ a.toNat) (high : a.toNat ≤ 0xEF) (second : IsTail b) (third : IsTail c)
      (short : a.toNat = 0xE0 → 0xA0 ≤ b.toNat) (surrogate : a.toNat = 0xED → b.toNat ≤ 0x9F) : Character [a, b, c]
  | four {a b c d : UInt8} (low : 0xF0 ≤ a.toNat) (high : a.toNat ≤ 0xF4) (second : IsTail b) (third : IsTail c)
      (fourth : IsTail d) (short : a.toNat = 0xF0 → 0x90 ≤ b.toNat) (last : a.toNat = 0xF4 → b.toNat ≤ 0x8F) :
      Character [a, b, c, d]

theorem reached_tail {a : UInt8} (tail : IsTail a) (bytes : List UInt8) : reached 2 (a :: bytes) = reached 0 bytes :=
  reached_later 2 (by decide) tail.1 tail.2 bytes

theorem reached_two_tails {a b : UInt8} (first : IsTail a) (second : IsTail b) (bytes : List UInt8) :
    reached 3 (a :: b :: bytes) = reached 0 bytes := by
  rw [reached_later 3 (by decide) first.1 first.2]
  exact reached_tail second bytes

/-- The machine is back at the start after every character. -/
theorem Character.reached {char : List UInt8} (character : Character char) (bytes : List UInt8) :
    reached 0 (char ++ bytes) = Utf8.reached 0 bytes := by
  cases character with
  | @one a first =>
    have step : next 0 a.toNat = 0 := by
      have := next_first a.toNat a.toNat_lt
      omega
    rw [List.cons_append, List.nil_append, Utf8.reached, step]
  | @two a b low high second =>
    have step : next 0 a.toNat = 2 := by
      have := next_first a.toNat a.toNat_lt
      omega
    rw [List.cons_append, List.cons_append, List.nil_append, Utf8.reached, step, reached_tail second]
  | @three a b c low high second third short surrogate =>
    rw [List.cons_append, List.cons_append, List.cons_append, List.nil_append, Utf8.reached]
    have first := next_first a.toNat a.toNat_lt
    by_cases isShort : a.toNat = 0xE0
    · have step : next 0 a.toNat = 4 := by omega
      rw [step, reached_later 4 (by decide) (short isShort) second.2]
      exact reached_tail third bytes
    · by_cases isSurrogate : a.toNat = 0xED
      · have step : next 0 a.toNat = 5 := by omega
        rw [step, reached_later 5 (by decide) second.1 (surrogate isSurrogate)]
        exact reached_tail third bytes
      · have step : next 0 a.toNat = 3 := by omega
        rw [step, reached_two_tails second third]
  | @four a b c d low high second third fourth short last =>
    rw [List.cons_append, List.cons_append, List.cons_append, List.cons_append, List.nil_append, Utf8.reached]
    have first := next_first a.toNat a.toNat_lt
    by_cases isShort : a.toNat = 0xF0
    · have step : next 0 a.toNat = 6 := by omega
      rw [step, reached_later 6 (by decide) (short isShort) second.2]
      exact reached_two_tails third fourth bytes
    · by_cases isLast : a.toNat = 0xF4
      · have step : next 0 a.toNat = 8 := by omega
        rw [step, reached_later 8 (by decide) second.1 (last isLast)]
        exact reached_two_tails third fourth bytes
      · have step : next 0 a.toNat = 7 := by omega
        rw [step, reached_later 7 (by decide) second.1 second.2]
        exact reached_two_tails third fourth bytes

theorem accepted_tail {bytes : List UInt8} (accepted : reached 2 bytes = 0) :
    ∃ a rest, bytes = a :: rest ∧ IsTail a ∧ reached 0 rest = 0 := by
  obtain ⟨a, rest, rfl, low, high, accepted⟩ := accepted_later 2 (by decide) accepted
  exact ⟨a, rest, rfl, ⟨low, high⟩, accepted⟩

theorem accepted_two_tails {bytes : List UInt8} (accepted : reached 3 bytes = 0) :
    ∃ a b rest, bytes = a :: b :: rest ∧ IsTail a ∧ IsTail b ∧ reached 0 rest = 0 := by
  obtain ⟨a, rest, rfl, low, high, accepted⟩ := accepted_later 3 (by decide) accepted
  obtain ⟨b, rest, rfl, second, accepted⟩ := accepted_tail accepted
  exact ⟨a, b, rest, rfl, ⟨low, high⟩, second, accepted⟩

theorem accepted_cases {bytes : List UInt8} (accepted : reached 0 bytes = 0) :
    bytes = [] ∨ ∃ char rest, bytes = char ++ rest ∧ Character char ∧ reached 0 rest = 0 := by
  cases bytes with
  | nil => exact .inl rfl
  | cons a rest =>
    right
    rw [reached] at accepted
    rcases next_first a.toNat a.toNat_lt with ⟨bound, step⟩ | ⟨low, high, step⟩ | ⟨same, step⟩ | ⟨low, high, other, step⟩ |
        ⟨same, step⟩ | ⟨same, step⟩ | ⟨low, high, step⟩ | ⟨same, step⟩ | ⟨_, step⟩ <;> rw [step] at accepted
    · exact ⟨[a], rest, rfl, .one bound, accepted⟩
    · obtain ⟨b, rest, rfl, second, accepted⟩ := accepted_tail accepted
      exact ⟨[a, b], rest, rfl, .two low high second, accepted⟩
    · obtain ⟨b, rest, rfl, low, high, accepted⟩ := accepted_later 4 (by decide) accepted
      obtain ⟨c, rest, rfl, third, accepted⟩ := accepted_tail accepted
      simp only [expected] at low high
      exact ⟨[a, b, c], rest, rfl, .three (by omega) (by omega) ⟨by omega, high⟩ third (fun _ => low) (by omega), accepted⟩
    · obtain ⟨b, c, rest, rfl, second, third, accepted⟩ := accepted_two_tails accepted
      exact ⟨[a, b, c], rest, rfl, .three (by omega) high second third (by omega) (by omega), accepted⟩
    · obtain ⟨b, rest, rfl, low, high, accepted⟩ := accepted_later 5 (by decide) accepted
      obtain ⟨c, rest, rfl, third, accepted⟩ := accepted_tail accepted
      simp only [expected] at low high
      exact ⟨[a, b, c], rest, rfl, .three (by omega) (by omega) ⟨low, by omega⟩ third (by omega) (fun _ => high), accepted⟩
    · obtain ⟨b, rest, rfl, low, high, accepted⟩ := accepted_later 6 (by decide) accepted
      obtain ⟨c, d, rest, rfl, third, fourth, accepted⟩ := accepted_two_tails accepted
      simp only [expected] at low high
      exact ⟨[a, b, c, d], rest, rfl,
        .four (by omega) (by omega) ⟨by omega, high⟩ third fourth (fun _ => low) (by omega), accepted⟩
    · obtain ⟨b, rest, rfl, second, high', accepted⟩ := accepted_later 7 (by decide) accepted
      obtain ⟨c, d, rest, rfl, third, fourth, accepted⟩ := accepted_two_tails accepted
      exact ⟨[a, b, c, d], rest, rfl,
        .four (by omega) (by omega) ⟨second, high'⟩ third fourth (by omega) (by omega), accepted⟩
    · obtain ⟨b, rest, rfl, low, high, accepted⟩ := accepted_later 8 (by decide) accepted
      obtain ⟨c, d, rest, rfl, third, fourth, accepted⟩ := accepted_two_tails accepted
      simp only [expected] at low high
      exact ⟨[a, b, c, d], rest, rfl,
        .four (by omega) (by omega) ⟨low, by omega⟩ third fourth (by omega) (fun _ => high), accepted⟩
    · rw [reached_rejected] at accepted
      cases accepted

theorem isTail_ofNat (n : ℕ) : IsTail (UInt8.ofNat (n % 64 + 0x80)) := by
  unfold IsTail
  rw [UInt8.toNat_ofNat']
  omega

theorem encodeChar_character (c : Char) : Character (String.utf8EncodeChar c) := by
  have valid := c.valid
  unfold String.utf8EncodeChar
  simp only
  generalize code : c.val.toNat = v
  have scalar : v < 0xD800 ∨ (0xDFFF < v ∧ v < 0x110000) := by
    rw [← code]
    exact valid
  split
  · apply Character.one
    rw [UInt8.toNat_ofNat']
    omega
  split
  · apply Character.two _ _ (isTail_ofNat v)
    · rw [UInt8.toNat_ofNat']
      omega
    · rw [UInt8.toNat_ofNat']
      omega
  split
  · apply Character.three _ _ (isTail_ofNat _) (isTail_ofNat v)
    all_goals simp only [UInt8.toNat_ofNat']
    all_goals omega
  · apply Character.four _ _ (isTail_ofNat _) (isTail_ofNat _) (isTail_ofNat v)
    all_goals simp only [UInt8.toNat_ofNat']
    all_goals omega

theorem exists_char {v : ℕ} (scalar : v < 0xD800 ∨ (0xDFFF < v ∧ v < 0x110000)) : ∃ c : Char, c.val.toNat = v :=
  ⟨Char.ofNatAux v scalar, by simp [Char.ofNatAux]⟩

theorem ofNat_eq {n : ℕ} (byte : UInt8) (same : n = byte.toNat) : UInt8.ofNat n = byte := by
  rw [same, UInt8.ofNat_toNat]

theorem Character.encoded {char : List UInt8} (character : Character char) :
    ∃ c, String.utf8EncodeChar c = char := by
  cases character with
  | @one a first =>
    obtain ⟨c, code⟩ := exists_char (v := a.toNat) (by omega)
    refine ⟨c, ?_⟩
    unfold String.utf8EncodeChar
    simp only [code]
    rw [if_pos (by omega), UInt8.ofNat_toNat]
  | @two a b low high second =>
    obtain ⟨bLow, bHigh⟩ := second
    obtain ⟨c, code⟩ := exists_char (v := (a.toNat - 0xC0) * 64 + (b.toNat - 0x80)) (by omega)
    refine ⟨c, ?_⟩
    unfold String.utf8EncodeChar
    simp only [code]
    rw [if_neg (by omega), if_pos (by omega), ofNat_eq a (by omega), ofNat_eq b (by omega)]
  | @three x y z low high second third short surrogate =>
    obtain ⟨yLow, yHigh⟩ := second
    obtain ⟨zLow, zHigh⟩ := third
    obtain ⟨c, code⟩ := exists_char
      (v := (x.toNat - 0xE0) * 4096 + (y.toNat - 0x80) * 64 + (z.toNat - 0x80)) (by omega)
    refine ⟨c, ?_⟩
    unfold String.utf8EncodeChar
    simp only [code]
    rw [if_neg (by omega), if_neg (by omega), if_pos (by omega), ofNat_eq x (by omega),
      ofNat_eq y (by omega), ofNat_eq z (by omega)]
  | @four w x y z low high second third fourth short last =>
    obtain ⟨xLow, xHigh⟩ := second
    obtain ⟨yLow, yHigh⟩ := third
    obtain ⟨zLow, zHigh⟩ := fourth
    obtain ⟨c, code⟩ := exists_char
      (v := (w.toNat - 0xF0) * 262144 + (x.toNat - 0x80) * 4096 + (y.toNat - 0x80) * 64 + (z.toNat - 0x80)) (by omega)
    refine ⟨c, ?_⟩
    unfold String.utf8EncodeChar
    simp only [code]
    rw [if_neg (by omega), if_neg (by omega), if_neg (by omega), ofNat_eq w (by omega),
      ofNat_eq x (by omega), ofNat_eq y (by omega), ofNat_eq z (by omega)]

end Characters

/-- The machine accepts exactly the encoded texts. -/
theorem reached_zero_iff (bytes : List UInt8) : reached 0 bytes = 0 ↔ Valid bytes := by
  constructor
  · intro accepted
    induction length : bytes.length using Nat.strong_induction_on generalizing bytes with
    | _ n ih =>
      rcases accepted_cases accepted with rfl | ⟨char, rest, rfl, character, accepted⟩
      · exact ⟨[], rfl⟩
      · obtain ⟨c, encoded⟩ := character.encoded
        have shorter : rest.length < n := by
          have positive : 0 < char.length := by
            cases character <;> simp
          rw [← length, List.length_append]
          omega
        obtain ⟨cs, same⟩ := ih rest.length shorter rest accepted rfl
        refine ⟨c :: cs, ?_⟩
        rw [Encodes, List.flatMap_cons, encoded, ← same]
  · rintro ⟨cs, rfl⟩
    induction cs with
    | nil => rfl
    | cons c cs ih =>
      rw [List.flatMap_cons, (encodeChar_character c).reached]
      exact ih

end Library.Utf8

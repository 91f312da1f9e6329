import Mathlib

namespace Library.Format

/-- A step of a `printf` or `scanf` format whose only conversion is `%d`. -/
inductive Directive
  | literal (c : Char)
  | decimal
  deriving DecidableEq

def directives : List Char → List Directive
  | [] => []
  | '%' :: 'd' :: cs => .decimal :: directives cs
  | c :: cs => .literal c :: directives cs

def print : List Directive → List ℤ → List Char
  | [], _ => []
  | .literal c :: format, args => c :: print format args
  | .decimal :: format, n :: args => (toString n).toList ++ print format args
  | .decimal :: _, [] => []

section Scanning

variable (blank : Char → Bool)

def scanDigits (sign : ℤ) (cs : List Char) : Option (ℤ × List Char) :=
  let digits := cs.takeWhile Char.isDigit
  if digits = [] then none
  else some (sign * (Nat.ofDigitChars 10 digits 0 : ℕ), cs.dropWhile Char.isDigit)

/-- The `%d` of `scanf`: blanks, a sign and at least one digit. -/
def scanDecimal (cs : List Char) : Option (ℤ × List Char) :=
  match cs.dropWhile blank with
  | '-' :: cs => scanDigits (-1) cs
  | '+' :: cs => scanDigits 1 cs
  | cs => scanDigits 1 cs

/-- The numbers `scanf` converts before the first directive that does not match. -/
def scan : List Directive → List Char → List ℤ
  | [], _ => []
  | .literal c :: format, cs =>
    if blank c then scan format (cs.dropWhile blank)
    else
      match cs with
      | [] => []
      | d :: cs => if c = d then scan format cs else []
  | .decimal :: format, cs =>
    match scanDecimal blank cs with
    | none => []
    | some (n, rest) => n :: scan format rest

/-- No literal is a blank, and a number is followed by a literal that is no digit, or by the end. -/
def separated : List Directive → Bool
  | [] => true
  | .literal c :: format => !blank c && separated format
  | [.decimal] => true
  | .decimal :: .literal c :: format => !c.isDigit && separated (.literal c :: format)
  | .decimal :: .decimal :: _ => false

end Scanning

def EndsNumber (rest : List Char) : Prop := ∀ c ∈ rest.head?, c.isDigit = false

theorem repr_digits (n : ℕ) : ∀ c ∈ (Nat.repr n).toList, c.isDigit = true := by
  intro c member
  rw [Nat.toList_repr] at member
  exact Nat.isDigit_of_mem_toDigits (by decide) (by decide) member

theorem dropWhile_of_digits {blank : Char → Bool} (digits : ∀ c, c.isDigit = true → blank c = false)
    {cs : List Char} (all : ∀ c ∈ cs, c.isDigit = true) : cs.dropWhile blank = cs := by
  cases cs with
  | nil => rfl
  | cons c cs => simp [digits c (all c (by simp))]

theorem scanDigits_repr (sign : ℤ) (n : ℕ) {rest : List Char} (ends : EndsNumber rest) :
    scanDigits sign ((Nat.repr n).toList ++ rest) = some (sign * n, rest) := by
  have digits := repr_digits n
  have nothing : rest.takeWhile Char.isDigit = [] ∧ rest.dropWhile Char.isDigit = rest := by
    cases rest with
    | nil => exact ⟨rfl, rfl⟩
    | cons c rest => simp [ends c rfl]
  have front : ((Nat.repr n).toList ++ rest).takeWhile Char.isDigit = (Nat.repr n).toList := by
    rw [List.takeWhile_append_of_pos digits, nothing.1, List.append_nil]
  have back : ((Nat.repr n).toList ++ rest).dropWhile Char.isDigit = rest := by
    rw [List.dropWhile_append_of_pos digits, nothing.2]
  have nonempty : (Nat.repr n).toList ≠ [] := by simp
  have value : Nat.ofDigitChars 10 (Nat.repr n).toList 0 = n := by simp [Nat.toList_repr]
  simp only [scanDigits, front, back, nonempty, value, if_false]

theorem separated_endsNumber {blank : Char → Bool} {format : List Directive}
    (apart : separated blank (.decimal :: format) = true) (args : List ℤ) :
    EndsNumber (print format args) ∧ separated blank format = true := by
  cases format with
  | nil => exact ⟨by simp [print, EndsNumber], rfl⟩
  | cons d format =>
    cases d with
    | literal c =>
      simp only [separated, Bool.and_eq_true, Bool.not_eq_true'] at apart
      exact ⟨by simp [print, EndsNumber, apart.1], by simpa [separated] using apart.2⟩
    | decimal => simp [separated] at apart

section RoundTrip

variable {blank : Char → Bool} (digits : ∀ c, c.isDigit = true → blank c = false) (minus : blank '-' = false)

include digits minus

theorem scanDecimal_print (n : ℤ) {rest : List Char} (ends : EndsNumber rest) :
    scanDecimal blank ((toString n).toList ++ rest) = some (n, rest) := by
  cases n with
  | ofNat n =>
    have read := scanDigits_repr 1 n ends
    rw [one_mul] at read
    obtain ⟨d, ds, text⟩ := List.exists_cons_of_ne_nil (l := (Nat.repr n).toList) (by simp)
    have digit : d.isDigit = true := repr_digits n d (by simp [text])
    have written : (toString (Int.ofNat n)).toList = (Nat.repr n).toList := rfl
    rw [written]
    rw [text, List.cons_append] at read ⊢
    rw [scanDecimal, List.dropWhile_cons_of_neg (by simp [digits d digit])]
    split
    · rename_i same
      cases same
      exact absurd digit (by decide)
    · rename_i same
      cases same
      exact absurd digit (by decide)
    · exact read
  | negSucc n =>
    have read := scanDigits_repr (-1) (n + 1) ends
    have written : (toString (Int.negSucc n)).toList = '-' :: (Nat.repr (n + 1)).toList := by
      change ("-" ++ Nat.repr (n + 1)).toList = _
      simp
    have value : -1 * ((n + 1 : ℕ) : ℤ) = Int.negSucc n := by omega
    rw [written, List.cons_append, scanDecimal, List.dropWhile_cons_of_neg (by simp [minus])]
    rw [value] at read
    exact read

/-- `scanf` reads back what `printf` wrote with the same format. -/
theorem scan_print {format : List Directive} {args : List ℤ} (apart : separated blank format = true)
    (arity : format.count .decimal = args.length) : scan blank format (print format args) = args := by
  induction format generalizing args with
  | nil =>
    have none : args = [] := List.length_eq_zero_iff.mp (by simpa using arity.symm)
    simp [scan, none]
  | cons d format ih =>
    cases d with
    | literal c =>
      simp only [separated, Bool.and_eq_true, Bool.not_eq_true'] at apart
      have rest := ih apart.2 (by simpa using arity)
      simp [print, scan, apart.1, rest]
    | decimal =>
      cases args with
      | nil => simp at arity
      | cons n args =>
        obtain ⟨ends, after⟩ := separated_endsNumber apart args
        have rest := ih after (by simpa using arity)
        simp only [print, scan, scanDecimal_print digits minus n ends, rest]

end RoundTrip

theorem mem_toString {n : ℤ} {c : Char} (member : c ∈ (toString n).toList) : c.isDigit = true ∨ c = '-' := by
  cases n with
  | ofNat n => exact .inl (repr_digits n c member)
  | negSucc n =>
    have written : (toString (Int.negSucc n)).toList = '-' :: (Nat.repr (n + 1)).toList := by
      change ("-" ++ Nat.repr (n + 1)).toList = _
      simp
    rw [written] at member
    rcases List.mem_cons.mp member with same | member
    · exact .inr same
    · exact .inl (repr_digits (n + 1) c member)

theorem mem_print {format : List Directive} {args : List ℤ} {c : Char} (member : c ∈ print format args) :
    .literal c ∈ format ∨ c.isDigit = true ∨ c = '-' := by
  induction format generalizing args with
  | nil => simp [print] at member
  | cons d format ih =>
    cases d with
    | literal e =>
      rcases List.mem_cons.mp member with rfl | member
      · exact .inl List.mem_cons_self
      · exact (ih member).imp_left (List.mem_cons_of_mem _)
    | decimal =>
      cases args with
      | nil => simp [print] at member
      | cons n args =>
        rcases List.mem_append.mp member with member | member
        · exact .inr (mem_toString member)
        · exact (ih member).imp_left (List.mem_cons_of_mem _)

end Library.Format

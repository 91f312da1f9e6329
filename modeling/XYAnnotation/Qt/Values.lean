import XYAnnotation.Library.Format

namespace XYAnnotation

/-- How a call can end other than by returning: with a C++ exception, `jsonError` being one of the
    JSON library or of `std::stoi`, or with undefined behaviour. -/
inductive Fault
  | imageIsNull
  | posOutOfRange
  | idxOutOfRange
  | jsonError
  | outOfRange
  | nullPointer
  deriving DecidableEq, Repr

def Fault.isException : Fault → Bool
  | .imageIsNull | .posOutOfRange | .idxOutOfRange | .jsonError => true
  | .outOfRange | .nullPointer => false

structure QPointF where
  x : ℚ
  y : ℚ
  deriving DecidableEq, Repr

namespace QPointF

instance : Add QPointF := ⟨fun p q => ⟨p.x + q.x, p.y + q.y⟩⟩
instance : Sub QPointF := ⟨fun p q => ⟨p.x - q.x, p.y - q.y⟩⟩
instance : SMul ℚ QPointF := ⟨fun a p => ⟨a * p.x, a * p.y⟩⟩

@[simp] theorem add_x (p q : QPointF) : (p + q).x = p.x + q.x := rfl
@[simp] theorem add_y (p q : QPointF) : (p + q).y = p.y + q.y := rfl
@[simp] theorem sub_x (p q : QPointF) : (p - q).x = p.x - q.x := rfl
@[simp] theorem sub_y (p q : QPointF) : (p - q).y = p.y - q.y := rfl
@[simp] theorem smul_x (a : ℚ) (p : QPointF) : (a • p).x = a * p.x := rfl
@[simp] theorem smul_y (a : ℚ) (p : QPointF) : (a • p).y = a * p.y := rfl

@[ext] theorem ext {p q : QPointF} (hx : p.x = q.x) (hy : p.y = q.y) : p = q := by
  cases p
  cases q
  simp_all

def manhattanLength (p : QPointF) : ℚ := |p.x| + |p.y|

end QPointF

/-- A loaded image, whose sides are positive values of `int`. The null image is the absence of one. -/
structure QImage where
  width : ℕ
  height : ℕ
  bits : List UInt8
  width_pos : 0 < width
  height_pos : 0 < height
  width_int : width < 2 ^ 31
  height_int : height < 2 ^ 31
  deriving DecidableEq

def QImage.pixel (bits : List UInt8) : QImage := ⟨1, 1, bits, by decide, by decide, by decide, by decide⟩

structure QColor where
  red : UInt8
  green : UInt8
  blue : UInt8
  deriving DecidableEq, Repr

/-- `QRectF(p1, p2).contains(pt)`: the corners may come in any order, and a rectangle without
    width or height contains nothing. -/
def rectContains (p1 p2 pt : QPointF) : Bool :=
  decide (p1.x ≠ p2.x) && decide (min p1.x p2.x ≤ pt.x) && decide (pt.x ≤ max p1.x p2.x) &&
  decide (p1.y ≠ p2.y) && decide (min p1.y p2.y ≤ pt.y) && decide (pt.y ≤ max p1.y p2.y)

/-- `QColor(r, g, b)`. A value outside of a byte gives the invalid colour, whose components are 0. -/
def QColor.ofInts (r g b : ℤ) : QColor :=
  if (0 ≤ r ∧ r ≤ 255) ∧ (0 ≤ g ∧ g ≤ 255) ∧ 0 ≤ b ∧ b ≤ 255 then
    ⟨UInt8.ofNat r.toNat, UInt8.ofNat g.toNat, UInt8.ofNat b.toNat⟩
  else ⟨0, 0, 0⟩

def truncate (q : ℚ) : ℤ := if 0 ≤ q then ⌊q⌋ else ⌈q⌉

theorem truncate_intCast (n : ℤ) : truncate n = n := by
  unfold truncate
  split
  · exact Int.floor_intCast n
  · exact Int.ceil_intCast n

namespace QVector

variable {α : Type}

/-- `at(i)`, which asserts `0 <= i < size()`. -/
def «at» (values : List α) (i : ℤ) : Except Fault α :=
  if 0 ≤ i then
    match values[i.toNat]? with
    | some value => .ok value
    | none => .error .outOfRange
  else .error .outOfRange

theorem at_natCast (values : List α) (i : ℕ) (bound : i < values.length) :
    QVector.at values i = .ok values[i] := by
  simp [QVector.at, List.getElem?_eq_getElem bound]

theorem at_completes {values : List α} {i : ℤ} {value : α} (read : QVector.at values i = .ok value) :
    0 ≤ i ∧ values[i.toNat]? = some value := by
  unfold QVector.at at read
  split at read
  · rename_i nonneg
    cases found : values[i.toNat]? <;> simp only [found] at read
    · cases read
    · cases read
      exact ⟨nonneg, rfl⟩
  · cases read

end QVector

namespace QString

open Library.Format

def number (n : ℕ) : String := Nat.repr n

def isSpace (c : Char) : Bool := c.isWhitespace

def digits? (cs : List Char) : Option ℕ :=
  if cs ≠ [] ∧ cs.all Char.isDigit then some (Nat.ofDigitChars 10 cs 0) else none

/-- `toInt()`: blanks around the number and a sign are accepted, and a text that is no number
    gives 0. The range of `int` is not modelled. -/
def toInt (s : String) : ℤ :=
  let trimmed := ((s.toList.dropWhile isSpace).reverse.dropWhile isSpace).reverse
  match trimmed with
  | '-' :: cs => -((digits? cs).getD 0 : ℕ)
  | '+' :: cs => ((digits? cs).getD 0 : ℕ)
  | cs => ((digits? cs).getD 0 : ℕ)

theorem number_injective : Function.Injective number := fun _ _ same => Nat.repr_injective same

theorem isSpace_digit {c : Char} (digit : c.isDigit = true) : isSpace c = false := by
  simp only [Char.isDigit, Bool.and_eq_true, decide_eq_true_eq] at digit
  have low := UInt32.le_iff_toNat_le.mp digit.1
  simp only [isSpace, Char.isWhitespace, Bool.or_eq_false_iff, decide_eq_false_iff_not]
  refine ⟨⟨⟨?_, ?_⟩, ?_⟩, ?_⟩ <;> rintro rfl <;> revert low <;> decide

theorem number_digits (n : ℕ) : ∀ c ∈ (number n).toList, c.isDigit = true := repr_digits n

theorem toInt_number (n : ℕ) : toInt (number n) = n := by
  have digits := number_digits n
  have trimmed : (((number n).toList.dropWhile isSpace).reverse.dropWhile isSpace).reverse =
      (number n).toList := by
    rw [dropWhile_of_digits (fun _ => isSpace_digit) digits,
      dropWhile_of_digits (fun _ => isSpace_digit) (by simpa using digits), List.reverse_reverse]
  have nonempty : (number n).toList ≠ [] := by simp [number]
  have value : digits? (number n).toList = some n := by
    rw [digits?, if_pos ⟨nonempty, by simpa using digits⟩]
    simp [number, Nat.toList_repr]
  unfold toInt
  simp only [trimmed]
  split
  · rename_i cs same
    have sign := digits '-' (by simp [same])
    exact absurd sign (by decide)
  · rename_i cs same
    have sign := digits '+' (by simp [same])
    exact absurd sign (by decide)
  · simp [value]

section Order

def utf16Units (c : Char) : List ℕ :=
  if c.toNat < 0x10000 then [c.toNat]
  else [0xD800 + (c.toNat - 0x10000) / 0x400, 0xDC00 + (c.toNat - 0x10000) % 0x400]

def utf16 (s : String) : List ℕ := s.toList.flatMap utf16Units

def compare (s t : String) : Ordering := compareOn utf16 s t

theorem utf16Units_append_inj {c d : Char} {cs ds : List ℕ} (same : utf16Units c ++ cs = utf16Units d ++ ds) :
    c = d ∧ cs = ds := by
  -- No character is a surrogate, so a pair is not mistaken for two characters.
  have range : c.toNat < 0xD800 ∨ 0xDFFF < c.toNat ∧ c.toNat < 0x110000 := c.valid
  have range' : d.toNat < 0xD800 ∨ 0xDFFF < d.toNat ∧ d.toNat < 0x110000 := d.valid
  rw [← Char.toNat_inj]
  unfold utf16Units at same
  split at same <;> split at same <;> simp only [List.cons_append, List.nil_append, List.cons.injEq] at same
  · exact same
  · omega
  · omega
  · obtain ⟨high, low, rest⟩ := same
    exact ⟨by omega, rest⟩

theorem utf16Units_ne_nil (c : Char) : utf16Units c ≠ [] := by
  unfold utf16Units
  split <;> simp

theorem utf16_injective : Function.Injective utf16 := by
  intro s t same
  apply String.toList_injective
  unfold utf16 at same
  generalize s.toList = cs at same ⊢
  generalize t.toList = ds at same ⊢
  induction cs generalizing ds with
  | nil =>
    cases ds with
    | nil => rfl
    | cons d ds =>
      rw [List.flatMap_nil, List.flatMap_cons] at same
      exact absurd (List.append_eq_nil_iff.mp same.symm).1 (utf16Units_ne_nil d)
  | cons c cs ih =>
    cases ds with
    | nil =>
      rw [List.flatMap_nil, List.flatMap_cons] at same
      exact absurd (List.append_eq_nil_iff.mp same).1 (utf16Units_ne_nil c)
    | cons d ds =>
      rw [List.flatMap_cons, List.flatMap_cons] at same
      obtain ⟨rfl, rest⟩ := utf16Units_append_inj same
      rw [ih _ rest]

instance : Std.TransCmp compare := inferInstanceAs (Std.TransCmp (compareOn utf16))

instance : Std.LawfulEqCmp compare where
  compare_self := Std.ReflCmp.compare_self
  eq_of_compare same := utf16_injective (Std.LawfulEqOrd.eq_of_compare same)

end Order

end QString

end XYAnnotation

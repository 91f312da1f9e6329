import Mathlib

namespace Library

section Pieces

variable {α : Type*} [DecidableEq α] {mark : α} {text piece : List α}

/-- What reading up to the mark gives, one call after the other. A mark at the very end starts no piece. -/
def pieces (mark : α) : List α → List (List α)
  | [] => []
  | c :: text =>
    if c = mark then [] :: pieces mark text
    else
      match pieces mark text with
      | [] => [[c]]
      | piece :: rest => (c :: piece) :: rest

def startPiece (mark : α) (text : List α) : List α :=
  if text ≠ [] ∧ text.getLast? ≠ some mark then text ++ [mark] else text

theorem pieces_ne_nil (nonempty : text ≠ []) : pieces mark text ≠ [] := by
  cases text with
  | nil => exact absurd rfl nonempty
  | cons c text =>
    rw [pieces]
    split
    · exact List.cons_ne_nil _ _
    · split <;> exact List.cons_ne_nil _ _

theorem mark_not_mem_pieces : ∀ piece ∈ pieces mark text, mark ∉ piece := by
  induction text with
  | nil =>
    intro piece member
    cases member
  | cons c text ih =>
    rw [pieces]
    split
    · intro piece member
      rcases List.mem_cons.mp member with rfl | member
      · exact List.not_mem_nil
      · exact ih piece member
    · rename_i other
      cases rest : pieces mark text with
      | nil =>
        intro piece member
        rw [List.mem_singleton.mp member, List.mem_singleton]
        exact Ne.symm other
      | cons first rest' =>
        rw [rest] at ih
        intro piece member
        rcases List.mem_cons.mp member with rfl | member
        · rw [List.mem_cons, not_or]
          exact ⟨Ne.symm other, ih first List.mem_cons_self⟩
        · exact ih piece (List.mem_cons_of_mem _ member)

theorem pieces_of_not_mem (clean : mark ∉ piece) (nonempty : piece ≠ []) : pieces mark piece = [piece] := by
  induction piece with
  | nil => exact absurd rfl nonempty
  | cons c piece ih =>
    rw [List.mem_cons, not_or] at clean
    rw [pieces, if_neg (Ne.symm clean.1)]
    by_cases last : piece = []
    · subst last
      rfl
    · rw [ih clean.2 last]

theorem pieces_marked (clean : mark ∉ piece) : pieces mark (piece ++ [mark]) = [piece] := by
  induction piece with
  | nil => simp [pieces]
  | cons c piece ih =>
    rw [List.mem_cons, not_or] at clean
    rw [List.cons_append, pieces, if_neg (Ne.symm clean.1), ih clean.2]

theorem pieces_append (ended : text = [] ∨ text.getLast? = some mark) (more : List α) :
    pieces mark (text ++ more) = pieces mark text ++ pieces mark more := by
  induction text with
  | nil => rfl
  | cons c text ih =>
    by_cases last : text = []
    · subst last
      have same : c = mark := by simpa using ended
      simp [pieces, same]
    · have ended : text.getLast? = some mark := by
        rcases ended with ended | ended
        · cases ended
        · rwa [List.getLast?_cons_of_ne_nil last] at ended
      rw [List.cons_append, pieces, pieces, ih (.inr ended)]
      split
      · rfl
      · cases rest : pieces mark text with
        | nil => exact absurd rest (pieces_ne_nil last)
        | cons first rest => rfl

theorem pieces_append_mark (nonempty : text ≠ []) (opened : text.getLast? ≠ some mark) :
    pieces mark (text ++ [mark]) = pieces mark text := by
  induction text with
  | nil => exact absurd rfl nonempty
  | cons c text ih =>
    by_cases last : text = []
    · subst last
      have other : c ≠ mark := by simpa using opened
      simp [pieces, other]
    · rw [List.getLast?_cons_of_ne_nil last] at opened
      rw [List.cons_append, pieces, pieces, ih last opened]

theorem startPiece_ended (mark : α) (text : List α) :
    startPiece mark text = [] ∨ (startPiece mark text).getLast? = some mark := by
  unfold startPiece
  split
  · exact .inr (by simp)
  · rename_i ended
    by_cases empty : text = []
    · exact .inl empty
    · exact .inr (not_not.mp fun other => ended ⟨empty, other⟩)

theorem startPiece_of_ended (ended : text = [] ∨ text.getLast? = some mark) : startPiece mark text = text := by
  rcases ended with rfl | last
  · rfl
  · rw [startPiece, if_neg fun opened => opened.2 last]

theorem pieces_startPiece (mark : α) (text : List α) : pieces mark (startPiece mark text) = pieces mark text := by
  unfold startPiece
  split
  · rename_i opened
    exact pieces_append_mark opened.1 opened.2
  · rfl

theorem pieces_write (clean : mark ∉ piece) (nonempty : piece ≠ []) (text : List α) :
    pieces mark (startPiece mark text ++ piece) = pieces mark text ++ [piece] := by
  rw [pieces_append (startPiece_ended mark text), pieces_startPiece, pieces_of_not_mem clean nonempty]

theorem pieces_write_marked (clean : mark ∉ piece) (text : List α) :
    pieces mark (startPiece mark text ++ (piece ++ [mark])) = pieces mark text ++ [piece] := by
  rw [pieces_append (startPiece_ended mark text), pieces_startPiece, pieces_marked clean]

theorem mem_of_mem_pieces {c : α} (member : piece ∈ pieces mark text) (inside : c ∈ piece) : c ∈ text := by
  induction text generalizing piece with
  | nil => cases member
  | cons d text ih =>
    rw [pieces] at member
    split at member
    · rcases List.mem_cons.mp member with rfl | member
      · cases inside
      · exact List.mem_cons_of_mem _ (ih member inside)
    · cases rest : pieces mark text with
      | nil =>
        rw [rest] at member
        rw [List.mem_singleton.mp member] at inside
        rw [List.mem_singleton.mp inside]
        exact List.mem_cons_self
      | cons first others =>
        rw [rest] at member ih
        rcases List.mem_cons.mp member with rfl | member
        · rcases List.mem_cons.mp inside with rfl | inside
          · exact List.mem_cons_self
          · exact List.mem_cons_of_mem _ (ih List.mem_cons_self inside)
        · exact List.mem_cons_of_mem _ (ih (List.mem_cons_of_mem _ member) inside)

def marked (mark : α) (parts : List (List α)) : List α := parts.flatMap (· ++ [mark])

omit [DecidableEq α] in
theorem marked_ended (mark : α) (parts : List (List α)) :
    marked mark parts = [] ∨ (marked mark parts).getLast? = some mark := by
  rcases List.eq_nil_or_concat parts with rfl | ⟨front, last, rfl⟩
  · exact .inl rfl
  · right
    simp [marked]

theorem pieces_marks {parts : List (List α)} (clean : ∀ piece ∈ parts, mark ∉ piece) :
    pieces mark (marked mark parts) = parts := by
  induction parts with
  | nil => rfl
  | cons piece parts ih =>
    have first := clean piece List.mem_cons_self
    have rest := ih fun piece member => clean piece (List.mem_cons_of_mem _ member)
    have ended : piece ++ [mark] = [] ∨ (piece ++ [mark]).getLast? = some mark := .inr List.getLast?_concat
    rw [marked, List.flatMap_cons, pieces_append ended, pieces_marked first, ← marked, rest, List.singleton_append]

end Pieces

section Trim

variable {α : Type*} {blank : α → Bool} {text : List α}

def trimmed (blank : α → Bool) (text : List α) : List α := (text.dropWhile blank).rdropWhile blank

theorem trimmed_subset (blank : α → Bool) (text : List α) : trimmed blank text ⊆ text :=
  fun _ member => (List.dropWhile_sublist blank).subset ((List.rdropWhile_prefix blank _).subset member)

def Tight (blank : α → Bool) (text : List α) : Prop :=
  (∀ c ∈ text.head?, blank c = false) ∧ ∀ c ∈ text.getLast?, blank c = false

theorem Tight.dropWhile (tight : Tight blank text) : text.dropWhile blank = text := by
  cases text with
  | nil => rfl
  | cons c text => simp [tight.1 c rfl]

theorem Tight.rdropWhile (tight : Tight blank text) : text.rdropWhile blank = text := by
  rw [List.rdropWhile_eq_self_iff]
  intro nonempty
  rw [tight.2 _ (List.getLast_mem_getLast? nonempty)]
  exact Bool.false_ne_true

theorem Tight.trimmed (tight : Tight blank text) : trimmed blank text = text := by
  rw [Library.trimmed, tight.dropWhile, tight.rdropWhile]

theorem rdropWhile_append_blanks {gap : List α} (blanks : ∀ c ∈ gap, blank c = true) (text : List α) :
    (text ++ gap).rdropWhile blank = text.rdropWhile blank := by
  rw [List.rdropWhile, List.reverse_append, List.dropWhile_append_of_pos (by simpa using blanks), ← List.rdropWhile]

theorem Tight.trimmed_pad (tight : Tight blank text) {before after : List α} (front : ∀ c ∈ before, blank c = true)
    (back : ∀ c ∈ after, blank c = true) : Library.trimmed blank (before ++ (text ++ after)) = text := by
  rw [Library.trimmed, List.dropWhile_append_of_pos front]
  cases text with
  | nil =>
    rw [List.nil_append, List.dropWhile_eq_nil_iff.mpr back]
    rfl
  | cons c rest =>
    rw [List.cons_append, List.dropWhile_cons, tight.1 c rfl, if_neg Bool.false_ne_true, ← List.cons_append,
      rdropWhile_append_blanks back, tight.rdropWhile]

theorem tight_of_forall (free : ∀ c ∈ text, blank c = false) : Tight blank text :=
  ⟨fun c first => free c (List.mem_of_mem_head? first), fun c last => free c (List.mem_of_mem_getLast? last)⟩

theorem head?_rdropWhile (blank : α → Bool) {text : List α} {c : α} (first : (text.rdropWhile blank).head? = some c) :
    text.head? = some c := by
  obtain ⟨rest, same⟩ := List.rdropWhile_prefix blank text
  rw [← same, List.head?_append, first]
  rfl

theorem tight_trimmed (blank : α → Bool) (text : List α) : Tight blank (trimmed blank text) := by
  constructor
  · intro c first
    have first := head?_rdropWhile blank first
    cases rest : text.dropWhile blank with
    | nil => simp [rest] at first
    | cons d rest' =>
      have same : d = c := by simpa [rest] using first
      have stop := @List.head_dropWhile_not _ blank text (by simp [rest])
      simp only [rest, List.head_cons] at stop
      rw [← same]
      exact stop
  · intro c last
    have nonempty : trimmed blank text ≠ [] := by
      intro none
      rw [none] at last
      cases last
    have stop := List.rdropWhile_last_not blank (text.dropWhile blank) nonempty
    rw [List.getLast?_eq_some_getLast nonempty] at last
    cases last
    exact Bool.eq_false_iff.mpr stop

end Trim

end Library

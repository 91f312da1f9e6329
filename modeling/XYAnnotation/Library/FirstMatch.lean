import Mathlib

namespace Library

variable {α : Type*}

/-- Applies `f` to the first element that fits, or to `fresh` at the end where none does. -/
def updateFirst (fits : α → Bool) (fresh : α) (f : α → α) : List α → List α
  | [] => [f fresh]
  | a :: l => if fits a then f a :: l else a :: updateFirst fits fresh f l

section Shape

variable {fits : α → Bool} {fresh : α} {f : α → α} {l : List α}

theorem mem_updateFirst {b : α} (member : b ∈ updateFirst fits fresh f l) :
    b ∈ l ∨ ∃ a, (a ∈ l ∧ fits a = true ∨ a = fresh) ∧ b = f a := by
  induction l with
  | nil => exact .inr ⟨fresh, .inr rfl, List.mem_singleton.mp member⟩
  | cons a l ih =>
    rw [updateFirst] at member
    by_cases fit : fits a = true
    · rw [if_pos fit] at member
      rcases List.mem_cons.mp member with same | member
      · exact .inr ⟨a, .inl ⟨List.mem_cons_self, fit⟩, same⟩
      · exact .inl (List.mem_cons_of_mem _ member)
    · rw [if_neg fit] at member
      rcases List.mem_cons.mp member with rfl | member
      · exact .inl List.mem_cons_self
      · rcases ih member with member | ⟨changed, source, same⟩
        · exact .inl (List.mem_cons_of_mem _ member)
        · exact .inr ⟨changed, source.imp_left fun found => ⟨List.mem_cons_of_mem _ found.1, found.2⟩, same⟩

theorem updateFirst_of_none (none : ∀ a ∈ l, fits a = false) : updateFirst fits fresh f l = l ++ [f fresh] := by
  induction l with
  | nil => rfl
  | cons a l ih =>
    rw [updateFirst, none a List.mem_cons_self, if_neg Bool.false_ne_true,
      ih fun a member => none a (List.mem_cons_of_mem _ member), List.cons_append]

theorem map_updateFirst_of_mem {β : Type*} {g : α → β} (same : ∀ a, fits a = true → g (f a) = g a)
    (found : ∃ a ∈ l, fits a = true) : (updateFirst fits fresh f l).map g = l.map g := by
  induction l with
  | nil =>
    obtain ⟨a, member, -⟩ := found
    cases member
  | cons a l ih =>
    by_cases fit : fits a = true
    · rw [updateFirst, if_pos fit, List.map_cons, same a fit, List.map_cons]
    · have found : ∃ a ∈ l, fits a = true := by
        obtain ⟨b, member, fit'⟩ := found
        rcases List.mem_cons.mp member with rfl | member
        · exact absurd fit' fit
        · exact ⟨b, member, fit'⟩
      rw [updateFirst, if_neg fit, List.map_cons, ih found, List.map_cons]

theorem updateFirst_append {front : List α} (skipped : ∀ a ∈ front, fits a = false) (l : List α) :
    updateFirst fits fresh f (front ++ l) = front ++ updateFirst fits fresh f l := by
  induction front with
  | nil => rfl
  | cons a front ih =>
    rw [List.cons_append, updateFirst, skipped a List.mem_cons_self, if_neg Bool.false_ne_true,
      ih fun a member => skipped a (List.mem_cons_of_mem _ member), List.cons_append]

theorem map_updateFirst {β : Type*} {g : α → β} (same : ∀ a, fits a = true → g (f a) = g a) (l : List α) :
    (updateFirst fits fresh f l).map g = l.map g ∨ (updateFirst fits fresh f l).map g = l.map g ++ [g (f fresh)] := by
  by_cases found : ∃ a ∈ l, fits a = true
  · exact .inl (map_updateFirst_of_mem same found)
  · have none : ∀ a ∈ l, fits a = false := fun a member => Bool.eq_false_iff.mpr fun fit => found ⟨a, member, fit⟩
    right
    rw [updateFirst_of_none none, List.map_append, List.map_singleton]

end Shape

section Lookup

variable {fits : α → Bool} {fresh : α} {f : α → α} (new : fits fresh = true)
  (kept : ∀ a, fits a = true → fits (f a) = true)

include new kept

theorem find?_updateFirst (l : List α) :
    (updateFirst fits fresh f l).find? fits = some (f ((l.find? fits).getD fresh)) := by
  induction l with
  | nil => simp [updateFirst, kept fresh new]
  | cons a l ih =>
    by_cases fit : fits a = true
    · simp [updateFirst, fit, kept a fit]
    · simp [updateFirst, fit, ih]

theorem find?_updateFirst_of_disjoint {other : α → Bool} (apart : ∀ a, fits a = true → other a = false) (l : List α) :
    (updateFirst fits fresh f l).find? other = l.find? other := by
  induction l with
  | nil => simp [updateFirst, apart _ (kept fresh new)]
  | cons a l ih =>
    by_cases fit : fits a = true
    · simp [updateFirst, fit, apart a fit, apart _ (kept a fit)]
    · simp [updateFirst, fit, List.find?_cons, ih]

end Lookup

end Library

import XYAnnotation.Library.Runs

namespace Library

universe u

variable {State : Type u} {Fault Item : Type*} {body : State → Item → Except Fault (State × Bool)}

/-- A loop that the body leaves when it answers `true`. -/
def loop (body : State → Item → Except Fault (State × Bool)) (state : State) : List Item → Except Fault State
  | [] => .ok state
  | item :: items =>
    match body state item with
    | .error fault => .error fault
    | .ok (state, true) => .ok state
    | .ok (state, false) => loop body state items

/-- How a loop ends: at the end of the list or in the item where the body leaves it. `Passed`
    is what the items that were passed over preserve. -/
theorem loop_completes {Passed : State → Prop} {items : List Item}
    (passes : ∀ state next, ∀ item ∈ items, Passed state → body state item = .ok (next, false) → Passed next)
    {state last : State} (initial : Passed state) (done : loop body state items = .ok last) :
    Passed last ∨ ∃ item ∈ items, ∃ middle, Passed middle ∧ body middle item = .ok (last, true) := by
  induction items generalizing state with
  | nil =>
    cases done
    exact .inl initial
  | cons item items ih =>
    simp only [loop] at done
    cases taken : body state item with
    | error fault => simp [taken] at done
    | ok result =>
      obtain ⟨next, leaves⟩ := result
      simp only [taken] at done
      cases leaves with
      | true =>
        cases done
        exact .inr ⟨item, by simp, state, initial, taken⟩
      | false =>
        have passed := passes state next item (by simp) initial taken
        have rest : ∀ state next, ∀ item ∈ items, Passed state →
            body state item = .ok (next, false) → Passed next := by
          intro state next item member
          exact passes state next item (List.mem_cons_of_mem _ member)
        rcases ih rest passed done with ends | ⟨item, member, found⟩
        · exact .inl ends
        · exact .inr ⟨item, List.mem_cons_of_mem _ member, found⟩

theorem loop_invariant {Inv : State → Prop} {items : List Item}
    (preserved : ∀ state next leaves, ∀ item ∈ items, Inv state →
      body state item = .ok (next, leaves) → Inv next)
    {state last : State} (initial : Inv state) (done : loop body state items = .ok last) : Inv last := by
  have passes : ∀ state next, ∀ item ∈ items, Inv state → body state item = .ok (next, false) → Inv next :=
    fun state next => preserved state next false
  rcases loop_completes passes initial done with kept | ⟨item, member, middle, kept, left⟩
  · exact kept
  · exact preserved middle last true item member kept left

theorem foldlM_completes {f : State → Item → Except Fault State} (Inv : State → Prop) {items : List Item}
    (steps : ∀ state, ∀ item ∈ items, Inv state → ∃ next, f state item = .ok next ∧ Inv next)
    {state : State} (initial : Inv state) : ∃ last, items.foldlM f state = .ok last ∧ Inv last := by
  induction items generalizing state with
  | nil => exact ⟨state, rfl, initial⟩
  | cons item items ih =>
    obtain ⟨next, taken, kept⟩ := steps state item (by simp) initial
    have rest : ∀ state, ∀ item ∈ items, Inv state → ∃ next, f state item = .ok next ∧ Inv next := by
      intro state item member
      exact steps state item (List.mem_cons_of_mem _ member)
    obtain ⟨last, done, final⟩ := ih rest kept
    refine ⟨last, ?_, final⟩
    rw [List.foldlM_cons, taken]
    exact done

theorem mapM_completes {Result : Type u} {f : State → Except Fault Result} {items : List State} :
    (∃ results, items.mapM f = .ok results) ↔ ∀ item ∈ items, ∃ result, f item = .ok result := by
  induction items with
  | nil => exact iff_of_true ⟨[], rfl⟩ (by simp)
  | cons item items ih =>
    rw [List.forall_mem_cons, ← ih, List.mapM_cons]
    constructor
    · rintro ⟨results, done⟩
      obtain ⟨first, head, rest⟩ := bind_completes done
      obtain ⟨others, tail, _⟩ := bind_completes rest
      exact ⟨⟨first, head⟩, others, tail⟩
    · rintro ⟨⟨first, head⟩, others, tail⟩
      refine ⟨first :: others, ?_⟩
      rw [head, tail]
      rfl

theorem mapM_forall₂ {Result : Type u} {f : State → Except Fault Result} {items : List State} {results : List Result}
    (done : items.mapM f = .ok results) : List.Forall₂ (fun item result => f item = .ok result) items results := by
  induction items generalizing results with
  | nil =>
    cases done
    exact .nil
  | cons item items ih =>
    rw [List.mapM_cons] at done
    obtain ⟨first, head, rest⟩ := bind_completes done
    obtain ⟨others, tail, rest⟩ := bind_completes rest
    cases rest
    exact .cons head (ih tail)

end Library

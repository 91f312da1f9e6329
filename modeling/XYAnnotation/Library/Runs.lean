import Mathlib

namespace Library

universe u

variable {State Input : Type u} {Fault : Type*}

theorem bind_completes {First Last : Type u} {first : Except Fault First}
    {rest : First → Except Fault Last} {last : Last} (completes : first >>= rest = .ok last) :
    ∃ middle, first = .ok middle ∧ rest middle = .ok last :=
  match first, completes with
  | .ok middle, completes => ⟨middle, rfl, completes⟩

theorem map_completes {First Last : Type u} {first : Except Fault First} {f : First → Last} {last : Last}
    (completes : first.map f = .ok last) : ∃ middle, first = .ok middle ∧ f middle = last :=
  match first, completes with
  | .ok middle, completes => ⟨middle, rfl, Except.ok.inj completes⟩

variable (step : State → Input → Except Fault State)

def run (state : State) : List Input → Except Fault State
  | [] => .ok state
  | input :: inputs => do
    let next ← step state input
    run next inputs

/-- The states a run passes through, the first one included. -/
def visited (state : State) : List Input → List State
  | [] => [state]
  | input :: inputs => state :: match step state input with
    | .ok next => visited next inputs
    | .error _ => []

/-- Every step that completes is taken from a state that meets the condition. -/
def Along (condition : State → Input → Prop) (state : State) : List Input → Prop
  | [] => True
  | input :: inputs => match step state input with
    | .ok next => condition state input ∧ Along condition next inputs
    | .error _ => True

instance decidableAlong (condition : State → Input → Prop) [∀ state input, Decidable (condition state input)]
    (state : State) : (inputs : List Input) → Decidable (Along step condition state inputs)
  | [] => isTrue trivial
  | input :: inputs =>
    match taken : step state input with
    | .ok next =>
      have := decidableAlong condition next inputs
      decidable_of_iff (condition state input ∧ Along step condition next inputs) (by rw [Along, taken])
    | .error _ => isTrue (by rw [Along, taken]; trivial)

/-- Every step that is tried meets the condition, one that fails included. -/
def Throughout (condition : State → Input → Prop) (state : State) : List Input → Prop
  | [] => True
  | input :: inputs => condition state input ∧ match step state input with
    | .ok next => Throughout condition next inputs
    | .error _ => True

theorem along_cons {condition : State → Input → Prop} {state : State} {input : Input} {inputs : List Input}
    (met : condition state input) (rest : ∀ next, step state input = .ok next → Along step condition next inputs) :
    Along step condition state (input :: inputs) := by
  rw [Along]
  split
  · rename_i next taken
    exact ⟨met, rest next taken⟩
  · trivial

theorem along_of_forall {condition : State → Input → Prop} {inputs : List Input}
    (met : ∀ state, ∀ input ∈ inputs, condition state input) (state : State) :
    Along step condition state inputs := by
  induction inputs generalizing state with
  | nil => trivial
  | cons input inputs ih =>
    apply along_cons step (met state input (by simp))
    intro next _
    exact ih (fun state input member => met state input (List.mem_cons_of_mem _ member)) next

theorem visited_head (state : State) (inputs : List Input) : state ∈ visited step state inputs := by
  cases inputs <;> simp [visited]

variable {step}

theorem run_cons_ok {state : State} {input : Input} {inputs : List Input} {last : State}
    (done : run step state (input :: inputs) = .ok last) :
    ∃ next, step state input = .ok next ∧ run step next inputs = .ok last := bind_completes done

theorem run_append {state middle : State} {first : List Input} (done : run step state first = .ok middle)
    (second : List Input) : run step state (first ++ second) = run step middle second := by
  induction first generalizing state with
  | nil =>
    cases done
    rfl
  | cons input first ih =>
    obtain ⟨next, taken, rest⟩ := run_cons_ok done
    rw [List.cons_append, run, taken]
    exact ih rest

theorem run_append_ok {state last : State} {first second : List Input} (done : run step state (first ++ second) = .ok last) :
    ∃ middle, run step state first = .ok middle ∧ run step middle second = .ok last := by
  induction first generalizing state with
  | nil => exact ⟨state, rfl, done⟩
  | cons input first ih =>
    obtain ⟨next, taken, rest⟩ := run_cons_ok done
    obtain ⟨middle, ran, later⟩ := ih rest
    refine ⟨middle, ?_, later⟩
    rw [run, taken]
    exact ran

theorem run_mem_visited {state last : State} {inputs : List Input}
    (done : run step state inputs = .ok last) : last ∈ visited step state inputs := by
  induction inputs generalizing state with
  | nil => cases done; exact visited_head step _ []
  | cons input inputs ih =>
    obtain ⟨next, taken, rest⟩ := run_cons_ok done
    simp only [visited, taken, List.mem_cons]
    exact .inr (ih rest)

/-- The invariant rule: what every permitted step preserves holds in every state of the run. -/
theorem visited_invariant {condition : State → Input → Prop} {Inv : State → Prop}
    (preserved : ∀ state input next, Inv state → condition state input →
      step state input = .ok next → Inv next)
    {state : State} {inputs : List Input} (initial : Inv state)
    (along : Along step condition state inputs) :
    ∀ reached ∈ visited step state inputs, Inv reached := by
  induction inputs generalizing state with
  | nil =>
    intro reached member
    rw [List.mem_singleton.mp member]
    exact initial
  | cons input inputs ih =>
    intro reached member
    rcases List.mem_cons.mp member with rfl | member
    · exact initial
    · cases taken : step state input with
      | error fault => simp [taken] at member
      | ok next =>
        simp only [taken] at member
        simp only [Along, taken] at along
        exact ih (preserved _ _ _ initial along.1 taken) along.2 reached member

theorem run_invariant {Inv : State → Prop} (preserved : ∀ state input next, Inv state → step state input = .ok next → Inv next)
    {state last : State} {inputs : List Input} (initial : Inv state) (done : run step state inputs = .ok last) :
    Inv last := by
  have kept (state : State) (input : Input) (next : State) (inv : Inv state) (_ : True)
      (taken : step state input = .ok next) : Inv next := preserved state input next inv taken
  have everywhere : Along step (fun _ _ => True) state inputs := along_of_forall step (fun _ _ _ => trivial) state
  exact visited_invariant kept initial everywhere last (run_mem_visited done)

/-- The refinement rule: when every permitted step of the machine below is, seen from above, the step of the machine
    above, its runs are the runs above. -/
theorem run_refines {Below : Type u} {below : Below → Input → Except Fault Below} (view : Below → State)
    {permitted : State → Input → Prop}
    (square : ∀ s input, (∀ next, step (view s) input = .ok next → permitted (view s) input) →
      (below s input).map view = step (view s) input)
    {s : Below} {inputs : List Input} (along : Along step permitted (view s) inputs) :
    (run below s inputs).map view = run step (view s) inputs := by
  induction inputs generalizing s with
  | nil => rfl
  | cons input inputs ih =>
    have permits : ∀ next, step (view s) input = .ok next → permitted (view s) input := by
      intro next taken
      rw [Along, taken] at along
      exact along.1
    have same := square s input permits
    rw [run, run, ← same]
    cases taken : below s input with
    | error fault => rfl
    | ok next =>
      rw [taken] at same
      rw [Along, ← same] at along
      exact ih along.2

/-- When the condition decides whether a step keeps the invariant, it decides it for the run.
    `Frame` is what every step preserves without a condition. -/
theorem visited_invariant_iff {condition : State → Input → Prop} (Frame : State → Prop) {Inv : State → Prop}
    (decides : ∀ state input next, Frame state → Inv state → step state input = .ok next →
      Frame next ∧ (Inv next ↔ condition state input))
    {state : State} {inputs : List Input} (frame : Frame state) (initial : Inv state) :
    (∀ reached ∈ visited step state inputs, Inv reached) ↔ Along step condition state inputs := by
  constructor
  · intro all
    induction inputs generalizing state with
    | nil => trivial
    | cons input inputs ih =>
      cases taken : step state input with
      | error fault => simp [Along, taken]
      | ok next =>
        simp only [Along, taken]
        have rest : ∀ reached ∈ visited step next inputs, Inv reached := by
          intro reached member
          apply all
          simp only [visited, taken, List.mem_cons]
          exact .inr member
        have kept := rest next (visited_head step next inputs)
        obtain ⟨frame', judged⟩ := decides _ _ _ frame initial taken
        exact ⟨judged.mp kept, ih frame' kept rest⟩
  · intro along reached member
    have preserved : ∀ state input next, Frame state ∧ Inv state → condition state input →
        step state input = .ok next → Frame next ∧ Inv next := by
      rintro state input next ⟨frame, inv⟩ met taken
      obtain ⟨frame', judged⟩ := decides state input next frame inv taken
      exact ⟨frame', judged.mpr met⟩
    exact (visited_invariant preserved ⟨frame, initial⟩ along reached member).2

theorem prefixes_cons {Asked : List Input → Prop} {Goal : State → Prop} {state : State} {input : Input}
    {inputs : List Input} :
    (∀ before later last, input :: inputs = before ++ later → Asked before →
      run step state before = .ok last → Goal last) ↔
      (Asked [] → Goal state) ∧ ∀ next, step state input = .ok next → ∀ before later last, inputs = before ++ later →
        Asked (input :: before) → run step next before = .ok last → Goal last := by
  constructor
  · intro all
    refine ⟨fun asked => all [] _ state rfl asked rfl, ?_⟩
    intro next taken before later last split asked ran
    apply all (input :: before) later last
    · rw [split, List.cons_append]
    · exact asked
    · rw [run, taken]
      exact ran
  · rintro ⟨first, rest⟩ before later last split asked ran
    cases before with
    | nil =>
      cases ran
      exact first asked
    | cons head before =>
      obtain ⟨rfl, rfl⟩ := List.cons.inj split
      obtain ⟨next, taken, ran⟩ := run_cons_ok ran
      exact rest next taken before later last rfl asked ran

/-- The goal is asked for after each part of the run with an opening input in it. When the invariant gives the goal
    there, and the condition is what a step needs to keep the invariant, the condition decides it for the run. -/
theorem opened_prefixes_iff {opens : Input → Bool} {permitted condition : State → Input → Prop} {Goal : State → Prop}
    (Inv : Bool → State → Prop) (goal : ∀ state, Inv true state → Goal state)
    (preserved : ∀ opened state input next, Inv opened state → permitted state input → condition state input →
      step state input = .ok next → Inv (opened || opens input) next)
    (needed : ∀ opened state input next, Inv opened state → step state input = .ok next →
      (opened = true → Goal next) → condition state input)
    {opened : Bool} {state : State} {inputs : List Input} (initial : Inv opened state)
    (along : Along step permitted state inputs) :
    (∀ before later last, inputs = before ++ later → (opened || before.any opens) = true →
      run step state before = .ok last → Goal last) ↔ Along step condition state inputs := by
  -- Before the first input the run is opened only when it was opened from the start.
  have start : ∀ {opened state}, Inv opened state → (opened || [].any opens) = true → Goal state := by
    intro opened state inv opening
    rw [List.any_nil, Bool.or_false] at opening
    subst opening
    exact goal _ inv
  induction inputs generalizing state opened with
  | nil =>
    refine iff_of_true ?_ trivial
    intro before later last split opening ran
    obtain ⟨rfl, _⟩ := List.append_eq_nil_iff.mp split.symm
    cases ran
    exact start initial opening
  | cons input inputs ih =>
    rw [prefixes_cons, and_iff_right (start initial)]
    cases taken : step state input with
    | error fault => simp [Along, taken]
    | ok next =>
      simp only [Along, taken] at along ⊢
      simp only [Except.ok.injEq, forall_eq', List.any_cons, ← Bool.or_assoc]
      constructor
      · intro all
        have met : condition state input := by
          apply needed opened state input next initial taken
          intro opening
          exact all [] inputs next rfl (by simp [opening]) rfl
        exact ⟨met, (ih (preserved opened state input next initial along.1 met taken) along.2).mp all⟩
      · rintro ⟨met, rest⟩
        exact (ih (preserved opened state input next initial along.1 met taken) along.2).mpr rest

theorem throughout_iff {condition other : State → Input → Prop} (Frame : State → Prop)
    (agree : ∀ state input, Frame state → (condition state input ↔ other state input))
    (kept : ∀ state input next, Frame state → step state input = .ok next → Frame next)
    {state : State} {inputs : List Input} (frame : Frame state) :
    Throughout step condition state inputs ↔ Throughout step other state inputs := by
  induction inputs generalizing state with
  | nil => exact Iff.rfl
  | cons input inputs ih =>
    rw [Throughout, Throughout, agree state input frame]
    cases taken : step state input with
    | error fault => exact Iff.rfl
    | ok next => exact and_congr_right fun _ => ih (kept state input next frame taken)

def traced {Note : Type*} (step : State → Input → Except Fault State) (update : State → Input → Note → Note)
    (state : State) (note : Note) : List Input → Note
  | [] => note
  | input :: inputs => match step state input with
    | .ok next => traced step update next (update state input note) inputs
    | .error _ => note

theorem inside_or_last_entry (Inside : State → Prop) {state last : State} {inputs : List Input} (done : run step state inputs = .ok last)
    (ends : Inside last) :
    (∀ reached ∈ visited step state inputs, Inside reached) ∨
      ∃ earlier input later before entered, inputs = earlier ++ input :: later ∧
        run step state earlier = .ok before ∧ ¬ Inside before ∧ step before input = .ok entered ∧
        run step entered later = .ok last ∧ ∀ reached ∈ visited step entered later, Inside reached := by
  induction inputs generalizing state with
  | nil =>
    cases done
    left
    intro reached member
    rw [List.mem_singleton.mp member]
    exact ends
  | cons input inputs ih =>
    obtain ⟨next, taken, rest⟩ := run_cons_ok done
    rcases ih rest with all | ⟨earlier, other, later, before, entered, split, ran, outside, entry, since⟩
    · by_cases here : Inside state
      · left
        intro reached member
        simp only [visited, taken, List.mem_cons] at member
        rcases member with rfl | member
        · exact here
        · exact all reached member
      · exact .inr ⟨[], input, inputs, state, next, rfl, rfl, here, taken, rest, all⟩
    · refine .inr ⟨input :: earlier, other, later, before, entered, ?_, ?_, outside, entry, since⟩
      · rw [split, List.cons_append]
      · rw [run, taken]
        exact ran

/-- When the condition decides whether a step keeps the note as it is, and a note once changed never comes back,
    the condition decides it for the run. -/
theorem traced_eq_iff {Note : Type*} {update : State → Input → Note → Note} {condition : State → Input → Prop}
    {Inside : State → Prop} (Frame : State → Note → Prop) {first : Note}
    (decides : ∀ state input next note, Frame state note → step state input = .ok next → Inside next →
      Frame next (update state input note) ∧ (update state input note = first ↔ note = first ∧ condition state input))
    {state last : State} {note : Note} {inputs : List Input} (frame : Frame state note)
    (done : run step state inputs = .ok last) (stays : ∀ reached ∈ visited step state inputs, Inside reached) :
    Frame last (traced step update state note inputs) ∧
      (traced step update state note inputs = first ↔ note = first ∧ Along step condition state inputs) := by
  induction inputs generalizing state note with
  | nil =>
    cases done
    exact ⟨frame, by simp [traced, Along]⟩
  | cons input inputs ih =>
    obtain ⟨next, taken, rest⟩ := run_cons_ok done
    have later : ∀ reached ∈ visited step next inputs, Inside reached := by
      intro reached member
      apply stays
      simp only [visited, taken, List.mem_cons]
      exact .inr member
    obtain ⟨frame', judged⟩ := decides state input next note frame taken (later next (visited_head step next inputs))
    simp only [traced, taken, Along]
    obtain ⟨final, whole⟩ := ih frame' rest later
    refine ⟨final, ?_⟩
    rw [whole, judged, and_assoc]

end Library

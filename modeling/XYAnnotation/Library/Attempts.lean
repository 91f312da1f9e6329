import Mathlib

namespace Library

variable {Fault State First Last : Type}

/-- A computation that keeps what it has done to the state when it fails. -/
abbrev Attempt (Fault State : Type) := ExceptT Fault (StateM State)

theorem run_bind (first : Attempt Fault State First) (rest : First → Attempt Fault State Last) (state : State) :
    (first >>= rest).run state = match first.run state with
      | (.ok value, middle) => (rest value).run middle
      | (.error fault, middle) => (.error fault, middle) := by
  unfold ExceptT.run
  simp only [bind, ExceptT.bind, ExceptT.mk, StateT.bind, ExceptT.bindCont]
  cases first state with
  | mk result middle => cases result <;> rfl

theorem run_bind_completes {first : Attempt Fault State First} {rest : First → Attempt Fault State Last}
    {state last : State} {value : Last} (done : (first >>= rest).run state = (.ok value, last)) :
    ∃ result middle, first.run state = (.ok result, middle) ∧ (rest result).run middle = (.ok value, last) := by
  rw [run_bind] at done
  split at done
  · rename_i result middle ran
    exact ⟨result, middle, ran, done⟩
  · cases done

def check (result : Except Fault First) : Attempt Fault State First := ExceptT.mk (pure result)

theorem run_check (result : Except Fault First) (state : State) :
    (check result : Attempt Fault State First).run state = (result, state) := rfl

section Keeps

variable {Seen : Type} {observe : State → Seen}

/-- What is observed of the state is the same before and after, however the computation ends. -/
def Keeps (observe : State → Seen) (action : Attempt Fault State First) : Prop :=
  ∀ state, observe (action.run state).2 = observe state

theorem keeps_check (result : Except Fault First) : Keeps observe (check result : Attempt Fault State First) :=
  fun _ => rfl

theorem keeps_modify {f : State → State} (same : ∀ state, observe (f state) = observe state) :
    Keeps observe (modify f : Attempt Fault State PUnit) := same

theorem Keeps.bind {first : Attempt Fault State First} {rest : First → Attempt Fault State Last}
    (keeps : Keeps observe first) (next : ∀ value, Keeps observe (rest value)) : Keeps observe (first >>= rest) := by
  intro state
  have before := keeps state
  rw [run_bind]
  split
  · rename_i value middle ran
    rw [ran] at before
    rw [next value middle]
    exact before
  · rename_i fault middle ran
    rw [ran] at before
    exact before

end Keeps

end Library

import XYAnnotation.Library.Runs

namespace Library

/-- A computation that may fail, with the entries it has made in a record until then. -/
structure Noted (Entry : Type*) (Fault : Type*) (Result : Type*) where
  result : Except Fault Result
  entries : List Entry

namespace Noted

variable {Entry Fault : Type*} {First Last : Type}

instance : Monad (Noted Entry Fault) where
  pure value := ⟨.ok value, []⟩
  bind first rest := match first.result with
    | .ok value => ⟨(rest value).result, first.entries ++ (rest value).entries⟩
    | .error fault => ⟨.error fault, first.entries⟩

def note (entry : Entry) : Noted Entry Fault Unit := ⟨.ok (), [entry]⟩

def unnoted (result : Except Fault First) : Noted Entry Fault First := ⟨result, []⟩

@[simp] theorem pure_result (value : First) : (pure value : Noted Entry Fault First).result = .ok value := rfl

@[simp] theorem pure_entries (value : First) : (pure value : Noted Entry Fault First).entries = [] := rfl

@[simp] theorem note_result (entry : Entry) : (note entry : Noted Entry Fault Unit).result = .ok () := rfl

@[simp] theorem note_entries (entry : Entry) : (note entry : Noted Entry Fault Unit).entries = [entry] := rfl

@[simp] theorem unnoted_result (result : Except Fault First) :
    (unnoted result : Noted Entry Fault First).result = result := rfl

@[simp] theorem unnoted_entries (result : Except Fault First) :
    (unnoted result : Noted Entry Fault First).entries = [] := rfl

/-- The record does not change what is computed. -/
@[simp] theorem bind_result (first : Noted Entry Fault First) (rest : First → Noted Entry Fault Last) :
    (first >>= rest).result = first.result >>= fun value => (rest value).result := by
  simp only [Bind.bind]
  cases first.result <;> rfl

theorem bind_entries (first : Noted Entry Fault First) (rest : First → Noted Entry Fault Last)
    (Holds : Entry → Prop) :
    (∀ entry ∈ (first >>= rest).entries, Holds entry) ↔
      (∀ entry ∈ first.entries, Holds entry) ∧
        ∀ value, first.result = .ok value → ∀ entry ∈ (rest value).entries, Holds entry := by
  simp only [Bind.bind]
  cases first.result with
  | error fault => simp
  | ok value =>
    rw [List.forall_mem_append]
    simp

theorem bind_entries_ok {first : Noted Entry Fault First} {value : First} (made : first.result = .ok value)
    (rest : First → Noted Entry Fault Last) : (first >>= rest).entries = first.entries ++ (rest value).entries := by
  simp only [Bind.bind, made]

end Noted

end Library

import XYAnnotation.Library.Attempts
import XYAnnotation.Library.Runs

namespace Library

/-- What one step of a decoder asks of its input: that the step is defined at all, and that the value found has the
    type that is read. -/
structure Check where
  Defined : Prop
  Typed : Prop

/-- No step is undefined, unless a value of a wrong type has ended the decoding before. -/
def Gapless : List Check → Prop
  | [] => True
  | check :: checks => check.Defined ∧ (check.Typed → Gapless checks)

def Passes (checks : List Check) : Prop := ∀ check ∈ checks, check.Defined ∧ check.Typed

theorem passes_append {first second : List Check} : Passes (first ++ second) ↔ Passes first ∧ Passes second :=
  List.forall_mem_append

theorem gapless_append {first second : List Check} :
    Gapless (first ++ second) ↔ Gapless first ∧ (Passes first → Gapless second) := by
  induction first with
  | nil => simp [Gapless, Passes]
  | cons check first ih =>
    have passes : Passes (check :: first) ↔ (check.Defined ∧ check.Typed) ∧ Passes first := List.forall_mem_cons
    rw [List.cons_append, Gapless, Gapless, ih, passes]
    tauto

theorem gapless_of_passes {checks : List Check} (passes : Passes checks) : Gapless checks := by
  induction checks with
  | nil => trivial
  | cons check checks ih =>
    obtain ⟨⟨defined, _⟩, rest⟩ := List.forall_mem_cons.mp passes
    exact ⟨defined, fun _ => ih rest⟩

section Judged

variable {Fault : Type} {First Last : Type} {caught : Fault → Bool}

/-- The checks decide how a computation ends: it gives a value when all of them pass, and it ends in a fault that
    nobody catches when they have a gap. -/
structure Judged (caught : Fault → Bool) (result : Except Fault First) (checks : List Check) : Prop where
  completes : (∃ value, result = .ok value) ↔ Passes checks
  returns : (∀ fault, result = .error fault → caught fault = true) ↔ Gapless checks

theorem judged_ok (value : First) : Judged caught (.ok value) [] where
  completes := iff_of_true ⟨value, rfl⟩ (by simp [Passes])
  returns := iff_of_true (fun _ failed => by cases failed) trivial

theorem judged_single {result : Except Fault First} {check : Check}
    (fault : ∀ fault, result = .error fault → (caught fault = true ↔ check.Defined) ∧ ¬ (check.Defined ∧ check.Typed))
    (value : ∀ value, result = .ok value → check.Defined ∧ check.Typed) : Judged caught result [check] := by
  cases result with
  | ok found =>
    have passed := value found rfl
    have defined := passed.1
    exact ⟨iff_of_true ⟨found, rfl⟩ (by simpa [Passes] using passed),
      iff_of_true (fun _ failed => by cases failed) ⟨defined, fun _ => trivial⟩⟩
  | error raised =>
    obtain ⟨judged, failed⟩ := fault raised rfl
    refine ⟨iff_of_false ?_ (by simpa [Passes] using failed), ?_⟩
    · rintro ⟨value, done⟩
      cases done
    · rw [Gapless, ← judged]
      constructor
      · intro met
        exact ⟨met raised rfl, fun _ => trivial⟩
      · rintro ⟨met, _⟩ other same
        cases same
        exact met

theorem Judged.bind {first : Except Fault First} {rest : First → Except Fault Last} {checks later : List Check}
    (judged : Judged caught first checks) (next : ∀ value, first = .ok value → Judged caught (rest value) later) :
    Judged caught (first >>= rest) (checks ++ later) := by
  cases first with
  | ok value =>
    have passes : Passes checks := judged.completes.mp ⟨value, rfl⟩
    have after := next value rfl
    refine ⟨?_, ?_⟩
    · rw [passes_append]
      exact after.completes.trans (and_iff_right passes).symm
    · rw [gapless_append]
      have implied : (Passes checks → Gapless later) ↔ Gapless later := ⟨fun met => met passes, fun met _ => met⟩
      rw [implied]
      exact after.returns.trans (and_iff_right (gapless_of_passes passes)).symm
  | error fault =>
    have fails : ¬ Passes checks := by
      rw [← judged.completes]
      rintro ⟨value, done⟩
      cases done
    refine ⟨?_, ?_⟩
    · rw [passes_append]
      refine iff_of_false ?_ fun both => fails both.1
      rintro ⟨value, done⟩
      cases done
    · rw [gapless_append, ← judged.returns]
      constructor
      · intro met
        refine ⟨?_, fun passed => absurd passed fails⟩
        rintro raised same
        cases same
        exact met fault rfl
      · rintro ⟨met, _⟩ raised same
        cases same
        exact met fault rfl

theorem Judged.map {result : Except Fault First} {checks : List Check} (judged : Judged caught result checks)
    (f : First → Last) : Judged caught (result >>= fun value => .ok (f value)) checks := by
  rw [← List.append_nil checks]
  apply judged.bind
  intro value _
  exact judged_ok (f value)

theorem judged_mapM {f : First → Except Fault Last} {checks : First → List Check}
    (judged : ∀ item, Judged caught (f item) (checks item)) (items : List First) :
    Judged caught (items.mapM f) (items.flatMap checks) := by
  induction items with
  | nil => exact judged_ok []
  | cons item items ih =>
    rw [List.mapM_cons, List.flatMap_cons]
    exact (judged item).bind fun first _ => ih.map fun others => first :: others

end Judged

section Run

variable {Fault State : Type} {First Last : Type} {caught : Fault → Bool}

def JudgedRun (caught : Fault → Bool) (action : Attempt Fault State First) (checks : List Check) : Prop :=
  ∀ state, Judged caught (action.run state).1 checks

theorem judgedRun_pure (value : First) : JudgedRun caught (pure value : Attempt Fault State First) [] :=
  fun _ => judged_ok value

theorem judgedRun_modify (f : State → State) : JudgedRun caught (modify f : Attempt Fault State PUnit) [] :=
  fun _ => judged_ok PUnit.unit

theorem judgedRun_check {result : Except Fault First} {checks : List Check} (judged : Judged caught result checks) :
    JudgedRun caught (check result : Attempt Fault State First) checks := fun _ => judged

theorem JudgedRun.bind {first : Attempt Fault State First} {rest : First → Attempt Fault State Last}
    {checks later : List Check} (judged : JudgedRun caught first checks)
    (next : ∀ value state middle, first.run state = (.ok value, middle) → JudgedRun caught (rest value) later) :
    JudgedRun caught (first >>= rest) (checks ++ later) := by
  intro state
  have split : ((first >>= rest).run state).1 = (first.run state).1 >>= fun value =>
      ((rest value).run (first.run state).2).1 := by
    rw [run_bind]
    split <;> rename_i ran <;> rw [ran] <;> rfl
  rw [split]
  apply (judged state).bind
  intro value ended
  exact next value state _ (Prod.ext ended rfl) _

end Run

end Library

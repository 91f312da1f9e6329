import XYAnnotation.Labels.RoundTrip

namespace XYAnnotation

open Library

def LabelCall.changes : LabelCall → List LabelChange
  | .change made => [made]
  | .fromJsonArray json =>
    (LabelManager.items json).map fun item => .addLabel item.label item.color item.visible item.id

namespace LabelManager

variable {m next : LabelManager}

def UniqueIds (m : LabelManager) : Prop :=
  ∀ (a b : String) (p q : LabelProperty), m.labels[a]? = some p → m.labels[b]? = some q → p.id = q.id → a = b

/-- A label that is added with an id of its own finds no other label with that id. -/
def TakesFreeId (m : LabelManager) : LabelChange → Prop
  | .addLabel label _ _ id =>
    id = -1 ∨ ∀ (other : String) (p : LabelProperty), m.labels[other]? = some p → other ≠ label → p.id ≠ id
  | _ => True

def step (m : LabelManager) (made : LabelChange) : Except Fault LabelManager := .ok (m.after made)

theorem afterCall_eq (m : LabelManager) (call : LabelCall) : m.afterCall call = call.changes.foldl after m := by
  cases call with
  | change made => rfl
  | fromJsonArray json =>
    rw [LabelCall.changes, List.foldl_map]
    rfl

theorem calls_eq (m : LabelManager) (calls : List LabelCall) :
    calls.foldl afterCall m = (calls.flatMap LabelCall.changes).foldl after m := by
  induction calls generalizing m with
  | nil => rfl
  | cons call calls ih => rw [List.foldl_cons, List.flatMap_cons, List.foldl_append, ih, afterCall_eq]

theorem mem_visited (m : LabelManager) (first second : List LabelChange) :
    first.foldl after m ∈ visited step m (first ++ second) := by
  induction first generalizing m with
  | nil => exact visited_head step m second
  | cons made first ih => exact List.mem_cons_of_mem _ (ih (m.after made))

theorem UniqueIds.of_kept (unique : m.UniqueIds)
    (kept : ∀ (label : String) (p : LabelProperty), next.labels[label]? = some p →
      ∃ before, m.labels[label]? = some before ∧ before.id = p.id) : next.UniqueIds := by
  intro a b p q here there same
  obtain ⟨before, found, id⟩ := kept a p here
  obtain ⟨before', found', id'⟩ := kept b q there
  exact unique a b before before' found found' (by rw [id, id', same])

theorem UniqueIds.setMember (unique : m.UniqueIds) {label : String} {has : LabelProperty → Bool}
    {set : LabelProperty → LabelProperty} (done : m.setMember label has set = .ok next)
    (ids : ∀ p, (set p).id = p.id) : next.UniqueIds := by
  apply unique.of_kept
  intro other p found
  rcases setMember_entry done found with old | ⟨rfl, before, here, rfl⟩
  · exact ⟨p, old, rfl⟩
  · exact ⟨before, here, (ids before).symm⟩

theorem UniqueIds.removeLabel (unique : m.UniqueIds) (label : String) : (m.removeLabel label).UniqueIds := by
  apply unique.of_kept
  intro other p found
  rw [LabelManager.removeLabel, Std.TreeMap.getElem?_erase] at found
  split at found
  · cases found
  · exact ⟨p, found, rfl⟩

theorem addLabel_unique_iff (sound : m.Sound) (unique : m.UniqueIds) (label : String) (color : QColor) (visible : Bool)
    (id : ℤ) : (m.addLabel label color visible id).UniqueIds ↔ m.TakesFreeId (.addLabel label color visible id) := by
  have stored := addLabel_getElem? sound label color visible id
  constructor
  · intro after
    by_cases new : id = -1
    · exact .inl new
    · right
      intro other p found different same
      have own : m.givenId id = id := if_neg new
      apply different
      apply after other label p _ _ ((stored label).trans (if_pos rfl))
      · rw [same]
        exact own.symm
      · rw [stored, if_neg (Ne.symm different)]
        exact found
  · intro free
    -- No label but the new one has the id it is given.
    have apart : ∀ (other : String) (p : LabelProperty), m.labels[other]? = some p → other ≠ label →
        p.id ≠ m.givenId id := by
      intro other p found different
      rcases free with rfl | free
      · have bounded := (sound.entry other p found).bounded
        have given : m.givenId (-1) = m.currentMaxId + 1 := rfl
        omega
      · unfold givenId
        split
        · have bounded := (sound.entry other p found).bounded
          omega
        · exact free other p found different
    intro a b p q here there same
    rw [stored] at here there
    split at here <;> split at there
    · rename_i first second
      exact first.symm.trans second
    · rename_i first second
      cases here
      exact absurd same.symm (apart b q there (Ne.symm second))
    · rename_i first second
      cases there
      exact absurd same (apart a p here (Ne.symm first))
    · exact unique a b p q here there same

theorem after_unique_iff (sound : m.Sound) (unique : m.UniqueIds) (made : LabelChange) :
    (m.after made).UniqueIds ↔ m.TakesFreeId made := by
  cases made with
  | addLabel label color visible id => exact addLabel_unique_iff sound unique label color visible id
  | removeLabel label => exact iff_of_true (unique.removeLabel label) trivial
  | setColor label color =>
    refine iff_of_true (after_of ?_ unique) trivial
    intro next done
    rw [change, setColor] at done
    exact unique.setMember done fun _ => rfl
  | setVisible label visible =>
    refine iff_of_true (after_of ?_ unique) trivial
    intro next done
    rw [change, setVisible] at done
    exact unique.setMember done fun _ => rfl
  | allClear =>
    refine iff_of_true ?_ trivial
    intro a b p q found
    simp [after, change, allClear, empty] at found

/-- No two labels share an id in any state of a run, those inside a load included, exactly when every label that is
    added with an id of its own finds that id free. The states between two calls are among them. -/
theorem label_ids_unique_iff (calls : List LabelCall) :
    ((∀ reached ∈ visited step empty (calls.flatMap LabelCall.changes), reached.UniqueIds) ↔
      Along step TakesFreeId empty (calls.flatMap LabelCall.changes)) ∧
    ∀ before later, calls = before ++ later →
      before.foldl afterCall empty ∈ visited step empty (calls.flatMap LabelCall.changes) := by
  constructor
  · have none : empty.UniqueIds := by
      intro a b p q found
      simp [empty] at found
    refine visited_invariant_iff Sound ?_ Sound.empty none
    intro m made next sound unique done
    obtain rfl : m.after made = next := Except.ok.inj done
    exact ⟨sound.after made, after_unique_iff sound unique made⟩
  · rintro before later rfl
    rw [calls_eq, List.flatMap_append]
    exact mem_visited empty _ _

def catAndDog : LabelManager :=
  empty.afterCall (.fromJsonArray [.obj [("label", .str "cat")], .obj [("label", .str "dog"), ("id", .int 1)]])

theorem loaded_ids_shared :
    catAndDog.labels.toList.map (fun entry => (entry.1, entry.2.id)) = [("cat", 1), ("dog", 1)] ∧
      ¬ catAndDog.UniqueIds := by
  refine ⟨by decide +kernel, ?_⟩
  intro unique
  have cat : (catAndDog.labels["cat"]?).map LabelProperty.id = some 1 := by decide +kernel
  have dog : (catAndDog.labels["dog"]?).map LabelProperty.id = some 1 := by decide +kernel
  obtain ⟨p, here, id⟩ := Option.map_eq_some_iff.mp cat
  obtain ⟨q, there, id'⟩ := Option.map_eq_some_iff.mp dog
  exact absurd (unique "cat" "dog" p q here there (id.trans id'.symm)) (by decide)

end LabelManager

end XYAnnotation

import XYAnnotation.Labels.Manager

namespace XYAnnotation

namespace LabelProperty

def Initial (p : LabelProperty) : Prop := p.groupId = 0 ∧ p.description = "description"

theorem assign_make {p : LabelProperty} (initial : p.Initial) (label : String) (color : QColor) (visible : Bool) (id : ℤ) :
    p.assign (.make label color visible id) = .make label color visible id := by
  obtain ⟨group, description⟩ := initial
  rw [assign, make, group, description]

theorem ofInts_bytes (color : QColor) :
    QColor.ofInts color.red.toNat color.green.toNat color.blue.toNat = color := by
  have red := color.red.toNat_lt
  have green := color.green.toNat_lt
  have blue := color.blue.toNat_lt
  rw [QColor.ofInts, if_pos ⟨by omega, by omega, by omega⟩]
  simp

theorem item?_toJsonObject (p : LabelProperty) :
    LabelManager.item? p.toJsonObject = some (.make p.label p.color p.visible p.id) := by
  have read : (.make p.label (QColor.ofInts (truncate (p.color.red.toNat : ℤ)) (truncate (p.color.green.toNat : ℤ))
      (truncate (p.color.blue.toNat : ℤ))) p.visible (truncate p.id) : LabelProperty) =
      .make p.label p.color p.visible p.id := by
    rw [truncate_intCast, truncate_intCast, truncate_intCast, truncate_intCast, ofInts_bytes]
  exact congrArg some read

end LabelProperty

namespace LabelManager

variable {m : LabelManager}

/-- An entry as `addLabel` makes it, with an id up to the maximum. -/
structure Fits (maxId : ℤ) (label : String) (p : LabelProperty) : Prop where
  made : p = .make label p.color p.visible p.id
  assigned : p.id ≠ -1
  bounded : p.id ≤ maxId

/-- What holds of every manager that a program can make. -/
structure Sound (m : LabelManager) : Prop where
  entry : ∀ (label : String) (p : LabelProperty), m.labels[label]? = some p → Fits m.currentMaxId label p
  nonneg : 0 ≤ m.currentMaxId

def givenId (m : LabelManager) (id : ℤ) : ℤ := if id = -1 then m.currentMaxId + 1 else id

theorem addLabel_eq (m : LabelManager) (label : String) (color : QColor) (visible : Bool) (id : ℤ) :
    m.addLabel label color visible id = store { m with currentMaxId := max (m.givenId id) m.currentMaxId } label
      (.make label color visible (m.givenId id)) := by
  unfold addLabel givenId
  split
  · rw [max_eq_left (by omega)]
  · rfl

theorem addLabel_currentMaxId (m : LabelManager) (label : String) (color : QColor) (visible : Bool) (id : ℤ) :
    (m.addLabel label color visible id).currentMaxId = max (m.givenId id) m.currentMaxId := by
  rw [addLabel_eq]
  rfl

theorem addLabel_getElem? (sound : m.Sound) (label : String) (color : QColor) (visible : Bool) (id : ℤ) (other : String) :
    (m.addLabel label color visible id).labels[other]? =
      if label = other then some (.make label color visible (m.givenId id)) else m.labels[other]? := by
  have initial : (m.labels.getD label .default).Initial := by
    rw [Std.TreeMap.getD_eq_getD_getElem?]
    cases found : m.labels[label]? with
    | none => exact ⟨rfl, rfl⟩
    | some p =>
      rw [Option.getD_some, (sound.entry label p found).made]
      exact ⟨rfl, rfl⟩
  rw [addLabel_eq, store]
  simp only
  rw [Std.TreeMap.getElem?_insert, LabelProperty.assign_make initial]
  simp only [Std.LawfulEqCmp.compare_eq_iff_eq]

theorem setMember_entry {label : String} {has : LabelProperty → Bool} {set : LabelProperty → LabelProperty}
    {next : LabelManager} (done : m.setMember label has set = .ok next) {other : String} {p : LabelProperty}
    (found : next.labels[other]? = some p) :
    m.labels[other]? = some p ∨ other = label ∧ ∃ before, m.labels[label]? = some before ∧ p = set before := by
  obtain ⟨_, _, done⟩ := Library.bind_completes done
  split at done
  · cases done
    rw [Std.TreeMap.getElem?_modify] at found
    split at found
    · rename_i same
      obtain ⟨before, here, rfl⟩ := Option.map_eq_some_iff.mp found
      exact .inr ⟨(Std.LawfulEqCmp.eq_of_compare same).symm, before, here, rfl⟩
    · exact .inl found
  · cases done
    exact .inl found

theorem setMember_currentMaxId {label : String} {has : LabelProperty → Bool} {set : LabelProperty → LabelProperty}
    {next : LabelManager} (done : m.setMember label has set = .ok next) : next.currentMaxId = m.currentMaxId := by
  obtain ⟨_, _, done⟩ := Library.bind_completes done
  split at done
  · cases done
    rfl
  · cases done
    rfl

theorem after_of {P : LabelManager → Prop} {made : LabelChange} (done : ∀ next, m.change made = .ok next → P next)
    (failed : P m) : P (m.after made) := by
  unfold after
  split
  · exact done _ ‹_›
  · exact failed

theorem Fits.weaken {low high : ℤ} {label : String} {p : LabelProperty} (fits : Fits low label p) (le : low ≤ high) :
    Fits high label p := ⟨fits.made, fits.assigned, fits.bounded.trans le⟩

namespace Sound

theorem empty : LabelManager.empty.Sound := ⟨fun label p found => by simp [LabelManager.empty] at found, Int.le_refl 0⟩

theorem givenId_ne (sound : m.Sound) (id : ℤ) : m.givenId id ≠ -1 := by
  have nonneg := sound.nonneg
  unfold givenId
  split <;> omega

theorem addLabel (sound : m.Sound) (label : String) (color : QColor) (visible : Bool) (id : ℤ) :
    (m.addLabel label color visible id).Sound := by
  constructor
  · intro other p found
    rw [addLabel_getElem? sound] at found
    rw [addLabel_currentMaxId]
    split at found
    · rename_i same
      subst same
      cases found
      exact ⟨rfl, sound.givenId_ne id, le_max_left _ _⟩
    · exact (sound.entry other p found).weaken (le_max_right _ _)
  · rw [addLabel_currentMaxId]
    exact sound.nonneg.trans (le_max_right _ _)

theorem removeLabel (sound : m.Sound) (label : String) : (m.removeLabel label).Sound := by
  refine ⟨?_, sound.nonneg⟩
  intro other p found
  rw [LabelManager.removeLabel, Std.TreeMap.getElem?_erase] at found
  split at found
  · cases found
  · exact sound.entry other p found

theorem setMember (sound : m.Sound) {label : String} {has : LabelProperty → Bool} {set : LabelProperty → LabelProperty}
    {next : LabelManager} (done : m.setMember label has set = .ok next)
    (keeps : ∀ (color : QColor) (visible : Bool) (id : ℤ), ∃ color' visible',
      set (.make label color visible id) = .make label color' visible' id) : next.Sound := by
  have maxId := setMember_currentMaxId done
  constructor
  · intro other p found
    rw [maxId]
    rcases setMember_entry done found with old | ⟨rfl, before, here, rfl⟩
    · exact sound.entry other p old
    · have fits := sound.entry other before here
      obtain ⟨color, visible, changed⟩ := keeps before.color before.visible before.id
      rw [← fits.made] at changed
      rw [changed]
      exact ⟨rfl, fits.assigned, fits.bounded⟩
  · rw [maxId]
    exact sound.nonneg

theorem setColor (sound : m.Sound) {label : String} {color : QColor} {next : LabelManager}
    (done : m.setColor label color = .ok next) : next.Sound :=
  sound.setMember done fun _ visible _ => ⟨color, visible, rfl⟩

theorem setVisible (sound : m.Sound) {label : String} {visible : Bool} {next : LabelManager}
    (done : m.setVisible label visible = .ok next) : next.Sound :=
  sound.setMember done fun color _ _ => ⟨color, visible, rfl⟩

theorem fromJsonArray (sound : m.Sound) (json : List Json) : (m.fromJsonArray json).Sound := by
  unfold LabelManager.fromJsonArray
  generalize items json = entries
  induction entries generalizing m with
  | nil => exact sound
  | cons item entries ih => exact ih (sound.addLabel item.label item.color item.visible item.id)

theorem after (sound : m.Sound) (made : LabelChange) : (m.after made).Sound := by
  refine after_of ?_ sound
  intro next done
  cases made with
  | addLabel label color visible id =>
    cases done
    exact sound.addLabel label color visible id
  | removeLabel label =>
    cases done
    exact sound.removeLabel label
  | setColor label color => exact sound.setColor done
  | setVisible label visible => exact sound.setVisible done
  | allClear =>
    cases done
    exact empty

theorem afterCall (sound : m.Sound) (call : LabelCall) : (m.afterCall call).Sound := by
  cases call with
  | change made => exact sound.after made
  | fromJsonArray json => exact sound.fromJsonArray json

theorem reached (sound : m.Sound) (calls : List LabelCall) : (calls.foldl LabelManager.afterCall m).Sound := by
  induction calls generalizing m with
  | nil => exact sound
  | cons call calls ih => exact ih (sound.afterCall call)

end Sound

theorem items_toJsonArray (sound : m.Sound) : items m.toJsonArray = m.labels.toList.map Prod.snd := by
  have each : ∀ entry ∈ m.labels.toList, item? entry.2.toJsonObject = some entry.2 := by
    intro entry member
    have found := Std.TreeMap.mem_toList_iff_getElem?_eq_some.mp member
    have made := (sound.entry _ _ found).made
    rw [LabelProperty.item?_toJsonObject, made]
    rfl
  rw [items, toJsonArray, List.filterMap_map, ← List.filterMap_eq_map]
  exact List.filterMap_congr each

theorem load_entries (sound : m.Sound) {entries : List (String × LabelProperty)} {maxId : ℤ}
    (fits : ∀ entry ∈ entries, Fits maxId entry.1 entry.2) (distinct : entries.Pairwise fun a b => a.1 ≠ b.1)
    (label : String) (p : LabelProperty) :
    ((entries.map Prod.snd).foldl (fun m item => m.addLabel item.label item.color item.visible item.id) m).labels[label]? =
      some p ↔ (label, p) ∈ entries ∨ (∀ entry ∈ entries, entry.1 ≠ label) ∧ m.labels[label]? = some p := by
  induction entries generalizing m with
  | nil => simp
  | cons entry entries ih =>
    obtain ⟨key, value⟩ := entry
    have here : Fits maxId key value := fits (key, value) List.mem_cons_self
    have own : m.givenId value.id = value.id := if_neg here.assigned
    have named : value.label = key := congrArg LabelProperty.label here.made
    have stored : LabelProperty.make key value.color value.visible value.id = value := here.made.symm
    obtain ⟨apart, rest⟩ := List.pairwise_cons.mp distinct
    rw [List.map_cons, List.foldl_cons, ih (sound.addLabel _ _ _ _)
      (fun entry member => fits entry (List.mem_cons_of_mem _ member)) rest, addLabel_getElem? sound, own, named, stored]
    simp only [List.mem_cons, Prod.mk.injEq, forall_eq_or_imp]
    by_cases same : key = label
    · subst same
      have absent : (key, p) ∉ entries := fun member => apart (key, p) member rfl
      have others : ∀ entry ∈ entries, entry.1 ≠ key := fun entry member => (apart entry member).symm
      simp only [absent, if_true, Option.some.injEq, ne_eq, not_true_eq_false, false_and, or_false, true_and, false_or]
      exact ⟨fun found => found.2.symm, fun found => ⟨others, found.symm⟩⟩
    · rw [if_neg same]
      have different : ¬ (label = key ∧ p = value) := fun both => same both.1.symm
      simp only [different, false_or, ne_eq, same, not_false_eq_true, true_and]

def reloaded (m : LabelManager) : LabelManager := empty.fromJsonArray m.toJsonArray

theorem reloaded_getElem? (sound : m.Sound) (label : String) : m.reloaded.labels[label]? = m.labels[label]? := by
  have fits : ∀ entry ∈ m.labels.toList, Fits m.currentMaxId entry.1 entry.2 := by
    intro entry member
    exact sound.entry _ _ (Std.TreeMap.mem_toList_iff_getElem?_eq_some.mp member)
  have distinct : m.labels.toList.Pairwise fun a b => a.1 ≠ b.1 := by
    apply List.Pairwise.imp _ m.labels.distinct_keys_toList
    intro a b apart same
    apply apart
    rw [same]
    exact Std.ReflCmp.compare_self
  apply Option.ext
  intro p
  have loads := load_entries Sound.empty fits distinct label p
  rw [← items_toJsonArray sound] at loads
  refine loads.trans (Iff.trans ⟨?_, .inl⟩ Std.TreeMap.mem_toList_iff_getElem?_eq_some)
  rintro (member | ⟨_, absent⟩)
  · exact member
  · simp [empty] at absent

/-- A label without an id gets one above all others. -/
theorem addLabel_new (sound : m.Sound) (label : String) (color : QColor) (visible : Bool) :
    ∃ added, (m.addLabel label color visible (-1)).labels[label]? = some added ∧
      ∀ (other : String) (p : LabelProperty), m.labels[other]? = some p → p.id ≠ added.id := by
  refine ⟨.make label color visible (m.currentMaxId + 1), ?_, ?_⟩
  · rw [addLabel_getElem? sound, if_pos rfl]
    rfl
  · intro other p found same
    have bounded := (sound.entry other p found).bounded
    have new : p.id = m.currentMaxId + 1 := same
    omega

/-- A manager that any calls lead to comes back from its own file, and the next label without an id gets a new one. -/
theorem label_table_round_trip (calls : List LabelCall) :
    (∀ label : String,
      (calls.foldl afterCall empty).reloaded.labels[label]? = (calls.foldl afterCall empty).labels[label]?) ∧
    ∀ (label : String) (color : QColor) (visible : Bool), ∃ added,
      ((calls.foldl afterCall empty).reloaded.addLabel label color visible (-1)).labels[label]? = some added ∧
        ∀ (other : String) (p : LabelProperty),
          (calls.foldl afterCall empty).reloaded.labels[other]? = some p → p.id ≠ added.id := by
  have sound := Sound.empty.reached calls
  exact ⟨reloaded_getElem? sound, addLabel_new (Sound.empty.fromJsonArray _)⟩

end LabelManager

end XYAnnotation

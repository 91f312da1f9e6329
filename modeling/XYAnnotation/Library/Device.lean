import XYAnnotation.Library.Loops

namespace Library

/-- A device to draw on: the context that the next item is made under, the contexts that were saved, and the items. -/
structure Device (Context Item : Type) where
  context : Context
  saved : List Context
  drawn : List Item

/-- Programs for a device. A fault leaves the device as it is at that moment. -/
abbrev Drawing (Context Item Fault : Type) := ExceptT Fault (StateM (Device Context Item))

variable {Context Item Fault Input Result : Type}

namespace Drawing

def change (f : Context → Context) : Drawing Context Item Fault Unit :=
  modify fun d => { d with context := f d.context }

def save : Drawing Context Item Fault Unit := modify fun d => { d with saved := d.context :: d.saved }

def restore : Drawing Context Item Fault Unit := modify fun d =>
  match d.saved with
  | [] => d
  | context :: saved => { d with context, saved }

def put (item : Context → Item) : Drawing Context Item Fault Unit :=
  modify fun d => { d with drawn := d.drawn ++ [item d.context] }

def read (value : Except Fault Result) : Drawing Context Item Fault Result := ExceptT.mk (pure value)

def catching (m : Drawing Context Item Fault Unit) (handler : Fault → Drawing Context Item Fault Unit) :
    Drawing Context Item Fault Unit := tryCatch m handler

def runOn (m : Drawing Context Item Fault Result) (d : Device Context Item) :
    Except Fault Result × Device Context Item := m.run.run d

end Drawing

/-- What a program that returns does to a device: the context it leaves, and the items it puts down. -/
@[ext] structure Effect (Context Item : Type) where
  leaves : Context → Context
  items : Context → List Item

namespace Effect

def none : Effect Context Item := ⟨fun context => context, fun _ => []⟩

def change (f : Context → Context) : Effect Context Item := ⟨f, fun _ => []⟩

def put (item : Context → Item) : Effect Context Item := ⟨fun context => context, fun context => [item context]⟩

def andThen (first second : Effect Context Item) : Effect Context Item where
  leaves context := second.leaves (first.leaves context)
  items context := first.items context ++ second.items (first.leaves context)

def enclosed (e : Effect Context Item) : Effect Context Item := ⟨fun context => context, e.items⟩

def all : List (Effect Context Item) → Effect Context Item
  | [] => none
  | e :: es => e.andThen (all es)

def on (e : Effect Context Item) (d : Device Context Item) : Device Context Item :=
  ⟨e.leaves d.context, d.saved, d.drawn ++ e.items d.context⟩

def Steady (e : Effect Context Item) : Prop := ∀ context other, (e.items context).length = (e.items other).length

theorem all_put (items : List (Context → Item)) :
    all (items.map put) = ⟨fun context => context, fun context => items.map fun item => item context⟩ := by
  induction items with
  | nil => rfl
  | cons item items ih =>
    rw [List.map_cons, all, put, ih]
    rfl

/-- When some programs spoil the context and some show it, drawn one after the other they put down what each puts down
    on its own exactly when none that shows the context comes after one that spoils it. -/
theorem all_eq_apart_iff {effect : Input → Effect Context Item} {start : Context} {Clean : Context → Prop}
    {Spoils Shows : Input → Prop} {inputs : List Input} (steady : ∀ input ∈ inputs, (effect input).Steady)
    (leaves : ∀ input ∈ inputs, ∀ context, Clean ((effect input).leaves context) ↔ Clean context ∧ ¬ Spoils input)
    (items : ∀ input ∈ inputs, ∀ context,
      (effect input).items context = (effect input).items start ↔ (Shows input → Clean context))
    (context : Context) :
    (all (inputs.map effect)).items context = (inputs.flatMap fun input => (effect input).items start) ↔
      (¬ Clean context → ∀ input ∈ inputs, ¬ Shows input) ∧
        inputs.Pairwise fun earlier later => Spoils earlier → ¬ Shows later := by
  induction inputs generalizing context with
  | nil => simp [all, none]
  | cons input inputs ih =>
    rw [List.forall_mem_cons] at steady leaves items
    have tail := ih steady.2 leaves.2 items.2 ((effect input).leaves context)
    have parts : (all ((input :: inputs).map effect)).items context =
        ((input :: inputs).flatMap fun input => (effect input).items start) ↔
        (effect input).items context = (effect input).items start ∧
          (all (inputs.map effect)).items ((effect input).leaves context) =
            inputs.flatMap fun input => (effect input).items start := by
      rw [List.map_cons, all, andThen, List.flatMap_cons]
      constructor
      · exact fun same => List.append_inj same (steady.1 context start)
      · rintro ⟨head, rest⟩
        simp only
        rw [head, rest]
    rw [parts, items.1, tail, leaves.1, List.forall_mem_cons, List.pairwise_cons]
    by_cases clean : Clean context
    · by_cases spoils : Spoils input <;> simp [clean, spoils]
    · by_cases spoils : Spoils input <;> simp [clean, spoils]
      all_goals tauto

end Effect

namespace Drawing

/-- The program returns, with this effect and with the contexts that were saved as they were. -/
def Paints (m : Drawing Context Item Fault Unit) (e : Effect Context Item) : Prop :=
  ∀ d, m.runOn d = (.ok (), e.on d)

def Fails (m : Drawing Context Item Fault Unit) (fault : Fault) : Prop := ∀ d, (m.runOn d).1 = .error fault

variable {m n : Drawing Context Item Fault Unit} {e f : Effect Context Item}

theorem runOn_bind {first : Drawing Context Item Fault Input} {rest : Input → Drawing Context Item Fault Result}
    (d : Device Context Item) : (first >>= rest).runOn d = match first.runOn d with
      | (.ok value, d) => (rest value).runOn d
      | (.error fault, d) => (.error fault, d) := by
  change (ExceptT.bindCont rest (first.run.run d).1).run (first.run.run d).2 = _
  unfold runOn
  rcases first.run.run d with ⟨result, last⟩
  cases result <;> rfl

theorem read_bind {value : Input} {rest : Input → Drawing Context Item Fault Result} :
    (read (.ok value) >>= rest) = rest value := rfl

theorem Paints.pure : Paints (Pure.pure () : Drawing Context Item Fault Unit) Effect.none := by
  intro d
  rw [Effect.on, Effect.none, List.append_nil]
  rfl

theorem change_paints (f : Context → Context) : Paints (change f : Drawing Context Item Fault Unit) (.change f) := by
  intro d
  rw [Effect.on, Effect.change, List.append_nil]
  rfl

theorem put_paints (item : Context → Item) : Paints (put item : Drawing Context Item Fault Unit) (.put item) :=
  fun _ => rfl

theorem Paints.bind (first : Paints m e) (second : Paints n f) : Paints (m >>= fun _ => n) (e.andThen f) := by
  intro d
  rw [runOn_bind, first]
  simp only
  rw [second]
  simp only [Effect.on, Effect.andThen, List.append_assoc]

theorem Paints.enclosed (paints : Paints m e) : Paints (save >>= fun _ => m >>= fun _ => restore) e.enclosed := by
  intro d
  rw [runOn_bind]
  change (m >>= fun _ => restore).runOn { d with saved := d.context :: d.saved } = _
  rw [runOn_bind, paints]
  rfl

theorem Paints.enclosed_then (paints : Paints m e) (rest : Paints n f) :
    Paints (save >>= fun _ => m >>= fun _ => restore >>= fun _ => n) (e.enclosed.andThen f) := by
  intro d
  rw [runOn_bind]
  change (m >>= fun _ => restore >>= fun _ => n).runOn { d with saved := d.context :: d.saved } = _
  rw [runOn_bind, paints]
  change n.runOn ⟨d.context, d.saved, d.drawn ++ e.items d.context⟩ = _
  rw [rest]
  simp only [Effect.on, Effect.andThen, Effect.enclosed, List.append_assoc]

theorem Paints.congr (paints : Paints m e) (leaves : ∀ context, e.leaves context = f.leaves context)
    (items : ∀ context, e.items context = f.items context) : Paints m f := by
  intro d
  rw [paints d, Effect.on, leaves, items]
  rfl

theorem Paints.forM {body : Input → Drawing Context Item Fault Unit} {effect : Input → Effect Context Item}
    {inputs : List Input} (paints : ∀ input ∈ inputs, Paints (body input) (effect input)) :
    Paints (inputs.forM body) (.all (inputs.map effect)) := by
  induction inputs with
  | nil => exact Paints.pure
  | cons input inputs ih =>
    have rest : ∀ input ∈ inputs, Paints (body input) (effect input) :=
      fun input member => paints input (List.mem_cons_of_mem _ member)
    exact (paints input List.mem_cons_self).bind (ih rest)

theorem Paints.forM_read {reading : Input → Except Fault Result} {body : Input → Drawing Context Item Fault Unit}
    {effect : Result → Effect Context Item} {inputs : List Input} {results : List Result}
    (paints : ∀ input result, reading input = .ok result → Paints (body input) (effect result))
    (readings : inputs.mapM reading = .ok results) : Paints (inputs.forM body) (.all (results.map effect)) := by
  induction inputs generalizing results with
  | nil =>
    cases readings
    exact Paints.pure
  | cons input inputs ih =>
    rw [List.mapM_cons] at readings
    obtain ⟨first, head, rest⟩ := bind_completes readings
    obtain ⟨others, tail, rest⟩ := bind_completes rest
    cases rest
    exact (paints input first head).bind (ih tail)

theorem Fails.bind {rest : Unit → Drawing Context Item Fault Unit} {fault : Fault} (fails : Fails m fault) :
    Fails (m >>= rest) fault := by
  intro d
  rw [runOn_bind]
  have failed := fails d
  rcases result : m.runOn d with ⟨value, last⟩
  rw [result] at failed
  obtain rfl : value = .error fault := failed
  rfl

theorem Paints.then_fails {fault : Fault} (paints : Paints m e) (fails : Fails n fault) :
    Fails (m >>= fun _ => n) fault := by
  intro d
  rw [runOn_bind, paints]
  exact fails _

theorem read_fails {rest : Input → Drawing Context Item Fault Unit} (fault : Fault) :
    Fails (read (.error fault) >>= rest) fault := fun _ => rfl

theorem runOn_catching {handler : Fault → Drawing Context Item Fault Unit} (d : Device Context Item) :
    (catching m handler).runOn d = match m.runOn d with
      | (.ok value, d) => (.ok value, d)
      | (.error fault, d) => (handler fault).runOn d := by
  unfold runOn catching ExceptT.run
  simp only [tryCatch, tryCatchThe, MonadExceptOf.tryCatch, ExceptT.tryCatch, ExceptT.mk, StateT.run_bind]
  rcases StateT.run m d with ⟨result, last⟩
  cases result <;> rfl

theorem Paints.catching (paints : Paints m e) (handler : Fault → Drawing Context Item Fault Unit) :
    Paints (catching m handler) e := by
  intro d
  rw [runOn_catching, paints]

theorem Fails.catching {fault : Fault} (fails : Fails m fault) {handler : Fault → Drawing Context Item Fault Unit}
    (rethrown : Fails (handler fault) fault) : Fails (Drawing.catching m handler) fault := by
  intro d
  have failed := fails d
  rw [runOn_catching]
  rcases result : m.runOn d with ⟨value, last⟩
  rw [result] at failed
  obtain rfl : value = .error fault := failed
  exact rethrown last

theorem Fails.forM_read {reading : Input → Except Fault Result} {body : Input → Drawing Context Item Fault Unit}
    {inputs : List Input} {fault : Fault}
    (paints : ∀ input result, reading input = .ok result → ∃ e, Paints (body input) e)
    (fails : ∀ input fault, reading input = .error fault → Fails (body input) fault)
    (readings : inputs.mapM reading = .error fault) : Fails (inputs.forM body) fault := by
  induction inputs with
  | nil => cases readings
  | cons input inputs ih =>
    rw [List.mapM_cons] at readings
    cases head : reading input with
    | error other =>
      rw [head] at readings
      obtain rfl := Except.error.inj readings
      exact (fails input other head).bind
    | ok result =>
      obtain ⟨e, first⟩ := paints input result head
      apply first.then_fails
      apply ih
      rw [head] at readings
      cases tail : inputs.mapM reading with
      | error other =>
        rw [tail] at readings
        exact readings
      | ok others =>
        rw [tail] at readings
        cases readings

end Drawing

end Library

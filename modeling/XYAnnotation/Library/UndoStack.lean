import XYAnnotation.Library.Runs

namespace Library

universe u

/-- A command history with an index: `done` lies below it, the latest command first, and
    `undone` from it on, the next command to redo first. -/
structure UndoStack (Command : Type*) where
  done : List Command
  undone : List Command
  deriving DecidableEq

/-- What a command class implements. Both methods may rewrite what the command has recorded. -/
structure Methods (State Command : Type u) (Fault : Type*) where
  redo : Command → State → Except Fault (Command × State)
  undo : Command → State → Except Fault (Command × State)

namespace UndoStack

variable {State Command : Type u} {Fault : Type*}

def empty : UndoStack Command := ⟨[], []⟩

variable (methods : Methods State Command Fault)

def push (stack : UndoStack Command) (command : Command) (state : State) :
    Except Fault (UndoStack Command × State) := do
  let (command, state) ← methods.redo command state
  .ok (⟨command :: stack.done, []⟩, state)

def undo (stack : UndoStack Command) (state : State) : Except Fault (UndoStack Command × State) :=
  match stack.done with
  | [] => .ok (stack, state)
  | command :: done => do
    let (command, state) ← methods.undo command state
    .ok (⟨done, command :: stack.undone⟩, state)

def redo (stack : UndoStack Command) (state : State) : Except Fault (UndoStack Command × State) :=
  match stack.undone with
  | [] => .ok (stack, state)
  | command :: undone => do
    let (command, state) ← methods.redo command state
    .ok (⟨command :: stack.done, undone⟩, state)

def replay (state : State) : List Command → Except Fault State
  | [] => .ok state
  | command :: commands => do
    let (_, state) ← methods.redo command state
    replay state commands

section Inversion

variable {methods} {stack next : UndoStack Command} {state result : State}

theorem push_completes {command : Command}
    (pushed : stack.push methods command state = .ok (next, result)) :
    ∃ recorded, methods.redo command state = .ok (recorded, result) ∧
      next = ⟨recorded :: stack.done, []⟩ := by
  obtain ⟨⟨recorded, _⟩, redone, rest⟩ := bind_completes pushed
  cases rest
  exact ⟨recorded, redone, rfl⟩

theorem undo_completes (undone : stack.undo methods state = .ok (next, result)) :
    stack.done = [] ∧ next = stack ∧ result = state ∨
      ∃ command done recorded, stack.done = command :: done ∧
        methods.undo command state = .ok (recorded, result) ∧
        next = ⟨done, recorded :: stack.undone⟩ := by
  obtain ⟨done, tail⟩ := stack
  cases done with
  | nil =>
    cases undone
    exact .inl ⟨rfl, rfl, rfl⟩
  | cons command done =>
    obtain ⟨⟨recorded, _⟩, called, rest⟩ := bind_completes undone
    cases rest
    exact .inr ⟨command, done, recorded, rfl, called, rfl⟩

theorem redo_completes (redone : stack.redo methods state = .ok (next, result)) :
    stack.undone = [] ∧ next = stack ∧ result = state ∨
      ∃ command undone recorded, stack.undone = command :: undone ∧
        methods.redo command state = .ok (recorded, result) ∧
        next = ⟨recorded :: stack.done, undone⟩ := by
  obtain ⟨done, tail⟩ := stack
  cases tail with
  | nil =>
    cases redone
    exact .inl ⟨rfl, rfl, rfl⟩
  | cons command tail =>
    obtain ⟨⟨recorded, _⟩, called, rest⟩ := bind_completes redone
    cases rest
    exact .inr ⟨command, tail, recorded, rfl, called, rfl⟩

end Inversion

section Unnoticed

variable {methods} {stack : UndoStack Command} {state : State} {change : State → State}

theorem push_unnoticed {command : Command}
    (redo : methods.redo command (change state) = (methods.redo command state).map (Prod.map id change)) :
    stack.push methods command (change state) =
      (stack.push methods command state).map (Prod.map id change) := by
  simp only [push, redo, Bind.bind, Except.bind]
  cases methods.redo command state <;> rfl

theorem undo_unnoticed (undo : ∀ command ∈ stack.done,
      methods.undo command (change state) = (methods.undo command state).map (Prod.map id change)) :
    stack.undo methods (change state) = (stack.undo methods state).map (Prod.map id change) := by
  obtain ⟨done, undone⟩ := stack
  cases done with
  | nil => rfl
  | cons command done =>
    simp only [UndoStack.undo, undo command (by simp), Bind.bind, Except.bind]
    cases methods.undo command state <;> rfl

theorem redo_unnoticed (redo : ∀ command ∈ stack.undone,
      methods.redo command (change state) = (methods.redo command state).map (Prod.map id change)) :
    stack.redo methods (change state) = (stack.redo methods state).map (Prod.map id change) := by
  obtain ⟨done, undone⟩ := stack
  cases undone with
  | nil => rfl
  | cons command undone =>
    simp only [UndoStack.redo, redo command (by simp), Bind.bind, Except.bind]
    cases methods.redo command state <;> rfl

end Unnoticed

end UndoStack

/-- `Takes command before after` says that the command, with what it has recorded, leads from
    one ideal state to another. A state of the program only has to be the `Same` as an ideal
    one: both methods then follow the ideal step in either direction and keep the record fit. -/
structure Reversible {State Command : Type u} {Fault : Type*} (methods : Methods State Command Fault)
    (Same : State → State → Prop) (Takes : Command → State → State → Prop) : Prop where
  refl : ∀ state, Same state state
  redo : ∀ {command before after actual}, Takes command before after → Same before actual →
    ∃ recorded result, methods.redo command actual = .ok (recorded, result) ∧
      Same after result ∧ Takes recorded before after
  undo : ∀ {command before after actual}, Takes command before after → Same after actual →
    ∃ recorded result, methods.undo command actual = .ok (recorded, result) ∧
      Same before result ∧ Takes recorded before after

section History

variable {State Command : Type u} {Fault : Type*} {methods : Methods State Command Fault}
  {Same : State → State → Prop} {Takes : Command → State → State → Prop}

inductive LedBy (Takes : Command → State → State → Prop) (initial : State) : List Command → State → Prop
  | nil : LedBy Takes initial [] initial
  | cons {command commands before after} : LedBy Takes initial commands before →
      Takes command before after → LedBy Takes initial (command :: commands) after

inductive CanTake (Takes : Command → State → State → Prop) : State → List Command → Prop
  | nil {state} : CanTake Takes state []
  | cons {command commands before after} : Takes command before after →
      CanTake Takes after commands → CanTake Takes before (command :: commands)

/-- The program's state is what the commands below the index make of the initial state, and the
    redo tail continues from there. -/
def Tracks (Same : State → State → Prop) (Takes : Command → State → State → Prop)
    (initial : State) (stack : UndoStack Command) (actual : State) : Prop :=
  ∃ ideal, LedBy Takes initial stack.done ideal ∧ Same ideal actual ∧ CanTake Takes ideal stack.undone

theorem Tracks.initial (reversible : Reversible methods Same Takes) (state : State) :
    Tracks Same Takes state UndoStack.empty state :=
  ⟨state, .nil, reversible.refl state, .nil⟩

theorem Tracks.push {initial actual : State} {stack : UndoStack Command} {command : Command}
    (tracks : Tracks Same Takes initial stack actual)
    (executes : ∀ ideal, LedBy Takes initial stack.done ideal → Same ideal actual →
      ∃ recorded result after, methods.redo command actual = .ok (recorded, result) ∧
        Same after result ∧ Takes recorded ideal after) :
    ∃ pushed result, stack.push methods command actual = .ok (pushed, result) ∧
      Tracks Same Takes initial pushed result := by
  obtain ⟨ideal, led, same, _⟩ := tracks
  obtain ⟨recorded, result, after, done, same', takes⟩ := executes ideal led same
  refine ⟨⟨recorded :: stack.done, []⟩, result, ?_, after, .cons led takes, same', .nil⟩
  simp [UndoStack.push, done, Bind.bind, Except.bind]

theorem Tracks.undo {initial actual : State} {stack : UndoStack Command}
    (reversible : Reversible methods Same Takes) (tracks : Tracks Same Takes initial stack actual) :
    ∃ moved result, stack.undo methods actual = .ok (moved, result) ∧
      Tracks Same Takes initial moved result := by
  obtain ⟨ideal, led, same, ahead⟩ := tracks
  obtain ⟨done, undone⟩ := stack
  cases led with
  | nil => exact ⟨⟨[], undone⟩, actual, rfl, initial, .nil, same, ahead⟩
  | cons led takes =>
    obtain ⟨recorded, result, undoes, same', takes'⟩ := reversible.undo takes same
    refine ⟨⟨_, recorded :: undone⟩, result, ?_, _, led, same', .cons takes' ahead⟩
    simp [UndoStack.undo, undoes, Bind.bind, Except.bind]

theorem Tracks.redo {initial actual : State} {stack : UndoStack Command}
    (reversible : Reversible methods Same Takes) (tracks : Tracks Same Takes initial stack actual) :
    ∃ moved result, stack.redo methods actual = .ok (moved, result) ∧
      Tracks Same Takes initial moved result := by
  obtain ⟨ideal, led, same, ahead⟩ := tracks
  obtain ⟨done, undone⟩ := stack
  cases ahead with
  | nil => exact ⟨⟨done, []⟩, actual, rfl, ideal, led, same, .nil⟩
  | cons takes rest =>
    obtain ⟨recorded, result, redoes, same', takes'⟩ := reversible.redo takes same
    refine ⟨⟨recorded :: done, _⟩, result, ?_, _, .cons led takes', same', rest⟩
    simp [UndoStack.redo, redoes, Bind.bind, Except.bind]

theorem replay_append (state : State) (first second : List Command) :
    UndoStack.replay methods state (first ++ second) =
      (UndoStack.replay methods state first >>= fun next => UndoStack.replay methods next second) := by
  induction first generalizing state with
  | nil => rfl
  | cons command first ih =>
    simp only [List.cons_append, UndoStack.replay, Bind.bind, Except.bind]
    cases methods.redo command state with
    | error fault => rfl
    | ok result => exact ih result.2

theorem LedBy.replay (reversible : Reversible methods Same Takes) {initial ideal : State}
    {commands : List Command} (led : LedBy Takes initial commands ideal) :
    ∃ result, UndoStack.replay methods initial commands.reverse = .ok result ∧ Same ideal result := by
  induction led with
  | nil => exact ⟨initial, rfl, reversible.refl initial⟩
  | cons led takes ih =>
    obtain ⟨result, replayed, same⟩ := ih
    obtain ⟨recorded, after, redoes, same', _⟩ := reversible.redo takes same
    refine ⟨after, ?_, same'⟩
    rw [List.reverse_cons, replay_append, replayed]
    simp [UndoStack.replay, redoes, Bind.bind, Except.bind]

/-- Whatever two states that are the `Same` share is a function of the commands below the index. -/
theorem Tracks.replay {Document : Type*} {document : State → Document}
    (reversible : Reversible methods Same Takes)
    (agrees : ∀ {ideal actual}, Same ideal actual → document ideal = document actual)
    {initial actual : State} {stack : UndoStack Command}
    (tracks : Tracks Same Takes initial stack actual) :
    ∃ result, UndoStack.replay methods initial stack.done.reverse = .ok result ∧
      document actual = document result := by
  obtain ⟨ideal, led, same, _⟩ := tracks
  obtain ⟨result, replayed, same'⟩ := led.replay reversible
  exact ⟨result, replayed, (agrees same).symm.trans (agrees same')⟩

section Round

variable {Document : Type*} {document : State → Document}
  (reversible : Reversible methods Same Takes)
  (agrees : ∀ {ideal actual}, Same ideal actual → document ideal = document actual)

include reversible agrees

theorem Tracks.undo_after_push {initial actual : State} {stack : UndoStack Command} {command : Command}
    (tracks : Tracks Same Takes initial stack actual)
    (executes : ∀ ideal, LedBy Takes initial stack.done ideal → Same ideal actual →
      ∃ recorded result after, methods.redo command actual = .ok (recorded, result) ∧
        Same after result ∧ Takes recorded ideal after)
    {pushed : UndoStack Command} {result : State}
    (done : stack.push methods command actual = .ok (pushed, result)) :
    ∃ moved back, pushed.undo methods result = .ok (moved, back) ∧ document back = document actual := by
  obtain ⟨ideal, led, same, _⟩ := tracks
  obtain ⟨recorded, executed, after, redone, same', takes⟩ := executes ideal led same
  obtain ⟨recorded', redone', rfl⟩ := UndoStack.push_completes done
  rw [redone] at redone'
  cases redone'
  obtain ⟨unrecorded, back, undone, restored, _⟩ := reversible.undo takes same'
  refine ⟨⟨stack.done, [unrecorded]⟩, back, ?_, (agrees restored).symm.trans (agrees same)⟩
  simp only [UndoStack.undo, undone, Bind.bind, Except.bind]

theorem Tracks.redo_after_undo {initial actual : State} {stack moved : UndoStack Command} {back : State}
    (tracks : Tracks Same Takes initial stack actual) (some_done : stack.done ≠ [])
    (undone : stack.undo methods actual = .ok (moved, back)) :
    ∃ again result, moved.redo methods back = .ok (again, result) ∧ document result = document actual := by
  obtain ⟨ideal, led, same, _⟩ := tracks
  obtain ⟨done, tail⟩ := stack
  cases led with
  | nil => exact absurd rfl some_done
  | cons led takes =>
    rename_i command commands before ahead
    obtain ⟨recorded, restoring, called, same', takes'⟩ := reversible.undo takes same
    simp only [UndoStack.undo, called, Bind.bind, Except.bind] at undone
    cases undone
    obtain ⟨rerecorded, result, redone, restored, _⟩ := reversible.redo takes' same'
    refine ⟨⟨rerecorded :: commands, tail⟩, result, ?_, (agrees restored).symm.trans (agrees same)⟩
    simp only [UndoStack.redo, redone, Bind.bind, Except.bind]

end Round

end History

end Library

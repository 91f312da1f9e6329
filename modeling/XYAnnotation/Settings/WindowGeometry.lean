import XYAnnotation.Settings.IniParser

namespace XYAnnotation

open Library Format

structure Geometry where
  x : BitVec 32
  y : BitVec 32
  w : BitVec 32
  h : BitVec 32
  deriving DecidableEq

/-- `window_state_e`; the cast from `int` keeps a number that stands for none of them. -/
inductive WindowState
  | normal
  | minimized
  | maximized
  | fullscreen
  | unnamed (n : BitVec 32)
  deriving DecidableEq

namespace WindowState

def toInt : WindowState → BitVec 32
  | normal => 0
  | minimized => 1
  | maximized => 2
  | fullscreen => 3
  | unnamed n => n

def ofInt (n : BitVec 32) : WindowState :=
  if n = 0 then normal else if n = 1 then minimized else if n = 2 then maximized
  else if n = 3 then fullscreen else unnamed n

end WindowState

inductive WindowCall
  | setGeometry (rect : Geometry)
  | «show»
  | showFullScreen
  | showMaximized
  | showMinimized
  | mvFullscreen
  deriving DecidableEq

/-- The four variables are not initialised: those that `sscanf` does not reach stay as `stale` has them. -/
def scanRect (stale : Geometry) (text : String) : Geometry :=
  let read := sscanf text "rect(%d,%d,%d,%d)"
  ⟨read.getD 0 stale.x, read.getD 1 stale.y, read.getD 2 stale.w, read.getD 3 stale.h⟩

def placeWindow (stale : Geometry) (text : String) : List WindowCall :=
  if text.isEmpty then []
  else
    let rect := scanRect stale text
    -- The test joins the two sizes bit by bit.
    if rect.w &&& rect.h ≠ 0 then [.setGeometry rect] else []

def windowInit (stale : Geometry) (config : IniParser) : WindowState × List WindowCall :=
  let state := WindowState.ofInt (config.getInt "main_window_state" "ui" 0)
  let calls : List WindowCall :=
    match state with
    | .fullscreen => [.showFullScreen]
    | .maximized => [.showMaximized]
    | .minimized => [.showMinimized]
    | .normal | .unnamed _ => placeWindow stale (config.getValue "main_window_rect" "ui") ++ [.show]
  (state, if config.getBool "mv_fullscreen" "ui" false then calls ++ [.mvFullscreen] else calls)

def saveWindow (config : IniParser) (state : WindowState) (rect : Geometry) : IniParser :=
  (config.setInt "main_window_state" state.toInt "ui").setValue "main_window_rect"
    (asprintf "rect(%d,%d,%d,%d)" [rect.x, rect.y, rect.w, rect.h]) "ui"

/-- The window gets the rectangle that is read from the stored text. -/
def Restored (stale : Geometry) (config : IniParser) (rect : Geometry) : Prop :=
  scanRect stale (config.getValue "main_window_rect" "ui") = rect ∧ .setGeometry rect ∈ (windowInit stale config).2

theorem mem_placeWindow {stale placed : Geometry} {text : String} :
    .setGeometry placed ∈ placeWindow stale text ↔
      text.isEmpty = false ∧ placed = scanRect stale text ∧ placed.w &&& placed.h ≠ 0 := by
  unfold placeWindow
  cases text.isEmpty with
  | true => simp
  | false =>
    rw [if_neg Bool.false_ne_true]
    by_cases common : (scanRect stale text).w &&& (scanRect stale text).h ≠ 0
    · rw [if_pos common, List.mem_singleton, WindowCall.setGeometry.injEq]
      constructor
      · rintro rfl
        exact ⟨rfl, rfl, common⟩
      · rintro ⟨-, same, -⟩
        exact same
    · rw [if_neg common]
      constructor
      · intro member
        cases member
      · rintro ⟨-, rfl, both⟩
        exact absurd both common

theorem mem_windowInit {stale placed : Geometry} {config : IniParser} :
    .setGeometry placed ∈ (windowInit stale config).2 ↔
      (WindowState.ofInt (config.getInt "main_window_state" "ui" 0) = .normal ∨
        ∃ n, WindowState.ofInt (config.getInt "main_window_state" "ui" 0) = .unnamed n) ∧
      .setGeometry placed ∈ placeWindow stale (config.getValue "main_window_rect" "ui") := by
  have last (b : Bool) (calls : List WindowCall) :
      .setGeometry placed ∈ (if b then calls ++ [.mvFullscreen] else calls) ↔ .setGeometry placed ∈ calls := by
    cases b <;> simp
  unfold windowInit
  rw [last]
  cases WindowState.ofInt (config.getInt "main_window_state" "ui" 0) with
  | normal => simp
  | minimized => simp
  | maximized => simp
  | fullscreen => simp
  | unnamed n => simp

theorem getInt_zero (config : IniParser) (key label : String) :
    config.getInt key label 0 = atoi (config.getValue key label) := by
  by_cases blank : (config.getValue key label).isEmpty = true
  · rw [IniParser.getInt, if_pos blank, String.isEmpty_iff.mp blank]
    rfl
  · rw [IniParser.getInt, if_neg blank]

theorem scanRect_asprintf (stale rect : Geometry) :
    scanRect stale (asprintf "rect(%d,%d,%d,%d)" [rect.x, rect.y, rect.w, rect.h]) = rect := by
  have arity : (directives "rect(%d,%d,%d,%d)".toList).count .decimal = 4 := by decide
  rw [scanRect, sscanf_asprintf (by decide) arity]
  rfl

theorem rect_text_nonempty (rect : Geometry) :
    (asprintf "rect(%d,%d,%d,%d)" [rect.x, rect.y, rect.w, rect.h]).isEmpty = false := by
  rw [Bool.eq_false_iff, ne_eq, String.isEmpty_iff]
  intro blank
  have text := congrArg String.toList blank
  simp [asprintf, directives, print] at text

section Restart

-- `Save` and the `LoadFromFile` of the next start.
variable (reload : IniParser → IniParser)

/-- `GetValue` returns for both keys the string that was stored and saved. -/
def Persists (config : IniParser) : Prop :=
  ∀ key ∈ ["main_window_state", "main_window_rect"], (reload config).getValue key "ui" = config.getValue key "ui"

variable {reload} {config : IniParser} {state : WindowState} {rect : Geometry}
  (kept : Persists reload (saveWindow config state rect))

include kept

theorem reloaded_rect : (reload (saveWindow config state rect)).getValue "main_window_rect" "ui" =
    asprintf "rect(%d,%d,%d,%d)" [rect.x, rect.y, rect.w, rect.h] := by
  rw [kept _ (by simp), saveWindow, IniParser.getValue_setValue, if_pos ⟨rfl, rfl⟩]

theorem reloaded_state :
    (reload (saveWindow config state rect)).getInt "main_window_state" "ui" 0 = state.toInt := by
  rw [getInt_zero, kept _ (by simp), saveWindow, IniParser.getValue_setValue, if_neg (by decide), IniParser.setInt,
    IniParser.getValue_setValue, if_pos ⟨rfl, rfl⟩, atoi_asprintf]

theorem setGeometry_iff (normal : state = .normal) (stale placed : Geometry) :
    WindowCall.setGeometry placed ∈ (windowInit stale (reload (saveWindow config state rect))).2 ↔
      placed = rect ∧ rect.w &&& rect.h ≠ 0 := by
  subst normal
  have again : WindowState.ofInt WindowState.normal.toInt = .normal := by decide
  rw [mem_windowInit, reloaded_state kept, reloaded_rect kept, again, mem_placeWindow, rect_text_nonempty,
    scanRect_asprintf]
  constructor
  · rintro ⟨-, -, rfl, common⟩
    exact ⟨rfl, common⟩
  · rintro ⟨rfl, common⟩
    exact ⟨.inl rfl, rfl, rfl, common⟩

end Restart

/-- The geometry of the window survives a restart exactly where its two sizes have a bit in common. -/
theorem geometry_restored_iff (reload : IniParser → IniParser) (config : IniParser) (rect stale : Geometry)
    (kept : Persists reload (saveWindow config .normal rect)) :
    Restored stale (reload (saveWindow config .normal rect)) rect ↔ rect.w &&& rect.h ≠ 0 := by
  have read : scanRect stale ((reload (saveWindow config .normal rect)).getValue "main_window_rect" "ui") = rect := by
    rw [reloaded_rect kept, scanRect_asprintf]
  rw [Restored, setGeometry_iff kept rfl]
  exact ⟨fun restored => restored.2.2, fun common => ⟨read, rfl, common⟩⟩

def emptyConfig : IniParser := ⟨some (.fresh "" .root)⟩

theorem window_of_800_600_restored :
    Restored ⟨7, 7, 7, 7⟩ (saveWindow emptyConfig .normal ⟨-8, 20, 800, 600⟩) ⟨-8, 20, 800, 600⟩ :=
  (geometry_restored_iff id emptyConfig ⟨-8, 20, 800, 600⟩ ⟨7, 7, 7, 7⟩ (fun _ _ => rfl)).mpr (by decide)

/-- 1024 and 768 have no bit in common, so a window of that size is not placed. -/
theorem window_of_1024_768_not_placed :
    ¬∀ (reload : IniParser → IniParser) (config : IniParser) (rect stale : Geometry),
      0 < rect.w.toInt → 0 < rect.h.toInt → Persists reload (saveWindow config .normal rect) →
      Restored stale (reload (saveWindow config .normal rect)) rect := by
  intro always
  have persists : Persists id (saveWindow emptyConfig .normal ⟨100, 100, 1024, 768⟩) := fun _ _ => rfl
  have placed := (always id emptyConfig ⟨100, 100, 1024, 768⟩ ⟨7, 7, 7, 7⟩ (by decide) (by decide) persists).2
  have common := ((setGeometry_iff persists rfl ⟨7, 7, 7, 7⟩ _).mp placed).2
  exact absurd common (by decide)

end XYAnnotation

import XYAnnotation.Canvas.Display
import XYAnnotation.Settings.Restart

namespace XYAnnotation

open Library

section Slider

def qMin (a b : BitVec 32) : BitVec 32 := if a.slt b then a else b

def qMax (a b : BitVec 32) : BitVec 32 := if a.slt b then b else a

structure QSlider where
  minimum : BitVec 32
  maximum : BitVec 32
  value : BitVec 32

namespace QSlider

def bound (s : QSlider) (val : BitVec 32) : BitVec 32 := qMax s.minimum (qMin s.maximum val)

/-- `valueChanged` is emitted where the value is another one afterwards. -/
def setValue (s : QSlider) (val : BitVec 32) : QSlider := { s with value := s.bound val }

def setRange (s : QSlider) (min max : BitVec 32) : QSlider :=
  let t : QSlider := { s with minimum := min, maximum := qMax min max }
  if s.minimum ≠ t.minimum ∨ s.maximum ≠ t.maximum then t.setValue s.value else t

def setMinimum (s : QSlider) (min : BitVec 32) : QSlider := s.setRange min (qMax s.maximum min)

def setMaximum (s : QSlider) (max : BitVec 32) : QSlider := s.setRange (qMin s.minimum max) max

theorem bound_bound (s : QSlider) (val : BitVec 32) : s.bound (s.bound val) = s.bound val := by
  unfold bound qMax qMin
  simp only [BitVec.slt_iff_toInt_lt]
  split_ifs <;> first | rfl | (exfalso; omega)

@[simp]
theorem bound_setValue (s : QSlider) (val : BitVec 32) : (s.setValue val).bound = s.bound := rfl

end QSlider

end Slider

inductive ImageSetting
  | contrast
  | brightness
  deriving DecidableEq

namespace ImageSetting

def defaultKey : ImageSetting → String
  | contrast => "default_contrast"
  | brightness => "default_brightness"

def minKey : ImageSetting → String
  | contrast => "min_contrast"
  | brightness => "min_brightness"

def maxKey : ImageSetting → String
  | contrast => "max_contrast"
  | brightness => "max_brightness"

/-- What `Get<int>` gives, `DEFAULT_CONTRAST` and `DEFAULT_BRIGHTNESS` being the same. -/
def stored (setting : ImageSetting) (config : IniParser) : BitVec 32 := config.getInt setting.defaultKey "image" 150

theorem defaultKey_injective {s t : ImageSetting} (same : s.defaultKey = t.defaultKey) : s = t := by
  cases s <;> cases t <;> first | rfl | exact absurd same (by decide)

end ImageSetting

namespace Display

variable (toRgb888 : QImage → QImage) (level : ℤ → ℤ → UInt8 → ℤ)

def setting (c : Display) : ImageSetting → ℤ
  | .contrast => c.contrast
  | .brightness => c.brightness

def setSetting (c : Display) (value : ℤ) : ImageSetting → Display
  | .contrast => c.setContrast toRgb888 level value
  | .brightness => c.setBrightness toRgb888 level value

variable {toRgb888 level}

theorem setting_contrast (c : Display) : c.setting .contrast = c.contrast := rfl

theorem setting_setSetting (c : Display) (value : ℤ) (s t : ImageSetting) :
    (c.setSetting toRgb888 level value s).setting t = if t = s then value else c.setting t := by
  cases s with
  | contrast =>
    cases t with
    | contrast => rfl
    | brightness => rfl
  | brightness =>
    cases t with
    | contrast => rfl
    | brightness => rfl

end Display

structure ImageAdj where
  value : ImageSetting → BitVec 32
  slider : ImageSetting → QSlider

namespace ImageAdj

/-- A new slider goes from 0 to 99 and stands at 0. -/
def createSlider (min max value : BitVec 32) : QSlider :=
  (((⟨0, 99, 0⟩ : QSlider).setMinimum min).setMaximum max).setValue value

def create (config : IniParser) : ImageAdj where
  value := fun _ => 0
  slider := fun setting =>
    createSlider (config.getInt setting.minKey "image" 0) (config.getInt setting.maxKey "image" 500) 0

end ImageAdj

structure Adjustment where
  config : IniParser
  canvas : Display
  imageAdj : ImageAdj

inductive AdjustmentEvent
  | openDialog
  | slide (setting : ImageSetting) (value : BitVec 32)
  | setImage (img : QImage)
  | clean

namespace Adjustment

variable (toRgb888 : QImage → QImage) (level : ℤ → ℤ → UInt8 → ℤ)

def start (config : IniParser) : Adjustment where
  config := config
  canvas :=
    (Display.fresh.setContrast toRgb888 level (ImageSetting.contrast.stored config).toInt).setBrightness toRgb888 level
      (ImageSetting.brightness.stored config).toInt
  imageAdj := ImageAdj.create config

/-- `setValue` of a slider, with what `initConnect` connects to `valueChanged`. -/
def slide (w : Adjustment) (setting : ImageSetting) (value : BitVec 32) : Adjustment :=
  let slider := (w.imageAdj.slider setting).setValue value
  if slider.value = (w.imageAdj.slider setting).value then w
  else
    { config := w.config.setInt setting.defaultKey slider.value "image"
      canvas := w.canvas.setSetting toRgb888 level slider.value.toInt setting
      imageAdj :=
        { value := Function.update w.imageAdj.value setting slider.value
          slider := Function.update w.imageAdj.slider setting slider } }

def setParam (w : Adjustment) (value : ImageSetting → BitVec 32) : Adjustment :=
  let w := { w with imageAdj := { w.imageAdj with value } }
  let w := w.slide toRgb888 level .contrast (w.imageAdj.value .contrast)
  w.slide toRgb888 level .brightness (w.imageAdj.value .brightness)

def event (w : Adjustment) : AdjustmentEvent → Except Fault Adjustment
  | .openDialog => .ok (w.setParam toRgb888 level fun setting => BitVec.ofInt 32 (w.canvas.setting setting))
  | .slide setting value => .ok (w.slide toRgb888 level setting value)
  | .setImage img => (w.canvas.setImage (some img)).map fun canvas => { w with canvas }
  | .clean => .ok { w with canvas := w.canvas.clean }

/-- The canvas shows the setting that the configuration holds. -/
def Stored (w : Adjustment) (setting : ImageSetting) : Prop :=
  w.canvas.setting setting = (setting.stored w.config).toInt

/-- The slider stands where the setting is, or at the end of its range on that side. -/
def Shown (w : Adjustment) (setting : ImageSetting) : Prop :=
  (w.imageAdj.slider setting).value = (w.imageAdj.slider setting).bound (setting.stored w.config)

end Adjustment

theorem asprintf_int_nonempty (n : BitVec 32) : (asprintf "%d" [n]).isEmpty = false := by
  rw [Bool.eq_false_iff, ne_eq, String.isEmpty_iff]
  intro empty
  have read := Format.scanDecimal_print (fun _ => isBlank_digit) isBlank_minus n.toInt
    (show Format.EndsNumber [] by simp [Format.EndsNumber])
  have text : (toString n.toInt).toList ++ [] = [] := by
    have written := congrArg String.toList empty
    simpa [asprintf, Format.directives, Format.print] using written
  rw [text] at read
  cases read

theorem getInt_setInt (config : IniParser) (key label asked place : String) (n defvalue : BitVec 32) :
    (config.setInt key n label).getInt asked place defvalue =
      if asked = key ∧ place = label then n else config.getInt asked place defvalue := by
  rw [IniParser.getInt, IniParser.setInt, IniParser.getValue_setValue]
  by_cases same : asked = key ∧ place = label
  · rw [if_pos same, if_pos same, asprintf_int_nonempty, if_neg Bool.false_ne_true, atoi_asprintf]
  · rw [if_neg same, if_neg same, IniParser.getInt]

theorem stored_setInt (config : IniParser) (n : BitVec 32) (s t : ImageSetting) :
    t.stored (config.setInt s.defaultKey n "image") = if t = s then n else t.stored config := by
  rw [ImageSetting.stored, getInt_setInt]
  by_cases same : t = s
  · rw [if_pos ⟨congrArg _ same, rfl⟩, if_pos same]
  · rw [if_neg fun both => same (ImageSetting.defaultKey_injective both.1), if_neg same, ImageSetting.stored]

namespace Adjustment

variable {toRgb888 : QImage → QImage} {level : ℤ → ℤ → UInt8 → ℤ} {w next : Adjustment} {s t : ImageSetting}

/-- A slider that does not move changes nothing, and one that does is followed by the canvas and the configuration. -/
theorem slide_cases (w : Adjustment) (s : ImageSetting) (value : BitVec 32) :
    (w.slide toRgb888 level s value = w ∧ (w.imageAdj.slider s).value = (w.imageAdj.slider s).bound value) ∨
      ((∀ t, t.stored (w.slide toRgb888 level s value).config =
          if t = s then (w.imageAdj.slider s).bound value else t.stored w.config) ∧
        (∀ t, (w.slide toRgb888 level s value).canvas.setting t =
          if t = s then ((w.imageAdj.slider s).bound value).toInt else w.canvas.setting t) ∧
        (w.slide toRgb888 level s value).imageAdj.slider =
          Function.update w.imageAdj.slider s ((w.imageAdj.slider s).setValue value)) := by
  unfold slide
  by_cases same : ((w.imageAdj.slider s).setValue value).value = (w.imageAdj.slider s).value
  · exact .inl ⟨if_pos same, same.symm⟩
  · simp only [if_neg same]
    exact .inr ⟨stored_setInt w.config _ s, Display.setting_setSetting w.canvas _ s, trivial⟩

theorem start_stored (config : IniParser) (t : ImageSetting) : (start toRgb888 level config).Stored t := by
  cases t with
  | contrast => rfl
  | brightness => rfl

theorem Stored.slide (stored : w.Stored t) (s : ImageSetting) (value : BitVec 32) :
    (w.slide toRgb888 level s value).Stored t := by
  rcases slide_cases w s value with ⟨same, -⟩ | ⟨config, canvas, -⟩
  · rw [same]
    exact stored
  · rw [Stored, config, canvas]
    by_cases this : t = s
    · rw [if_pos this, if_pos this]
    · rw [if_neg this, if_neg this]
      exact stored

theorem Shown.slide (shown : w.Shown t) (s : ImageSetting) (value : BitVec 32) :
    (w.slide toRgb888 level s value).Shown t := by
  rcases slide_cases w s value with ⟨same, -⟩ | ⟨config, -, slider⟩
  · rw [same]
    exact shown
  · rw [Shown, config, slider]
    by_cases this : t = s
    · rw [this, if_pos rfl, Function.update_self, QSlider.bound_setValue]
      exact (QSlider.bound_bound _ _).symm
    · rw [if_neg this, Function.update_of_ne this]
      exact shown

theorem shown_slide (value : BitVec 32) (same : value = s.stored w.config) : (w.slide toRgb888 level s value).Shown s := by
  rcases slide_cases w s value with ⟨unmoved, shown⟩ | ⟨config, -, slider⟩
  · rw [unmoved, Shown, shown, same]
  · rw [Shown, config, slider, if_pos rfl, Function.update_self, QSlider.bound_setValue]
    exact (QSlider.bound_bound _ _).symm

theorem slide_value (value : BitVec 32) (other : t ≠ s) :
    (w.slide toRgb888 level s value).imageAdj.value t = w.imageAdj.value t := by
  unfold slide
  simp only
  split
  · rfl
  · exact Function.update_of_ne other _ _

theorem setParam_eq (w : Adjustment) (value : ImageSetting → BitVec 32) : w.setParam toRgb888 level value =
    (({ w with imageAdj := { w.imageAdj with value } } : Adjustment).slide toRgb888 level .contrast
      (value .contrast)).slide toRgb888 level .brightness (value .brightness) := by
  have kept : ImageSetting.brightness ≠ .contrast := by decide
  unfold setParam
  simp only
  rw [slide_value _ kept]

theorem Stored.setParam (stored : w.Stored t) (value : ImageSetting → BitVec 32) :
    (w.setParam toRgb888 level value).Stored t := by
  have opened : ({ w with imageAdj := { w.imageAdj with value } } : Adjustment).Stored t := stored
  rw [setParam_eq]
  exact (opened.slide _ _).slide _ _

theorem shown_setParam (stored : ∀ t, w.Stored t) (t : ImageSetting) :
    (w.setParam toRgb888 level fun s => BitVec.ofInt 32 (w.canvas.setting s)).Shown t := by
  have value (s : ImageSetting) : BitVec.ofInt 32 (w.canvas.setting s) = s.stored w.config := by
    rw [stored s, BitVec.ofInt_toInt]
  rw [setParam_eq]
  cases t with
  | contrast =>
    refine Shown.slide ?_ _ _
    exact shown_slide _ (value .contrast)
  | brightness =>
    refine shown_slide _ ((value .brightness).trans ?_)
    rcases slide_cases { w with imageAdj := { w.imageAdj with value := _ } } .contrast _ with ⟨same, -⟩ | ⟨config, -, -⟩
    · rw [same]
    · rw [config, if_neg (by decide)]

theorem Stored.event (stored : w.Stored t) {made : AdjustmentEvent} (done : w.event toRgb888 level made = .ok next) :
    next.Stored t := by
  cases made with
  | openDialog =>
    rw [← Except.ok.inj done]
    exact stored.setParam _
  | slide s value =>
    rw [← Except.ok.inj done]
    exact stored.slide s value
  | setImage img =>
    cases done
    cases t with
    | contrast => exact stored
    | brightness => exact stored
  | clean =>
    cases done
    cases t with
    | contrast => exact stored
    | brightness => exact stored

theorem Shown.event (shown : w.Shown t) (stored : ∀ t, w.Stored t) {made : AdjustmentEvent}
    (done : w.event toRgb888 level made = .ok next) : next.Shown t := by
  cases made with
  | openDialog =>
    rw [← Except.ok.inj done]
    exact shown_setParam stored t
  | slide s value =>
    rw [← Except.ok.inj done]
    exact shown.slide s value
  | setImage img =>
    cases done
    exact shown
  | clean =>
    cases done
    exact shown

theorem run_stored_shown {events : List AdjustmentEvent} {last : Adjustment} (stored : ∀ t, w.Stored t)
    (done : run (event toRgb888 level) w events = .ok last) :
    (∀ t, last.Stored t) ∧ ((∀ t, w.Shown t) ∨ .openDialog ∈ events → ∀ t, last.Shown t) := by
  induction events generalizing w with
  | nil =>
    cases done
    exact ⟨stored, fun shown => shown.elim id fun member => by cases member⟩
  | cons made events ih =>
    obtain ⟨next, step, rest⟩ := run_cons_ok done
    have result := ih (fun t => (stored t).event step) rest
    refine ⟨result.1, fun before => result.2 ?_⟩
    rcases before with shown | member
    · exact .inl fun t => (shown t).event stored step
    · rcases List.mem_cons.mp member with rfl | member
      · left
        rw [← Except.ok.inj step]
        exact shown_setParam stored
      · exact .inr member

section Restart

def close (w : Adjustment) (text : String) (state : WindowState) (rect : Geometry) : String :=
  ((saveWindow w.config state rect).save (some text) true).getD text

def Kept (text : String) (w : Adjustment) : Prop :=
  ∃ calls, (∀ call ∈ calls, call.Storable) ∧ w.config = (IniParser.loadFromFile ⟨none⟩ (some text)).store calls

variable {text : String}

theorem storable_setting (t : ImageSetting) (n : BitVec 32) :
    IniCall.Storable ⟨t.defaultKey, asprintf "%d" [n], "image"⟩ := by
  have label : Plain "image".toList := plain_of_safe (by decide)
  have key : IsKey t.defaultKey.toList := by
    cases t with
    | contrast => exact isKey_of_safe (by decide)
    | brightness => exact isKey_of_safe (by decide)
  exact ⟨by simp, label, key, plain_asprintf (by decide) _⟩

theorem Kept.slide (kept : w.Kept text) (s : ImageSetting) (value : BitVec 32) :
    (w.slide toRgb888 level s value).Kept text := by
  unfold Adjustment.slide
  simp only
  split
  · exact kept
  · obtain ⟨calls, storable, config⟩ := kept
    refine ⟨calls ++ [⟨s.defaultKey, asprintf "%d" [(w.imageAdj.slider s).bound value], "image"⟩], ?_, ?_⟩
    · intro call member
      rcases List.mem_append.mp member with member | member
      · exact storable call member
      · rw [List.mem_singleton.mp member]
        exact storable_setting s _
    · rw [store_concat, ← config, IniParser.setInt]
      rfl

theorem Kept.event (kept : w.Kept text) {made : AdjustmentEvent} (done : w.event toRgb888 level made = .ok next) :
    next.Kept text := by
  cases made with
  | openDialog =>
    rw [← Except.ok.inj done, setParam_eq]
    have opened (value : ImageSetting → BitVec 32) :
        ({ w with imageAdj := { w.imageAdj with value } } : Adjustment).Kept text := kept
    exact ((opened _).slide _ _).slide _ _
  | slide s value =>
    rw [← Except.ok.inj done]
    exact kept.slide s value
  | setImage img =>
    cases done
    exact kept
  | clean =>
    cases done
    exact kept

theorem Kept.getValue_close (kept : w.Kept text) (state : WindowState) (rect : Geometry) (key : String) :
    (IniParser.loadFromFile ⟨none⟩ (some (w.close text state rect))).getValue key "image" =
      w.config.getValue key "image" := by
  obtain ⟨calls, storable, config⟩ := kept
  have file : w.close text state rect = IniParser.session text (calls ++ windowCalls state rect) := by
    rw [close, IniParser.session, IniParser.store, List.foldl_append, ← IniParser.store, ← IniParser.store, ← config,
      store_windowCalls]
  have all : ∀ call ∈ calls ++ windowCalls state rect, call.Storable := by
    intro call member
    rcases List.mem_append.mp member with member | member
    · exact storable call member
    · exact storable_windowCalls state rect call member
  have none : IniCall.last (windowCalls state rect) key "image" = none := by
    simp [IniCall.last, windowCalls, IniCall.sets]
  rw [file, getValue_session all, getValue_store, IniCall.last_append, none, Option.none_or, ← getValue_store, config]

end Restart

section Ranges

def Ranged (w : Adjustment) (t : ImageSetting) : Prop :=
  (w.imageAdj.slider t).minimum = ((ImageAdj.create w.config).slider t).minimum ∧
    (w.imageAdj.slider t).maximum = ((ImageAdj.create w.config).slider t).maximum

theorem create_congr {config other : IniParser}
    (same : ∀ key, config.getValue key "image" = other.getValue key "image") :
    ImageAdj.create config = ImageAdj.create other := by
  unfold ImageAdj.create IniParser.getInt
  simp only [same]

theorem create_setInt (config : IniParser) (s : ImageSetting) (n : BitVec 32) :
    ImageAdj.create (config.setInt s.defaultKey n "image") = ImageAdj.create config := by
  have min (t : ImageSetting) : t.minKey ≠ s.defaultKey := by cases s <;> cases t <;> decide
  have max (t : ImageSetting) : t.maxKey ≠ s.defaultKey := by cases s <;> cases t <;> decide
  unfold ImageAdj.create
  simp only [getInt_setInt, min, max, false_and, if_false]

theorem Ranged.slide (ranged : w.Ranged t) (s : ImageSetting) (value : BitVec 32) :
    (w.slide toRgb888 level s value).Ranged t := by
  unfold Adjustment.slide
  simp only
  split
  · exact ranged
  · have range : (Function.update w.imageAdj.slider s ((w.imageAdj.slider s).setValue value) t).minimum =
        (w.imageAdj.slider t).minimum ∧
          (Function.update w.imageAdj.slider s ((w.imageAdj.slider s).setValue value) t).maximum =
            (w.imageAdj.slider t).maximum := by
      by_cases this : t = s
      · subst this
        rw [Function.update_self]
        exact ⟨rfl, rfl⟩
      · rw [Function.update_of_ne this]
        exact ⟨rfl, rfl⟩
    rw [Ranged, create_setInt]
    exact ⟨range.1.trans ranged.1, range.2.trans ranged.2⟩

theorem Ranged.event (ranged : w.Ranged t) {made : AdjustmentEvent} (done : w.event toRgb888 level made = .ok next) :
    next.Ranged t := by
  cases made with
  | openDialog =>
    rw [← Except.ok.inj done, setParam_eq]
    have opened (value : ImageSetting → BitVec 32) :
        ({ w with imageAdj := { w.imageAdj with value } } : Adjustment).Ranged t := ranged
    exact ((opened _).slide _ _).slide _ _
  | slide s value =>
    rw [← Except.ok.inj done]
    exact ranged.slide s value
  | setImage img =>
    cases done
    exact ranged
  | clean =>
    cases done
    exact ranged

end Ranges

/-- The picture settings and the ranges of the sliders at the next start are those with which the window was closed. -/
theorem settings_after_restart (text : String) (events : List AdjustmentEvent) (last : Adjustment)
    (done : run (event toRgb888 level) (start toRgb888 level (IniParser.loadFromFile ⟨none⟩ (some text))) events = .ok last)
    (state : WindowState) (rect : Geometry) (t : ImageSetting) :
    let next := start toRgb888 level (IniParser.loadFromFile ⟨none⟩ (some (last.close text state rect)))
    next.canvas.setting t = last.canvas.setting t ∧
      (next.imageAdj.slider t).minimum = (last.imageAdj.slider t).minimum ∧
      (next.imageAdj.slider t).maximum = (last.imageAdj.slider t).maximum := by
  intro next
  have kept : last.Kept text :=
    run_invariant (fun _ _ _ kept taken => kept.event taken) ⟨[], by simp, rfl⟩ done
  have same (key : String) : next.config.getValue key "image" = last.config.getValue key "image" :=
    kept.getValue_close state rect key
  have stored : last.Stored t := (run_stored_shown (start_stored _) done).1 t
  have started : next.Stored t := start_stored _ t
  have preserved (w : Adjustment) (made : AdjustmentEvent) (next : Adjustment) (ranged : w.Ranged t)
      (taken : w.event toRgb888 level made = .ok next) : next.Ranged t := ranged.event taken
  have ranged : last.Ranged t := run_invariant preserved ⟨rfl, rfl⟩ done
  have created : next.imageAdj = ImageAdj.create last.config := create_congr same
  refine ⟨?_, ?_, ?_⟩
  · rw [started, stored, ImageSetting.stored, ImageSetting.stored, IniParser.getInt, IniParser.getInt, same]
  · rw [created, ranged.1]
  · rw [created, ranged.2]

theorem run_openDialog_slide (w : Adjustment) (setting : ImageSetting) (value : BitVec 32) :
    run (event toRgb888 level) w [.openDialog, .slide setting value] =
      .ok ((w.setParam toRgb888 level fun s => BitVec.ofInt 32 (w.canvas.setting s)).slide toRgb888 level setting
        value) := rfl

theorem contrast_of_80_after_restart :
    let w := start id exactLevel (IniParser.loadFromFile ⟨none⟩ (some "[image]\nmax_contrast = 200"))
    let last := (w.setParam id exactLevel fun s => BitVec.ofInt 32 (w.canvas.setting s)).slide id exactLevel .contrast 80
    (start id exactLevel (IniParser.loadFromFile ⟨none⟩ (some (last.close "[image]\nmax_contrast = 200" .normal
      ⟨0, 0, 640, 512⟩)))).canvas.contrast = last.canvas.contrast := by
  intro w last
  have restarted := settings_after_restart "[image]\nmax_contrast = 200" [.openDialog, .slide .contrast 80] last
    (run_openDialog_slide _ _ _) .normal ⟨0, 0, 640, 512⟩ .contrast
  rw [← Display.setting_contrast, ← Display.setting_contrast]
  exact restarted.1

end Adjustment

end XYAnnotation

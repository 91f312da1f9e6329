import XYAnnotation.Canvas.Base
import XYAnnotation.Library.Runs

namespace XYAnnotation

open Library

def bound (rangeLeft data rangeRight : ℤ) : ℤ :=
  if data > rangeRight then rangeRight else if data < rangeLeft then rangeLeft else data

/-- The `int` that `light * 0.01 * v - 150 + contrast` is cut to, without the rounding of `double`. -/
def exactLevel (light contrast : ℤ) (v : UInt8) : ℤ := (light * v.toNat + 100 * (contrast - 150)).tdiv 100

section LightContrast

variable (toRgb888 : QImage → QImage) (level : ℤ → ℤ → UInt8 → ℤ)

def adjustByte (light contrast : ℤ) (v : UInt8) : UInt8 := UInt8.ofNat (bound 0 (level light contrast v) 255).toNat

/-- One round of the loop: the three bytes of pixel `i`, counted without the padding of the lines. -/
def adjustPixel (light contrast : ℤ) (rgb : List UInt8) (i : ℕ) : List UInt8 :=
  let rgb := rgb.modify (i * 3) (adjustByte level light contrast)
  let rgb := rgb.modify (i * 3 + 1) (adjustByte level light contrast)
  rgb.modify (i * 3 + 2) (adjustByte level light contrast)

/-- `lightContrastImage`; `toRgb888` gives the image in `Format_RGB888`, and `level` is the brightness computed with
    `double`. A null image has no bytes and stays null. -/
def lightContrastImage (img : Option QImage) (light contrast : ℤ) : Option QImage :=
  img.map fun img =>
    { toRgb888 img with
      bits := (List.range (img.width * img.height)).foldl (adjustPixel level light contrast) (toRgb888 img).bits }

end LightContrast

structure Display extends CanvasBase where
  disImg : Option QImage
  brightness : ℤ
  contrast : ℤ

inductive DisplayCall
  | setImage (img : QImage)
  | setBrightness (brightness : ℤ)
  | setContrast (contrast : ℤ)
  | clean

namespace Display

variable (toRgb888 : QImage → QImage) (level : ℤ → ℤ → UInt8 → ℤ)

def fresh : Display := { CanvasBase.fresh with disImg := none, brightness := 150, contrast := 150 }

def setImage (c : Display) (img : Option QImage) : Except Fault Display := do
  let base ← c.toCanvasBase.setImage img
  .ok { c with toCanvasBase := base, disImg := base.image }

def setContrast (c : Display) (contrast : ℤ) : Display :=
  { c with contrast, disImg := lightContrastImage toRgb888 level c.image c.brightness contrast }

def setBrightness (c : Display) (brightness : ℤ) : Display :=
  { c with brightness, disImg := lightContrastImage toRgb888 level c.image brightness c.contrast }

def clean (c : Display) : Display := { c with toCanvasBase := c.toCanvasBase.clean }

def call (c : Display) : DisplayCall → Except Fault Display
  | .setImage img => c.setImage (some img)
  | .setBrightness brightness => .ok (c.setBrightness toRgb888 level brightness)
  | .setContrast contrast => .ok (c.setContrast toRgb888 level contrast)
  | .clean => .ok c.clean

def Coherent (c : Display) : Prop := c.disImg = lightContrastImage toRgb888 level c.image c.brightness c.contrast

/-- The settings do nothing to a new image, and nothing is shown when the canvas is cleaned. -/
def Unadjusted (c : Display) : DisplayCall → Prop
  | .setImage img => lightContrastImage toRgb888 level (some img) c.brightness c.contrast = some img
  | .clean => c.image = none
  | _ => True

variable {toRgb888 level}

theorem call_coherent {c d : Display} {made : DisplayCall} (coherent : c.Coherent toRgb888 level)
    (done : c.call toRgb888 level made = .ok d) :
    d.Coherent toRgb888 level ↔ c.Unadjusted toRgb888 level made := by
  cases made with
  | setImage img =>
    cases done
    exact eq_comm
  | setBrightness brightness =>
    cases done
    exact iff_of_true rfl trivial
  | setContrast contrast =>
    cases done
    exact iff_of_true rfl trivial
  | clean =>
    cases done
    have shown : c.disImg = lightContrastImage toRgb888 level c.image c.brightness c.contrast := coherent
    have cleaned : c.clean.Coherent toRgb888 level ↔ c.disImg = none := Iff.rfl
    rw [cleaned, shown]
    exact Option.map_eq_none_iff

theorem coherent_iff (calls : List DisplayCall) :
    (∀ reached ∈ visited (call toRgb888 level) fresh calls, reached.Coherent toRgb888 level) ↔
      Along (call toRgb888 level) (Unadjusted toRgb888 level) fresh calls := by
  have initial : fresh.Coherent toRgb888 level := rfl
  exact visited_invariant_iff (fun _ => True)
    (fun _ _ _ _ coherent done => ⟨trivial, call_coherent coherent done⟩) trivial initial

/-- The picture is a function of the image and the settings in every state of a run exactly when each new image is
    one that the settings leave alone and `clean` is called without an image. Such runs show the same picture when
    they end with the same image and settings. -/
theorem shown_by_settings_iff (toRgb888 : QImage → QImage) (level : ℤ → ℤ → UInt8 → ℤ) :
    (∀ calls : List DisplayCall,
      (∀ reached ∈ visited (call toRgb888 level) fresh calls, reached.Coherent toRgb888 level) ↔
        Along (call toRgb888 level) (Unadjusted toRgb888 level) fresh calls) ∧
    ∀ (first second : List DisplayCall) (c d : Display),
      Along (call toRgb888 level) (Unadjusted toRgb888 level) fresh first →
      Along (call toRgb888 level) (Unadjusted toRgb888 level) fresh second →
      run (call toRgb888 level) fresh first = .ok c → run (call toRgb888 level) fresh second = .ok d →
      c.image = d.image → c.brightness = d.brightness → c.contrast = d.contrast → c.disImg = d.disImg := by
  refine ⟨coherent_iff, ?_⟩
  intro first second c d along along' ran ran' image brightness contrast
  have shown : c.Coherent toRgb888 level := (coherent_iff first).mpr along c (run_mem_visited ran)
  have shown' : d.Coherent toRgb888 level := (coherent_iff second).mpr along' d (run_mem_visited ran')
  unfold Coherent at shown shown'
  rw [shown, shown', image, brightness, contrast]

def greyPixel : QImage := .pixel [100, 100, 100, 0]

theorem order_of_calls_shown :
    ∃ first second : Display,
      run (call id exactLevel) fresh [.setImage greyPixel, .setBrightness 200] = .ok first ∧
      run (call id exactLevel) fresh [.setBrightness 200, .setImage greyPixel] = .ok second ∧
      first.image = second.image ∧ first.brightness = second.brightness ∧ first.contrast = second.contrast ∧
      first.disImg.map QImage.bits = some [200, 200, 200, 0] ∧
      second.disImg.map QImage.bits = some [100, 100, 100, 0] ∧ ¬ second.Coherent id exactLevel := by
  refine ⟨_, _, rfl, rfl, rfl, rfl, rfl, by decide +kernel, by decide +kernel, ?_⟩
  intro coherent
  have bits := congrArg (Option.map QImage.bits) coherent
  revert bits
  decide +kernel

end Display

end XYAnnotation

import XYAnnotation.Canvas.Display

namespace XYAnnotation

/-- The bytes of a scanline in `Format_RGB888`: three a pixel, filled up to a multiple of 4. -/
def bytesPerLine (width : ℕ) : ℕ := (3 * width + 3) / 4 * 4

/-- An image in `Format_RGB888`, with the whole buffer behind `bits()`. -/
structure Rgb888 extends QImage where
  padded : bits.length = bytesPerLine width * height

def channelByte (width x y channel : ℕ) : ℕ := y * bytesPerLine width + 3 * x + channel

def clamp (low high n : ℤ) : ℤ := max low (min high n)

/-- The channel value that the settings give for `v`. -/
def adjustedValue (light contrast : ℤ) (v : UInt8) : ℤ :=
  clamp 0 255 (truncate (light * v.toNat / 100 - 150 + contrast))

def Adjusted (input result : QImage) (light contrast : ℤ) : Prop :=
  result.width = input.width ∧ result.height = input.height ∧
    ∀ x < input.width, ∀ y < input.height, ∀ channel < 3, ∀ v,
      input.bits[channelByte input.width x y channel]? = some v →
        ∃ u, result.bits[channelByte input.width x y channel]? = some u ∧ (u.toNat : ℤ) = adjustedValue light contrast v

section Values

theorem exactLevel_eq (light contrast : ℤ) (v : UInt8) :
    exactLevel light contrast v = truncate (light * v.toNat / 100 - 150 + contrast) := by
  have quotient : (light * v.toNat / 100 - 150 + contrast : ℚ) =
      ((light * v.toNat + 100 * (contrast - 150) : ℤ) : ℚ) / (100 : ℕ) := by
    push_cast
    ring
  rw [exactLevel, quotient]
  generalize light * v.toNat + 100 * (contrast - 150) = n
  unfold truncate
  split
  · rename_i nonneg
    have positive : 0 ≤ n := by
      rw [div_nonneg_iff] at nonneg
      rcases nonneg with ⟨above, _⟩ | ⟨_, below⟩
      · exact_mod_cast above
      · norm_num at below
    rw [Rat.floor_intCast_div_natCast, Int.tdiv_eq_ediv_of_nonneg positive]
    rfl
  · rename_i negative
    have below : 0 ≤ -n := by
      by_contra above
      apply negative
      apply div_nonneg
      · exact_mod_cast (by omega : (0 : ℤ) ≤ n)
      · norm_num
    have opposite : (n : ℚ) / (100 : ℕ) = -(((-n : ℤ) : ℚ) / (100 : ℕ)) := by
      push_cast
      ring
    rw [opposite, Int.ceil_neg, Rat.floor_intCast_div_natCast, ← Int.tdiv_eq_ediv_of_nonneg below, Int.neg_tdiv,
      neg_neg]
    rfl

theorem adjustedValue_dark (contrast : ℤ) (v : UInt8) : adjustedValue 0 contrast v = clamp 0 255 (contrast - 150) := by
  have whole : ((0 : ℤ) * v.toNat / 100 - 150 + contrast : ℚ) = ((contrast - 150 : ℤ) : ℚ) := by
    push_cast
    ring
  rw [adjustedValue, whole, truncate_intCast]

theorem bound_eq (low n high : ℤ) (ordered : low ≤ high) : bound low n high = clamp low high n := by
  unfold bound clamp
  split
  · omega
  · split <;> omega

theorem adjustByte_value (light contrast : ℤ) (v : UInt8) :
    ((adjustByte exactLevel light contrast v).toNat : ℤ) = adjustedValue light contrast v := by
  have level : bound 0 (exactLevel light contrast v) 255 = adjustedValue light contrast v := by
    rw [bound_eq _ _ _ (by norm_num), exactLevel_eq]
    rfl
  have low : 0 ≤ adjustedValue light contrast v := le_max_left _ _
  have high : adjustedValue light contrast v ≤ 255 := max_le (by norm_num) (min_le_left _ _)
  rw [adjustByte, level, UInt8.toNat_ofNat']
  omega

end Values

section Loop

variable (level : ℤ → ℤ → UInt8 → ℤ) (light contrast : ℤ)

theorem adjustPixel_getElem? (rgb : List UInt8) (i j : ℕ) :
    (adjustPixel level light contrast rgb i)[j]? =
      if 3 * i ≤ j ∧ j < 3 * i + 3 then rgb[j]?.map (adjustByte level light contrast) else rgb[j]? := by
  simp only [adjustPixel, List.getElem?_modify]
  by_cases first : i * 3 = j
  · simp [← first, Nat.mul_comm]
  · by_cases second : i * 3 + 1 = j
    · simp [← second, Nat.mul_comm]
    · by_cases third : i * 3 + 2 = j
      · simp [← third, Nat.mul_comm]
      · simp only [first, second, third, if_false]
        rw [if_neg (by omega)]
        simp

/-- The loop over `n` pixels rewrites the first `3 * n` bytes and no other. -/
theorem adjustPixels_getElem? (rgb : List UInt8) (n j : ℕ) :
    ((List.range n).foldl (adjustPixel level light contrast) rgb)[j]? =
      if j < 3 * n then rgb[j]?.map (adjustByte level light contrast) else rgb[j]? := by
  induction n with
  | zero => simp
  | succ n ih =>
    rw [List.range_succ, List.foldl_append, List.foldl_cons, List.foldl_nil, adjustPixel_getElem?, ih]
    by_cases earlier : j < 3 * n
    · rw [if_pos earlier, if_neg (by omega), if_pos (by omega)]
    · rw [if_neg earlier]
      by_cases now : j < 3 * n + 3
      · rw [if_pos ⟨by omega, now⟩, if_pos (by omega)]
      · rw [if_neg (by omega), if_neg (by omega)]

end Loop

section Coverage

variable {width height : ℕ}

theorem bytesPerLine_ge (width : ℕ) : 3 * width ≤ bytesPerLine width := by
  unfold bytesPerLine
  omega

theorem bytesPerLine_eq_iff (width : ℕ) : bytesPerLine width = 3 * width ↔ 4 ∣ width := by
  unfold bytesPerLine
  omega

theorem channelByte_lt_line {x y channel : ℕ} (inside : x < width) (three : channel < 3) :
    channelByte width x y channel < y * bytesPerLine width + 3 * width := by
  unfold channelByte
  omega

theorem channelByte_lt {x y channel : ℕ} (column : x < width) (row : y < height) (three : channel < 3) :
    channelByte width x y channel < bytesPerLine width * height := by
  have line := channelByte_lt_line (y := y) column three
  have lines : (y + 1) * bytesPerLine width ≤ height * bytesPerLine width := Nat.mul_le_mul_right _ row
  have wide := bytesPerLine_ge width
  rw [Nat.add_mul, Nat.one_mul] at lines
  rw [Nat.mul_comm _ height]
  omega

theorem covered_iff (wide : 0 < width) (high : 0 < height) :
    (∀ x < width, ∀ y < height, ∀ channel < 3, channelByte width x y channel < 3 * (width * height)) ↔
      4 ∣ width ∨ height = 1 := by
  have wideLine := bytesPerLine_ge width
  constructor
  · intro covered
    have last := covered (width - 1) (by omega) (height - 1) (by omega) 2 (by omega)
    obtain ⟨lines, rfl⟩ : ∃ lines, height = lines + 1 := ⟨height - 1, by omega⟩
    unfold channelByte at last
    rw [Nat.add_sub_cancel, Nat.mul_add, Nat.mul_one] at last
    have tight : lines * bytesPerLine width ≤ lines * (3 * width) := by
      have swap : lines * (3 * width) = 3 * (width * lines) := by ring
      omega
    rcases Nat.eq_zero_or_pos lines with rfl | some
    · exact .inr rfl
    · left
      rw [← bytesPerLine_eq_iff]
      exact Nat.le_antisymm (Nat.le_of_mul_le_mul_left tight some) wideLine
  · rintro (fits | rfl) x column y row channel three
    · have bound := channelByte_lt column row three
      rw [(bytesPerLine_eq_iff width).mpr fits, Nat.mul_assoc] at bound
      exact bound
    · obtain rfl : y = 0 := by omega
      unfold channelByte
      omega

end Coverage

section Image

variable (toRgb888 : QImage → Rgb888) (img : QImage) (light contrast : ℤ)

/-- The channels the loop does not come to have the adjusted value already. -/
def TailAdjusted (input : QImage) (light contrast : ℤ) : Prop :=
  ∀ x < input.width, ∀ y < input.height, ∀ channel < 3, ∀ v,
    3 * (input.width * input.height) ≤ channelByte input.width x y channel →
      input.bits[channelByte input.width x y channel]? = some v → (v.toNat : ℤ) = adjustedValue light contrast v

def adjustedImage : Option QImage :=
  lightContrastImage (fun img => (toRgb888 img).toQImage) exactLevel (some img) light contrast

variable {toRgb888 img} (width_kept : (toRgb888 img).width = img.width)
  (height_kept : (toRgb888 img).height = img.height)

include width_kept height_kept

theorem adjustedImage_iff :
    (∃ result, adjustedImage toRgb888 img light contrast = some result ∧
      Adjusted (toRgb888 img).toQImage result light contrast) ↔
      TailAdjusted (toRgb888 img).toQImage light contrast := by
  have bytes := adjustPixels_getElem? exactLevel light contrast (toRgb888 img).bits
    ((toRgb888 img).width * (toRgb888 img).height)
  constructor
  · rintro ⟨result, made, _, _, adjusted⟩ x column y row channel three v beyond read
    obtain rfl := Option.some.inj made
    obtain ⟨u, written, value⟩ := adjusted x column y row channel three v read
    simp only [← width_kept, ← height_kept] at written
    rw [bytes, if_neg (by omega), read] at written
    obtain rfl := Option.some.inj written
    exact value
  · intro tail
    refine ⟨_, rfl, rfl, rfl, ?_⟩
    intro x column y row channel three v read
    simp only [← width_kept, ← height_kept, bytes]
    split
    · exact ⟨_, by rw [read]; rfl, adjustByte_value light contrast v⟩
    · rename_i beyond
      exact ⟨v, read, tail x column y row channel three v (by omega) read⟩

theorem tailAdjusted_always_iff :
    (∀ light contrast, TailAdjusted (toRgb888 img).toQImage light contrast) ↔
      4 ∣ img.width ∨ img.height = 1 := by
  rw [← covered_iff img.width_pos img.height_pos]
  constructor
  · intro tails x column y row channel three
    by_contra uncovered
    rw [← width_kept] at column uncovered
    rw [← height_kept] at row uncovered
    have inside : channelByte (toRgb888 img).width x y channel < (toRgb888 img).bits.length := by
      rw [(toRgb888 img).padded]
      exact channelByte_lt column row three
    have read := List.getElem?_eq_getElem inside
    -- A light of 0 makes everything black or everything white, by the contrast.
    have black := tails 0 150 x column y row channel three _ (by omega) read
    have white := tails 0 405 x column y row channel three _ (by omega) read
    rw [black, adjustedValue_dark, adjustedValue_dark] at white
    exact absurd white (by decide)
  · intro covered light contrast x column y row channel three v beyond
    have inside := covered x (by rw [← width_kept]; exact column) y (by rw [← height_kept]; exact row) channel three
    rw [← width_kept, ← height_kept] at inside
    omega

variable (toRgb888 img)

/-- With some settings the channels behind byte `3 * width * height` must already be right. With every setting the
    lines must have no padding, or there is only one. -/
theorem every_pixel_adjusted_iff :
    (∀ light contrast,
      (∃ result, adjustedImage toRgb888 img light contrast = some result ∧
        Adjusted (toRgb888 img).toQImage result light contrast) ↔
        TailAdjusted (toRgb888 img).toQImage light contrast) ∧
    ((∀ light contrast, ∃ result, adjustedImage toRgb888 img light contrast = some result ∧
        Adjusted (toRgb888 img).toQImage result light contrast) ↔
      4 ∣ img.width ∨ img.height = 1) := by
  have each := fun light contrast => adjustedImage_iff light contrast width_kept height_kept
  refine ⟨each, ?_⟩
  rw [← tailAdjusted_always_iff width_kept height_kept]
  exact forall_congr' fun light => forall_congr' fun contrast => each light contrast

end Image

def asRgb888 (img : QImage) : Rgb888 where
  toQImage :=
    let size := bytesPerLine img.width * img.height
    { img with bits := (img.bits ++ List.replicate size 0).take size }
  padded := by simp

def greyBlock : QImage := ⟨4, 2, List.replicate 24 100, by decide, by decide, by decide, by decide⟩

theorem unpadded_lines_adjusted :
    (asRgb888 greyBlock).toQImage = greyBlock ∧
    ∃ result, adjustedImage asRgb888 greyBlock 200 150 = some result ∧
      Adjusted (asRgb888 greyBlock).toQImage result 200 150 :=
  ⟨by decide +kernel, (every_pixel_adjusted_iff asRgb888 greyBlock rfl rfl).2.mpr (.inl (by decide)) 200 150⟩

def greyColumn : QImage :=
  { QImage.pixel [100, 100, 100, 0, 100, 100, 100, 0] with
    height := 2
    height_pos := by decide
    height_int := by decide }

theorem last_blue_not_adjusted :
    (asRgb888 greyColumn).toQImage = greyColumn ∧
    ∃ result, adjustedImage asRgb888 greyColumn 200 150 = some result ∧
      result.bits = [200, 200, 200, 0, 200, 200, 100, 0] ∧ adjustedValue 200 150 100 = 200 ∧
      ¬ Adjusted greyColumn result 200 150 := by
  have value : adjustedValue 200 150 100 = 200 := by
    rw [← adjustByte_value]
    decide +kernel
  refine ⟨by decide +kernel, _, rfl, by decide +kernel, value, ?_⟩
  rintro ⟨_, _, adjusted⟩
  obtain ⟨u, read, blue⟩ := adjusted 0 (by decide) 1 (by decide) 2 (by decide) 100 (by decide +kernel)
  rw [value] at blue
  obtain rfl : u = 100 := by
    have kept : _ = some (100 : UInt8) := read.symm.trans (by decide +kernel)
    exact Option.some.inj kept
  exact absurd blue (by decide)

end XYAnnotation

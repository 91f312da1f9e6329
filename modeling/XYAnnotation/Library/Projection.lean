import Mathlib

namespace Library

variable {K : Type*} [Field K]

/-- Where the perpendicular from `(wx, wy)` meets the line from the origin along `(dx, dy)`, as a multiple of
    `(dx, dy)`. -/
def foot (wx wy dx dy : K) : K := (wx * dx + wy * dy) / (dx ^ 2 + dy ^ 2)

section Foot

variable {wx wy dx dy : K} (long : dx ^ 2 + dy ^ 2 ≠ 0)

include long

theorem perpendicular_iff (u : K) :
    (wx - u * dx) * dx + (wy - u * dy) * dy = 0 ↔ u = foot wx wy dx dy := by
  have moved : (wx - u * dx) * dx + (wy - u * dy) * dy = wx * dx + wy * dy - u * (dx ^ 2 + dy ^ 2) := by ring
  rw [moved, sub_eq_zero, foot, eq_div_iff long, eq_comm]

theorem cross_sq : (wx * dy - wy * dx) ^ 2 =
    (dx ^ 2 + dy ^ 2) * ((wx - foot wx wy dx dy * dx) ^ 2 + (wy - foot wx wy dx dy * dy) ^ 2) := by
  have along : foot wx wy dx dy * (dx ^ 2 + dy ^ 2) = wx * dx + wy * dy := div_mul_cancel₀ _ long
  have height : (dx ^ 2 + dy ^ 2) * ((wx - foot wx wy dx dy * dx) ^ 2 + (wy - foot wx wy dx dy * dy) ^ 2) =
      (dx ^ 2 + dy ^ 2) * (wx ^ 2 + wy ^ 2) - 2 * (foot wx wy dx dy * (dx ^ 2 + dy ^ 2)) * (wx * dx + wy * dy) +
        (foot wx wy dx dy * (dx ^ 2 + dy ^ 2)) ^ 2 := by ring
  rw [height, along]
  ring

/-- How far a point of the line is away: as far as the foot is, and along the line from there. -/
theorem dist_sq_eq (u : K) : (wx - u * dx) ^ 2 + (wy - u * dy) ^ 2 =
    (wx - foot wx wy dx dy * dx) ^ 2 + (wy - foot wx wy dx dy * dy) ^ 2 +
      (u - foot wx wy dx dy) ^ 2 * (dx ^ 2 + dy ^ 2) := by
  have along : foot wx wy dx dy * (dx ^ 2 + dy ^ 2) = wx * dx + wy * dy := div_mul_cancel₀ _ long
  have apart : (wx - u * dx) ^ 2 + (wy - u * dy) ^ 2 - ((wx - foot wx wy dx dy * dx) ^ 2 +
      (wy - foot wx wy dx dy * dy) ^ 2) = (u - foot wx wy dx dy) ^ 2 * (dx ^ 2 + dy ^ 2) +
      2 * (u - foot wx wy dx dy) * (foot wx wy dx dy * (dx ^ 2 + dy ^ 2) - (wx * dx + wy * dy)) := by ring
  rw [along, sub_self, mul_zero, add_zero] at apart
  rw [← apart, add_sub_cancel]

end Foot

section Order

variable [LinearOrder K] [IsStrictOrderedRing K] {wx wy dx dy : K}

theorem foot_pos_iff (long : 0 < dx ^ 2 + dy ^ 2) : 0 < foot wx wy dx dy ↔ 0 < wx * dx + wy * dy :=
  div_pos_iff_of_pos_right long

theorem foot_lt_one_iff (long : 0 < dx ^ 2 + dy ^ 2) :
    foot wx wy dx dy < 1 ↔ 0 < (wx - dx) * -dx + (wy - dy) * -dy := by
  rw [foot, div_lt_one long]
  have moved : (wx - dx) * -dx + (wy - dy) * -dy = dx ^ 2 + dy ^ 2 - (wx * dx + wy * dy) := by ring
  rw [moved, sub_pos]

theorem dist_sq_le (long : 0 < dx ^ 2 + dy ^ 2) {u v : K}
    (closer : |u - foot wx wy dx dy| ≤ |v - foot wx wy dx dy|) :
    (wx - u * dx) ^ 2 + (wy - u * dy) ^ 2 ≤ (wx - v * dx) ^ 2 + (wy - v * dy) ^ 2 := by
  have squares : (u - foot wx wy dx dy) ^ 2 ≤ (v - foot wx wy dx dy) ^ 2 := sq_le_sq.mpr closer
  rw [dist_sq_eq long.ne' u, dist_sq_eq long.ne' v, add_le_add_iff_left]
  exact mul_le_mul_of_nonneg_right squares long.le

theorem foot_nearest (long : 0 < dx ^ 2 + dy ^ 2) (u : K) :
    (wx - foot wx wy dx dy * dx) ^ 2 + (wy - foot wx wy dx dy * dy) ^ 2 ≤ (wx - u * dx) ^ 2 + (wy - u * dy) ^ 2 := by
  apply dist_sq_le long
  rw [sub_self, abs_zero]
  exact abs_nonneg _

theorem nearest_iff (long : 0 < dx ^ 2 + dy ^ 2) (u : K) :
    (∀ v : K, (wx - u * dx) ^ 2 + (wy - u * dy) ^ 2 ≤ (wx - v * dx) ^ 2 + (wy - v * dy) ^ 2) ↔
      u = foot wx wy dx dy := by
  constructor
  · intro nearest
    have beside := nearest (foot wx wy dx dy)
    rw [dist_sq_eq long.ne' u, add_le_iff_nonpos_right] at beside
    have square : (u - foot wx wy dx dy) ^ 2 = 0 :=
      le_antisymm (nonpos_of_mul_nonpos_left beside long) (sq_nonneg _)
    exact sub_eq_zero.mp (pow_eq_zero_iff two_ne_zero |>.mp square)
  · rintro rfl
    exact foot_nearest long

/-- A segment from `(0, 0)` to `(dx, dy)` with both ends outside a disc about `(wx, wy)` meets it exactly when its line
    does and the foot lies between the ends. -/
theorem segment_meets_iff {r : K} (first : r ^ 2 < wx ^ 2 + wy ^ 2) (last : r ^ 2 < (wx - dx) ^ 2 + (wy - dy) ^ 2) :
    (∃ u, 0 ≤ u ∧ u ≤ 1 ∧ (wx - u * dx) ^ 2 + (wy - u * dy) ^ 2 ≤ r ^ 2) ↔
      (wx * dy - wy * dx) ^ 2 ≤ (dx ^ 2 + dy ^ 2) * r ^ 2 ∧ 0 < wx * dx + wy * dy ∧
        0 < (wx - dx) * -dx + (wy - dy) * -dy := by
  rcases (add_nonneg (sq_nonneg dx) (sq_nonneg dy)).eq_or_lt with short | long
  · -- Both ends are the same point, which is outside.
    obtain ⟨rfl, rfl⟩ : dx = 0 ∧ dy = 0 := by
      rw [eq_comm, add_eq_zero_iff_of_nonneg (sq_nonneg dx) (sq_nonneg dy)] at short
      exact ⟨pow_eq_zero_iff two_ne_zero |>.mp short.1, pow_eq_zero_iff two_ne_zero |>.mp short.2⟩
    simp [not_le.mpr first]
  · rw [← foot_pos_iff long, ← foot_lt_one_iff long, cross_sq long.ne', mul_le_mul_iff_right₀ long]
    constructor
    · rintro ⟨u, low, high, near⟩
      refine ⟨(foot_nearest long u).trans near, ?_, ?_⟩
      · by_contra before
        have closer : |0 - foot wx wy dx dy| ≤ |u - foot wx wy dx dy| := by
          rw [abs_of_nonneg (by linarith), abs_of_nonneg (by linarith)]
          linarith
        have start := (dist_sq_le long closer).trans near
        simp only [zero_mul, sub_zero] at start
        exact absurd start (not_le.mpr first)
      · by_contra beyond
        have closer : |1 - foot wx wy dx dy| ≤ |u - foot wx wy dx dy| := by
          rw [abs_of_nonpos (by linarith), abs_of_nonpos (by linarith)]
          linarith
        have stop := (dist_sq_le long closer).trans near
        simp only [one_mul] at stop
        exact absurd stop (not_le.mpr last)
    · rintro ⟨near, low, high⟩
      exact ⟨foot wx wy dx dy, low.le, high.le, near⟩

theorem sq_add_sq_le {x y s : K} (near : |x| + |y| ≤ s) : x ^ 2 + y ^ 2 ≤ s ^ 2 := by
  have sides : 0 ≤ |x| * |y| := mul_nonneg (abs_nonneg x) (abs_nonneg y)
  calc x ^ 2 + y ^ 2 = |x| ^ 2 + |y| ^ 2 := by rw [sq_abs, sq_abs]
    _ ≤ (|x| + |y|) ^ 2 := by linarith only [sides, add_sq |x| |y|]
    _ ≤ s ^ 2 := pow_le_pow_left₀ (add_nonneg (abs_nonneg x) (abs_nonneg y)) near 2

end Order

end Library

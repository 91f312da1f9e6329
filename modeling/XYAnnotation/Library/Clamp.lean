import Mathlib

namespace Library

open Set

/-- Cutting off what is above and then what is below is the projection to the interval. -/
theorem cuts_eq_projIcc {K : Type*} [LinearOrder K] {low high : K} (room : low ≤ high) (x : K) :
    (if (if x ≥ high then high else x) ≤ low then low else if x ≥ high then high else x) =
      (projIcc low high room x : K) := by
  have above : (if x ≥ high then high else x) = min high x := by
    split
    · rename_i beyond
      exact (min_eq_left beyond).symm
    · rename_i within
      exact (min_eq_right (not_le.mp within).le).symm
  rw [above, coe_projIcc]
  split
  · rename_i below
    exact (max_eq_left below).symm
  · rename_i within
    exact (max_eq_right (not_le.mp within).le).symm

variable {K : Type*} [Field K] [LinearOrder K] [IsStrictOrderedRing K] {low high : K}

theorem projIcc_obtuse (room : low ≤ high) (x : K) {q : K} (inside : q ∈ Icc low high) :
    (x - projIcc low high room x) * (q - projIcc low high room x) ≤ 0 := by
  rcases le_total x low with below | above
  · rw [projIcc_of_le_left room below]
    exact mul_nonpos_of_nonpos_of_nonneg (sub_nonpos.mpr below) (sub_nonneg.mpr inside.1)
  · rcases le_total x high with within | beyond
    · rw [projIcc_of_mem room ⟨above, within⟩, sub_self, zero_mul]
    · rw [projIcc_of_right_le room beyond]
      exact mul_nonpos_of_nonneg_of_nonpos (sub_nonneg.mpr beyond) (sub_nonpos.mpr inside.2)

theorem projIcc_sq_le (room : low ≤ high) (x : K) {q : K} (inside : q ∈ Icc low high) :
    (x - projIcc low high room x) ^ 2 + (q - projIcc low high room x) ^ 2 ≤ (x - q) ^ 2 := by
  have obtuse := projIcc_obtuse room x inside
  generalize (projIcc low high room x : K) = c at obtuse ⊢
  have split : (x - q) ^ 2 = (x - c) ^ 2 + (q - c) ^ 2 - 2 * ((x - c) * (q - c)) := by ring
  rw [split]
  linarith

end Library

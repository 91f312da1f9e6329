import Mathlib

namespace Library

variable {R M : Type*} [CommRing R] [AddCommGroup M] [Module R M]

/-- Each value of a sequence replaced by the point a part `t` of the way to the next one. -/
def lerp (t : R) : Module.End R (ℕ → M) := t • LinearMap.funLeft R M Nat.succ + (1 - t) • 1

theorem lerp_apply (t : R) (values : ℕ → M) (i : ℕ) :
    lerp t values i = (1 - t) • values i + t • values (i + 1) := add_comm _ _

theorem lerp_pow_succ_apply (t : R) (n : ℕ) (values : ℕ → M) (i : ℕ) :
    (lerp t ^ (n + 1)) values i = (1 - t) • (lerp t ^ n) values i + t • (lerp t ^ n) values (i + 1) := by
  rw [pow_succ', Module.End.mul_apply, lerp_apply]

theorem lerp_pow_mem [PartialOrder R] [IsOrderedRing R] {s : Set M} (convex : Convex R s) {t : R} (low : 0 ≤ t)
    (high : t ≤ 1) {n i : ℕ} {values : ℕ → M} (inside : ∀ j ≤ n, values (i + j) ∈ s) : (lerp t ^ n) values i ∈ s := by
  induction n generalizing i with
  | zero => exact inside 0 (Nat.le_refl 0)
  | succ n ih =>
    have first : (lerp t ^ n) values i ∈ s := ih fun j bound => inside j (by omega)
    have second : (lerp t ^ n) values (i + 1) ∈ s := by
      apply ih
      intro j bound
      rw [Nat.add_assoc, Nat.add_comm 1 j]
      exact inside (j + 1) (by omega)
    rw [lerp_pow_succ_apply]
    exact convex first second (sub_nonneg.mpr high) low (sub_add_cancel 1 t)

theorem shift_pow_apply (m : ℕ) (values : ℕ → M) (i : ℕ) :
    ((LinearMap.funLeft R M Nat.succ : Module.End R (ℕ → M)) ^ m) values i = values (i + m) := by
  induction m generalizing i with
  | zero => rfl
  | succ m ih =>
    rw [pow_succ', Module.End.mul_apply, LinearMap.funLeft_apply, ih]
    congr 1
    omega

def bernsteinWeight (t : R) (n m : ℕ) : R := n.choose m * (1 - t) ^ (n - m) * t ^ m

/-- Passing over a sequence `n` times weighs its values with the terms of the binomial theorem. -/
theorem lerp_pow_apply (t : R) (n : ℕ) (values : ℕ → M) (i : ℕ) :
    (lerp t ^ n) values i = ∑ m ∈ Finset.range (n + 1), bernsteinWeight t n m • values (i + m) := by
  let shift : Module.End R (ℕ → M) := LinearMap.funLeft R M Nat.succ
  have commute : Commute (t • shift) ((1 - t) • 1) :=
    ((Commute.one_right shift).smul_left t).smul_right (1 - t)
  have expanded : (lerp t : Module.End R (ℕ → M)) ^ n =
      ∑ m ∈ Finset.range (n + 1), bernsteinWeight t n m • shift ^ m := by
    rw [lerp, commute.add_pow]
    apply Finset.sum_congr rfl
    intro m _
    rw [smul_pow, smul_pow, one_pow, smul_mul_smul_comm, mul_one, ← nsmul_eq_mul', ← Nat.cast_smul_eq_nsmul R, smul_smul,
      bernsteinWeight]
    congr 1
    ring
  rw [expanded, LinearMap.sum_apply, Finset.sum_apply]
  apply Finset.sum_congr rfl
  intro m _
  rw [LinearMap.smul_apply, Pi.smul_apply, shift_pow_apply]

end Library

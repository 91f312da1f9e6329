import Mathlib

namespace Library

/-- Tries `start`, `start + 1`, ... and gives the first free number; after `fuel` failures it
    gives the next number untested. -/
def firstFree (free : ℕ → Bool) : (fuel start : ℕ) → ℕ
  | 0, start => start
  | fuel + 1, start => if free start then start else firstFree free fuel (start + 1)

theorem firstFree_free (free : ℕ → Bool) (fuel start : ℕ)
    (some_free : ∃ n, start ≤ n ∧ n ≤ start + fuel ∧ free n = true) :
    free (firstFree free fuel start) = true := by
  induction fuel generalizing start with
  | zero =>
    obtain ⟨n, low, high, isFree⟩ := some_free
    have same : n = start := by omega
    simpa [firstFree, same] using isFree
  | succ fuel ih =>
    obtain ⟨n, low, high, isFree⟩ := some_free
    simp only [firstFree]
    split
    · assumption
    · rename_i taken
      have above : n ≠ start := by
        rintro rfl
        exact taken isFree
      exact ih (start + 1) ⟨n, by omega, by omega, isFree⟩

theorem firstFree_least (free : ℕ → Bool) (fuel start : ℕ) {n : ℕ} (low : start ≤ n)
    (below : n < firstFree free fuel start) : free n = false := by
  induction fuel generalizing start with
  | zero =>
    rw [firstFree] at below
    omega
  | succ fuel ih =>
    rw [firstFree] at below
    split at below
    · omega
    · rename_i taken
      by_cases first : n = start
      · rw [first]
        exact Bool.eq_false_iff.mpr taken
      · exact ih (start + 1) (by omega) below

theorem firstFree_le (free : ℕ → Bool) (fuel start : ℕ) : firstFree free fuel start ≤ start + fuel := by
  induction fuel generalizing start with
  | zero => exact Nat.le_refl _
  | succ fuel ih =>
    rw [firstFree]
    split
    · omega
    · have bound := ih (start + 1)
      omega

theorem firstFree_fuel {free : ℕ → Bool} {fuel more : ℕ} (some_free : ∃ n ≤ fuel, free n = true)
    (enough : fuel ≤ more) : firstFree free more 0 = firstFree free fuel 0 := by
  obtain ⟨n, bound, isFree⟩ := some_free
  have found := firstFree_free free fuel 0 ⟨n, Nat.zero_le _, by omega, isFree⟩
  have foundMore := firstFree_free free more 0 ⟨n, Nat.zero_le _, by omega, isFree⟩
  rcases Nat.lt_trichotomy (firstFree free more 0) (firstFree free fuel 0) with less | same | greater
  · rw [firstFree_least free fuel 0 (Nat.zero_le _) less] at foundMore
    cases foundMore
  · exact same
  · rw [firstFree_least free more 0 (Nat.zero_le _) greater] at found
    cases found

/-- Pigeonhole: of `used.length + 1` different candidates one is not in use. -/
theorem exists_unused {α : Type*} [DecidableEq α] (candidate : ℕ → α)
    (injective : Function.Injective candidate) (used : List α) :
    ∃ n ≤ used.length, candidate n ∉ used := by
  by_contra all
  have inUse : ∀ n ≤ used.length, candidate n ∈ used := by
    intro n bound
    by_contra unused
    exact all ⟨n, bound, unused⟩
  have inside : (Finset.range (used.length + 1)).image candidate ⊆ used.toFinset := by
    intro name member
    obtain ⟨n, inRange, rfl⟩ := Finset.mem_image.mp member
    exact List.mem_toFinset.mpr (inUse n (by simpa [Nat.lt_succ_iff] using inRange))
  have card := Finset.card_le_card inside
  rw [Finset.card_image_of_injective _ injective, Finset.card_range] at card
  have few := List.toFinset_card_le used
  omega

end Library

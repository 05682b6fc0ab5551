import Mathlib.Data.Finset.Card
import Mathlib.Data.Finset.Image
import Mathlib.Order.Interval.Finset.Nat

/-! # The first free number

A loop that counts up until it meets a free number. `search free fuel i` tries `i, i + 1, …` and
gives up after `fuel` numbers; with a free number within reach it returns the first one
(`search_spec`). A set of `n` taken names always leaves one of the next `n + 1` numbers free, so
counting up through distinct names ends (`exists_free`). -/

namespace Cloudx.Lib.Fresh

/-- The first number from `i` on that is free, among the next `fuel`; `i + fuel` if none is. -/
def search (free : ℕ → Bool) : ℕ → ℕ → ℕ
  | 0, i => i
  | fuel + 1, i => if free i then i else search free fuel (i + 1)

/-- **The search stops at the first free number.** -/
theorem search_spec (free : ℕ → Bool) : ∀ (fuel i : ℕ), (∃ j, i ≤ j ∧ j ≤ i + fuel ∧ free j) →
    free (search free fuel i) ∧ i ≤ search free fuel i ∧
      ∀ j, i ≤ j → j < search free fuel i → ¬ free j
  | 0, i, ⟨j, h1, h2, hj⟩ => by
    have : j = i := by omega
    subst this
    exact ⟨hj, le_rfl, fun j h1 h2 => by simp only [search] at h2; omega⟩
  | fuel + 1, i, ⟨j, h1, h2, hj⟩ => by
    simp only [search]
    split_ifs with h
    · exact ⟨h, le_rfl, fun j h1 h2 => by omega⟩
    · have hij : i ≠ j := fun he => h (he ▸ hj)
      obtain ⟨s1, s2, s3⟩ := search_spec free fuel (i + 1) ⟨j, by omega, by omega, hj⟩
      refine ⟨s1, by omega, fun k hk1 hk2 => ?_⟩
      rcases Nat.eq_or_lt_of_le hk1 with rfl | hk
      · exact h
      · exact s3 k hk hk2

/-- Counting through distinct names meets one outside a finite set of taken names. -/
theorem exists_free {κ : Type} [DecidableEq κ] (f : ℕ → κ) (hf : Function.Injective f)
    (taken : Finset κ) (i : ℕ) : ∃ j, i ≤ j ∧ j ≤ i + taken.card ∧ f j ∉ taken := by
  by_contra hno
  push Not at hno
  have hsub : (Finset.Icc i (i + taken.card)).image f ⊆ taken := by
    intro x hx
    obtain ⟨j, hj, rfl⟩ := Finset.mem_image.mp hx
    rw [Finset.mem_Icc] at hj
    exact hno j hj.1 hj.2
  have hcard := Finset.card_le_card hsub
  rw [Finset.card_image_of_injective _ hf, Nat.card_Icc] at hcard
  omega

end Cloudx.Lib.Fresh

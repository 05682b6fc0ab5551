import Mathlib.Data.List.Basic

/-! # What a search reaches

A loop that goes through a list as long as its items are passed over reaches an item when it has
passed over all those before it. -/

namespace Cloudx.Lib.Search

variable {α : Type} {passes : α → Prop}

/-- The search comes to `x`: it has passed over every item before. -/
def Reached (passes : α → Prop) (l : List α) (x : α) : Prop :=
  ∃ before after, l = before ++ x :: after ∧ ∀ b ∈ before, passes b

theorem not_reached_nil (x : α) : ¬ Reached passes [] x := by
  rintro ⟨before, after, h, -⟩
  simp at h

/-- **The first item is reached, and the others if it is passed over.** -/
theorem reached_cons {y : α} {l : List α} {x : α} :
    Reached passes (y :: l) x ↔ x = y ∨ passes y ∧ Reached passes l x := by
  constructor
  · rintro ⟨before, after, h, hpasses⟩
    rcases before with _ | ⟨b, before⟩
    · exact Or.inl (List.cons.inj h).1.symm
    · obtain ⟨rfl, hrest⟩ := List.cons.inj h
      exact Or.inr ⟨hpasses y List.mem_cons_self, before, after, hrest,
        fun b hb => hpasses b (List.mem_cons_of_mem _ hb)⟩
  · rintro (rfl | ⟨hy, before, after, rfl, hpasses⟩)
    · exact ⟨[], l, rfl, fun b hb => absurd hb (by simp)⟩
    · refine ⟨y :: before, after, rfl, fun b hb => ?_⟩
      rcases List.mem_cons.mp hb with rfl | hb
      · exact hy
      · exact hpasses b hb

/-- Everything reached has a property: the first item has it, and if it is passed over so has
everything reached after it. -/
theorem forall_reached_cons {y : α} {l : List α} {P : α → Prop} :
    (∀ x, Reached passes (y :: l) x → P x) ↔ P y ∧ (passes y → ∀ x, Reached passes l x → P x) := by
  simp only [reached_cons]
  constructor
  · intro h
    exact ⟨h y (Or.inl rfl), fun hy x hx => h x (Or.inr ⟨hy, hx⟩)⟩
  · rintro ⟨hy, hrest⟩ x (rfl | ⟨hpass, hx⟩)
    · exact hy
    · exact hrest hpass x hx

end Cloudx.Lib.Search

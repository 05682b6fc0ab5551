import Mathlib.Tactic.SplitIfs

/-! # Validators

A validator is a chain of checks, each of which passes with a value or ends the chain with an error.
Two questions are asked of a chain: when it ends well, and which errors it can end with. `Only P`
says that every error satisfies `P`; both questions go through a chain check by check. -/

namespace Cloudx.Lib.Checks

variable {ε α β : Type} {P : ε → Prop}

/-- Every error of the chain satisfies `P`. -/
def Only (P : ε → Prop) (x : Except ε α) : Prop := ∀ e, x = .error e → P e

/-- Ends the chain with `e` unless the condition holds. -/
def require (condition : Bool) (e : ε) : Except ε Unit := if condition then .ok () else .error e

@[simp] theorem bind_ok_iff {x : Except ε α} {f : α → Except ε β} {b : β} :
    (x >>= f) = .ok b ↔ ∃ a, x = .ok a ∧ f a = .ok b := by
  rcases x with e | a
  · constructor
    · intro h; cases h
    · rintro ⟨a, h, -⟩; cases h
  · constructor
    · intro h; exact ⟨a, rfl, h⟩
    · rintro ⟨a', h, h'⟩; cases h; exact h'

theorem bind_error_iff {x : Except ε α} {f : α → Except ε β} {e : ε} :
    (x >>= f) = .error e ↔ x = .error e ∨ ∃ a, x = .ok a ∧ f a = .error e := by
  rcases x with e' | a
  · constructor
    · intro h; cases h; exact .inl rfl
    · rintro (h | ⟨a, h, -⟩)
      · cases h; rfl
      · cases h
  · constructor
    · intro h; exact .inr ⟨a, rfl, h⟩
    · rintro (h | ⟨a', h, h'⟩)
      · cases h
      · cases h; exact h'

theorem only_ok (a : α) : Only P (.ok a) := fun e h => by cases h

theorem only_pure (a : α) : Only P (pure a : Except ε α) := fun e h => by cases h

theorem only_error {e : ε} : Only P (.error e : Except ε α) ↔ P e := by
  constructor
  · intro h; exact h e rfl
  · intro h e' he'; cases he'; exact h

theorem only_bind {x : Except ε α} {f : α → Except ε β} :
    Only P (x >>= f) ↔ Only P x ∧ ∀ a, x = .ok a → Only P (f a) := by
  rcases x with e | a
  · constructor
    · intro h
      exact ⟨fun e' he' => h e' (by cases he'; rfl), fun a ha => by cases ha⟩
    · rintro ⟨h, -⟩ e' he'
      exact h e' (by cases he'; rfl)
  · constructor
    · intro h
      exact ⟨only_ok a, fun a' ha' => by cases ha'; exact h⟩
    · rintro ⟨-, h⟩
      exact h a rfl

@[simp] theorem require_ok {condition : Bool} {e : ε} {u : Unit} :
    require condition e = .ok u ↔ condition = true := by
  unfold require
  split_ifs with h
  · exact iff_of_true rfl h
  · exact iff_of_false (fun he => by cases he) h

theorem only_require {condition : Bool} {e : ε} (h : P e) : Only P (require condition e) := by
  unfold require
  split_ifs
  · exact only_ok ()
  · exact only_error.mpr h

/-- A chain ends well or with an error in `P`. -/
theorem only_iff {x : Except ε α} :
    Only P x ↔ (∃ a, x = .ok a) ∨ ∃ e, x = .error e ∧ P e := by
  rcases x with e | a
  · rw [only_error]
    constructor
    · intro h; exact .inr ⟨e, rfl, h⟩
    · rintro (⟨_, h⟩ | ⟨e', h, hp⟩)
      · cases h
      · cases h; exact hp
  · exact iff_of_true (only_ok a) (.inl ⟨a, rfl⟩)

/-- A check that only ends with errors in `P` drops out of the question. -/
theorem only_bind_of {x : Except ε α} {f : α → Except ε β} (hx : Only P x) :
    Only P (x >>= f) ↔ ∀ a, x = .ok a → Only P (f a) := by
  rw [only_bind, and_iff_right hx]

theorem only_require_bind {condition : Bool} {e : ε} (h : P e) {f : Unit → Except ε β} :
    Only P (require condition e >>= f) ↔ (condition = true → Only P (f ())) := by
  rw [only_bind_of (only_require h)]
  constructor
  · intro hf hc; exact hf () (require_ok.mpr hc)
  · intro hf u hu; exact hf (require_ok.mp hu)

end Cloudx.Lib.Checks

import Mathlib.Data.List.Infix

/-! # First and last occurrences

A list from the first occurrence of a pattern on, and from the last. They are the longest and the
shortest suffix that starts with the pattern, and one suffix exactly if there is no second occurrence
(`first_eq_last_iff`). The last occurrence is found in any window at the end that holds it
(`fromLast_window`). -/

namespace Cloudx.Lib.Markers

variable {α : Type} {p : List α}

/-! ### Occurrences -/

/-- A suffix that starts with the pattern. -/
def Occurs (p l s : List α) : Prop := s <:+ l ∧ p <+: s

theorem not_occurs_nil (hp : p ≠ []) (s : List α) : ¬ Occurs p [] s := by
  rintro ⟨hs, hprefix⟩
  rw [List.suffix_nil.mp hs] at hprefix
  exact hp (List.prefix_nil.mp hprefix)

theorem occurs_cons {a : α} {l s : List α} :
    Occurs p (a :: l) s ↔ s = a :: l ∧ p <+: a :: l ∨ Occurs p l s := by
  rw [Occurs, Occurs, List.suffix_cons_iff]
  constructor
  · rintro ⟨rfl | hs, hprefix⟩
    · exact .inl ⟨rfl, hprefix⟩
    · exact .inr ⟨hs, hprefix⟩
  · rintro (⟨rfl, hprefix⟩ | ⟨hs, hprefix⟩)
    · exact ⟨.inl rfl, hprefix⟩
    · exact ⟨.inr hs, hprefix⟩

theorem Occurs.length_le {l s : List α} (h : Occurs p l s) : s.length ≤ l.length := h.1.length_le

/-- Two occurrences at one place are one. -/
theorem Occurs.eq_of_length {l s t : List α} (hs : Occurs p l s) (ht : Occurs p l t)
    (h : s.length = t.length) : s = t :=
  (List.suffix_of_suffix_length_le hs.1 ht.1 (Nat.le_of_eq h)).eq_of_length h

/-- An occurrence in a suffix of the list. -/
theorem Occurs.of_suffix {l l' s : List α} (h : Occurs p l' s) (hl : l' <:+ l) : Occurs p l s :=
  ⟨h.1.trans hl, h.2⟩

/-- An occurrence is in every suffix that is as long. -/
theorem Occurs.in_suffix {l l' s : List α} (h : Occurs p l s) (hl : l' <:+ l)
    (hlen : s.length ≤ l'.length) : Occurs p l' s :=
  ⟨List.suffix_of_suffix_length_le h.1 hl hlen, h.2⟩

/-! ### Searching from either end -/

variable [DecidableEq α]

/-- The list from the first occurrence of a pattern on. -/
def fromFirst (p : List α) : List α → Option (List α)
  | [] => none
  | a :: l => if p <+: a :: l then some (a :: l) else fromFirst p l

/-- The list from the last occurrence of a pattern on. -/
def fromLast (p : List α) : List α → Option (List α)
  | [] => none
  | a :: l => match fromLast p l with
    | some s => some s
    | none => if p <+: a :: l then some (a :: l) else none

theorem fromFirst_none (hp : p ≠ []) : ∀ {l : List α}, fromFirst p l = none ↔ ∀ s, ¬ Occurs p l s
  | [] => iff_of_true rfl (not_occurs_nil hp)
  | a :: l => by
    rw [fromFirst]
    split_ifs with h
    · refine iff_of_false (by simp) fun hno => hno (a :: l) (occurs_cons.mpr (.inl ⟨rfl, h⟩))
    · rw [fromFirst_none hp]
      simp only [occurs_cons, not_or]
      exact ⟨fun hno s => ⟨fun hs => h hs.2, hno s⟩, fun hno s => (hno s).2⟩

theorem fromLast_none (hp : p ≠ []) : ∀ {l : List α}, fromLast p l = none ↔ ∀ s, ¬ Occurs p l s
  | [] => iff_of_true rfl (not_occurs_nil hp)
  | a :: l => by
    have ih := @fromLast_none hp l
    rw [fromLast]
    cases hl : fromLast p l with
    | some t =>
      rw [hl] at ih
      refine iff_of_false (by simp) fun hno => ?_
      have hsome : ¬ ∀ s, ¬ Occurs p l s := fun h => by simpa using ih.mpr h
      exact hsome fun s hs => hno s (occurs_cons.mpr (.inr hs))
    | none =>
      have hnone := ih.mp hl
      show (if p <+: a :: l then some (a :: l) else none) = none ↔ _
      split_ifs with h
      · refine iff_of_false (by simp) fun hno => hno (a :: l) (occurs_cons.mpr (.inl ⟨rfl, h⟩))
      · refine iff_of_true rfl fun s hs => ?_
        rcases occurs_cons.mp hs with hs | hs
        · exact h hs.2
        · exact hnone s hs

/-- **The first occurrence is the longest suffix.** -/
theorem fromFirst_some (hp : p ≠ []) : ∀ {l s : List α}, fromFirst p l = some s →
    Occurs p l s ∧ ∀ t, Occurs p l t → t.length ≤ s.length
  | [], s, h => by cases h
  | a :: l, s, h => by
    rw [fromFirst] at h
    split_ifs at h with hstart
    · obtain rfl := Option.some.inj h
      exact ⟨occurs_cons.mpr (.inl ⟨rfl, hstart⟩), fun t ht => ht.length_le⟩
    · obtain ⟨hs, hmax⟩ := fromFirst_some hp h
      refine ⟨occurs_cons.mpr (.inr hs), fun t ht => ?_⟩
      rcases occurs_cons.mp ht with ht | ht
      · exact absurd ht.2 hstart
      · exact hmax t ht

/-- **The last occurrence is the shortest suffix.** -/
theorem fromLast_some (hp : p ≠ []) : ∀ {l s : List α}, fromLast p l = some s →
    Occurs p l s ∧ ∀ t, Occurs p l t → s.length ≤ t.length
  | [], s, h => by cases h
  | a :: l, s, h => by
    rw [fromLast] at h
    cases hl : fromLast p l with
    | some r =>
      rw [hl] at h
      obtain rfl : r = s := Option.some.inj h
      obtain ⟨hs, hmin⟩ := fromLast_some hp hl
      refine ⟨occurs_cons.mpr (.inr hs), fun t ht => ?_⟩
      rcases occurs_cons.mp ht with ⟨rfl, -⟩ | ht
      · exact hs.length_le.trans (Nat.le_succ _)
      · exact hmin t ht
    | none =>
      rw [hl] at h
      replace h : (if p <+: a :: l then some (a :: l) else none) = some s := h
      split_ifs at h with hstart
      obtain rfl := Option.some.inj h
      refine ⟨occurs_cons.mpr (.inl ⟨rfl, hstart⟩), fun t ht => ?_⟩
      rcases occurs_cons.mp ht with ⟨rfl, -⟩ | ht
      · exact Nat.le_refl _
      · exact absurd ht ((fromLast_none hp).mp hl t)

/-- The shortest suffix that starts with the pattern is the last occurrence. -/
theorem fromLast_eq (hp : p ≠ []) {l s : List α} (hs : Occurs p l s)
    (hmin : ∀ t, Occurs p l t → s.length ≤ t.length) : fromLast p l = some s := by
  cases h : fromLast p l with
  | none => exact absurd hs ((fromLast_none hp).mp h s)
  | some r =>
    obtain ⟨hr, hminr⟩ := fromLast_some hp h
    rw [hr.eq_of_length hs (Nat.le_antisymm (hminr s hs) (hmin r hr))]

/-- **The first occurrence is the last one exactly if there is no other.** -/
theorem first_eq_last_iff (hp : p ≠ []) {l s : List α} (h : fromLast p l = some s) :
    fromFirst p l = some s ↔ ∀ t, Occurs p l t → t = s := by
  obtain ⟨hs, hmin⟩ := fromLast_some hp h
  constructor
  · intro hfirst t ht
    obtain ⟨-, hmax⟩ := fromFirst_some hp hfirst
    exact ht.eq_of_length hs (Nat.le_antisymm (hmax t ht) (hmin t ht))
  · intro hall
    cases hfirst : fromFirst p l with
    | none => exact absurd hs ((fromFirst_none hp).mp hfirst s)
    | some t => rw [hall t (fromFirst_some hp hfirst).1]

/-- **The last occurrence in a window at the end is the last of all.** -/
theorem fromLast_window (hp : p ≠ []) {l l' s : List α} (hl : l' <:+ l)
    (h : fromLast p l' = some s) : fromLast p l = some s := by
  obtain ⟨hs, hmin⟩ := fromLast_some hp h
  refine fromLast_eq hp (hs.of_suffix hl) fun t ht => ?_
  by_cases hlen : t.length ≤ l'.length
  · exact hmin t (ht.in_suffix hl hlen)
  · exact hs.length_le.trans (by omega)

end Cloudx.Lib.Markers

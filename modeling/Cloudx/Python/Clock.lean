import Cloudx.Python.Dump

/-! # The text of an instant

`datetime.isoformat` of a time in UTC, and that text with `Z` for its offset, are read back as the
instant they name. `Iso` collects what the standard library promises about an instant. -/

namespace Cloudx.Python.Clock

open Cloudx.Python.Text Cloudx.Python.Value

/-- The characters of a date and time before the offset. -/
def isoChars : Str := lit "0123456789-T:."

/-- `t.isoformat()` is a date and time with the offset of UTC, and is read back as `t`. -/
structure Iso (py : Py) (t : ℚ) : Prop where
  inCalendar : inRange t = true
  shape : ∃ x, py.isoformat t = x ++ lit "+00:00" ∧ x ≠ [] ∧ x.length ≤ 26 ∧ ∀ c ∈ x, c ∈ isoChars
  reads : py.fromisoformat (py.isoformat t) = some t
  zone : py.hasZone (py.isoformat t) = true

/-- `t.isoformat().replace("+00:00", "Z")`, the text of `utc_now` -/
def stamp (py : Py) (t : ℚ) : Str := replace (lit "+00:00") (lit "Z") (py.isoformat t)

/-- A text without blanks is not stripped. -/
theorem strip_of_all {s : Str} (h : ∀ c ∈ s, isSpace c = false) : strip s = s := by
  have hdrop : ∀ t : Str, (∀ c ∈ t, isSpace c = false) → t.dropWhile isSpace = t := by
    intro t ht
    rcases t with _ | ⟨c, t⟩
    · rfl
    · rw [List.dropWhile_cons_of_neg (by simp [ht c List.mem_cons_self])]
  unfold strip
  rw [hdrop s h, hdrop s.reverse fun c hc => h c (List.mem_reverse.mp hc), List.reverse_reverse]

theorem isoChars_plain : ∀ c ∈ isoChars, isSpace c = false ∧ c ≠ 43 ∧ c ≠ 90 := by decide

variable {py : Py} {t : ℚ}

theorem replace_offset (x : Str) (hx : ∀ c ∈ x, c ≠ 43) :
    replace (lit "+00:00") (lit "Z") (x ++ lit "+00:00") = x ++ lit "Z" := by
  unfold replace
  induction x with
  | nil => decide
  | cons c x ih =>
    have hc : startsWith (c :: x ++ lit "+00:00") (lit "+00:00") = false := by
      refine decide_eq_false fun hp => hx c List.mem_cons_self ?_
      exact (List.cons_prefix_cons.mp hp).1.symm
    rw [List.cons_append, replaceFrom, if_neg (by rw [← List.cons_append, hc]; simp),
      ih fun d hd => hx d (List.mem_cons_of_mem _ hd)]
    rfl

theorem isoText_offset (x : Str) : isoText (x ++ lit "+00:00") = x ++ lit "+00:00" := by
  unfold isoText
  rw [if_neg]
  intro h
  have hlast := List.IsSuffix.getLast (of_decide_eq_true h) (by decide)
  rw [List.getLast_append_of_ne_nil _ (by decide)] at hlast
  exact absurd hlast (by decide)

theorem isoText_z (x : Str) : isoText (x ++ lit "Z") = x ++ lit "+00:00" := by
  have hz : endsWith (x ++ lit "Z") (lit "Z") = true := decide_eq_true (List.suffix_append x _)
  have hl : (x ++ lit "Z").dropLast = x := List.dropLast_concat
  unfold isoText
  rw [if_pos hz, hl]

/-- **The text of an instant**: it is short, has no blanks and is read as the instant. -/
theorem Iso.text (h : Iso py t) : strip (py.isoformat t) = py.isoformat t ∧
    isoText (py.isoformat t) = py.isoformat t ∧ py.isoformat t ≠ [] ∧
    (py.isoformat t).length ≤ 64 ∧ ∀ c ∈ py.isoformat t, c ∈ isoChars ∨ c = 43 := by
  obtain ⟨x, hx, hne, hlen, hchars⟩ := h.shape
  have hall : ∀ c ∈ py.isoformat t, c ∈ isoChars ∨ c = 43 := by
    intro c hc
    rw [hx, List.mem_append] at hc
    rcases hc with hc | hc
    · exact .inl (hchars c hc)
    · exact (show ∀ c ∈ lit "+00:00", c ∈ isoChars ∨ c = 43 by decide) c hc
  refine ⟨strip_of_all fun c hc => ?_, by rw [hx]; exact isoText_offset x, ?_, ?_, hall⟩
  · rcases hall c hc with h | rfl
    · exact (isoChars_plain c h).1
    · rfl
  · rw [hx]; simp [hne]
  · have h6 : (lit "+00:00").length = 6 := rfl
    rw [hx, List.length_append]
    omega

/-- **The text with `Z`** is read as the text with the offset. -/
theorem Iso.stamped (h : Iso py t) : strip (stamp py t) = stamp py t ∧
    isoText (stamp py t) = py.isoformat t ∧ stamp py t ≠ [] ∧ (stamp py t).length ≤ 64 := by
  obtain ⟨x, hx, hne, hlen, hchars⟩ := h.shape
  have hstamp : stamp py t = x ++ lit "Z" := by
    unfold stamp
    rw [hx]
    exact replace_offset x fun c hc => (isoChars_plain c (hchars c hc)).2.1
  rw [hstamp]
  refine ⟨strip_of_all fun c hc => ?_, by rw [hx]; exact isoText_z x, by simp [hne], ?_⟩
  · rcases List.mem_append.mp hc with h | h
    · exact (isoChars_plain c (hchars c h)).1
    · exact (show ∀ c ∈ lit "Z", isSpace c = false by decide) c h
  · have h1 : (lit "Z").length = 1 := rfl
    rw [List.length_append]
    omega

/-- The text with `Z` has the characters of a date and time, and its last letter. -/
theorem Iso.stamp_chars (h : Iso py t) : ∀ c ∈ stamp py t, c ∈ isoChars ∨ c = 90 := by
  obtain ⟨x, hx, -, -, hchars⟩ := h.shape
  have hstamp : stamp py t = x ++ lit "Z" := by
    unfold stamp
    rw [hx]
    exact replace_offset x fun c hc => (isoChars_plain c (hchars c hc)).2.1
  intro c hc
  rw [hstamp] at hc
  rcases List.mem_append.mp hc with hc | hc
  · exact .inl (hchars c hc)
  · exact .inr (List.mem_singleton.mp hc)

/-! ### An interpreter that knows one instant -/

/-- The text of the epoch. -/
def epochText : Str := lit "1970-01-01T00:00:00+00:00"

/-- It reads these documents, and the text of the epoch. -/
def epochPy (documents : List (Bytes × Json)) : Py :=
  { Dump.tablePy [] documents [] with
    isoformat := fun _ => epochText
    fromisoformat := fun s => if s = epochText then some 0 else none
    hasZone := fun _ => true }

theorem iso_epoch (documents : List (Bytes × Json)) : Iso (epochPy documents) 0 where
  inCalendar := by decide +kernel
  shape := ⟨lit "1970-01-01T00:00:00", rfl, by decide, by decide, by decide⟩
  reads := show (if epochText = epochText then some (0 : ℚ) else none) = some 0 from if_pos rfl
  zone := rfl

end Cloudx.Python.Clock

import Cloudx.Lib.Store

/-! # Writes into a directory that are taken back

A list of writes is carried out in order until one of them fails. Each write knows what its name held
when the list was planned, and taking back the writes that were carried out, the last one first, puts
that back under each name.

Two writes may have one name. What both know of it is the state before the list, and so is what is
there in the end: the first of them is taken back last (`lookup_revert`, `rollback`). -/

namespace Cloudx.Lib.Rollback

open Cloudx.Lib.Store

variable {κ β : Type} [DecidableEq κ]

/-- A directory as a program finds it: none, something else than a directory, or the names of what is
no regular file in it with its regular files. -/
inductive Found (κ β : Type) where
  | absent
  | blocked
  | present (others : Finset κ) (files : Dir κ β)
deriving DecidableEq

/-- The regular files. -/
def Found.files : Found κ β → Dir κ β
  | .present _ files => files
  | _ => ∅

/-- The names of everything else. -/
def Found.others : Found κ β → Finset κ
  | .present others _ => others
  | _ => ∅

/-- The directory after it has been made, if it was absent, with these files. -/
def Found.holding (found : Found κ β) (files : Dir κ β) : Found κ β := .present found.others files

omit [DecidableEq κ] in
@[simp] theorem Found.files_holding (found : Found κ β) (files : Dir κ β) :
    (found.holding files).files = files := rfl

omit [DecidableEq κ] in
@[simp] theorem Found.others_holding (found : Found κ β) (files : Dir κ β) :
    (found.holding files).others = found.others := rfl

/-- A write: a name, what it held before, and what is written. -/
structure Write (κ β : Type) where
  name : κ
  before : Option β
  after : β
deriving DecidableEq

/-- Puts back what a name held. -/
def putBack (w : Write κ β) (dir : Dir κ β) : Dir κ β :=
  match w.before with
  | none => dir.erase w.name
  | some b => dir.insert w.name b

/-- The writes from number `i` on, up to the first that fails: whether all were carried out, those
that were, and the directory. -/
def perform (fails : ℕ → Bool) : ℕ → List (Write κ β) → Dir κ β → Bool × List (Write κ β) × Dir κ β
  | _, [], dir => (true, [], dir)
  | i, w :: rest, dir =>
    if fails i then (false, [], dir)
    else
      let r := perform fails (i + 1) rest (dir.insert w.name w.after)
      (r.1, w :: r.2.1, r.2.2)

/-- Takes back the writes from number `i` on, the last first; one that fails is left as it is. Whether
none failed, and the directory. -/
def revert (fails : ℕ → Bool) : ℕ → List (Write κ β) → Dir κ β → Bool × Dir κ β
  | _, [], dir => (true, dir)
  | i, w :: rest, dir =>
    let later := revert fails (i + 1) rest dir
    if fails i then (false, later.2) else (later.1, putBack w later.2)

/-- The writes know what the directory holds. -/
def Recorded (dir : Dir κ β) (ws : List (Write κ β)) : Prop := ∀ w ∈ ws, w.before = dir.lookup w.name

variable {fails : ℕ → Bool}

/-! ### What is carried out -/

/-- Of some steps none fails: not the first, and none of the others. -/
theorem steps_succ {i n : ℕ} : (∀ j < n + 1, fails (i + j) = false) ↔
    fails i = false ∧ ∀ j < n, fails (i + 1 + j) = false := by
  constructor
  · intro h
    refine ⟨h 0 (Nat.zero_lt_succ n), fun j hj => ?_⟩
    rw [Nat.add_right_comm]
    exact h (j + 1) (Nat.succ_lt_succ hj)
  · rintro ⟨hfirst, hrest⟩ j hj
    rcases j with _ | j
    · exact hfirst
    · have := hrest j (Nat.lt_of_succ_lt_succ hj)
      rwa [Nat.add_right_comm] at this

theorem perform_initial : ∀ (ws : List (Write κ β)) (i : ℕ) (dir : Dir κ β),
    (perform fails i ws dir).2.1 <+: ws
  | [], _, _ => List.prefix_refl _
  | w :: rest, i, dir => by
    unfold perform
    split_ifs
    · exact List.nil_prefix
    · exact List.cons_prefix_cons.mpr ⟨rfl, perform_initial rest (i + 1) _⟩

theorem perform_all : ∀ (ws : List (Write κ β)) (i : ℕ) (dir : Dir κ β),
    (perform fails i ws dir).1 = true → (perform fails i ws dir).2.1 = ws
  | [], _, _, _ => rfl
  | w :: rest, i, dir, h => by
    unfold perform at h ⊢
    split_ifs at h ⊢
    · simp only [perform_all rest (i + 1) _ h]

/-- All is carried out if nothing fails. -/
theorem perform_steady (h : ∀ i, fails i = false) : ∀ (ws : List (Write κ β)) (i : ℕ) (dir : Dir κ β),
    (perform fails i ws dir).1 = true
  | [], _, _ => rfl
  | w :: rest, i, dir => by
    unfold perform
    rw [if_neg (by simp [h i])]
    exact perform_steady h rest (i + 1) _

/-- All is carried out exactly when nothing fails on the way. -/
theorem perform_done : ∀ (ws : List (Write κ β)) (i : ℕ) (dir : Dir κ β),
    (perform fails i ws dir).1 = true ↔ ∀ j < ws.length, fails (i + j) = false
  | [], _, _ => iff_of_true rfl fun _ hj => absurd hj (Nat.not_lt_zero _)
  | w :: rest, i, dir => by
    have ih := perform_done rest (i + 1) (dir.insert w.name w.after)
    rw [List.length_cons, steps_succ]
    unfold perform
    by_cases hf : fails i = true
    · rw [if_pos hf, hf]
      exact iff_of_false Bool.false_ne_true fun h => Bool.true_eq_false_eq_False h.1
    · rw [if_neg hf, and_iff_right (by simpa using hf)]
      exact ih

/-- A name that no write has is left alone. -/
theorem lookup_perform_other {n : κ} : ∀ (ws : List (Write κ β)) (i : ℕ) (dir : Dir κ β),
    (∀ w ∈ (perform fails i ws dir).2.1, w.name ≠ n) →
      (perform fails i ws dir).2.2.lookup n = dir.lookup n
  | [], _, _, _ => rfl
  | w :: rest, i, dir, h => by
    unfold perform at h ⊢
    split_ifs at h ⊢
    · rfl
    · have hne : n ≠ w.name := fun he => h w List.mem_cons_self he.symm
      show (perform fails (i + 1) rest (dir.insert w.name w.after)).2.2.lookup n = dir.lookup n
      rw [lookup_perform_other rest (i + 1) _ fun v hv => h v (List.mem_cons_of_mem _ hv),
        Finmap.lookup_insert_of_ne _ hne]

/-- **Under its name is what one of the writes of that name has written**, the last of them. -/
theorem lookup_perform : ∀ (ws : List (Write κ β)) (i : ℕ) (dir : Dir κ β) {w : Write κ β},
    w ∈ (perform fails i ws dir).2.1 → ∃ v ∈ (perform fails i ws dir).2.1, v.name = w.name ∧
      (perform fails i ws dir).2.2.lookup w.name = some v.after
  | [], _, _, _, h => absurd h (by simp [perform])
  | u :: rest, i, dir, w, h => by
    unfold perform at h ⊢
    split_ifs at h ⊢ with hf
    · exact absurd h (by simp)
    show ∃ v ∈ u :: (perform fails (i + 1) rest (dir.insert u.name u.after)).2.1, v.name = w.name ∧
      (perform fails (i + 1) rest (dir.insert u.name u.after)).2.2.lookup w.name = some v.after
    by_cases hlater : ∃ v ∈ (perform fails (i + 1) rest (dir.insert u.name u.after)).2.1,
        v.name = w.name
    · obtain ⟨v, hv, hname⟩ := hlater
      obtain ⟨x, hx, hxn, hlook⟩ := lookup_perform rest (i + 1) (dir.insert u.name u.after) hv
      exact ⟨x, List.mem_cons_of_mem _ hx, hxn.trans hname, by rw [← hname]; exact hlook⟩
    · push Not at hlater
      have hu : w = u := (List.mem_cons.mp h).resolve_right fun hw => hlater w hw rfl
      subst hu
      refine ⟨w, List.mem_cons_self, rfl, ?_⟩
      rw [lookup_perform_other rest (i + 1) _ hlater, Finmap.lookup_insert]

/-! ### What is taken back -/

theorem lookup_putBack_self (w : Write κ β) (dir : Dir κ β) :
    (putBack w dir).lookup w.name = w.before := by
  unfold putBack
  rcases w.before with _ | b
  · exact Finmap.lookup_erase w.name dir
  · exact Finmap.lookup_insert dir

theorem lookup_putBack_ne {w : Write κ β} {n : κ} (h : n ≠ w.name) (dir : Dir κ β) :
    (putBack w dir).lookup n = dir.lookup n := by
  unfold putBack
  rcases w.before with _ | b
  · exact Finmap.lookup_erase_ne h
  · exact Finmap.lookup_insert_of_ne _ h

/-- Everything is taken back exactly when nothing fails on the way. -/
theorem revert_done : ∀ (ws : List (Write κ β)) (i : ℕ) (dir : Dir κ β),
    (revert fails i ws dir).1 = true ↔ ∀ j < ws.length, fails (i + j) = false
  | [], _, _ => iff_of_true rfl fun _ hj => absurd hj (Nat.not_lt_zero _)
  | w :: rest, i, dir => by
    have ih := revert_done rest (i + 1) dir
    rw [List.length_cons, steps_succ]
    unfold revert
    by_cases hf : fails i = true
    · rw [if_pos hf, hf]
      exact iff_of_false Bool.false_ne_true fun h => Bool.true_eq_false_eq_False h.1
    · rw [if_neg hf, and_iff_right (by simpa using hf)]
      exact ih

/-- **What is there after everything has been taken back**: under the name of a write what the first
write of that name remembers, and what was there under any other name. -/
theorem lookup_revert {n : κ} : ∀ (ws : List (Write κ β)) (i : ℕ) (dir : Dir κ β),
    (revert fails i ws dir).1 = true → (revert fails i ws dir).2.lookup n =
      (ws.find? (·.name = n)).elim (dir.lookup n) Write.before
  | [], _, _, _ => rfl
  | w :: rest, i, dir, h => by
    unfold revert at h ⊢
    split_ifs at h ⊢ with hf
    show (putBack w (revert fails (i + 1) rest dir).2).lookup n = _
    by_cases hn : w.name = n
    · rw [List.find?_cons_of_pos (by simpa using hn), ← hn]
      exact lookup_putBack_self w _
    · rw [List.find?_cons_of_neg (by simpa using hn), lookup_putBack_ne (Ne.symm hn)]
      exact lookup_revert rest (i + 1) dir h

/-- **All or nothing**: writes that know what the directory holds, carried out as far as they go and
then taken back, leave it as it was. -/
theorem rollback {undoFails : ℕ → Bool} {ws : List (Write κ β)} {dir : Dir κ β} {i j : ℕ}
    (hrec : Recorded dir ws)
    (h : (revert undoFails j (perform fails i ws dir).2.1 (perform fails i ws dir).2.2).1 = true) :
    (revert undoFails j (perform fails i ws dir).2.1 (perform fails i ws dir).2.2).2 = dir := by
  refine Finmap.ext_lookup fun n => ?_
  rw [lookup_revert _ j _ h]
  rcases hfind : (perform fails i ws dir).2.1.find? (·.name = n) with _ | w
  · rw [hfind, Option.elim_none]
    refine lookup_perform_other ws i dir fun w hw hname => ?_
    have := List.find?_eq_none.mp hfind w hw
    simp only [decide_eq_true_eq] at this
    exact this hname
  · have hmem : w ∈ ws := (perform_initial ws i dir).subset (List.mem_of_find?_eq_some hfind)
    have hname : w.name = n := by simpa using List.find?_some hfind
    rw [hfind, Option.elim_some, hrec w hmem, hname]

end Cloudx.Lib.Rollback

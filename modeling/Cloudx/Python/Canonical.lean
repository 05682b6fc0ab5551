import Cloudx.Python.Dump

/-! # Equal objects

Python dicts are equal whatever the order of their keys, and `sort_keys` writes them in one order.
`sortKeys` brings a value into that order at every level; two values are the `Same` when they agree
after it. -/

namespace Cloudx.Python.Canonical

open Cloudx.Python.Text Cloudx.Python.Value Cloudx.Python.Dump

mutual

/-- The value with the keys of every dict in order. -/
def sortKeys : Json → Json
  | .arr items => .arr (sortItems items)
  | .obj fields => .obj ((sortFields fields).insertionSort fun a b => a.1 ≤ b.1)
  | v => v

/-- The items of a list, sorted inside. -/
def sortItems : List Json → List Json
  | [] => []
  | v :: vs => sortKeys v :: sortItems vs

/-- The items of a dict, sorted inside. -/
def sortFields : List (Str × Json) → List (Str × Json)
  | [] => []
  | (k, v) :: kvs => (k, sortKeys v) :: sortFields kvs

end

/-- Python's `u == v` for values of the same types: equal up to the order of keys. -/
def Same (u v : Json) : Prop := sortKeys u = sortKeys v

theorem sortFields_eq (fields : List (Str × Json)) :
    sortFields fields = fields.map fun kv => (kv.1, sortKeys kv.2) := by
  induction fields with
  | nil => rfl
  | cons kv fields ih =>
    obtain ⟨k, v⟩ := kv
    rw [sortFields, ih]
    rfl

theorem Same.rfl {v : Json} : Same v v := Eq.refl _

theorem Same.symm {u v : Json} (h : Same u v) : Same v u := Eq.symm h

theorem Same.trans {u v w : Json} (h : Same u v) (h' : Same v w) : Same u w := Eq.trans h h'

/-- A value that is no container. -/
def Atom : Json → Prop
  | .arr _ => False
  | .obj _ => False
  | _ => True

/-- Nothing but itself is the same as an atom. -/
theorem same_atom {v : Json} (hv : Atom v) {u : Json} (h : Same u v) : u = v := by
  unfold Same at h
  cases v with
  | arr items => exact absurd hv id
  | obj fields => exact absurd hv id
  | _ => cases u <;> first | exact h | (cases h)

theorem same_obj {u : Json} {e : Dict} (h : Same u (.obj e)) :
    ∃ d : Dict, u = .obj d ∧ (sortFields d).Perm (sortFields e) := by
  unfold Same at h
  cases u with
  | obj d =>
    rw [sortKeys, sortKeys, Json.obj.injEq] at h
    refine ⟨d, Eq.refl _, ?_⟩
    have hd := List.perm_insertionSort (fun a b : Str × Json => a.1 ≤ b.1) (sortFields d)
    have he := List.perm_insertionSort (fun a b : Str × Json => a.1 ≤ b.1) (sortFields e)
    exact (hd.symm.trans (by rw [h])).trans he
  | _ => cases h

/-! ### Reading the same dict -/

theorem lookup_of_mem {d : List (Str × Json)} (hnd : (d.map Prod.fst).Nodup) {k : Str} {v : Json}
    (h : (k, v) ∈ d) : d.lookup k = some v := by
  induction d with
  | nil => cases h
  | cons kv d ih =>
    rw [List.map_cons, List.nodup_cons] at hnd
    rw [List.lookup_cons]
    rcases List.mem_cons.mp h with rfl | h
    · rw [beq_self_eq_true]
    · have hne : k ≠ kv.1 := by
        rintro rfl
        exact hnd.1 (List.mem_map.mpr ⟨_, h, Eq.refl _⟩)
      rw [beq_false_of_ne hne]
      exact ih hnd.2 h

theorem mem_of_lookup {d : List (Str × Json)} {k : Str} {v : Json} (h : d.lookup k = some v) :
    (k, v) ∈ d := by
  obtain ⟨l, r, rfl, -⟩ := List.lookup_eq_some_iff.mp h
  exact List.mem_append_right l List.mem_cons_self

/-- A lookup does not depend on the order of the items. -/
theorem lookup_perm {d e : List (Str × Json)} (h : d.Perm e) (hnd : (e.map Prod.fst).Nodup)
    (k : Str) : d.lookup k = e.lookup k := by
  have hnd' : (d.map Prod.fst).Nodup := ((h.map Prod.fst).nodup_iff).mpr hnd
  rcases he : e.lookup k with _ | v
  · rcases hd : d.lookup k with _ | v
    · rfl
    · rw [lookup_of_mem hnd (h.mem_iff.mp (mem_of_lookup hd))] at he
      exact he
  · exact lookup_of_mem hnd' (h.mem_iff.mpr (mem_of_lookup he))

theorem lookup_sortFields (d : List (Str × Json)) (k : Str) :
    (sortFields d).lookup k = (d.lookup k).map sortKeys := by
  induction d with
  | nil => rfl
  | cons kv d ih =>
    obtain ⟨k', v⟩ := kv
    rw [sortFields, List.lookup_cons, List.lookup_cons, ih]
    cases k == k' <;> rfl

theorem keys_sortFields (d : List (Str × Json)) : (sortFields d).map Prod.fst = d.map Prod.fst := by
  rw [sortFields_eq, List.map_map]
  rfl

variable {d e : Dict}

/-- **Dicts that are the same hold the same under each key.** -/
theorem get_same (h : (sortFields d).Perm (sortFields e)) (hnd : (e.map Prod.fst).Nodup)
    (k : Str) : Same (get d k) (get e k) := by
  have hlookup := lookup_perm h (by rw [keys_sortFields]; exact hnd) k
  rw [lookup_sortFields, lookup_sortFields] at hlookup
  unfold Same Value.get
  rcases hd : d.lookup k with _ | v <;> rcases he : e.lookup k with _ | w
  · rfl
  · rw [hd, he] at hlookup; cases hlookup
  · rw [hd, he] at hlookup; cases hlookup
  · rw [hd, he] at hlookup
    exact Option.some.inj hlookup

theorem keys_same (h : (sortFields d).Perm (sortFields e)) :
    (d.map Prod.fst).Perm (e.map Prod.fst) := by
  have hkeys := h.map Prod.fst
  rwa [keys_sortFields, keys_sortFields] at hkeys

/-! ### Distinct keys -/

mutual

/-- The keys of every dict in the value differ, as in every Python dict. -/
def Keyed : Json → Prop
  | .arr items => KeyedItems items
  | .obj fields => (fields.map Prod.fst).Nodup ∧ KeyedFields fields
  | _ => True

/-- The items of a list are keyed. -/
def KeyedItems : List Json → Prop
  | [] => True
  | v :: vs => Keyed v ∧ KeyedItems vs

/-- The values of a dict are keyed. -/
def KeyedFields : List (Str × Json) → Prop
  | [] => True
  | (_, v) :: kvs => Keyed v ∧ KeyedFields kvs

end

theorem keyed_atom {v : Json} (hv : Atom v) : Keyed v := by
  cases v with
  | arr items => exact absurd hv id
  | obj fields => exact absurd hv id
  | _ => trivial

theorem keyed_get {d : Dict} (h : Keyed (.obj d)) (k : Str) : Keyed (get d k) := by
  have hfields : ∀ fields : List (Str × Json), KeyedFields fields → Keyed (get fields k) := by
    intro fields
    induction fields with
    | nil => intro _; exact trivial
    | cons kv fields ih =>
      intro hf
      rw [get_cons]
      split_ifs
      · exact hf.1
      · exact ih hf.2
  exact hfields d h.2

theorem keyedFields_iff {fields : List (Str × Json)} :
    KeyedFields fields ↔ ∀ kv ∈ fields, Keyed kv.2 := by
  induction fields with
  | nil => exact iff_of_true trivial (by simp)
  | cons kv fields ih =>
    rw [List.forall_mem_cons, ← ih]
    exact Iff.rfl

theorem keyedFields_perm {d e : List (Str × Json)} (h : d.Perm e) :
    KeyedFields d ↔ KeyedFields e := by
  simp only [keyedFields_iff, h.mem_iff]

mutual

/-- Sorting the keys does not make them equal. -/
theorem keyed_sortKeys : ∀ v : Json, Keyed (sortKeys v) ↔ Keyed v
  | .null | .bool _ | .int _ | .float _ | .str _ => Iff.rfl
  | .arr items => by
    rw [sortKeys]
    exact keyed_sortItems items
  | .obj fields => by
    have hperm := List.perm_insertionSort (fun a b : Str × Json => a.1 ≤ b.1) (sortFields fields)
    have hnd := (hperm.map Prod.fst).nodup_iff
    rw [keys_sortFields] at hnd
    rw [sortKeys]
    exact and_congr hnd ((keyedFields_perm hperm).trans (keyed_sortFields fields))

theorem keyed_sortItems : ∀ items : List Json, KeyedItems (sortItems items) ↔ KeyedItems items
  | [] => Iff.rfl
  | v :: vs => and_congr (keyed_sortKeys v) (keyed_sortItems vs)

theorem keyed_sortFields : ∀ fields : List (Str × Json),
    KeyedFields (sortFields fields) ↔ KeyedFields fields
  | [] => Iff.rfl
  | (_, v) :: kvs => and_congr (keyed_sortKeys v) (keyed_sortFields kvs)

end

/-- A value that is the same as a keyed one is keyed. -/
theorem keyed_same {u v : Json} (h : Same u v) (hv : Keyed v) : Keyed u := by
  rw [← keyed_sortKeys, h, keyed_sortKeys]
  exact hv

end Cloudx.Python.Canonical

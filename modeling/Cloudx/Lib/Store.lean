import Mathlib.Data.Finmap
import Mathlib.Data.List.Forall2

/-! # Directories as finite maps

A directory maps finitely many names to contents. Moving a file takes it out of one directory and
puts it into another, replacing what was there. Two facts carry every argument about moves: a move
onto a free name keeps the contents of the two directories together (`contents_transfer`), and
moving back undoes it (`transfer_back`).

`Indexed m ns` says that the list `ns` names what the map `m` holds, each name exactly once.
`Catalogue R m es` says the same of a list of records, with a relation `R` between a record and the
name and content it stands for. Both are kept by putting something under a fresh name at the end of
the list and by taking something out. -/

namespace Cloudx.Lib.Store

/-- A directory: finitely many names, each with its content. -/
abbrev Dir (κ β : Type) := Finmap fun _ : κ => β

variable {κ κ' β : Type} [DecidableEq κ] [DecidableEq κ']

/-! ### Inserting and erasing -/

theorem insert_erase_self {d : Dir κ β} {a : κ} {b : β} (h : d.lookup a = some b) :
    (d.erase a).insert a b = d := by
  refine Finmap.ext_lookup fun x => ?_
  by_cases hx : x = a
  · subst hx; rw [Finmap.lookup_insert, h]
  · rw [Finmap.lookup_insert_of_ne _ hx, Finmap.lookup_erase_ne hx]

theorem erase_insert_self {d : Dir κ β} {a : κ} {b : β} (h : a ∉ d) :
    (d.insert a b).erase a = d := by
  refine Finmap.ext_lookup fun x => ?_
  by_cases hx : x = a
  · subst hx; rw [Finmap.lookup_erase, Finmap.lookup_eq_none.mpr h]
  · rw [Finmap.lookup_erase_ne hx, Finmap.lookup_insert_of_ne _ hx]

theorem mem_of_lookup {d : Dir κ β} {a : κ} {b : β} (h : d.lookup a = some b) : a ∈ d :=
  Finmap.mem_of_lookup_eq_some h

theorem lookup_of_mem {d : Dir κ β} {a : κ} (h : a ∈ d) : ∃ b, d.lookup a = some b :=
  Finmap.mem_iff.mp h

/-! ### Contents -/

/-- The contents of a directory, with multiplicity. -/
def contents (d : Dir κ β) : Multiset β := d.entries.map Sigma.snd

theorem contents_insert {d : Dir κ β} {a : κ} (h : a ∉ d) (b : β) :
    contents (d.insert a b) = b ::ₘ contents d := by
  unfold contents
  rw [Finmap.entries_insert_of_notMem h, Multiset.map_cons]

theorem contents_erase {d : Dir κ β} {a : κ} {b : β} (h : d.lookup a = some b) :
    contents d = b ::ₘ contents (d.erase a) := by
  have hn : a ∉ d.erase a := Finmap.notMem_erase_self
  rw [← contents_insert hn b, insert_erase_self h]

/-- Replacing a file keeps the number of files. -/
theorem card_contents_insert {d : Dir κ β} {a : κ} (h : a ∈ d) (b : β) :
    (contents (d.insert a b)).card = (contents d).card := by
  obtain ⟨c, hc⟩ := lookup_of_mem h
  have hab : d.insert a b = (d.erase a).insert a b := by
    refine Finmap.ext_lookup fun x => ?_
    by_cases hx : x = a
    · subst hx; rw [Finmap.lookup_insert, Finmap.lookup_insert]
    · rw [Finmap.lookup_insert_of_ne _ hx, Finmap.lookup_insert_of_ne _ hx,
        Finmap.lookup_erase_ne hx]
  rw [hab, contents_insert Finmap.notMem_erase_self, contents_erase hc, Multiset.card_cons,
    Multiset.card_cons]

/-! ### Moving a file from one directory to another -/

/-- Moves the file `a` of the first directory to the name `b` of the second, as a rename does:
nothing if there is no such file, and a file already named `b` is replaced. -/
def transfer (src : Dir κ β) (dst : Dir κ' β) (a : κ) (b : κ') :
    Option (Dir κ β × Dir κ' β) :=
  (src.lookup a).map fun v => (src.erase a, dst.insert b v)

theorem transfer_of_lookup {src : Dir κ β} {dst : Dir κ' β} {a : κ} {b : κ'} {v : β}
    (h : src.lookup a = some v) : transfer src dst a b = some (src.erase a, dst.insert b v) := by
  rw [transfer, h]; rfl

/-- **A move onto a free name loses nothing.** -/
theorem contents_transfer {src : Dir κ β} {dst : Dir κ' β} {a : κ} {b : κ'} {v : β}
    (h : src.lookup a = some v) (hb : b ∉ dst) :
    contents (src.erase a) + contents (dst.insert b v) = contents src + contents dst := by
  rw [contents_insert hb, contents_erase h]
  simp

/-- **Moving back undoes the move.** -/
theorem transfer_back {src : Dir κ β} {dst : Dir κ' β} {a : κ} {b : κ'} {v : β}
    (h : src.lookup a = some v) (hb : b ∉ dst) :
    transfer (dst.insert b v) (src.erase a) b a = some (dst, src) := by
  rw [transfer_of_lookup (Finmap.lookup_insert dst), erase_insert_self hb, insert_erase_self h]

/-! ### The lookup function of a directory -/

theorem lookup_insert_update (d : Dir κ β) (a : κ) (b : β) :
    (fun n => (d.insert a b).lookup n) = Function.update (fun n => d.lookup n) a (some b) := by
  funext n
  by_cases hn : n = a
  · subst hn; rw [Finmap.lookup_insert, Function.update_self]
  · rw [Finmap.lookup_insert_of_ne _ hn, Function.update_of_ne hn]

theorem lookup_erase_update (d : Dir κ β) (a : κ) :
    (fun n => (d.erase a).lookup n) = Function.update (fun n => d.lookup n) a none := by
  funext n
  by_cases hn : n = a
  · subst hn; rw [Finmap.lookup_erase, Function.update_self]
  · rw [Finmap.lookup_erase_ne hn, Function.update_of_ne hn]

/-! ### A list that names what a map holds -/

/-- The names `ns` are those the map `m` has something under, each listed once. -/
structure Indexed (m : κ → Option β) (ns : List κ) : Prop where
  nodup : ns.Nodup
  mem_iff : ∀ n, n ∈ ns ↔ m n ≠ none

namespace Indexed

variable {m : κ → Option β} {ns : List κ}

omit [DecidableEq κ] in
theorem empty : Indexed (fun _ : κ => (none : Option β)) [] :=
  ⟨List.nodup_nil, fun n => by simp⟩

/-- What is put under a fresh name is listed at the end. -/
theorem insert (h : Indexed m ns) {a : κ} (ha : m a = none) (b : β) :
    Indexed (Function.update m a (some b)) (ns ++ [a]) := by
  refine ⟨?_, fun n => ?_⟩
  · refine List.Nodup.append h.nodup (List.nodup_singleton a) ?_
    intro x hx hxa
    rw [List.mem_singleton] at hxa
    subst hxa
    exact (h.mem_iff x).mp hx ha
  · rw [List.mem_append, List.mem_singleton, h.mem_iff]
    by_cases hn : n = a
    · subst hn; simp
    · rw [Function.update_of_ne hn]; simp [hn]

/-- What is listed at place `i` is taken out. -/
theorem erase (h : Indexed m ns) {i : ℕ} {a : κ} (hi : ns[i]? = some a) :
    Indexed (Function.update m a none) (ns.eraseIdx i) := by
  obtain ⟨hlt, hget⟩ := List.getElem?_eq_some_iff.mp hi
  refine ⟨h.nodup.sublist (List.eraseIdx_sublist ns i), fun n => ?_⟩
  rw [← List.Nodup.erase_getElem h.nodup i hlt, h.nodup.mem_erase_iff, hget, h.mem_iff]
  by_cases hn : n = a
  · subst hn; simp
  · rw [Function.update_of_ne hn]; simp [hn]

end Indexed

/-! ### A list of records of what a map holds -/

/-- The records `es` stand for what the map `m` holds, one each; `R` relates a record to its name
and content. -/
def Catalogue {ε : Type} (R : ε → κ → β → Prop) (m : κ → Option β) (es : List ε) : Prop :=
  ∃ ns, Indexed m ns ∧ List.Forall₂ (fun e n => ∃ b, m n = some b ∧ R e n b) es ns

namespace Catalogue

variable {ε δ : Type} {R : ε → κ → β → Prop} {m : κ → Option β} {es : List ε}

omit [DecidableEq κ] in
theorem empty : Catalogue R (fun _ : κ => (none : Option β)) [] := ⟨[], Indexed.empty, .nil⟩

/-- What is put under a fresh name gets the last record. -/
theorem insert (h : Catalogue R m es) {a : κ} (ha : m a = none) {b : β} {e : ε} (he : R e a b) :
    Catalogue R (Function.update m a (some b)) (es ++ [e]) := by
  obtain ⟨ns, hix, hall⟩ := h
  refine ⟨ns ++ [a], hix.insert ha b, List.rel_append ?_ ?_⟩
  · refine hall.imp fun e' n => ?_
    rintro ⟨b', hb', hR⟩
    have hne : n ≠ a := by
      rintro rfl
      rw [ha] at hb'; exact absurd hb' (by simp)
    exact ⟨b', by rwa [Function.update_of_ne hne], hR⟩
  · exact .cons ⟨b, Function.update_self .., he⟩ .nil

/-- Taking out what the record at place `i` stands for, with that record. -/
theorem erase (h : Catalogue R m es) {i : ℕ} {e : ε} (hi : es[i]? = some e) :
    ∃ a b, m a = some b ∧ R e a b ∧ Catalogue R (Function.update m a none) (es.eraseIdx i) := by
  obtain ⟨ns, hix, hall⟩ := h
  obtain ⟨hlt, hget⟩ := List.getElem?_eq_some_iff.mp hi
  have hlen := hall.length_eq
  have hlt' : i < ns.length := by omega
  have hni : ns[i]? = some ns[i] := List.getElem?_eq_getElem hlt'
  obtain ⟨b, hb, hR⟩ := hall.get hlt hlt'
  simp only [List.get_eq_getElem] at hb hR
  rw [hget] at hR
  refine ⟨ns[i], b, hb, hR, ns.eraseIdx i, hix.erase hni, ?_⟩
  have hcut : List.Forall₂ (fun e n => ∃ b, m n = some b ∧ R e n b)
      (es.eraseIdx i) (ns.eraseIdx i) := by
    rw [List.eraseIdx_eq_take_drop_succ, List.eraseIdx_eq_take_drop_succ]
    exact List.rel_append (List.forall₂_take i hall) (List.forall₂_drop (i + 1) hall)
  -- what is left does not name what was taken out
  have hmem := (hix.erase hni).mem_iff
  refine (List.forall₂_iff_zip.mpr ⟨hcut.length_eq, fun {e' n} hz => ?_⟩)
  obtain ⟨b', hb', hR'⟩ := List.forall₂_zip hcut hz
  have hne : n ≠ ns[i] := by
    rintro rfl
    exact (hmem _).mp (List.of_mem_zip hz).2 (Function.update_self ..)
  exact ⟨b', by rwa [Function.update_of_ne hne], hR'⟩

omit [DecidableEq κ] in
/-- Each record stands for something. -/
theorem exists_of_mem (h : Catalogue R m es) {e : ε} (he : e ∈ es) :
    ∃ n b, m n = some b ∧ R e n b := by
  obtain ⟨ns, -, hall⟩ := h
  obtain ⟨i, hi, rfl⟩ := List.getElem_of_mem he
  have hi' : i < ns.length := by rw [← hall.length_eq]; exact hi
  exact ⟨_, hall.get hi hi'⟩

omit [DecidableEq κ] in
/-- **Records that determine names are different, and each name held has exactly one.** -/
theorem unique [DecidableEq δ] (h : Catalogue R m es) (key : ε → δ) (name : κ → δ)
    (hinj : Function.Injective name) (hkey : ∀ e n b, R e n b → key e = name n) :
    (es.map key).Nodup ∧ ∀ n, m n ≠ none → (es.map key).count (name n) = 1 := by
  obtain ⟨ns, hix, hall⟩ := h
  have hmap : es.map key = ns.map name := by
    rw [← List.forall₂_eq_eq_eq, List.forall₂_map_left_iff, List.forall₂_map_right_iff]
    exact hall.imp fun e n ⟨b, _, hR⟩ => hkey e n b hR
  have hnd : (ns.map name).Nodup := hix.nodup.map hinj
  rw [hmap]
  exact ⟨hnd, fun n hn => List.count_eq_one_of_mem hnd
    (List.mem_map_of_mem ((hix.mem_iff n).mpr hn))⟩

end Catalogue

end Cloudx.Lib.Store

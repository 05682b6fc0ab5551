import Cloudx.Python.Compact
import Cloudx.Python.Decode

/-! # Reading a written file again

`json.dumps` with `ensure_ascii` writes ASCII characters, of which no control character but the line
breaks of the indentation, so that the file has one decoding, the text that was written
(`decodeUtf8Sig_ascii`, `laid_dumps`). Values that are the same are written in the same way
(`dumps_same`). -/

namespace Cloudx.Python.Reread

open Cloudx.Python.Text Cloudx.Python.Value Cloudx.Python.Dump Cloudx.Python.Decode
open Cloudx.Python.Canonical Cloudx.Python.Compact

/-! ### The bytes of an ASCII text -/

/-- The bytes of an ASCII text are its characters. -/
theorem mem_utf8_ascii {s : Str} (h : Ascii s) {b : UInt8} (hb : b ∈ utf8 s) : b.toNat ∈ s := by
  obtain ⟨c, hc, hb⟩ := List.mem_flatMap.mp hb
  have hrange := h c hc
  rw [utf8Char, if_pos (by omega)] at hb
  rw [List.mem_singleton.mp hb, toNat_ofNat (by omega)]
  exact hc

/-- **An ASCII text is read as it was written.** -/
theorem decodeUtf8Sig_ascii {s : Str} (h : Ascii s) : decodeUtf8Sig (utf8 s) = some s := by
  have hmark : ¬ [0xEF, 0xBB, 0xBF] <+: utf8 s := by
    intro hstart
    have hbyte := h _ (mem_utf8_ascii h ( hstart.subset List.mem_cons_self))
    exact absurd hbyte (by decide)
  have hencodable : encodable s = true := encodable_of_lt fun c hc => by
    have := h c hc
    omega
  rw [decodeUtf8Sig, if_neg hmark]
  refine decodeUtf8_utf8 (fun c hc => ?_) hencodable
  have := h c hc
  omega

/-! ### The characters of a written value -/

/-- A text of printable ASCII characters and line breaks. -/
def Laid (s : Str) : Prop := ∀ c ∈ s, c = 10 ∨ 32 ≤ c ∧ c < 127

theorem Printable.laid {s : Str} (h : Printable s) : Laid s := fun c hc => .inr (h c hc)

theorem Laid.ascii {s : Str} (h : Laid s) : Ascii s := fun c hc => by
  have := h c hc
  omega

theorem Laid.append {s t : Str} (hs : Laid s) (ht : Laid t) : Laid (s ++ t) :=
  fun c hc => (List.mem_append.mp hc).elim (hs c) (ht c)

theorem Laid.cons {c : ℕ} {s : Str} (hc : c = 10 ∨ 32 ≤ c ∧ c < 127) (hs : Laid s) : Laid (c :: s) :=
  fun d hd => (List.mem_cons.mp hd).elim (fun h => h ▸ hc) (hs d)

theorem laid_newline (level : ℕ) : Laid (newline level) :=
  Laid.cons (.inl rfl) fun c hc => .inr (by rw [(List.mem_replicate.mp hc).2]; decide)

theorem laid_intercalate {sep : Str} (hsep : Laid sep) : ∀ {items : List Str},
    (∀ s ∈ items, Laid s) → Laid (sep.intercalate items)
  | [], _ => fun c hc => absurd hc (by simp)
  | [s], h => by
    rw [List.intercalate_singleton]
    exact h s List.mem_cons_self
  | s :: t :: rest, h => by
    rw [List.intercalate_cons_cons]
    exact ((h s List.mem_cons_self).append hsep).append
      (laid_intercalate hsep fun u hu => h u (List.mem_cons_of_mem s hu))

theorem laid_block {opening closing : ℕ} (ho : 32 ≤ opening ∧ opening < 127)
    (hc : 32 ≤ closing ∧ closing < 127) (level : ℕ) {items : List Str} (h : ∀ s ∈ items, Laid s) :
    Laid (block opening closing level items) := by
  have hclosing : Laid [closing] := Laid.cons (.inr hc) fun c hc => absurd hc (by simp)
  have hsep : Laid ([44] ++ newline (level + 1)) := Laid.cons (.inr (by decide)) (laid_newline _)
  unfold block
  split_ifs
  · exact Laid.cons (.inr ho) hclosing
  · exact (((Laid.cons (.inr ho) (laid_newline _)).append (laid_intercalate hsep h)).append
      (laid_newline _)).append hclosing

variable {py : Py}

mutual

theorem laid_dumpsAt (hf : FloatTexts py) : ∀ (v : Json) (level : ℕ), Laid (dumpsAt py true level v)
  | .null, _ | .bool true, _ | .bool false, _ => by
    unfold dumpsAt
    exact Printable.laid (by decide)
  | .int n, _ => Printable.laid (printable_number fun _ hc => intText_number (n := n) hc)
  | .float x, _ => Printable.laid (printable_number (hf.chars x))
  | .str s, _ => Printable.laid (printable_quote s)
  | .arr items, level => by
    unfold dumpsAt
    exact laid_block (by decide) (by decide) level (laid_dumpsItems hf items (level + 1))
  | .obj fields, level => by
    unfold dumpsAt
    refine laid_block (by decide) (by decide) level fun s hs => ?_
    obtain ⟨kv, hkv, rfl⟩ := List.mem_map.mp hs
    have hcolon : Printable (lit ": ") := by decide
    exact (Printable.laid ((printable_quote kv.1).append hcolon)).append
      (laid_dumpsFields hf fields (level + 1) kv (List.mem_insertionSort _ |>.mp hkv))

theorem laid_dumpsItems (hf : FloatTexts py) : ∀ (vs : List Json) (level : ℕ),
    ∀ s ∈ dumpsItems py true level vs, Laid s
  | [], _, s, hs => absurd hs (by simp [dumpsItems])
  | v :: vs, level, s, hs => by
    unfold dumpsItems at hs
    rcases List.mem_cons.mp hs with rfl | hs
    · exact laid_dumpsAt hf v level
    · exact laid_dumpsItems hf vs level s hs

theorem laid_dumpsFields (hf : FloatTexts py) : ∀ (kvs : List (Str × Json)) (level : ℕ),
    ∀ kv ∈ dumpsFields py true level kvs, Laid kv.2
  | [], _, kv, hkv => absurd hkv (by simp [dumpsFields])
  | (k, v) :: kvs, level, kv, hkv => by
    unfold dumpsFields at hkv
    rcases List.mem_cons.mp hkv with rfl | hkv
    · exact laid_dumpsAt hf v level
    · exact laid_dumpsFields hf kvs level kv hkv

end

/-- **What is written is laid out in lines.** -/
theorem laid_dumps (hf : FloatTexts py) (v : Json) : Laid (dumps py true v) :=
  (laid_dumpsAt hf v 0).append (Laid.cons (.inl rfl) fun c hc => absurd hc (by simp))

/-! ### What stripping leaves -/

theorem strip_enclosed {a b : ℕ} (ha : isSpace a = false) (hb : isSpace b = false) (s : Str) :
    strip (a :: (s ++ [b])) = a :: (s ++ [b]) := by
  have hrev : (a :: (s ++ [b])).reverse = b :: (s.reverse ++ [a]) := by simp
  rw [strip, List.dropWhile_cons_of_neg (by simp [ha]), hrev, List.dropWhile_cons_of_neg (by simp [hb]),
    ← hrev, List.reverse_reverse]

theorem strip_append_newline (s : Str) : strip (s ++ [10]) = strip s := by
  have hspace : isSpace 10 = true := by decide
  by_cases hall : s.dropWhile isSpace = []
  · have hs : ∀ c ∈ s, isSpace c = true := List.dropWhile_eq_nil_iff.mp hall
    have hs' : (s ++ [10]).dropWhile isSpace = [] := List.dropWhile_eq_nil_iff.mpr fun c hc => by
      rcases List.mem_append.mp hc with hc | hc
      · exact hs c hc
      · rw [List.mem_singleton.mp hc]
        exact hspace
    rw [strip, strip, hall, hs']
  · obtain ⟨c, t, ht⟩ := List.exists_cons_of_ne_nil hall
    have hdrop : (s ++ [10]).dropWhile isSpace = s.dropWhile isSpace ++ [10] := by
      rw [List.dropWhile_append, if_neg (by simp [ht])]
    rw [strip, strip, hdrop, List.reverse_append, List.reverse_singleton, List.singleton_append,
      List.dropWhile_cons_of_pos hspace]

/-- **The text of an object, stripped**, is the object without the last line break. -/
theorem strip_dumps (py : Py) (d : Dict) : strip (dumps py true (.obj d)) = dumpsAt py true 0 (.obj d) := by
  rw [dumps, strip_append_newline]
  unfold dumpsAt block
  split_ifs
  · exact strip_enclosed (by decide) (by decide) []
  · simp only [List.cons_append]
    exact strip_enclosed (by decide) (by decide) _

/-! ### Values that are the same -/

theorem dumpsFields_eq (py : Py) (ascii : Bool) (level : ℕ) : ∀ kvs : List (Str × Json),
    dumpsFields py ascii level kvs = kvs.map fun kv => (kv.1, dumpsAt py ascii level kv.2) := by
  intro kvs
  induction kvs with
  | nil => rfl
  | cons kv kvs ih =>
    rw [dumpsFields, ih]
    rfl

mutual

/-- Sorted keys are written as the others are. -/
theorem dumpsAt_sortKeys (py : Py) (ascii : Bool) : ∀ (v : Json) (level : ℕ),
    dumpsAt py ascii level (sortKeys v) = dumpsAt py ascii level v
  | .null, _ | .bool _, _ | .int _, _ | .float _, _ | .str _, _ => rfl
  | .arr items, level => by
    rw [sortKeys, dumpsAt, dumpsAt, dumpsItems_sortItems py ascii items]
  | .obj fields, level => by
    have hsorted : dumpsFields py ascii (level + 1)
        ((sortFields fields).insertionSort fun a b => a.1 ≤ b.1) =
          (dumpsFields py ascii (level + 1) fields).insertionSort fun a b => a.1 ≤ b.1 := by
      rw [← dumpsFields_sortFields py ascii fields (level + 1), dumpsFields_eq, dumpsFields_eq]
      exact List.map_insertionSort _ (fun a b : Str × Str => a.1 ≤ b.1) _ _ fun _ _ _ _ => Iff.rfl
    rw [sortKeys, dumpsAt, dumpsAt, hsorted,
      List.Pairwise.insertionSort_eq (List.pairwise_insertionSort _ _)]

theorem dumpsItems_sortItems (py : Py) (ascii : Bool) : ∀ (vs : List Json) (level : ℕ),
    dumpsItems py ascii level (sortItems vs) = dumpsItems py ascii level vs
  | [], _ => rfl
  | v :: vs, level => by
    rw [sortItems, dumpsItems, dumpsItems, dumpsAt_sortKeys py ascii v,
      dumpsItems_sortItems py ascii vs]

theorem dumpsFields_sortFields (py : Py) (ascii : Bool) : ∀ (kvs : List (Str × Json)) (level : ℕ),
    dumpsFields py ascii level (sortFields kvs) = dumpsFields py ascii level kvs
  | [], _ => rfl
  | (k, v) :: kvs, level => by
    rw [sortFields, dumpsFields, dumpsFields, dumpsAt_sortKeys py ascii v,
      dumpsFields_sortFields py ascii kvs]

end

/-- **Values that are the same are written in the same way.** -/
theorem dumps_same {u v : Json} (h : Same u v) (ascii : Bool) :
    dumps py ascii u = dumps py ascii v := by
  rw [dumps, dumps, ← dumpsAt_sortKeys py ascii u, h, dumpsAt_sortKeys py ascii v]

/-! ### Dicts that are read back -/

theorem lookup_none {d : Dict} {k : Str} (h : k ∉ d.map Prod.fst) : d.lookup k = none :=
  List.lookup_eq_none_iff.mpr fun kv hkv => by
    have hne : k ≠ kv.1 := fun heq => h (heq ▸ List.mem_map_of_mem hkv)
    simpa using hne

theorem lookup_set_self (d : Dict) (key : Str) (value : Json) :
    (set d key value).lookup key = some value := by
  induction d with
  | nil => rw [Value.set, List.lookup_cons, beq_self_eq_true]
  | cons kv d ih =>
    unfold Value.set
    split_ifs with h
    · rw [List.lookup_cons, beq_self_eq_true]
    · rw [List.lookup_cons, beq_false_of_ne (Ne.symm h), ih]

theorem mem_set {d : Dict} {key : Str} {value : Json} {kv : Str × Json} (h : kv ∈ set d key value) :
    kv ∈ d ∨ kv = (key, value) := by
  induction d with
  | nil => exact .inr (List.mem_singleton.mp h)
  | cons x d ih =>
    unfold Value.set at h
    split_ifs at h with hk
    · rcases List.mem_cons.mp h with rfl | h
      · exact .inr rfl
      · exact .inl (List.mem_cons_of_mem x h)
    · rcases List.mem_cons.mp h with rfl | h
      · exact .inl List.mem_cons_self
      · exact (ih h).imp (List.mem_cons_of_mem x) id

/-- Storing under a key keeps the keys distinct. -/
theorem nodup_set {d : Dict} (h : (d.map Prod.fst).Nodup) (key : Str) (value : Json) :
    ((set d key value).map Prod.fst).Nodup := by
  induction d with
  | nil => exact List.nodup_singleton key
  | cons x d ih =>
    rw [List.map_cons, List.nodup_cons] at h
    unfold Value.set
    split_ifs with hk
    · rw [List.map_cons, List.nodup_cons, ← hk]
      exact h
    · rw [List.map_cons, List.nodup_cons]
      refine ⟨fun hmem => ?_, ih h.2⟩
      obtain ⟨kv, hkv, hfst⟩ := List.mem_map.mp hmem
      rcases mem_set hkv with hkv | rfl
      · exact h.1 (hfst ▸ List.mem_map_of_mem hkv)
      · exact hk hfst.symm

theorem nodup_setIf {d : Dict} (h : (d.map Prod.fst).Nodup) (condition : Bool) (key : Str)
    (value : Json) : ((setIf condition d key value).map Prod.fst).Nodup := by
  unfold setIf
  split_ifs
  · exact nodup_set h key value
  · exact h

/-- A dict of atoms holds atoms. -/
theorem atom_get {d : Dict} (h : ∀ kv ∈ d, Atom kv.2) (k : Str) : Atom (get d k) := by
  unfold Value.get
  rcases hlook : d.lookup k with _ | v
  · exact trivial
  · exact h _ (mem_of_lookup hlook)

section Read
variable {d e : Dict} (h : (sortFields d).Perm (sortFields e)) (hnd : (e.map Prod.fst).Nodup)
include h hnd

theorem lookup_same (k : Str) : (d.lookup k).map sortKeys = (e.lookup k).map sortKeys := by
  rw [← lookup_sortFields, ← lookup_sortFields]
  exact lookup_perm h (by rw [keys_sortFields]; exact hnd) k

theorem has_same (k : Str) : has d k = has e k := by
  have := congrArg Option.isSome (lookup_same h hnd k)
  simpa [has] using this

/-- An atom is read back as it was. -/
theorem lookup_atom {k : Str} (hatom : Atom (get e k)) : d.lookup k = e.lookup k := by
  have hsame := lookup_same h hnd k
  unfold Value.get at hatom
  rcases he : e.lookup k with _ | v
  · rw [he] at hsame
    exact Option.map_eq_none_iff.mp hsame
  · rw [he] at hsame hatom
    obtain ⟨u, hu, huv⟩ := Option.map_eq_some_iff.mp hsame
    rw [hu, same_atom hatom huv]
    rfl

theorem get_atom {k : Str} (hatom : Atom (get e k)) : get d k = get e k := by
  unfold Value.get
  rw [lookup_atom h hnd hatom]

end Read

/-- Dicts with the same keys in the same order, whose values are the same. -/
def SameValues (d e : Dict) : Prop := List.Forall₂ (fun x y => x.1 = y.1 ∧ Same x.2 y.2) d e

theorem SameValues.refl : ∀ d : Dict, SameValues d d
  | [] => .nil
  | _ :: d => .cons ⟨rfl, Same.rfl⟩ (SameValues.refl d)

theorem SameValues.sortFields_eq : ∀ {d e : Dict}, SameValues d e → sortFields d = sortFields e
  | _, _, .nil => rfl
  | (k, u) :: d, (k', v) :: e, .cons h hs => by
    obtain ⟨hk, hv⟩ := h
    simp only at hk hv
    rw [sortFields, sortFields, hk, hv, SameValues.sortFields_eq hs]

theorem SameValues.same {d e : Dict} (h : SameValues d e) : Same (.obj d) (.obj e) := by
  unfold Same
  rw [sortKeys, sortKeys, h.sortFields_eq]

theorem SameValues.set {u v : Json} (hv : Same u v) (key : Str) : ∀ {d e : Dict}, SameValues d e →
    SameValues (set d key u) (set e key v) := by
  intro d e h
  induction h with
  | nil => exact .cons ⟨rfl, hv⟩ .nil
  | @cons x y d e h hs ih =>
    obtain ⟨k, x⟩ := x
    obtain ⟨k', y⟩ := y
    obtain ⟨hk, hxy⟩ := h
    simp only at hk hxy
    subst hk
    unfold Value.set
    split_ifs
    · exact .cons ⟨rfl, hv⟩ hs
    · exact .cons ⟨rfl, hxy⟩ ih

end Cloudx.Python.Reread

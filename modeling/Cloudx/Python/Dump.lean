import Cloudx.Python.Value
import Mathlib.Data.List.Sort

/-! # Writing JSON files

The text of `json.dumps(value, indent=2, sort_keys=True)`, with and without `ensure_ascii`, its UTF-8
form, and the files that hold it. Without `ensure_ascii` the text can hold a lone surrogate, which
UTF-8 cannot encode; `encodable_dumps` says for which values that happens. -/

namespace Cloudx.Python.Dump

open Cloudx.Python.Text Cloudx.Python.Value

/-! ### The text `json.dumps` writes -/

/-- Four lowercase hexadecimal digits. -/
def hex4 (n : ℕ) : Str :=
  let digit (d : ℕ) : ℕ := if d < 10 then 48 + d else 87 + d
  [digit (n / 4096 % 16), digit (n / 256 % 16), digit (n / 16 % 16), digit (n % 16)]

/-- One character of a JSON string, with `ensure_ascii` as given. -/
def escape (ascii : Bool) (c : ℕ) : Str :=
  if c = 34 then lit "\\\"" else if c = 92 then lit "\\\\"
  else if c = 10 then lit "\\n" else if c = 13 then lit "\\r" else if c = 9 then lit "\\t"
  else if c = 12 then lit "\\f" else if c = 8 then lit "\\b"
  else if c < 32 then lit "\\u" ++ hex4 c
  else if !ascii || c < 127 then [c]
  else if c < 0x10000 then lit "\\u" ++ hex4 c
  else lit "\\u" ++ hex4 (0xD800 + (c - 0x10000) / 1024) ++
    lit "\\u" ++ hex4 (0xDC00 + (c - 0x10000) % 1024)

/-- A JSON string. -/
def quote (ascii : Bool) (s : Str) : Str := 34 :: s.flatMap (escape ascii) ++ [34]

/-- A line break and the indentation of `indent=2` at a nesting level. -/
def newline (level : ℕ) : Str := 10 :: List.replicate (2 * level) 32

/-- The items of a container between brackets, one a line. -/
def block (opening closing level : ℕ) (items : List Str) : Str :=
  if items = [] then [opening, closing]
  else opening :: newline (level + 1) ++ ([44] ++ newline (level + 1)).intercalate items ++
    newline level ++ [closing]

mutual

/-- `json.dumps(value, indent=2, sort_keys=True)` at a nesting level. -/
def dumpsAt (py : Py) (ascii : Bool) (level : ℕ) : Json → Str
  | .null => lit "null"
  | .bool true => lit "true"
  | .bool false => lit "false"
  | .int n => (if n < 0 then [45] else []) ++ decimal n.natAbs
  | .float x => py.floatText x
  | .str s => quote ascii s
  | .arr items => block 91 93 level (dumpsItems py ascii (level + 1) items)
  | .obj fields =>
    block 123 125 level (((dumpsFields py ascii (level + 1) fields).insertionSort
      (fun a b => a.1 ≤ b.1)).map fun kv => quote ascii kv.1 ++ lit ": " ++ kv.2)

/-- The texts of the items of a list. -/
def dumpsItems (py : Py) (ascii : Bool) (level : ℕ) : List Json → List Str
  | [] => []
  | v :: vs => dumpsAt py ascii level v :: dumpsItems py ascii level vs

/-- The keys of a dict with the texts of their values. -/
def dumpsFields (py : Py) (ascii : Bool) (level : ℕ) : List (Str × Json) → List (Str × Str)
  | [] => []
  | (k, v) :: kvs => (k, dumpsAt py ascii level v) :: dumpsFields py ascii level kvs

end

/-- `json.dumps(value, indent=2, sort_keys=True) + "\n"`. -/
def dumps (py : Py) (ascii : Bool) (value : Json) : Str := dumpsAt py ascii 0 value ++ [10]

/-- The UTF-8 form of one code point. -/
def utf8Char (c : ℕ) : Bytes :=
  let byte (n : ℕ) : UInt8 := UInt8.ofNat n
  if c < 0x80 then [byte c]
  else if c < 0x800 then [byte (0xC0 + c / 64), byte (0x80 + c % 64)]
  else if c < 0x10000 then [byte (0xE0 + c / 4096), byte (0x80 + c / 64 % 64), byte (0x80 + c % 64)]
  else [byte (0xF0 + c / 262144), byte (0x80 + c / 4096 % 64), byte (0x80 + c / 64 % 64),
    byte (0x80 + c % 64)]

/-- `s.encode("utf-8")`. -/
def utf8 (s : Str) : Bytes := s.flatMap utf8Char

/-- `s.encode("utf-8")` succeeds: no lone surrogate. -/
def encodable (s : Str) : Bool := s.all fun c => c < 0xD800 || 0xDFFF < c

/-! ### Strings can be read back -/

theorem escape_plain {c : ℕ} (h : 32 ≤ c ∧ c ≠ 34 ∧ c ≠ 92) : escape false c = [c] := by
  unfold escape
  rw [if_neg h.2.1, if_neg h.2.2, if_neg (by omega), if_neg (by omega), if_neg (by omega),
    if_neg (by omega), if_neg (by omega), if_neg (by omega), if_pos (by simp)]

/-- The characters that are written with a backslash. -/
def specials : List ℕ := List.range 32 ++ [34, 92]

theorem mem_specials {c : ℕ} : c ∈ specials ↔ ¬(32 ≤ c ∧ c ≠ 34 ∧ c ≠ 92) := by
  simp only [specials, List.mem_append, List.mem_range, List.mem_cons, List.not_mem_nil, or_false]
  omega

/-- Their forms are told apart by their first two characters and their length. -/
theorem escape_special : ∀ c ∈ specials, ∀ d ∈ specials,
    2 ≤ (escape false c).length ∧ (escape false c).head? = some 92 ∧
    ((escape false c).take 2 = (escape false d).take 2 →
      (escape false c).length = (escape false d).length) ∧
    (escape false c = escape false d → c = d) := by decide +kernel

theorem escape_split {c d : ℕ} {x y : Str} (h : escape false c ++ x = escape false d ++ y) :
    c = d ∧ x = y := by
  by_cases hc : c ∈ specials <;> by_cases hd : d ∈ specials
  · obtain ⟨hc2, -, hlen, hinj⟩ := escape_special c hc d hd
    obtain ⟨hd2, -⟩ := escape_special d hd d hd
    have htake := congrArg (List.take 2) h
    rw [List.take_append_of_le_length hc2, List.take_append_of_le_length hd2] at htake
    obtain ⟨h1, h2⟩ := List.append_inj h (hlen htake)
    exact ⟨hinj h1, h2⟩
  · obtain ⟨-, hhead, -⟩ := escape_special c hc c hc
    rw [mem_specials, not_not] at hd
    rw [escape_plain hd] at h
    have := congrArg List.head? h
    rw [List.head?_append, hhead] at this
    simp at this; omega
  · obtain ⟨-, hhead, -⟩ := escape_special d hd d hd
    rw [mem_specials, not_not] at hc
    rw [escape_plain hc] at h
    have := congrArg List.head? h
    rw [List.head?_append, List.head?_append, hhead] at this
    simp at this; omega
  · rw [mem_specials, not_not] at hc hd
    rw [escape_plain hc, escape_plain hd] at h
    simpa using h

theorem escape_head (c : ℕ) : ∃ b rest, escape false c = b :: rest ∧ b ≠ 34 := by
  by_cases hc : c ∈ specials
  · obtain ⟨-, hhead, -⟩ := escape_special c hc c hc
    rcases hs : escape false c with _ | ⟨b, rest⟩
    · rw [hs] at hhead; exact absurd hhead (by simp)
    · rw [hs] at hhead
      exact ⟨b, rest, rfl, by simp at hhead; omega⟩
  · rw [mem_specials, not_not] at hc
    exact ⟨c, [], escape_plain hc, hc.2.1⟩

theorem flatMap_escape_split : ∀ {a b x y : Str},
    a.flatMap (escape false) ++ 34 :: x = b.flatMap (escape false) ++ 34 :: y → a = b ∧ x = y
  | [], [], _, _, h => ⟨rfl, by simpa using h⟩
  | [], d :: b, x, y, h => by
    obtain ⟨e, rest, he, hne⟩ := escape_head d
    rw [List.flatMap_cons, he] at h
    exact absurd (List.cons.inj h).1.symm hne
  | c :: a, [], x, y, h => by
    obtain ⟨e, rest, he, hne⟩ := escape_head c
    rw [List.flatMap_cons, he] at h
    exact absurd (List.cons.inj h).1 hne
  | c :: a, d :: b, x, y, h => by
    rw [List.flatMap_cons, List.flatMap_cons, List.append_assoc, List.append_assoc] at h
    obtain ⟨rfl, hrest⟩ := escape_split h
    obtain ⟨rfl, hxy⟩ := flatMap_escape_split hrest
    exact ⟨rfl, hxy⟩

/-- **A JSON string ends where its text says.** -/
theorem quote_split {a b x y : Str} (h : quote false a ++ x = quote false b ++ y) :
    a = b ∧ x = y := by
  unfold quote at h
  simp only [List.cons_append, List.append_assoc, List.cons.injEq, true_and, List.nil_append] at h
  exact flatMap_escape_split h
/-! ### Texts that can be encoded -/

mutual

/-- Every string, key and float text in a value can be encoded. -/
def clean (py : Py) : Json → Bool
  | .float x => encodable (py.floatText x)
  | .str s => encodable s
  | .arr items => cleanItems py items
  | .obj fields => cleanFields py fields
  | _ => true

/-- The items of a list are clean. -/
def cleanItems (py : Py) : List Json → Bool
  | [] => true
  | v :: vs => clean py v && cleanItems py vs

/-- The keys and values of a dict are clean. -/
def cleanFields (py : Py) : List (Str × Json) → Bool
  | [] => true
  | (k, v) :: kvs => encodable k && clean py v && cleanFields py kvs

end

theorem encodable_append (s t : Str) : encodable (s ++ t) = (encodable s && encodable t) := by
  simp [encodable]

theorem encodable_of_lt {s : Str} (h : ∀ c ∈ s, c < 0xD800) : encodable s := by
  rw [encodable, List.all_eq_true]
  intro c hc
  simp [h c hc]

theorem encodable_decimal (n : ℕ) : encodable (decimal n) :=
  encodable_of_lt fun c hc => by have := decimal_digit hc; omega

theorem encodable_newline (level : ℕ) : encodable (newline level) :=
  encodable_of_lt fun c hc => by
    rw [newline, List.mem_cons, List.mem_replicate] at hc; omega

theorem encodable_hex4 (n : ℕ) : encodable (hex4 n) := by
  refine encodable_of_lt fun c hc => ?_
  simp only [hex4, List.mem_cons, List.not_mem_nil, or_false] at hc
  rcases hc with rfl | rfl | rfl | rfl <;> split_ifs <;> omega

/-- Without `ensure_ascii`, a string is written with its own code points. -/
theorem encodable_escape (c : ℕ) : encodable (escape false c) = encodable [c] := by
  have hlt : c < 0xD800 → encodable [c] := fun h => encodable_of_lt fun d hd => by
    rw [List.mem_singleton.mp hd]; exact h
  unfold escape
  split_ifs
  · subst c; decide
  · subst c; decide
  · subst c; decide
  · subst c; decide
  · subst c; decide
  · subst c; decide
  · subst c; decide
  · rw [encodable_append, encodable_hex4, hlt (by omega)]; decide
  · rfl
  · simp_all
  · simp_all

theorem encodable_quote (s : Str) : encodable (quote false s) = encodable s := by
  have hbody : encodable (s.flatMap (escape false)) = encodable s := by
    induction s with
    | nil => rfl
    | cons c s ih =>
      rw [List.flatMap_cons, encodable_append, ih, encodable_escape, ← encodable_append]; rfl
  rw [quote, encodable_append, ← List.singleton_append, encodable_append, hbody]
  simp [encodable]

theorem encodable_intercalate {sep : Str} (hsep : encodable sep) (items : List Str) :
    encodable (sep.intercalate items) ↔ ∀ s ∈ items, encodable s := by
  unfold List.intercalate
  induction items with
  | nil => simp [encodable]
  | cons a items ih =>
    rcases items with _ | ⟨b, items⟩
    · simp
    · rw [List.intersperse_cons_cons, List.flatten_cons, List.flatten_cons, encodable_append,
        encodable_append, hsep, Bool.true_and, Bool.and_eq_true, ih]
      exact (@List.forall_mem_cons _ (fun s => encodable s = true) a (b :: items)).symm

theorem encodable_block {opening closing : ℕ} (ho : opening < 0xD800) (hc : closing < 0xD800)
    (level : ℕ) (items : List Str) :
    encodable (block opening closing level items) ↔ ∀ s ∈ items, encodable s := by
  have h1 : ∀ c < 0xD800, encodable [c] := fun c h => encodable_of_lt fun d hd => by
    rw [List.mem_singleton.mp hd]; exact h
  unfold block
  split_ifs with h
  · subst h
    refine ⟨fun _ s hs => absurd hs (by simp), fun _ => encodable_of_lt fun d hd => ?_⟩
    simp only [List.mem_cons, List.not_mem_nil, or_false] at hd
    rcases hd with rfl | rfl
    · exact ho
    · exact hc
  · have hsep : encodable ([44] ++ newline (level + 1)) := by
      rw [encodable_append, encodable_newline]; decide
    rw [encodable_append, encodable_append, encodable_append, ← List.singleton_append,
      encodable_append, encodable_newline, encodable_newline, h1 _ ho, h1 _ hc]
    simp only [Bool.true_and, Bool.and_true]
    exact encodable_intercalate hsep items

mutual

theorem encodable_dumpsAt (py : Py) : ∀ (v : Json) (level : ℕ),
    encodable (dumpsAt py false level v) = clean py v
  | .null, _ => by simp only [dumpsAt, clean]; decide
  | .bool true, _ => by simp only [dumpsAt, clean]; decide
  | .bool false, _ => by simp only [dumpsAt, clean]; decide
  | .int n, _ => by
    simp only [dumpsAt, clean]
    rw [encodable_append, encodable_decimal]
    split_ifs <;> decide
  | .float x, _ => by simp only [dumpsAt, clean]
  | .str s, _ => by simp only [dumpsAt, clean, encodable_quote]
  | .arr items, level => by
    rw [Bool.eq_iff_iff, dumpsAt, encodable_block (by omega) (by omega), clean]
    exact encodable_dumpsItems py items (level + 1)
  | .obj fields, level => by
    rw [Bool.eq_iff_iff, dumpsAt, encodable_block (by omega) (by omega), clean,
      ← encodable_dumpsFields py fields (level + 1)]
    have hmem : ∀ kv : Str × Str, kv ∈ (dumpsFields py false (level + 1) fields).insertionSort
        (fun a b => a.1 ≤ b.1) ↔ kv ∈ dumpsFields py false (level + 1) fields :=
      fun kv => (List.perm_insertionSort _ _).mem_iff
    have hsep : encodable (lit ": ") := by decide
    simp only [List.forall_mem_map, hmem, encodable_append, encodable_quote, hsep, Bool.and_true,
      Bool.and_eq_true]

theorem encodable_dumpsItems (py : Py) : ∀ (vs : List Json) (level : ℕ),
    (∀ s ∈ dumpsItems py false level vs, encodable s) ↔ cleanItems py vs
  | [], _ => by simp [dumpsItems, cleanItems]
  | v :: vs, level => by
    rw [dumpsItems, List.forall_mem_cons, encodable_dumpsAt py v level,
      encodable_dumpsItems py vs level, cleanItems, Bool.and_eq_true]

theorem encodable_dumpsFields (py : Py) : ∀ (kvs : List (Str × Json)) (level : ℕ),
    (∀ kv ∈ dumpsFields py false level kvs, encodable kv.1 ∧ encodable kv.2) ↔ cleanFields py kvs
  | [], _ => by simp [dumpsFields, cleanFields]
  | (k, v) :: kvs, level => by
    rw [dumpsFields, List.forall_mem_cons, encodable_dumpsFields py kvs level, cleanFields,
      Bool.and_eq_true, Bool.and_eq_true, encodable_dumpsAt py v level]

end

theorem cleanItems_iff (py : Py) (vs : List Json) :
    cleanItems py vs ↔ ∀ v ∈ vs, clean py v := by
  induction vs with
  | nil => simp [cleanItems]
  | cons v vs ih => rw [cleanItems, Bool.and_eq_true, ih, List.forall_mem_cons]

theorem clean_get {py : Py} {d : Dict} (h : cleanFields py d) (key : Str) :
    clean py (get d key) := by
  induction d with
  | nil => rfl
  | cons kv d ih =>
    rw [cleanFields, Bool.and_eq_true, Bool.and_eq_true] at h
    rw [get_cons]
    split_ifs
    · exact h.1.2
    · exact ih h.2

/-- Setting a key exchanges one value. -/
theorem cleanFields_set {py : Py} {d : Dict} {key : Str} {old : Json} (h : get d key = old)
    (hold : old ≠ .null) (value : Json) :
    (cleanFields py (set d key value) && clean py old) = (cleanFields py d && clean py value) := by
  induction d with
  | nil => exact absurd h (Ne.symm hold)
  | cons kv d ih =>
    obtain ⟨k, v⟩ := kv
    rw [get_cons] at h
    unfold Value.set
    split_ifs at h ⊢ with h1 h2 h2
    · subst h; subst h1
      simp only [cleanFields]
      grind
    · exact absurd h1.symm h2
    · exact absurd h2.symm h1
    · simp only [cleanFields]
      have := ih h
      grind

theorem cleanFields_insert {py : Py} {d : Dict} {key : Str} {value : Json} (hd : cleanFields py d)
    (hk : encodable key) (hv : clean py value) : cleanFields py (set d key value) := by
  induction d with
  | nil => simp [Value.set, cleanFields, hk, hv]
  | cons kv d ih =>
    rw [cleanFields, Bool.and_eq_true] at hd
    unfold Value.set
    split_ifs with h
    · rw [cleanFields, hk, hv]; exact hd.2
    · rw [cleanFields, hd.1, ih hd.2]; rfl

/-- A manifest with one more entry is clean if the manifest and the entry are. -/
theorem clean_append {py : Py} {d : Dict} {key : Str} {items : List Json}
    (h : get d key = .arr items) (v : Json) :
    clean py (.obj (set d key (.arr (items ++ [v])))) ↔ cleanFields py d ∧ clean py v := by
  have hset := @cleanFields_set py d key _ h (by simp) (.arr (items ++ [v]))
  have happ : clean py (.arr (items ++ [v])) = (clean py (.arr items) && clean py v) := by
    rw [Bool.eq_iff_iff, clean, clean, Bool.and_eq_true, cleanItems_iff, cleanItems_iff,
      List.forall_mem_append, List.forall_mem_singleton]
  have hnew : cleanFields py (set d key (.arr (items ++ [v]))) → clean py (.arr (items ++ [v])) := by
    intro hc
    have := clean_get hc key
    rwa [get_set_self] at this
  have hold : cleanFields py d → clean py (.arr items) := fun hc => h ▸ clean_get hc key
  rw [clean]
  rw [happ] at hset hnew
  constructor
  · intro hc
    have := hnew hc
    grind
  · rintro ⟨h1, h2⟩
    have := hold h1
    grind

/-- A manifest with fewer entries is clean if the manifest is. -/
theorem clean_eraseIdx {py : Py} {d : Dict} {key : Str} {items : List Json}
    (h : get d key = .arr items) (hd : cleanFields py d) (i : ℕ) :
    clean py (.obj (set d key (.arr (items.eraseIdx i)))) := by
  have hset := @cleanFields_set py d key _ h (by simp) (.arr (items.eraseIdx i))
  have hold : clean py (.arr items) := h ▸ clean_get hd key
  have hnew : clean py (.arr (items.eraseIdx i)) := by
    rw [clean, cleanItems_iff] at hold ⊢
    exact fun v hv => hold v (List.mem_of_mem_eraseIdx hv)
  rw [hold, hnew, hd] at hset
  rw [clean]
  simpa using hset

/-- **`json.dumps(value, ensure_ascii=False)` can be encoded exactly when the value is clean.** -/
theorem encodable_dumps (py : Py) (v : Json) : encodable (dumps py false v) = clean py v := by
  rw [dumps, encodable_append, encodable_dumpsAt]
  simp [encodable]

/-! ### Files -/

/-- A regular file: its bytes, and what the JSON decoder makes of them. -/
structure File where
  bytes : Bytes
  content : Loaded
deriving DecidableEq

/-- The file `json.dump` writes for a dict. Decoding it gives the dict back. -/
def jsonFile (py : Py) (ascii : Bool) (d : Dict) : File :=
  ⟨utf8 (dumps py ascii (.obj d)), .value (.obj d)⟩

/-- The empty file `mkstemp` and `open("a+")` create. -/
def emptyFile : File := ⟨[], .jsonError⟩

theorem length_utf8 (s : Str) : s.length ≤ (utf8 s).length := by
  induction s with
  | nil => simp [utf8]
  | cons c s ih =>
    have hc : 1 ≤ (utf8Char c).length := by unfold utf8Char; split_ifs <;> simp
    unfold utf8 at ih ⊢
    rw [List.flatMap_cons, List.length_append, List.length_cons]; omega

theorem length_intercalate_le (sep : Str) (items : List Str) (h : ∀ s ∈ items, s ≠ []) :
    items.length ≤ (sep.intercalate items).length := by
  unfold List.intercalate
  induction items with
  | nil => simp
  | cons a items ih =>
    have ha : 1 ≤ a.length := List.length_pos_iff.mpr (h a (by simp))
    have ih' := ih fun s hs => h s (by simp [hs])
    rcases items with _ | ⟨b, items⟩
    · simpa using ha
    · rw [List.intersperse_cons_cons, List.flatten_cons, List.flatten_cons, List.length_append,
        List.length_append, List.length_cons]
      omega

theorem length_le_intercalate (sep : Str) : ∀ {items : List Str} {s : Str}, s ∈ items →
    s.length ≤ (sep.intercalate items).length
  | [a], s, h => by
    rw [List.mem_singleton.mp h]
    simp [List.intercalate]
  | a :: b :: items, s, h => by
    have hcut : sep.intercalate (a :: b :: items) = a ++ sep ++ sep.intercalate (b :: items) := by
      simp [List.intercalate]
    rw [hcut, List.length_append, List.length_append]
    rcases List.mem_cons.mp h with rfl | h
    · omega
    · have := length_le_intercalate sep h; omega

/-- A block is at least as long as each of its items, and as their number. -/
theorem length_le_block (opening closing level : ℕ) (items : List Str) :
    (∀ s ∈ items, s.length ≤ (block opening closing level items).length) ∧
      ((∀ s ∈ items, s ≠ []) → items.length ≤ (block opening closing level items).length) := by
  unfold block
  split_ifs with h
  · subst h; simp
  · refine ⟨fun s hs => ?_, fun hne => ?_⟩
    · have := length_le_intercalate ([44] ++ newline (level + 1)) hs
      simp only [List.length_append, List.length_cons] at this ⊢; omega
    · have := length_intercalate_le ([44] ++ newline (level + 1)) items hne
      simp only [List.length_append, List.length_cons] at this ⊢; omega

theorem mem_of_get {d : Dict} {key : Str} {v : Json} (h : get d key = v) (hv : v ≠ .null) :
    (key, v) ∈ d := by
  induction d with
  | nil => exact absurd h (Ne.symm hv)
  | cons kv d ih =>
    rw [get_cons] at h
    split_ifs at h with hk
    · subst hk h; exact List.mem_cons_self
    · exact List.mem_cons_of_mem kv (ih h)

theorem mem_dumpsFields (py : Py) (ascii : Bool) (level : ℕ) {k : Str} {v : Json} :
    ∀ {d : Dict}, (k, v) ∈ d → (k, dumpsAt py ascii level v) ∈ dumpsFields py ascii level d
  | (k', v') :: d, h => by
    rw [dumpsFields]
    rcases List.mem_cons.mp h with h | h
    · obtain ⟨rfl, rfl⟩ := Prod.mk.inj h
      exact List.mem_cons_self
    · exact List.mem_cons_of_mem _ (mem_dumpsFields py ascii level h)

theorem dumpsItems_eq_map (py : Py) (ascii : Bool) (level : ℕ) (vs : List Json) :
    dumpsItems py ascii level vs = vs.map (dumpsAt py ascii level) := by
  induction vs with
  | nil => rfl
  | cons v vs ih => rw [dumpsItems, ih, List.map_cons]

/-- **A file with a list of dicts in it has at least as many bytes as the list has items.** -/
theorem length_le_jsonFile (py : Py) (ascii : Bool) {d : Dict} {key : Str} {items : List Json}
    (h : get d key = .arr items) (hobj : ∀ v ∈ items, ∃ fields, v = .obj fields) :
    items.length ≤ (jsonFile py ascii d).bytes.length := by
  have hitems : items.length ≤ (dumpsAt py ascii 1 (.arr items)).length := by
    rw [dumpsAt, dumpsItems_eq_map]
    refine le_trans (by rw [List.length_map]) ((length_le_block 91 93 1 _).2 fun s hs => ?_)
    obtain ⟨v, hv, rfl⟩ := List.mem_map.mp hs
    obtain ⟨fields, rfl⟩ := hobj v hv
    rw [dumpsAt, block]
    split_ifs <;> simp
  have hmem := mem_dumpsFields py ascii 1 (mem_of_get h (by simp))
  have hline := (length_le_block 123 125 0 (((dumpsFields py ascii 1 d).insertionSort
    (fun a b => a.1 ≤ b.1)).map fun kv => quote ascii kv.1 ++ lit ": " ++ kv.2)).1 _
      (List.mem_map.mpr ⟨_, (List.perm_insertionSort _ _).mem_iff.mpr hmem, rfl⟩)
  refine le_trans ?_ (length_utf8 _)
  rw [dumps, List.length_append, dumpsAt]
  simp only [List.length_append] at hline
  simp only [List.length_cons, Nat.zero_add]
  omega

/-! ### A concrete interpreter -/

/-- The file with the text `s`, which is no JSON document. -/
def textFile (s : String) : File := ⟨utf8 (lit s), .jsonError⟩

/-- The name `a.json`. -/
def aJson : FileName := ⟨lit "a.json", by decide⟩

/-- An interpreter that knows the digests and the decoded documents of some files and the payloads
of some tokens, for running the model on concrete inputs of ASCII text. -/
def tablePy (digests : List (Bytes × Str)) (documents : List (Bytes × Json))
    (segments : List (Str × Json)) : Py where
  sha256 raw := ((digests.lookup raw).filter (· ≠ [])).getD (0 :: raw.map UInt8.toNat)
  loads raw := ((documents.lookup raw).map Loaded.value).getD .jsonError
  repr _ := []
  floatText _ := []
  lower := asciiLower
  casefold := asciiLower
  decodeIgnore raw := (raw.filter (· < 128)).map UInt8.toNat
  b64decode _ := none
  jwtSegment s := ((segments.lookup s).map Loaded.value).getD .jsonError
  float n := some n
  fromisoformat _ := none
  hasZone _ := false
  fromtimestamp _ := none
  floatOfText _ := none
  isoformat _ := []
  isoFromEpoch _ := none
  sha256_ne_nil raw := by
    rcases h : (digests.lookup raw).filter (· ≠ []) with _ | digest
    · simp
    · have := (Option.filter_eq_some_iff.mp h).2
      simpa using this
  lower_ascii _ _ := rfl
  casefold_ascii _ _ := rfl

/-- An interpreter that knows the digest of the text `one`. -/
def onePy : Py := tablePy [((textFile "one").bytes,
  lit "7692c3ad3540bb803c020b3aee66cd8887123234ea0c6e7143c0add73ff431ed")] [] []

end Cloudx.Python.Dump

import Cloudx.Python.Canonical
import Cloudx.Python.JsonText

/-! # The canonical encoding

`json.dumps(value, ensure_ascii=True, separators=(",", ":"), sort_keys=True)` writes a value on one
line. A text without characters outside the basic plane is written in one way only, and so is a value
made of such texts, integers, booleans and dicts: no other value has its encoding
(`compact_injective`), whatever texts, lists and floats it holds. -/

namespace Cloudx.Python.Compact

open Cloudx.Python.Text Cloudx.Python.Value Cloudx.Python.Dump Cloudx.Python.Canonical
open Cloudx.Python.JsonText (escapedChar)

variable (py : Py)

mutual

/-- The value on one line, its keys in the order they have. -/
def write : Json → Str
  | .null => lit "null"
  | .bool true => lit "true"
  | .bool false => lit "false"
  | .int n => (if n < 0 then [45] else []) ++ decimal n.natAbs
  | .float x => py.floatText x
  | .str s => quote true s
  | .arr [] => lit "[]"
  | .arr (v :: vs) => 91 :: write v ++ writeItems vs
  | .obj [] => lit "\x7b\x7d"
  | .obj ((k, v) :: kvs) => 123 :: quote true k ++ 58 :: write v ++ writeFields kvs

/-- What follows the first item of a list. -/
def writeItems : List Json → Str
  | [] => [93]
  | v :: vs => 44 :: write v ++ writeItems vs

/-- What follows the first item of a dict. -/
def writeFields : List (Str × Json) → Str
  | [] => [125]
  | (k, v) :: kvs => 44 :: quote true k ++ 58 :: write v ++ writeFields kvs

end

/-- `json.dumps(value, ensure_ascii=True, separators=(",", ":"), sort_keys=True)` -/
def compact (value : Json) : Str := write py (sortKeys value)

/-! ### Characters -/

/-- The forms of one character of the basic plane. -/
theorem escape_forms {c : ℕ} (hc : c < 0x10000) :
    (∃ code, escape true c = [92, code] ∧ escapedChar code = some c ∧ code ≠ 117) ∨
    (escape true c = [c] ∧ c ≠ 92 ∧ c ≠ 34) ∨ escape true c = 92 :: 117 :: hex4 c := by
  unfold escape
  split_ifs with h1 h2 h3 h4 h5 h6 h7 h8 h9
  · subst h1; exact .inl ⟨34, rfl, rfl, by decide⟩
  · subst h2; exact .inl ⟨92, rfl, rfl, by decide⟩
  · subst h3; exact .inl ⟨110, rfl, rfl, by decide⟩
  · subst h4; exact .inl ⟨114, rfl, rfl, by decide⟩
  · subst h5; exact .inl ⟨116, rfl, rfl, by decide⟩
  · subst h6; exact .inl ⟨102, rfl, rfl, by decide⟩
  · subst h7; exact .inl ⟨98, rfl, rfl, by decide⟩
  · exact .inr (.inr rfl)
  · exact .inr (.inl ⟨rfl, h2, h1⟩)
  · exact .inr (.inr rfl)

theorem hex4_injective {a b : ℕ} (ha : a < 0x10000) (hb : b < 0x10000) (h : hex4 a = hex4 b) :
    a = b := by
  have hdigit : ∀ d < 16, ∀ e < 16, (if d < 10 then 48 + d else 87 + d) =
      (if e < 10 then 48 + e else 87 + e) → d = e := by decide
  unfold hex4 at h
  simp only [List.cons.injEq, and_true] at h
  obtain ⟨h1, h2, h3, h4⟩ := h
  have e1 := hdigit _ (by omega) _ (by omega) h1
  have e2 := hdigit _ (by omega) _ (by omega) h2
  have e3 := hdigit _ (by omega) _ (by omega) h3
  have e4 := hdigit _ (by omega) _ (by omega) h4
  omega

/-- One character of the basic plane is told from another by its form. -/
theorem escape_unit {c d : ℕ} (hc : c < 0x10000) (hd : d < 0x10000) {x y : Str}
    (h : escape true c ++ x = escape true d ++ y) : c = d ∧ x = y := by
  rcases escape_forms hc with ⟨i, hi, hci, hni⟩ | ⟨hi, hni, -⟩ | hi <;>
    rcases escape_forms hd with ⟨j, hj, hdj, hnj⟩ | ⟨hj, hnj, -⟩ | hj
  · rw [hi, hj] at h
    obtain ⟨rfl, rfl⟩ : i = j ∧ x = y := by simpa using h
    exact ⟨Option.some.inj (hci.symm.trans hdj), rfl⟩
  · rw [hi, hj] at h
    exact absurd (List.cons.inj h).1.symm hnj
  · rw [hi, hj] at h
    exact absurd (List.cons.inj (List.cons.inj h).2).1 hni
  · rw [hi, hj] at h
    exact absurd (List.cons.inj h).1 hni
  · rw [hi, hj] at h
    exact ⟨(List.cons.inj h).1, (List.cons.inj h).2⟩
  · rw [hi, hj] at h
    exact absurd (List.cons.inj h).1 hni
  · rw [hi, hj] at h
    exact absurd (List.cons.inj (List.cons.inj h).2).1.symm hnj
  · rw [hi, hj] at h
    exact absurd (List.cons.inj h).1.symm hnj
  · rw [hi, hj] at h
    obtain ⟨h1, h2⟩ := List.append_inj (List.cons.inj (List.cons.inj h).2).2 rfl
    exact ⟨hex4_injective hc hd h1, h2⟩

/-- A code point of the basic plane that is no surrogate. -/
def Basic (c : ℕ) : Prop := c < 0xD800 ∨ (0xDFFF < c ∧ c < 0x10000)

/-- A code point beyond the basic plane is written as two surrogates. -/
theorem escape_pair {c : ℕ} (h : 0x10000 ≤ c) (hc : c < 0x110000) : escape true c =
    escape true (0xD800 + (c - 0x10000) / 1024) ++
      (lit "\\u" ++ hex4 (0xDC00 + (c - 0x10000) % 1024)) := by
  have hunit : escape true (0xD800 + (c - 0x10000) / 1024) =
      lit "\\u" ++ hex4 (0xD800 + (c - 0x10000) / 1024) := by
    unfold escape
    rw [if_neg (by omega), if_neg (by omega), if_neg (by omega), if_neg (by omega),
      if_neg (by omega), if_neg (by omega), if_neg (by omega), if_neg (by omega),
      if_neg (by simp; omega), if_pos (by omega)]
  rw [hunit]
  unfold escape
  rw [if_neg (by omega), if_neg (by omega), if_neg (by omega), if_neg (by omega),
    if_neg (by omega), if_neg (by omega), if_neg (by omega), if_neg (by omega),
    if_neg (by simp; omega), if_neg (by omega), List.append_assoc]

theorem escape_first {c : ℕ} (hc : c < 0x110000) :
    ∃ b rest, escape true c = b :: rest ∧ b ≠ 34 := by
  have hunit : ∀ u < 0x10000, ∃ b rest, escape true u = b :: rest ∧ b ≠ 34 := by
    intro u hu
    rcases escape_forms hu with ⟨code, he, -⟩ | ⟨he, -, hne⟩ | he
    · exact ⟨92, _, he, by decide⟩
    · exact ⟨u, _, he, hne⟩
    · exact ⟨92, _, he, by decide⟩
  by_cases h : c < 0x10000
  · exact hunit c h
  · obtain ⟨b, rest, he, hne⟩ := hunit (0xD800 + (c - 0x10000) / 1024) (by omega)
    exact ⟨b, _, by rw [escape_pair (by omega) hc, he]; rfl, hne⟩

/-! ### Texts -/

/-- A text of characters of the basic plane. -/
def BasicText (s : Str) : Prop := ∀ c ∈ s, Basic c

/-- A text of code points, as every Python text is. -/
def Points (s : Str) : Prop := ∀ c ∈ s, c < 0x110000

theorem flatMap_escape_basic : ∀ {s t x y : Str}, BasicText s → Points t →
    s.flatMap (escape true) ++ 34 :: x = t.flatMap (escape true) ++ 34 :: y → s = t ∧ x = y
  | [], [], _, _, _, _, h => ⟨rfl, (List.cons.inj h).2⟩
  | [], d :: t, x, y, _, ht, h => by
    obtain ⟨b, rest, he, hne⟩ := escape_first (ht d List.mem_cons_self)
    rw [List.flatMap_cons, he] at h
    exact absurd (List.cons.inj h).1.symm hne
  | c :: s, [], x, y, hs, _, h => by
    have hc : c < 0x110000 := by
      rcases hs c List.mem_cons_self with hc | hc <;> omega
    obtain ⟨b, rest, he, hne⟩ := escape_first hc
    rw [List.flatMap_cons, he] at h
    exact absurd (List.cons.inj h).1 hne
  | c :: s, d :: t, x, y, hs, ht, h => by
    have hbasic := hs c List.mem_cons_self
    have hc : c < 0x10000 := by rcases hbasic with hc | hc <;> omega
    have hd := ht d List.mem_cons_self
    rw [List.flatMap_cons, List.flatMap_cons, List.append_assoc, List.append_assoc] at h
    by_cases hplane : d < 0x10000
    · obtain ⟨rfl, hrest⟩ := escape_unit hc hplane h
      obtain ⟨rfl, hxy⟩ := flatMap_escape_basic (fun e he => hs e (List.mem_cons_of_mem _ he))
        (fun e he => ht e (List.mem_cons_of_mem _ he)) hrest
      exact ⟨rfl, hxy⟩
    · rw [escape_pair (by omega) hd, List.append_assoc] at h
      obtain ⟨hsurrogate, -⟩ := escape_unit hc (by omega) h
      rcases hbasic with hb | hb <;> omega

/-- **A text of the basic plane has a form of its own.** -/
theorem quote_basic {s t x y : Str} (hs : BasicText s) (ht : Points t)
    (h : quote true s ++ x = quote true t ++ y) : s = t ∧ x = y := by
  unfold quote at h
  simp only [List.cons_append, List.append_assoc, List.cons.injEq, true_and, List.nil_append] at h
  exact flatMap_escape_basic hs ht h

/-! ### Values -/

mutual

/-- A value of such texts, integers, booleans and dicts. -/
def Tame : Json → Prop
  | .float _ => False
  | .arr _ => False
  | .str s => BasicText s
  | .obj fields => TameFields fields
  | _ => True

/-- The keys and values of a dict are tame. -/
def TameFields : List (Str × Json) → Prop
  | [] => True
  | (k, v) :: kvs => BasicText k ∧ Tame v ∧ TameFields kvs

end

mutual

/-- Every text in the value is made of code points. -/
def Pointed : Json → Prop
  | .str s => Points s
  | .arr items => PointedItems items
  | .obj fields => PointedFields fields
  | _ => True

/-- The items of a list are pointed. -/
def PointedItems : List Json → Prop
  | [] => True
  | v :: vs => Pointed v ∧ PointedItems vs

/-- The keys and values of a dict are pointed. -/
def PointedFields : List (Str × Json) → Prop
  | [] => True
  | (k, v) :: kvs => Points k ∧ Pointed v ∧ PointedFields kvs

end

/-- A character of a number. -/
def numberChars : Str := lit "0123456789+-.eENaIfinity"

/-- The text of a float: characters of a number, one of which no integer has, and a digit, a sign or a
capital letter in front. -/
structure FloatTexts : Prop where
  chars : ∀ x, ∀ c ∈ py.floatText x, c ∈ numberChars
  mark : ∀ x, ∃ c ∈ py.floatText x, c ∈ lit ".eNI"
  first : ∀ x, ∀ c ∈ (py.floatText x).head?, c ∈ lit "0123456789-NI"

/-- What can follow a value: the end of the text, a comma or a closing bracket. -/
def Stop (x : Str) : Prop := ∀ c ∈ x.head?, c ∈ lit ",]\x7d"

/-! ### Numbers -/

/-- The text of an integer. -/
def intText (n : ℤ) : Str := (if n < 0 then [45] else []) ++ decimal n.natAbs

theorem intText_chars {n : ℤ} {c : ℕ} (h : c ∈ intText n) : c = 45 ∨ (48 ≤ c ∧ c ≤ 57) := by
  unfold intText at h
  rcases List.mem_append.mp h with h | h
  · split_ifs at h
    · exact .inl (List.mem_singleton.mp h)
    · cases h
  · exact .inr (decimal_digit h)

theorem intText_injective : Function.Injective intText := by
  intro n m h
  have hsign : ∀ {a b : ℕ}, 45 :: decimal a ≠ decimal b := by
    intro a b he
    have := decimal_digit (n := b) (c := 45) (by rw [← he]; exact List.mem_cons_self)
    omega
  unfold intText at h
  split_ifs at h with h1 h2 h2
  · have := decimal_injective (List.cons.inj h).2
    omega
  · exact absurd h hsign
  · exact absurd h.symm hsign
  · have := decimal_injective (List.nil_append _ ▸ List.nil_append _ ▸ h)
    omega

theorem numberChars_stop {c : ℕ} (h : c ∈ lit ",]\x7d") : c ∉ numberChars := by
  revert c
  decide

theorem intText_number {n : ℤ} {c : ℕ} (h : c ∈ intText n) : c ∈ numberChars := by
  have hdigits : ∀ c < 58, c = 45 ∨ 48 ≤ c → c ∈ numberChars := by decide
  rcases intText_chars h with rfl | ⟨h1, h2⟩
  · decide
  · exact hdigits c (by omega) (.inr h1)

/-- Two numbers before a stop end at the same place. -/
theorem number_split {a b x y : Str} (ha : ∀ c ∈ a, c ∈ numberChars)
    (hb : ∀ c ∈ b, c ∈ numberChars) (hx : Stop x) (hy : Stop y) (h : a ++ x = b ++ y) :
    a = b ∧ x = y := by
  have hwhile : ∀ {t z : Str}, (∀ c ∈ t, c ∈ numberChars) → Stop z →
      (t ++ z).takeWhile (fun c => decide (c ∈ numberChars)) = t := by
    intro t z ht hz
    rw [List.takeWhile_append_of_pos fun c hc => decide_eq_true (ht c hc)]
    rcases z with _ | ⟨c, z⟩
    · rw [List.takeWhile_nil, List.append_nil]
    · have hc : c ∉ numberChars := numberChars_stop (hz c rfl)
      rw [List.takeWhile_cons_of_neg (by simpa using hc), List.append_nil]
  have hab : a = b := by rw [← hwhile ha hx, h, hwhile hb hy]
  subst hab
  exact ⟨rfl, List.append_cancel_left h⟩

/-! ### One value for each text -/

/-- The kinds of values that their first characters tell apart. -/
inductive Kind where
  | null
  | yes
  | no
  | number
  | str
  | arr
  | obj
deriving DecidableEq

/-- The kind of a value. -/
def kind : Json → Kind
  | .null => .null
  | .bool true => .yes
  | .bool false => .no
  | .int _ => .number
  | .float _ => .number
  | .str _ => .str
  | .arr _ => .arr
  | .obj _ => .obj

/-- The kind that a first character announces. -/
def announced (c : ℕ) : Kind :=
  if c = 110 then .null else if c = 116 then .yes else if c = 102 then .no
  else if c = 34 then .str else if c = 91 then .arr else if c = 123 then .obj else .number

theorem announced_number : ∀ c ∈ lit "0123456789-NI", announced c = .number := by decide

theorem intText_head (n : ℤ) : ∃ c rest, intText n = c :: rest ∧ announced c = .number := by
  have hne : intText n ≠ [] := by
    unfold intText
    intro h
    exact decimal_ne_nil _ (List.append_eq_nil_iff.mp h).2
  obtain ⟨c, rest, he⟩ := List.exists_cons_of_ne_nil hne
  refine ⟨c, rest, he, ?_⟩
  have hc := intText_chars (n := n) (c := c) (by rw [he]; exact List.mem_cons_self)
  unfold announced
  rw [if_neg (by omega), if_neg (by omega), if_neg (by omega), if_neg (by omega),
    if_neg (by omega), if_neg (by omega)]

variable {py}

theorem write_head (hf : FloatTexts py) (v : Json) :
    ∃ c rest, write py v = c :: rest ∧ announced c = kind v := by
  cases v with
  | null => exact ⟨_, _, rfl, rfl⟩
  | bool b => cases b <;> exact ⟨_, _, rfl, rfl⟩
  | int n => exact intText_head n
  | float x =>
    obtain ⟨d, hd, -⟩ := hf.mark x
    rcases hx : py.floatText x with _ | ⟨c, rest⟩
    · rw [hx] at hd; cases hd
    · exact ⟨c, rest, hx, announced_number c (hf.first x c (by rw [hx]; rfl))⟩
  | str s => exact ⟨_, _, rfl, rfl⟩
  | arr items => rcases items with _ | ⟨v, vs⟩ <;> exact ⟨_, _, rfl, rfl⟩
  | obj fields => rcases fields with _ | ⟨⟨k, v⟩, kvs⟩ <;> exact ⟨_, _, rfl, rfl⟩

theorem kind_eq (hf : FloatTexts py) {u v : Json} {x y : Str}
    (h : write py u ++ x = write py v ++ y) : kind u = kind v := by
  obtain ⟨c, rest, hu, hc⟩ := write_head hf u
  obtain ⟨d, rest', hv, hd⟩ := write_head hf v
  rw [hu, hv] at h
  rw [← hc, ← hd, (List.cons.inj h).1]

theorem stop_writeFields (fields : List (Str × Json)) (x : Str) :
    Stop (writeFields py fields ++ x) := by
  rcases fields with _ | ⟨⟨k, v⟩, kvs⟩
  · intro c hc
    cases hc
    decide
  · intro c hc
    cases hc
    decide

/-- The text of an integer is that of no other number. -/
theorem write_int (hf : FloatTexts py) {n : ℤ} {v : Json} {x y : Str} (hx : Stop x) (hy : Stop y)
    (h : write py (.int n) ++ x = write py v ++ y) : Json.int n = v ∧ x = y := by
  have hkind := kind_eq hf h
  cases v with
  | int m =>
    obtain ⟨ht, hxy⟩ := number_split (fun c hc => intText_number (n := n) hc)
      (fun c hc => intText_number (n := m) hc) hx hy h
    exact ⟨by rw [intText_injective ht], hxy⟩
  | float z =>
    obtain ⟨ht, -⟩ := number_split (fun c hc => intText_number (n := n) hc) (hf.chars z) hx hy h
    obtain ⟨c, hc, hmark⟩ := hf.mark z
    rw [← ht] at hc
    have hdigit := intText_chars (n := n) hc
    have hno : ∀ c ∈ lit ".eNI", ¬(c = 45 ∨ (48 ≤ c ∧ c ≤ 57)) := by decide
    exact absurd hdigit (hno c hmark)
  | bool b => cases b <;> cases hkind
  | _ => cases hkind

mutual

/-- **A tame value has a text of its own.** -/
theorem write_tame (hf : FloatTexts py) : ∀ {u v : Json} {x y : Str}, Tame u → Pointed v →
    Stop x → Stop y → write py u ++ x = write py v ++ y → u = v ∧ x = y
  | .null, v, x, y, _, _, _, _, h => by
    have hkind := kind_eq hf h
    cases v with
    | null => exact ⟨rfl, List.append_cancel_left h⟩
    | bool b => cases b <;> cases hkind
    | _ => cases hkind
  | .bool b, v, x, y, _, _, _, _, h => by
    have hkind := kind_eq hf h
    cases v with
    | bool b' =>
      cases b <;> cases b' <;> first
        | (cases hkind; done)
        | exact ⟨rfl, List.append_cancel_left h⟩
    | _ => cases b <;> cases hkind
  | .int n, v, x, y, _, _, hx, hy, h => write_int hf hx hy h
  | .float z, _, _, _, hu, _, _, _, _ => absurd hu id
  | .arr items, _, _, _, hu, _, _, _, _ => absurd hu id
  | .str s, v, x, y, hs, hv, _, _, h => by
    have hkind := kind_eq hf h
    cases v with
    | str t =>
      obtain ⟨rfl, hxy⟩ := quote_basic hs hv h
      exact ⟨rfl, hxy⟩
    | bool b => cases b <;> cases hkind
    | _ => cases hkind
  | .obj [], v, x, y, hu, hv, hx, hy, h => by
    have hkind := kind_eq hf h
    cases v with
    | obj fields =>
      rcases fields with _ | ⟨⟨k', v'⟩, kvs'⟩
      · exact ⟨rfl, List.append_cancel_left h⟩
      · have := (List.cons.inj (List.cons.inj h).2).1
        cases this
    | bool b => cases b <;> cases hkind
    | _ => cases hkind
  | .obj ((k, u) :: kvs), v, x, y, hu, hv, hx, hy, h => by
    have hkind := kind_eq hf h
    cases v with
    | obj fields =>
      rcases fields with _ | ⟨⟨k', v'⟩, kvs'⟩
      · have := (List.cons.inj (List.cons.inj h).2).1
        cases this
      · have h' : quote true k ++ 58 :: (write py u ++ (writeFields py kvs ++ x)) =
            quote true k' ++ 58 :: (write py v' ++ (writeFields py kvs' ++ y)) := by
          simpa only [write, List.cons_append, List.append_assoc, List.cons.injEq, true_and] using h
        obtain ⟨rfl, h1⟩ := quote_basic hu.1 hv.1 h'
        obtain ⟨rfl, h2⟩ := write_tame hf hu.2.1 hv.2.1 (stop_writeFields _ _)
          (stop_writeFields _ _) (List.cons.inj h1).2
        obtain ⟨rfl, h3⟩ := writeFields_tame hf hu.2.2 hv.2.2 h2
        exact ⟨rfl, h3⟩
    | bool b => cases b <;> cases hkind
    | _ => cases hkind

/-- And so have the fields of a dict. -/
theorem writeFields_tame (hf : FloatTexts py) : ∀ {kvs kvs' : List (Str × Json)} {x y : Str},
    TameFields kvs → PointedFields kvs' → writeFields py kvs ++ x = writeFields py kvs' ++ y →
    kvs = kvs' ∧ x = y
  | [], [], x, y, _, _, h => ⟨rfl, (List.cons.inj h).2⟩
  | [], (k', v') :: kvs', x, y, _, _, h => by cases (List.cons.inj h).1
  | (k, u) :: kvs, [], x, y, _, _, h => by cases (List.cons.inj h).1
  | (k, u) :: kvs, (k', v') :: kvs', x, y, hu, hv, h => by
    have h' : quote true k ++ 58 :: (write py u ++ (writeFields py kvs ++ x)) =
        quote true k' ++ 58 :: (write py v' ++ (writeFields py kvs' ++ y)) := by
      simpa only [writeFields, List.cons_append, List.append_assoc, List.cons.injEq, true_and] using h
    obtain ⟨rfl, h1⟩ := quote_basic hu.1 hv.1 h'
    obtain ⟨rfl, h2⟩ := write_tame hf hu.2.1 hv.2.1 (stop_writeFields _ _)
      (stop_writeFields _ _) (List.cons.inj h1).2
    obtain ⟨rfl, h3⟩ := writeFields_tame hf hu.2.2 hv.2.2 h2
    exact ⟨rfl, h3⟩

end

/-! ### Sorted values -/

theorem tameFields_iff {fields : List (Str × Json)} :
    TameFields fields ↔ ∀ kv ∈ fields, BasicText kv.1 ∧ Tame kv.2 := by
  induction fields with
  | nil => exact iff_of_true trivial fun kv h => by cases h
  | cons kv fields ih =>
    rw [List.forall_mem_cons, ← ih]
    exact and_assoc.symm

theorem pointedFields_iff {fields : List (Str × Json)} :
    PointedFields fields ↔ ∀ kv ∈ fields, Points kv.1 ∧ Pointed kv.2 := by
  induction fields with
  | nil => exact iff_of_true trivial fun kv h => by cases h
  | cons kv fields ih =>
    rw [List.forall_mem_cons, ← ih]
    exact and_assoc.symm

mutual

theorem tame_sortKeys : ∀ {v : Json}, Tame v → Tame (sortKeys v)
  | .null, _ | .bool _, _ | .int _, _ => trivial
  | .float _, h | .arr _, h => absurd h id
  | .str _, h => h
  | .obj fields, h => by
    have hsorted := tameFields_iff.mp (tameFields_sort h)
    exact tameFields_iff.mpr fun kv hkv => hsorted kv ((List.mem_insertionSort _).mp hkv)

theorem tameFields_sort : ∀ {fields : List (Str × Json)}, TameFields fields →
    TameFields (sortFields fields)
  | [], _ => trivial
  | (_, _) :: _, ⟨hk, hv, hrest⟩ => ⟨hk, tame_sortKeys hv, tameFields_sort hrest⟩

end

mutual

theorem pointed_sortKeys : ∀ {v : Json}, Pointed v → Pointed (sortKeys v)
  | .null, _ | .bool _, _ | .int _, _ | .float _, _ => trivial
  | .str _, h => h
  | .arr _, h => pointedItems_sort h
  | .obj fields, h => by
    have hsorted := pointedFields_iff.mp (pointedFields_sort h)
    exact pointedFields_iff.mpr fun kv hkv => hsorted kv ((List.mem_insertionSort _).mp hkv)

theorem pointedItems_sort : ∀ {items : List Json}, PointedItems items →
    PointedItems (sortItems items)
  | [], _ => trivial
  | _ :: _, ⟨hv, hrest⟩ => ⟨pointed_sortKeys hv, pointedItems_sort hrest⟩

theorem pointedFields_sort : ∀ {fields : List (Str × Json)}, PointedFields fields →
    PointedFields (sortFields fields)
  | [], _ => trivial
  | (_, _) :: _, ⟨hk, hv, hrest⟩ => ⟨hk, pointed_sortKeys hv, pointedFields_sort hrest⟩

end

/-! ### Bytes -/

/-- A text of ASCII characters. -/
def Ascii (s : Str) : Prop := ∀ c ∈ s, c < 128

instance (s : Str) : Decidable (Ascii s) := inferInstanceAs (Decidable (∀ c ∈ s, c < 128))

/-- A text of printable ASCII characters. -/
def Printable (s : Str) : Prop := ∀ c ∈ s, 32 ≤ c ∧ c < 127

instance (s : Str) : Decidable (Printable s) :=
  inferInstanceAs (Decidable (∀ c ∈ s, 32 ≤ c ∧ c < 127))

theorem Printable.ascii {s : Str} (h : Printable s) : Ascii s := fun c hc => by
  have := h c hc
  omega

theorem Printable.append {s t : Str} (hs : Printable s) (ht : Printable t) : Printable (s ++ t) :=
  fun c hc => (List.mem_append.mp hc).elim (hs c) (ht c)

theorem Printable.cons {c : ℕ} {s : Str} (hc : 32 ≤ c ∧ c < 127) (hs : Printable s) :
    Printable (c :: s) := fun d hd => (List.mem_cons.mp hd).elim (fun h => h ▸ hc) (hs d)

theorem printable_escape (c : ℕ) : Printable (escape true c) := by
  have hhex : ∀ n, Printable (hex4 n) := by
    intro n d hd
    simp only [hex4, List.mem_cons, List.not_mem_nil, or_false] at hd
    rcases hd with rfl | rfl | rfl | rfl <;> split_ifs <;> omega
  have hu : Printable (lit "\\u") := by decide
  have hunit : ∀ n, Printable (lit "\\u" ++ hex4 n) := fun n => hu.append (hhex n)
  unfold escape
  split_ifs with h1 h2 h3 h4 h5 h6 h7 h8 h9
  · decide
  · decide
  · decide
  · decide
  · decide
  · decide
  · decide
  · exact hunit c
  · intro d hd
    rw [List.mem_singleton.mp hd]
    simp only [Bool.not_true, Bool.false_or, decide_eq_true_eq] at h9
    omega
  · exact hunit c
  · exact ((hunit _).append hu).append (hhex _)

theorem printable_quote (s : Str) : Printable (quote true s) := by
  refine Printable.append (Printable.cons (by decide) fun c hc => ?_) (by decide)
  obtain ⟨d, -, hd⟩ := List.mem_flatMap.mp hc
  exact printable_escape d c hd

theorem printable_number {s : Str} (h : ∀ c ∈ s, c ∈ numberChars) : Printable s := fun c hc =>
  (show ∀ c ∈ numberChars, 32 ≤ c ∧ c < 127 by decide) c (h c hc)

mutual

theorem printable_write (hf : FloatTexts py) : ∀ v : Json, Printable (write py v)
  | .null | .bool true | .bool false | .arr [] | .obj [] => by unfold write; decide
  | .int n => printable_number fun _ hc => intText_number (n := n) hc
  | .float x => printable_number (hf.chars x)
  | .str s => printable_quote s
  | .arr (v :: vs) =>
    (Printable.cons (by decide) (printable_write hf v)).append (printable_items hf vs)
  | .obj ((k, v) :: kvs) => by
    have hpair : Printable (123 :: quote true k ++ 58 :: write py v) :=
      (Printable.cons (by decide) (printable_quote k)).append
        (Printable.cons (by decide) (printable_write hf v))
    exact hpair.append (printable_fields hf kvs)

theorem printable_items (hf : FloatTexts py) : ∀ vs : List Json, Printable (writeItems py vs)
  | [] => by unfold writeItems; decide
  | v :: vs => (Printable.cons (by decide) (printable_write hf v)).append (printable_items hf vs)

theorem printable_fields (hf : FloatTexts py) :
    ∀ kvs : List (Str × Json), Printable (writeFields py kvs)
  | [] => by unfold writeFields; decide
  | (k, v) :: kvs => by
    have hpair : Printable (44 :: quote true k ++ 58 :: write py v) :=
      (Printable.cons (by decide) (printable_quote k)).append
        (Printable.cons (by decide) (printable_write hf v))
    exact hpair.append (printable_fields hf kvs)

end

theorem ascii_write (hf : FloatTexts py) (v : Json) : Ascii (write py v) :=
  (printable_write hf v).ascii

/-- UTF-8 tells ASCII texts apart. -/
theorem utf8_ascii : ∀ {s t : Str}, Ascii s → Ascii t → utf8 s = utf8 t → s = t
  | [], [], _, _, _ => rfl
  | [], d :: t, _, ht, h => by
    have hd := ht d List.mem_cons_self
    unfold utf8 at h
    rw [List.flatMap_cons, utf8Char, if_pos (by omega)] at h
    cases h
  | c :: s, [], hs, _, h => by
    have hc := hs c List.mem_cons_self
    unfold utf8 at h
    rw [List.flatMap_cons, utf8Char, if_pos (by omega)] at h
    cases h
  | c :: s, d :: t, hs, ht, h => by
    have hc := hs c List.mem_cons_self
    have hd := ht d List.mem_cons_self
    unfold utf8 at h
    rw [List.flatMap_cons, List.flatMap_cons, utf8Char, utf8Char, if_pos (by omega),
      if_pos (by omega)] at h
    obtain ⟨hbyte, hrest⟩ := List.cons.inj h
    have hnat := congrArg UInt8.toNat hbyte
    simp only [UInt8.toNat_ofNat'] at hnat
    rw [Nat.mod_eq_of_lt (by omega), Nat.mod_eq_of_lt (by omega)] at hnat
    have htail := utf8_ascii (fun e he => hs e (List.mem_cons_of_mem _ he))
      (fun e he => ht e (List.mem_cons_of_mem _ he)) hrest
    rw [hnat, htail]

/-- **Only the same values have the encoding of a tame one.** -/
theorem compact_injective (hf : FloatTexts py) {u v : Json} (hu : Tame u) (hv : Pointed v)
    (h : utf8 (compact py u) = utf8 (compact py v)) : Same u v := by
  have htext := utf8_ascii (ascii_write hf _) (ascii_write hf _) h
  have hstop : Stop [] := fun c hc => by cases hc
  exact (write_tame hf (tame_sortKeys hu) (pointed_sortKeys hv) hstop hstop
    (by rw [List.append_nil, List.append_nil]; exact htext)).1

end Cloudx.Python.Compact

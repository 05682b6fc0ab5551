import Cloudx.Python.Value

/-! # JSON texts

How a value is written: as a row of lexemes, each a mark, a string or a number or name, with blanks
between them. A string's characters may be escaped, so that it has many spellings; the lexemes of a
value are determined.

Two facts about texts are shown. Every key of an object is written as a string before a colon. And
a string before a colon, found anywhere in a text by its quotation mark, is such a key, unless the
mark is an escaped one or ends a string: then what follows holds hardly a letter. -/

namespace Cloudx.Python.JsonText

open Cloudx.Python.Text Cloudx.Python.Value

/-! ### Strings -/

/-- The value of a hex digit. -/
def hexDigit (c : ℕ) : Option ℕ :=
  if 48 ≤ c ∧ c ≤ 57 then some (c - 48)
  else if 65 ≤ c ∧ c ≤ 70 then some (c - 55)
  else if 97 ≤ c ∧ c ≤ 102 then some (c - 87)
  else none

/-- The number written as four hex digits. -/
def hexUnit (a b c d : ℕ) : Option ℕ :=
  match hexDigit a, hexDigit b, hexDigit c, hexDigit d with
  | some a, some b, some c, some d => some (4096 * a + 256 * b + 16 * c + d)
  | _, _, _, _ => none

/-- What an escape of one letter stands for. -/
def escapedChar (c : ℕ) : Option ℕ :=
  if c = 34 ∨ c = 92 ∨ c = 47 then some c
  else if c = 98 then some 8
  else if c = 102 then some 12
  else if c = 110 then some 10
  else if c = 114 then some 13
  else if c = 116 then some 9
  else none

/-- A part of a string: a character, or a UTF-16 unit given by its number. -/
inductive Part where
  | char (c : ℕ)
  | unit (n : ℕ)

/-- The parts of a string, from what stands between its quotation marks. -/
def scan : Str → Option (List Part)
  | [] => some []
  | 92 :: 117 :: a :: b :: c :: d :: s => (hexUnit a b c d).bind fun n => (scan s).map (.unit n :: ·)
  | 92 :: c :: s => (escapedChar c).bind fun c => (scan s).map (.char c :: ·)
  | c :: s => if c = 34 ∨ c = 92 ∨ c < 32 then none else (scan s).map (.char c :: ·)

/-- The string with these parts: a high and a low surrogate make one character. -/
def joined : List Part → Str
  | [] => []
  | .char c :: parts => c :: joined parts
  | .unit n :: .unit m :: parts =>
    if 0xD800 ≤ n ∧ n ≤ 0xDBFF ∧ 0xDC00 ≤ m ∧ m ≤ 0xDFFF then
      (0x10000 + (n - 0xD800) * 1024 + (m - 0xDC00)) :: joined parts
    else n :: joined (.unit m :: parts)
  | .unit n :: parts => n :: joined parts

/-- The string that is written between two quotation marks; `none` if it is no JSON. -/
def unescape (raw : Str) : Option Str := (scan raw).map joined

/-- A text between quotation marks, read so far as to find the second one: neither a control
character nor, but after a backslash, a quotation mark. -/
def lexical : Bool → Str → Bool
  | escaped, [] => !escaped
  | true, c :: s => 32 ≤ c && lexical false s
  | false, c :: s => if c = 92 then lexical true s else c ≠ 34 && 32 ≤ c && lexical false s

theorem hexDigit_plain {c n : ℕ} (h : hexDigit c = some n) : 48 ≤ c ∧ c ≠ 92 := by
  unfold hexDigit at h
  split_ifs at h <;> omega

theorem lexical_plain {c : ℕ} (h : 48 ≤ c ∧ c ≠ 92) (s : Str) :
    lexical false (c :: s) = lexical false s := by
  rw [lexical, if_neg h.2]
  have h34 : c ≠ 34 := by omega
  have h32 : 32 ≤ c := by omega
  simp [h34, h32]

theorem hexUnit_lexical {a b c d n : ℕ} (h : hexUnit a b c d = some n) (s : Str) :
    lexical false (a :: b :: c :: d :: s) = lexical false s := by
  unfold hexUnit at h
  rcases ha : hexDigit a with _ | x <;> rw [ha] at h
  · simp at h
  rcases hb : hexDigit b with _ | x <;> rw [hb] at h
  · simp at h
  rcases hc : hexDigit c with _ | x <;> rw [hc] at h
  · simp at h
  rcases hd : hexDigit d with _ | x <;> rw [hd] at h
  · simp at h
  rw [lexical_plain (hexDigit_plain ha), lexical_plain (hexDigit_plain hb),
    lexical_plain (hexDigit_plain hc), lexical_plain (hexDigit_plain hd)]

theorem escapedChar_plain {c x : ℕ} (h : escapedChar c = some x) : 32 ≤ c := by
  unfold escapedChar at h
  split_ifs at h <;> omega

theorem scan_lexical (raw : Str) {parts : List Part} (h : scan raw = some parts) :
    lexical false raw = true := by
  fun_induction scan raw generalizing parts with
  | case1 => rfl
  | case2 a b c d s ih =>
    obtain ⟨n, hn, hrest⟩ := Option.bind_eq_some_iff.mp h
    obtain ⟨rest, hrest, -⟩ := Option.map_eq_some_iff.mp hrest
    rw [lexical, if_pos rfl, lexical, hexUnit_lexical hn, ih hrest]
    rfl
  | case3 c s _ ih =>
    obtain ⟨x, hx, hrest⟩ := Option.bind_eq_some_iff.mp h
    obtain ⟨rest, hrest, -⟩ := Option.map_eq_some_iff.mp hrest
    rw [lexical, if_pos rfl, lexical, ih hrest]
    simpa using escapedChar_plain hx
  | case4 => exact absurd h (by simp)
  | case5 c s _ _ hc ih =>
    obtain ⟨rest, hrest, -⟩ := Option.map_eq_some_iff.mp h
    rw [not_or, not_or] at hc
    rw [lexical, if_neg hc.2.1, ih hrest]
    have h32 : 32 ≤ c := by omega
    simp [hc.1, h32]

theorem lexical_of_unescape {raw s : Str} (h : unescape raw = some s) : lexical false raw = true := by
  obtain ⟨parts, hparts, -⟩ := Option.map_eq_some_iff.mp h
  exact scan_lexical raw hparts

/-- Without a backslash a string stands for itself. -/
theorem scan_plain : ∀ {raw : Str} {parts : List Part}, scan raw = some parts → 92 ∉ raw →
    parts = raw.map .char
  | [], parts, h, _ => by
    rw [scan] at h
    rw [← Option.some.inj h]
    rfl
  | c :: raw, parts, h, hc => by
    rw [List.mem_cons, not_or] at hc
    rw [scan.eq_4 _ _ (fun _ _ _ _ _ h92 => absurd h92.symm hc.1)
      (fun _ _ h92 => absurd h92.symm hc.1)] at h
    split_ifs at h
    obtain ⟨rest, hrest, rfl⟩ := Option.map_eq_some_iff.mp h
    rw [scan_plain hrest hc.2]
    rfl

theorem joined_chars : ∀ s : Str, joined (s.map .char) = s
  | [] => rfl
  | c :: s => by rw [List.map_cons, joined, joined_chars s]

theorem unescape_plain {raw s : Str} (h : unescape raw = some s) (hc : 92 ∉ raw) : s = raw := by
  obtain ⟨parts, hparts, rfl⟩ := Option.map_eq_some_iff.mp h
  rw [scan_plain hparts hc, joined_chars]

theorem lexical_ge : ∀ {escaped : Bool} {raw : Str}, lexical escaped raw = true →
    ∀ c ∈ raw, 32 ≤ c
  | _, [], _, c, hc => absurd hc (by simp)
  | true, d :: raw, h, c, hc => by
    rw [lexical, Bool.and_eq_true] at h
    rcases List.mem_cons.mp hc with rfl | hc
    · simpa using h.1
    · exact lexical_ge h.2 c hc
  | false, d :: raw, h, c, hc => by
    rw [lexical] at h
    split_ifs at h with hd
    · rcases List.mem_cons.mp hc with rfl | hc
      · omega
      · exact lexical_ge h c hc
    · simp only [Bool.and_eq_true] at h
      rcases List.mem_cons.mp hc with rfl | hc
      · simpa using h.1.2
      · exact lexical_ge h.2 c hc

/-- **A string ends at one quotation mark only.** -/
theorem lexical_unique : ∀ {escaped : Bool} {raw raw' x y : Str}, lexical escaped raw = true →
    lexical escaped raw' = true → raw ++ 34 :: x = raw' ++ 34 :: y → raw = raw' ∧ x = y
  | _, [], [], x, y, _, _, h => ⟨rfl, by simpa using h⟩
  | true, [], c :: raw', x, y, hr, _, _ => absurd hr (by simp [lexical])
  | true, c :: raw, [], x, y, _, hr, _ => absurd hr (by simp [lexical])
  | false, [], c :: raw', x, y, _, hr, h => by
    obtain rfl : 34 = c := (List.cons.inj h).1
    exact absurd hr (by simp [lexical])
  | false, c :: raw, [], x, y, hr, _, h => by
    obtain rfl : c = 34 := (List.cons.inj h).1
    exact absurd hr (by simp [lexical])
  | true, c :: raw, d :: raw', x, y, hr, hr', h => by
    obtain ⟨rfl, hrest⟩ := List.cons.inj h
    rw [lexical, Bool.and_eq_true] at hr hr'
    obtain ⟨rfl, rfl⟩ := lexical_unique hr.2 hr'.2 hrest
    exact ⟨rfl, rfl⟩
  | false, c :: raw, d :: raw', x, y, hr, hr', h => by
    obtain ⟨rfl, hrest⟩ := List.cons.inj h
    rw [lexical] at hr hr'
    split_ifs at hr hr'
    · obtain ⟨rfl, rfl⟩ := lexical_unique hr hr' hrest
      exact ⟨rfl, rfl⟩
    · simp only [Bool.and_eq_true] at hr hr'
      obtain ⟨rfl, rfl⟩ := lexical_unique hr.2 hr'.2 hrest
      exact ⟨rfl, rfl⟩

/-- A quotation mark within a string stands after a backslash. -/
theorem lexical_quote : ∀ {escaped : Bool} {raw a b : Str}, lexical escaped raw = true →
    raw = a ++ 34 :: b → (a = [] ∧ escaped = true) ∨ ∃ a', a = a' ++ [92]
  | true, _, [], b, _, rfl => Or.inl ⟨rfl, rfl⟩
  | false, _, [], b, h, rfl => absurd h (by simp [lexical])
  | true, _, c :: a, b, h, rfl => by
    rw [List.cons_append, lexical, Bool.and_eq_true] at h
    rcases lexical_quote h.2 rfl with ⟨-, hfalse⟩ | ⟨a', rfl⟩
    · exact absurd hfalse (by simp)
    · exact Or.inr ⟨c :: a', rfl⟩
  | false, _, c :: a, b, h, rfl => by
    rw [List.cons_append, lexical] at h
    split_ifs at h with hc
    · rcases lexical_quote h rfl with ⟨rfl, -⟩ | ⟨a', rfl⟩
      · exact Or.inr ⟨[], by rw [hc]; rfl⟩
      · exact Or.inr ⟨c :: a', rfl⟩
    · simp only [Bool.and_eq_true] at h
      rcases lexical_quote h.2 rfl with ⟨-, hfalse⟩ | ⟨a', rfl⟩
      · exact absurd hfalse (by simp)
      · exact Or.inr ⟨c :: a', rfl⟩

/-! ### Lexemes -/

/-- A lexeme of a text; a gap is what is no JSON, between the values of a sequence. -/
inductive Lexeme where
  | mark (c : ℕ)
  | string (s : Str)
  | atom (v : Json)
  | gap

mutual

/-- The lexemes of a value. -/
def lexemes : Json → List Lexeme
  | .str s => [.string s]
  | .arr items => .mark 91 :: (List.intercalate [.mark 44] (lexemesItems items) ++ [.mark 93])
  | .obj fields => .mark 123 :: (List.intercalate [.mark 44] (lexemesFields fields) ++ [.mark 125])
  | v => [.atom v]

/-- The lexemes of each item of a list. -/
def lexemesItems : List Json → List (List Lexeme)
  | [] => []
  | v :: vs => lexemes v :: lexemesItems vs

/-- The lexemes of each member of an object. -/
def lexemesFields : List (Str × Json) → List (List Lexeme)
  | [] => []
  | (k, v) :: kvs => (.string k :: .mark 58 :: lexemes v) :: lexemesFields kvs

end

/-- A blank between lexemes. -/
def isWhite (c : ℕ) : Bool := c == 32 || c == 9 || c == 10 || c == 13

/-- Blanks. -/
def White (s : Str) : Prop := ∀ c ∈ s, isWhite c = true

/-- The marks: braces, brackets, comma, colon. -/
def marks : Str := [123, 125, 91, 93, 44, 58]

/-- A character of a number: a digit, a sign, a point or the letter of the exponent. -/
def isNumberChar (c : ℕ) : Bool :=
  (48 ≤ c && c ≤ 57) || c == 43 || c == 45 || c == 46 || c == 69 || c == 101

/-- The text of a number. Which number it is is left open. -/
def NumberText (s : Str) : Prop :=
  s ∈ [lit "NaN", lit "Infinity", lit "-Infinity"] ∨ (s ≠ [] ∧ ∀ c ∈ s, isNumberChar c = true)

/-- The text of a value that is neither a string nor made of others. -/
def AtomText : Json → Str → Prop
  | .null, s => s = lit "null"
  | .bool true, s => s = lit "true"
  | .bool false, s => s = lit "false"
  | .int _, s => NumberText s
  | .float _, s => NumberText s
  | _, _ => False

/-- A piece of a text: a blank, or a lexeme as it is written. -/
inductive Token where
  | blank (c : ℕ)
  | mark (c : ℕ)
  | string (raw s : Str)
  | atom (text : Str) (v : Json)
  | gap (text : Str)

/-- The text of a token. -/
def Token.text : Token → Str
  | .blank c => [c]
  | .mark c => [c]
  | .string raw _ => 34 :: (raw ++ [34])
  | .atom text _ => text
  | .gap text => text

/-- The lexeme that a token writes. -/
def Token.lexeme : Token → Option Lexeme
  | .blank _ => none
  | .mark c => some (.mark c)
  | .string _ s => some (.string s)
  | .atom _ v => some (.atom v)
  | .gap _ => some .gap

/-- The token is written as it should be. A gap begins with a control character, such as a line
break, and holds no quotation mark. -/
def Token.Ok : Token → Prop
  | .blank c => isWhite c = true
  | .mark c => c ∈ marks
  | .string raw s => unescape raw = some s
  | .atom text v => AtomText v text
  | .gap text => 34 ∉ text ∧ ∃ c rest, text = c :: rest ∧ c < 32

/-- The text of tokens. -/
def textOf (tokens : List Token) : Str := tokens.flatMap Token.text

/-- The lexemes of tokens. -/
def lexemesOf (tokens : List Token) : List Lexeme := tokens.filterMap Token.lexeme

/-- The text spells the value, every member of its objects written out. -/
def Spells (v : Json) (s : Str) : Prop :=
  ∃ tokens : List Token, (∀ t ∈ tokens, t.Ok) ∧ lexemesOf tokens = lexemes v ∧ textOf tokens = s

/-- The text is that of objects, one after another, with gaps between them or none. -/
inductive Sequence : List (List (Str × Json)) → Str → Prop
  | nil : Sequence [] []
  | cons {fields : List (Str × Json)} {objects : List (List (Str × Json))} {s gap rest : Str}
    (hobject : Spells (.obj fields) s) (hgap : gap = [] ∨ (Token.gap gap).Ok)
    (hrest : Sequence objects rest) : Sequence (fields :: objects) (s ++ (gap ++ rest))

/-! ### Members -/

section

variable (P : Str → Json → Prop)

mutual

/-- Every member of every object in the value has the property. -/
def Everywhere : Json → Prop
  | .arr items => EverywhereItems items
  | .obj fields => EverywhereFields fields
  | _ => True

/-- Every member of every object in the items has the property. -/
def EverywhereItems : List Json → Prop
  | [] => True
  | v :: vs => Everywhere v ∧ EverywhereItems vs

/-- The members, and those in their values, have the property. -/
def EverywhereFields : List (Str × Json) → Prop
  | [] => True
  | (k, v) :: kvs => P k v ∧ Everywhere v ∧ EverywhereFields kvs

end

mutual

theorem everywhere_true : ∀ v : Json, Everywhere (fun _ _ => True) v
  | .null => trivial
  | .bool _ => trivial
  | .int _ => trivial
  | .float _ => trivial
  | .str _ => trivial
  | .arr items => everywhereItems_true items
  | .obj fields => everywhereFields_true fields

theorem everywhereItems_true : ∀ vs : List Json, EverywhereItems (fun _ _ => True) vs
  | [] => trivial
  | v :: vs => ⟨everywhere_true v, everywhereItems_true vs⟩

theorem everywhereFields_true : ∀ kvs : List (Str × Json), EverywhereFields (fun _ _ => True) kvs
  | [] => trivial
  | (_, v) :: kvs => ⟨trivial, everywhere_true v, everywhereFields_true kvs⟩

end

/-- If a lexeme is a string, something that is no gap follows; and if that is a colon, they are the
key of a member with the property. -/
def Follows (l : Lexeme) (rest : List Lexeme) : Prop :=
  ∀ k, l = .string k → ∃ next more, rest = next :: more ∧ next ≠ .gap ∧
    (next = .mark 58 → ∃ v tail, more = lexemes v ++ tail ∧ P k v)

/-- Every string before a colon is the key of a member with the property. -/
def Members : List Lexeme → Prop
  | [] => True
  | l :: rest => Follows P l rest ∧ Members rest

variable {P}

theorem members_cons {l : Lexeme} {rest : List Lexeme} (hl : ∀ k, l ≠ .string k)
    (h : Members P rest) : Members P (l :: rest) := ⟨fun k hk => absurd hk (hl k), h⟩

theorem members_append : ∀ {a : List Lexeme} {l : Lexeme} {rest : List Lexeme},
    Members P (a ++ l :: rest) → Follows P l rest
  | [], _, _, h => h.1
  | _ :: a, _, _, h => members_append (show Members P (a ++ _) from h.2)

variable (P) in
/-- Before a mark that ends a value, the strings before a colon are still such keys. -/
def Closes (lexemes : List Lexeme) : Prop :=
  ∀ (c : ℕ) (rest : List Lexeme), c ≠ 58 → Members P (.mark c :: rest) →
    Members P (lexemes ++ .mark c :: rest)

theorem closes_intercalate : ∀ (xs : List (List Lexeme)), (∀ x ∈ xs, Closes P x) →
    Closes P (List.intercalate [.mark 44] xs)
  | [], _ => fun _ _ _ hrest => hrest
  | [x], h => by
    rw [List.intercalate_singleton]
    exact h x List.mem_cons_self
  | x :: y :: xs, h => by
    intro c rest hc hrest
    have htail := closes_intercalate (y :: xs) (fun z hz => h z (List.mem_cons_of_mem _ hz)) c rest
      hc hrest
    rw [List.intercalate_cons_cons, List.append_assoc, List.append_assoc]
    exact h x List.mem_cons_self 44 _ (by decide) (members_cons (by simp) htail)

mutual

theorem closes_lexemes : ∀ (v : Json), Everywhere P v → Closes P (lexemes v)
  | .null, _ => fun _ _ _ hrest => members_cons (by simp) hrest
  | .bool _, _ => fun _ _ _ hrest => members_cons (by simp) hrest
  | .int _, _ => fun _ _ _ hrest => members_cons (by simp) hrest
  | .float _, _ => fun _ _ _ hrest => members_cons (by simp) hrest
  | .str s, _ => fun c rest hc hrest =>
    ⟨fun _ _ => ⟨.mark c, rest, rfl, by simp, fun h => absurd (Lexeme.mark.inj h) hc⟩, hrest⟩
  | .arr items, h => fun c rest hc hrest => by
    rw [lexemes, List.cons_append, List.append_assoc]
    exact members_cons (by simp) (closes_intercalate _ (closes_items items h) 93 _ (by decide)
      (members_cons (by simp) hrest))
  | .obj fields, h => fun c rest hc hrest => by
    rw [lexemes, List.cons_append, List.append_assoc]
    exact members_cons (by simp) (closes_intercalate _ (closes_fields fields h) 125 _ (by decide)
      (members_cons (by simp) hrest))

theorem closes_items : ∀ (items : List Json), EverywhereItems P items →
    ∀ x ∈ lexemesItems items, Closes P x
  | [], _, _, hx => absurd hx (by simp [lexemesItems])
  | v :: vs, h, x, hx => by
    rw [lexemesItems] at hx
    rcases List.mem_cons.mp hx with rfl | hx
    · exact closes_lexemes v h.1
    · exact closes_items vs h.2 x hx

theorem closes_fields : ∀ (fields : List (Str × Json)), EverywhereFields P fields →
    ∀ x ∈ lexemesFields fields, Closes P x
  | [], _, _, hx => absurd hx (by simp [lexemesFields])
  | (k, v) :: kvs, h, x, hx => by
    rw [lexemesFields] at hx
    rcases List.mem_cons.mp hx with rfl | hx
    · intro c rest hc hrest
      refine ⟨fun k' hk => ⟨.mark 58, _, rfl, by simp, fun _ => ⟨v, _, rfl, ?_⟩⟩,
        members_cons (by simp) (closes_lexemes v h.2.1 c rest hc hrest)⟩
      obtain rfl : k = k' := Lexeme.string.inj hk
      exact h.1
    · exact closes_fields kvs h.2.2 x hx

end

/-- The lexemes of an object, whatever follows. -/
theorem members_object {fields : List (Str × Json)} (h : Everywhere P (.obj fields))
    {rest : List Lexeme} (hrest : Members P rest) :
    Members P (lexemes (.obj fields) ++ rest) := by
  rw [lexemes, List.cons_append, List.append_assoc]
  exact members_cons (by simp) (closes_intercalate _ (closes_fields fields h) 125 _ (by decide)
    (members_cons (by simp) hrest))

end

/-! ### Every key is written -/

theorem mem_intercalate_split : ∀ {xs : List (List Lexeme)} {x : List Lexeme}, x ∈ xs → ∀ o : ℕ,
    ∃ a o' b, (o' = o ∨ o' = 44) ∧
      .mark o :: List.intercalate [.mark 44] xs = a ++ .mark o' :: (x ++ b)
  | [y], x, h, o => by
    obtain rfl := List.mem_singleton.mp h
    exact ⟨[], o, [], Or.inl rfl, by rw [List.intercalate_singleton, List.append_nil]; rfl⟩
  | y :: z :: xs, x, h, o => by
    rw [List.intercalate_cons_cons]
    rcases List.mem_cons.mp h with rfl | h
    · exact ⟨[], o, [.mark 44] ++ List.intercalate [.mark 44] (z :: xs), Or.inl rfl, by
        rw [List.append_assoc]; rfl⟩
    · obtain ⟨a, o', b, ho, hab⟩ := mem_intercalate_split h 44
      refine ⟨.mark o :: (y ++ a), o', b, Or.inr (ho.elim id id), ?_⟩
      rw [List.cons_append, List.append_assoc, List.append_assoc, ← hab]
      rfl

theorem mem_lexemesFields {k : Str} {v : Json} : ∀ {fields : List (Str × Json)},
    (k, v) ∈ fields → (.string k :: .mark 58 :: lexemes v) ∈ lexemesFields fields
  | (k', v') :: fields, h => by
    rw [lexemesFields]
    rcases List.mem_cons.mp h with h | h
    · obtain ⟨rfl, rfl⟩ := Prod.mk.inj h
      exact List.mem_cons_self
    · exact List.mem_cons_of_mem _ (mem_lexemesFields h)

/-- A member stands in its object's lexemes, after a brace or a comma. -/
theorem member_lexemes {k : Str} {v : Json} {fields : List (Str × Json)} (h : (k, v) ∈ fields) :
    ∃ a o b, (o = 123 ∨ o = 44) ∧ lexemes (.obj fields) =
      a ++ .mark o :: .string k :: .mark 58 :: (lexemes v ++ b) := by
  obtain ⟨a, o, b, ho, hab⟩ := mem_intercalate_split (mem_lexemesFields h) 123
  refine ⟨a, o, b ++ [.mark 125], ho, ?_⟩
  rw [lexemes, ← List.cons_append, hab]
  simp only [List.append_assoc, List.cons_append]

theorem textOf_cons (t : Token) (tokens : List Token) :
    textOf (t :: tokens) = t.text ++ textOf tokens := List.flatMap_cons

theorem textOf_append (tokens tokens' : List Token) :
    textOf (tokens ++ tokens') = textOf tokens ++ textOf tokens' := List.flatMap_append

theorem white_textOf : ∀ {tokens : List Token}, (∀ t ∈ tokens, t.Ok) →
    (∀ t ∈ tokens, t.lexeme = none) → White (textOf tokens)
  | [], _, _ => fun c hc => absurd hc (by simp [textOf])
  | t :: tokens, hok, hnone => by
    rw [List.forall_mem_cons] at hok hnone
    rw [textOf_cons]
    intro c hc
    rcases List.mem_append.mp hc with hc | hc
    · rcases t with b | b | ⟨raw, s⟩ | ⟨text, v⟩ | text
      · obtain rfl := List.mem_singleton.mp hc
        exact hok.1
      all_goals exact absurd hnone.1 (by simp [Token.lexeme])
    · exact white_textOf hok.2 hnone.2 c hc

/-- The token that writes the first lexeme. -/
theorem first_token {tokens : List Token} {l : Lexeme} {more : List Lexeme}
    (hok : ∀ t ∈ tokens, t.Ok) (h : lexemesOf tokens = l :: more) :
    ∃ (w : Str) (t : Token) (rest : List Token), White w ∧
      textOf tokens = w ++ (t.text ++ textOf rest) ∧ t.Ok ∧ t.lexeme = some l ∧
      (∀ t ∈ rest, t.Ok) ∧ lexemesOf rest = more := by
  obtain ⟨blanks, t, rest, rfl, hblanks, ht, hrest⟩ := List.filterMap_eq_cons_iff.mp h
  rw [List.forall_mem_append, List.forall_mem_cons] at hok
  exact ⟨_, t, rest, white_textOf hok.1 hblanks, by rw [textOf_append, textOf_cons], hok.2.1, ht,
    hok.2.2, hrest⟩

theorem text_of_mark {t : Token} {c : ℕ} (h : t.lexeme = some (.mark c)) : t.text = [c] := by
  rcases t with b | b | ⟨raw, s⟩ | ⟨text, v⟩ | text <;> simp [Token.lexeme] at h
  rw [← h]
  rfl

theorem text_of_string {t : Token} {s : Str} (hok : t.Ok) (h : t.lexeme = some (.string s)) :
    ∃ raw, unescape raw = some s ∧ t.text = 34 :: (raw ++ [34]) := by
  rcases t with b | b | ⟨raw, s'⟩ | ⟨text, v⟩ | text <;> simp [Token.lexeme] at h
  subst h
  exact ⟨raw, hok, rfl⟩

/-- A string with the value `s` stands at the start of a text, after blanks. -/
def StringAt (s : Str) (text : Str) : Prop :=
  ∃ w raw rest, text = w ++ 34 :: (raw ++ 34 :: rest) ∧ White w ∧ unescape raw = some s

/-- **A key stands in the text** between quotation marks, after a brace or a comma and before a
colon. -/
theorem key_in_text {tokens : List Token} {a more : List Lexeme} {o : ℕ} {k : Str}
    (hok : ∀ t ∈ tokens, t.Ok)
    (h : lexemesOf tokens = a ++ .mark o :: .string k :: .mark 58 :: more) :
    ∃ p w raw w' q, textOf tokens = p ++ o :: (w ++ 34 :: (raw ++ 34 :: (w' ++ 58 :: q))) ∧
      White w ∧ White w' ∧ unescape raw = some k ∧
      ∀ s more', more = .string s :: more' → StringAt s q := by
  obtain ⟨before, after, rfl, -, hafter⟩ := List.filterMap_eq_append_iff.mp h
  rw [List.forall_mem_append] at hok
  obtain ⟨w0, t0, rest0, -, htext0, -, ht0, hok0, hrest0⟩ := first_token hok.2 hafter
  obtain ⟨w, t, rest, hw, htext, htok, ht, hok1, hrest⟩ := first_token hok0 hrest0
  obtain ⟨w', t', rest', hw', htext', -, ht', hok2, hrest'⟩ := first_token hok1 hrest
  obtain ⟨raw, hraw, hstring⟩ := text_of_string htok ht
  refine ⟨textOf before ++ w0, w, raw, w', textOf rest', ?_, hw, hw', hraw, ?_⟩
  · rw [textOf_append, htext0, text_of_mark ht0, htext, hstring, htext', text_of_mark ht']
    simp only [List.append_assoc, List.cons_append, List.nil_append]
  · rintro s more' rfl
    obtain ⟨v, u, rest'', hv, hvtext, huok, hu, -, -⟩ := first_token hok2 hrest'
    obtain ⟨raw', hraw', hvalue⟩ := text_of_string huok hu
    refine ⟨v, raw', textOf rest'', ?_, hv, hraw'⟩
    rw [hvtext, hvalue]
    simp only [List.append_assoc, List.cons_append, List.nil_append]

/-! ### What is written before a colon is a key -/

/-- Characters of lexemes other than strings: of marks, numbers and names. -/
def plainChars : Str :=
  marks ++ lit "0123456789+-.eE" ++ lit "null" ++ lit "true" ++ lit "false" ++ lit "NaN" ++
    lit "Infinity"

/-- The character is one of those, or a blank. -/
def isPlain (c : ℕ) : Bool := isWhite c || decide (c ∈ plainChars)

theorem isPlain_spec {c : ℕ} (h : isPlain c = true) : c ≠ 34 ∧ c ≠ 92 := by
  have hall : ∀ d ∈ [32, 9, 10, 13] ++ plainChars, d ≠ 34 ∧ d ≠ 92 := by decide
  refine hall c (List.mem_append.mpr ?_)
  unfold isPlain isWhite at h
  simp only [Bool.or_eq_true, beq_iff_eq, decide_eq_true_eq] at h
  rcases h with h | h
  · left
    rcases h with ((rfl | rfl) | rfl) | rfl <;> decide
  · exact Or.inr h

theorem isPlain_number {c : ℕ} (h : isNumberChar c = true) : isPlain c = true := by
  unfold isNumberChar at h
  simp only [Bool.or_eq_true, Bool.and_eq_true, decide_eq_true_eq, beq_iff_eq] at h
  have hlt : c < 102 := by omega
  have hall : ∀ d < 102, ((48 ≤ d ∧ d ≤ 57) ∨ d = 43 ∨ d = 45 ∨ d = 46 ∨ d = 69 ∨ d = 101) →
      isPlain d = true := by decide
  exact hall c hlt (by omega)

theorem isPlain_numberText {s : Str} (h : NumberText s) : ∀ c ∈ s, isPlain c = true := by
  rcases h with h | h
  · have hall : ∀ t ∈ [lit "NaN", lit "Infinity", lit "-Infinity"], ∀ c ∈ t, isPlain c = true := by
      decide
    exact hall s h
  · exact fun c hc => isPlain_number (h.2 c hc)

theorem isPlain_atom : ∀ {v : Json} {s : Str}, AtomText v s → ∀ c ∈ s, isPlain c = true
  | .null, _, rfl => by decide
  | .bool true, _, rfl => by decide
  | .bool false, _, rfl => by decide
  | .int _, _, h => isPlain_numberText h
  | .float _, _, h => isPlain_numberText h

theorem isPlain_mark {c : ℕ} (h : c ∈ marks) : isPlain c = true := by
  have hall : ∀ d ∈ marks, isPlain d = true := by decide
  exact hall c h

theorem isPlain_white {c : ℕ} (h : isWhite c = true) : isPlain c = true := by
  rw [isPlain, h, Bool.true_or]

/-- A string that begins in plain characters has them for its own. -/
theorem lexical_plain_prefix : ∀ {u raw x q : Str}, (∀ c ∈ u, isPlain c = true) →
    u ++ x = raw ++ 34 :: q → lexical false raw = true →
    ∃ raw', raw = u ++ raw' ∧ lexical false raw' = true ∧ x = raw' ++ 34 :: q
  | [], raw, x, q, _, h, hraw => ⟨raw, rfl, hraw, h⟩
  | c :: u, [], x, q, hu, h, _ => by
    obtain rfl : c = 34 := (List.cons.inj h).1
    exact absurd (isPlain_spec (hu 34 List.mem_cons_self)).1 (by simp)
  | c :: u, d :: raw, x, q, hu, h, hraw => by
    obtain ⟨rfl, htail⟩ := List.cons.inj h
    have hplain := isPlain_spec (hu c List.mem_cons_self)
    rw [lexical, if_neg hplain.2, Bool.and_eq_true] at hraw
    obtain ⟨raw', rfl, hraw', hx⟩ := lexical_plain_prefix
      (fun e he => hu e (List.mem_cons_of_mem _ he)) htail hraw.2
    exact ⟨raw', rfl, hraw', hx⟩

/-- What begins where a string ends, and is taken for a string, holds plain characters only. -/
theorem plain_after : ∀ {tokens : List Token} {raw q : Str}, (∀ t ∈ tokens, t.Ok) →
    textOf tokens = raw ++ 34 :: q → lexical false raw = true → ∀ c ∈ raw, isPlain c = true
  | [], raw, q, _, h, _ => by
    have hlen := congrArg List.length h
    simp [textOf] at hlen
  | t :: tokens, raw, q, hok, h, hraw => by
    rw [List.forall_mem_cons] at hok
    rw [textOf_cons] at h
    have hplain : (∀ c ∈ t.text, isPlain c = true) → ∀ c ∈ raw, isPlain c = true := by
      intro htext
      obtain ⟨raw', rfl, hraw', hrest⟩ := lexical_plain_prefix htext h hraw
      intro c hc
      rcases List.mem_append.mp hc with hc | hc
      · exact htext c hc
      · exact plain_after hok.2 hrest hraw' c hc
    rcases t with b | b | ⟨raw', s⟩ | ⟨text, v⟩ | text
    · exact hplain fun c hc => by
        obtain rfl := List.mem_singleton.mp hc
        exact isPlain_white hok.1
    · exact hplain fun c hc => by
        obtain rfl := List.mem_singleton.mp hc
        exact isPlain_mark hok.1
    · rcases raw with _ | ⟨d, raw⟩
      · exact fun c hc => absurd hc (by simp)
      · obtain rfl : 34 = d := (List.cons.inj h).1
        exact absurd hraw (by simp [lexical])
    · exact hplain (isPlain_atom hok.1)
    · obtain ⟨h34, d, rest, rfl, hd⟩ := hok.1
      rcases raw with _ | ⟨e, raw⟩
      · exact fun c hc => absurd hc (by simp)
      · obtain rfl : d = e := (List.cons.inj h).1
        have := lexical_ge hraw d List.mem_cons_self
        omega

/-- Where a quotation mark stands in a text: it is escaped, or begins or ends a string. -/
theorem quote_cases : ∀ {tokens : List Token} {p q : Str}, (∀ t ∈ tokens, t.Ok) →
    textOf tokens = p ++ 34 :: q → (∃ p', p = p' ++ [92]) ∨
      ∃ before raw s after, tokens = before ++ .string raw s :: after ∧
        (q = raw ++ 34 :: textOf after ∨ q = textOf after)
  | [], p, q, _, h => by
    have hlen := congrArg List.length h
    simp [textOf] at hlen
  | t :: tokens, p, q, hok, h => by
    rw [List.forall_mem_cons] at hok
    rw [textOf_cons] at h
    have hlater : ∀ {c p'}, p = c ++ p' → textOf tokens = p' ++ 34 :: q →
        (∃ p', p = p' ++ [92]) ∨ ∃ before raw s after, t :: tokens =
          before ++ .string raw s :: after ∧ (q = raw ++ 34 :: textOf after ∨ q = textOf after) := by
      rintro c p' rfl hrest
      rcases quote_cases hok.2 hrest with ⟨p', rfl⟩ | ⟨before, raw, s, after, rfl, hq⟩
      · exact Or.inl ⟨c ++ p', (List.append_assoc _ _ _).symm⟩
      · exact Or.inr ⟨t :: before, raw, s, after, rfl, hq⟩
    rcases List.append_eq_append_iff.mp h with ⟨p', rfl, hrest⟩ | ⟨u, hu, hrest⟩
    · exact hlater rfl hrest
    · rcases u with _ | ⟨d, u⟩
      · exact hlater (List.append_nil p).symm hrest.symm
      · -- the mark stands within the token `t`
        obtain ⟨rfl, hq⟩ := List.cons.inj hrest
        have hmem : 34 ∈ t.text := by rw [hu]; simp
        have hnot : ∀ {text : Str}, (∀ c ∈ text, isPlain c = true) → 34 ∉ text :=
          fun hplain h34 => (isPlain_spec (hplain 34 h34)).1 rfl
        rcases t with b | b | ⟨raw, s⟩ | ⟨text, v⟩ | text
        · obtain rfl := List.mem_singleton.mp hmem
          exact absurd (show isWhite 34 = true from hok.1) (by decide)
        · obtain rfl := List.mem_singleton.mp hmem
          exact absurd (show 34 ∈ marks from hok.1) (by decide)
        · rcases p with _ | ⟨e, p⟩
          · refine Or.inr ⟨[], raw, s, tokens, rfl, Or.inl ?_⟩
            have hraw : raw ++ [34] = u := (List.cons.inj hu).2
            rw [hq, ← hraw]
            exact List.append_assoc _ _ _
          · have hraw : raw ++ [34] = p ++ 34 :: u := (List.cons.inj hu).2
            rcases List.eq_nil_or_concat' u with rfl | ⟨u', f, rfl⟩
            · exact Or.inr ⟨[], raw, s, tokens, rfl, Or.inr hq⟩
            · have hin : raw = p ++ 34 :: u' := by
                rw [← List.cons_append, ← List.append_assoc] at hraw
                exact (List.append_inj' hraw rfl).1
              rcases lexical_quote (lexical_of_unescape hok.1) hin with ⟨-, hfalse⟩ | ⟨p', rfl⟩
              · exact absurd hfalse (by simp)
              · exact Or.inl ⟨e :: p', rfl⟩
        · exact absurd hmem (hnot (isPlain_atom hok.1))
        · exact absurd hmem hok.1.1

/-- Blanks end at one character only. -/
theorem white_unique : ∀ {u w x y : Str} {c d : ℕ}, White u → White w → isWhite c = false →
    isWhite d = false → u ++ c :: x = w ++ d :: y → u = w ∧ c = d ∧ x = y
  | [], [], _, _, _, _, _, _, _, _, h => ⟨rfl, List.cons.inj h⟩
  | [], e :: w, _, _, c, _, _, hw, hc, _, h => by
    obtain rfl : c = e := (List.cons.inj h).1
    exact absurd (hw c List.mem_cons_self) (by simp [hc])
  | e :: u, [], _, _, _, d, hu, _, _, hd, h => by
    obtain rfl : e = d := (List.cons.inj h).1
    exact absurd (hu e List.mem_cons_self) (by simp [hd])
  | e :: u, f :: w, _, _, _, _, hu, hw, hc, hd, h => by
    obtain ⟨rfl, htail⟩ := List.cons.inj h
    obtain ⟨rfl, hcd⟩ := white_unique (fun x hx => hu x (List.mem_cons_of_mem _ hx))
      (fun x hx => hw x (List.mem_cons_of_mem _ hx)) hc hd htail
    exact ⟨rfl, hcd⟩

/-- The first character of a token that is no gap tells its kind. -/
theorem token_head {t : Token} {l : Lexeme} (hok : t.Ok) (ht : t.lexeme = some l) (hgap : l ≠ .gap) :
    ∃ c rest, t.text = c :: rest ∧ isWhite c = false ∧ (c = 58 → l = .mark 58 ∧ rest = []) ∧
      (c = 34 → ∃ raw s, l = .string s ∧ unescape raw = some s ∧ rest = raw ++ [34]) := by
  have hnames : ∀ s ∈ [lit "null", lit "true", lit "false", lit "NaN", lit "Infinity",
      lit "-Infinity"], ∃ c rest, s = c :: rest ∧ isWhite c = false ∧ c ≠ 58 ∧ c ≠ 34 := by
    intro s hs
    have hall : ∀ s ∈ [lit "null", lit "true", lit "false", lit "NaN", lit "Infinity",
      lit "-Infinity"], s ≠ [] ∧ isWhite (s.headD 0) = false ∧ s.headD 0 ≠ 58 ∧ s.headD 0 ≠ 34 := by
      decide
    have h := hall s hs
    rcases s with _ | ⟨c, rest⟩
    · exact absurd rfl h.1
    · exact ⟨c, rest, rfl, h.2⟩
  have hnumber : ∀ {s : Str}, NumberText s →
      ∃ c rest, s = c :: rest ∧ isWhite c = false ∧ c ≠ 58 ∧ c ≠ 34 := by
    rintro s (h | ⟨hne, h⟩)
    · exact hnames s (by
        simp only [List.mem_cons, List.not_mem_nil, or_false] at h ⊢
        tauto)
    · obtain ⟨c, rest, rfl⟩ := List.exists_cons_of_ne_nil hne
      have hc := h c List.mem_cons_self
      unfold isNumberChar at hc
      simp only [Bool.or_eq_true, Bool.and_eq_true, decide_eq_true_eq, beq_iff_eq] at hc
      refine ⟨c, rest, rfl, ?_, by omega, by omega⟩
      unfold isWhite
      simp only [Bool.or_eq_false_iff, beq_eq_false_iff_ne]
      omega
  rcases t with b | b | ⟨raw, s⟩ | ⟨text, v⟩ | text
  · exact absurd ht (by simp [Token.lexeme])
  · have hmarks : ∀ c ∈ marks, isWhite c = false ∧ c ≠ 34 := by decide
    obtain rfl := Option.some.inj ht
    refine ⟨b, [], rfl, (hmarks b hok).1, fun h => ⟨by rw [h], rfl⟩, fun h => ?_⟩
    exact absurd h (hmarks b hok).2
  · obtain rfl := Option.some.inj ht
    exact ⟨34, raw ++ [34], rfl, by decide, fun h => absurd h (by decide),
      fun _ => ⟨raw, s, rfl, hok, rfl⟩⟩
  · obtain ⟨c, rest, hc, hwhite, h58, h34⟩ : ∃ c rest, text = c :: rest ∧ isWhite c = false ∧
        c ≠ 58 ∧ c ≠ 34 := by
      rcases v with _ | b | n | x | s | items | fields
      · exact hnames text (by rw [show text = lit "null" from hok]; decide)
      · rcases b with _ | _
        · exact hnames text (by rw [show text = lit "false" from hok]; decide)
        · exact hnames text (by rw [show text = lit "true" from hok]; decide)
      · exact hnumber hok
      · exact hnumber hok
      · exact hok.elim
      · exact hok.elim
      · exact hok.elim
    exact ⟨c, rest, hc, hwhite, fun h => absurd h h58, fun h => absurd h h34⟩
  · exact absurd (Option.some.inj ht).symm hgap

theorem lexemes_head : ∀ v : Json,
    ∃ l rest, lexemes v = l :: rest ∧ l ≠ .gap ∧ ∀ s, l = .string s → v = .str s
  | .null => ⟨_, _, rfl, by simp, fun s h => absurd h (by simp)⟩
  | .bool _ => ⟨_, _, rfl, by simp, fun s h => absurd h (by simp)⟩
  | .int _ => ⟨_, _, rfl, by simp, fun s h => absurd h (by simp)⟩
  | .float _ => ⟨_, _, rfl, by simp, fun s h => absurd h (by simp)⟩
  | .str _ => ⟨_, _, rfl, by simp, fun s h => by rw [Lexeme.string.inj h]⟩
  | .arr _ => ⟨_, _, rfl, by simp, fun s h => absurd h (by simp)⟩
  | .obj _ => ⟨_, _, rfl, by simp, fun s h => absurd h (by simp)⟩

/-- The first lexeme of a text, by the first character that is no blank. -/
theorem first_of_text {tokens : List Token} {l : Lexeme} {more : List Lexeme} {w q : Str} {c : ℕ}
    (hok : ∀ t ∈ tokens, t.Ok) (h : lexemesOf tokens = l :: more) (hgap : l ≠ .gap)
    (htext : textOf tokens = w ++ c :: q) (hw : White w) (hc : isWhite c = false) :
    ∃ rest, (∀ t ∈ rest, t.Ok) ∧ lexemesOf rest = more ∧
      (c = 58 → l = .mark 58 ∧ q = textOf rest) ∧
      (c = 34 → ∃ raw s, l = .string s ∧ unescape raw = some s ∧ q = raw ++ 34 :: textOf rest) := by
  obtain ⟨u, t, rest, hu, hfirst, htok, ht, hrest, hmore⟩ := first_token hok h
  obtain ⟨d, tail, hhead, hd, h58, h34⟩ := token_head htok ht hgap
  rw [htext, hhead, List.cons_append] at hfirst
  obtain ⟨-, rfl, hq⟩ := white_unique hw hu hc hd hfirst
  refine ⟨rest, hrest, hmore, fun hcolon => ?_, fun hquote => ?_⟩
  · obtain ⟨hl, rfl⟩ := h58 hcolon
    exact ⟨hl, hq⟩
  · obtain ⟨raw, s, hl, hraw, rfl⟩ := h34 hquote
    exact ⟨raw, s, hl, hraw, by rw [hq, List.append_assoc]; rfl⟩

/-- **A string before a colon is a key.** The quotation mark that begins it is not an escaped one,
and its characters are not all plain. -/
theorem member_of_text {P : Str → Json → Prop} {tokens : List Token} {p raw w q : Str} {k : Str}
    (hok : ∀ t ∈ tokens, t.Ok) (hmembers : Members P (lexemesOf tokens))
    (htext : textOf tokens = p ++ 34 :: (raw ++ 34 :: (w ++ 58 :: q))) (hraw : unescape raw = some k)
    (hw : White w) (hp : ∀ p', p ≠ p' ++ [92]) :
    (∀ c ∈ k, isPlain c = true) ∨ ∃ v, P k v ∧ ∀ s, StringAt s q → v = .str s := by
  have hlexical := lexical_of_unescape hraw
  rcases quote_cases hok htext with ⟨p', rfl⟩ | ⟨before, raw', k', after, rfl, hq | hq⟩
  · exact absurd rfl (hp p')
  · -- the mark begins the string
    right
    rw [List.forall_mem_append, List.forall_mem_cons] at hok
    have hraw' : unescape raw' = some k' := hok.2.1
    obtain ⟨rfl, hafter⟩ := lexical_unique hlexical (lexical_of_unescape hraw') hq
    obtain rfl : k = k' := Option.some.inj (hraw.symm.trans hraw')
    have hfollows : Follows P (.string k) (lexemesOf after) := by
      refine @members_append P (lexemesOf before) _ _ ?_
      rw [lexemesOf, List.filterMap_append] at hmembers
      exact hmembers
    obtain ⟨next, more, hnext, hgap, hmember⟩ := hfollows k rfl
    obtain ⟨rest, hrest, hmore, hcolon, -⟩ :=
      first_of_text hok.2.2 hnext hgap hafter.symm hw (by decide)
    obtain ⟨rfl, rfl⟩ := hcolon rfl
    obtain ⟨v, tail, hv, hP⟩ := hmember rfl
    refine ⟨v, hP, ?_⟩
    rintro s ⟨w', rawv, q', hq', hw', hrawv⟩
    obtain ⟨l, ls, hl, hlgap, hlstring⟩ := lexemes_head v
    rw [hv, hl, List.cons_append] at hmore
    obtain ⟨_, -, -, -, hquote⟩ := first_of_text hrest hmore hlgap hq' hw' (by decide)
    obtain ⟨raws, s', hs', hraws, hstring⟩ := hquote rfl
    obtain ⟨rfl, -⟩ := lexical_unique (lexical_of_unescape hrawv) (lexical_of_unescape hraws) hstring
    obtain rfl : s = s' := Option.some.inj (hrawv.symm.trans hraws)
    exact hlstring s hs'
  · -- the mark ends the string
    left
    rw [List.forall_mem_append, List.forall_mem_cons] at hok
    have hplain := plain_after hok.2.2 hq.symm hlexical
    have hk : k = raw := unescape_plain hraw fun h92 => (isPlain_spec (hplain 92 h92)).2 rfl
    rw [hk]
    exact hplain

/-- The text of objects one after another, as tokens. It begins with a brace. -/
theorem sequence_tokens {P : Str → Json → Prop} {objects : List (List (Str × Json))} {s : Str}
    (h : Sequence objects s) (hall : ∀ fields ∈ objects, Everywhere P (.obj fields)) :
    ∃ tokens : List Token, (∀ t ∈ tokens, t.Ok) ∧ textOf tokens = s ∧
      Members P (lexemesOf tokens) ∧
      ∀ w c q, s = w ++ c :: q → White w → isWhite c = false → c = 123 := by
  induction h with
  | nil => exact ⟨[], by simp, rfl, trivial, fun w c q h => absurd h (by simp)⟩
  | @cons fields objects s gap rest hobject hgap _ ih =>
    rw [List.forall_mem_cons] at hall
    obtain ⟨ts, hts, hlexemes, rfl⟩ := hobject
    obtain ⟨tokens, htokens, rfl, hmembers, -⟩ := ih hall.2
    have hopen : ∀ {tail : Str} w c q, textOf ts ++ tail = w ++ c :: q → White w →
        isWhite c = false → c = 123 := by
      intro tail w c q hq hw hc
      rw [lexemes] at hlexemes
      obtain ⟨u, t, more, hu, htext, -, ht, -, -⟩ := first_token hts hlexemes
      rw [htext, text_of_mark ht, List.append_assoc] at hq
      exact ((white_unique hu hw (by decide) hc hq).2.1).symm
    rcases hgap with rfl | hgap
    · refine ⟨ts ++ tokens, List.forall_mem_append.mpr ⟨hts, htokens⟩, textOf_append _ _, ?_, hopen⟩
      rw [lexemesOf, List.filterMap_append]
      rw [show ts.filterMap Token.lexeme = lexemes (.obj fields) from hlexemes]
      exact members_object hall.1 hmembers
    · refine ⟨ts ++ .gap gap :: tokens, List.forall_mem_append.mpr
        ⟨hts, List.forall_mem_cons.mpr ⟨hgap, htokens⟩⟩, by rw [textOf_append, textOf_cons]; rfl, ?_,
        hopen⟩
      rw [lexemesOf, List.filterMap_append]
      rw [show ts.filterMap Token.lexeme = lexemes (.obj fields) from hlexemes]
      exact members_object hall.1 (members_cons (by simp) hmembers)

/-! ### What a decoder makes of a text -/

/-- The dict with these items; of two with one key the later counts. -/
def dictOf (items : List (Str × Json)) : Dict := items.foldl (fun d kv => set d kv.1 kv.2) []

mutual

/-- The value that `json.loads` makes of what is written. -/
def collapse : Json → Json
  | .arr items => .arr (collapseItems items)
  | .obj fields => .obj (dictOf (collapseFields fields))
  | v => v

/-- The items of a list, each collapsed. -/
def collapseItems : List Json → List Json
  | [] => []
  | v :: vs => collapse v :: collapseItems vs

/-- The members of an object, each collapsed. -/
def collapseFields : List (Str × Json) → List (Str × Json)
  | [] => []
  | (k, v) :: kvs => (k, collapse v) :: collapseFields kvs

end

theorem get_foldl_set {k : Str} {v : Json} (hv : v ≠ .null) : ∀ (items : List (Str × Json)) (d : Dict),
    get (items.foldl (fun d kv => set d kv.1 kv.2) d) k = v → (k, v) ∈ items ∨ get d k = v
  | [], _, h => Or.inr h
  | (k', v') :: items, d, h => by
    rcases get_foldl_set hv items (set d k' v') h with hmem | hget
    · exact Or.inl (List.mem_cons_of_mem _ hmem)
    · by_cases hk : k = k'
      · rw [hk, get_set_self] at hget
        rw [hk, hget]
        exact Or.inl List.mem_cons_self
      · rw [get_set_ne d hk] at hget
        exact Or.inr hget

theorem mem_collapseFields {k : Str} {v : Json} : ∀ {fields : List (Str × Json)},
    (k, v) ∈ collapseFields fields → ∃ v', (k, v') ∈ fields ∧ v = collapse v'
  | [], h => absurd h (by simp [collapseFields])
  | (k', v') :: fields, h => by
    rw [collapseFields] at h
    rcases List.mem_cons.mp h with h | h
    · obtain ⟨rfl, rfl⟩ := Prod.mk.inj h
      exact ⟨v', List.mem_cons_self, rfl⟩
    · obtain ⟨w, hw, rfl⟩ := mem_collapseFields h
      exact ⟨w, List.mem_cons_of_mem _ hw, rfl⟩

/-- What a decoded object says under a key is written in the text. -/
theorem written_of_get {fields : List (Str × Json)} {k : Str} {v : Json}
    (h : get (dictOf (collapseFields fields)) k = v) (hv : v ≠ .null) :
    ∃ v', (k, v') ∈ fields ∧ v = collapse v' := by
  rcases get_foldl_set hv _ [] h with hmem | hget
  · exact mem_collapseFields hmem
  · exact absurd hget.symm hv

theorem collapse_obj : ∀ {v : Json} {d : Dict}, collapse v = .obj d →
    ∃ fields, v = .obj fields ∧ d = dictOf (collapseFields fields)
  | .obj fields, _, h => ⟨fields, rfl, by rw [collapse] at h; exact (Json.obj.inj h).symm⟩
  | .null, _, h => absurd h (by simp [collapse])
  | .bool _, _, h => absurd h (by simp [collapse])
  | .int _, _, h => absurd h (by simp [collapse])
  | .float _, _, h => absurd h (by simp [collapse])
  | .str _, _, h => absurd h (by simp [collapse])
  | .arr _, _, h => absurd h (by simp [collapse])

theorem collapse_str : ∀ {v : Json} {s : Str}, collapse v = .str s → v = .str s
  | .str _, _, h => by simpa [collapse] using h
  | .null, _, h => absurd h (by simp [collapse])
  | .bool _, _, h => absurd h (by simp [collapse])
  | .int _, _, h => absurd h (by simp [collapse])
  | .float _, _, h => absurd h (by simp [collapse])
  | .arr _, _, h => absurd h (by simp [collapse])
  | .obj _, _, h => absurd h (by simp [collapse])

end Cloudx.Python.JsonText

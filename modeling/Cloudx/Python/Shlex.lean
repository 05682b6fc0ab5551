import Cloudx.Lib.Shell

/-! # `shlex`

`shlex.quote`, `shlex.join` and `shlex.split`. Whatever the words are, what `join` makes of them is read
back as these words, by `split` and by every shell (`split_join`, `read_join`), and a quoted text is a
part of one word wherever it stands (`read_quote`). -/

namespace Cloudx.Python.Shlex

open Cloudx.Python.Text Cloudx.Lib.Shell

/-! ### Quoting -/

/-- `s.replace("'", "'\"'\"'")` -/
def escapeQuotes (s : Str) : Str := replace (lit "'") (lit "'\"'\"'") s

/-- `shlex.quote` -/
def quote (s : Str) : Str :=
  if s = [] then lit "''"
  else if s.all plainChar then s
  else 39 :: (escapeQuotes s ++ [39])

/-- `shlex.join` -/
def join (words : List Str) : Str := [32].intercalate (words.map quote)

/-! ### Splitting -/

/-- The states of the lexer. -/
inductive State where
  | plain
  | single
  | double
  | escaped (quoted : Bool)
deriving DecidableEq

/-- The words of a text, of which `word` is what has been read of the first; `none` for the `ValueError`
of a text that ends within quotes or after a backslash. -/
def splitFrom : State → Option Str → Str → Option (List Str)
  | .plain, word, [] => some word.toList
  | _, _, [] => none
  | .plain, word, c :: s =>
    if c ∈ lit " \t\r\n" then (splitFrom .plain none s).map (word.toList ++ ·)
    else if c = 92 then splitFrom (.escaped false) word s
    else if c = 39 then splitFrom .single (some (word.getD [])) s
    else if c = 34 then splitFrom .double (some (word.getD [])) s
    else splitFrom .plain (some (word.getD [] ++ [c])) s
  | .single, word, c :: s =>
    if c = 39 then splitFrom .plain word s else splitFrom .single (some (word.getD [] ++ [c])) s
  | .double, word, c :: s =>
    if c = 34 then splitFrom .plain word s
    else if c = 92 then splitFrom (.escaped true) word s
    else splitFrom .double (some (word.getD [] ++ [c])) s
  | .escaped false, word, c :: s => splitFrom .plain (some (word.getD [] ++ [c])) s
  | .escaped true, word, c :: s =>
    splitFrom .double (some (word.getD [] ++ if c = 92 ∨ c = 34 then [c] else [92, c])) s

/-- `shlex.split` -/
def split (s : Str) : Option (List Str) := splitFrom .plain none s

/-! ### A quoted text is a part of a word -/

theorem all_plain {s : Str} (h : s.all plainChar) : ∀ c ∈ s, plainChar c := List.all_eq_true.mp h

/-- Replacing one character by a text. -/
theorem replace_char (a : ℕ) (new : Str) : ∀ s : Str,
    replace [a] new s = s.flatMap fun c => if c = a then new else [c]
  | [] => rfl
  | c :: s => by
    have hrest := replace_char a new s
    rw [replace] at hrest ⊢
    have hstart : startsWith (c :: s) [a] = decide (c = a) := by simp [startsWith, eq_comm]
    rw [replaceFrom, hstart, List.flatMap_cons]
    simp only [decide_eq_true_eq, List.length_singleton, Nat.sub_self, hrest]
    split_ifs <;> rfl

theorem escapeQuotes_cons (c : ℕ) (s : Str) : escapeQuotes (c :: s) =
    (if c = 39 then lit "'\"'\"'" else [c]) ++ escapeQuotes s := by
  rw [escapeQuotes, escapeQuotes, show lit "'" = [39] from rfl, replace_char, replace_char,
    List.flatMap_cons]

theorem read_escaped (command : List Str) (s : Str) : ∀ (v word : Str),
    readFrom .single (some word) command (escapeQuotes v ++ 39 :: s) =
      readFrom .none (some (word ++ v)) command s
  | [], word => by
    rw [show escapeQuotes [] = [] from rfl, List.nil_append, readFrom_close, List.append_nil]
  | c :: v, word => by
    rw [escapeQuotes_cons, List.append_assoc]
    split_ifs with hc
    · have hquote : lit "'\"'\"'" ++ (escapeQuotes v ++ 39 :: s) =
          39 :: 34 :: 39 :: 34 :: 39 :: (escapeQuotes v ++ 39 :: s) := rfl
      rw [hquote, readFrom_close, readFrom_double, readFrom_open, Option.getD_some, Option.getD_some,
        read_escaped command s v, hc]
      simp
    · rw [List.singleton_append, readFrom_single hc, read_escaped command s v]
      simp

/-- **A quoted text is read as it was**, as a part of the word that it stands in. -/
theorem read_quote (v : Str) (word : Option Str) (command : List Str) (s : Str) :
    readFrom .none word command (quote v ++ s) =
      readFrom .none (some (word.getD [] ++ v)) command s := by
  unfold quote
  split_ifs with hnil hall
  · subst hnil
    have hquotes : lit "''" ++ s = 39 :: 39 :: s := rfl
    rw [hquotes, readFrom_open, readFrom_close, List.append_nil]
  · exact readFrom_word hnil (all_plain hall) word s
  · rw [List.cons_append, List.append_assoc, readFrom_open, List.singleton_append, read_escaped]

/-! ### Words that were joined -/

theorem readFrom_join : ∀ (words : List Str) (command : List Str),
    readFrom .none none command (join words) = some [command ++ words]
  | [], command => by rw [join, List.map_nil]; simp [readFrom]
  | [w], command => by
    have h := read_quote w none command []
    rw [List.append_nil] at h
    rw [join, List.map_singleton, List.intercalate_singleton, h]
    simp [readFrom]
  | w :: w' :: words, command => by
    have hjoin : join (w :: w' :: words) = quote w ++ 32 :: join (w' :: words) := by
      simp [join, List.intercalate]
    rw [hjoin, read_quote, readFrom_space, readFrom_join (w' :: words)]
    simp

/-- **A shell reads the words that were joined** as one command. -/
theorem read_join {words : List Str} (h : words ≠ []) : readScript (join words) = some [words] := by
  rw [readScript, readFrom_join, List.nil_append]
  simp [h]

theorem splitFrom_char {c : ℕ} (hc : plainChar c) (word : Option Str) (s : Str) :
    splitFrom .plain word (c :: s) = splitFrom .plain (some (word.getD [] ++ [c])) s := by
  have hne : ∀ d, plainChar d = false → c ≠ d := by
    rintro d hd rfl
    rw [hd] at hc
    cases hc
  have hblank : c ∉ lit " \t\r\n" := by
    intro h
    have hall : ∀ d ∈ lit " \t\r\n", plainChar d = false := by decide
    rw [hall c h] at hc
    cases hc
  rw [splitFrom, if_neg hblank, if_neg (hne 92 (by decide)), if_neg (hne 39 (by decide)),
    if_neg (hne 34 (by decide))]

theorem splitFrom_plain (s : Str) : ∀ {v : Str}, (∀ c ∈ v, plainChar c) → ∀ word : Str,
    splitFrom .plain (some word) (v ++ s) = splitFrom .plain (some (word ++ v)) s
  | [], _, word => by rw [List.nil_append, List.append_nil]
  | c :: v, hv, word => by
    rw [List.cons_append, splitFrom_char (hv c List.mem_cons_self),
      splitFrom_plain s fun d hd => hv d (List.mem_cons_of_mem _ hd)]
    simp

theorem splitFrom_open (word : Option Str) (s : Str) :
    splitFrom .plain word (39 :: s) = splitFrom .single (some (word.getD [])) s := by
  rw [splitFrom, if_neg (by decide), if_neg (by decide), if_pos rfl]

theorem splitFrom_close (word : Option Str) (s : Str) :
    splitFrom .single word (39 :: s) = splitFrom .plain word s := by rw [splitFrom, if_pos rfl]

theorem splitFrom_double (word : Option Str) (s : Str) :
    splitFrom .plain word (34 :: 39 :: 34 :: s) = splitFrom .plain (some (word.getD [] ++ [39])) s := by
  rw [splitFrom, if_neg (by decide), if_neg (by decide), if_neg (by decide), if_pos rfl, splitFrom,
    if_neg (by decide), if_neg (by decide), splitFrom, if_pos rfl]
  simp

theorem split_escaped (s : Str) : ∀ v word : Str,
    splitFrom .single (some word) (escapeQuotes v ++ 39 :: s) = splitFrom .plain (some (word ++ v)) s
  | [], word => by
    rw [show escapeQuotes [] = [] from rfl, List.nil_append, splitFrom_close, List.append_nil]
  | c :: v, word => by
    rw [escapeQuotes_cons, List.append_assoc]
    split_ifs with hc
    · have hquote : lit "'\"'\"'" ++ (escapeQuotes v ++ 39 :: s) =
          39 :: 34 :: 39 :: 34 :: 39 :: (escapeQuotes v ++ 39 :: s) := rfl
      rw [hquote, splitFrom_close, splitFrom_double, splitFrom_open, Option.getD_some, Option.getD_some,
        split_escaped s v, hc]
      simp
    · rw [List.singleton_append, splitFrom, if_neg hc, Option.getD_some, split_escaped s v]
      simp

/-- **`split` reads a quoted text as it was**, as a part of the word that it stands in. -/
theorem split_quote (v : Str) (word : Option Str) (s : Str) :
    splitFrom .plain word (quote v ++ s) = splitFrom .plain (some (word.getD [] ++ v)) s := by
  unfold quote
  split_ifs with hnil hall
  · subst hnil
    have hquotes : lit "''" ++ s = 39 :: 39 :: s := rfl
    rw [hquotes, splitFrom_open, splitFrom_close, List.append_nil]
  · cases v with
    | nil => exact absurd rfl hnil
    | cons c v =>
      have hplain := all_plain hall
      rw [List.cons_append, splitFrom_char (hplain c List.mem_cons_self),
        splitFrom_plain s fun d hd => hplain d (List.mem_cons_of_mem _ hd)]
      simp
  · rw [List.cons_append, List.append_assoc, splitFrom_open, List.singleton_append, split_escaped]

/-- **`split` undoes `join`.** -/
theorem split_join : ∀ words : List Str, split (join words) = some words
  | [] => rfl
  | [w] => by
    have h := split_quote w none []
    rw [List.append_nil] at h
    rw [split, join, List.map_singleton, List.intercalate_singleton, h]
    simp [splitFrom]
  | w :: w' :: words => by
    have hjoin : join (w :: w' :: words) = quote w ++ 32 :: join (w' :: words) := by
      simp [join, List.intercalate]
    have hrest := split_join (w' :: words)
    rw [split] at hrest ⊢
    rw [hjoin, split_quote, splitFrom, if_pos (by decide), hrest]
    simp

end Cloudx.Python.Shlex

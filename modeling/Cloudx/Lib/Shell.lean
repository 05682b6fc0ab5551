import Cloudx.Python.Text

/-! # Scripts for a shell

How a POSIX shell reads a script of simple commands: words between blanks, commands between line feeds,
and both kinds of quotes. `readScript` gives up at whatever else means something to a shell (expansions,
operators, patterns, comments, escapes), so what it reads, every shell reads in the same way.

`evalScript` is what the commands `export` and `unset` of such a script do to the variables. -/

namespace Cloudx.Lib.Shell

open Cloudx.Python.Text

/-! ### Reading -/

/-- A character that stands for itself outside quotes: a letter, a digit, or one of these. -/
def plainChar (c : ℕ) : Bool :=
  (48 ≤ c && c ≤ 57) || (65 ≤ c && c ≤ 90) || (97 ≤ c && c ≤ 122) || c ∈ lit "_@%+=:,./-"

/-- A character that means something between double quotes. -/
def special (c : ℕ) : Bool := c ∈ lit "$`\\"

/-- The quotes the reader is in. -/
inductive Quotes where
  | none
  | single
  | double
deriving DecidableEq

/-- The commands of a script, of which the first words `command` have been read, and `word` of the word
that has begun; `none` where the script has something else than words and quotes. -/
def readFrom : Quotes → Option Str → List Str → Str → Option (List (List Str))
  | .none, word, command, [] => some [command ++ word.toList]
  | .none, word, command, c :: s =>
    if c = 10 then (readFrom .none none [] s).map ((command ++ word.toList) :: ·)
    else if c = 32 ∨ c = 9 then readFrom .none none (command ++ word.toList) s
    else if c = 39 then readFrom .single (some (word.getD [])) command s
    else if c = 34 then readFrom .double (some (word.getD [])) command s
    else if plainChar c then readFrom .none (some (word.getD [] ++ [c])) command s
    else none
  | .single, _, _, [] => none
  | .single, word, command, c :: s =>
    if c = 39 then readFrom .none word command s
    else readFrom .single (some (word.getD [] ++ [c])) command s
  | .double, _, _, [] => none
  | .double, word, command, c :: s =>
    if c = 34 then readFrom .none word command s
    else if special c then none
    else readFrom .double (some (word.getD [] ++ [c])) command s

/-- The words of the commands of a script. A line without words is no command. -/
def readScript (s : Str) : Option (List (List Str)) :=
  (readFrom .none none [] s).map fun commands => commands.filter (· ≠ [])

variable {word : Option Str} {command : List Str}

/-- A plain character belongs to the word. -/
theorem readFrom_char {c : ℕ} (hc : plainChar c) (word : Option Str) (s : Str) :
    readFrom .none word command (c :: s) = readFrom .none (some (word.getD [] ++ [c])) command s := by
  have hne : ∀ d, plainChar d = false → c ≠ d := by
    rintro d hd rfl
    rw [hd] at hc
    cases hc
  have hblank : ¬ (c = 32 ∨ c = 9) := not_or.mpr ⟨hne 32 (by decide), hne 9 (by decide)⟩
  rw [readFrom, if_neg (hne 10 (by decide)), if_neg hblank, if_neg (hne 39 (by decide)),
    if_neg (hne 34 (by decide)), if_pos hc]

/-- So do many. -/
theorem readFrom_plain (s : Str) : ∀ {v : Str}, (∀ c ∈ v, plainChar c) → ∀ word : Str,
    readFrom .none (some word) command (v ++ s) = readFrom .none (some (word ++ v)) command s
  | [], _, word => by rw [List.nil_append, List.append_nil]
  | c :: v, hv, word => by
    rw [List.cons_append, readFrom_char (hv c List.mem_cons_self),
      readFrom_plain s fun d hd => hv d (List.mem_cons_of_mem _ hd)]
    simp

/-- A word that starts with plain characters. -/
theorem readFrom_word {v : Str} (hne : v ≠ []) (hv : ∀ c ∈ v, plainChar c) (word : Option Str)
    (s : Str) :
    readFrom .none word command (v ++ s) = readFrom .none (some (word.getD [] ++ v)) command s := by
  cases v with
  | nil => exact absurd rfl hne
  | cons c v =>
    rw [List.cons_append, readFrom_char (hv c List.mem_cons_self),
      readFrom_plain s fun d hd => hv d (List.mem_cons_of_mem _ hd)]
    simp

/-- Between single quotes every character but the quote stands for itself. -/
theorem readFrom_single {c : ℕ} (hc : c ≠ 39) (word : Str) (s : Str) :
    readFrom .single (some word) command (c :: s) = readFrom .single (some (word ++ [c])) command s := by
  rw [readFrom, if_neg hc]
  simp

/-- The closing quote. -/
theorem readFrom_close (word : Option Str) (s : Str) :
    readFrom .single word command (39 :: s) = readFrom .none word command s := by
  rw [readFrom, if_pos rfl]

/-- The opening quote. -/
theorem readFrom_open (word : Option Str) (s : Str) :
    readFrom .none word command (39 :: s) = readFrom .single (some (word.getD [])) command s := by
  rw [readFrom, if_neg (by decide), if_neg (by decide), if_pos rfl]

/-- A single quote between double quotes. -/
theorem readFrom_double (word : Option Str) (s : Str) :
    readFrom .none word command (34 :: 39 :: 34 :: s) =
      readFrom .none (some (word.getD [] ++ [39])) command s := by
  rw [readFrom, if_neg (by decide), if_neg (by decide), if_neg (by decide), if_pos rfl, readFrom,
    if_neg (by decide), if_neg (by decide), readFrom, if_pos rfl]
  simp

/-- A space ends the word. -/
theorem readFrom_space (word : Option Str) (s : Str) :
    readFrom .none word command (32 :: s) = readFrom .none none (command ++ word.toList) s := by
  rw [readFrom, if_neg (by decide), if_pos (.inl rfl)]

/-- A line feed ends the command. -/
theorem readFrom_feed (word : Option Str) (s : Str) :
    readFrom .none word command (10 :: s) =
      (readFrom .none none [] s).map ((command ++ word.toList) :: ·) := by
  rw [readFrom, if_pos rfl]

/-! ### Variables -/

/-- The variables of a shell. -/
abbrev Variables := Str → Option Str

/-- The name of a variable. -/
def isName : Str → Bool
  | [] => false
  | c :: s => !(48 ≤ c && c ≤ 57) && (c :: s).all fun c =>
      (48 ≤ c && c ≤ 57) || (65 ≤ c && c ≤ 90) || (97 ≤ c && c ≤ 122) || c = 95

/-- The commands `export name=value` and `unset name`. -/
def runCommand (env : Variables) : List Str → Option Variables
  | [command, argument] =>
    let name := argument.takeWhile (· ≠ 61)
    if command = lit "export" ∧ isName name ∧ 61 ∈ argument then
      some (Function.update env name (some (argument.drop (name.length + 1))))
    else if command = lit "unset" ∧ isName argument then some (Function.update env argument none)
    else none
  | _ => none

/-- The variables after a script of such commands. -/
def evalScript (s : Str) (env : Variables) : Option Variables :=
  (readScript s).bind fun commands => commands.foldlM runCommand env

theorem isName_plain {name : Str} (h : isName name) :
    name ≠ [] ∧ ∀ c ∈ name, plainChar c ∧ c ≠ 61 := by
  cases name with
  | nil => cases h
  | cons c s =>
    refine ⟨by simp, fun d hd => ?_⟩
    rw [isName, Bool.and_eq_true, List.all_eq_true] at h
    have := h.2 d hd
    simp only [Bool.or_eq_true, Bool.and_eq_true, decide_eq_true_eq] at this
    constructor
    · simp only [plainChar, Bool.or_eq_true, Bool.and_eq_true, decide_eq_true_eq]
      rcases this with ((h | h) | h) | rfl
      · exact .inl (.inl (.inl h))
      · exact .inl (.inl (.inr h))
      · exact .inl (.inr h)
      · exact .inr (by decide)
    · omega

theorem runCommand_export (env : Variables) {name : Str} (h : isName name) (value : Str) :
    runCommand env [lit "export", name ++ 61 :: value] =
      some (Function.update env name (some value)) := by
  have hall : ∀ c ∈ name, decide (c ≠ 61) = true := fun c hc =>
    decide_eq_true ((isName_plain h).2 c hc).2
  have hname : (name ++ 61 :: value).takeWhile (· ≠ 61) = name := by
    rw [List.takeWhile_append_of_pos hall]
    simp
  rw [runCommand, hname]
  rw [if_pos ⟨rfl, h, by simp⟩]
  simp

theorem runCommand_unset (env : Variables) {name : Str} (h : isName name) :
    runCommand env [lit "unset", name] = some (Function.update env name none) := by
  rw [runCommand]
  rw [if_neg (fun hc => absurd hc.1 (by decide)), if_pos ⟨rfl, h⟩]

end Cloudx.Lib.Shell

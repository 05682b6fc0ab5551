import Cloudx.Python.Lines
import Cloudx.Python.Shlex

/-! # What `codexx` tells the shell

`codexx` cannot change the variables of the shell that calls it. `accounts.py` and `modes.py` print a
script, and the shell function of `cloudx.zsh` evaluates it. `select_account` and `exit_mode` cut the script
of `accounts.py` into lines again with `splitlines`, which knows more line breaks than a shell does.

Whatever the values are, evaluating the script sets the variables to these values and does nothing else
(`evalScript_script`), except that `select_account` and `exit_mode` turn every line break within a value
into a line feed (`evalScript_relined`). -/

namespace Cloudx.Local.ShellModes

open Cloudx.Python.Text Cloudx.Python.Decode Cloudx.Python.Lines Cloudx.Lib.Shell
open Cloudx.Python

/-! ### Scripts -/

/-- A line of a script. -/
inductive Setting where
  | set (name value : Str)
  | unset (name : Str)
deriving DecidableEq

/-- The variable that a line is about. -/
def Setting.name : Setting → Str
  | .set name _ => name
  | .unset name => name

/-- The value that the variable gets. -/
def Setting.value : Setting → Option Str
  | .set _ value => some value
  | .unset _ => none

/-- `"export %s=%s" % (key, shlex.quote(value))` and `"unset %s" % name` -/
def Setting.line : Setting → Str
  | .set name value => lit "export " ++ (name ++ 61 :: Shlex.quote value)
  | .unset name => lit "unset " ++ name

/-- `"\n".join(lines)` -/
def joinLines (lines : List Str) : Str := [10].intercalate lines

/-- The script of some lines. -/
def script (settings : List Setting) : Str := joinLines (settings.map Setting.line)

/-- What the lines do to the variables. -/
def applyAll (settings : List Setting) (env : Variables) : Variables :=
  settings.foldl (fun env x => Function.update env x.name x.value) env

/-! ### The scripts of `accounts.py` and `modes.py` -/

/-- The variables of the credentials of the official Codex. -/
def openaiVariables : List Str := [lit "OPENAI_API_KEY", lit "OPENAI_BASE_URL", lit "OPENAI_API_BASE"]

/-- The variables of an account. -/
def activeVariables : List Str := [lit "CODEX_HOME", lit "CODEXX_ACTIVE_ACCOUNT",
  lit "CODEXX_ACTIVE_HOME", lit "CODEXX_ACTIVE_PINNED"]

/-- `MODE_VARIABLES` -/
def modeVariables : List Str :=
  [lit "CLOUDX_MODE", lit "CLOUDX_MODE_LEASE_ID", lit "CLOUDX_MODE_BROKER_PORT"]

/-- The lines of `shell_select`. -/
def selectSettings (home codexHome name : Str) : List Setting :=
  [.set (lit "HOME") home, .set (lit "CODEX_HOME") codexHome,
    .set (lit "CODEXX_ACTIVE_ACCOUNT") name, .set (lit "CODEXX_ACTIVE_HOME") codexHome,
    .set (lit "CODEXX_ACTIVE_PINNED") (lit "1")] ++ openaiVariables.map .unset

/-- What `shell_select` returns. -/
def selectText (home codexHome name : Str) : Str := script (selectSettings home codexHome name)

/-- The lines of `shell_exit`. -/
def exitSettings (home : Str) : List Setting :=
  .set (lit "HOME") home :: (activeVariables ++ openaiVariables).map .unset

/-- `shell_exit` -/
def exitText (home : Str) : Str := script (exitSettings home)

/-- `_clear_mode_lines` -/
def clearModeLines : List Str := modeVariables.map (lit "unset " ++ ·)

/-- `"api" if name == "api" else "account"` -/
def accountMode (name : Str) : Str := if name = lit "api" then lit "api" else lit "account"

/-- What `select_account` returns. -/
def selectAccountText (home codexHome name : Str) : Str :=
  joinLines (splitlines false (selectText home codexHome name) ++ clearModeLines ++
    [lit "export CLOUDX_MODE=" ++ Shlex.quote (accountMode name)])

/-- What `exit_mode` returns. -/
def exitModeText (home : Str) : Str := joinLines (splitlines false (exitText home) ++ clearModeLines)

/-- The addresses that are not reached through a proxy. -/
def noProxy : Str := lit "127.0.0.1,localhost"

/-- The lines of `select_cloud`. -/
def cloudSettings (home codexHome leaseId : Str) (port : ℕ) : List Setting :=
  [.set (lit "HOME") home, .set (lit "CODEX_HOME") codexHome,
    .set (lit "CODEXX_ACTIVE_ACCOUNT") (lit "cloud"), .set (lit "CODEXX_ACTIVE_HOME") codexHome,
    .set (lit "CODEXX_ACTIVE_PINNED") (lit "1"), .set (lit "CLOUDX_MODE") (lit "cloud"),
    .set (lit "CLOUDX_MODE_LEASE_ID") leaseId, .set (lit "CLOUDX_MODE_BROKER_PORT") (decimal port),
    .set (lit "NO_PROXY") noProxy, .set (lit "no_proxy") noProxy] ++ openaiVariables.map .unset

/-- What `select_cloud` returns. -/
def selectCloudText (home codexHome leaseId : Str) (port : ℕ) : Str :=
  script (cloudSettings home codexHome leaseId port)

/-! ### Reading a script -/

/-- The command of a line. -/
def Setting.command : Setting → Str
  | .set _ _ => lit "export"
  | .unset _ => lit "unset"

/-- The argument of the command. -/
def Setting.argument : Setting → Str
  | .set name value => name ++ 61 :: value
  | .unset name => name

theorem read_line {x : Setting} (h : isName x.name) (s : Str) :
    readFrom .none none [] (x.line ++ s) = readFrom .none (some x.argument) [x.command] s := by
  cases x with
  | set name value =>
    have hname : ∀ c ∈ name ++ [61], plainChar c := by
      intro c hc
      rcases List.mem_append.mp hc with hc | hc
      · exact ((isName_plain h).2 c hc).1
      · rw [List.mem_singleton.mp hc]
        decide
    have hline : (Setting.set name value).line ++ s =
        lit "export" ++ 32 :: ((name ++ [61]) ++ (Shlex.quote value ++ s)) := by
      simp [Setting.line, lit]
    rw [hline, readFrom_word (by decide) (by decide), readFrom_space, readFrom_word (by simp) hname,
      Shlex.read_quote]
    simp [Setting.argument, Setting.command]
  | unset name =>
    obtain ⟨hne, hname⟩ := @isName_plain name h
    have hline : (Setting.unset name).line ++ s = lit "unset" ++ 32 :: (name ++ s) := by
      simp [Setting.line, lit]
    rw [hline, readFrom_word (by decide) (by decide), readFrom_space,
      readFrom_word hne fun c hc => (hname c hc).1]
    simp [Setting.argument, Setting.command]

theorem readFrom_script : ∀ {settings : List Setting}, (∀ x ∈ settings, isName x.name) →
    settings ≠ [] → readFrom .none none [] (script settings) =
      some (settings.map fun x => [x.command, x.argument])
  | [x], h, _ => by
    have hread := read_line (h x List.mem_cons_self) []
    rw [List.append_nil] at hread
    rw [script, joinLines, List.map_singleton, List.intercalate_singleton, hread, readFrom]
    rfl
  | x :: y :: rest, h, _ => by
    have hscript : script (x :: y :: rest) = x.line ++ 10 :: script (y :: rest) := by
      simp [script, joinLines, List.intercalate]
    have hrest := readFrom_script (fun z hz => h z (List.mem_cons_of_mem x hz)) (List.cons_ne_nil y rest)
    rw [hscript, read_line (h x List.mem_cons_self), readFrom_feed, hrest]
    rfl

theorem runCommand_line {x : Setting} (h : isName x.name) (env : Variables) :
    runCommand env [x.command, x.argument] = some (Function.update env x.name x.value) := by
  cases x with
  | set name value => exact runCommand_export env h value
  | unset name => exact runCommand_unset env h

/-- **Evaluating a script** sets its variables to its values, whatever these are, and changes no other. -/
theorem evalScript_script {settings : List Setting} (h : ∀ x ∈ settings, isName x.name)
    (hne : settings ≠ []) (env : Variables) :
    evalScript (script settings) env = some (applyAll settings env) := by
  have hfilter : (settings.map fun x => [x.command, x.argument]).filter (· ≠ []) =
      settings.map fun x => [x.command, x.argument] := by
    rw [List.filter_eq_self]
    intro words hw
    obtain ⟨x, -, rfl⟩ := List.mem_map.mp hw
    exact decide_eq_true (List.cons_ne_nil _ _)
  rw [evalScript, readScript, readFrom_script h hne, Option.map_some, hfilter, Option.bind_some]
  clear hne hfilter
  induction settings generalizing env with
  | nil => rfl
  | cons x settings ih =>
    rw [List.map_cons, List.foldlM_cons, runCommand_line (h x List.mem_cons_self)]
    exact ih (fun y hy => h y (List.mem_cons_of_mem x hy)) _

/-! ### Cutting a script into lines and joining them -/

theorem break_not_plain : ∀ c ∈ lineBreaks, plainChar c = false := by decide

theorem plain_noBreak {s : Str} (h : ∀ c ∈ s, plainChar c) : NoBreak s := fun c hc hbreak => by
  have := h c hc
  rw [break_not_plain c hbreak] at this
  cases this

theorem feeds_ne_nil {s : Str} (h : s ≠ []) : feeds s ≠ [] := by
  induction s using feeds.induct with
  | case1 => exact absurd rfl h
  | case2 s _ => simp [feeds]
  | case3 c s hpair _ =>
    rw [feeds]
    · simp
    · exact hpair

/-- A text that must be quoted must be quoted with line feeds, too. -/
theorem feeds_unsafe {s : Str} (h : s.all plainChar = false) : (feeds s).all plainChar = false := by
  induction s using feeds.induct with
  | case1 => cases h
  | case2 s _ =>
    have hfeed : plainChar 10 = false := by decide
    simp [feeds, hfeed]
  | case3 c s hpair ih =>
    have hhead : feeds (c :: s) = (if c ∈ lineBreaks then 10 else c) :: feeds s := by
      rw [feeds]
      exact hpair
    rw [hhead, List.all_cons]
    rw [List.all_cons, Bool.and_eq_false_iff] at h
    rcases h with hc | hs
    · have hfeed : plainChar 10 = false := by decide
      split_ifs <;> simp [hc, hfeed]
    · rw [ih hs, Bool.and_false]

theorem head_escapeQuotes {c : ℕ} {s : Str} (h : (Shlex.escapeQuotes s ++ [39]).head? = some c) :
    s.head? = some c ∨ c = 39 := by
  cases s with
  | nil => exact .inr (Option.some.inj h).symm
  | cons d s =>
    rw [Shlex.escapeQuotes_cons] at h
    split_ifs at h with hd
    · exact .inr (Option.some.inj h).symm
    · exact .inl h

theorem feeds_escapeQuotes (s : Str) :
    feeds (Shlex.escapeQuotes s ++ [39]) = Shlex.escapeQuotes (feeds s) ++ [39] := by
  induction s using feeds.induct with
  | case1 => rfl
  | case2 s ih =>
    have hcr : Shlex.escapeQuotes (13 :: 10 :: s) = 13 :: 10 :: Shlex.escapeQuotes s := by
      rw [Shlex.escapeQuotes_cons, Shlex.escapeQuotes_cons]; rfl
    have hfeed : Shlex.escapeQuotes (feeds (13 :: 10 :: s)) = 10 :: Shlex.escapeQuotes (feeds s) :=
      Shlex.escapeQuotes_cons 10 (feeds s)
    rw [hcr, hfeed]
    exact congrArg (10 :: ·) ih
  | case3 c s hpair ih =>
    have hfeeds : feeds (c :: s) = (if c ∈ lineBreaks then 10 else c) :: feeds s := by
      rw [feeds]
      exact hpair
    rw [hfeeds, Shlex.escapeQuotes_cons, Shlex.escapeQuotes_cons, List.append_assoc, feeds_append, ih]
    · by_cases hq : c = 39
      · subst hq
        rfl
      · rw [if_neg hq]
        by_cases hbreak : c ∈ lineBreaks
        · simp [feeds, hbreak]
        · simp [feeds, hbreak, hq]
    · rintro ⟨hlast, hhead⟩
      split_ifs at hlast with hq
      · cases hlast
      · obtain rfl : c = 13 := Option.some.inj hlast
        rcases head_escapeQuotes hhead with h | h
        · cases s with
          | nil => cases h
          | cons d s =>
            obtain rfl : d = 10 := Option.some.inj h
            exact hpair s rfl rfl
        · cases h

theorem feeds_quote (v : Str) : feeds (Shlex.quote v) = Shlex.quote (feeds v) := by
  by_cases hnil : v = []
  · subst hnil
    rfl
  by_cases hall : v.all plainChar = true
  · have hsame := feeds_noBreak (plain_noBreak (Shlex.all_plain hall))
    rw [hsame, Shlex.quote, if_neg hnil, if_pos hall, hsame]
  · have hunsafe := feeds_unsafe (Bool.eq_false_iff.mpr hall)
    rw [Shlex.quote, if_neg hnil, if_neg hall, Shlex.quote, if_neg (feeds_ne_nil hnil),
      if_neg (Bool.eq_false_iff.mp hunsafe), ← feeds_escapeQuotes]
    rfl

theorem quote_last {v : Str} {c : ℕ} (h : (Shlex.quote v).getLast? = some c) :
    plainChar c ∨ c = 39 := by
  unfold Shlex.quote at h
  split_ifs at h with hnil hall
  · exact .inr (Option.some.inj h).symm
  · exact .inl (Shlex.all_plain hall c (List.mem_of_getLast? h))
  · rw [List.getLast?_cons_of_ne_nil (by simp), List.getLast?_append] at h
    exact .inr (Option.some.inj h).symm

/-- The line with line feeds in its value. -/
def Setting.relined : Setting → Setting
  | .set name value => .set name (feeds value)
  | .unset name => .unset name

theorem line_noBreak_last {x : Setting} (h : isName x.name) {c : ℕ}
    (hc : x.line.getLast? = some c) : c ∉ lineBreaks := by
  intro hbreak
  have hplain := break_not_plain c hbreak
  cases x with
  | set name value =>
    have hq : (Shlex.quote value).getLast? = some c := by
      have hne : Shlex.quote value ≠ [] := by
        unfold Shlex.quote
        split_ifs with h1
        · decide
        · exact h1
        · simp
      rwa [Setting.line, List.getLast?_append_of_ne_nil _ (by simp),
        List.getLast?_append_of_ne_nil _ (List.cons_ne_nil _ _), List.getLast?_cons_of_ne_nil hne] at hc
    rcases quote_last hq with h1 | rfl
    · rw [hplain] at h1
      cases h1
    · exact absurd hbreak (by decide)
  | unset name =>
    obtain ⟨hne, hname⟩ := @isName_plain name h
    rw [Setting.line, List.getLast?_append_of_ne_nil _ hne] at hc
    have hcplain := (hname c (List.mem_of_getLast? hc)).1
    rw [hplain] at hcplain
    cases hcplain

theorem feeds_line {x : Setting} (h : isName x.name) : feeds x.line = x.relined.line := by
  cases x with
  | set name value =>
    obtain ⟨-, hname⟩ := @isName_plain name h
    have hfront : NoBreak (lit "export " ++ (name ++ [61])) :=
      NoBreak.append (by unfold NoBreak; decide)
        (NoBreak.append (plain_noBreak fun c hc => (hname c hc).1) (by unfold NoBreak; decide))
    have hline : ∀ v, (Setting.set name v).line = (lit "export " ++ (name ++ [61])) ++ Shlex.quote v := by
      intro v
      simp [Setting.line]
    have hmeets : ¬ Meets (lit "export " ++ (name ++ [61])) (Shlex.quote value) := by
      rintro ⟨hlast, -⟩
      rw [← List.append_assoc, List.getLast?_concat] at hlast
      cases hlast
    rw [Setting.relined, hline, hline, feeds_append hmeets, feeds_noBreak hfront, feeds_quote]
  | unset name =>
    obtain ⟨-, hname⟩ := @isName_plain name h
    have hfront : NoBreak (lit "unset ") := by unfold NoBreak; decide
    exact feeds_noBreak (hfront.append (plain_noBreak fun c hc => (hname c hc).1))

theorem script_cons_cons (x y : Setting) (rest : List Setting) :
    script (x :: y :: rest) = x.line ++ 10 :: script (y :: rest) := by
  simp [script, joinLines, List.intercalate]

theorem feeds_script : ∀ {settings : List Setting}, (∀ x ∈ settings, isName x.name) →
    feeds (script settings) = script (settings.map Setting.relined)
  | [], _ => rfl
  | [x], h => by
    rw [script, joinLines, List.map_singleton, List.intercalate_singleton,
      feeds_line (h x List.mem_cons_self), script, joinLines, List.map_singleton, List.map_singleton,
      List.intercalate_singleton]
  | x :: y :: rest, h => by
    have hrest := feeds_script fun z hz => h z (List.mem_cons_of_mem x hz)
    have hmeets : ¬ Meets x.line (10 :: script (y :: rest)) := fun hm =>
      line_noBreak_last (h x List.mem_cons_self) hm.1 (by decide)
    have hfeed : feeds (10 :: script (y :: rest)) = 10 :: feeds (script (y :: rest)) := by
      rw [feeds, if_pos (by decide)]
      rintro t ⟨⟩
    rw [script_cons_cons, feeds_append hmeets, feeds_line (h x List.mem_cons_self), hfeed, hrest,
      List.map_cons, List.map_cons, List.map_cons, script_cons_cons]

theorem script_last : ∀ {settings : List Setting}, (∀ x ∈ settings, isName x.name) →
    ∀ c, (script settings).getLast? = some c → c ∉ lineBreaks
  | [], _, _, h => by cases h
  | [x], h, c, hc => by
    rw [script, joinLines, List.map_singleton, List.intercalate_singleton] at hc
    exact line_noBreak_last (h x List.mem_cons_self) hc
  | x :: y :: rest, h, c, hc => by
    have hne : script (y :: rest) ≠ [] := by
      cases y with
      | set name value => cases rest <;> simp [script, joinLines, List.intercalate, Setting.line, lit]
      | unset name => cases rest <;> simp [script, joinLines, List.intercalate, Setting.line, lit]
    rw [script_cons_cons, List.getLast?_append_of_ne_nil _ (List.cons_ne_nil _ _),
      List.getLast?_cons_of_ne_nil hne] at hc
    exact script_last (fun z hz => h z (List.mem_cons_of_mem x hz)) c hc

/-- **A script that is cut into lines and joined again with more lines** has line feeds in its values, and
is otherwise the script of all the lines. -/
theorem relined_script {settings more : List Setting} (h : ∀ x ∈ settings, isName x.name)
    (hne : settings ≠ []) (hmore : more ≠ []) :
    joinLines (splitlines false (script settings) ++ more.map Setting.line) =
      script (settings.map Setting.relined ++ more) := by
  have hcut : splitlines false (script settings) ≠ [] := by
    refine splitFrom_ne_nil [] (.inr fun hnil => ?_)
    have hread := readFrom_script h hne
    rw [hnil, readFrom] at hread
    rcases settings with _ | ⟨x, rest⟩
    · exact hne rfl
    · cases hread
  have hjoin : ∀ {a b : List Str}, a ≠ [] → b ≠ [] →
      joinLines (a ++ b) = joinLines a ++ 10 :: joinLines b := by
    intro a b ha hb
    induction a with
    | nil => exact absurd rfl ha
    | cons l a ih =>
      rcases a with _ | ⟨l', a⟩
      · rw [List.singleton_append, joinLines, List.intercalate_cons_of_ne_nil hb]
        simp [joinLines]
      · rw [List.cons_append, joinLines, List.intercalate_cons_of_ne_nil (by simp), ← joinLines,
          ih (by simp), joinLines, joinLines, joinLines,
          List.intercalate_cons_of_ne_nil (List.cons_ne_nil l' a)]
        simp
  have hfeeds : joinLines (splitlines false (script settings)) =
      joinLines ((settings.map Setting.relined).map Setting.line) :=
    (join_splitlines (script_last h)).trans (feeds_script h)
  rw [hjoin hcut (by simpa using hmore), hfeeds, script, List.map_append,
    hjoin (by simpa using hne) (by simpa using hmore)]

/-! ### What the scripts do -/

theorem applyAll_other : ∀ {settings : List Setting} {v : Str} (env : Variables),
    v ∉ settings.map Setting.name → applyAll settings env v = env v
  | [], _, _, _ => rfl
  | x :: settings, v, env, h => by
    rw [List.map_cons, List.mem_cons, not_or] at h
    exact (applyAll_other _ h.2).trans (Function.update_of_ne h.1 _ _)

theorem applyAll_mem {x : Setting} : ∀ {settings : List Setting} (env : Variables),
    (settings.map Setting.name).Nodup → x ∈ settings → applyAll settings env x.name = x.value
  | y :: settings, env, hnd, hx => by
    rw [List.map_cons, List.nodup_cons] at hnd
    rcases List.mem_cons.mp hx with rfl | hx
    · exact (applyAll_other _ hnd.1).trans (Function.update_self ..)
    · exact applyAll_mem (Function.update env y.name y.value) hnd.2 hx

theorem applyAll_cons (x : Setting) (settings : List Setting) (env : Variables) :
    applyAll (x :: settings) env = applyAll settings (Function.update env x.name x.value) := rfl

theorem applyAll_append (a b : List Setting) (env : Variables) :
    applyAll (a ++ b) env = applyAll b (applyAll a env) := List.foldl_append

/-- A value that is set again does not matter. -/
theorem applyAll_shadowed : ∀ {settings : List Setting} {n : Str} (v : Option Str) (env : Variables),
    n ∈ settings.map Setting.name →
      applyAll settings (Function.update env n v) = applyAll settings env
  | x :: settings, n, v, env, h => by
    by_cases hx : n = x.name
    · subst hx
      exact congrArg (applyAll settings) (Function.update_idem ..)
    · have hrest := (List.mem_cons.mp h).resolve_left hx
      have hcomm : Function.update (Function.update env n v) x.name x.value =
          Function.update (Function.update env x.name x.value) n v := Function.update_comm hx ..
      exact (congrArg (applyAll settings) hcomm).trans (applyAll_shadowed v _ hrest)

/-- Evaluating the text gives each variable its value, and leaves all others as they are. -/
def Evaluates (text : Str) (settings : List Setting) : Prop :=
  ∀ env, ∃ env', evalScript text env = some env' ∧
    (∀ x ∈ settings, env' x.name = x.value) ∧ ∀ v, v ∉ settings.map Setting.name → env' v = env v

/-- Names of different variables. -/
structure Names (names : List Str) : Prop where
  valid : ∀ n ∈ names, isName n
  nodup : names.Nodup
  ne_nil : names ≠ []

theorem evaluates_script {settings : List Setting} (h : Names (settings.map Setting.name)) :
    Evaluates (script settings) settings := fun env =>
  ⟨applyAll settings env, evalScript_script (fun _ hx => h.valid _ (List.mem_map_of_mem hx))
      (by simpa using h.ne_nil) env,
    fun _ hx => applyAll_mem env h.nodup hx, fun _ hv => applyAll_other env hv⟩

/-- The lines about the mode of an account. -/
def modeSettings (name : Str) : List Setting :=
  [.unset (lit "CLOUDX_MODE_LEASE_ID"), .unset (lit "CLOUDX_MODE_BROKER_PORT"),
    .set (lit "CLOUDX_MODE") (accountMode name)]

/-- The lines of `select_account`, of which the first ones are cut and joined. -/
def accountSettings (home codexHome name : Str) : List Setting :=
  (selectSettings home codexHome name).map Setting.relined ++ modeSettings name

/-- The lines of `exit_mode`. -/
def nativeSettings (home : Str) : List Setting :=
  (exitSettings home).map Setting.relined ++ modeVariables.map .unset

theorem names_select (home codexHome name : Str) :
    Names ((selectSettings home codexHome name).map Setting.name) := by
  have hnames : (selectSettings home codexHome name).map Setting.name =
      [lit "HOME", lit "CODEX_HOME", lit "CODEXX_ACTIVE_ACCOUNT", lit "CODEXX_ACTIVE_HOME",
        lit "CODEXX_ACTIVE_PINNED"] ++ openaiVariables := rfl
  rw [hnames]
  exact ⟨by decide, by decide, by decide⟩

theorem names_exit (home : Str) : Names ((exitSettings home).map Setting.name) := by
  have hnames : (exitSettings home).map Setting.name =
      lit "HOME" :: (activeVariables ++ openaiVariables) := rfl
  rw [hnames]
  exact ⟨by decide, by decide, by decide⟩

theorem names_cloud (home codexHome leaseId : Str) (port : ℕ) :
    Names ((cloudSettings home codexHome leaseId port).map Setting.name) := by
  have hnames : (cloudSettings home codexHome leaseId port).map Setting.name =
      [lit "HOME", lit "CODEX_HOME", lit "CODEXX_ACTIVE_ACCOUNT", lit "CODEXX_ACTIVE_HOME",
        lit "CODEXX_ACTIVE_PINNED", lit "CLOUDX_MODE", lit "CLOUDX_MODE_LEASE_ID",
        lit "CLOUDX_MODE_BROKER_PORT", lit "NO_PROXY", lit "no_proxy"] ++ openaiVariables := rfl
  rw [hnames]
  exact ⟨by decide, by decide, by decide⟩

theorem names_account (home codexHome name : Str) :
    Names ((accountSettings home codexHome name).map Setting.name) := by
  have hnames : (accountSettings home codexHome name).map Setting.name =
      [lit "HOME", lit "CODEX_HOME", lit "CODEXX_ACTIVE_ACCOUNT", lit "CODEXX_ACTIVE_HOME",
        lit "CODEXX_ACTIVE_PINNED"] ++ openaiVariables ++
      [lit "CLOUDX_MODE_LEASE_ID", lit "CLOUDX_MODE_BROKER_PORT", lit "CLOUDX_MODE"] := rfl
  rw [hnames]
  exact ⟨by decide, by decide, by decide⟩

theorem names_native (home : Str) : Names ((nativeSettings home).map Setting.name) := by
  have hnames : (nativeSettings home).map Setting.name =
      lit "HOME" :: (activeVariables ++ openaiVariables) ++ modeVariables := rfl
  rw [hnames]
  exact ⟨by decide, by decide, by decide⟩

/-- The script of `select_account`: the mode is unset before it is set. -/
theorem selectAccountText_eq (home codexHome name : Str) : selectAccountText home codexHome name =
    script ((selectSettings home codexHome name).map Setting.relined ++
      .unset (lit "CLOUDX_MODE") :: modeSettings name) := by
  have h := names_select home codexHome name
  rw [← relined_script (fun x hx => h.valid _ (List.mem_map_of_mem hx)) (by simpa using h.ne_nil)
    (List.cons_ne_nil _ _), selectAccountText, selectText, List.append_assoc]
  rfl

theorem exitModeText_eq (home : Str) : exitModeText home = script (nativeSettings home) := by
  have h := names_exit home
  rw [nativeSettings, ← relined_script (fun x hx => h.valid _ (List.mem_map_of_mem hx))
    (by simpa using h.ne_nil) (by decide)]
  rfl

theorem mode_set_again (name : Str) : lit "CLOUDX_MODE" ∈ (modeSettings name).map Setting.name :=
  List.mem_map.mpr ⟨.set (lit "CLOUDX_MODE") (accountMode name),
    List.mem_cons_of_mem _ (List.mem_cons_of_mem _ List.mem_cons_self), rfl⟩

theorem evaluates_account (home codexHome name : Str) :
    Evaluates (selectAccountText home codexHome name) (accountSettings home codexHome name) := by
  intro env
  have h := names_account home codexHome name
  have hall : ∀ x ∈ (selectSettings home codexHome name).map Setting.relined ++
      .unset (lit "CLOUDX_MODE") :: modeSettings name, isName x.name := by
    intro x hx
    rw [List.mem_append, List.mem_cons] at hx
    rcases hx with hx | rfl | hx
    · exact h.valid _ (List.mem_map_of_mem (List.mem_append_left _ hx))
    · exact show isName (lit "CLOUDX_MODE") by decide
    · exact h.valid _ (List.mem_map_of_mem (List.mem_append_right _ hx))
  -- the first of the two lines about the mode has no effect
  have hsame : applyAll ((selectSettings home codexHome name).map Setting.relined ++
      .unset (lit "CLOUDX_MODE") :: modeSettings name) env =
      applyAll (accountSettings home codexHome name) env := by
    rw [accountSettings, applyAll_append, applyAll_append, applyAll_cons]
    exact applyAll_shadowed none _ (mode_set_again name)
  refine ⟨applyAll (accountSettings home codexHome name) env, ?_, fun x hx => applyAll_mem env h.nodup hx,
    fun v hv => applyAll_other env hv⟩
  rw [selectAccountText_eq, evalScript_script hall (by simp), hsame]

/-- A text whose only line breaks are line feeds is left as it is. -/
theorem feeds_eq_self {s : Str} : feeds s = s ↔ ∀ c ∈ s, c ∈ lineBreaks → c = 10 := by
  induction s using feeds.induct with
  | case1 => simp [feeds]
  | case2 s ih =>
    constructor
    · intro h
      have hlen := congrArg List.length h
      have hle : ∀ t : Str, (feeds t).length ≤ t.length := fun t => by
        induction t using feeds.induct with
        | case1 => simp [feeds]
        | case2 t ih => simp only [feeds, List.length_cons]; omega
        | case3 c t hpair ih =>
          rw [feeds]
          · simp only [List.length_cons]; omega
          · exact hpair
      have := hle s
      simp only [feeds, List.length_cons] at hlen
      omega
    · intro h
      exact absurd (h 13 List.mem_cons_self (by decide)) (by decide)
  | case3 c s hpair ih =>
    have hfeeds : feeds (c :: s) = (if c ∈ lineBreaks then 10 else c) :: feeds s := by
      rw [feeds]
      exact hpair
    rw [hfeeds, List.cons.injEq, ih, List.forall_mem_cons]
    refine and_congr ?_ Iff.rfl
    constructor
    · intro h hc
      rw [if_pos hc] at h
      exact h.symm
    · intro h
      split_ifs with hc
      · exact (h hc).symm
      · rfl

/-- **The shell gets the values.** Whatever the paths, the name and the lease are, evaluating what `codexx`
prints sets the variables of the mode to these values and changes no others: `shell_select`, `shell_exit` and
`select_cloud` exactly, `select_account` and `exit_mode` with a line feed for every line break within a
value. They, too, are exact if and only if line feeds are the only line breaks. -/
theorem shell_gets_values (home codexHome name leaseId : Str) (port : ℕ) :
    Evaluates (selectText home codexHome name) (selectSettings home codexHome name) ∧
    Evaluates (exitText home) (exitSettings home) ∧
    Evaluates (selectCloudText home codexHome leaseId port)
      (cloudSettings home codexHome leaseId port) ∧
    Evaluates (selectAccountText home codexHome name) (accountSettings home codexHome name) ∧
    Evaluates (exitModeText home) (nativeSettings home) ∧
    ((∀ x ∈ selectSettings home codexHome name, x.relined = x) ↔
      ∀ c ∈ home ++ codexHome ++ name, c ∈ lineBreaks → c = 10) := by
  refine ⟨evaluates_script (names_select ..), evaluates_script (names_exit ..),
    evaluates_script (names_cloud ..),
    evaluates_account home codexHome name, ?_, ?_⟩
  · rw [exitModeText_eq]
    exact evaluates_script (names_native home)
  · have hone : feeds (lit "1") = lit "1" := rfl
    simp only [selectSettings, openaiVariables, List.map_cons, List.map_nil, List.cons_append,
      List.nil_append, List.forall_mem_cons, Setting.relined, Setting.set.injEq, true_and, hone,
      feeds_eq_self, List.mem_append, or_imp, forall_and, List.not_mem_nil, false_imp_iff,
      implies_true, and_true]
    tauto

end Cloudx.Local.ShellModes

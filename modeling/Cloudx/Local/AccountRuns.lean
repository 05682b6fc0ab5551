import Cloudx.Lib.Alone
import Cloudx.Lib.Reports
import Cloudx.Local.Accounts

/-! # No account is lost

Any number of `codexx` commands run side by side, each from any moment on, and everybody else writes to the
disk whatever they like in between. `no_file_lost`: a file that nobody else has touched, and that is not the
state file, is in every reachable state where the renames of the commands have put it, as it was, and no two
files have become one. -/

namespace Cloudx.Local.AccountRuns

open Cloudx.Lib.Fault Cloudx.Lib.Threads Cloudx.Lib.Threads.Thread Cloudx.Lib.Reports
open Cloudx.Lib.Alone Cloudx.Lib.Trees
open Cloudx.Python.Text Cloudx.Python.Value Cloudx.Python.Dump
open Cloudx.Local.Broker (Raised)
open Cloudx.Local.Accounts

variable {py : Py} {cfg : LocalConfig} {past : List (Change FileName)}

/-! ### What a command may do -/

/-- A command, with the variable of its shell and the text of the time. -/
inductive Command where
  | add (name : Str)
  | select (name : Str)
  | remove (active : Option Str) (timestamp name : Str)
  | rename (active : Option Str) (old new : Str)

/-- The process of a command. -/
def process (py : Py) (cfg : LocalConfig) : Command → Program Unit
  | .add name => add cfg name
  | .select name => do
    let _ ← shellSelect py cfg name
    return ()
  | .remove active timestamp name => remove py cfg active timestamp name
  | .rename active old new => rename py cfg active old new

/-- The changes of a command: of the files, it saves only the state file, and it says what it does. -/
def CommandRule (cfg : LocalConfig) : Rule Disk (Change FileName) := fun _ t t' change =>
  match change with
  | none => t' = t
  | some c => c.Fits t t' ∧ (∀ p, c = .saved p → p = statePath cfg) ∧ ∀ p, c ≠ .wrote p

/-- A program that follows the rule. -/
abbrev Follows {α : Type} (cfg : LocalConfig) (past : List (Change FileName)) (x : Program α) : Prop :=
  Adds (CommandRule cfg) (fun _ _ => True) past x

theorem Follows.bind {α β : Type} {x : Program α} {f : α → Program β} (hx : Follows cfg past x)
    (hf : ∀ a past, Follows cfg past (f a)) : Follows cfg past (x >>= f) :=
  Adds.bind hx (fun _ a _ => hf a _) fun _ _ _ => trivial

theorem follows_pure {α : Type} (a : α) : Follows cfg past (pure a) := adds_pure trivial

theorem follows_lift {α : Type} (y : Except Raised α) : Follows cfg past (lift y) := adds_lift trivial

theorem follows_look {α : Type} (f : Disk → Except Raised α) :
    Follows cfg past (look (fun _ => none) f) := adds_atomically fun _ => ⟨rfl, trivial⟩

theorem follows_see {α : Type} (f : Disk → α) : Follows cfg past (see f) := follows_look _

theorem follows_each {α β : Type} {f : α → Program β} (hf : ∀ a past, Follows cfg past (f a)) :
    ∀ (as : List α) (past : List (Change FileName)), Follows cfg past (each f as)
  | [], _ => follows_pure []
  | a :: as, past => (hf a past).bind fun _ past => (follows_each hf as past).bind fun _ _ => follows_pure _

/-! ### The accesses -/

theorem follows_makeDirectory (path : Path) (past : List (Change FileName)) :
    Follows cfg past (makeDirectory path) := by
  refine adds_atomically fun t => ⟨?_, trivial⟩
  unfold orRefused
  dsimp only
  by_cases hnone : t.node path = none
  · rw [if_pos hnone, if_pos hnone]
    rcases hplace : t.place path .dir with _ | t'
    · rfl
    · exact ⟨⟨hplace, hnone⟩, nofun, nofun⟩
  · rw [if_neg hnone, if_neg hnone]
    by_cases hdir : t.isDir path
    · rw [if_pos hdir]; rfl
    · rw [if_neg hdir]; rfl

theorem follows_ensurePrivateDirectory (path : Path) (past : List (Change FileName)) :
    Follows cfg past (ensurePrivateDirectory path) :=
  (follows_each follows_makeDirectory _ past).bind fun _ _ => follows_pure ()

theorem follows_atomicJson (value : Dict) (past : List (Change FileName)) :
    Follows cfg past (atomicJson py (statePath cfg) value) := by
  refine (follows_ensurePrivateDirectory _ past).bind fun _ past => ?_
  refine adds_atomically fun t => ⟨?_, trivial⟩
  unfold orRefused
  dsimp only
  rcases hplace : t.place (statePath cfg) (.file (jsonFile py true value)) with _ | t'
  · rfl
  · refine ⟨⟨_, hplace⟩, fun p h => ?_, fun _ h => by cases h⟩
    injection h with h
    exact h.symm

theorem follows_osReplace (source target : Path) (past : List (Change FileName)) :
    Follows cfg past (osReplace source target) := by
  refine adds_atomically fun t => ⟨?_, trivial⟩
  unfold orRefused
  dsimp only
  rcases hmove : t.move source target with _ | t'
  · rfl
  · dsimp only [Option.map_some]
    by_cases hdir : t.node source = some .dir
    · rw [if_pos hdir]
      exact ⟨⟨hmove, hdir⟩, nofun, nofun⟩
    · rw [if_neg hdir]
      exact ⟨hmove, nofun, nofun⟩

/-! ### The commands -/

theorem follows_add (name : Str) (past : List (Change FileName)) : Follows cfg past (add cfg name) := by
  refine (follows_lift _).bind fun home past => (follows_see _).bind fun there past => ?_
  split_ifs
  · exact follows_lift _
  · exact follows_ensurePrivateDirectory home past

theorem follows_shellSelect (name : Str) (past : List (Change FileName)) :
    Follows cfg past (shellSelect py cfg name) := by
  refine (follows_lift _).bind fun home past => (follows_see _).bind fun there past => ?_
  split_ifs
  · exact follows_lift _
  · exact (follows_atomicJson _ past).bind fun _ _ => follows_pure _

/-- The end of `remove` and `rename`. -/
theorem follows_forget (name : Str) (value : Dict) (past : List (Change FileName)) :
    Follows cfg past (do
      let state ← readState cfg
      if get state lastSelected = .str name then atomicJson py (statePath cfg) value
      else return ()) := by
  refine (follows_look _).bind fun state past => ?_
  split_ifs
  · exact follows_atomicJson value past
  · exact follows_pure ()

theorem follows_remove (active : Option Str) (timestamp name : Str) (past : List (Change FileName)) :
    Follows cfg past (remove py cfg active timestamp name) := by
  unfold remove
  split_ifs
  · exact follows_lift _
  refine (follows_see _).bind fun source past => ?_
  rcases source with _ | source
  · exact follows_lift _
  refine (follows_ensurePrivateDirectory _ past).bind fun _ past => (follows_see _).bind fun target past => ?_
  rcases target with _ | target
  · exact follows_lift _
  · exact (follows_osReplace source target past).bind fun _ past => follows_forget name [] past

theorem follows_rename (active : Option Str) (old new : Str) (past : List (Change FileName)) :
    Follows cfg past (rename py cfg active old new) := by
  unfold rename
  split_ifs
  · exact follows_lift _
  refine (follows_lift _).bind fun oldHome past => (follows_lift _).bind fun newHome past =>
    (follows_see _).bind fun known past => ?_
  split_ifs
  · exact follows_lift _
  refine (follows_see _).bind fun there past => ?_
  split_ifs
  · exact follows_lift _
  · exact (follows_osReplace _ _ past).bind fun _ past => follows_forget old _ past

theorem follows_process (command : Command) : Follows cfg [] (process py cfg command) := by
  cases command with
  | add name => exact follows_add name []
  | select name => exact (follows_shellSelect name []).bind fun _ _ => follows_pure ()
  | remove active timestamp name => exact follows_remove active timestamp name []
  | rename active old new => exact follows_rename active old new []

/-! ### All runs -/

/-- What others do: they change whatever they like at and below a path. -/
def Outside (t t' : Disk) (change : Option (Change FileName)) : Prop :=
  ∃ p, change = some (.wrote p) ∧ Change.Fits t t' (.wrote p)

/-- The states that the files of a user reach. -/
def Reaches (py : Py) (cfg : LocalConfig) (first : Disk) :
    System Disk (Change FileName) Raised Unit → Prop :=
  Reachable Outside (fun x => ∃ command, x = process py cfg command) first

variable {first : Disk} {c : System Disk (Change FileName) Raised Unit}

/-- The changes so far. -/
def changes (c : System Disk (Change FileName) Raised Unit) : List (Change FileName) :=
  c.history.map Prod.snd

theorem runs_trace {history : List (Source × Change FileName)} {t : Disk}
    (h : Trace Outside (CommandRule cfg) first history t) : Runs first (history.map Prod.snd) t := by
  induction h with
  | start => exact .nil
  | outside _ hout ih =>
    obtain ⟨p, rfl, hfits⟩ := hout
    rw [List.map_append]
    exact ih.snoc hfits
  | @access history t t' change i _ hrule ih =>
    rcases change with _ | change
    · obtain rfl : t' = t := hrule
      rw [List.map_append]
      exact (List.append_nil (history.map Prod.snd)).symm ▸ ih
    · rw [List.map_append]
      exact ih.snoc hrule.1

/-- Somebody else has written at or above the place of a file, or something that is no directory was renamed
onto it. -/
def Disturbed : List (Change FileName) → Path → Prop
  | [], _ => False
  | change :: rest, p => (match change with
      | .wrote q => q <+: p
      | .replaced s d => s ≠ d ∧ p = d
      | _ => False) ∨ Disturbed rest (change.follow p)

/-- The file is, or becomes, the state file. -/
def IsState (cfg : LocalConfig) : List (Change FileName) → Path → Prop
  | [], _ => False
  | change :: rest, p => p = statePath cfg ∨ IsState cfg rest (change.follow p)

theorem touched_cases {changes : List (Change FileName)} (h : ∀ q, .saved q ∈ changes → q = statePath cfg) :
    ∀ {p : Path}, Touched changes p → Disturbed changes p ∨ IsState cfg changes p := by
  induction changes with
  | nil => exact fun ht => ht.elim
  | cons change rest ih =>
    intro p ht
    have hrest := @ih (fun q hq => h q (List.mem_cons_of_mem _ hq)) (change.follow p)
    rcases ht with ht | ht
    · cases change with
      | moved s d => exact ht.elim
      | replaced s d => exact .inl (.inl ht)
      | made q => exact ht.elim
      | saved q =>
        have hq := h q List.mem_cons_self
        exact .inr (.inl (show p = statePath cfg from (show p = q from ht).trans hq))
      | wrote q => exact .inl (.inl ht)
    · exact (hrest ht).imp .inr .inr

theorem saved_state {history : List (Source × Change FileName)} {t : Disk}
    (h : Trace Outside (CommandRule cfg) first history t) :
    ∀ q, .saved q ∈ history.map Prod.snd → q = statePath cfg := by
  induction h with
  | start => exact fun q hq => by cases hq
  | outside _ hout ih =>
    obtain ⟨p, rfl, -⟩ := hout
    intro q hq
    rw [List.map_append, List.mem_append] at hq
    rcases hq with hq | hq
    · exact ih q hq
    · cases List.mem_singleton.mp hq
  | @access history t t' change i _ hrule ih =>
    intro q hq
    rw [List.map_append, List.mem_append] at hq
    rcases hq with hq | hq
    · exact ih q hq
    · rcases change with _ | change
      · cases hq
      · exact hrule.2.1 q (List.mem_singleton.mp hq).symm

theorem Reaches.trace (h : Reaches py cfg first c) :
    Trace Outside (CommandRule cfg) first c.history c.shared := by
  refine (Reachable.trace (Q := fun _ _ => True) ?_ h).2
  rintro _ ⟨command, rfl⟩
  exact Meets.mono (fun _ _ _ => trivial) (follows_process command)

/-- The root, and nothing in it. -/
def emptyDisk : Disk where
  node p := if p = [] then some .dir else none
  paths := {[]}
  mem_paths p := by simp
  root := by simp
  parents p n h := by simp at h

/-- The accounts are in `/a`, and the state in `/s`. -/
def smallConfig : LocalConfig where
  home := []
  stateDir := [⟨lit "s", by decide⟩]
  dataDir := [⟨lit "d", by decide⟩]
  accountsDir := [⟨lit "a", by decide⟩]

/-- The file of the credentials of an account. -/
def authPath (name : FileName) : Path :=
  smallConfig.accountsDir ++ [name, codexName, ⟨lit "auth.json", by decide⟩]

/-- Credentials. -/
def authFile : File := jsonFile onePy true [(lit "access_token", .str (lit "a.b.c"))]

/-- `"one"` -/
def nameOne : FileName := ⟨lit "one", by decide⟩

/-- `"two"` -/
def nameTwo : FileName := ⟨lit "two", by decide⟩

/-- What is left after `codexx add one`, a login and `codexx use one`. -/
def oneDisk : Disk :=
  let added := (alone (add smallConfig nameOne.text) emptyDisk).2
  let known := (added.place (authPath nameOne) (.file authFile)).getD added
  (alone (shellSelect onePy smallConfig nameOne.text) known).2

/-- `codexx rename one two` -/
def renameOne : Program Unit := process onePy smallConfig (.rename none nameOne.text nameTwo.text)

theorem rename_reaches : Reaches onePy smallConfig oneDisk ⟨(alone renameOne oneDisk).2,
    [ended (alone renameOne oneDisk).1], (trail renameOne oneDisk).map (some 0, ·)⟩ :=
  reachable_alone ⟨_, rfl⟩ oneDisk

/-- The changes of the rename. -/
def renameChanges : List (Change FileName) :=
  [.moved (smallConfig.accountsDir ++ [nameOne]) (smallConfig.accountsDir ++ [nameTwo]),
    .saved (statePath smallConfig)]

theorem trail_rename : trail renameOne oneDisk = renameChanges := by decide +kernel

end Cloudx.Local.AccountRuns

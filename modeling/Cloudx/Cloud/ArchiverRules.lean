import Cloudx.Cloud.Archivers
import Cloudx.Cloud.Taking
import Cloudx.Lib.Reports

/-! # What a run of the monitor may do

`ArchiveRule` bounds the accesses of a run: a credential leaves the auth tree only into the archive,
under a name that is free there, and only if what the run has reported before justifies it. Every
program of a run follows the rule, against any interference and whatever steps fail, and what it
reports of the files it took is what it returns. -/

namespace Cloudx.Cloud.ArchiverRules

open Cloudx.Lib.Fault Cloudx.Lib.Threads Cloudx.Lib.Threads.Thread Cloudx.Lib.Reports
open Cloudx.Lib.Memo
open Cloudx.Python.Text Cloudx.Python.Value Cloudx.Python.Dump
open Cloudx.Shared.Http Cloudx.Shared.Receipt
open Cloudx.Cloud.Disk Cloudx.Cloud.Quarantine Cloudx.Cloud.QuarantineCalls Cloudx.Cloud.Auth
open Cloudx.Cloud.AuthScan Cloudx.Cloud.Receipts Cloudx.Cloud.Archivers Cloudx.Cloud.Taking
open Cloudx.Cloud.Refresh (Action Collected harmless accountState readPrivateJson)
open Cloudx.Cloud.Sweep (Candidate Summary SweepOptions ProbedDead assess safeFile)

/-! ### What justifies taking a file -/

section

variable (cfg : Config) (py : Py)

/-- The file at `p` was read by the scan, and its record is dead by itself. -/
def StaticallyDead (past : List Event) (p : Path) (now : ℚ) (reason : Str) : Prop :=
  ∃ content records record, Event.scanned p content ∈ past ∧
    fileRecords py p content = .ok records ∧ record ∈ records ∧
    (staticFailureReason py now record).1 = reason ∧ harmless reason = false

/-- The last things reported are a receipt for this file name, accepted at `now`, and the file with the
digest that the receipt names. -/
def Condemned (past : List Event) (p : Path) (now : ℚ) (reason : Str) : Prop :=
  ∃ front receipt f name, p = cfg.authDir ++ [name] ∧
    past = front ++ [.receipt receipt now ⟨name.text, py.sha256 f.bytes, reason⟩, .hashed p f]

/-- The last thing reported is the file, with the digest that it had for the probes; and the probe of
every account that the run has read at `p` found it dead. -/
def ProbedAsDead (past : List Event) (p : Path) : Prop :=
  ∃ front f probed reads opener clock, past = front ++ [.hashed p f] ∧
    Event.hashed p probed ∈ front ∧ py.sha256 probed.bytes = py.sha256 f.bytes ∧
    (∀ q content, (q, content) ∈ reads → Event.context q content ∈ front) ∧
    (∃ x ∈ authContexts py cfg.authDir reads, x.path = p) ∧
    ∀ x ∈ authContexts py cfg.authDir reads, x.path = p →
      ∃ result, ProbedDead py opener clock x result

/-- What a run must have reported before it takes the file at `p`. -/
def Justified (past : List Event) (p : Path) : Cause → Prop
  | .static now reason => StaticallyDead py past p now reason
  | .runtime now reason => Condemned cfg py past p now reason
  | .probe _ => ProbedAsDead cfg py past p

/-! ### The rule -/

/-- What an event says of the state it was reported in, and of the past of its run. -/
def Allowed (past : List Event) (w : World) : Event → Prop
  | .scanned p content => readAuthJson w p = .ok content
  | .context p content => readAuthJson w p = .ok content
  | .receipt p now failure => failureReceipt py now (entryAt w p) = .ok (some failure)
  | .hashed p f => safeFile w p = some f
  | .moved p name f cause => cfg.authDir <+: p ∧ fileAt w p = some f ∧
      QuarantineRuns.archived cfg w name = none ∧ Justified cfg py past p cause
  | .unlinked _ => True
  | .wrote _ => False

/-- What is left of a file after an event. -/
def fileAfter (event : Option Event) (q : Path) (file : Option File) : Option File :=
  match event with
  | some (.moved p _ _ _) => if q = p then none else file
  | _ => file

/-- The credentials of the archive after an event. -/
def archiveAfter (event : Option Event) (store : FileName → Option File) :
    FileName → Option File :=
  match event with
  | some (.moved _ name f _) => Function.update store name (some f)
  | _ => store

/-- What an access of a run may do. -/
structure Keeps (past : List Event) (w w' : World) (event : Option Event) : Prop where
  auth : ∀ q, cfg.authDir <+: q → fileAt w' q = fileAfter event q (fileAt w q)
  archive : QuarantineRuns.archived cfg w' = archiveAfter event (QuarantineRuns.archived cfg w)
  allowed : ∀ e, event = some e → Allowed cfg py past w e

/-- The rule of the runs. -/
def ArchiveRule : Rule World Event := fun past w w' event => Keeps cfg py past w w' event

end

/-! ### The names of the files taken -/

/-- The three ways to archive. -/
inductive Kind where
  | static
  | runtime
  | probe
deriving DecidableEq

/-- The way a cause belongs to. -/
def kindOf : Cause → Kind
  | .static _ _ => .static
  | .runtime _ _ => .runtime
  | .probe _ => .probe

/-- The name of a file that was taken in some way. -/
def takenName (kind : Kind) : Event → Option Str
  | .moved p _ _ cause => if kindOf cause = kind then some (lastName p) else none
  | _ => none

/-- The names of the files that were taken in some way. -/
def takenNames (kind : Kind) (events : List Event) : List Str := events.filterMap (takenName kind)

theorem takenNames_append (kind : Kind) (es es' : List Event) :
    takenNames kind (es ++ es') = takenNames kind es ++ takenNames kind es' :=
  List.filterMap_append

/-- The names of all files that were taken. -/
def takenFiles (events : List Event) : List Str :=
  events.filterMap fun event => match event with
    | .moved p _ _ _ => some (lastName p)
    | _ => none

/-- Nothing was taken. -/
def TookNone (events : List Event) : Prop := ∀ kind, takenNames kind events = []

theorem TookNone.append {es es' : List Event} (h : TookNone es) (h' : TookNone es') :
    TookNone (es ++ es') := fun kind => by rw [takenNames_append, h kind, h' kind]; rfl

theorem TookNone.flatten {parts : List (List Event)} (h : ∀ es ∈ parts, TookNone es) :
    TookNone parts.flatten := by
  induction parts with
  | nil => exact fun _ => rfl
  | cons es parts ih =>
    rw [List.flatten_cons]
    exact (h es List.mem_cons_self).append (ih fun es' h' => h es' (List.mem_cons_of_mem _ h'))

/-- The files with these names were taken, in this way. -/
def TookOnly (kind : Kind) (names : List Str) (events : List Event) : Prop :=
  ∀ k, takenNames k events = if k = kind then names else []

theorem TookNone.only {es : List Event} (h : TookNone es) (kind : Kind) : TookOnly kind [] es :=
  fun k => by rw [h k, ite_self]

theorem TookOnly.append {kind : Kind} {names names' : List Str} {es es' : List Event}
    (h : TookOnly kind names es) (h' : TookOnly kind names' es') :
    TookOnly kind (names ++ names') (es ++ es') := by
  intro k
  rw [takenNames_append, h k, h' k]
  split_ifs
  · rfl
  · rfl

/-- One file that was taken. -/
theorem tookOnly_moved (p : Path) (name : FileName) (f : File) (cause : Cause) :
    TookOnly (kindOf cause) [lastName p] [.moved p name f cause] := by
  intro k
  rw [takenNames, List.filterMap_cons, takenName]
  split_ifs with h1 h2 h3
  · rfl
  · exact absurd h1.symm h2
  · exact absurd h3.symm h1
  · rfl

/-- The parts of a loop. -/
theorem TookOnly.flatten {β : Type} {kind : Kind} {name : β → Option Str} :
    ∀ {parts : List (List Event × β)},
      (∀ part ∈ parts, TookOnly kind (name part.2).toList part.1) →
      TookOnly kind ((parts.map Prod.snd).filterMap name) (parts.map Prod.fst).flatten
  | [], _ => TookNone.only (fun _ => rfl) kind
  | part :: parts, h => by
    have hrest := TookOnly.flatten fun part' h' => h part' (List.mem_cons_of_mem _ h')
    have hall := (h part List.mem_cons_self).append hrest
    rw [List.map_cons, List.map_cons, List.flatten_cons, List.filterMap_cons]
    rcases hn : name part.2 with _ | n
    · rw [hn] at hall; exact hall
    · rw [hn] at hall; exact hall

variable {cfg : Config} {py : Py} {past : List Event}

/-! ### Accesses that take nothing -/

/-- An access that leaves the credentials and the archive alone, and reports what it sees. -/
theorem keeps_of_same {w w' : World} {event : Option Event}
    (hauth : ∀ q, cfg.authDir <+: q → fileAt w' q = fileAt w q)
    (harchive : QuarantineRuns.archived cfg w' = QuarantineRuns.archived cfg w)
    (htook : TookNone event.toList) (hallowed : ∀ e, event = some e → Allowed cfg py past w e) :
    Keeps cfg py past w w' event := by
  have hnot : ∀ p name f cause, event ≠ some (.moved p name f cause) := by
    rintro p name f cause rfl
    have := htook (kindOf cause)
    rw [Option.toList_some, takenNames, List.filterMap_cons, takenName, if_pos rfl] at this
    cases this
  have hfile : ∀ q file, fileAfter event q file = file := by
    intro q file
    unfold fileAfter
    split
    · next p name f cause => exact absurd rfl (hnot p name f cause)
    · rfl
  have hstore : ∀ store, archiveAfter event store = store := by
    intro store
    unfold archiveAfter
    split
    · next p name f cause => exact absurd rfl (hnot p name f cause)
    · rfl
  exact ⟨fun q hq => (hauth q hq).trans (hfile _ _).symm, harchive.trans (hstore _).symm, hallowed⟩

/-- **A look** reports what it is allowed to, and takes nothing. -/
theorem adds_look {α : Type} {note : World → Option Event} {f : World → Except PyError α}
    {P : List Event → Except PyError α → Prop}
    (hnote : ∀ w e, note w = some e → TookNone [e] ∧ Allowed cfg py past w e)
    (hP : ∀ w, P (note w).toList (f w)) : Adds (ArchiveRule cfg py) P past (look note f) := by
  refine adds_atomically fun w => ⟨?_, hP w⟩
  refine keeps_of_same (fun _ _ => rfl) rfl ?_ fun e he => (hnote w e he).2
  rcases hn : note w with _ | e
  · exact fun _ => rfl
  · exact (hnote w e hn).1

/-- A look that reports nothing. -/
theorem adds_quietLook {α : Type} {f : World → Except PyError α} :
    Adds (ArchiveRule cfg py) (Returning fun events a => events = [] ∧ ∃ w, f w = .ok a) past
      (look (fun _ => none) f) := by
  refine adds_look (fun _ _ h => absurd h (by simp)) fun w => ?_
  rcases h : f w with e | a
  · trivial
  · exact ⟨rfl, w, h⟩

/-- Reading a file. -/
theorem adds_readFile {note : Path → AuthRead → Event}
    (hquiet : ∀ path content, TookNone [note path content])
    (hnote : ∀ past path w content, readAuthJson w path = .ok content →
      Allowed cfg py past w (note path content)) (path : Path) :
    Adds (ArchiveRule cfg py) (Returning fun events found => found.1 = path ∧
      events = [note path found.2]) past (readFile note path) := by
  refine adds_look (fun w e he => ?_) fun w => ?_
  · rcases hread : readAuthJson w path with err | content
    · rw [hread] at he; exact absurd he (by simp)
    · rw [hread] at he
      obtain rfl := Option.some.inj he
      exact ⟨hquiet path content, hnote past path w content hread⟩
  · rcases readAuthJson w path with err | content
    · trivial
    · exact ⟨rfl, rfl⟩

/-- Reading files, one after the other. -/
theorem adds_readFiles {note : Path → AuthRead → Event}
    (hquiet : ∀ path content, TookNone [note path content])
    (hnote : ∀ past path w content, readAuthJson w path = .ok content →
      Allowed cfg py past w (note path content)) (paths : List Path) :
    Adds (ArchiveRule cfg py) (Returning fun events reads => TookNone events ∧
      events = reads.map fun found => note found.1 found.2) past
      (each (readFile note) paths) := by
  have hloop := @adds_each _ _ _ _ _ (ArchiveRule cfg py)
    (fun path events (found : Path × AuthRead) => found.1 = path ∧ events = [note path found.2])
    (readFile note) paths past fun path _ _ => adds_readFile hquiet hnote path
  refine hloop.mono fun events r hr => ?_
  rcases r with e | reads
  · trivial
  obtain ⟨parts, rfl, rfl, hparts⟩ := hr
  have hmap : (parts.map Prod.fst).flatten = (parts.map Prod.snd).map fun found =>
      note found.1 found.2 := by
    clear hloop
    induction hparts with
    | nil => rfl
    | @cons path part as ps hpart _ ih =>
      obtain ⟨hpath, hevents⟩ := hpart
      rw [List.map_cons, List.flatten_cons, List.map_cons, List.map_cons, ih, hevents, hpath]
      rfl
  refine ⟨?_, hmap⟩
  rw [hmap]
  intro kind
  rw [takenNames, List.filterMap_eq_nil_iff]
  intro event hevent
  obtain ⟨found, -, rfl⟩ := List.mem_map.mp hevent
  have := hquiet found.1 found.2 kind
  rw [takenNames, List.filterMap_eq_nil_iff] at this
  exact this _ (by simp)

theorem tookNone_scanned (path : Path) (content : AuthRead) : TookNone [.scanned path content] :=
  fun _ => rfl

theorem tookNone_context (path : Path) (content : AuthRead) : TookNone [.context path content] :=
  fun _ => rfl

theorem TookNone.singleton_append {es : List Event} {e : Event} (h : TookNone [e])
    (h' : TookNone es) : TookNone (e :: es) := h.append h'

/-- **A scan** takes nothing, and has read the file of every record it returns. -/
theorem adds_scan (opts : RunOptions cfg) : Adds (ArchiveRule cfg py) (Returning fun events records =>
    TookNone events ∧ ∀ r ∈ records, ∃ content rs, Event.scanned r.path content ∈ events ∧
      fileRecords py r.path content = .ok rs ∧ r ∈ rs) past (scan py opts) := by
  refine adds_quietLook.andThen fun events paths h => ?_
  obtain ⟨rfl, -⟩ := h
  refine (adds_readFiles tookNone_scanned (fun _ _ _ _ h => h) paths).andThen fun events reads h => ?_
  obtain ⟨htook, rfl⟩ := h
  refine adds_lift ?_
  rcases hscan : scanAuthRecords py reads with e | records
  · trivial
  refine ⟨by simpa using htook, fun r hr => ?_⟩
  obtain ⟨content, rs, hread, hrs, hmem⟩ := mem_scan hscan hr
  refine ⟨content, rs, ?_, hrs, hmem⟩
  simpa using List.mem_map_of_mem (f := fun found : Path × AuthRead =>
    Event.scanned found.1 found.2) hread

/-- Hashing a file. -/
theorem adds_hashFile (path : Path) : Adds (ArchiveRule cfg py) (Returning fun events digest =>
    TookNone events ∧ ∀ d, digest = some d →
      ∃ f, events = [.hashed path f] ∧ d = py.sha256 f.bytes) past (hashFile py path) := by
  refine adds_look (fun w e he => ?_) fun w => ?_
  · obtain ⟨f, hf, rfl⟩ := Option.map_eq_some_iff.mp he
    exact ⟨fun _ => rfl, hf⟩
  · unfold noteHashed
    rcases safeFile w path with _ | f
    · exact ⟨fun _ => rfl, fun d hd => absurd hd (by simp)⟩
    · exact ⟨fun _ => rfl, fun d hd => ⟨f, rfl, (Option.some.inj hd).symm⟩⟩

/-! ### Taking a file -/

/-- **A quarantine** that is justified follows the rule; when it returns, it has taken its file. -/
theorem adds_quarantine (call : Call) {path : Path} {cause : Cause}
    (hjust : Justified cfg py past path cause) :
    Adds (ArchiveRule cfg py) (Returning fun events _ => ∃ name f,
      events = [.moved path name f cause]) past (Archivers.quarantine py cfg call path cause) := by
  refine adds_atomically fun w => ?_
  rcases quarantine_taken cfg py (call.quarantineFails path) w path cause.text call.nowText with
    ⟨⟨e, he⟩, hsame, hstays⟩ | ⟨f, htaken⟩
  · -- it has raised, and nothing is reported
    have hnote : noteMoved cfg path cause w (quarantineAuthRecord cfg py true
        (call.quarantineFails path) path cause.text call.nowText w).2 = none := by
      unfold noteMoved
      rcases hf : fileAt w path with _ | f
      · rfl
      · rw [hstays f hf]
    rw [hnote, he]
    exact ⟨keeps_of_same (fun q hq => hsame.auth hq)
      hsame.archived (fun _ => rfl) (fun _ h => absurd h (by simp)), trivial⟩
  · have hnote : noteMoved cfg path cause w (quarantineAuthRecord cfg py true
        (call.quarantineFails path) path cause.text call.nowText w).2 =
        some (.moved path (archiveNameOf cfg w path) f cause) := by
      unfold noteMoved
      rw [htaken.found, htaken.auth htaken.below, if_pos rfl]
    rw [hnote]
    refine ⟨⟨fun q hq => htaken.auth hq, htaken.archived, fun e he => ?_⟩, ?_⟩
    · obtain rfl := Option.some.inj he
      exact ⟨htaken.below, htaken.found, htaken.free, hjust⟩
    · rcases (quarantineAuthRecord cfg py true (call.quarantineFails path) path cause.text
        call.nowText w).1 with e | target
      · trivial
      · exact ⟨_, _, rfl⟩

/-! ### `archive_static_failures` -/

/-- The file of the record was read by the scan. -/
def Scanned (py : Py) (past : List Event) (record : AuthRecord) : Prop :=
  ∃ content records, Event.scanned record.path content ∈ past ∧
    fileRecords py record.path content = .ok records ∧ record ∈ records

theorem Scanned.mono {record : AuthRecord} (h : Scanned py past record) (more : List Event) :
    Scanned py (past ++ more) record := by
  obtain ⟨content, rs, hmem, hrs⟩ := h
  exact ⟨content, rs, List.mem_append_left _ hmem, hrs⟩

/-- The names of the files that some actions moved. -/
def actionNames (actions : List Action) : List Str :=
  actions.filterMap fun action => action.target.map fun _ => lastName action.record.path

/-- One record. -/
theorem adds_refreshRecord (opts : RunOptions cfg) {record : AuthRecord} (c : Collected)
    (hscanned : Scanned py past record) :
    Adds (ArchiveRule cfg py) (Returning fun events c' => ∃ names,
      TookOnly .static names events ∧ actionNames c'.actions = actionNames c.actions ++ names) past
      (refreshRecord py opts record c) := by
  unfold refreshRecord
  dsimp only
  split_ifs with hharmless
  · exact adds_return ⟨[], TookNone.only (fun _ => rfl) _, (List.append_nil _).symm⟩
  have hdead : Justified cfg py past record.path
      (.static opts.static.now (staticFailureReason py opts.static.now record).1) := by
    obtain ⟨content, rs, hmem, hrs, hr⟩ := hscanned
    exact ⟨content, rs, record, hmem, hrs, hr, rfl, by simpa using hharmless⟩
  refine (adds_quarantine opts.static hdead).andThen fun events target h => ?_
  obtain ⟨name, f, rfl⟩ := h
  refine adds_return ⟨[lastName record.path], ?_, ?_⟩
  · rw [List.append_nil]
    exact tookOnly_moved _ _ _ _
  · rw [actionNames, List.filterMap_append]
    rfl

/-- The loop over the records. -/
theorem adds_refreshLoop (opts : RunOptions cfg) : ∀ (records : List AuthRecord) (c : Collected)
    {past : List Event}, (∀ record ∈ records, Scanned py past record) →
      Adds (ArchiveRule cfg py) (Returning fun events c' => ∃ names,
        TookOnly .static names events ∧ actionNames c'.actions = actionNames c.actions ++ names) past
        (refreshLoop py opts records c)
  | [], c, past, _ => adds_return ⟨[], TookNone.only (fun _ => rfl) _, (List.append_nil _).symm⟩
  | record :: rest, c, past, h => by
    refine (adds_refreshRecord opts c (h record List.mem_cons_self)).andThen fun events c1 h1 => ?_
    obtain ⟨names, htook, hnames⟩ := h1
    refine (adds_refreshLoop opts rest c1 fun record' h' =>
      (h record' (List.mem_cons_of_mem _ h')).mono events).mono fun more r hr => ?_
    rcases r with e | c2
    · trivial
    obtain ⟨names', htook', hnames'⟩ := hr
    exact ⟨names ++ names', htook.append htook', by rw [hnames', hnames, List.append_assoc]⟩

/-- A file below neither directory. -/
theorem keeps_written {w : World} {path : Path} (hauth : ¬ cfg.authDir <+: path)
    (harchive : ¬ cfg.archiveDir <+: path) (node : Node) (t : Option File) :
    Keeps cfg py past w { w with nodes := w.nodes.insert path node, temporary := t } none := by
  refine keeps_of_same (fun q hq => ?_) ?_ (fun _ => rfl) fun _ h => absurd h (by simp)
  · have hne : q ≠ path := by
      rintro rfl
      exact hauth hq
    exact fileAt_insert_ne w hne node
  · funext n
    have hne : cfg.inArchive n ≠ path := by
      rintro rfl
      exact harchive (List.prefix_append _ _)
    rw [QuarantineRuns.archived, QuarantineRuns.archived]
    exact congrArg _ (fileAt_insert_ne w hne node)

/-- Writing the state file. -/
theorem adds_writeState (places : Places cfg) (fails : WriteStep → Bool) (document : Dict) :
    Adds (ArchiveRule cfg py) (Returning fun events _ => events = []) past
      (atomically Thread.silent (atomicWriteJson py fails places.statePath document)) := by
  refine adds_atomically fun w => ⟨?_, ?_⟩
  · have hsame : ∀ t, Keeps cfg py past w { w with temporary := t } none := fun t =>
      keeps_of_same (fun _ _ => rfl) rfl (fun _ => rfl) fun _ h => absurd h (by simp)
    have hwritten : Keeps cfg py past w (written py places.statePath document w) none :=
      keeps_written places.state.1 places.state.2 _ none
    rcases atomicWriteJson_cases py fails places.statePath document w with
      ⟨hw, -⟩ | ⟨hw, -⟩ | ⟨hw, -⟩ | ⟨hw, -⟩ | ⟨hw, -⟩
    · rw [hw]; exact hwritten
    · rw [hw]; exact hsame w.temporary
    · rw [hw]; exact hsame none
    · rw [hw]; exact hsame none
    · rw [hw]; exact hwritten
  · rcases (atomicWriteJson py fails places.statePath document w).1 with e | u
    · trivial
    · rfl

/-- **What `archive_static_failures` takes** is dead by itself, and named in its result. -/
theorem adds_archiveStaticFailures (opts : RunOptions cfg) :
    Adds (ArchiveRule cfg py) (Returning fun events names => TookOnly .static names events) past
      (archiveStaticFailures py opts) := by
  refine (adds_scan opts).andThen fun events records h => ?_
  obtain ⟨htook, hscanned⟩ := h
  have hrecords : ∀ record ∈ records, Scanned py (past ++ events) record := fun record hr => by
    obtain ⟨content, rs, hmem, hrs⟩ := hscanned record hr
    exact ⟨content, rs, List.mem_append_right _ hmem, hrs⟩
  refine adds_quietLook.andThen fun events1 state h => ?_
  obtain ⟨rfl, -⟩ := h
  refine (adds_refreshLoop opts records _ fun record hr =>
    (hrecords record hr).mono []).andThen fun events2 result h => ?_
  obtain ⟨names, htook2, hnames⟩ := h
  refine (adds_writeState opts.places opts.stateFails _).andThen fun events3 _ h => ?_
  subst h
  refine adds_return ?_
  have hall := (htook.only .static).append (((TookNone.only (fun _ => rfl) .static :
    TookOnly .static [] []).append htook2).append (TookNone.only (fun _ => rfl) .static :
      TookOnly .static [] []))
  have hresult : actionNames result.actions = names := by
    rw [hnames]; rfl
  rw [← hresult] at hall
  show TookOnly .static (actionNames result.actions) _
  simpa using hall

/-! ### `archive_runtime_failures` -/

/-- Reading a receipt. -/
theorem adds_readReceipt (now : ℚ) (path : Path) :
    Adds (ArchiveRule cfg py) (Returning fun events found => TookNone events ∧
      ∀ failure, found = some failure → events = [.receipt path now failure]) past
      (readReceipt py now path) := by
  refine adds_look (fun w e he => ?_) fun w => ?_
  · unfold noteReceipt at he
    rcases hread : failureReceipt py now (entryAt w path) with err | _ | failure
    · rw [hread] at he; exact absurd he (by simp)
    · rw [hread] at he; exact absurd he (by simp)
    · rw [hread] at he
      obtain rfl := Option.some.inj he
      exact ⟨fun _ => rfl, hread⟩
  · unfold noteReceipt
    rcases failureReceipt py now (entryAt w path) with err | _ | failure
    · trivial
    · exact ⟨fun _ => rfl, fun _ h => absurd h (by simp)⟩
    · exact ⟨fun _ => rfl, fun _ h => by rw [Option.some.inj h]; rfl⟩

/-- Deleting a receipt. -/
theorem adds_unlinkReceipt (places : Places cfg) (call : Call) (name : FileName) :
    Adds (ArchiveRule cfg py) (Returning fun events _ => TookNone events) past
      (unlinkReceipt call (places.failureDir ++ [name])) := by
  obtain ⟨hauth, harchive⟩ := places.receipts name
  refine adds_atomically fun w => ?_
  dsimp only [Act.modify_run]
  split_ifs with hfails
  · exact ⟨keeps_of_same (fun _ _ => rfl) rfl (fun _ => rfl) fun _ h => absurd h (by simp),
      fun _ => rfl⟩
  refine ⟨keeps_of_same (fun q hq => ?_) ?_ (fun _ => rfl) fun e he => ?_, fun _ => rfl⟩
  · have hne : q ≠ places.failureDir ++ [name] := by
      rintro rfl
      exact hauth hq
    rw [fileAt, fileAt, Finmap.lookup_erase_ne hne]
  · funext n
    have hne : cfg.inArchive n ≠ places.failureDir ++ [name] := by
      intro he
      exact harchive (he ▸ List.prefix_append _ _)
    rw [QuarantineRuns.archived, QuarantineRuns.archived, fileAt, fileAt,
      Finmap.lookup_erase_ne hne]
  · obtain rfl := Option.some.inj he
    trivial

/-- The one record of a name is that of the file with this name in the auth directory. -/
theorem recordsNamed_path {records : List AuthRecord} {name : Str} {record : AuthRecord}
    (h : record ∈ recordsNamed cfg records name) :
    ∃ n : FileName, n.text = name ∧ record.path = cfg.authDir ++ [n] := by
  obtain ⟨-, hr⟩ := List.mem_filter.mp h
  rw [Bool.and_eq_true, Bool.and_eq_true, decide_eq_true_eq, decide_eq_true_eq,
    decide_eq_true_eq] at hr
  obtain ⟨⟨hne, hdir⟩, hname⟩ := hr
  refine ⟨record.path.getLast hne, ?_, ?_⟩
  · rw [← hname, lastName, List.getLast?_eq_some_getLast hne]
    rfl
  · rw [← hdir, List.dropLast_concat_getLast]

/-- An accepted receipt, which has just been reported. -/
theorem adds_archiveReceipt (places : Places cfg) (call : Call) (records : List AuthRecord)
    (name : FileName) (failure : Failure) :
    Adds (ArchiveRule cfg py) (Returning fun events outcome =>
      TookOnly .runtime (Outcome.name? outcome).toList events)
      (past ++ [.receipt (places.failureDir ++ [name]) call.now failure])
      (archiveReceipt py cfg call records (places.failureDir ++ [name]) failure) := by
  unfold archiveReceipt
  have hnone : ∀ past', Adds (ArchiveRule cfg py) (Returning fun events outcome =>
      TookOnly .runtime (Outcome.name? outcome).toList events) past'
      (pure .stale : Program Outcome) := fun _ => adds_return (TookNone.only (fun _ => rfl) _)
  split
  swap
  · exact hnone _
  next record hrecord =>
  have hnamed : record ∈ recordsNamed cfg records failure.authFile := by
    rw [hrecord]; exact List.mem_singleton_self _
  obtain ⟨n, hn, hpath⟩ := recordsNamed_path hnamed
  refine (adds_hashFile record.path).andThen fun events digest h => ?_
  obtain ⟨htook, hdigest⟩ := h
  split_ifs with hsame
  · exact adds_return (by simpa [Outcome.name?] using htook.only .runtime)
  rw [not_not] at hsame
  obtain ⟨f, rfl, hf⟩ := hdigest _ hsame
  have hjust : Justified cfg py ((past ++ [.receipt (places.failureDir ++ [name]) call.now failure]) ++
      [.hashed record.path f]) record.path (.runtime call.now failure.reason) := by
    refine ⟨past, places.failureDir ++ [name], f, n, hpath, ?_⟩
    rw [hn, ← hf]
    simp
  refine (adds_quarantine call hjust).andThen fun events target h => ?_
  obtain ⟨archiveName, g, rfl⟩ := h
  refine (adds_unlinkReceipt places call name).andThen fun events _ hunlink => adds_return ?_
  have hmoved := tookOnly_moved record.path archiveName g (.runtime call.now failure.reason)
  have hall := (htook.only .runtime).append (hmoved.append (hunlink.only .runtime))
  show TookOnly .runtime [lastName record.path] _
  simpa using hall

/-- **What a receipt takes away** is the file that it condemns. -/
theorem adds_takeReceipt (places : Places cfg) (call : Call) (records : List AuthRecord)
    (name : FileName) (index : ℕ) :
    Adds (ArchiveRule cfg py) (Returning fun events outcome =>
      TookOnly .runtime (Outcome.name? outcome).toList events) past
      (takeReceipt py cfg call records (places.failureDir ++ [name], index)) := by
  unfold takeReceipt
  split_ifs
  · exact adds_return (TookNone.only (fun _ => rfl) _)
  refine (adds_readReceipt call.now _).andThen fun events found h => ?_
  obtain ⟨htook, hfound⟩ := h
  rcases found with _ | failure
  · exact adds_return (by simpa [Outcome.name?] using htook.only .runtime)
  have hevents := hfound failure rfl
  subst hevents
  refine (adds_archiveReceipt places call records name failure).mono fun more r hr => ?_
  rcases r with e | outcome
  · trivial
  · exact (htook.only .runtime).append hr

theorem mem_receiptPaths {dir path : Path} {w : World} (h : path ∈ receiptPaths dir w) :
    ∃ n : FileName, path = dir ++ [n] := by
  obtain ⟨text, -, hn⟩ := List.mem_filterMap.mp h
  obtain ⟨n, -, rfl⟩ := Option.map_eq_some_iff.mp hn
  exact ⟨n, rfl⟩

/-- **What `archive_runtime_failures` takes** is condemned by a receipt, and named in its result; every
receipt is counted once. -/
theorem adds_archiveRuntimeFailures (opts : RunOptions cfg) (call : Call) :
    Adds (ArchiveRule cfg py) (Returning fun events result => TookOnly .runtime result.1 events) past
      (archiveRuntimeFailures py opts call) := by
  unfold archiveRuntimeFailures
  refine adds_quietLook.andThen fun events isDir h => ?_
  obtain ⟨rfl, -⟩ := h
  split_ifs
  · exact adds_return (TookNone.only (fun _ => rfl) _)
  refine (adds_scan opts).andThen fun events records h => ?_
  refine adds_quietLook.andThen fun events1 paths h1 => ?_
  obtain ⟨rfl, w, hpaths⟩ := h1
  have hloop := @adds_each _ _ _ _ _ (ArchiveRule cfg py)
    (fun _ events outcome => TookOnly .runtime (Outcome.name? outcome).toList events)
    (takeReceipt py cfg call records) paths.zipIdx ((past ++ [] ++ events) ++ []) ?_
  · refine hloop.andThen fun events2 outcomes h2 => adds_return ?_
    obtain ⟨parts, rfl, rfl, hparts⟩ := h2
    have htook : TookOnly .runtime ((parts.map Prod.snd).filterMap Outcome.name?)
        (parts.map Prod.fst).flatten := TookOnly.flatten fun part hpart => by
      obtain ⟨i, hi, rfl⟩ := List.getElem_of_mem hpart
      exact hparts.get (by rw [hparts.length_eq]; exact hi) hi
    have hall := (h.1.only .runtime).append htook
    show TookOnly .runtime ((parts.map Prod.snd).filterMap Outcome.name?) _
    simpa using hall
  · rintro ⟨path, index⟩ hmem more
    have hpath : path ∈ receiptPaths opts.places.failureDir w := by
      rw [Except.ok.inj hpaths]
      exact (List.mem_zipIdx' hmem).2 ▸ List.getElem_mem _
    obtain ⟨name, rfl⟩ := mem_receiptPaths hpath
    exact adds_takeReceipt opts.places call records name index

/-! ### `probe_accounts` and `archive_permanent_probe_failures` -/

/-- The file of the candidate was hashed, and every account that was read at its path is dead. -/
def FoundDead (cfg : Config) (py : Py) (past : List Event) (c : Candidate) : Prop :=
  ∃ probed reads opener clock, Event.hashed c.path probed ∈ past ∧
    py.sha256 probed.bytes = c.authSha256 ∧
    (∀ q content, (q, content) ∈ reads → Event.context q content ∈ past) ∧
    (∃ x ∈ authContexts py cfg.authDir reads, x.path = c.path) ∧
    ∀ x ∈ authContexts py cfg.authDir reads, x.path = c.path →
      ∃ result, ProbedDead py opener clock x result

theorem FoundDead.mono {c : Candidate} (h : FoundDead cfg py past c) (more : List Event) :
    FoundDead cfg py (past ++ more) c := by
  obtain ⟨probed, reads, opener, clock, hhashed, hsame, hreads, hall⟩ := h
  exact ⟨probed, reads, opener, clock, List.mem_append_left _ hhashed, hsame,
    fun q content hq => List.mem_append_left _ (hreads q content hq), hall⟩

/-- Hashing the files of the contexts. -/
theorem adds_hashFiles (paths : List Path) : Adds (ArchiveRule cfg py) (Returning fun events digests =>
    TookNone events ∧ digests.length = paths.length ∧
      ∀ (i : ℕ) d p, digests[i]? = some (some d) → paths[i]? = some p →
        ∃ f, Event.hashed p f ∈ events ∧ d = py.sha256 f.bytes) past
    (each (hashFile py) paths) := by
  have hloop := @adds_each _ _ _ _ _ (ArchiveRule cfg py)
    (fun path events (digest : Option Str) => TookNone events ∧ ∀ d, digest = some d →
      ∃ f, events = [.hashed path f] ∧ d = py.sha256 f.bytes) (hashFile py) paths past
    fun path _ _ => adds_hashFile path
  refine hloop.mono fun events r hr => ?_
  rcases r with e | digests
  · trivial
  obtain ⟨parts, rfl, rfl, hparts⟩ := hr
  have hget : ∀ (i : ℕ) (part : List Event × Option Str) p, parts[i]? = some part →
      paths[i]? = some p → TookNone part.1 ∧ ∀ d, part.2 = some d →
        ∃ f, part.1 = [.hashed p f] ∧ d = py.sha256 f.bytes := by
    intro i part p hpart hp
    obtain ⟨hi, rfl⟩ := List.getElem?_eq_some_iff.mp hpart
    obtain ⟨hi', rfl⟩ := List.getElem?_eq_some_iff.mp hp
    exact hparts.get hi' hi
  refine ⟨TookNone.flatten fun es hes => ?_, ?_, fun i d p hd hp => ?_⟩
  · obtain ⟨part, hpart, rfl⟩ := List.mem_map.mp hes
    obtain ⟨i, hi, rfl⟩ := List.getElem_of_mem hpart
    have hi' : i < paths.length := by rw [hparts.length_eq]; exact hi
    exact (hget i _ _ (List.getElem?_eq_getElem hi) (List.getElem?_eq_getElem hi')).1
  · rw [List.length_map, hparts.length_eq]
  · rw [List.getElem?_map, Option.map_eq_some_iff] at hd
    obtain ⟨part, hpart, hd⟩ := hd
    obtain ⟨f, hevents, hf⟩ := (hget i part p hpart hp).2 d hd
    refine ⟨f, List.mem_flatten.mpr ⟨part.1, List.mem_map_of_mem (List.mem_of_getElem? hpart), ?_⟩, hf⟩
    rw [hevents]
    exact List.mem_singleton_self _

/-- **The candidates of the probes** have been found dead, and nothing has been taken. -/
theorem adds_probeAccounts (opts : RunOptions cfg) :
    Adds (ArchiveRule cfg py) (Returning fun events result =>
      TookNone events ∧ ∀ c ∈ result.2, FoundDead cfg py events c) past (probeAccounts py opts) := by
  unfold probeAccounts
  refine adds_quietLook.andThen fun events paths h => ?_
  obtain ⟨rfl, -⟩ := h
  refine (adds_readFiles tookNone_context (fun _ _ _ _ h => h) paths).andThen fun events reads h => ?_
  obtain ⟨htook, rfl⟩ := h
  dsimp only
  refine (adds_hashFiles _).andThen fun events digests h => ?_
  obtain ⟨htook1, hlen, hhashed⟩ := h
  refine adds_lift ?_
  unfold Returning
  split
  swap
  · trivial
  next result hassess =>
  have htookAll : TookNone ([] ++ (reads.map (fun found => Event.context found.1 found.2) ++
      (events ++ []))) := by
    simpa using htook.append htook1
  refine ⟨htookAll, fun c hc => ?_⟩
  obtain ⟨hreach, probes, hprobes, hcand⟩ := Sweep.assess_ok hassess hc
  rw [if_pos hreach] at hlen hhashed
  rw [List.length_map] at hlen
  obtain ⟨hne, ⟨x, hx, hxp⟩, hall⟩ := Sweep.candidate_dead hprobes
    (by rw [List.length_map, hlen]) hcand
  -- the digest of one of its contexts was that of a file
  obtain ⟨i, hi, rfl⟩ := List.getElem_of_mem hx
  obtain ⟨hdigest, -⟩ := hall i _ (List.getElem?_eq_getElem hi) hxp
  rw [List.getElem?_map, Option.map_eq_some_iff] at hdigest
  obtain ⟨d, hd, hdc⟩ := hdigest
  rcases d with _ | d
  · exact absurd hdc.symm hne
  obtain ⟨f, hf, hdf⟩ := hhashed i d c.path hd (by
    rw [List.getElem?_map, List.getElem?_eq_getElem hi, ← hxp]; rfl)
  have hdc' : d = c.authSha256 := hdc
  refine ⟨f, reads, opts.opener, opts.clock, ?_, by rw [← hdf, hdc'], fun q content hq => ?_,
    ⟨_, hx, hxp⟩, fun y hy hyp => ?_⟩
  · simp [hf]
  · have := List.mem_map_of_mem (f := fun found : Path × AuthRead =>
      Event.context found.1 found.2) hq
    simp only [List.nil_append, List.append_nil, List.mem_append]
    exact .inl this
  · obtain ⟨j, hj, rfl⟩ := List.getElem_of_mem hy
    obtain ⟨-, result, -, hdead⟩ := hall j _ (List.getElem?_eq_getElem hj) hyp
    exact ⟨result, hdead⟩

/-- One candidate. -/
theorem adds_archiveCandidate (call : Call) (records : List AuthRecord) {c : Candidate}
    (hdead : FoundDead cfg py past c) :
    Adds (ArchiveRule cfg py) (Returning fun events name => TookOnly .probe name.toList events) past
      (archiveCandidate py cfg call records c) := by
  unfold archiveCandidate
  split_ifs
  · exact adds_return (TookNone.only (fun _ => rfl) _)
  refine adds_quietLook.andThen fun events there h => ?_
  obtain ⟨rfl, -⟩ := h
  split_ifs
  · exact adds_return (TookNone.only (fun _ => rfl) _)
  refine (adds_hashFile c.path).andThen fun events digest h => ?_
  obtain ⟨htook, hdigest⟩ := h
  split_ifs with hsame
  · exact adds_return (by simpa using htook.only .probe)
  rw [not_or, not_not] at hsame
  obtain ⟨f, rfl, hf⟩ := hdigest _ hsame.1
  have hjust : Justified cfg py ((past ++ []) ++ [.hashed c.path f]) c.path (.probe c.reason) := by
    obtain ⟨probed, reads, opener, clock, hhashed, hsha, hreads, hall⟩ := hdead
    refine ⟨past ++ [], f, probed, reads, opener, clock, rfl, by simpa using hhashed,
      hsha.trans hf, fun q content hq => by simpa using hreads q content hq, hall⟩
  refine (adds_quarantine call hjust).andThen fun events target h => ?_
  obtain ⟨name, g, rfl⟩ := h
  refine adds_return ?_
  have hall := (htook.only .probe).append (tookOnly_moved c.path name g (.probe c.reason))
  show TookOnly .probe [lastName c.path] _
  simpa using hall

/-- **What `archive_permanent_probe_failures` takes** was found dead, and is named in its result. -/
theorem adds_archiveProbed (opts : RunOptions cfg) (candidates : List Candidate)
    (hdead : ∀ c ∈ candidates, FoundDead cfg py past c) :
    Adds (ArchiveRule cfg py) (Returning fun events result => TookOnly .probe result.1 events) past
      (archivePermanentProbeFailures py opts candidates) := by
  unfold archivePermanentProbeFailures
  refine (adds_scan opts).andThen fun events records h => ?_
  have hloop := @adds_each _ _ _ _ _ (ArchiveRule cfg py)
    (fun _ events (name : Option Str) => TookOnly .probe name.toList events)
    (archiveCandidate py cfg opts.probed records)
    (candidates.insertionSort fun a b => pathText a.path ≤ pathText b.path) (past ++ events) ?_
  · refine hloop.andThen fun events1 outcomes h1 => adds_return ?_
    obtain ⟨parts, rfl, rfl, hparts⟩ := h1
    have htook : TookOnly .probe ((parts.map Prod.snd).filterMap id)
        (parts.map Prod.fst).flatten := TookOnly.flatten fun part hpart => by
      obtain ⟨i, hi, rfl⟩ := List.getElem_of_mem hpart
      exact hparts.get (by rw [hparts.length_eq]; exact hi) hi
    have hall := (h.1.only .probe).append htook
    show TookOnly .probe ((parts.map Prod.snd).filterMap id) _
    simpa using hall
  · intro c hc more
    rw [List.mem_insertionSort] at hc
    exact adds_archiveCandidate opts.probed records (((hdead c hc).mono events).mono more)

end Cloudx.Cloud.ArchiverRules

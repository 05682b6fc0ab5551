import Cloudx.Cloud.Importer
import Cloudx.Lib.Rollback

/-! # What the cloud importer writes

`import_records`: the normalised records, the check that Agent Identities are supported, and the
transaction. Each record has a target named by its fingerprint. The plan is made of the targets as they
are; a target with the bytes of its record is skipped, and one with other bytes is only replaced with
`force`. A write that fails takes the earlier ones back, the last first.

The dry run ends with the plan (`transaction`). -/

namespace Cloudx.Cloud.ImportRecords

open Cloudx.Lib.Memo Cloudx.Lib.Store Cloudx.Lib.Rollback Cloudx.Lib.Fault
open Cloudx.Python.Text Cloudx.Python.Value Cloudx.Python.Dump
open Cloudx.Shared Cloudx.Shared.Source Cloudx.Cloud.Importer

/-- The steps of the transaction that can fail: the lock, the reading of a target, a write, and a write
of the rollback. -/
inductive Step where
  | lock
  | inspect (i : ℕ)
  | write (i : ℕ)
  | restore (i : ℕ)
deriving DecidableEq

/-- The auth directory with its regular files. -/
abbrev AuthDir := Found FileName File

/-- The numbers of records written and skipped. -/
structure Counts where
  written : ℕ
  skipped : ℕ
deriving DecidableEq

/-- `ImportResult` -/
structure ImportResult where
  requestId : Str
  requestHash : Str
  status : Str
  dryRun : Bool
  counts : Counts
deriving DecidableEq

/-- The name of the target with this fingerprint. -/
def targetName (print : Str) : Str := lit "codex-" ++ print.take 24 ++ lit ".json"

/-- `_target` -/
def target (py : Py) (record : Dict) : Except PyError FileName := do
  let print ← fingerprint py record
  match FileName.ofStr? (targetName print) with
  | some name => return name
  | none => .error .os

/-- `_serialized` -/
def serialized (py : Py) (record : Dict) : File := jsonFile py true record

variable (py : Py) (fails : Step → Bool) (force : Bool)

/-- The plan for the records from number `i` on: how many are skipped, and the writes. -/
def planFrom (auth : AuthDir) :
    ℕ → List Dict → Except PyError (ℕ × List (Write FileName File))
  | _, [] => .ok (0, [])
  | i, record :: rest => do
    let name ← target py record
    let data := serialized py record
    let previous := auth.files.lookup name
    if name ∈ auth.others then
      .error (rejected "unsafe_target" "an import target is not a regular file")
    else if fails (.inspect i) then .error .os
    else if previous.map File.bytes = some data.bytes then
      let more ← planFrom auth (i + 1) rest
      return (more.1 + 1, more.2)
    else if previous.isSome && !force then
      .error (rejected "target_exists" "an import target already exists; use --force to replace it")
    else
      let more ← planFrom auth (i + 1) rest
      return (more.1, ⟨name, previous, data⟩ :: more.2)

/-- `ImportRejected("write_failed", …)` -/
def writeFailed : PyError :=
  rejected "write_failed" "credential transaction failed and was rolled back"

/-- The transaction for a plan. -/
def carryOut (skipped : ℕ) (plan : List (Write FileName File)) (dir : Dir FileName File) :
    Except PyError Counts × Dir FileName File :=
  let written := perform (fun i => fails (.write i)) 0 plan dir
  if written.1 then (.ok ⟨plan.length, skipped⟩, written.2.2)
  else (.error writeFailed, (revert (fun i => fails (.restore i)) 0 written.2.1 written.2.2).2)

/-- The part of `import_records` under the import lock. -/
def underLock (dry : Bool) (records : List Dict) (auth : AuthDir) : Except PyError Counts × AuthDir :=
  if fails .lock then (.error .os, auth.holding auth.files)
  else match planFrom py fails force auth 0 records with
    | .error e => (.error e, auth.holding auth.files)
    | .ok (skipped, plan) =>
      if dry then (.ok ⟨plan.length, skipped⟩, auth.holding auth.files)
      else
        let r := carryOut fails skipped plan auth.files
        (r.1, auth.holding r.2)

/-- `import_records` of normalised records whose capability is attested. -/
def storeRecords (dry : Bool) (records : List Dict) (auth : AuthDir) :
    Except PyError Counts × AuthDir :=
  match auth with
  | .blocked => (.error .os, .blocked)
  | auth => underLock py fails force dry records auth

/-- `re.fullmatch(r"[a-z0-9_]{1,64}", reason)` -/
def isSafeReason (reason : Str) : Bool :=
  1 ≤ reason.length && reason.length ≤ 64 &&
    reason.all fun c => (97 ≤ c && c ≤ 122) || (48 ≤ c && c ≤ 57) || c == 95

/-- `EXTERNAL_CAPABILITY` -/
def externalCapability : Str := lit "codex-agent-identity-v1"

/-- The check of `capability_checker`, whose answer is `capability`; without a checker there is none. -/
def checkCapability (capability : Option Str) (records : List Dict) : Except PyError Unit :=
  if records.any (AgentIdentity.isAgentIdentity py) then
    let reason := capability.getD (lit "attestation_unavailable")
    if reason = [] then .ok ()
    else .error (.refused "external_capability_missing"
      (lit "Agent Identity credentials require hash-bound live cloud CPA capability " ++
        externalCapability ++ lit " (" ++
        (if isSafeReason reason then reason else lit "attestation_failed") ++ lit ")"))
  else .ok ()

/-- `request_identity` and the counts -/
def resultOf (dry : Bool) (raw : Bytes) (counts : Counts) : ImportResult :=
  ⟨(py.sha256 raw).take 16, py.sha256 raw, lit "accepted", dry, counts⟩

/-- `import_records`: the result, what the token endpoint has become, and the auth directory. -/
def importRecords {σ : Type} (dec : Decoder) (ask : Endpoint σ) (capability : Option Str) (dry : Bool)
    (raw : Bytes) (s : σ) (auth : AuthDir) : Except PyError ImportResult × σ × AuthDir :=
  match Importer.normalize py dec ask raw s with
  | (.error e, s') => (.error e, s', auth)
  | (.ok records, s') =>
    match checkCapability py capability records with
    | .error e => (.error e, s', auth)
    | .ok () =>
      let r := storeRecords py fails force dry records auth
      (r.1.map (resultOf py dry raw), s', r.2)

variable {py fails force}

/-! ### The targets -/

/-- Whether a target holds the bytes of its record. -/
def stored (py : Py) (dir : Dir FileName File) (x : FileName × Dict) : Prop :=
  (dir.lookup x.1).map File.bytes = some (serialized py x.2).bytes

instance (dir : Dir FileName File) (x : FileName × Dict) : Decidable (stored py dir x) :=
  inferInstanceAs (Decidable (_ = _))

/-- The write of a target that does not. -/
def writeOf (py : Py) (dir : Dir FileName File) (x : FileName × Dict) : Write FileName File :=
  ⟨x.1, dir.lookup x.1, serialized py x.2⟩

/-- **What a plan is**: the targets of all records, those that hold other bytes among them, and without
`force` nothing is there for these. -/
structure Planned (py : Py) (force : Bool) (dir : Dir FileName File) (records : List Dict)
    (skipped : ℕ) (plan : List (Write FileName File)) (targets : List (FileName × Dict)) : Prop where
  found : keyed (target py) records = .ok targets
  writes : plan = (targets.filter fun x => ¬ stored py dir x).map (writeOf py dir)
  total : plan.length + skipped = records.length
  fresh : force = false → ∀ w ∈ plan, w.before = none

theorem planFrom_ok {auth : AuthDir} : ∀ {records : List Dict} {i skipped : ℕ}
    {plan : List (Write FileName File)}, planFrom py fails force auth i records = .ok (skipped, plan) →
      ∃ targets, Planned py force auth.files records skipped plan targets
  | [], i, skipped, plan, h => by
    obtain ⟨rfl, rfl⟩ := Prod.mk.inj (Except.ok.inj h)
    exact ⟨[], rfl, rfl, rfl, fun _ => by simp⟩
  | record :: rest, i, skipped, plan, h => by
    unfold planFrom at h
    obtain ⟨name, hname, h⟩ := except_bind_ok h
    simp only at h
    by_cases hother : name ∈ auth.others
    · rw [if_pos hother] at h
      exact absurd h (by simp)
    rw [if_neg hother] at h
    by_cases hinspect : fails (.inspect i) = true
    · rw [if_pos hinspect] at h
      exact absurd h (by simp)
    rw [if_neg hinspect] at h
    by_cases hsame : (auth.files.lookup name).map File.bytes = some (serialized py record).bytes
    · rw [if_pos hsame] at h
      obtain ⟨⟨n, ws⟩, hmore, h⟩ := except_bind_ok h
      obtain ⟨rfl, rfl⟩ := Prod.mk.inj (Except.ok.inj h)
      obtain ⟨targets, hplanned⟩ := planFrom_ok hmore
      refine ⟨(name, record) :: targets, ?_, ?_, ?_, hplanned.fresh⟩
      · rw [keyed, hname, hplanned.found]
        rfl
      · rw [List.filter_cons_of_neg (by simpa [stored] using hsame)]
        exact hplanned.writes
      · have := hplanned.total
        simp only [List.length_cons]
        omega
    · rw [if_neg hsame] at h
      split_ifs at h with hforce
      obtain ⟨⟨n, ws⟩, hmore, h⟩ := except_bind_ok h
      obtain ⟨rfl, rfl⟩ := Prod.mk.inj (Except.ok.inj h)
      obtain ⟨targets, hplanned⟩ := planFrom_ok hmore
      refine ⟨(name, record) :: targets, ?_, ?_, ?_, fun hno w hw => ?_⟩
      · rw [keyed, hname, hplanned.found]
        rfl
      · rw [List.filter_cons_of_pos (by simpa [stored] using hsame), List.map_cons, ← hplanned.writes]
        rfl
      · have := hplanned.total
        simp only [List.length_cons]
        omega
      · rcases List.mem_cons.mp hw with rfl | hw
        · rw [hno] at hforce
          simpa using hforce
        · exact hplanned.fresh hno w hw

/-- A plan remembers what the directory holds. -/
theorem Planned.recorded {dir : Dir FileName File} {records : List Dict} {skipped : ℕ}
    {plan : List (Write FileName File)} {targets : List (FileName × Dict)}
    (h : Planned py force dir records skipped plan targets) : Recorded dir plan := by
  intro w hw
  rw [h.writes] at hw
  obtain ⟨x, -, rfl⟩ := List.mem_map.mp hw
  rfl

/-! ### Different records have different targets -/

/-- No two fingerprints of these records have the same first 24 digits. -/
def ShortDigests (py : Py) (records : List Dict) : Prop :=
  ∀ r ∈ records, ∀ r' ∈ records, ∀ p p', fingerprint py r = .ok p → fingerprint py r' = .ok p' →
    p.take 24 = p'.take 24 → p = p'

/-- The records that are kept have different fingerprints. -/
theorem unique_ok {records kept : List Dict} (h : unique py records = .ok kept) :
    ∃ keys, keyed (fingerprint py) kept = .ok keys ∧ (keys.map Prod.fst).Nodup := by
  obtain ⟨keys, hkeys, h⟩ := except_bind_ok h
  refine ⟨firsts keys, ?_, nodup_firsts keys⟩
  rw [← Except.ok.inj h]
  have hall : ∀ x ∈ firsts keys, fingerprint py x.2 = .ok x.1 :=
    fun x hx => (mem_keyed hkeys (mem_of_mem_firsts hx)).2
  generalize firsts keys = xs at hall
  induction xs with
  | nil => rfl
  | cons x xs ih =>
    rw [List.map_cons, keyed, hall x List.mem_cons_self,
      ih fun y hy => hall y (List.mem_cons_of_mem _ hy)]
    rfl

theorem target_ok {record : Dict} {name : FileName} (h : target py record = .ok name) :
    ∃ print, fingerprint py record = .ok print ∧ name.text = targetName print := by
  obtain ⟨print, hprint, h⟩ := except_bind_ok h
  refine ⟨print, hprint, ?_⟩
  unfold FileName.ofStr? at h
  split_ifs at h
  rw [← Except.ok.inj h]

theorem targetName_inj {p q : Str} (h : targetName p = targetName q) : p.take 24 = q.take 24 := by
  unfold targetName at h
  exact List.append_cancel_left (List.append_cancel_right h)

/-- **Records that are kept have different targets.** -/
theorem nodup_targets {records kept : List Dict} (h : unique py records = .ok kept)
    (hshort : ShortDigests py kept) {targets : List (FileName × Dict)}
    (htargets : keyed (target py) kept = .ok targets) : (targets.map Prod.fst).Nodup := by
  obtain ⟨keys, hkeys, hnodup⟩ := unique_ok h
  refine nodup_keyed hkeys htargets (fun r hr r' hr' name hname hname' => ?_) hnodup
  obtain ⟨p, hp, htext⟩ := target_ok hname
  obtain ⟨p', hp', htext'⟩ := target_ok hname'
  have hsame := hshort r hr r' hr' p p' hp hp' (targetName_inj (htext.symm.trans htext'))
  rw [hp, hp', hsame]

/-! ### All or nothing -/

/-- The plan does not depend on the writes. -/
theorem planFrom_writes {fails' : Step → Bool} (h : ∀ i, fails' (.inspect i) = fails (.inspect i))
    {auth : AuthDir} : ∀ {records : List Dict} {i : ℕ},
      planFrom py fails' force auth i records = planFrom py fails force auth i records
  | [], _ => rfl
  | record :: rest, i => by
    unfold planFrom
    simp only [h, planFrom_writes h]

/-- The steps that fail, apart from the writes. -/
def steadyWrites (fails : Step → Bool) : Step → Bool
  | .write _ => false
  | step => fails step

/-- **The dry run returns what the import returns when no write fails.** -/
theorem dry_storeRecords {records : List Dict} {auth : AuthDir} :
    (storeRecords py fails force true records auth).1 =
      (storeRecords py (steadyWrites fails) force false records auth).1 := by
  have hlocked : ∀ found : AuthDir, (underLock py fails force true records found).1 =
      (underLock py (steadyWrites fails) force false records found).1 := by
    intro found
    unfold underLock
    have hlock : steadyWrites fails .lock = fails .lock := rfl
    rw [hlock]
    by_cases hf : fails .lock = true
    · rw [if_pos hf, if_pos hf]
    have hplan : planFrom py (steadyWrites fails) force found 0 records =
        planFrom py fails force found 0 records := by
      refine planFrom_writes ?_
      exact fun _ => rfl
    rw [if_neg hf, if_neg hf, hplan]
    rcases planFrom py fails force found 0 records with e | ⟨skipped, plan⟩
    · rfl
    · simp only [if_true, Bool.false_eq_true, if_false, carryOut]
      have hall : (perform (fun i => steadyWrites fails (.write i)) 0 plan found.files).1 = true :=
        perform_steady (fun _ => rfl) plan 0 found.files
      rw [if_pos hall]
  rcases auth with _ | _ | ⟨others, files⟩
  · exact hlocked _
  · rfl
  · exact hlocked _

/-- A dry run changes no file. -/
theorem dry_files {records : List Dict} {auth : AuthDir} :
    (storeRecords py fails force true records auth).2.files = auth.files := by
  have hlocked : ∀ found : AuthDir, (underLock py fails force true records found).2.files =
      found.files := by
    intro found
    unfold underLock
    by_cases hf : fails .lock = true
    · rw [if_pos hf]
      rfl
    · rw [if_neg hf]
      rcases planFrom py fails force found 0 records with e | ⟨skipped, plan⟩
      · rfl
      · rfl
  rcases auth with _ | _ | ⟨others, files⟩
  · exact hlocked _
  · rfl
  · exact hlocked _

/-- **All or nothing**: what raises leaves the files as they were, if nothing fails in the rollback. -/
theorem storeRecords_error (hrestore : ∀ i, fails (.restore i) = false) {dry : Bool}
    {records : List Dict} {auth : AuthDir} {e : PyError}
    (h : (storeRecords py fails force dry records auth).1 = .error e) :
    (storeRecords py fails force dry records auth).2.files = auth.files := by
  have hlocked : ∀ found : AuthDir, (underLock py fails force dry records found).1 = .error e →
      (underLock py fails force dry records found).2.files = found.files := by
    intro found h
    unfold underLock at h ⊢
    by_cases hf : fails .lock = true
    · rw [if_pos hf]
      rfl
    rw [if_neg hf] at h ⊢
    rcases hplan : planFrom py fails force found 0 records with e' | ⟨skipped, plan⟩
    · rfl
    rw [hplan] at h
    simp only at h ⊢
    by_cases hdry : dry = true
    · rw [if_pos hdry]
      rfl
    rw [if_neg hdry] at h ⊢
    obtain ⟨targets, hplanned⟩ := planFrom_ok hplan
    simp only [carryOut] at h ⊢
    split_ifs at h ⊢ with hall
    · refine rollback hplanned.recorded ((revert_done _ 0 _).mpr fun j _ => hrestore _)
  rcases auth with _ | _ | ⟨others, files⟩
  · exact hlocked _ h
  · rfl
  · exact hlocked _ h

/-! ### What a successful import has done -/

/-- **What is there after a successful import**, for the targets of its records. -/
structure Stored (py : Py) (force : Bool) (records : List Dict) (dir dir' : Dir FileName File)
    (targets : List (FileName × Dict)) (counts : Counts) : Prop where
  found : keyed (target py) records = .ok targets
  changed : ∀ x ∈ targets, ¬ stored py dir x → dir'.lookup x.1 = some (serialized py x.2)
  same : ∀ n, (∀ x ∈ targets, x.1 = n → stored py dir x) → dir'.lookup n = dir.lookup n
  kept : force = false → ∀ n f, dir.lookup n = some f → dir'.lookup n = some f
  written : counts.written = targets.countP fun x => ¬ stored py dir x
  total : counts.written + counts.skipped = records.length

/-- The writes of a plan are those of its targets that hold other bytes. -/
theorem Planned.mem_writes {dir : Dir FileName File} {records : List Dict} {skipped : ℕ}
    {plan : List (Write FileName File)} {targets : List (FileName × Dict)}
    (h : Planned py force dir records skipped plan targets) (w : Write FileName File) :
    w ∈ plan ↔ ∃ x ∈ targets, ¬ stored py dir x ∧ w = writeOf py dir x := by
  rw [h.writes, List.mem_map]
  constructor
  · rintro ⟨x, hx, rfl⟩
    obtain ⟨hmem, hno⟩ := List.mem_filter.mp hx
    exact ⟨x, hmem, by simpa using hno, rfl⟩
  · rintro ⟨x, hx, hno, rfl⟩
    exact ⟨x, List.mem_filter.mpr ⟨hx, by simpa using hno⟩, rfl⟩

/-- What a transaction that succeeds has done: all of its plan is carried out. -/
theorem storeRecords_written {kept : List Dict} {auth auth' : AuthDir} {counts : Counts}
    (h : storeRecords py fails force false kept auth = (.ok counts, auth')) :
    ∃ skipped plan targets, Planned py force auth.files kept skipped plan targets ∧
      counts = ⟨plan.length, skipped⟩ ∧
      (perform (fun i => fails (.write i)) 0 plan auth.files).2.1 = plan ∧
      auth'.files = (perform (fun i => fails (.write i)) 0 plan auth.files).2.2 := by
  have hlocked : underLock py fails force false kept auth = (.ok counts, auth') := by
    rcases auth with _ | _ | ⟨others, files⟩
    · exact h
    · exact absurd (Prod.mk.inj h).1 (by simp)
    · exact h
  unfold underLock at hlocked
  by_cases hf : fails .lock = true
  · rw [if_pos hf] at hlocked
    exact absurd (Prod.mk.inj hlocked).1 (by simp)
  rw [if_neg hf] at hlocked
  rcases hplan : planFrom py fails force auth 0 kept with e | ⟨skipped, plan⟩
  · rw [hplan] at hlocked
    exact absurd (Prod.mk.inj hlocked).1 (by simp)
  rw [hplan] at hlocked
  simp only [Bool.false_eq_true, if_false] at hlocked
  obtain ⟨hresult, hauth⟩ := Prod.mk.inj hlocked
  obtain ⟨targets, hplanned⟩ := planFrom_ok hplan
  set written := perform (fun i => fails (.write i)) 0 plan auth.files with hwritten
  have hall : written.1 = true := by
    by_contra hno
    simp only [carryOut, ← hwritten, if_neg hno] at hresult
    exact absurd hresult (by simp)
  refine ⟨skipped, plan, targets, hplanned, ?_, perform_all plan 0 auth.files hall, ?_⟩
  · simp only [carryOut, ← hwritten, if_pos hall] at hresult
    exact (Except.ok.inj hresult).symm
  · rw [← hauth]
    simp only [carryOut, ← hwritten, if_pos hall, Found.files_holding]

theorem storeRecords_ok {records kept : List Dict} (hkept : unique py records = .ok kept)
    (hshort : ShortDigests py kept) {auth auth' : AuthDir} {counts : Counts}
    (h : storeRecords py fails force false kept auth = (.ok counts, auth')) :
    ∃ targets, Stored py force kept auth.files auth'.files targets counts := by
  obtain ⟨skipped, plan, targets, hplanned, hcounts, hcompleted, hdir⟩ := storeRecords_written h
  have hnodup := nodup_targets hkept hshort hplanned.found
  have hother : ∀ n, (∀ w ∈ plan, w.name ≠ n) → auth'.files.lookup n = auth.files.lookup n := by
    intro n hn
    rw [hdir]
    refine lookup_perform_other plan 0 auth.files ?_
    rw [hcompleted]
    exact hn
  have hwrites := hplanned.mem_writes
  refine ⟨targets, hplanned.found, fun x hx hno => ?_, fun n hn => ?_, fun hforce n f hf => ?_, ?_, ?_⟩
  · -- the last write of the name is that of `x`, which alone has it
    have hw : writeOf py auth.files x ∈ plan := (hwrites _).mpr ⟨x, hx, hno, rfl⟩
    obtain ⟨v, hv, hname, hlook⟩ := lookup_perform plan 0 auth.files
      (show writeOf py auth.files x ∈ (perform (fun i => fails (.write i)) 0 plan auth.files).2.1 by
        rw [hcompleted]; exact hw)
    rw [hcompleted] at hv
    obtain ⟨y, hy, -, rfl⟩ := (hwrites v).mp hv
    have hyx : y = x := List.inj_on_of_nodup_map hnodup hy hx hname
    rw [hdir, ← hyx]
    rw [hyx]
    rw [hyx] at hlook
    exact hlook
  · refine hother n fun w hw hname => ?_
    obtain ⟨x, hx, hno, rfl⟩ := (hwrites w).mp hw
    exact hno (hn x hx hname)
  · rw [hother n fun w hw hname => ?_, hf]
    have hnone := hplanned.fresh hforce w hw
    rw [hplanned.recorded w hw, hname, hf] at hnone
    exact absurd hnone (by simp)
  · rw [hcounts, hplanned.writes, List.length_map, List.countP_eq_length_filter]
  · rw [hcounts]
    exact hplanned.total

/-! ### The transaction -/

section Import
variable {σ : Type} {dec : Decoder} {ask : Endpoint σ} {capability : Option Str} {raw : Bytes}
  {s s' : σ} {records : List Dict}

/-- The import of normalised records is their transaction, if their capability is attested. -/
theorem importRecords_eq (fails : Step → Bool) (dry : Bool) (auth : AuthDir)
    (hrecords : Importer.normalize py dec ask raw s = (.ok records, s')) :
    importRecords py fails force dec ask capability dry raw s auth =
      match checkCapability py capability records with
      | .error e => (.error e, s', auth)
      | .ok () => ((storeRecords py fails force dry records auth).1.map (resultOf py dry raw), s',
        (storeRecords py fails force dry records auth).2) := by
  rw [importRecords, hrecords]

/-- **The import of normalised records is all or nothing, and its dry run is exact.** -/
theorem transaction {auth : AuthDir} (hrecords : Importer.normalize py dec ask raw s = (.ok records, s'))
    (hshort : ShortDigests py records) (hrestore : ∀ i, fails (.restore i) = false) :
    (∀ e, (importRecords py fails force dec ask capability false raw s auth).1 = .error e →
      (importRecords py fails force dec ask capability false raw s auth).2.2.files = auth.files) ∧
    (∀ result, (importRecords py fails force dec ask capability false raw s auth).1 = .ok result →
      ∃ targets, Stored py force records auth.files
        (importRecords py fails force dec ask capability false raw s auth).2.2.files targets
          result.counts) ∧
    (importRecords py fails force dec ask capability true raw s auth).1.map ImportResult.counts =
      (importRecords py (steadyWrites fails) force dec ask capability false raw s auth).1.map
        ImportResult.counts ∧
    (importRecords py fails force dec ask capability true raw s auth).2.2.files = auth.files := by
  obtain ⟨all, hkept⟩ : ∃ all, unique py all = .ok records := by
    unfold Importer.normalize at hrecords
    obtain ⟨text, s₁, -, hrecords⟩ := Act.bind_eq_ok.mp hrecords
    obtain ⟨all, s₂, -, hrecords⟩ := Act.bind_eq_ok.mp hrecords
    exact ⟨all, (Prod.mk.inj hrecords).1⟩
  have heq : ∀ fails dry, importRecords py fails force dec ask capability dry raw s auth =
      match checkCapability py capability records with
      | .error e => (.error e, s', auth)
      | .ok () => ((storeRecords py fails force dry records auth).1.map (resultOf py dry raw), s',
        (storeRecords py fails force dry records auth).2) :=
    fun fails dry => importRecords_eq fails dry auth hrecords
  rcases hcheck : checkCapability py capability records with e | ⟨⟩
  · simp only [hcheck] at heq
    refine ⟨fun _ _ => by rw [heq], fun result hresult => ?_, by rw [heq, heq], by rw [heq]⟩
    rw [heq] at hresult
    exact absurd hresult (by simp)
  simp only [hcheck] at heq
  refine ⟨fun e he => ?_, fun result hresult => ?_, ?_, ?_⟩
  · rw [heq] at he ⊢
    rcases hr : (storeRecords py fails force false records auth).1 with e' | counts
    · exact storeRecords_error hrestore hr
    · rw [hr] at he
      exact absurd he (by simp [Except.map])
  · rw [heq] at hresult ⊢
    obtain ⟨counts, hcounts, rfl⟩ := except_map_ok hresult
    exact storeRecords_ok hkept hshort (Prod.ext hcounts rfl)
  · rw [heq, heq]
    simp only [dry_storeRecords]
    rcases (storeRecords py (steadyWrites fails) force false records auth).1 with e | counts
    · rfl
    · rfl
  · rw [heq]
    exact dry_files

end Import

/-- Fingerprints with different beginnings are different records' own. -/
theorem shortDigests_of {records : List Dict} {keys : List (Str × Dict)}
    (hkeys : keyed (fingerprint py) records = .ok keys)
    (hnodup : (keys.map fun x => x.1.take 24).Nodup) : ShortDigests py records := by
  intro r hr r' hr' p p' hp hp' hsame
  obtain ⟨x, hx, rfl, hxp⟩ := forall₂_mem_left (forall_keyed hkeys) r hr
  obtain ⟨x', hx', rfl, hxp'⟩ := forall₂_mem_left (forall_keyed hkeys) r' hr'
  rw [hp] at hxp
  rw [hp'] at hxp'
  have hfst : x.1.take 24 = x'.1.take 24 := by
    rw [← Except.ok.inj hxp, ← Except.ok.inj hxp']
    exact hsame
  rw [Except.ok.inj hxp, Except.ok.inj hxp', List.inj_on_of_nodup_map hnodup hx hx' hfst]

/-- A decoder that reads every text as two accounts. -/
def sampleDecoder : Decoder where
  loads _ := .value (.obj [(lit "accounts", .arr [.obj [(lit "access_token", .str (lit "one"))],
    .obj [(lit "access_token", .str (lit "two"))]])])
  rawDecode _ _ := .jsonError 0

/-- An interpreter with the digests of their tokens. -/
def samplePy : Py := tablePy [
  (utf8 (lit "one" ++ [0, 0]), lit "8311ba4c03fe7ba730d7c48544eb66e7a098b48a16a7520f97dfdf07ec0c1f75"),
  (utf8 (lit "two" ++ [0, 0]), lit "63596f276d3bf970da2be71abcbc2fe11a298516e8d871a1b229476b8ded2e1c")] [] []

/-- The endpoint that never answers. -/
def silent : Endpoint Unit := fun _ s => (none, s)

/-- The import of the two accounts into an absent directory. -/
def sampleImport (fails : Step → Bool) (dry : Bool) : Except PyError ImportResult × Unit × AuthDir :=
  importRecords samplePy fails false sampleDecoder silent none dry [120] () .absent

/-- The second write fails. -/
def secondWrite : Step → Bool := fun step => step = .write 1

/-- The flat record of an account with this token. -/
def sampleRecord (token : String) : Dict :=
  [(lit "type", .str (lit "codex")), (lit "disabled", .bool false), (lit "websockets", .bool false),
    (lit "access_token", .str (lit token)), (lit "refresh_token", .str []), (lit "id_token", .str []),
    (lit "account_id", .str [])]

/-- The first of two writes is taken back when the second fails; the dry run counts both. -/
theorem second_write_undone :
    (sampleImport secondWrite false).1 = .error writeFailed ∧
    (sampleImport secondWrite false).2.2.files = ∅ ∧
    (sampleImport secondWrite true).1.map ImportResult.counts = .ok ⟨2, 0⟩ ∧
    (sampleImport secondWrite true).1.map ImportResult.counts =
      (sampleImport (steadyWrites secondWrite) false).1.map ImportResult.counts := by
  have hrecords : Importer.normalize samplePy sampleDecoder silent [120] () =
      (.ok [sampleRecord "one", sampleRecord "two"], ()) := by decide +kernel
  have hkeys : keyed (fingerprint samplePy) [sampleRecord "one", sampleRecord "two"] =
      .ok [(lit "8311ba4c03fe7ba730d7c48544eb66e7a098b48a16a7520f97dfdf07ec0c1f75", sampleRecord "one"),
        (lit "63596f276d3bf970da2be71abcbc2fe11a298516e8d871a1b229476b8ded2e1c", sampleRecord "two")] := by
    decide +kernel
  have hshort := shortDigests_of hkeys (by decide +kernel)
  have hfailed : (sampleImport secondWrite false).1 = .error writeFailed := by decide +kernel
  obtain ⟨hundone, -, hdry, -⟩ := @transaction _ secondWrite false _ _ _ none _ _ _ _
    .absent hrecords hshort fun _ => rfl
  exact ⟨hfailed, hundone _ hfailed, by decide +kernel, hdry⟩

end Cloudx.Cloud.ImportRecords

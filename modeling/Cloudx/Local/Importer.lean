import Cloudx.Lib.Fault
import Cloudx.Shared.Source
import Cloudx.Local.ScanAgreement

/-! # Importing credentials into the local auth directory

`local_cpa_import.py`: the JSON objects of the sources, their flat records without duplicates, a file
for each of them (`_plan_files`), and the writing of those files (`_write_plans`), which is checked
afterwards and undone if a check fails.

What an import writes is then scanned by the maintenance: the two agree that it is a credential. -/

namespace Cloudx.Local.Importer

open Cloudx.Lib.Memo Cloudx.Lib.Store
open Cloudx.Python.Text Cloudx.Python.Value Cloudx.Python.Dump
open Cloudx.Shared Cloudx.Shared.Credential Cloudx.Shared.Source
open Cloudx.Local.Archive Cloudx.Local.Import Cloudx.Local.Maintenance Cloudx.Local.ScanAgreement

/-! ### The records of a source -/

/-- `_json_documents` -/
def jsonDocuments (dec : Decoder) (text : Str) : Except PyError (List Dict) :=
  let stripped := strip text
  let invalid (message : Str) : PyError := .refused "invalid_json" message
  let scattered : Except PyError (List Dict) :=
    if 123 ∉ stripped then
      if startsWith stripped (lit "[") then
        .error (invalid (lit "import JSON array is malformed"))
      else .ok []
    else do
      let values ← valuesFrom dec
        (fun pos => invalid (lit "cannot parse JSON object at offset " ++ decimal pos)) stripped
        (stripped.length + 1) 0
      match values.mapM accountOf with
      | none => .error (invalid (lit "every concatenated JSON value must be an object"))
      | some [] => .error (invalid (lit "no JSON objects were found"))
      | some documents => return documents
  if stripped = [] then .error (.refused "source_empty" (lit "import source is empty"))
  else match dec.loads stripped with
    | .raised e => .error e
    | .value (.obj document) => .ok [document]
    | .value (.arr items) =>
      match items.mapM accountOf with
      | some (document :: documents) => .ok (document :: documents)
      | _ => .error (invalid (lit "JSON arrays must contain one or more objects"))
    | .value .null => scattered
    | .value _ => .error (invalid (lit "import JSON must be an object or array of objects"))
    | _ => scattered

/-- A text to import: its label, and the name hint of its record number `index` of `total`. -/
structure SourceText where
  text : Str
  label : Str
  hint : ℕ → ℕ → Str

variable (py : Py) (dec : Decoder)

/-- The records of the documents of a text, from number `index` on. -/
def expandDocuments (label : Str) : ℕ → List Dict → Except PyError (List Dict)
  | _, [] => .ok []
  | index, document :: rest => do
    let records ← expandObject py document (label ++ lit " object " ++ decimal index)
    let more ← expandDocuments label (index + 1) rest
    return records ++ more

/-- The flat records of some entries with their labels. -/
def flatAll : List (Dict × Str) → Except PyError (List Dict)
  | [] => .ok []
  | (entry, label) :: rest => do
    let record ← flatAuth py entry label
    let more ← flatAll rest
    return record :: more

/-- `_normalize_text`. For a text without JSON, `cards` gives the entries that its raw card lines
stand for after their refresh, with their labels. -/
def normalizeText (cards : Str → Except PyError (List (Dict × Str))) (source : SourceText) :
    Except PyError (List Dict) := do
  let documents ← jsonDocuments dec source.text
  if documents ≠ [] then expandDocuments py source.label 1 documents
  else flatAll py (← cards source.text)

/-- The records of all texts, each with its name hint. -/
def collect (cards : Str → Except PyError (List (Dict × Str))) :
    List SourceText → Except PyError (List (Dict × Str))
  | [] => .ok []
  | source :: rest => do
    let records ← normalizeText py dec cards source
    let more ← collect cards rest
    return records.zipIdx.map (fun x => (x.1, source.hint (x.2 + 1) records.length)) ++ more

/-- `_deduplicate`: the first record of each fingerprint that is not in `seen`. -/
def deduplicate : List Str → List (Dict × Str) → Except PyError (List (Dict × Str))
  | _, [] => .ok []
  | seen, (flat, hint) :: rest => do
    let print ← fingerprint py flat
    if print ∈ seen then deduplicate seen rest
    else
      let more ← deduplicate (print :: seen) rest
      return (flat, hint) :: more

/-! ### The planned files -/

/-- `_PlannedFile` -/
structure PlannedFile where
  name : Str
  payload : File
deriving DecidableEq

/-- `value.strip(".-")` -/
def stripMarks (value : Str) : Str :=
  let mark (c : ℕ) : Bool := c = 46 || c = 45
  ((value.dropWhile mark).reverse.dropWhile mark).reverse

/-- `_safe_name`, for the characters with `str.isalnum`. -/
def safeName (isalnum : ℕ → Bool) (value : Str) : Str :=
  let cleaned := value.map fun c => if isalnum c || c = 45 || c = 95 || c = 46 then c else 45
  let cut := (stripMarks cleaned).take 120
  if cut = [] then lit "auth" else cut

/-- A name that begins with `codex-`. -/
def codexName (name : Str) : Str :=
  if startsWith name (lit "codex-") then name else lit "codex-" ++ name

/-- The stem of the file of the record number `index`. -/
def stemFor (isalnum : ℕ → Bool) (namePrefix : Str) (index : ℕ) (flat : Dict) (hint : Str) : Str :=
  let email := py.text [get flat (lit "email")]
  if email ≠ [] ∧ email.contains 64 then
    safeName isalnum (lit "codex-" ++ email.map fun c => if c = 64 then 45 else c)
  else if hint ≠ [] then codexName (safeName isalnum hint)
  else
    let start := if namePrefix = [] then lit "codexx-import" else namePrefix
    safeName isalnum (codexName (safeName isalnum start) ++ 45 :: decimal index)

/-- `_plan_files`, from the record number `index` on, with the stems used so far. -/
def planFiles (isalnum : ℕ → Bool) (namePrefix : Str) :
    ℕ → List Str → List (Dict × Str) → Except PyError (List PlannedFile)
  | _, _, [] => .ok []
  | index, used, (flat, hint) :: rest =>
    let stem := stemFor py isalnum namePrefix index flat hint
    let count := used.count stem + 1
    let name := stem ++ (if 1 < count then 45 :: decimal count else []) ++ lit ".json"
    if encodable (dumps py false (.obj flat)) then do
      let more ← planFiles isalnum namePrefix (index + 1) (stem :: used) rest
      return ⟨name, jsonFile py false flat⟩ :: more
    else .error .unicodeEncode

/-! ### Writing -/

/-- `_canonical_json` of a target that exists. -/
def canonicalJson (file : File) : Except PyError Bytes :=
  match file.content with
  | .raised e => .error e
  | .value (.obj document) =>
    if encodable (dumps py false (.obj document)) then .ok (jsonFile py false document).bytes
    else .error .unicodeEncode
  | .value _ => .error (.refused "target_invalid" (lit "an existing target auth file is not a JSON object"))
  | _ => .error (.refused "target_invalid" (lit "an existing target auth file is invalid JSON"))

/-- A planned file with its target, what is there, and whether that is the same. -/
structure Target where
  name : FileName
  payload : File
  original : Option File
  unchanged : Bool
deriving DecidableEq

/-- `_target_state` of the plans. -/
def targetStates (dir : Dir FileName File) : List PlannedFile → Except PyError (List Target)
  | [] => .ok []
  | plan :: rest =>
    match FileName.ofStr? plan.name with
    | none => .error .os
    | some name => do
      let unchanged ← match dir.lookup name with
        | none => .ok false
        | some original => (canonicalJson py original).map fun raw => decide (raw = plan.payload.bytes)
      let more ← targetStates dir rest
      return ⟨name, plan.payload, dir.lookup name, unchanged⟩ :: more

/-- The loop of writes, from number `i` on: what has been written when it ends, and whether all was. -/
def writeLoop (fails : ℕ → Bool) : ℕ → List Target → Dir FileName File →
    Bool × List Target × Dir FileName File
  | _, [], dir => (true, [], dir)
  | i, target :: rest, dir =>
    if fails i then (false, [], dir)
    else
      let r := writeLoop fails (i + 1) rest (dir.insert target.name target.payload)
      (r.1, target :: r.2.1, r.2.2)

/-- The credential check of a written document. -/
def isCredential (file : File) : Bool :=
  match file.content with
  | .value (.obj document) => (authTokens py document).any || AgentIdentity.isValid py document
  | _ => false

/-- The checks after the writes: the exception of the first that fails. -/
def verify (dir : Dir FileName File) : List Target → Except PyError Unit
  | [] => .ok ()
  | target :: rest =>
    if (dir.lookup target.name).map File.bytes ≠ some target.payload.bytes then
      .error (.refused "verification_failed" (lit "written auth file failed byte verification"))
    else if !isCredential py target.payload then
      .error (.refused "verification_failed" (lit "written auth file failed credential verification"))
    else verify dir rest

/-- The rollback: what was there before each write, the last first. -/
def undo (completed : List Target) (dir : Dir FileName File) : Dir FileName File :=
  completed.reverse.foldl (fun dir target =>
    match target.original with
    | none => dir.erase target.name
    | some original => dir.insert target.name original) dir

/-- What an import reports: the files it has changed, and how many were as planned before. -/
structure WriteResult where
  changes : List Target
  unchanged : ℕ
deriving DecidableEq

/-- `_write_plans` without `dry_run`; `fails` says which writes fail. -/
def writePlans (fails : ℕ → Bool) (force : Bool) (plans : List PlannedFile)
    (dir : Dir FileName File) : Except PyError WriteResult × Dir FileName File :=
  match targetStates py dir plans with
  | .error e => (.error e, dir)
  | .ok states =>
    match states.find? fun t => t.original.isSome && !t.unchanged with
    | some conflict =>
      if force then finish states
      else (.error (.refused "target_conflict"
        (lit "target auth JSON already exists: " ++ conflict.name.text)), dir)
    | none => finish states
where
  /-- The writes and their checks. -/
  finish (states : List Target) : Except PyError WriteResult × Dir FileName File :=
    let changes := states.filter fun t => !t.unchanged
    let written := writeLoop fails 0 changes dir
    match if written.1 then verify py written.2.2 changes else .error (.refused "write_failed"
        (lit "local CPA auth files could not be written atomically")) with
    | .error e => (.error e, undo written.2.1 written.2.2)
    | .ok () => (.ok ⟨changes, states.length - changes.length⟩, written.2.2)

/-- The options of an import: whether to overwrite, the name prefix, `str.isalnum`, and why the
capability for Agent Identities is missing, if it is. -/
structure Options where
  force : Bool
  namePrefix : Str
  isalnum : ℕ → Bool
  missing : Option Str

/-- `import_text`, `import_path`: collect the records of the sources and complete the import. -/
def importSources (cards : Str → Except PyError (List (Dict × Str))) (opts : Options)
    (fails : ℕ → Bool) (sources : List SourceText) (dir : Dir FileName File) :
    Except PyError WriteResult × Dir FileName File :=
  let planned : Except PyError (List PlannedFile) := do
    let records ← collect py dec cards sources
    let unique ← deduplicate py [] records
    match opts.missing with
    | some reason =>
      if unique.any fun x => AgentIdentity.isAgentIdentity py x.1 then
        .error (.refused "external_capability_missing" reason)
    | none => pure ()
    planFiles py opts.isalnum opts.namePrefix 1 [] unique
  match planned with
  | .error e => (.error e, dir)
  | .ok plans => writePlans py fails opts.force plans dir

/-! ### A flat record is kept by the scan -/

variable {py} {dec}

/-- The reasons with which the scan keeps a file, or archives it for its age alone. -/
def keptReasons : List Str := [[], lit "expired-without-refresh-token"]

theorem providerOf_codex {d : Dict} (h : get d (lit "type") = .str (lit "codex")) :
    providerOf py d = lit "codex" := by
  have htext : py.text [get d (lit "type"), get d (lit "provider")] = lit "codex" := by
    rw [h]
    exact (by decide : strip (lit "codex") = lit "codex")
  rw [providerOf, htext, py.casefold_ascii _ (by decide)]
  decide

/-- The expiry of a document can be read if its tokens can be decoded. -/
theorem authExpiry_returns {document access identity : Dict} {tokens : Tokens}
    (haccess : decodeJwtPayload py tokens.access = .ok access)
    (hid : decodeJwtPayload py tokens.id = .ok identity) :
    ∃ expiry, authExpiry py document tokens = .ok expiry := by
  unfold authExpiry
  simp only
  split_ifs
  · exact ⟨_, rfl⟩
  · rw [haccess, hid]
    simp only [bind, Except.bind]
    split_ifs
    · exact ⟨_, rfl⟩
    · exact ⟨_, rfl⟩

/-- **The scan keeps every record that `_flat_auth` makes**, unless it has expired. -/
theorem documentReason_flatAuth {entry flat : Dict} {label : Str}
    (h : flatAuth py entry label = .ok flat) (now : ℚ) :
    ∃ reason ∈ keptReasons, documentReason py now flat = .ok (some reason) := by
  have hscanned : get flat (lit "type") = .str (lit "codex") →
      ¬ providerOf py flat ∉ scannedProviders := fun htype => by
    rw [providerOf_codex htype]
    decide
  rcases flatAuth_ok h with ⟨-, hform⟩ | ⟨-, hany, access, identity, haccess, hid, rfl⟩
  · refine ⟨[], List.mem_cons_self, ?_⟩
    rw [documentReason, if_neg (hscanned hform.type), if_pos hform.isAgentIdentity,
      if_pos hform.isValid]
  · have htype : get (flatRecord py entry (payloadOf py entry) (authTokens py (payloadOf py entry))
        access identity) (lit "type") = .str (lit "codex") := by
      rw [get_flatRecord _ _ _ _ _ (by decide)]; rfl
    have hmode : get (flatRecord py entry (payloadOf py entry) (authTokens py (payloadOf py entry))
        access identity) (lit "auth_mode") = .null := by
      rw [get_flatRecord _ _ _ _ _ (by decide)]; rfl
    have htokens : authTokens py (flatRecord py entry (payloadOf py entry)
        (authTokens py (payloadOf py entry)) access identity) = authTokens py (payloadOf py entry) :=
      authTokens_flatRecord entry _ (stripped_authTokens py _) access identity
    obtain ⟨expiry, hexpiry⟩ : ∃ expiry, authExpiry py (flatRecord py entry (payloadOf py entry)
        (authTokens py (payloadOf py entry)) access identity) (authTokens py (payloadOf py entry)) =
          .ok expiry := authExpiry_returns haccess hid
    rw [documentReason, if_neg (hscanned htype),
      if_neg (by simp [AgentIdentity.not_agent_of_mode hmode])]
    simp only [htokens, hany, hexpiry, bind, Except.bind, Bool.not_true, Bool.false_eq_true, if_false]
    split_ifs
    · exact ⟨_, List.mem_cons_of_mem _ List.mem_cons_self, rfl⟩
    · exact ⟨_, List.mem_cons_self, rfl⟩

/-- A file of a flat record. -/
def Flat (py : Py) (file : File) : Prop :=
  ∃ entry flat, flatAuth py entry [] = .ok flat ∧ file = jsonFile py false flat

/-- **The verdict on the file of a flat record**: it is too large to be scanned, or kept. -/
theorem Flat.record {file : File} (h : Flat py file) (now : ℚ) (name : FileName) :
    (maxAuthFileBytes < file.bytes.length ∧ record py now name file = .ok none) ∨
      ∃ r, record py now name file = .ok (some r) ∧ r.staticReason ∈ keptReasons := by
  obtain ⟨entry, flat, hflat, rfl⟩ := h
  obtain ⟨reason, hreason, hdoc⟩ := documentReason_flatAuth hflat now
  by_cases hlong : maxAuthFileBytes < (jsonFile py false flat).bytes.length
  · exact .inl ⟨hlong, by rw [Maintenance.record, if_pos hlong]⟩
  · refine .inr ⟨⟨name, py.sha256 (jsonFile py false flat).bytes, reason⟩, ?_, hreason⟩
    rw [Maintenance.record, if_neg hlong]
    simp only [jsonFile, hdoc, Except.map, Option.map_some]

/-! ### What an import plans -/

/-- The records of an object are flat records. -/
theorem mem_expandObject {document : Dict} {label : Str} {records : List Dict} {flat : Dict}
    (h : expandObject py document label = .ok records) (hf : flat ∈ records) :
    ∃ entry, flatAuth py entry [] = .ok flat := by
  have hitems : ∀ {kind : String} {item : Json → Option Dict} {items : List Json} {rs : List Dict},
      expandItems py label kind item 1 items = .ok rs → flat ∈ rs →
        ∃ entry, flatAuth py entry [] = .ok flat := by
    intro kind item items rs h hf
    obtain ⟨v, -, entry, -, hflat⟩ := forall₂_mem_right (expandItems_ok h) flat hf
    exact ⟨entry, hflat⟩
  unfold expandObject at h
  split_ifs at h
  · split at h
    · exact hitems h hf
    · exact absurd h (by simp)
  · split at h
    · exact hitems h hf
    · exact absurd h (by simp)
  · obtain ⟨record, hrecord, h⟩ := except_bind_ok h
    rw [← Except.ok.inj h, List.mem_singleton] at hf
    exact ⟨document, hf ▸ flatAuth_label hrecord []⟩

theorem mem_expandDocuments {label : Str} {flat : Dict} : ∀ {documents : List Dict} {index : ℕ}
    {records : List Dict}, expandDocuments py label index documents = .ok records → flat ∈ records →
      ∃ entry, flatAuth py entry [] = .ok flat
  | [], _, records, h, hf => by
    rw [← Except.ok.inj h] at hf
    exact absurd hf (by simp)
  | document :: rest, index, records, h, hf => by
    obtain ⟨first, hfirst, h⟩ := except_bind_ok h
    obtain ⟨more, hmore, h⟩ := except_bind_ok h
    rw [← Except.ok.inj h, List.mem_append] at hf
    rcases hf with hf | hf
    · exact mem_expandObject hfirst hf
    · exact mem_expandDocuments hmore hf

theorem mem_flatAll {flat : Dict} : ∀ {entries : List (Dict × Str)} {records : List Dict},
    flatAll py entries = .ok records → flat ∈ records → ∃ entry, flatAuth py entry [] = .ok flat
  | [], records, h, hf => by
    rw [← Except.ok.inj h] at hf
    exact absurd hf (by simp)
  | (entry, label) :: rest, records, h, hf => by
    obtain ⟨first, hfirst, h⟩ := except_bind_ok h
    obtain ⟨more, hmore, h⟩ := except_bind_ok h
    rw [← Except.ok.inj h] at hf
    rcases List.mem_cons.mp hf with rfl | hf
    · exact ⟨entry, flatAuth_label hfirst []⟩
    · exact mem_flatAll hmore hf

variable {cards : Str → Except PyError (List (Dict × Str))}

/-- **Every record an import collects is a flat record.** -/
theorem mem_collect {x : Dict × Str} : ∀ {sources : List SourceText} {records : List (Dict × Str)},
    collect py dec cards sources = .ok records → x ∈ records → ∃ entry, flatAuth py entry [] = .ok x.1
  | [], records, h, hx => by
    rw [← Except.ok.inj h] at hx
    exact absurd hx (by simp)
  | source :: rest, records, h, hx => by
    obtain ⟨found, hfound, h⟩ := except_bind_ok h
    obtain ⟨more, hmore, h⟩ := except_bind_ok h
    rw [← Except.ok.inj h, List.mem_append] at hx
    rcases hx with hx | hx
    swap
    · exact mem_collect hmore hx
    obtain ⟨⟨flat, i⟩, hi, rfl⟩ := List.mem_map.mp hx
    have hflat : flat ∈ found := by
      have := List.mem_map_of_mem (f := Prod.fst) hi
      rwa [List.zipIdx_map_fst] at this
    unfold normalizeText at hfound
    obtain ⟨documents, -, hfound⟩ := except_bind_ok hfound
    by_cases hjson : documents ≠ []
    · rw [if_pos hjson] at hfound
      exact mem_expandDocuments hfound hflat
    · rw [if_neg hjson] at hfound
      obtain ⟨entries, -, hfound⟩ := except_bind_ok hfound
      exact mem_flatAll hfound hflat

theorem mem_deduplicate {x : Dict × Str} : ∀ {records : List (Dict × Str)} {seen : List Str}
    {unique : List (Dict × Str)}, deduplicate py seen records = .ok unique → x ∈ unique → x ∈ records
  | [], _, unique, h, hx => by
    rw [← Except.ok.inj h] at hx
    exact absurd hx (by simp)
  | (flat, hint) :: rest, seen, unique, h, hx => by
    obtain ⟨print, -, h⟩ := except_bind_ok h
    split_ifs at h
    · exact List.mem_cons_of_mem _ (mem_deduplicate h hx)
    · obtain ⟨more, hmore, h⟩ := except_bind_ok h
      rw [← Except.ok.inj h] at hx
      rcases List.mem_cons.mp hx with rfl | hx
      · exact List.mem_cons_self
      · exact List.mem_cons_of_mem _ (mem_deduplicate hmore hx)

/-- A planned file is one of a record, and its name ends in `.json`. -/
theorem mem_planFiles {isalnum : ℕ → Bool} {namePrefix : Str} {plan : PlannedFile} :
    ∀ {unique : List (Dict × Str)} {index : ℕ} {used : List Str} {plans : List PlannedFile},
      planFiles py isalnum namePrefix index used unique = .ok plans → plan ∈ plans →
        (∃ x ∈ unique, plan.payload = jsonFile py false x.1) ∧ endsWith plan.name (lit ".json") = true
  | [], _, _, plans, h, hp => by
    rw [← Except.ok.inj h] at hp
    exact absurd hp (by simp)
  | (flat, hint) :: rest, index, used, plans, h, hp => by
    unfold planFiles at h
    simp only at h
    by_cases henc : encodable (dumps py false (.obj flat)) = true
    swap
    · rw [if_neg henc] at h
      exact absurd h (by simp)
    rw [if_pos henc] at h
    obtain ⟨more, hmore, h⟩ := except_bind_ok h
    rw [← Except.ok.inj h] at hp
    rcases List.mem_cons.mp hp with rfl | hp
    · exact ⟨⟨_, List.mem_cons_self, rfl⟩, decide_eq_true (List.suffix_append _ _)⟩
    · obtain ⟨⟨x, hx, hpay⟩, hname⟩ := mem_planFiles hmore hp
      exact ⟨⟨x, List.mem_cons_of_mem _ hx, hpay⟩, hname⟩

/-! ### What an import writes -/

theorem mem_targetStates {dir : Dir FileName File} {t : Target} : ∀ {plans : List PlannedFile}
    {states : List Target}, targetStates py dir plans = .ok states → t ∈ states →
      ∃ plan ∈ plans, t.name.text = plan.name ∧ t.payload = plan.payload
  | [], states, h, ht => by
    rw [← Except.ok.inj h] at ht
    exact absurd ht (by simp)
  | plan :: rest, states, h, ht => by
    unfold targetStates at h
    rcases hname : FileName.ofStr? plan.name with _ | name
    · rw [hname] at h
      exact absurd h (by simp)
    rw [hname] at h
    simp only at h
    obtain ⟨unchanged, h⟩ : ∃ b, (do
        let more ← targetStates py dir rest
        pure (⟨name, plan.payload, dir.lookup name, b⟩ :: more)) = Except.ok states := by
      split at h
      · exact ⟨false, h⟩
      · obtain ⟨b, -, h⟩ := except_bind_ok h
        exact ⟨b, h⟩
    obtain ⟨more, hmore, h⟩ := except_bind_ok h
    rw [← Except.ok.inj h] at ht
    rcases List.mem_cons.mp ht with rfl | ht
    · refine ⟨plan, List.mem_cons_self, ?_, rfl⟩
      unfold FileName.ofStr? at hname
      split_ifs at hname
      rw [← Option.some.inj hname]
    · obtain ⟨p, hp, hrest⟩ := mem_targetStates hmore ht
      exact ⟨p, List.mem_cons_of_mem _ hp, hrest⟩

/-- A file that the writes leave under a name is one of those written under it, or was there. -/
theorem writeLoop_lookup {fails : ℕ → Bool} {name : FileName} {f : File} : ∀ (changes : List Target)
    (i : ℕ) (dir : Dir FileName File), (writeLoop fails i changes dir).2.2.lookup name = some f →
      (∃ t ∈ changes, t.name = name ∧ t.payload = f) ∨ dir.lookup name = some f
  | [], _, _, h => .inr h
  | t :: rest, i, dir, h => by
    unfold writeLoop at h
    by_cases hf : fails i
    · rw [if_pos hf] at h
      exact .inr h
    · rw [if_neg hf] at h
      rcases writeLoop_lookup rest (i + 1) _ h with ⟨t', ht', hrest⟩ | hold
      · exact .inl ⟨t', List.mem_cons_of_mem _ ht', hrest⟩
      · by_cases hname : name = t.name
        · subst hname
          rw [Finmap.lookup_insert] at hold
          exact .inl ⟨t, List.mem_cons_self, rfl, Option.some.inj hold⟩
        · rw [Finmap.lookup_insert_of_ne _ hname] at hold
          exact .inr hold

/-- After all writes every name that was to be written holds one of the files for it. -/
theorem writeLoop_written {fails : ℕ → Bool} : ∀ (changes : List Target) (i : ℕ)
    (dir : Dir FileName File), (writeLoop fails i changes dir).1 = true → ∀ t ∈ changes,
      ∃ u ∈ changes, (writeLoop fails i changes dir).2.2.lookup t.name = some u.payload
  | [], _, _, _, t, ht => absurd ht (by simp)
  | c :: rest, i, dir, h, t, ht => by
    unfold writeLoop at h ⊢
    by_cases hf : fails i
    · rw [if_pos hf] at h
      exact absurd h (by simp)
    rw [if_neg hf] at h ⊢
    by_cases hlater : ∃ u ∈ rest, u.name = t.name
    · obtain ⟨u, hu, hname⟩ := hlater
      obtain ⟨v, hv, hlook⟩ := writeLoop_written rest (i + 1) (dir.insert c.name c.payload) h u hu
      exact ⟨v, List.mem_cons_of_mem _ hv, by rw [← hname]; exact hlook⟩
    · rcases List.mem_cons.mp ht with rfl | ht
      swap
      · exact absurd ⟨t, ht, rfl⟩ hlater
      have hkeep : ∀ (us : List Target) (j : ℕ) (d : Dir FileName File), (∀ u ∈ us, u.name ≠ t.name) →
          (writeLoop fails j us d).2.2.lookup t.name = d.lookup t.name := by
        intro us
        induction us with
        | nil => intro _ _ _; rfl
        | cons u us ih =>
          intro j d hne
          unfold writeLoop
          split_ifs
          · rfl
          · rw [ih (j + 1) _ fun v hv => hne v (List.mem_cons_of_mem _ hv),
              Finmap.lookup_insert_of_ne _ (hne u List.mem_cons_self).symm]
      refine ⟨t, List.mem_cons_self, ?_⟩
      rw [hkeep rest (i + 1) _ fun u hu he => hlater ⟨u, hu, he⟩, Finmap.lookup_insert]

theorem verify_ok {dir : Dir FileName File} : ∀ {changes : List Target},
    verify py dir changes = .ok () → ∀ t ∈ changes,
      (dir.lookup t.name).map File.bytes = some t.payload.bytes
  | [], _, t, ht => absurd ht (by simp)
  | c :: rest, h, t, ht => by
    unfold verify at h
    split_ifs at h with hbytes hcred
    rcases List.mem_cons.mp ht with rfl | ht
    · exact not_not.mp hbytes
    · exact verify_ok h t ht

/-- A successful write has written all its changes and passed their checks. -/
theorem writePlans_ok {fails : ℕ → Bool} {force : Bool} {plans : List PlannedFile}
    {dir dir' : Dir FileName File} {result : WriteResult}
    (h : writePlans py fails force plans dir = (.ok result, dir')) :
    (∀ t ∈ result.changes, ∃ plan ∈ plans, t.name.text = plan.name ∧ t.payload = plan.payload) ∧
    verify py dir' result.changes = .ok () ∧
    ∀ t ∈ result.changes, ∃ u ∈ result.changes, dir'.lookup t.name = some u.payload := by
  have hfinish : ∀ {states : List Target}, writePlans.finish py fails dir states = (.ok result, dir') →
      (∀ t ∈ result.changes, t ∈ states) ∧ verify py dir' result.changes = .ok () ∧
        ∀ t ∈ result.changes, ∃ u ∈ result.changes, dir'.lookup t.name = some u.payload := by
    intro states h
    unfold writePlans.finish at h
    simp only at h
    by_cases hall : (writeLoop fails 0 (states.filter fun t => !t.unchanged) dir).1 = true
    swap
    · rw [if_neg hall] at h
      exact absurd h (by simp)
    rw [if_pos hall] at h
    split at h
    · exact absurd h (by simp)
    · next hverify =>
      obtain ⟨h1, rfl⟩ := Prod.mk.inj h
      rw [← Except.ok.inj h1]
      exact ⟨fun t ht => (List.mem_filter.mp ht).1, hverify, writeLoop_written _ 0 dir hall⟩
  unfold writePlans at h
  rcases hstates : targetStates py dir plans with e | states
  · rw [hstates] at h
    exact absurd h (by simp)
  rw [hstates] at h
  simp only at h
  have hdone : writePlans.finish py fails dir states = (.ok result, dir') := by
    split at h
    · by_cases hforce : force = true
      · rw [if_pos hforce] at h
        exact h
      · rw [if_neg hforce] at h
        exact absurd h (by simp)
    · exact h
  obtain ⟨hmem, hverify, hlook⟩ := hfinish hdone
  exact ⟨fun t ht => mem_targetStates hstates (hmem t ht), hverify, hlook⟩

/-- **What a successful import leaves under each name it has written**: the planned bytes, in a file
of a flat record. -/
theorem import_written {opts : Options} {fails : ℕ → Bool} {sources : List SourceText}
    {dir dir' : Dir FileName File} {result : WriteResult}
    (h : importSources py dec cards opts fails sources dir = (.ok result, dir')) {t : Target}
    (ht : t ∈ result.changes) : endsWith t.name.text (lit ".json") = true ∧
      ∃ f, dir'.lookup t.name = some f ∧ f.bytes = t.payload.bytes ∧ Flat py f := by
  unfold importSources at h
  simp only at h
  split at h
  · exact absurd h (by simp)
  next plans hplanned =>
  obtain ⟨records, hrecords, hplanned⟩ := except_bind_ok hplanned
  obtain ⟨unique, hunique, hplanned⟩ := except_bind_ok hplanned
  have hplans : planFiles py opts.isalnum opts.namePrefix 1 [] unique = .ok plans := by
    split at hplanned
    · split_ifs at hplanned
      · exact absurd hplanned (by simp [bind, Except.bind])
      · exact hplanned
    · exact hplanned
  have hflat : ∀ plan ∈ plans, Flat py plan.payload := by
    intro plan hplan
    obtain ⟨⟨x, hx, hpayload⟩, -⟩ := mem_planFiles hplans hplan
    obtain ⟨entry, hentry⟩ := mem_collect hrecords (mem_deduplicate hunique hx)
    exact ⟨entry, x.1, hentry, hpayload⟩
  obtain ⟨hfrom, hverify, hlook⟩ := writePlans_ok h
  obtain ⟨plan, hplan, hname, -⟩ := hfrom t ht
  obtain ⟨u, hu, hfile⟩ := hlook t ht
  obtain ⟨plan', hplan', -, hpayload'⟩ := hfrom u hu
  have hbytes := verify_ok hverify t ht
  rw [hfile, Option.map_some, Option.some.injEq] at hbytes
  refine ⟨?_, u.payload, hfile, hbytes, hpayload' ▸ hflat plan' hplan'⟩
  rw [hname]
  exact (mem_planFiles hplans hplan).2

/-- **What the local import accepts, the local scan keeps**: every file it has written has a record
with no reason or with that of its age, or is too large to have one. -/
theorem imported_files_kept {opts : Options} {fails : ℕ → Bool} {sources : List SourceText}
    {dir dir' : Dir FileName File} {result : WriteResult} {now : ℚ} {records : List AuthRecord}
    (himport : importSources py dec cards opts fails sources dir = (.ok result, dir'))
    (hscan : scanActiveAuth py now (readAll dir') = .ok records) :
    ∀ t ∈ result.changes, ∃ f, dir'.lookup t.name = some f ∧ f.bytes = t.payload.bytes ∧
      ((∃ r ∈ records, r.path = t.name) ∨ maxAuthFileBytes < f.bytes.length) ∧
      ∀ r ∈ records, r.path = t.name → r.staticReason ∈ keptReasons := by
  intro t ht
  obtain ⟨hjson, f, hfile, hbytes, hflat⟩ := import_written himport ht
  have hread : (t.name, some f) ∈ readAll dir' := mem_readAll.mpr ⟨hjson, hfile⟩
  have hrecord : ∀ r ∈ records, r.path = t.name → record py now t.name f = .ok (some r) := by
    intro r hr hpath
    obtain ⟨g, hg, hrec⟩ := (mem_scanActiveAuth hscan).mp hr
    rw [hpath] at hg hrec
    rw [← Option.some.inj ((mem_readAll.mp hg).2.symm.trans hfile)]
    exact hrec
  refine ⟨f, hfile, hbytes, ?_⟩
  rcases hflat.record now t.name with ⟨hlong, hnone⟩ | ⟨r, hsome, hreason⟩
  · refine ⟨.inr hlong, fun r hr hpath => ?_⟩
    have := hrecord r hr hpath
    rw [hnone] at this
    exact absurd this (by simp)
  · obtain ⟨hpath, -⟩ := record_path hsome
    refine ⟨.inl ⟨r, (mem_scanActiveAuth hscan).mpr ⟨f, ?_, ?_⟩, hpath⟩, fun r' hr' hpath' => ?_⟩
    · rw [hpath]; exact hread
    · rw [hpath]; exact hsome
    · have := hrecord r' hr' hpath'
      rw [hsome, Except.ok.injEq, Option.some.injEq] at this
      exact this ▸ hreason

/-- A decoder that reads every text as a document with an access token. -/
def sampleDecoder : Decoder where
  loads _ := .value (.obj [(lit "access_token", .str (lit "a.b.c"))])
  rawDecode _ _ := .jsonError 0

/-- An import of that document into an empty directory. -/
def sampleImport : Except PyError WriteResult × Dir FileName File :=
  importSources onePy sampleDecoder (fun _ => .ok [])
    ⟨true, [], fun c => (97 ≤ c && c ≤ 122) || (48 ≤ c && c ≤ 57), none⟩ (fun _ => false)
    [⟨lit "x", lit "stdin", fun _ _ => []⟩] ∅

/-- The file that this import writes. -/
def sampleName : FileName := ⟨lit "codex-codexx-import-1.json", by decide⟩

/-- The record that this import writes. -/
def sampleFlat : File := jsonFile onePy false [(lit "type", .str (lit "codex")),
  (lit "disabled", .bool false), (lit "websockets", .bool false),
  (lit "access_token", .str (lit "a.b.c")), (lit "refresh_token", .str []),
  (lit "id_token", .str []), (lit "account_id", .str [])]

/-- An import writes one file, and the scan keeps it. -/
theorem imported_file_kept : sampleImport.1 = .ok ⟨[⟨sampleName, sampleFlat, none, false⟩], 0⟩ ∧
    ∀ t ∈ [(⟨sampleName, sampleFlat, none, false⟩ : Target)], ∃ f,
      sampleImport.2.lookup t.name = some f ∧ f.bytes = t.payload.bytes ∧
      ((∃ r ∈ [(⟨sampleName, onePy.sha256 sampleFlat.bytes, []⟩ : AuthRecord)], r.path = t.name) ∨
        maxAuthFileBytes < f.bytes.length) ∧
      ∀ r ∈ [(⟨sampleName, onePy.sha256 sampleFlat.bytes, []⟩ : AuthRecord)], r.path = t.name →
        r.staticReason ∈ keptReasons := by
  have himport : sampleImport = (.ok ⟨[⟨sampleName, sampleFlat, none, false⟩], 0⟩,
      Finmap.singleton sampleName sampleFlat) := by
    decide +kernel
  have hscan : scanActiveAuth onePy 0 (readAll (Finmap.singleton sampleName sampleFlat)) =
      .ok [⟨sampleName, onePy.sha256 sampleFlat.bytes, []⟩] := by
    rw [readAll_single (by decide)]
    decide +kernel
  refine ⟨congrArg Prod.fst himport, ?_⟩
  rw [himport]
  exact imported_files_kept himport hscan

end Cloudx.Local.Importer

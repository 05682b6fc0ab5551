import Cloudx.Local.Maintenance

/-! # The scan and the prober

The static scan looks for tokens in a document itself, the prober in the entries of the document: the
accounts of a list, the files of a bundle, or nested credentials. The two differ on the documents
whose tokens are all in their entries. -/

namespace Cloudx.Local.ScanAgreement

open Cloudx.Lib.Memo Cloudx.Lib.Store
open Cloudx.Python.Text Cloudx.Python.Value Cloudx.Python.Dump
open Cloudx.Shared Cloudx.Shared.Credential
open Cloudx.Local.Archive Cloudx.Local.Import Cloudx.Local.Probe Cloudx.Local.Maintenance

/-- An access or a refresh token. -/
def HasToken (tokens : Tokens) : Prop := tokens.access ≠ [] ∨ tokens.refresh ≠ []

/-- The entries of a document that is no bundle of files: its accounts, or the document. -/
def accountEntries (document : Dict) : List Json :=
  if has document (lit "accounts") then
    match get document (lit "accounts") with
    | .arr accounts => accounts
    | _ => []
  else [.obj document]

/-- A document that is scanned and has no token of its own, while all its entries are credentials and
one of them has an access or a refresh token. -/
structure TokensBelow (py : Py) (document : Dict) : Prop where
  scanned : providerOf py document ∈ scannedProviders
  noAgent : AgentIdentity.isAgentIdentity py document = false
  bare : (authTokens py document).any = false
  accepted : ∀ v ∈ accountEntries document,
    ∃ entry record, v = .obj entry ∧ flatAuth py entry [] = .ok record
  live : ∃ entry, .obj entry ∈ accountEntries document ∧
    AgentIdentity.isAgentIdentity py (payloadOf py entry) = false ∧
    HasToken (authTokens py (payloadOf py entry))

/-- What the scan and the prober find in a directory. -/
def readAll (dir : Dir FileName File) : List (FileName × Option File) :=
  (jsonNames dir.keys).map fun name => (name, dir.lookup name)

variable {py : Py}

/-! ### Entries -/

theorem accountOf_some {v : Json} {entry : Dict} : accountOf v = some entry ↔ v = .obj entry := by
  cases v with
  | obj item => exact ⟨fun h => by rw [Option.some.inj h], fun h => by rw [Json.obj.inj h]; rfl⟩
  | _ => exact ⟨fun h => absurd h (by simp [accountOf]), fun h => absurd h (by simp)⟩

/-- The payloads of a document that is no bundle of files are those of its entries. -/
theorem expandObject_iff {document : Dict} {label : Str} {payloads : List Dict}
    (htype : get document (lit "type") ≠ .str cliproxyAuthBundleType) :
    expandObject py document label = .ok payloads ↔ accountEntries document ≠ [] ∧
      List.Forall₂ (fun v r => ∃ entry, v = .obj entry ∧ flatAuth py entry [] = .ok r)
        (accountEntries document) payloads := by
  unfold expandObject accountEntries
  rw [if_neg htype]
  by_cases hacc : has document (lit "accounts") = true
  · rw [if_pos hacc, if_pos hacc]
    have hne : ∀ e : PyError, (.error e : Except PyError (List Dict)) = .ok payloads ↔ False :=
      fun e => ⟨fun h => absurd h (by simp), False.elim⟩
    rcases get document (lit "accounts") with _ | b | n | x | s | items | fields
    · simp [hne]
    · simp [hne]
    · simp [hne]
    · simp [hne]
    · simp [hne]
    · rcases items with _ | ⟨account, accounts⟩
      · simp [hne]
      · simp only [ne_eq, reduceCtorEq, not_false_eq_true, true_and]
        have hconv : ∀ {vs : List Json} {rs : List Dict}, List.Forall₂ (fun v r => ∃ entry,
            accountOf v = some entry ∧ flatAuth py entry [] = .ok r) vs rs ↔
            List.Forall₂ (fun v r => ∃ entry, v = .obj entry ∧ flatAuth py entry [] = .ok r) vs rs := by
          intro vs rs
          simp only [accountOf_some]
        exact ⟨fun h => hconv.mp (expandItems_ok h), fun h => expandItems_of 1 (hconv.mpr h)⟩
    · simp [hne]
  · rw [if_neg hacc, if_neg hacc]
    constructor
    · intro h
      obtain ⟨record, hrecord, h⟩ := except_bind_ok h
      rw [← Except.ok.inj h]
      exact ⟨by simp, .cons ⟨document, rfl, flatAuth_label hrecord []⟩ .nil⟩
    · rintro ⟨-, h⟩
      rcases h with _ | ⟨⟨entry, he, hrecord⟩, hnil⟩
      rw [← Json.obj.inj he] at hrecord
      rw [flatAuth_label hrecord label]
      cases hnil
      rfl

/-- A bundle of files names a provider that is not scanned. -/
theorem scanned_type {document : Dict} (h : providerOf py document ∈ scannedProviders) :
    get document (lit "type") ≠ .str cliproxyAuthBundleType := by
  intro htype
  have hprovider : providerOf py document = cliproxyAuthBundleType := by
    have htext : py.text [get document (lit "type"), get document (lit "provider")] =
        cliproxyAuthBundleType := by
      rw [htype]
      exact (by decide : strip cliproxyAuthBundleType = cliproxyAuthBundleType)
    rw [providerOf, htext, py.casefold_ascii _ (by decide)]
    decide
  rw [hprovider] at h
  exact absurd h (by decide)

/-- **What the prober finds in a scanned document**: a payload with a token exactly if all entries are
credentials and one of them has such a token. -/
theorem expandObject_token {document : Dict} (label : Str)
    (hscanned : providerOf py document ∈ scannedProviders) :
    (∃ payloads, expandObject py document label = .ok payloads ∧
      ∃ payload ∈ payloads, HasToken (authTokens py payload)) ↔
    (∀ v ∈ accountEntries document,
      ∃ entry record, v = .obj entry ∧ flatAuth py entry [] = .ok record) ∧
    ∃ entry, .obj entry ∈ accountEntries document ∧
      AgentIdentity.isAgentIdentity py (payloadOf py entry) = false ∧
      HasToken (authTokens py (payloadOf py entry)) := by
  have htype := scanned_type hscanned
  constructor
  · rintro ⟨payloads, hok, payload, hmem, htoken⟩
    obtain ⟨-, hall⟩ := (expandObject_iff htype).mp hok
    refine ⟨fun v hv => ?_, ?_⟩
    · obtain ⟨i, hi, rfl⟩ := List.getElem_of_mem hv
      obtain ⟨entry, he, hr⟩ := hall.get hi (by rw [← hall.length_eq]; exact hi)
      exact ⟨entry, _, he, hr⟩
    · obtain ⟨i, hi, rfl⟩ := List.getElem_of_mem hmem
      have hi' : i < (accountEntries document).length := by rw [hall.length_eq]; exact hi
      obtain ⟨entry, he, hr⟩ := hall.get hi' hi
      simp only [List.get_eq_getElem] at he hr
      rw [authTokens_flatAuth hr] at htoken
      refine ⟨entry, he ▸ List.getElem_mem hi', ?_⟩
      split_ifs at htoken with hagent
      · exact absurd htoken (by simp [HasToken])
      · exact ⟨by simpa using hagent, htoken⟩
  · rintro ⟨haccepted, entry, hmem, hagent, htoken⟩
    obtain ⟨payloads, hall⟩ : ∃ payloads, List.Forall₂ (fun v r => ∃ entry, v = .obj entry ∧
        flatAuth py entry [] = .ok r) (accountEntries document) payloads := by
      generalize accountEntries document = entries at haccepted
      induction entries with
      | nil => exact ⟨[], .nil⟩
      | cons v rest ih =>
        obtain ⟨e, r, he, hr⟩ := haccepted v List.mem_cons_self
        obtain ⟨rs, hrs⟩ := ih fun v' hv' => haccepted v' (List.mem_cons_of_mem v hv')
        exact ⟨r :: rs, .cons ⟨e, he, hr⟩ hrs⟩
    refine ⟨payloads, (expandObject_iff htype).mpr ⟨List.ne_nil_of_mem hmem, hall⟩, ?_⟩
    obtain ⟨i, hi, he⟩ := List.getElem_of_mem hmem
    have hi' : i < payloads.length := by rw [← hall.length_eq]; exact hi
    obtain ⟨e, he', hr⟩ := hall.get hi hi'
    simp only [List.get_eq_getElem] at he' hr
    rw [he] at he'
    rw [← Json.obj.inj he'] at hr
    refine ⟨payloads[i], List.getElem_mem hi', ?_⟩
    rw [authTokens_flatAuth hr, if_neg (by simp [hagent])]
    exact htoken

/-! ### One file -/

/-- The two reasons for which a file counts as without credentials. -/
def tokenlessReasons : List Str :=
  [lit "missing-refresh-and-access-token", lit "invalid-auth-json"]

/-- **When a document counts as without credentials**: it is scanned, no Agent Identity, and has no
token of its own. -/
theorem documentReason_tokenless {now : ℚ} {document : Dict} {reason : Str}
    (h : documentReason py now document = .ok (some reason)) : reason ∈ tokenlessReasons ↔
      AgentIdentity.isAgentIdentity py document = false ∧ (authTokens py document).any = false := by
  unfold documentReason at h
  by_cases hscanned : providerOf py document ∈ scannedProviders
  swap
  · rw [if_pos hscanned] at h
    exact absurd h (by simp)
  rw [if_neg (not_not.mpr hscanned)] at h
  by_cases hagent : AgentIdentity.isAgentIdentity py document = true
  · rw [if_pos hagent] at h
    rw [← Option.some.inj (Except.ok.inj h)]
    refine iff_of_false ?_ (by simp [hagent])
    split_ifs
    · decide
    · decide
  rw [if_neg hagent] at h
  simp only at h
  by_cases hany : (authTokens py document).any = true
  · rw [if_neg (by simp [hany])] at h
    obtain ⟨expiry, -, h⟩ := except_bind_ok h
    refine iff_of_false ?_ (by simp [hany])
    split_ifs at h
    · rw [← Option.some.inj (Except.ok.inj h)]; decide
    · rw [← Option.some.inj (Except.ok.inj h)]; decide
  · rw [if_pos (by simpa using hany)] at h
    rw [← Option.some.inj (Except.ok.inj h)]
    exact iff_of_true (by decide) ⟨by simpa using hagent, by simpa using hany⟩

/-- A scanned document without credentials has a reason. -/
theorem documentReason_missing {now : ℚ} {document : Dict}
    (hscanned : providerOf py document ∈ scannedProviders)
    (hagent : AgentIdentity.isAgentIdentity py document = false)
    (hany : (authTokens py document).any = false) :
    documentReason py now document = .ok (some (lit "missing-refresh-and-access-token")) := by
  unfold documentReason
  simp only
  rw [if_neg (not_not.mpr hscanned), if_neg (by simp [hagent]), if_pos (by simp [hany])]

theorem documentReason_scanned {now : ℚ} {document : Dict} {reason : Str}
    (h : documentReason py now document = .ok (some reason)) :
    providerOf py document ∈ scannedProviders := by
  by_contra hscanned
  rw [documentReason, if_pos hscanned] at h
  exact absurd h (by simp)

/-- A file that counts as without credentials while the prober finds one in it. -/
def Misjudged (py : Py) (now : ℚ) (path : FileName) (file : File) : Prop :=
  (∃ found, fileContexts py path file = .ok found ∧
    ∃ x ∈ found, HasToken (authTokens py x.payload)) ∧
  ∃ r, record py now path file = .ok (some r) ∧ r.staticReason ∈ tokenlessReasons

/-- **The files that are misjudged** are those of the documents with their tokens in their entries. -/
theorem misjudged_iff (now : ℚ) (path : FileName) (file : File) : Misjudged py now path file ↔
    ∃ document, file.bytes.length ≤ maxAuthFileBytes ∧ file.content = .value (.obj document) ∧
      TokensBelow py document := by
  have hnil : ∀ {found : List ProbeContext}, (Except.ok [] : Except PyError _) = .ok found →
      ¬ ∃ x ∈ found, HasToken (authTokens py x.payload) := by
    rintro found he ⟨x, hx, -⟩
    rw [← Except.ok.inj he] at hx
    exact absurd hx (by simp)
  unfold Misjudged
  constructor
  · rintro ⟨⟨found, hfound, hx⟩, r, hr, hreason⟩
    unfold fileContexts at hfound
    unfold record at hr
    split_ifs at hfound hr with hlong
    · exact absurd hx (hnil hfound)
    split at hfound
    · exact absurd hfound (by simp)
    · next document hcontent =>
      rw [hcontent] at hr
      simp only at hr
      split_ifs at hfound with hagent
      · exact absurd hx (hnil hfound)
      rcases hexp : expandObject py document path.text with e | payloads
      · rw [hexp] at hfound
        cases e <;> first | exact absurd hx (hnil hfound) | exact absurd hfound (by simp)
      rw [hexp] at hfound
      rcases hdoc : documentReason py now document with e | reason
      · rw [hdoc] at hr; exact absurd hr (by simp [Except.map])
      rcases reason with _ | reason
      · rw [hdoc] at hr; exact absurd hr (by simp [Except.map])
      rw [hdoc] at hr
      simp only [Except.map, Option.map_some, Except.ok.injEq, Option.some.injEq] at hr
      rw [← hr] at hreason
      have hscanned := documentReason_scanned hdoc
      obtain ⟨hno, hbare⟩ := (documentReason_tokenless hdoc).mp hreason
      have htoken : ∃ payload ∈ payloads, HasToken (authTokens py payload) := by
        obtain ⟨x, hmem, ht⟩ := hx
        rw [← Except.ok.inj hfound] at hmem
        obtain ⟨payload, hp, rfl⟩ := List.mem_map.mp hmem
        exact ⟨payload, hp, ht⟩
      obtain ⟨haccepted, hlive⟩ := (expandObject_token path.text hscanned).mp ⟨payloads, hexp, htoken⟩
      exact ⟨document, not_lt.mp hlong, hcontent, hscanned, hno, hbare, haccepted, hlive⟩
    · exact absurd hx (hnil hfound)
  · rintro ⟨document, hlen, hcontent, hbelow⟩
    obtain ⟨payloads, hexp, payload, hmem, htoken⟩ :=
      (expandObject_token path.text hbelow.scanned).mpr ⟨hbelow.accepted, hbelow.live⟩
    have hlong : ¬ maxAuthFileBytes < file.bytes.length := not_lt.mpr hlen
    constructor
    · refine ⟨payloads.map (⟨path, py.sha256 file.bytes, ·⟩), ?_,
        ⟨path, py.sha256 file.bytes, payload⟩, List.mem_map_of_mem hmem, htoken⟩
      rw [fileContexts, if_neg hlong, hcontent]
      simp only [hbelow.noAgent, hexp, Bool.false_eq_true, if_false]
    · refine ⟨⟨path, py.sha256 file.bytes, lit "missing-refresh-and-access-token"⟩, ?_,
        List.mem_cons_self⟩
      rw [record, if_neg hlong, hcontent]
      simp only [documentReason_missing hbelow.scanned hbelow.noAgent hbelow.bare, Except.map,
        Option.map_some]

/-! ### The directory -/

theorem mem_readAll {dir : Dir FileName File} {name : FileName} {file : File} :
    (name, some file) ∈ readAll dir ↔
      endsWith name.text (lit ".json") = true ∧ dir.lookup name = some file := by
  simp only [readAll, List.mem_map, Prod.mk.injEq, mem_jsonNames]
  constructor
  · rintro ⟨n, ⟨-, hend⟩, rfl, hfile⟩
    exact ⟨hend, hfile⟩
  · rintro ⟨hend, hfile⟩
    exact ⟨name, ⟨Finmap.mem_keys.mpr (mem_of_lookup hfile), hend⟩, rfl, hfile⟩

/-- **The scan agrees with the prober on a file exactly if the file's tokens are not all in its
entries.** -/
theorem scan_agrees_iff {now : ℚ} {dir : Dir FileName File} {selected : List ProbeContext}
    {records : List AuthRecord} {name : FileName} {file : File}
    (hcontexts : contexts py (readAll dir) = .ok selected)
    (hscan : scanActiveAuth py now (readAll dir) = .ok records)
    (hname : endsWith name.text (lit ".json") = true) (hfile : dir.lookup name = some file) :
    ((∃ x ∈ selected, x.path = name ∧ HasToken (authTokens py x.payload)) →
      ∀ r ∈ records, r.path = name → r.staticReason ∉ tokenlessReasons) ↔
    ∀ document, file.bytes.length ≤ maxAuthFileBytes → file.content = .value (.obj document) →
      ¬ TokensBelow py document := by
  have hread : (name, some file) ∈ readAll dir := mem_readAll.mpr ⟨hname, hfile⟩
  have hsame : ∀ {f : File}, (name, some f) ∈ readAll dir → f = file := fun hf =>
    Option.some.inj ((mem_readAll.mp hf).2.symm.trans hfile)
  have hiff : ((∃ x ∈ selected, x.path = name ∧ HasToken (authTokens py x.payload)) ∧
      ∃ r ∈ records, r.path = name ∧ r.staticReason ∈ tokenlessReasons) ↔
        Misjudged py now name file := by
    constructor
    · rintro ⟨⟨x, hx, rfl, htoken⟩, r, hr, hpath, hreason⟩
      obtain ⟨f, found, hf, hfound, hxf⟩ := mem_contextsFrom hcontexts hx
      obtain ⟨g, hg, hrecord⟩ := (mem_scanActiveAuth hscan).mp hr
      rw [hpath] at hg hrecord
      rw [hsame hf] at hfound
      rw [hsame hg] at hrecord
      exact ⟨⟨found, hfound, x, hxf, htoken⟩, r, hrecord, hreason⟩
    · rintro ⟨⟨found, hfound, x, hx, htoken⟩, r, hrecord, hreason⟩
      obtain ⟨found', hfound', hsub⟩ := contextsFrom_mem hcontexts hread
      rw [hfound, Except.ok.injEq] at hfound'
      subst hfound'
      obtain ⟨hpath, -⟩ := record_path hrecord
      refine ⟨⟨x, hsub x hx, (mem_fileContexts hfound hx).1, htoken⟩, r, ?_, hpath, hreason⟩
      exact (mem_scanActiveAuth hscan).mpr ⟨file, by rw [hpath]; exact hread,
        by rw [hpath]; exact hrecord⟩
  rw [misjudged_iff] at hiff
  constructor
  · intro h document hlen hcontent hbelow
    obtain ⟨hx, r, hr, hpath, hreason⟩ := hiff.mpr ⟨document, hlen, hcontent, hbelow⟩
    exact h hx r hr hpath hreason
  · intro h hx r hr hpath hreason
    obtain ⟨document, hlen, hcontent, hbelow⟩ := hiff.mp ⟨hx, r, hr, hpath, hreason⟩
    exact h document hlen hcontent hbelow

/-- A list with one account that has an access token. -/
def sampleBundle : File :=
  jsonFile onePy true [(lit "accounts", .arr [.obj [(lit "access_token", .str (lit "a.b.c"))]])]

/-- A document with an access token. -/
def sampleToken : File := jsonFile onePy true [(lit "access_token", .str (lit "a.b.c"))]

theorem readAll_single {name : FileName} (hjson : endsWith name.text (lit ".json") = true)
    (file : File) : readAll (Finmap.singleton name file) = [(name, some file)] := by
  have hnames : jsonNames (Finmap.singleton name file : Dir FileName File).keys = [name] := by
    rw [jsonNames, Finmap.keys_singleton, Finset.image_singleton, Finset.filter_singleton, if_pos hjson,
      Finset.sort_singleton, List.filterMap_cons, ofStr?_name]
    rfl
  rw [readAll, hnames, List.map_singleton, Finmap.lookup_singleton_eq]

/-- On a file with a token of its own the scan and the prober agree. -/
theorem scan_agrees_on_token :
    scanActiveAuth onePy 0 (readAll (Finmap.singleton aJson sampleToken)) =
        .ok [⟨aJson, onePy.sha256 sampleToken.bytes, []⟩] ∧
      ∀ r ∈ [(⟨aJson, onePy.sha256 sampleToken.bytes, []⟩ : AuthRecord)],
        r.path = aJson → r.staticReason ∉ tokenlessReasons := by
  have hcontexts : contexts onePy (readAll (Finmap.singleton aJson sampleToken)) =
      .ok ((contexts onePy [(aJson, some sampleToken)]).toOption.getD []) := by
    rw [readAll_single (by decide)]; decide +kernel
  have hscan : scanActiveAuth onePy 0 (readAll (Finmap.singleton aJson sampleToken)) =
      .ok [⟨aJson, onePy.sha256 sampleToken.bytes, []⟩] := by
    rw [readAll_single (by decide)]; decide +kernel
  have hjson : endsWith aJson.text (lit ".json") = true := by decide
  refine ⟨hscan, (scan_agrees_iff hcontexts hscan hjson Finmap.lookup_singleton_eq).mpr ?_ ?_⟩
  · intro document _ hcontent hbelow
    have hdoc : document = [(lit "access_token", .str (lit "a.b.c"))] :=
      Json.obj.inj (Loaded.value.inj hcontent.symm)
    rw [hdoc] at hbelow
    exact absurd hbelow.bare (by decide +kernel)
  · unfold HasToken
    decide +kernel

/-- A list of accounts counts as without credentials although the prober finds its account. -/
theorem bundle_counts_as_tokenless : ¬ ∀ (py : Py) (now : ℚ) (dir : Dir FileName File)
    (selected : List ProbeContext) (records : List AuthRecord) (name : FileName),
    contexts py (readAll dir) = .ok selected → scanActiveAuth py now (readAll dir) = .ok records →
    (∃ x ∈ selected, x.path = name ∧ HasToken (authTokens py x.payload)) →
      ∀ r ∈ records, r.path = name → r.staticReason ∉ tokenlessReasons := by
  intro h
  refine absurd (h onePy 0 (Finmap.singleton aJson sampleBundle)
    ((contexts onePy [(aJson, some sampleBundle)]).toOption.getD [])
    ((scanActiveAuth onePy 0 [(aJson, some sampleBundle)]).toOption.getD []) aJson ?_ ?_ ?_) ?_
  · rw [readAll_single (by decide)]; decide +kernel
  · rw [readAll_single (by decide)]; decide +kernel
  · unfold HasToken
    decide +kernel
  · decide +kernel

end Cloudx.Local.ScanAgreement

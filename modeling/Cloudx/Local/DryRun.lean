import Cloudx.Local.ImportResults

/-! # The dry run of a local import, and a second import

The dry run judges all targets against the directory as it is, and the import writes one file after the
other. Both start from the same states of the targets (`dryRun_iff`), so they differ only where the
checks after the writes fail. These fail, or a second import has work to do, exactly when two planned
files of one name differ (`Clash`). -/

namespace Cloudx.Local.DryRun

open Cloudx.Lib.Memo Cloudx.Lib.Store Cloudx.Lib.Rollback
open Cloudx.Python.Text Cloudx.Python.Value Cloudx.Python.Dump
open Cloudx.Shared Cloudx.Shared.Credential Cloudx.Shared.Source
open Cloudx.Local.Import Cloudx.Local.Importer Cloudx.Local.ImportWrites Cloudx.Local.ImportResults

/-- Nothing fails. -/
def steady : Step → Bool := fun _ => false

/-! ### What may be written -/

/-- The import may write these files: the auth directory is none or is one, and each target is a
regular file with a JSON object or is not there; without `force` that object is the planned one. -/
structure Permitted (py : Py) (force : Bool) (auth : AuthDir) (plans : List PlannedFile) : Prop where
  directory : auth ≠ .blocked
  regular : ∀ plan ∈ plans, ∀ name : FileName, name.text = plan.name → name ∉ auth.others
  readable : ∀ plan ∈ plans, ∀ name : FileName, name.text = plan.name → ∀ f,
    auth.files.lookup name = some f →
      ∃ raw, canonicalJson py f = .ok raw ∧ (force = false → raw = plan.payload.bytes)

/-- Two planned files of one name differ. -/
def Clash (plans : List PlannedFile) : Prop :=
  ∃ p ∈ plans, ∃ q ∈ plans, p.name = q.name ∧ p.payload.bytes ≠ q.payload.bytes

/-- What holds of all planned files: their names are names, and their documents are credentials that
are written as they are read. -/
structure Sound (py : Py) (plan : PlannedFile) : Prop where
  name : ValidName plan.name
  canonical : canonicalJson py plan.payload = .ok plan.payload.bytes
  credential : isCredential py plan.payload = true

variable {py : Py} {force : Bool} {auth auth' : AuthDir} {plans : List PlannedFile}
  {states : List Target} {counts : Counts}

theorem fileName_ext {m n : FileName} (h : m.text = n.text) : m = n := by
  cases m
  cases n
  cases h
  rfl

theorem sameJson_canonical {payload file : File} {raw : Bytes} (h : canonicalJson py file = .ok raw) :
    sameJson py payload (some file) = .ok (decide (raw = payload.bytes)) := by
  rw [sameJson, h]
  rfl

/-- What the checks before the first write let pass may be written. -/
theorem permitted_of_checked {fails : Step → Bool} (hne : auth ≠ .blocked)
    (h : checkedStates py fails force auth plans = .ok states) : Permitted py force auth plans := by
  obtain ⟨hfits, hconflict⟩ := checkedStates_ok h
  have hfind : ∀ plan ∈ plans, ∀ name : FileName, name.text = plan.name →
      ∃ t ∈ states, t.name = name ∧ Fits py auth.others auth.files plan t := by
    intro plan hplan name hname
    obtain ⟨t, ht, hfit⟩ := forall₂_mem_left hfits plan hplan
    exact ⟨t, ht, fileName_ext (hfit.name.trans hname.symm), hfit⟩
  refine ⟨hne, fun plan hplan name hname => ?_, fun plan hplan name hname f hf => ?_⟩
  · obtain ⟨t, -, rfl, hfit⟩ := hfind plan hplan name hname
    exact hfit.regular
  · obtain ⟨t, ht, rfl, hfit⟩ := hfind plan hplan name hname
    have hsame := hfit.unchanged
    rw [hf] at hsame
    rcases hraw : canonicalJson py f with e | raw
    · rw [sameJson, hraw] at hsame
      exact absurd hsame (by simp [Except.map])
    rw [sameJson_canonical hraw] at hsame
    refine ⟨raw, rfl, fun hforce => ?_⟩
    have hnot := hconflict hforce t ht
    have hunchanged : t.unchanged = true := by
      rw [isConflict, hfit.original, hf] at hnot
      simpa using hnot
    rw [hunchanged] at hsame
    simpa using hsame

/-- The state of a planned file that may be written. -/
theorem exists_fits (hsound : ∀ plan ∈ plans, Sound py plan) (h : Permitted py force auth plans)
    {plan : PlannedFile} (hplan : plan ∈ plans) :
    ∃ t, Fits py auth.others auth.files plan t ∧ (force = false → isConflict t = false) := by
  have hvalid := (hsound plan hplan).name
  let name : FileName := ⟨plan.name, hvalid⟩
  rcases hf : auth.files.lookup name with _ | f
  · exact ⟨⟨name, plan.payload, none, false⟩, ⟨rfl, rfl, hf.symm, h.regular plan hplan name rfl,
      by rw [hf]; rfl⟩, fun _ => rfl⟩
  · obtain ⟨raw, hraw, hforce⟩ := h.readable plan hplan name rfl f hf
    refine ⟨⟨name, plan.payload, some f, decide (raw = plan.payload.bytes)⟩, ⟨rfl, rfl, hf.symm,
      h.regular plan hplan name rfl, by rw [hf]; exact sameJson_canonical hraw⟩, fun hno => ?_⟩
    simp [isConflict, hforce hno]

/-- **The checks before the first write let pass what may be written.** -/
theorem checked_of_permitted (hsound : ∀ plan ∈ plans, Sound py plan)
    (h : Permitted py force auth plans) :
    ∃ states, checkedStates py steady force auth plans = .ok states := by
  obtain ⟨states, hstates⟩ := forall₂_exists fun plan hplan => exists_fits hsound h hplan
  have hfits : List.Forall₂ (Fits py auth.others auth.files) plans states :=
    hstates.imp fun _ _ ht => ht.1
  refine ⟨states, ?_⟩
  unfold checkedStates
  rw [statesFrom_of (fun _ => rfl) hfits]
  simp only
  rcases hfind : states.find? isConflict with _ | t
  · rfl
  · simp only
    refine if_pos (Bool.not_eq_false _ ▸ fun hforce => ?_)
    obtain ⟨plan, -, -, hno⟩ := forall₂_mem_right hstates t (List.mem_of_find?_eq_some hfind)
    have := List.find?_some hfind
    rw [hno hforce] at this
    exact absurd this (by simp)

/-! ### What is written -/

theorem verifyFrom_of {dir : Dir FileName File} : ∀ {changes : List Target} {i : ℕ},
    (∀ t ∈ changes, (dir.lookup t.name).map File.bytes = some t.payload.bytes ∧
      isCredential py t.payload = true) → verifyFrom py steady dir i changes = .ok ()
  | [], _, _ => rfl
  | t :: rest, i, h => by
    obtain ⟨hbytes, hcredential⟩ := h t List.mem_cons_self
    unfold verifyFrom
    rw [if_neg (by simp [steady]), if_neg (by simp [steady, hbytes]),
      if_neg (by simp [steady, hcredential])]
    exact verifyFrom_of fun u hu => h u (List.mem_cons_of_mem t hu)

/-- What the call does when nothing fails and all its checks let it pass. -/
def done (states : List Target) (auth : AuthDir) : Counts × AuthDir :=
  (⟨(changesOf states).length, states.length - (changesOf states).length, (changesOf states).length⟩,
    auth.holding (writes steady (changesOf states) auth.files).2.2)

/-- Files of one name have the same bytes. -/
theorem bytes_of_name (hno : ¬ Clash plans) {others : Finset FileName} {dir : Dir FileName File}
    (hfits : List.Forall₂ (Fits py others dir) plans states) {t u : Target}
    (ht : t ∈ states) (hu : u ∈ states) (hname : u.name = t.name) :
    u.payload.bytes = t.payload.bytes := by
  obtain ⟨p, hp, hpt⟩ := forall₂_mem_right hfits t ht
  obtain ⟨q, hq, hqu⟩ := forall₂_mem_right hfits u hu
  by_contra hne
  refine hno ⟨q, hq, p, hp, ?_, ?_⟩
  · rw [← hqu.name, ← hpt.name, hname]
  · rwa [← hqu.payload, ← hpt.payload]

/-- **Without a clash the import succeeds** once its targets have been checked. -/
theorem writePlansWith_of (hsound : ∀ plan ∈ plans, Sound py plan) (hno : ¬ Clash plans)
    (hne : auth ≠ .blocked) (hstates : checkedStates py steady force auth plans = .ok states) :
    writePlansWith py steady force plans auth = (.ok (done states auth).1, (done states auth).2) ∧
      Written py steady auth (done states auth).2 states (done states auth).1 := by
  have hfits := (checkedStates_ok hstates).1
  have hall : (writes steady (changesOf states) auth.files).1 = true :=
    perform_steady (fun _ => rfl) _ 0 auth.files
  have hwritten : ∀ t ∈ changesOf states,
      ((writes steady (changesOf states) auth.files).2.2.lookup t.name).map File.bytes =
        some t.payload.bytes ∧ isCredential py t.payload = true := by
    intro t ht
    have hmem := (List.mem_filter.mp ht).1
    have hcompleted : (writes steady (changesOf states) auth.files).2.1 =
        (changesOf states).map toWrite := perform_all _ 0 auth.files hall
    obtain ⟨v, hv, hname, hlook⟩ := lookup_perform _ 0 auth.files
      (w := toWrite t) (hcompleted ▸ List.mem_map_of_mem ht)
    obtain ⟨u, hu, rfl⟩ := List.mem_map.mp (hcompleted ▸ hv)
    refine ⟨?_, ?_⟩
    · have hlook' : (writes steady (changesOf states) auth.files).2.2.lookup t.name =
          some u.payload := hlook
      rw [hlook', Option.map_some, bytes_of_name hno hfits hmem (List.mem_filter.mp hu).1 hname]
    · obtain ⟨plan, hplan, hfit⟩ := forall₂_mem_right hfits t hmem
      rw [hfit.payload]
      exact (hsound plan hplan).credential
  have hverified : verifyFrom py steady (writes steady (changesOf states) auth.files).2.2 0
      (changesOf states) = .ok () := verifyFrom_of hwritten
  have hattempt : attempt py steady (changesOf states) auth.files = .ok () := by
    rw [attempt, if_pos hall, hverified]
  have hlocked : underLock py steady force plans auth =
      (.ok (done states auth).1, (done states auth).2) := by
    unfold underLock
    rw [if_neg (by simp [steady]), hstates]
    simp only [carryOut, hattempt]
    rfl
  refine ⟨?_, hall, hverified, rfl, rfl⟩
  rcases auth with _ | _ | ⟨others, files⟩
  case blocked => exact absurd rfl hne
  all_goals exact hlocked

/-- **What an import without a clash leaves under each planned name**: a file with that document. -/
theorem settled (hsound : ∀ plan ∈ plans, Sound py plan) (hno : ¬ Clash plans)
    (hfits : List.Forall₂ (Fits py auth.others auth.files) plans states)
    (hw : Written py steady auth auth' states counts) {plan : PlannedFile} (hplan : plan ∈ plans)
    {name : FileName} (hname : name.text = plan.name) :
    ∃ f, auth'.files.lookup name = some f ∧ canonicalJson py f = .ok plan.payload.bytes := by
  obtain ⟨t, ht, hfit⟩ := forall₂_mem_left hfits plan hplan
  have hsame : name = t.name := fileName_ext (hname.trans hfit.name.symm)
  by_cases hchange : ∃ u ∈ changesOf states, u.name = t.name
  · obtain ⟨u, hu, hut⟩ := hchange
    obtain ⟨v, hv, hvu, hlook⟩ := lookup_change hw hu
    obtain ⟨-, q, hq, hqv⟩ := mem_changesOf hfits hv
    have hbytes := bytes_of_name hno hfits ht (List.mem_filter.mp hv).1 (hvu.trans hut)
    refine ⟨v.payload, by rw [hsame, ← hut]; exact hlook, ?_⟩
    rw [hqv.payload, (hsound q hq).canonical, ← hqv.payload, hbytes, hfit.payload]
  · push Not at hchange
    have hkept := lookup_other hw hchange
    have hunchanged : t.unchanged = true := by
      by_contra hno'
      exact hchange t (List.mem_filter.mpr ⟨ht, by simpa using hno'⟩) rfl
    have hjson := hfit.unchanged
    rw [hunchanged] at hjson
    rcases horiginal : auth.files.lookup t.name with _ | f
    · rw [horiginal] at hjson
      exact absurd hjson (by simp [sameJson])
    · rw [horiginal] at hjson hkept
      exact ⟨f, by rw [hsame]; exact hkept, sameJson_some.mp hjson⟩

/-- Where each planned name holds its document, nothing is to be done. -/
theorem nothing_to_do {others : Finset FileName} {dir : Dir FileName File}
    (hfits : List.Forall₂ (Fits py others dir) plans states)
    (hsettled : ∀ plan ∈ plans, ∀ name : FileName, name.text = plan.name →
      ∃ f, dir.lookup name = some f ∧ canonicalJson py f = .ok plan.payload.bytes) :
    changesOf states = [] := by
  refine List.filter_eq_nil_iff.mpr fun t ht => ?_
  obtain ⟨plan, hplan, hfit⟩ := forall₂_mem_right hfits t ht
  obtain ⟨f, hf, hcanonical⟩ := hsettled plan hplan t.name hfit.name
  have hsame := hfit.unchanged
  rw [hf, sameJson_some.mpr hcanonical] at hsame
  simp [← Except.ok.inj hsame]

/-- Where nothing is to be done, the planned files of one name do not differ. -/
theorem no_clash {others : Finset FileName} {dir : Dir FileName File}
    (hfits : List.Forall₂ (Fits py others dir) plans states) (hnone : changesOf states = []) :
    ¬ Clash plans := by
  have hheld : ∀ t ∈ states, ∀ plan, Fits py others dir plan t →
      ∃ f, dir.lookup t.name = some f ∧ canonicalJson py f = .ok plan.payload.bytes := by
    intro t ht plan hfit
    have hunchanged : t.unchanged = true := by
      have := List.filter_eq_nil_iff.mp hnone t ht
      simpa using this
    have hsame := hfit.unchanged
    rw [hunchanged] at hsame
    rcases horiginal : dir.lookup t.name with _ | f
    · rw [horiginal] at hsame
      exact absurd hsame (by simp [sameJson])
    · rw [horiginal] at hsame
      exact ⟨f, rfl, sameJson_some.mp hsame⟩
  rintro ⟨p, hp, q, hq, hname, hbytes⟩
  obtain ⟨t, ht, hpt⟩ := forall₂_mem_left hfits p hp
  obtain ⟨u, hu, hqu⟩ := forall₂_mem_left hfits q hq
  obtain ⟨f, hf, hfp⟩ := hheld t ht p hpt
  obtain ⟨g, hg, hgq⟩ := hheld u hu q hqu
  have hsame : t.name = u.name := fileName_ext (hpt.name.trans (hname.trans hqu.name.symm))
  rw [hsame, hg] at hf
  rw [← Option.some.inj hf, hgq] at hfp
  exact hbytes (Except.ok.inj hfp).symm

/-- **A second import without a clash** finds everything as it is to be. -/
theorem again_of (hsound : ∀ plan ∈ plans, Sound py plan) (hno : ¬ Clash plans)
    (hne : auth ≠ .blocked) (hstates : checkedStates py steady force auth plans = .ok states) :
    writePlansWith py steady force plans (done states auth).2 =
      (.ok ⟨0, plans.length, 0⟩, (done states auth).2) := by
  obtain ⟨-, hw⟩ := writePlansWith_of hsound hno hne hstates
  have hfits := (checkedStates_ok hstates).1
  have hregular := (permitted_of_checked hne hstates).regular
  have hsettled : ∀ plan ∈ plans, ∀ name : FileName, name.text = plan.name →
      ∃ f, (done states auth).2.files.lookup name = some f ∧
        canonicalJson py f = .ok plan.payload.bytes :=
    fun _ hplan _ hname => settled hsound hno hfits hw hplan hname
  have hpermitted : Permitted py force (done states auth).2 plans := by
    refine ⟨by simp [done, Found.holding], hregular, fun plan hplan name hname f hf => ?_⟩
    obtain ⟨g, hg, hcanonical⟩ := hsettled plan hplan name hname
    rw [hf] at hg
    exact ⟨_, Option.some.inj hg ▸ hcanonical, fun _ => rfl⟩
  obtain ⟨states', hstates'⟩ := checked_of_permitted hsound hpermitted
  obtain ⟨hok, -⟩ := writePlansWith_of hsound hno hpermitted.directory hstates'
  have hfits' := (checkedStates_ok hstates').1
  have hnone : changesOf states' = [] := nothing_to_do hfits' hsettled
  rw [hok]
  simp only [done, hnone, hfits'.length_eq]
  rfl

/-! ### What the dry run says -/

/-- **The dry run accepts what may be written.** -/
theorem dryRun_iff (hsound : ∀ plan ∈ plans, Sound py plan) :
    (∃ counts, dryRun py steady force plans auth = .ok counts) ↔ Permitted py force auth plans := by
  rcases auth with _ | _ | ⟨others, files⟩
  · refine iff_of_true ⟨_, rfl⟩ ⟨by simp, fun _ _ name _ => ?_, fun _ _ name _ f hf => ?_⟩
    · exact Finset.notMem_empty name
    · exact absurd hf (by simp [Found.files])
  · exact iff_of_false (fun h => h.elim fun _ h => absurd h (by simp [dryRun])) fun h => h.directory rfl
  · constructor
    · rintro ⟨counts, h⟩
      rcases hstates : checkedStates py steady force (.present others files) plans with e | states
      · rw [dryRun, hstates] at h
        exact absurd h (by simp [Except.map])
      · exact permitted_of_checked (by simp) hstates
    · intro h
      obtain ⟨states, hstates⟩ := checked_of_permitted hsound h
      exact ⟨_, by rw [dryRun, hstates]; rfl⟩

theorem length_changesOf (states : List Target) :
    (changesOf states).length = states.length - states.countP (·.unchanged) := by
  have := List.length_eq_countP_add_countP (fun t : Target => t.unchanged) (l := states)
  have hchanges : (changesOf states).length = states.countP fun t => !t.unchanged := by
    rw [changesOf, List.countP_eq_length_filter]
  simp only [Bool.not_eq_true, Bool.decide_eq_false] at this
  omega

/-- The counts of a dry run are those of the import, which alone verifies files. -/
theorem dryRun_counts (hstates : checkedStates py steady force auth plans = .ok states)
    (hne : auth ≠ .blocked) :
    dryRun py steady force plans auth =
      .ok ⟨(done states auth).1.written, (done states auth).1.unchanged, 0⟩ := by
  have hfits := (checkedStates_ok hstates).1
  have hlength := hfits.length_eq
  have hcount : states.countP (·.unchanged) ≤ states.length := List.countP_le_length
  rcases auth with _ | _ | ⟨others, files⟩
  · have hnone : states.countP (·.unchanged) = 0 := by
      refine List.countP_eq_zero.mpr fun t ht => ?_
      obtain ⟨plan, -, hfit⟩ := forall₂_mem_right hfits t ht
      have hempty : sameJson py plan.payload none = .ok t.unchanged := hfit.unchanged
      simp [← Except.ok.inj hempty]
    simp only [dryRun, done, length_changesOf, hnone, hlength, Nat.sub_zero, Nat.sub_self]
  · exact absurd rfl hne
  · rw [dryRun, hstates]
    simp only [Except.map, done, length_changesOf, hlength]
    rw [Nat.sub_sub_self hcount]

/-! ### The whole import -/

section Import
variable {dec : Decoder} {cards : Bool → Str → Except PyError (List (Dict × Str))} {opts : Options}
  {sources : List SourceText}

/-- The files that are planned for flat records are sound. -/
theorem sound_of_flat {records unique : List (Dict × Str)} (hchars : AlnumChars opts.isalnum)
    (hflat : ∀ x ∈ records, ∃ entry, flatAuth py entry [] = .ok x.1)
    (hplan : planImport py opts records = .ok (unique, plans)) : ∀ plan ∈ plans, Sound py plan := by
  obtain ⟨hunique, hplans⟩ := planImport_ok hplan
  intro plan hmem
  obtain ⟨x, hx, hpay, henc, hvalid, -⟩ := forall₂_mem_right (planFiles_ok hchars hplans) plan hmem
  obtain ⟨entry, hentry⟩ := hflat x (mem_deduplicate hunique hx)
  refine ⟨hvalid, by rw [hpay]; exact canonicalJson_jsonFile henc, ?_⟩
  rw [hpay]
  show ((authTokens py x.1).any || AgentIdentity.isValid py x.1) = true
  rcases flatAuth_ok hentry with ⟨-, hform⟩ | ⟨hagent, hany, -⟩
  · rw [hform.isValid, Bool.or_true]
  · rw [authTokens_flatAuth hentry, if_neg (by simp [hagent]), hany, Bool.true_or]

/-- The files that an import plans are sound. -/
theorem sound_planned {dry : Bool} {records unique : List (Dict × Str)}
    (hchars : AlnumChars opts.isalnum) (hrecords : collect py dec (cards dry) sources = .ok records)
    (hplan : planImport py opts records = .ok (unique, plans)) : ∀ plan ∈ plans, Sound py plan :=
  sound_of_flat hchars (fun _ hx => mem_collect hrecords hx) hplan

/-- Without raw card lines a dry run reads what the import reads. -/
theorem collect_json : ∀ {sources : List SourceText},
    (∀ s ∈ sources, jsonDocuments dec s.text ≠ .ok []) →
      collect py dec (cards true) sources = collect py dec (cards false) sources
  | [], _ => rfl
  | source :: rest, h => by
    have hnormal : normalizeText py dec (cards true) source =
        normalizeText py dec (cards false) source := by
      have hsource := h source List.mem_cons_self
      unfold normalizeText
      rcases hdocuments : jsonDocuments dec source.text with e | documents
      · rfl
      · have hne : documents ≠ [] := fun he => hsource (he ▸ hdocuments)
        simp only [bind, Except.bind, if_pos hne]
    unfold collect
    rw [hnormal, collect_json fun s hs => h s (List.mem_cons_of_mem _ hs)]

/-- **A dry run predicts the import, and a second import changes nothing.** -/
structure Predicted (py : Py) (dec : Decoder)
    (cards : Bool → Str → Except PyError (List (Dict × Str))) (opts : Options)
    (sources : List SourceText) (auth : AuthDir) : Prop where
  accepted : (∃ r, (importAll py steady dec cards opts true sources auth).1 = .ok r) ↔
    ∃ r, (importAll py steady dec cards opts false sources auth).1 = .ok r
  counts : ∀ d r, (importAll py steady dec cards opts true sources auth).1 = .ok d →
    (importAll py steady dec cards opts false sources auth).1 = .ok r →
      d.parsed = r.parsed ∧ d.duplicates = r.duplicates ∧ d.counts.written = r.counts.written ∧
        d.counts.unchanged = r.counts.unchanged
  again : ∀ r auth', importAll py steady dec cards opts false sources auth = (.ok r, auth') →
    importAll py steady dec cards opts false sources auth' =
      (.ok ⟨r.parsed, r.duplicates, ⟨0, r.counts.written + r.counts.unchanged, 0⟩⟩, auth')

/-- An import that is refused either way is predicted. -/
theorem predicted_refused {auth : AuthDir}
    (hd : ∃ e, (importAll py steady dec cards opts true sources auth).1 = .error e)
    (hr : ∃ e, (importAll py steady dec cards opts false sources auth).1 = .error e) :
    Predicted py dec cards opts sources auth := by
  obtain ⟨e, hdry⟩ := hd
  obtain ⟨e', hreal⟩ := hr
  refine ⟨?_, fun d r hd => ?_, fun r auth' hr => ?_⟩
  · rw [hdry, hreal]
    exact iff_of_false (by simp) (by simp)
  · rw [hdry] at hd
    exact absurd hd (by simp)
  · rw [hr] at hreal
    exact absurd hreal (by simp)

/-- The import of collected and planned records, and its dry run. -/
theorem importAll_planned (fails : Step → Bool) {dry : Bool} {records unique : List (Dict × Str)}
    (hrecords : collect py dec (cards dry) sources = .ok records)
    (hplan : planImport py opts records = .ok (unique, plans)) (auth : AuthDir) :
    importAll py fails dec cards opts dry sources auth =
      if dry then ((dryRun py fails opts.force plans auth).map fun counts =>
        ⟨records.length, records.length - unique.length, counts⟩, auth)
      else ((writePlansWith py fails opts.force plans auth).1.map fun counts =>
        ⟨records.length, records.length - unique.length, counts⟩,
          (writePlansWith py fails opts.force plans auth).2) := by
  rw [importAll, hrecords]
  simp only [completeImport, hplan]

/-- An import that may write its files is predicted exactly when none of them clash. -/
theorem predicted_permitted {auth : AuthDir} {records unique : List (Dict × Str)}
    (hsound : ∀ plan ∈ plans, Sound py plan)
    (hdry : collect py dec (cards true) sources = .ok records)
    (hreal : collect py dec (cards false) sources = .ok records)
    (hplan : planImport py opts records = .ok (unique, plans))
    (hpermitted : Permitted py opts.force auth plans) :
    Predicted py dec cards opts sources auth ↔ ¬ Clash plans := by
  have hd := importAll_planned steady hdry hplan
  have hr := importAll_planned steady hreal hplan
  simp only [if_true] at hd
  simp only [Bool.false_eq_true, if_false] at hr
  have hne := hpermitted.directory
  obtain ⟨states, hstates⟩ := checked_of_permitted hsound hpermitted
  have hcounts := dryRun_counts hstates hne
  constructor
  · -- the second import has found every planned name with its own document
    rintro ⟨haccepted, -, hagain⟩
    obtain ⟨report, hreport⟩ := haccepted.mp ⟨_, by rw [hd, hcounts]; rfl⟩
    have hsecond := congrArg Prod.fst (hagain report _ (Prod.ext hreport rfl))
    rw [hr] at hsecond
    obtain ⟨counts, hwritten, hzero⟩ := except_map_ok hsecond
    obtain ⟨-, states', hstates', hw⟩ := writePlansWith_ok (Prod.ext hwritten rfl)
    refine no_clash (checkedStates_ok hstates').1 (List.length_eq_zero_iff.mp ?_)
    have hlength : counts.written = (changesOf states').length := by rw [hw.counts]
    rw [← hlength]
    exact congrArg (fun r : Report => r.counts.written) hzero
  · intro hno
    obtain ⟨hok, -⟩ := writePlansWith_of hsound hno hne hstates
    have hthen := again_of hsound hno hne hstates
    have hfits := (checkedStates_ok hstates).1
    refine ⟨?_, fun d r hdr hrr => ?_, fun r auth' hrr => ?_⟩
    · rw [hd, hr, hok, hcounts]
      exact iff_of_true ⟨_, rfl⟩ ⟨_, rfl⟩
    · rw [hd, hcounts] at hdr
      rw [hr, hok] at hrr
      rw [← Except.ok.inj hdr, ← Except.ok.inj hrr]
      exact ⟨rfl, rfl, rfl, rfl⟩
    · rw [hr, hok] at hrr
      obtain ⟨hreport, hauth⟩ := Prod.mk.inj hrr
      rw [hr, ← hauth, hthen, ← Except.ok.inj hreport]
      have hsum : (done states auth).1.written + (done states auth).1.unchanged = plans.length := by
        have : (changesOf states).length ≤ states.length := List.length_filter_le _ _
        have := hfits.length_eq
        show (changesOf states).length + (states.length - (changesOf states).length) = plans.length
        omega
      rw [hsum]
      rfl

end Import

/-! ### Three records for two names -/

/-- An object with an access token and an address. -/
def account (token email : String) : Json :=
  .obj [(lit "access_token", .str (lit token)), (lit "email", .str (lit email))]

/-- A decoder that reads every text as three accounts. The address of the last is that of the others
with the suffix that tells these apart. -/
def clashDecoder : Decoder where
  loads _ := .value (.arr [account "one" "x@y", account "two" "x@y", account "three" "x@y-2"])
  rawDecode _ _ := .jsonError 0

/-- An interpreter with the digests of their tokens. -/
def clashPy : Py := tablePy [
  (utf8 (lit "one" ++ [0, 0]), lit "8311ba4c03fe7ba730d7c48544eb66e7a098b48a16a7520f97dfdf07ec0c1f75"),
  (utf8 (lit "two" ++ [0, 0]), lit "63596f276d3bf970da2be71abcbc2fe11a298516e8d871a1b229476b8ded2e1c"),
  (utf8 (lit "three" ++ [0, 0]), lit "768b06eacf04e6129e50cfbd57d49406c7ec45f946e6405f6527709ac888fce6")] [] []

/-- The import of these accounts into a directory that does not exist. -/
def clashImport (dry : Bool) : Except PyError Report × AuthDir :=
  importAll clashPy steady clashDecoder (fun _ _ => .ok []) (sampleOptions false) dry sampleSources
    .absent

end Cloudx.Local.DryRun

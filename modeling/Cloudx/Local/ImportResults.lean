import Cloudx.Local.ImportWrites

/-! # What a local import leaves behind

Each kept record has a planned file, under a name that is one component of a path. After an import that
succeeds a file with that document is there (`stored_after_import`), and nothing else has changed.

Two planned files may have one name: the suffix that tells equal stems apart can give the stem of
another record. A dry run does not see that. It predicts the import, and a second import changes
nothing, exactly when no two of the planned files differ under one name (`predicted_iff`). -/

namespace Cloudx.Local.ImportResults

open Cloudx.Lib.Memo Cloudx.Lib.Store Cloudx.Lib.Rollback
open Cloudx.Python.Text Cloudx.Python.Value Cloudx.Python.Dump
open Cloudx.Shared Cloudx.Shared.Credential Cloudx.Shared.Source
open Cloudx.Local.Import Cloudx.Local.Importer Cloudx.Local.ImportWrites

/-! ### The planned names -/

/-- A text without the characters that no file name has. -/
def Clean (s : Str) : Prop := 47 ∉ s ∧ 0 ∉ s

instance (s : Str) : Decidable (Clean s) := inferInstanceAs (Decidable (47 ∉ s ∧ 0 ∉ s))

theorem Clean.append {s t : Str} (hs : Clean s) (ht : Clean t) : Clean (s ++ t) :=
  ⟨fun h => (List.mem_append.mp h).elim hs.1 ht.1, fun h => (List.mem_append.mp h).elim hs.2 ht.2⟩

theorem clean_decimal (n : ℕ) : Clean (decimal n) := by
  constructor
  · intro h
    have := decimal_digit h
    omega
  · intro h
    have := decimal_digit h
    omega

/-- `str.isalnum` holds of no slash and of no null character. -/
structure AlnumChars (isalnum : ℕ → Bool) : Prop where
  slash : isalnum 47 = false
  null : isalnum 0 = false

section Names
variable {isalnum : ℕ → Bool} (hchars : AlnumChars isalnum)
include hchars

theorem clean_safeName (value : Str) : Clean (safeName isalnum value) := by
  have hmarks : ∀ {s : Str} {c : ℕ}, c ∈ stripMarks s → c ∈ s := by
    intro s c hc
    unfold stripMarks at hc
    rw [List.mem_reverse] at hc
    have hrev := (List.dropWhile_sublist _).subset hc
    rw [List.mem_reverse] at hrev
    exact (List.dropWhile_sublist _).subset hrev
  have hcleaned : ∀ {c : ℕ}, c ∈ value.map (fun c =>
      if isalnum c || c = 45 || c = 95 || c = 46 then c else 45) → c ≠ 47 ∧ c ≠ 0 := by
    intro c hc
    obtain ⟨d, -, rfl⟩ := List.mem_map.mp hc
    have hslash := hchars.slash
    have hnull := hchars.null
    split_ifs with hd
    · refine ⟨?_, ?_⟩
      · rintro rfl; simp [hslash] at hd
      · rintro rfl; simp [hnull] at hd
    · omega
  unfold safeName
  simp only
  split_ifs with hcut
  · decide
  · constructor
    · intro h
      exact (hcleaned (hmarks ((List.take_sublist _ _).subset h))).1 rfl
    · intro h
      exact (hcleaned (hmarks ((List.take_sublist _ _).subset h))).2 rfl

omit hchars in
theorem Clean.codexName {s : Str} (hs : Clean s) : Clean (codexName s) := by
  unfold Importer.codexName
  split_ifs
  · exact hs
  · exact Clean.append (by decide) hs

theorem clean_stemFor (py : Py) (namePrefix : Str) (index : ℕ) (flat : Dict) (hint : Str) :
    Clean (stemFor py isalnum namePrefix index flat hint) := by
  unfold stemFor
  simp only
  split_ifs
  · exact clean_safeName hchars _
  · exact (clean_safeName hchars _).codexName
  all_goals exact clean_safeName hchars _

omit hchars in
theorem validName_json {s : Str} (h : Clean s) : ValidName (s ++ lit ".json") := by
  have hlen : 5 ≤ (s ++ lit ".json").length := by
    rw [List.length_append]
    exact Nat.le_add_left _ _
  have hshort : ∀ t : Str, t.length < 5 → s ++ lit ".json" ≠ t := by
    rintro t ht rfl
    omega
  have hclean := h.append (by decide : Clean (lit ".json"))
  exact ⟨hshort [] (by decide), hclean.1, hclean.2, hshort _ (by decide), hshort _ (by decide)⟩

/-- **The planned file of each kept record**: its document, under a name that is one component of a
path and ends in `.json`. -/
theorem planFiles_ok {py : Py} {namePrefix : Str} : ∀ {unique : List (Dict × Str)} {index : ℕ}
    {used : List Str} {plans : List PlannedFile},
      planFiles py isalnum namePrefix index used unique = .ok plans →
        List.Forall₂ (fun x plan => plan.payload = jsonFile py false x.1 ∧
          encodable (dumps py false (.obj x.1)) = true ∧ ValidName plan.name ∧
          endsWith plan.name (lit ".json") = true) unique plans
  | [], _, _, plans, h => by
    rw [← Except.ok.inj h]
    exact .nil
  | (flat, hint) :: rest, index, used, plans, h => by
    unfold planFiles at h
    simp only at h
    by_cases henc : encodable (dumps py false (.obj flat)) = true
    swap
    · rw [if_neg henc] at h
      exact absurd h (by simp)
    rw [if_pos henc] at h
    obtain ⟨more, hmore, h⟩ := except_bind_ok h
    rw [← Except.ok.inj h]
    refine .cons ⟨rfl, henc, validName_json ?_, decide_eq_true (List.suffix_append _ _)⟩
      (planFiles_ok hmore)
    refine (clean_stemFor hchars py namePrefix index flat hint).append ?_
    split_ifs
    · exact Clean.append (s := [45]) (by decide) (clean_decimal _)
    · decide

end Names

/-! ### What is stored -/

section Stored
variable {py : Py} {fails : Step → Bool} {auth auth' : AuthDir} {plans : List PlannedFile}
  {states : List Target} {counts : Counts}

/-- Each change belongs to a planned file, and only those have the name of one. -/
theorem mem_changesOf {others : Finset FileName} {dir : Dir FileName File} {t : Target}
    (hfits : List.Forall₂ (Fits py others dir) plans states) (ht : t ∈ changesOf states) :
    t.unchanged = false ∧ ∃ plan ∈ plans, Fits py others dir plan t := by
  obtain ⟨hmem, hchanged⟩ := List.mem_filter.mp ht
  exact ⟨by simpa using hchanged, forall₂_mem_right hfits t hmem⟩

/-- A planned file that holds its own document. -/
theorem canonicalJson_jsonFile {d : Dict} (h : encodable (dumps py false (.obj d)) = true) :
    canonicalJson py (jsonFile py false d) = .ok (jsonFile py false d).bytes := if_pos h

theorem sameJson_some {payload file : File} :
    sameJson py payload (some file) = .ok true ↔ canonicalJson py file = .ok payload.bytes := by
  unfold sameJson
  rcases hraw : canonicalJson py file with e | raw
  · simp [hraw, Except.map]
  · simp [hraw, Except.map]

/-- **What is under the name of a change**: the file of a change of that name. -/
theorem lookup_change (hw : Written py fails auth auth' states counts) {t : Target}
    (ht : t ∈ changesOf states) :
    ∃ u ∈ changesOf states, u.name = t.name ∧ auth'.files.lookup t.name = some u.payload := by
  have hcompleted : (writes fails (changesOf states) auth.files).2.1 = (changesOf states).map toWrite :=
    perform_all _ 0 auth.files hw.all
  have hmem : toWrite t ∈ (writes fails (changesOf states) auth.files).2.1 := by
    rw [hcompleted]
    exact List.mem_map_of_mem ht
  obtain ⟨v, hv, hname, hlook⟩ := lookup_perform _ 0 auth.files hmem
  have hv' : v ∈ (changesOf states).map toWrite := by
    rw [← hcompleted]
    exact hv
  obtain ⟨u, hu, rfl⟩ := List.mem_map.mp hv'
  refine ⟨u, hu, hname, ?_⟩
  rw [hw.dir]
  exact hlook

/-- A name that no change has is left alone. -/
theorem lookup_other (hw : Written py fails auth auth' states counts) {n : FileName}
    (hn : ∀ t ∈ changesOf states, t.name ≠ n) : auth'.files.lookup n = auth.files.lookup n := by
  have hcompleted : (writes fails (changesOf states) auth.files).2.1 = (changesOf states).map toWrite :=
    perform_all _ 0 auth.files hw.all
  rw [hw.dir]
  refine lookup_perform_other _ 0 auth.files fun w hw' hname => ?_
  have hmem : w ∈ (changesOf states).map toWrite := by
    rw [← hcompleted]
    exact hw'
  obtain ⟨t, ht, rfl⟩ := List.mem_map.mp hmem
  exact hn t ht hname

theorem names_of_fits {others : Finset FileName} {dir : Dir FileName File} :
    ∀ {plans : List PlannedFile} {states : List Target},
      List.Forall₂ (Fits py others dir) plans states →
        states.map (·.name.text) = plans.map PlannedFile.name
  | [], [], .nil => rfl
  | _ :: _, _ :: _, .cons hfits hrest => by
    rw [List.map_cons, List.map_cons, hfits.name, names_of_fits hrest]

/-- The state of a planned file that is alone with its name is alone with it, too. -/
theorem fits_alone {others : Finset FileName} {dir : Dir FileName File}
    (hfits : List.Forall₂ (Fits py others dir) plans states) {t u : Target}
    (halone : (plans.map PlannedFile.name).count t.name.text = 1) (ht : t ∈ states)
    (hu : u ∈ states) (hname : u.name = t.name) : u = t := by
  rw [← names_of_fits hfits, List.count_eq_countP, List.countP_map, List.countP_eq_length_filter,
    List.length_eq_one_iff] at halone
  obtain ⟨s, hs⟩ := halone
  have hone : ∀ v ∈ states, v.name = t.name → v = s := by
    intro v hv hvn
    have hmem : v ∈ states.filter ((· == t.name.text) ∘ fun v => v.name.text) :=
      List.mem_filter.mpr ⟨hv, by simp [hvn]⟩
    rw [hs] at hmem
    exact List.mem_singleton.mp hmem
  rw [hone u hu hname, hone t ht rfl]

/-- **What is there for a planned file that is alone with its name**: the file itself, or one that was
there before with the same document. -/
theorem stored_alone {force : Bool} {t : Target} {plan : PlannedFile} {d : Dict}
    (hstates : checkedStates py fails force auth plans = .ok states)
    (hw : Written py fails auth auth' states counts) (ht : t ∈ states)
    (hfits : Fits py auth.others auth.files plan t) (hpay : plan.payload = jsonFile py false d)
    (henc : encodable (dumps py false (.obj d)) = true)
    (halone : (plans.map PlannedFile.name).count plan.name = 1) :
    ∃ f, auth'.files.lookup t.name = some f ∧ canonicalJson py f = .ok plan.payload.bytes ∧
      (f = plan.payload ∨ auth.files.lookup t.name = some f) := by
  have hall := (checkedStates_ok hstates).1
  rw [← hfits.name] at halone
  rcases hchanged : t.unchanged with _ | _
  · have hmem : t ∈ changesOf states := List.mem_filter.mpr ⟨ht, by simp [hchanged]⟩
    obtain ⟨u, hu, hname, hlook⟩ := lookup_change hw hmem
    have hut : u = t := fits_alone hall halone ht (List.mem_filter.mp hu).1 hname
    rw [hut, hfits.payload] at hlook
    refine ⟨plan.payload, hlook, ?_, .inl rfl⟩
    rw [hpay]
    exact canonicalJson_jsonFile henc
  · have hkept := lookup_other hw (n := t.name) fun u hu hname => by
      have hut : u = t := fits_alone hall halone ht (List.mem_filter.mp hu).1 hname
      have := (List.mem_filter.mp hu).2
      rw [hut, hchanged] at this
      exact absurd this (by simp)
    have hsame := hfits.unchanged
    rw [hchanged] at hsame
    rcases horiginal : auth.files.lookup t.name with _ | f
    · rw [horiginal] at hsame
      exact absurd hsame (by simp [sameJson])
    · rw [horiginal] at hsame hkept
      exact ⟨f, hkept, sameJson_some.mp hsame, .inr rfl⟩

end Stored

section Import
variable {py : Py} {dec : Decoder} {fails : Step → Bool}
  {cards : Bool → Str → Except PyError (List (Dict × Str))} {opts : Options}

theorem planImport_ok {records unique : List (Dict × Str)} {plans : List PlannedFile}
    (h : planImport py opts records = .ok (unique, plans)) :
    deduplicate py [] records = .ok unique ∧
      planFiles py opts.isalnum opts.namePrefix 1 [] unique = .ok plans := by
  unfold planImport at h
  obtain ⟨kept, hkept, h⟩ := except_bind_ok h
  obtain ⟨plans', hplans, hpair⟩ : ∃ plans', planFiles py opts.isalnum opts.namePrefix 1 [] kept =
      .ok plans' ∧ (kept, plans') = (unique, plans) := by
    split at h
    · split_ifs at h
      · exact absurd h (by simp [bind, Except.bind])
      · obtain ⟨plans', hplans, h⟩ := except_bind_ok h
        exact ⟨plans', hplans, Except.ok.inj h⟩
    · obtain ⟨plans', hplans, h⟩ := except_bind_ok h
      exact ⟨plans', hplans, Except.ok.inj h⟩
  obtain ⟨rfl, rfl⟩ := Prod.mk.inj hpair
  exact ⟨hkept, hplans⟩

/-- **What a successful import has stored**: every kept record has a planned file, under a name that is
one component of a path and ends in `.json`. If no other planned file has that name, the directory
holds it, or still holds a file with the same document. Nothing else has changed. -/
theorem stored_after_import {sources : List SourceText} {auth auth' : AuthDir} {report : Report}
    (hchars : AlnumChars opts.isalnum)
    (h : importAll py fails dec cards opts false sources auth = (.ok report, auth')) :
    ∃ records unique plans, collect py dec (cards false) sources = .ok records ∧
      planImport py opts records = .ok (unique, plans) ∧
      List.Forall₂ (fun x plan => plan.payload = jsonFile py false x.1 ∧ ValidName plan.name ∧
        endsWith plan.name (lit ".json") = true ∧
        ((plans.map PlannedFile.name).count plan.name = 1 → ∃ name f, name.text = plan.name ∧
          auth'.files.lookup name = some f ∧ canonicalJson py f = .ok plan.payload.bytes ∧
          (f = plan.payload ∨ auth.files.lookup name = some f))) unique plans ∧
      ∀ n : FileName, (∀ plan ∈ plans, n.text ≠ plan.name) →
        auth'.files.lookup n = auth.files.lookup n := by
  unfold importAll at h
  rcases hrecords : collect py dec (cards false) sources with e | records
  · rw [hrecords] at h
    exact absurd (Prod.mk.inj h).1 (by simp)
  rw [hrecords] at h
  simp only [completeImport] at h
  rcases hplan : planImport py opts records with e | ⟨unique, plans⟩
  · rw [hplan] at h
    exact absurd (Prod.mk.inj h).1 (by simp)
  rw [hplan] at h
  simp only [Bool.false_eq_true, if_false] at h
  obtain ⟨hresult, hauth⟩ := Prod.mk.inj h
  obtain ⟨counts, hcounts⟩ : ∃ counts, (writePlansWith py fails opts.force plans auth).1 = .ok counts := by
    rcases hr : (writePlansWith py fails opts.force plans auth).1 with e | counts
    · rw [hr] at hresult
      exact absurd hresult (by simp [Except.map])
    · exact ⟨counts, rfl⟩
  obtain ⟨-, states, hstates, hw⟩ := writePlansWith_ok (Prod.ext hcounts hauth)
  have hfits := (checkedStates_ok hstates).1
  have hfiles := planFiles_ok hchars (planImport_ok hplan).2
  refine ⟨records, unique, plans, rfl, hplan, ?_, fun n hn => ?_⟩
  · refine List.forall₂_iff_get.mpr ⟨hfiles.length_eq, fun i hi hi' => ?_⟩
    obtain ⟨hpay, henc, hvalid, hjson⟩ := hfiles.get hi hi'
    refine ⟨hpay, hvalid, hjson, fun halone => ?_⟩
    have hlt : i < states.length := by rw [← hfits.length_eq]; exact hi'
    have hfit := hfits.get hi' hlt
    obtain ⟨f, hf⟩ := stored_alone hstates hw (List.get_mem states ⟨i, hlt⟩) hfit hpay henc halone
    exact ⟨_, f, hfit.name, hf⟩
  · refine lookup_other hw fun t ht hname => ?_
    obtain ⟨-, plan, hplan', hfit⟩ := mem_changesOf hfits ht
    exact hn plan hplan' (hname ▸ hfit.name)

end Import

/-- The options of an import without a name prefix. -/
def sampleOptions (force : Bool) : Options :=
  ⟨force, [], fun c => (97 ≤ c && c ≤ 122) || (48 ≤ c && c ≤ 57), none⟩

theorem alnumChars_sample (force : Bool) : AlnumChars (sampleOptions force).isalnum := ⟨rfl, rfl⟩

/-- The planned document with one more line break. -/
def sampleSpaced : File := ⟨sampleFlat.bytes ++ [10], sampleFlat.content⟩

/-- The text of one document. -/
def sampleSources : List SourceText := [⟨lit "x", lit "stdin", fun _ _ => []⟩]

/-- An import of that document into a directory of one file. -/
def importOver (force : Bool) (file : File) : Except PyError Report × AuthDir :=
  importAll onePy (fun _ => false) sampleDecoder (fun _ _ => .ok []) (sampleOptions force) false
    sampleSources (.present ∅ (Finmap.singleton sampleName file))

/-- A file with the planned document counts as unchanged, and its bytes are not the planned ones. -/
theorem spaced_file_kept :
    importOver false sampleSpaced =
      (.ok ⟨1, 0, ⟨0, 1, 0⟩⟩, .present ∅ (Finmap.singleton sampleName sampleSpaced)) ∧
    (collect onePy sampleDecoder (fun _ => .ok []) sampleSources >>= fun records =>
      (planImport onePy (sampleOptions false) records).map Prod.snd) =
        .ok [⟨sampleName.text, sampleFlat⟩] ∧
    ((importOver false sampleSpaced).2.files.lookup sampleName).map File.bytes ≠
      some sampleFlat.bytes := by
  decide +kernel

/-- Over another document the import writes the planned file. -/
theorem file_written :
    AlnumChars (sampleOptions true).isalnum ∧
    ∃ records unique plans, collect onePy sampleDecoder (fun _ => .ok []) sampleSources = .ok records ∧
      planImport onePy (sampleOptions true) records = .ok (unique, plans) ∧
      List.Forall₂ (fun x plan => plan.payload = jsonFile onePy false x.1 ∧ ValidName plan.name ∧
        endsWith plan.name (lit ".json") = true ∧
        ((plans.map PlannedFile.name).count plan.name = 1 → ∃ name f, name.text = plan.name ∧
          (importOver true (jsonFile onePy false [])).2.files.lookup name = some f ∧
          canonicalJson onePy f = .ok plan.payload.bytes ∧ (f = plan.payload ∨
            (Finmap.singleton sampleName (jsonFile onePy false []) : Dir FileName File).lookup name =
              some f))) unique plans ∧
      ∀ n : FileName, (∀ plan ∈ plans, n.text ≠ plan.name) →
        (importOver true (jsonFile onePy false [])).2.files.lookup n =
          (Finmap.singleton sampleName (jsonFile onePy false []) : Dir FileName File).lookup n := by
  have hchars := alnumChars_sample true
  have hok : (importOver true (jsonFile onePy false [])).1 = .ok ⟨1, 0, ⟨1, 0, 1⟩⟩ := by decide +kernel
  have hwritten : importOver true (jsonFile onePy false []) =
      (.ok ⟨1, 0, ⟨1, 0, 1⟩⟩, (importOver true (jsonFile onePy false [])).2) := Prod.ext hok rfl
  exact ⟨hchars, stored_after_import hchars hwritten⟩

end Cloudx.Local.ImportResults

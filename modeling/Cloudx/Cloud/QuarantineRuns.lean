import Cloudx.Cloud.QuarantineCalls

/-! # Runs of the cloud quarantine

What any sequence of successful `quarantine_auth_record` and `restore_quarantined_auth` calls keeps,
with other programs changing everything outside the archive between them.

A run carries a log of the files it has quarantined and not restored (`Held`), with the path, the
archive name and the content of each. The manifest entries record the log in order and the archive
holds exactly its files (`Inv`), whatever names collide. A restore by archive name then finds exactly
its entry (`matchEntries_log`) and succeeds, as long as the manifest can be read. That is the limit of
the design: `_manifest` refuses a manifest of more than `MAX_MANIFEST_BYTES`, and nothing keeps
`quarantine_auth_record` from writing one. -/

namespace Cloudx.Cloud.QuarantineRuns

open Cloudx.Lib.Store Cloudx.Lib.Fault
open Cloudx.Python.Text Cloudx.Python.Value Cloudx.Python.Dump
open Cloudx.Cloud.Disk Cloudx.Cloud.Quarantine Cloudx.Cloud.QuarantineCalls

variable {cfg : Config} {py : Py} {w : World}

/-! ### The log of a run -/

/-- A quarantined file: where it was, its archive name and its content. -/
structure Held where
  path : Path
  name : FileName
  file : File
deriving DecidableEq

/-- The credentials of the archive directory: all files but the manifest and the lock. -/
def archived (cfg : Config) (w : World) (n : FileName) : Option File :=
  if n = manifestName ∨ n = lockName then none else fileAt w (cfg.inArchive n)

/-- The entry `e` records the quarantined file `h`. -/
def Records (cfg : Config) (py : Py) (e : Json) (h : Held) : Prop :=
  ∃ relative reason movedAt, h.path = cfg.authDir ++ relative ∧ relative ≠ [] ∧
    e = entryOf py relative h.name reason movedAt

/-- The manifest file: none yet, or one that `_atomic_write_json` wrote. -/
def ManifestWritten (cfg : Config) (py : Py) (w : World) : Prop :=
  w.nodes.lookup (cfg.inArchive manifestName) = none ∨
    ∃ document, w.nodes.lookup (cfg.inArchive manifestName) =
        some (.file (jsonFile py false document)) ∧ cleanFields py document ∧
      get document (lit "entries") = .arr (entriesOf document)

/-- The invariant of a run with the given log. -/
structure Inv (cfg : Config) (py : Py) (w : World) (log : List Held) : Prop where
  entries : List.Forall₂ (Records cfg py) (savedEntries cfg w) log
  catalogue : Catalogue (fun h n f => h.name = n ∧ h.file = f) (archived cfg w) log
  manifest : ManifestWritten cfg py w
  flat : ∀ n, cfg.inArchive n ∉ w.dirs
  made : log ≠ [] → cfg.archiveDir ∈ w.dirs

/-- Only what is outside the archive directory differs. -/
def OutsideArchive (cfg : Config) (w w' : World) : Prop :=
  ∀ p, cfg.archiveDir <+: p →
    w'.nodes.lookup p = w.nodes.lookup p ∧ (p ∈ w'.dirs ↔ p ∈ w.dirs)

theorem inArchive_below (n : FileName) : cfg.archiveDir <+: cfg.inArchive n :=
  List.prefix_append _ _

theorem OutsideArchive.archived {w' : World} (h : OutsideArchive cfg w w') :
    archived cfg w' = archived cfg w := by
  funext n
  unfold QuarantineRuns.archived fileAt
  rw [(h _ (inArchive_below n)).1]

theorem Inv.outside {w' : World} {log : List Held} (hi : Inv cfg py w log)
    (h : OutsideArchive cfg w w') : Inv cfg py w' log := by
  have hman := (h _ (inArchive_below manifestName)).1
  refine ⟨?_, ?_, ?_, fun n hn => hi.flat n ((h _ (inArchive_below n)).2.mp hn),
    fun hne => (h _ (List.prefix_refl _)).2.mpr (hi.made hne)⟩
  · rw [savedEntries_congr hman]; exact hi.entries
  · rw [h.archived]; exact hi.catalogue
  · unfold ManifestWritten
    rw [hman]; exact hi.manifest

/-! ### What a restore finds -/

theorem names_nodup {log : List Held} (hi : Inv cfg py w log) : (log.map Held.name).Nodup :=
  (hi.catalogue.unique Held.name id Function.injective_id fun _ _ _ h => h.1).1

/-- The paths an entry of a run leads to. -/
theorem legacyEntryPaths_records {e : Dict} {h : Held} (hr : Records cfg py (.obj e) h) :
    legacyEntryPaths cfg py e =
      .ok (h.path.map FileName.text, (cfg.inArchive h.name).map FileName.text) ∧
    selectors py e ((cfg.inArchive h.name).map FileName.text) = [h.name.text] := by
  obtain ⟨relative, reason, movedAt, hpath, hne, he⟩ := hr
  rw [entryOf, Json.obj.injEq] at he
  have hrel : get e (lit "source_relative") = .str (posix relative) := by rw [he]; rfl
  have hname : get e (lit "quarantine_name") = .str h.name.text := by rw [he]; rfl
  have hacc : get e (lit "account") = .null := by rw [he]; rfl
  have hcod : get e (lit "codexx_account") = .null := by rw [he]; rfl
  have hparts := pathParts_posix hne
  have hnonempty : posix relative ≠ [] := by
    intro h0
    rw [h0] at hparts
    obtain ⟨n, rest, rfl⟩ := List.exists_cons_of_ne_nil hne
    exact absurd hparts (by simp [pathParts, splitSlash])
  have hslash : startsWith (posix relative) (lit "/") = false := by
    obtain ⟨n, rest, rfl⟩ := List.exists_cons_of_ne_nil hne
    obtain ⟨c, cs, hc⟩ := List.exists_cons_of_ne_nil n.valid.1
    have h47 : c ≠ 47 := fun he => n.valid.2.1 (by rw [hc, he]; simp)
    have hhead : ∃ t, posix (n :: rest) = c :: t := by
      rcases rest with _ | ⟨m, rest⟩
      · exact ⟨cs, by simp [posix, List.intercalate, hc]⟩
      · exact ⟨cs ++ 47 :: posix (m :: rest), by simp [posix, List.intercalate, hc]⟩
    obtain ⟨t, ht⟩ := hhead
    rw [startsWith, ht, decide_eq_false_iff_not]
    intro hpre
    obtain ⟨u, hu⟩ := hpre
    exact h47 (List.cons.inj hu).1.symm
  have hdots : lit ".." ∉ relative.map FileName.text := by
    intro hm
    obtain ⟨n, -, hn⟩ := List.mem_map.mp hm
    exact n.valid.2.2.2.2 hn
  have hnil : relative.map FileName.text ≠ [] := by simpa using hne
  constructor
  · have htrue : (truthy (.str (posix relative)) && truthy (.str h.name.text)) = true := by
      simp [truthy, hnonempty, h.name.valid.1]
    unfold legacyEntryPaths
    simp only [hrel, hname, htrue, if_true, Py.str, hparts, hslash, Bool.false_or,
      pathName_name, ne_eq, not_true_eq_false, if_false]
    rw [if_neg (by simp [hnil, hdots])]
    rw [hpath, List.map_append, Config.inArchive, List.map_append]
    rfl
  · simp [selectors, hacc, hcod, pyOr, truthy, Py.str, Config.inArchive, h.name.valid.1]

/-- **The entries of a run that a selector matches**: those of the files with that archive name. -/
theorem matchEntries_log (selector : Str) : ∀ {entries : List Json} {log : List Held} (start : ℕ),
    List.Forall₂ (Records cfg py) entries log →
      matchEntries cfg py selector start entries =
        .ok (((log.zipIdx start).filter fun x => x.1.name.text = selector).map fun x =>
          (x.2, x.1.path.map FileName.text, (cfg.inArchive x.1.name).map FileName.text)) := by
  intro entries log start h
  induction h generalizing start with
  | nil => rfl
  | @cons e h entries log hr hrest ih =>
    obtain ⟨fields, rfl⟩ : ∃ fields, e = .obj fields := by
      obtain ⟨_, _, _, _, _, he⟩ := hr; exact ⟨_, he⟩
    obtain ⟨hpaths, hsel⟩ := legacyEntryPaths_records hr
    rw [matchEntries, hpaths]
    simp only
    rw [ih (start + 1), hsel, List.zipIdx_cons]
    by_cases hs : h.name.text = selector
    · rw [List.filter_cons_of_pos (by simpa using hs), List.map_cons]
      simp [Except.map, hs]
    · rw [List.filter_cons_of_neg (by simpa using hs)]
      simp [Except.map, Ne.symm hs]

/-- In a list with different names, one place has the name. -/
theorem filter_zipIdx_unique {log : List Held} (hnd : (log.map Held.name).Nodup) {i : ℕ} {h : Held}
    (hi : log[i]? = some h) : ∀ start, (log.zipIdx start).filter
      (fun x => x.1.name.text = h.name.text) = [(h, start + i)] := by
  have hinj : ∀ {a b : FileName}, a.text = b.text → a = b := by
    rintro ⟨a, _⟩ ⟨b, _⟩ rfl; rfl
  induction log generalizing i with
  | nil => exact absurd hi (by simp)
  | cons g log ih =>
    intro start
    rw [List.map_cons, List.nodup_cons] at hnd
    rw [List.zipIdx_cons]
    rcases i with _ | i
    · rw [List.getElem?_cons_zero, Option.some.injEq] at hi
      subst hi
      rw [List.filter_cons_of_pos (by simp), List.filter_eq_nil_iff.mpr]
      · simp
      · rintro ⟨x, j⟩ hx
        have hmem : x ∈ log := List.fst_mem_of_mem_zipIdx hx
        simp only [decide_eq_true_eq]
        exact fun he => hnd.1 (List.mem_map.mpr ⟨x, hmem, hinj he⟩)
    · rw [List.getElem?_cons_succ] at hi
      have hne : g.name.text ≠ h.name.text := fun he =>
        hnd.1 (List.mem_map.mpr ⟨h, List.mem_of_getElem? hi, (hinj he).symm⟩)
      rw [List.filter_cons_of_neg (by simpa using hne), ih hnd.2 hi (start + 1)]
      congr 2
      omega

/-! ### Steps that succeed -/

/-- What a successful quarantine did. -/
theorem quarantine_ok {source : Path} {reason movedAt : Str} {target : FileName} {w' : World}
    (h : quarantineAuthRecord cfg py true steady source reason movedAt w = (.ok target, w')) :
    ∃ relative f document w1, cfg.authDir ++ relative = source ∧ relative ≠ [] ∧
      fileAt w source = some f ∧ manifest cfg w = .ok document ∧
      freeName cfg (lockedWorld cfg w) target ∧
      Moved source (cfg.inArchive target) f (lockedWorld cfg w) w1 ∧
      clean py (.obj (set document (lit "entries") (.arr (entriesOf document ++
        [entryOf py relative target reason movedAt])))) ∧
      w' = written py (cfg.inArchive manifestName) (set document (lit "entries")
        (.arr (entriesOf document ++ [entryOf py relative target reason movedAt]))) w1 := by
  rcases @quarantine_checks cfg py w true steady rfl source reason movedAt with
    ⟨-, e, w2, -, hrun⟩ | ⟨hacc, document, relative, hm, hrel, hrun⟩
  · rw [hrun] at h; exact absurd h (by simp)
  obtain ⟨relative', f, hrel', hsplit, hne, hf, hready⟩ := hacc.ready
  rw [hrel, Except.ok.injEq] at hrel'
  subst hrel'
  rw [hrun, quarantineBody] at h
  rcases @transaction_steady cfg py (lockedWorld cfg w) source _ f hready
    (set document (lit "entries") (.arr (entriesOf document ++
      [entryOf py relative (archiveNameOf cfg w source) reason movedAt])))
    "CPA quarantine manifest write failed; credential was restored"
    "CPA quarantine transaction and rollback failed" with ⟨w1, hm1, hc, hres⟩ | ⟨e, w1, -, hres, -⟩
  · rw [Act.bind_ok hres, Act.pure_run, Prod.mk.injEq, Except.ok.injEq] at h
    obtain ⟨rfl, rfl⟩ := h
    exact ⟨relative, f, document, w1, hsplit, hne, hf, hm, archiveNameOf_free cfg w source, hm1, hc,
      rfl⟩
  · rw [Act.bind_error hres] at h; exact absurd h (by simp)

/-- A quarantine whose checks pass and whose manifest can be encoded succeeds. -/
theorem quarantine_succeeds {source relative : Path} {document : Dict} {reason movedAt : Str}
    (hacc : Accepted cfg true w source) (hm : manifest cfg w = .ok document)
    (hrel : containedRelative w source cfg.authDir = .ok relative)
    (hc : clean py (.obj (set document (lit "entries") (.arr (entriesOf document ++
      [entryOf py relative (archiveNameOf cfg w source) reason movedAt]))))) :
    ∃ w', quarantineAuthRecord cfg py true steady source reason movedAt w =
      (.ok (archiveNameOf cfg w source), w') := by
  rcases @quarantine_checks cfg py w true steady rfl source reason movedAt with
    ⟨hno, -⟩ | ⟨-, document', relative', hm', hrel', hrun⟩
  · exact absurd hacc hno
  rw [hm, Except.ok.injEq] at hm'
  rw [hrel, Except.ok.injEq] at hrel'
  subst hm' hrel'
  obtain ⟨-, f, -, -, -, -, hready⟩ := hacc.ready
  rw [hrun, quarantineBody]
  rcases @transaction_steady cfg py (lockedWorld cfg w) source _ f hready
    (set document (lit "entries") (.arr (entriesOf document ++
      [entryOf py relative (archiveNameOf cfg w source) reason movedAt])))
    "CPA quarantine manifest write failed; credential was restored"
    "CPA quarantine transaction and rollback failed" with ⟨w1, -, -, hres⟩ | ⟨e, w1, -, -, hno⟩
  · exact ⟨_, by rw [Act.bind_ok hres, Act.pure_run]⟩
  · exact absurd hc hno

/-- What a restore does once its checks are passed. -/
theorem restore_run {selector : Str} {document : Dict} {index : ℕ} {source target : Path}
    (hacc : RestoreAccepted cfg py true w selector document index source target) :
    (∃ f w1, fileAt (lockedWorld cfg w) source = some f ∧
      Moved source target f (lockedWorld cfg w) w1 ∧
      clean py (.obj (set document (lit "entries") (.arr ((entriesOf document).eraseIdx index)))) ∧
      restoreQuarantinedAuth cfg py true steady selector w = (.ok (source, target),
        written py (cfg.inArchive manifestName) (set document (lit "entries")
          (.arr ((entriesOf document).eraseIdx index))) w1)) ∨
    (¬ clean py (.obj (set document (lit "entries") (.arr ((entriesOf document).eraseIdx index)))) ∧
      ∃ e w1, restoreQuarantinedAuth cfg py true steady selector w = (.error e, w1)) := by
  rcases @restore_checks cfg py w true steady rfl selector with
    ⟨hno, -⟩ | ⟨d, i, s, t, hacc', hrun⟩
  · exact absurd hacc (hno _ _ _ _)
  have h1 := hacc.readable.symm.trans hacc'.readable
  rw [Except.ok.injEq] at h1
  subst h1
  have h2 := hacc.selected.symm.trans hacc'.selected
  simp only [Except.ok.injEq, Prod.mk.injEq] at h2
  obtain ⟨rfl, rfl, rfl⟩ := h2
  obtain ⟨f, hready⟩ := hacc.ready
  rw [hrun, restoreBody]
  rcases @transaction_steady cfg py (lockedWorld cfg w) source target f hready
    (set document (lit "entries") (.arr ((entriesOf document).eraseIdx index)))
    "CPA restore manifest write failed; credential remained quarantined"
    "CPA restore transaction and rollback failed" with ⟨w1, hm1, hc, hres⟩ | ⟨e, w1, -, hres, hno⟩
  · left
    exact ⟨f, w1, hready.source_file, hm1, hc, by rw [Act.bind_ok hres, Act.pure_run]⟩
  · right
    exact ⟨hno, e, w1, by rw [Act.bind_error hres]⟩

theorem restore_ok {selector : Str} {source target : Path} {w' : World}
    (h : restoreQuarantinedAuth cfg py true steady selector w = (.ok (source, target), w')) :
    ∃ document index, RestoreAccepted cfg py true w selector document index source target := by
  rcases @restore_checks cfg py w true steady rfl selector with
    ⟨-, e, w2, -, hrun⟩ | ⟨document, index, s, t, hacc, hrun⟩
  · rw [hrun] at h; exact absurd h (by simp)
  · rcases restore_run hacc with ⟨f, w1, -, -, -, hres⟩ | ⟨-, e, w1, hres⟩
    · rw [hres, Prod.mk.injEq, Except.ok.injEq, Prod.mk.injEq] at h
      obtain ⟨⟨rfl, rfl⟩, -⟩ := h
      exact ⟨document, index, hacc⟩
    · rw [hres] at h; exact absurd h (by simp)

/-! ### One step of a run -/

theorem archived_written (document : Dict) (w : World) :
    archived cfg (written py (cfg.inArchive manifestName) document w) = archived cfg w := by
  funext n
  unfold archived
  split_ifs with h
  · rfl
  · exact fileAt_insert_ne w (inArchive_ne_manifest fun hn => h (Or.inl hn)) _

theorem archived_locked (cfg : Config) (w : World) :
    archived cfg (lockedWorld cfg w) = archived cfg w := by
  funext n
  unfold archived
  split_ifs with h
  · rfl
  · exact locked_fileAt cfg w fun hn => h (Or.inr (inArchive_injective cfg hn))

/-- A file moved into the archive is one more credential there. -/
theorem archived_moved_in {source : Path} {target : FileName} {f : File} {w1 : World}
    (h : Moved source (cfg.inArchive target) f w w1) (hs : cfg.authDir <+: source)
    (hm : target ≠ manifestName) (hl : target ≠ lockName) :
    archived cfg w1 = Function.update (archived cfg w) target (some f) := by
  funext n
  by_cases hn : n = target
  · subst hn
    rw [Function.update_self, archived, if_neg (not_or.mpr ⟨hm, hl⟩), h.files, if_pos rfl]
  · rw [Function.update_of_ne hn, archived, archived, h.files,
      if_neg fun he => hn (inArchive_injective cfg he), if_neg (ne_inArchive hs n).symm]

/-- A file moved out of the archive is one credential less. -/
theorem archived_moved_out {name : FileName} {target : Path} {f : File} {w1 : World}
    (h : Moved (cfg.inArchive name) target f w w1) (ht : cfg.authDir <+: target) :
    archived cfg w1 = Function.update (archived cfg w) name none := by
  funext n
  by_cases hn : n = name
  · subst hn
    rw [Function.update_self, archived, h.files, if_neg (ne_inArchive ht n).symm, if_pos rfl, ite_self]
  · rw [Function.update_of_ne hn, archived, archived, h.files, if_neg (ne_inArchive ht n).symm,
      if_neg fun he => hn (inArchive_injective cfg he)]

/-- What a call that has moved its file and written its manifest keeps. -/
theorem Inv.written {log log' : List Held} (hi : Inv cfg py w log) {source target : Path} {f : File}
    {w1 : World} (hm : Moved source target f (lockedWorld cfg w) w1) {document : Dict}
    {entries : List Json} (hc : clean py (.obj (set document (lit "entries") (.arr entries))))
    (hent : List.Forall₂ (Records cfg py) entries log')
    (hcat : Catalogue (fun h n f => h.name = n ∧ h.file = f) (archived cfg w1) log') :
    Inv cfg py (written py (cfg.inArchive manifestName)
      (set document (lit "entries") (.arr entries)) w1) log' := by
  refine ⟨?_, ?_, Or.inr ⟨_, Finmap.lookup_insert _, hc, ?_⟩, fun n hn => ?_, fun _ => ?_⟩
  · rw [savedEntries_written]; exact hent
  · rw [archived_written]; exact hcat
  · rw [get_set_self, entriesOf_set]
  · refine hi.flat n ((locked_dirs_of_not_below (inArchive_not_below n)).mp ?_)
    rw [← hm.dirs]; exact hn
  · have : cfg.archiveDir ∈ (lockedWorld cfg w).dirs := (locked_dirs cfg w).mpr (Or.inr (by simp))
    rw [← hm.dirs] at this; exact this

/-- **A successful quarantine extends the log.** -/
theorem Inv.quarantine {log : List Held} (hi : Inv cfg py w log) {source : Path} {f : File}
    {reason movedAt : Str} {target : FileName} {w' : World} (hf : fileAt w source = some f)
    (h : quarantineAuthRecord cfg py true steady source reason movedAt w = (.ok target, w')) :
    Inv cfg py w' (log ++ [⟨source, target, f⟩]) := by
  obtain ⟨relative, f', document, w1, hsplit, hne, hf', hm, hfree, hmoved, hc, rfl⟩ :=
    quarantine_ok h
  obtain rfl : f' = f := Option.some.inj (hf'.symm.trans hf)
  obtain ⟨h1, h2, -, -, hnone⟩ := freeName_spec hfree
  have hpre : cfg.authDir <+: source := ⟨relative, hsplit⟩
  refine hi.written hmoved hc ?_ ?_
  · rw [(manifest_entries hm).2]
    exact List.rel_append hi.entries
      (.cons ⟨relative, reason, movedAt, hsplit.symm, hne, rfl⟩ .nil)
  · rw [archived_moved_in hmoved hpre h1 h2, archived_locked]
    refine hi.catalogue.insert ?_ ⟨rfl, rfl⟩
    rw [← archived_locked, archived, hnone, ite_self]

/-- What a successful restore selected. -/
theorem Inv.selected {log : List Held} (hi : Inv cfg py w log) {selector : Str} {document : Dict}
    {index : ℕ} {source target : Path}
    (hacc : RestoreAccepted cfg py true w selector document index source target) :
    ∃ h, log[index]? = some h ∧ source = cfg.inArchive h.name ∧ target = h.path ∧
      h.name.text = selector := by
  obtain ⟨⟨targetParts, sourceParts, hmatch, hs, ht⟩, -⟩ := restoreSelect_spec hacc.selected
  rw [(manifest_entries hacc.readable).2, matchEntries_log selector 0 hi.entries,
    Except.ok.injEq] at hmatch
  obtain ⟨⟨h, i⟩, hx, heq⟩ := List.map_eq_singleton_iff.mp hmatch
  simp only [Prod.mk.injEq] at heq
  obtain ⟨rfl, rfl, rfl⟩ := heq
  have hmem : (h, i) ∈ (log.zipIdx 0).filter fun x => x.1.name.text = selector := by simp [hx]
  rw [List.mem_filter, List.mk_mem_zipIdx_iff_getElem?, decide_eq_true_eq] at hmem
  rw [resolve_plain, List.nil_append, Option.some.injEq] at hs ht
  exact ⟨h, hmem.1, hs.symm, ht.symm, hmem.2⟩

theorem Inv.path {log : List Held} (hi : Inv cfg py w log) {h : Held} (hmem : h ∈ log) :
    cfg.authDir <+: h.path ∧ h.path ≠ cfg.authDir := by
  obtain ⟨i, hlt, rfl⟩ := List.getElem_of_mem hmem
  obtain ⟨relative, _, _, hpath, hne, -⟩ :=
    hi.entries.get (by rw [hi.entries.length_eq]; exact hlt) hlt
  simp only [List.get_eq_getElem] at hpath
  exact ⟨⟨relative, hpath.symm⟩, by rw [hpath]; simpa using hne⟩

/-- Dropping the file with an archive name drops one place of the log. -/
theorem filter_eraseIdx (cfg : Config) {log : List Held} (hnd : (log.map Held.name).Nodup) {i : ℕ}
    {h : Held} (hi : log[i]? = some h) :
    log.filter (fun g => cfg.inArchive g.name ≠ cfg.inArchive h.name) = log.eraseIdx i := by
  induction log generalizing i with
  | nil => exact absurd hi (by simp)
  | cons g log ih =>
    rw [List.map_cons, List.nodup_cons] at hnd
    rcases i with _ | i
    · rw [List.getElem?_cons_zero, Option.some.injEq] at hi
      subst hi
      rw [List.filter_cons_of_neg (by simp), List.eraseIdx_cons_zero, List.filter_eq_self]
      intro x hx
      rw [decide_eq_true_eq]
      exact fun he => hnd.1 (List.mem_map.mpr ⟨x, hx, inArchive_injective cfg he⟩)
    · rw [List.getElem?_cons_succ] at hi
      have hne : cfg.inArchive g.name ≠ cfg.inArchive h.name := fun he =>
        hnd.1 (List.mem_map.mpr ⟨h, List.mem_of_getElem? hi, (inArchive_injective cfg he).symm⟩)
      rw [List.filter_cons_of_pos (by simpa using hne), List.eraseIdx_cons_succ, ih hnd.2 hi]

/-- **A successful restore takes its file out of the log.** -/
theorem Inv.restore {log : List Held} (hi : Inv cfg py w log) {selector : Str} {source target : Path}
    {w' : World}
    (h : restoreQuarantinedAuth cfg py true steady selector w = (.ok (source, target), w')) :
    Inv cfg py w' (log.filter fun g => cfg.inArchive g.name ≠ source) := by
  obtain ⟨document, index, hacc⟩ := restore_ok h
  obtain ⟨g, hg, rfl, rfl, -⟩ := hi.selected hacc
  rw [filter_eraseIdx cfg (names_nodup hi) hg]
  rcases restore_run hacc with ⟨f, w1, -, hmoved, hc, hrun⟩ | ⟨-, e, w1, hrun⟩
  swap
  · rw [hrun] at h; exact absurd h (by simp)
  obtain rfl : _ = w' := congrArg Prod.snd (hrun.symm.trans h)
  refine hi.written hmoved hc ?_ ?_
  · rw [(manifest_entries hacc.readable).2, List.eraseIdx_eq_take_drop_succ,
      List.eraseIdx_eq_take_drop_succ]
    exact List.rel_append (List.forall₂_take index hi.entries)
      (List.forall₂_drop (index + 1) hi.entries)
  · rw [archived_moved_out hmoved (hi.path (List.mem_of_getElem? hg)).1, archived_locked]
    obtain ⟨n, b, -, ⟨rfl, -⟩, hcat⟩ := hi.catalogue.erase hg
    exact hcat

/-! ### Whole runs -/

/-- Nothing is in the archive directory. -/
def EmptyArchive (cfg : Config) (w : World) : Prop :=
  ∀ n, cfg.inArchive n ∉ w.nodes ∧ cfg.inArchive n ∉ w.dirs

/-- The disks a run can reach, with the log of the files that are quarantined: successful calls, and
other programs that keep away from the archive. -/
inductive Reach (cfg : Config) (py : Py) : World → List Held → Prop where
  | start {w : World} (h : EmptyArchive cfg w) : Reach cfg py w []
  | quarantine {w w' : World} {log : List Held} {source : Path} {f : File} {reason movedAt : Str}
      {target : FileName} (hw : Reach cfg py w log) (hf : fileAt w source = some f)
      (h : quarantineAuthRecord cfg py true steady source reason movedAt w = (.ok target, w')) :
      Reach cfg py w' (log ++ [⟨source, target, f⟩])
  | restore {w w' : World} {log : List Held} {selector : Str} {source target : Path}
      (hw : Reach cfg py w log)
      (h : restoreQuarantinedAuth cfg py true steady selector w = (.ok (source, target), w')) :
      Reach cfg py w' (log.filter fun g => cfg.inArchive g.name ≠ source)
  | outside {w w' : World} {log : List Held} (hw : Reach cfg py w log)
      (h : OutsideArchive cfg w w') : Reach cfg py w' log

theorem Inv.start (h : EmptyArchive cfg w) : Inv cfg py w [] := by
  have hnone : ∀ n, w.nodes.lookup (cfg.inArchive n) = none := fun n =>
    Finmap.lookup_eq_none.mpr (h n).1
  have hempty : archived cfg w = fun _ => none := by
    funext n
    rw [archived, fileAt, hnone, Option.bind_none, ite_self]
  refine ⟨?_, ?_, Or.inl (hnone _), fun n => (h n).2, fun hne => absurd rfl hne⟩
  · rw [savedEntries, hnone]; exact .nil
  · rw [hempty]; exact Catalogue.empty

/-- **The invariant of a run holds on every disk it reaches.** -/
theorem Reach.inv {log : List Held} (h : Reach cfg py w log) : Inv cfg py w log := by
  induction h with
  | start h => exact Inv.start h
  | quarantine _ hf h ih => exact ih.quarantine hf h
  | restore _ h ih => exact ih.restore h
  | outside _ h ih => exact ih.outside h

/-! ### The size of the manifest -/

/-- The manifest file is not larger than `_manifest` allows. -/
def ManifestFits (cfg : Config) (w : World) : Prop :=
  ∀ f, fileAt w (cfg.inArchive manifestName) = some f → f.bytes.length ≤ maxManifestBytes

theorem manifest_fits {document : Dict} (h : manifest cfg w = .ok document) :
    ManifestFits cfg w := by
  intro f hf
  unfold manifest at h
  simp only at h
  split_ifs at h with hex
  · rw [fileAt_of_not_exists (by simpa using hex)] at hf
    exact absurd hf (by simp)
  · split at h
    · next file hl =>
      rw [fileAt, hl, Option.bind_some, regular, Option.some.injEq] at hf
      subst hf
      split_ifs at h with hsize
      omega
    · exact absurd h (by simp)

/-- A manifest of a run that fits can be read. -/
theorem Inv.manifest_ok {log : List Held} (hi : Inv cfg py w log) (hfit : ManifestFits cfg w) :
    ∃ document, Quarantine.manifest cfg w = .ok document ∧ cleanFields py document := by
  rcases hi.manifest with hnone | ⟨document, hl, hc, hent⟩
  · refine ⟨[(lit "schema", .str manifestSchema), (lit "entries", .arr [])], ?_, by rfl⟩
    have hex : pathExists w (cfg.inArchive manifestName) = false := by
      rw [pathExists, hnone, decide_eq_false (hi.flat _)]; rfl
    rw [Quarantine.manifest, hex]; rfl
  · have hex : pathExists w (cfg.inArchive manifestName) = true := by
      rw [pathExists, hl, Bool.or_true]
    have hsize := hfit _ (by rw [fileAt, hl]; rfl)
    refine ⟨if has document (lit "schema") then document
      else set document (lit "schema") (.str manifestSchema), ?_, ?_⟩
    · rw [Quarantine.manifest, hex, hl]
      simp only [Bool.not_true, Bool.false_eq_true, if_false]
      rw [if_neg (by omega)]
      simp only [jsonFile, hent]
    · split_ifs
      · exact hc
      · exact cleanFields_insert hc (by decide) (by rfl)

/-! ### Restoring -/

/-- The quarantined file `h`, at place `i`, can be restored by its archive name: whatever happens
outside the archive, if its place is free and the directory of it is there, the restore puts the
content back and takes exactly its entry out. -/
def Restorable (cfg : Config) (py : Py) (w : World) (i : ℕ) (h : Held) : Prop :=
  ∀ w', OutsideArchive cfg w w' → cfg.authDir ∈ w'.dirs → h.path.dropLast ∈ w'.dirs →
    pathExists w' h.path = false →
    ∃ w'', restoreQuarantinedAuth cfg py true steady h.name.text w' =
        (.ok (cfg.inArchive h.name, h.path), w'') ∧
      fileAt w'' h.path = some h.file ∧ savedEntries cfg w'' = (savedEntries cfg w).eraseIdx i

theorem Inv.file {log : List Held} (hi : Inv cfg py w log) {h : Held} (hmem : h ∈ log) :
    h.name ≠ manifestName ∧ h.name ≠ lockName ∧ fileAt w (cfg.inArchive h.name) = some h.file := by
  obtain ⟨n, b, hn, rfl, rfl⟩ := hi.catalogue.exists_of_mem hmem
  unfold archived at hn
  split_ifs at hn with hr
  rw [not_or] at hr
  exact ⟨hr.1, hr.2, hn⟩

/-- A path of the auth tree after the lock is taken. -/
theorem locked_pathExists {p : Path} (h : cfg.authDir <+: p) :
    pathExists (lockedWorld cfg w) p = pathExists w p := by
  unfold pathExists
  rw [locked_lookup cfg w (ne_inArchive h _),
    decide_eq_decide.mpr (locked_dirs_of_not_below (not_prefix_of_auth h))]

/-- The checks of a restore by archive name. -/
theorem Inv.accepted {log : List Held} (hi : Inv cfg py w log) {i : ℕ} {h : Held}
    (hget : log[i]? = some h) (hauth : cfg.authDir ∈ w.dirs) (hdir : h.path.dropLast ∈ w.dirs)
    (hfree : pathExists w h.path = false) {document : Dict}
    (hm : Quarantine.manifest cfg w = .ok document) :
    RestoreAccepted cfg py true w h.name.text document i (cfg.inArchive h.name) h.path := by
  have hmem := List.mem_of_getElem? hget
  obtain ⟨-, hlock, hfile⟩ := hi.file hmem
  obtain ⟨hpre, -⟩ := hi.path hmem
  have hmade := hi.made (List.ne_nil_of_mem hmem)
  have hmatch : matchEntries cfg py h.name.text 0 (entriesOf document) =
      .ok [(i, h.path.map FileName.text, (cfg.inArchive h.name).map FileName.text)] := by
    rw [(manifest_entries hm).2, matchEntries_log _ 0 hi.entries,
      filter_zipIdx_unique (names_nodup hi) hget 0, Nat.zero_add]
    rfl
  have hnd : cfg.inArchive h.name ∉ (lockedWorld cfg w).dirs := fun hd =>
    hi.flat _ ((locked_dirs_of_not_below (inArchive_not_below _)).mp hd)
  have hl : fileAt (lockedWorld cfg w) (cfg.inArchive h.name) = some h.file := by
    rw [locked_fileAt cfg w fun he => hlock (inArchive_injective cfg he), hfile]
  have hdir' : h.path.dropLast ∈ (lockedWorld cfg w).dirs := (locked_dirs cfg w).mpr (Or.inl hdir)
  have hfree' : pathExists (lockedWorld cfg w) h.path = false := by
    rw [locked_pathExists hpre, hfree]
  refine ⟨by rw [ensureRealDirectory, if_pos hauth], ?_, hm,
    restoreSelect_own hmatch hnd hl hdir' hfree'⟩
  rw [lockArchive, if_neg fun hno => hno.1 hmade]

/-- **A file of a run whose manifest fits can be restored by its archive name.** -/
theorem Inv.restorable {log : List Held} (hi : Inv cfg py w log) (hfit : ManifestFits cfg w)
    {i : ℕ} {h : Held} (hget : log[i]? = some h) : Restorable cfg py w i h := by
  intro w' hout hauth hdir hfree
  have hi' := hi.outside hout
  have hman := (hout _ (inArchive_below manifestName)).1
  obtain ⟨document, hm, hc⟩ := hi'.manifest_ok
    (fun f hf => hfit f (by rw [fileAt, hman] at hf; exact hf))
  obtain ⟨hent, hsaved⟩ := manifest_entries hm
  have hmem := List.mem_of_getElem? hget
  obtain ⟨hpre, -⟩ := hi'.path hmem
  obtain ⟨-, hlock, hfile⟩ := hi'.file hmem
  rcases restore_run (hi'.accepted hget hauth hdir hfree hm) with
    ⟨f, w1, hf, hmoved, -, hrun⟩ | ⟨hno, -⟩
  swap
  · exact absurd (clean_eraseIdx hent hc i) hno
  rw [locked_fileAt cfg w' fun he => hlock (inArchive_injective cfg he), hfile,
    Option.some.injEq] at hf
  subst hf
  refine ⟨_, hrun, ?_, ?_⟩
  · refine (fileAt_insert_ne w1 (ne_inArchive hpre _) _).trans ?_
    rw [hmoved.files, if_pos rfl]
  · rw [savedEntries_written, hsaved, savedEntries_congr hman]

/-- Another program can clear the place of a quarantined file. -/
theorem exists_cleared {h : Held} (hpre : cfg.authDir <+: h.path) (hne : h.path ≠ cfg.authDir) :
    ∃ w', OutsideArchive cfg w w' ∧ cfg.authDir ∈ w'.dirs ∧ h.path.dropLast ∈ w'.dirs ∧
      pathExists w' h.path = false := by
  obtain ⟨relative, hpath⟩ := hpre
  have hrel : relative ≠ [] := by rintro rfl; exact hne (by rw [← hpath, List.append_nil])
  have hdrop : h.path.dropLast = cfg.authDir ++ relative.dropLast := by
    rw [← hpath, List.dropLast_append_of_ne_nil hrel]
  have hself : h.path.dropLast ≠ h.path := by
    rw [hdrop, ← hpath]
    intro he
    have := congrArg List.length (List.append_cancel_left he)
    rw [List.length_dropLast] at this
    have := List.length_pos_iff.mpr hrel
    omega
  have hauth : ∀ p q, cfg.archiveDir <+: p → cfg.authDir <+: q → p ≠ q := by
    rintro p q hp hq rfl
    rcases List.prefix_or_prefix_of_prefix hq hp with h' | h'
    · exact cfg.apart.1 h'
    · exact cfg.apart.2 h'
  refine ⟨{ w with nodes := w.nodes.erase h.path,
                   dirs := (w.dirs ∪ {cfg.authDir, h.path.dropLast}).erase h.path },
    fun p hp => ⟨?_, ?_⟩, ?_, ?_, ?_⟩
  · exact Finmap.lookup_erase_ne (hauth p _ hp ⟨relative, hpath⟩)
  · simp [hauth p _ hp ⟨relative, hpath⟩, hauth p _ hp (List.prefix_refl _),
      hauth p _ hp ⟨relative.dropLast, hdrop.symm⟩]
  · simp [Ne.symm hne]
  · simp [hself]
  · simp [pathExists]

/-- **A file of a run whose manifest does not fit cannot be restored.** -/
theorem Inv.fits_of_restorable {log : List Held} (hi : Inv cfg py w log) {i : ℕ} {h : Held}
    (hget : log[i]? = some h) (hr : Restorable cfg py w i h) : ManifestFits cfg w := by
  obtain ⟨hpre, hne⟩ := hi.path (List.mem_of_getElem? hget)
  obtain ⟨w', hout, hauth, hdir, hfree⟩ := @exists_cleared cfg w h hpre hne
  obtain ⟨w'', hrun, -⟩ := hr w' hout hauth hdir hfree
  obtain ⟨document, index, hacc⟩ := restore_ok hrun
  intro f hf
  refine manifest_fits hacc.readable f ?_
  rw [fileAt, (hout _ (inArchive_below manifestName)).1]
  exact hf

/-! ### The store of a run -/

/-- What the manifest and the archive hold: the entries name the files of the log, all names are
different and none is reserved, the archive has no other file, and each has its old content. -/
structure Stored (cfg : Config) (w : World) (log : List Held) : Prop where
  names : (savedEntries cfg w).map (fun e => get (asDict e) (lit "quarantine_name")) =
    log.map fun h => .str h.name.text
  nodup : (log.map Held.name).Nodup
  files : ∀ n, n ≠ manifestName → n ≠ lockName →
    ((fileAt w (cfg.inArchive n)).isSome ↔ n ∈ log.map Held.name)
  reserved : ∀ h ∈ log, h.name ≠ manifestName ∧ h.name ≠ lockName
  content : ∀ h ∈ log, fileAt w (cfg.inArchive h.name) = some h.file

theorem Inv.stored {log : List Held} (hi : Inv cfg py w log) : Stored cfg w log := by
  refine ⟨?_, names_nodup hi, fun n h1 h2 => ?_, fun h hmem => ?_, fun h hmem => (hi.file hmem).2.2⟩
  · rw [← List.forall₂_eq_eq_eq, List.forall₂_map_left_iff, List.forall₂_map_right_iff]
    refine hi.entries.imp fun e h => ?_
    rintro ⟨relative, reason, movedAt, -, -, rfl⟩
    rfl
  · have harch : archived cfg w n = fileAt w (cfg.inArchive n) := by
      rw [archived, if_neg (not_or.mpr ⟨h1, h2⟩)]
    rw [← harch, Option.isSome_iff_ne_none]
    constructor
    · intro hn
      have := (hi.catalogue.unique Held.name id Function.injective_id fun _ _ _ h => h.1).2 n hn
      exact List.count_pos_iff.mp (by rw [id] at this; omega)
    · intro hn
      obtain ⟨h, hmem, rfl⟩ := List.mem_map.mp hn
      rw [harch, (hi.file hmem).2.2]
      simp
  · obtain ⟨h1, h2, -⟩ := hi.file hmem
    exact ⟨h1, h2⟩

/-- **The store of a run.** On every disk a run reaches, the manifest and the archive hold exactly
the quarantined files, and these can be restored by their archive names exactly when there is none
or the manifest is not larger than `MAX_MANIFEST_BYTES`. -/
theorem quarantine_store {cfg : Config} {py : Py} {w : World} {log : List Held}
    (h : Reach cfg py w log) : Stored cfg w log ∧
      ((∀ i g, log[i]? = some g → Restorable cfg py w i g) ↔ log = [] ∨ ManifestFits cfg w) := by
  refine ⟨h.inv.stored, fun hall => ?_, fun hfit i g hget => ?_⟩
  · rcases log with _ | ⟨g, log⟩
    · exact Or.inl rfl
    · exact Or.inr (h.inv.fits_of_restorable List.getElem?_cons_zero (hall 0 g rfl))
  · rcases hfit with rfl | hfit
    · exact absurd hget (by simp)
    · exact h.inv.restorable hfit hget

/-- The disk on which `/auth/a.json` has been quarantined once. -/
def onceDisk : World :=
  (quarantineAuthRecord sampleConfig onePy true steady samplePath [] [] oneDisk).2

/-- `/auth/a.json`, quarantined once, can be restored. -/
theorem quarantine_store_once :
    Restorable sampleConfig onePy onceDisk 0 ⟨samplePath, aJson, textFile "one"⟩ := by
  have hstart : Reach sampleConfig onePy oneDisk [] := by
    refine .start fun n => ⟨fun hn => ?_, fun hn => ?_⟩
    · rw [oneDisk, Finmap.mem_singleton] at hn
      exact @ne_inArchive sampleConfig samplePath (by decide) n hn.symm
    · simp [oneDisk, Config.inArchive, sampleConfig] at hn
  have hrun : quarantineAuthRecord sampleConfig onePy true steady samplePath [] [] oneDisk =
      (.ok aJson, onceDisk) := Prod.ext (by decide +kernel) (by rw [onceDisk])
  have hreach := hstart.quarantine
    (rfl : fileAt oneDisk samplePath = some (textFile "one")) hrun
  have hsize : (fileAt onceDisk (sampleConfig.inArchive manifestName)).all
      (fun f => f.bytes.length ≤ maxManifestBytes) = true := by decide +kernel
  refine (quarantine_store hreach).2.mpr (Or.inr fun f hf => ?_) 0 _ rfl
  rw [hf] at hsize
  simpa using hsize

/-! ### A run that goes on too long -/

/-- The directories `/auth` and `/archive`, with nothing in them. -/
def emptyDisk : World := ⟨∅, {[], sampleConfig.authDir, sampleConfig.archiveDir}, none⟩

/-- Both directories are there, and `/auth/a.json` is no directory. -/
structure SampleDirs (w : World) : Prop where
  auth : sampleConfig.authDir ∈ w.dirs
  archive : sampleConfig.archiveDir ∈ w.dirs
  free : samplePath ∉ w.dirs

theorem SampleDirs.of_dirs {w w' : World} (h : SampleDirs w)
    (hd : w'.dirs = (lockedWorld sampleConfig w).dirs) : SampleDirs w' := by
  refine ⟨?_, ?_, ?_⟩
  · rw [hd]; exact (locked_dirs _ _).mpr (Or.inl h.auth)
  · rw [hd]; exact (locked_dirs _ _).mpr (Or.inl h.archive)
  · rw [hd, locked_dirs]
    exact not_or.mpr ⟨h.free, by decide⟩

/-- As long as the manifest fits, `/auth/a.json` can be written and quarantined once more. -/
theorem quarantine_again {log : List Held} (h : Reach sampleConfig py w log) (hd : SampleDirs w)
    (hfit : ManifestFits sampleConfig w) :
    ∃ new w' g, Reach sampleConfig py new log ∧ SampleDirs new ∧
      quarantineAuthRecord sampleConfig py true steady samplePath [] [] new = (.ok g.name, w') ∧
      Reach sampleConfig py w' (log ++ [g]) ∧ SampleDirs w' := by
  let new : World := { w with nodes := w.nodes.insert samplePath (.file (textFile "one")) }
  have hlookup : ∀ p, sampleConfig.archiveDir <+: p → new.nodes.lookup p = w.nodes.lookup p := by
    refine fun p hp => Finmap.lookup_insert_of_ne _ ?_
    rintro rfl
    exact absurd hp (by decide)
  have hnew : Reach sampleConfig py new log := h.outside fun p hp => ⟨hlookup p hp, Iff.rfl⟩
  obtain ⟨document, hm, hc⟩ := hnew.inv.manifest_ok
    (fun f hf => hfit f (by rw [fileAt, hlookup _ (inArchive_below _)] at hf; exact hf))
  have hrel : containedRelative new samplePath sampleConfig.authDir = .ok [aJson] := by
    rw [containedRelative, if_neg hd.free, Finmap.lookup_insert]
    rfl
  have hacc : Accepted sampleConfig true new samplePath :=
    ⟨by rw [ensureRealDirectory, if_pos hd.auth], ⟨_, hrel⟩,
      by rw [lockArchive, if_neg fun hno => hno.1 hd.archive], rfl, ⟨document, hm⟩⟩
  have henc : Encodes sampleConfig py new samplePath [] := by
    intro d hd'
    rw [hm, Except.ok.injEq] at hd'
    subst hd'
    exact ⟨hc, by decide, rfl⟩
  obtain ⟨w', hrun⟩ := @quarantine_succeeds sampleConfig py new samplePath [aJson] document [] []
    hacc hm hrel ((clean_quarantine_iff hm (by rfl) (by simp)).mpr henc)
  have hfile : fileAt new samplePath = some (textFile "one") := fileAt_insert_self w _ _
  have hdirs : SampleDirs new := ⟨hd.auth, hd.archive, hd.free⟩
  refine ⟨new, w', _, hnew, hdirs, hrun, hnew.quarantine hfile hrun, ?_⟩
  obtain ⟨_, _, _, w1, -, -, -, -, -, hmoved, -, rfl⟩ := quarantine_ok hrun
  exact hdirs.of_dirs hmoved.dirs

/-- A manifest that fits has at most as many entries as bytes. -/
theorem Inv.length_le {log : List Held} (hi : Inv cfg py w log) (hfit : ManifestFits cfg w) :
    log.length ≤ maxManifestBytes := by
  rw [← hi.entries.length_eq]
  rcases hi.manifest with hnone | ⟨document, hl, -, hent⟩
  · rw [savedEntries, hnone]; exact Nat.zero_le _
  · have hsaved : savedEntries cfg w = entriesOf document := by rw [savedEntries, hl]; rfl
    rw [hsaved]
    refine le_trans (length_le_jsonFile py false hent fun v hv => ?_) (hfit _ (by rw [fileAt, hl]; rfl))
    rw [← hsaved] at hv
    obtain ⟨i, hlt, rfl⟩ := List.getElem_of_mem hv
    obtain ⟨_, _, _, -, -, he⟩ := hi.entries.get hlt (by rw [← hi.entries.length_eq]; exact hlt)
    exact ⟨_, he⟩

/-- If every quarantine of `/auth/a.json` leaves a manifest that fits, runs quarantine as many files as one
likes. -/
theorem exists_long (hall : ∀ {new w' : World} {log : List Held} {g : Held},
    Reach sampleConfig py new log → SampleDirs new →
    quarantineAuthRecord sampleConfig py true steady samplePath [] [] new = (.ok g.name, w') →
    Reach sampleConfig py w' (log ++ [g]) → ManifestFits sampleConfig w') (n : ℕ) :
    ∃ w log, Reach sampleConfig py w log ∧ SampleDirs w ∧ ManifestFits sampleConfig w ∧
      log.length = n := by
  induction n with
  | zero =>
    refine ⟨emptyDisk, [], .start fun n => ⟨Finmap.notMem_empty, ?_⟩, ?_, ?_, rfl⟩
    · intro hn
      simp [emptyDisk, Config.inArchive, sampleConfig] at hn
    · constructor <;> decide
    · intro f hf
      exact absurd hf (by simp [fileAt, emptyDisk])
  | succ n ih =>
    obtain ⟨w, log, hreach, hd, hfit, hlen⟩ := ih
    obtain ⟨new, w', g, hnew, hdirs, hrun, hreach', hd'⟩ := quarantine_again hreach hd hfit
    exact ⟨w', _, hreach', hd', hall hnew hdirs hrun hreach', by simp [hlen]⟩

/-- Not all of these quarantines leave a manifest that fits. -/
theorem not_all_fit (py : Py) : ¬ ∀ {new w' : World} {log : List Held} {g : Held},
    Reach sampleConfig py new log → SampleDirs new →
    quarantineAuthRecord sampleConfig py true steady samplePath [] [] new = (.ok g.name, w') →
    Reach sampleConfig py w' (log ++ [g]) → ManifestFits sampleConfig w' := by
  intro hall
  obtain ⟨w, log, hreach, -, hfit, hlen⟩ := exists_long hall (maxManifestBytes + 1)
  have := hreach.inv.length_le hfit
  omega

/-- **A run can write a manifest that no restore reads**: whatever the interpreter, some run leaves a
quarantined file that cannot be restored though its place is free. -/
theorem manifest_outgrows : ¬ ∃ py : Py, ∀ cfg w log, Reach cfg py w log →
    ∀ i g, log[i]? = some g → Restorable cfg py w i g := by
  rintro ⟨py, hall⟩
  refine not_all_fit py fun {new w' log g} _ _ _ hreach => ?_
  have hget : (log ++ [g])[log.length]? = some g := by simp
  exact hreach.inv.fits_of_restorable hget (hall _ _ _ hreach _ g hget)

end Cloudx.Cloud.QuarantineRuns

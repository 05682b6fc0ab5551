import Cloudx.Cloud.QuarantineRuns

/-! # Restoring what was quarantined

A restore by the name that a quarantine has returned puts everything back: the file, the auth tree, the
archive and the entries. It needs a manifest that `_manifest` reads again, so the new one must not have
become too large, and an archive in which every entry can be read and no other one answers to the name
(`restore_undoes_iff`). -/

namespace Cloudx.Cloud.QuarantineUndo

open Cloudx.Lib.Store Cloudx.Lib.Fault
open Cloudx.Python.Text Cloudx.Python.Value Cloudx.Python.Dump
open Cloudx.Cloud.Disk Cloudx.Cloud.Quarantine Cloudx.Cloud.QuarantineCalls Cloudx.Cloud.QuarantineRuns

variable {cfg : Config} {py : Py} {w w' : World}

/-! ### Other entries -/

/-- The entry can be read and does not answer to the selector. -/
def Silent (cfg : Config) (py : Py) (selector : Str) (e : Json) : Prop :=
  ∃ entry target source, e = .obj entry ∧ legacyEntryPaths cfg py entry = .ok (target, source) ∧
    selector ∉ selectors py entry source

/-- Entries that do not answer are passed over. -/
theorem matchEntries_silent {selector : Str} {more : List Json} : ∀ {l : List Json} {start : ℕ},
    (∀ e ∈ l, Silent cfg py selector e) →
      matchEntries cfg py selector start (l ++ more) =
        matchEntries cfg py selector (start + l.length) more
  | [], _, _ => rfl
  | e :: l, start, h => by
    obtain ⟨entry, target, source, rfl, hpaths, hnot⟩ := h e List.mem_cons_self
    have ih := @matchEntries_silent selector more l (start + 1) fun d hd => h d (List.mem_cons_of_mem _ hd)
    have hstart : start + (Json.obj entry :: l).length = start + 1 + l.length := by
      rw [List.length_cons]
      omega
    rw [List.cons_append, matchEntries, hpaths, hstart]
    simp only [if_neg hnot, ih]
    cases matchEntries cfg py selector (start + 1 + l.length) more <;> rfl

/-- If the last entry answers to the selector and only one does, no other one does. -/
theorem silent_of_single {selector : Str} {last : Json}
    (hlast : ∀ n x, matchEntries cfg py selector n [last] = .ok x → x ≠ []) :
    ∀ {l : List Json} {start : ℕ} {found : List (ℕ × List Str × List Str)},
      matchEntries cfg py selector start (l ++ [last]) = .ok found →
        found ≠ [] ∧ (found.length = 1 → ∀ e ∈ l, Silent cfg py selector e)
  | [], _, _, h => ⟨hlast _ _ h, by simp⟩
  | e :: l, start, found, h => by
    rw [List.cons_append] at h
    cases e with
    | obj entry =>
      rw [matchEntries] at h
      rcases hpaths : legacyEntryPaths cfg py entry with err | ⟨target, source⟩
      · rw [hpaths] at h
        cases h
      · rw [hpaths] at h
        simp only at h
        rcases hrest : matchEntries cfg py selector (start + 1) (l ++ [last]) with err | more
        · rw [hrest] at h
          cases h
        · rw [hrest, Except.map, Except.ok.injEq] at h
          obtain ⟨hne, hall⟩ := silent_of_single hlast hrest
          by_cases hanswer : selector ∈ selectors py entry source
          · rw [if_pos hanswer] at h
            subst h
            refine ⟨by simp, fun hlen => absurd ?_ hne⟩
            rw [List.length_cons] at hlen
            exact List.length_eq_zero_iff.mp (by omega)
          · rw [if_neg hanswer] at h
            subst h
            exact ⟨hne, fun hlen => List.forall_mem_cons.mpr
              ⟨⟨entry, target, source, rfl, hpaths, hanswer⟩, hall hlen⟩⟩
    | null => cases h
    | bool b => cases h
    | int n => cases h
    | float x => cases h
    | str s => cases h
    | arr items => cases h

/-! ### After the quarantine -/

/-- A transaction that is done has taken the file away from its place. -/
theorem transaction_gone {source target : Path} {document : Dict} {undone lost : String}
    (h : transaction cfg py steady source target document undone lost w = (.ok (), w'))
    (hne : source ≠ target) (hm : source ≠ cfg.inArchive manifestName) :
    w'.nodes.lookup source = none := by
  unfold transaction at h
  obtain ⟨⟨⟩, w1, hmove, h⟩ := Act.bind_eq_ok.mp h
  obtain ⟨⟨⟩, w2, hchmod, h⟩ := Act.bind_eq_ok.mp h
  obtain ⟨⟨⟩, w3, hsource, h⟩ := Act.bind_eq_ok.mp h
  obtain ⟨⟨⟩, w4, htarget, h⟩ := Act.bind_eq_ok.mp h
  have hmove := (Act.step_eq_ok.mp hmove).2
  have hchmod := (Act.step_eq_ok.mp hchmod).2
  obtain rfl : w2 = w3 := congrArg Prod.snd (Act.step_eq_ok.mp hsource).2
  obtain rfl : w2 = w4 := congrArg Prod.snd (Act.step_eq_ok.mp htarget).2
  have hgone : w1.nodes.lookup source = none := by
    unfold replaceStep osReplace at hmove
    split_ifs at hmove
    · cases hmove
    · rcases hnode : w.nodes.lookup source with _ | node
      · rw [hnode] at hmove
        cases hmove
      · rw [hnode] at hmove
        obtain rfl := congrArg Prod.snd hmove
        show Finmap.lookup source (Finmap.insert target node (Finmap.erase source w.nodes)) = none
        rw [Finmap.lookup_insert_of_ne _ hne, Finmap.lookup_erase]
  have hread : w2.nodes.lookup source = none := by
    obtain rfl := congrArg Prod.snd hchmod
    exact ((makeReadable_rest target w1).2 source hne).trans hgone
  unfold writeOrUndo at h
  rcases atomicWriteJson_cases py (fun s => steady (Step.write s)) (cfg.inArchive manifestName) document
    w2 with ⟨hw, -, -⟩ | ⟨-, hno⟩ | ⟨hw, -, -⟩ | ⟨-, -, hno⟩ | ⟨-, -, hno⟩
  · rw [Act.except_ok hw] at h
    obtain rfl := congrArg Prod.snd h
    exact (Finmap.lookup_insert_of_ne _ hm).trans hread
  · cases hno
  · rw [Act.except_error hw] at h
    cases h
  · rcases hno with hno | hno | hno <;> cases hno
  · cases hno

/-- The checks have let a quarantine through that returns. -/
theorem quarantine_accepted {source : Path} {reason movedAt : Str} {target : FileName}
    (h : quarantineAuthRecord cfg py true steady source reason movedAt w = (.ok target, w')) :
    Accepted cfg true w source := by
  rcases @quarantine_checks cfg py w true steady rfl source reason movedAt with
    ⟨-, e, w2, -, hrun⟩ | ⟨hacc, -⟩
  · rw [hrun] at h
    cases h
  · exact hacc

theorem quarantine_gone {source : Path} {reason movedAt : Str} {target : FileName}
    (h : quarantineAuthRecord cfg py true steady source reason movedAt w = (.ok target, w')) :
    w'.nodes.lookup source = none := by
  rcases @quarantine_checks cfg py w true steady rfl source reason movedAt with
    ⟨-, e, w2, -, hrun⟩ | ⟨hacc, document, relative, -, -, hrun⟩
  · rw [hrun] at h
    cases h
  · obtain ⟨_, _, _, hsplit, _⟩ := hacc.ready
    have hpre : cfg.authDir <+: source := ⟨_, hsplit⟩
    rw [hrun, quarantineBody] at h
    obtain ⟨⟨⟩, w1, hrun, hpure⟩ := Act.bind_eq_ok.mp h
    obtain rfl : w1 = w' := congrArg Prod.snd hpure
    exact transaction_gone hrun (ne_inArchive hpre _) (ne_inArchive hpre _)

/-- A manifest that was written and fits is read again, with its entries. -/
theorem manifest_written {document : Dict} {entries : List Json} {w1 : World}
    (hc : clean py (.obj (set document (lit "entries") (.arr entries))))
    (hfit : ManifestFits cfg (written py (cfg.inArchive manifestName)
      (set document (lit "entries") (.arr entries)) w1)) :
    ∃ read, manifest cfg (written py (cfg.inArchive manifestName)
        (set document (lit "entries") (.arr entries)) w1) = .ok read ∧ cleanFields py read ∧
      get read (lit "entries") = .arr entries := by
  have hlookup : (written py (cfg.inArchive manifestName) (set document (lit "entries")
      (.arr entries)) w1).nodes.lookup (cfg.inArchive manifestName) =
        some (.file (jsonFile py false (set document (lit "entries") (.arr entries)))) :=
    Finmap.lookup_insert _
  have hsize := hfit _ (by rw [fileAt, hlookup]; rfl)
  generalize hdoc : set document (lit "entries") (.arr entries) = new at hc hlookup hsize ⊢
  have hentries : get new (lit "entries") = .arr entries := by rw [← hdoc, get_set_self]
  have hexists : pathExists (written py (cfg.inArchive manifestName) new w1)
      (cfg.inArchive manifestName) = true := by
    rw [pathExists, hlookup, Bool.or_true]
  refine ⟨if has new (lit "schema") then new else set new (lit "schema") (.str manifestSchema), ?_, ?_, ?_⟩
  · rw [manifest, hexists, hlookup]
    simp only [Bool.not_true, Bool.false_eq_true, if_false]
    rw [if_neg (by omega)]
    simp only [jsonFile, hentries]
  · split_ifs
    · exact hc
    · exact cleanFields_insert hc (by decide) (by rfl)
  · split_ifs
    · exact hentries
    · rw [get_set_ne _ (by decide), hentries]

/-- What the entry of a quarantine answers to. -/
theorem matchEntries_own {source : Path} {target : FileName} {relative : Path} {reason movedAt : Str}
    (hsplit : cfg.authDir ++ relative = source) (hne : relative ≠ []) (f : File) (n : ℕ) :
    matchEntries cfg py target.text n [entryOf py relative target reason movedAt] =
      .ok [(n, source.map FileName.text, (cfg.inArchive target).map FileName.text)] := by
  have hrecords : List.Forall₂ (Records cfg py) [entryOf py relative target reason movedAt]
      [⟨source, target, f⟩] := .cons ⟨relative, reason, movedAt, hsplit.symm, hne, rfl⟩ .nil
  rw [matchEntries_log _ n hrecords]
  simp

/-! ### Restoring -/

/-- The disk is as it was, but for file modes, the lock and the text of the manifest. -/
structure Restored (cfg : Config) (source : Path) (w w' : World) : Prop where
  files : ∀ p, p ≠ cfg.inArchive manifestName → p ≠ cfg.inArchive lockName → fileAt w' p = fileAt w p
  tree : ∀ p, cfg.authDir <+: p → (p ∈ w'.dirs ↔ p ∈ w.dirs) ∧
    (p ≠ source → w'.nodes.lookup p = w.nodes.lookup p)
  entries : savedEntries cfg w' = savedEntries cfg w

/-- **The restore undoes the quarantine** of the file at `source`, which returned the name `target`. -/
def Undone (cfg : Config) (py : Py) (w w' : World) (source : Path) (target : FileName) : Prop :=
  ∃ w'', restoreQuarantinedAuth cfg py true steady target.text w' =
    (.ok (cfg.inArchive target, source), w'') ∧ Restored cfg source w w''

/-- The checks of the restore let it through. -/
theorem restore_accepted {source : Path} {reason movedAt : Str} {target : FileName}
    (hparent : source.dropLast ∈ w.dirs)
    (h : quarantineAuthRecord cfg py true steady source reason movedAt w = (.ok target, w'))
    (hfit : ManifestFits cfg w') (hsilent : ∀ e ∈ savedEntries cfg w, Silent cfg py target.text e) :
    ∃ document, RestoreAccepted cfg py true w' target.text document (savedEntries cfg w).length
        (cfg.inArchive target) source ∧ cleanFields py document ∧
      ∃ e, get document (lit "entries") = .arr (savedEntries cfg w ++ [e]) := by
  have hgone := quarantine_gone h
  have hacc := quarantine_accepted h
  obtain ⟨relative, f, document, w1, hsplit, hne, -, hm, hfree, hmoved, hc, rfl⟩ := quarantine_ok h
  obtain ⟨hnot, hlock, -, hdir, -⟩ := freeName_spec hfree
  have hpre : cfg.authDir <+: source := ⟨relative, hsplit⟩
  obtain ⟨read, hread, hclean, hget⟩ := manifest_written hc hfit
  rw [(manifest_entries hm).2] at hget hread hgone ⊢
  generalize hw' : written py (cfg.inArchive manifestName) (set document (lit "entries") (.arr
    (savedEntries cfg w ++ [entryOf py relative target reason movedAt]))) w1 = w' at hread hgone ⊢
  have hdirs : w'.dirs = (lockedWorld cfg w).dirs := by rw [← hw']; exact hmoved.dirs
  have hkept : ∀ {p}, p ∈ w.dirs → p ∈ w'.dirs := fun hp => by
    rw [hdirs]
    exact (locked_dirs cfg w).mpr (.inl hp)
  have hmade : cfg.archiveDir ∈ w'.dirs := by
    rw [hdirs]
    exact (locked_dirs cfg w).mpr (.inr (List.prefix_refl _))
  have hroot : ensureRealDirectory w' cfg.authDir = .ok () := by
    have hroot := hacc.root
    unfold ensureRealDirectory at hroot ⊢
    split_ifs at hroot with hauth
    rw [if_pos (hkept hauth)]
  have hmatch : matchEntries cfg py target.text 0 (entriesOf read) =
      .ok [((savedEntries cfg w).length, source.map FileName.text,
        (cfg.inArchive target).map FileName.text)] := by
    rw [entriesOf, hget, matchEntries_silent hsilent, Nat.zero_add, matchEntries_own hsplit hne f]
  have harchive : cfg.inArchive target ∉ (lockedWorld cfg w').dirs := by
    rw [locked_dirs_of_not_below (inArchive_not_below target), hdirs]
    exact hdir
  have hfile : fileAt (lockedWorld cfg w') (cfg.inArchive target) = some f := by
    rw [locked_fileAt cfg w' fun he => hlock (inArchive_injective cfg he), ← hw']
    refine (fileAt_insert_ne w1 (inArchive_ne_manifest hnot) _).trans ?_
    rw [hmoved.files, if_pos rfl]
  have hplace : pathExists (lockedWorld cfg w') source = false := by
    obtain ⟨_, _, _, _, _, _, hready⟩ := hacc.ready
    rw [locked_pathExists hpre, pathExists, hgone, decide_eq_false (hdirs ▸ hready.source_dir)]
    rfl
  refine ⟨read, ⟨hroot, ?_, hread, ?_⟩, hclean, _, hget⟩
  · rw [lockArchive, if_neg fun hno => hno.1 hmade]
  · exact restoreSelect_own hmatch harchive hfile ((locked_dirs cfg w').mpr (.inl (hkept hparent))) hplace

/-- What the restore does, seen from before the quarantine. -/
theorem restored_of_moved {source : Path} {target : FileName} {f g : File} {w1 w3 : World}
    {document new : Dict} (hfree : freeName cfg (lockedWorld cfg w) target)
    (hf : fileAt w source = some f)
    (hin : Moved source (cfg.inArchive target) f (lockedWorld cfg w) w1)
    (hg : fileAt (lockedWorld cfg (written py (cfg.inArchive manifestName) document w1))
      (cfg.inArchive target) = some g)
    (hout : Moved (cfg.inArchive target) source g
      (lockedWorld cfg (written py (cfg.inArchive manifestName) document w1)) w3)
    (hentries : savedEntries cfg (written py (cfg.inArchive manifestName) new w3) = savedEntries cfg w) :
    Restored cfg source w (written py (cfg.inArchive manifestName) new w3) := by
  obtain ⟨hnot, hlock, -, -, hnone⟩ := freeName_spec hfree
  have hwritten : ∀ (d : Dict) (v : World) p, p ≠ cfg.inArchive manifestName →
      fileAt (written py (cfg.inArchive manifestName) d v) p = fileAt v p :=
    fun d v p hp => fileAt_insert_ne v hp _
  -- the disk between the two calls
  have hbetween : ∀ p, p ≠ cfg.inArchive manifestName → p ≠ cfg.inArchive lockName →
      fileAt (lockedWorld cfg (written py (cfg.inArchive manifestName) document w1)) p =
        fileAt w1 p := by
    intro p hm hl
    rw [locked_fileAt cfg _ hl, hwritten _ _ p hm]
  have hsame : g = f := by
    rw [hbetween _ (inArchive_ne_manifest hnot) fun he => hlock (inArchive_injective cfg he), hin.files,
      if_pos rfl] at hg
    exact (Option.some.inj hg).symm
  subst hsame
  refine ⟨fun p hm hl => ?_, fun p hp => ⟨?_, fun hps => ?_⟩, hentries⟩
  · rw [hwritten _ _ p hm, hout.files]
    split_ifs with hsource htarget
    · rw [hsource, hf]
    · rw [htarget, ← hnone, locked_fileAt cfg w fun he => hlock (inArchive_injective cfg he)]
    · rw [hbetween p hm hl, hin.files, if_neg htarget, if_neg hsource, locked_fileAt cfg w hl]
  · have hbelow := not_prefix_of_auth hp
    show p ∈ w3.dirs ↔ p ∈ w.dirs
    rw [hout.dirs, locked_dirs_of_not_below hbelow]
    show p ∈ w1.dirs ↔ p ∈ w.dirs
    rw [hin.dirs, locked_dirs_of_not_below hbelow]
  · have hnodes : ∀ (d : Dict) (v : World), (written py (cfg.inArchive manifestName) d v).nodes.lookup p =
        v.nodes.lookup p := fun d v => Finmap.lookup_insert_of_ne _ (ne_inArchive hp _)
    rw [hnodes, hout.nodes p (ne_inArchive hp _) hps, locked_lookup cfg _ (ne_inArchive hp _), hnodes,
      hin.nodes p hps (ne_inArchive hp _), locked_lookup cfg w (ne_inArchive hp _)]

/-- **A restore undoes the quarantine before it exactly if** the manifest that the quarantine wrote can be
read, and every entry that was there can be read and does not answer to the name of the new one. -/
theorem restore_undoes_iff {source : Path} {reason movedAt : Str} {target : FileName}
    (hparent : source.dropLast ∈ w.dirs)
    (h : quarantineAuthRecord cfg py true steady source reason movedAt w = (.ok target, w')) :
    Undone cfg py w w' source target ↔
      ManifestFits cfg w' ∧ ∀ e ∈ savedEntries cfg w, Silent cfg py target.text e := by
  constructor
  · rintro ⟨w'', hrun, -⟩
    obtain ⟨document, index, hacc⟩ := restore_ok hrun
    refine ⟨manifest_fits hacc.readable, ?_⟩
    obtain ⟨⟨targetParts, sourceParts, hmatch, -, -⟩, -⟩ := restoreSelect_spec hacc.selected
    obtain ⟨relative, f, before, w1, hsplit, hne, -, hm, -, -, -, rfl⟩ := quarantine_ok h
    have hentries : entriesOf document =
        savedEntries cfg w ++ [entryOf py relative target reason movedAt] := by
      rw [(manifest_entries hacc.readable).2, savedEntries_written, (manifest_entries hm).2]
    rw [hentries] at hmatch
    have hown : ∀ n x, matchEntries cfg py target.text n
        [entryOf py relative target reason movedAt] = .ok x → x ≠ [] := by
      rintro n x hx rfl
      rw [matchEntries_own hsplit hne f] at hx
      cases hx
    exact (silent_of_single hown hmatch).2 rfl
  · rintro ⟨hfit, hsilent⟩
    obtain ⟨read, hacc, hclean, e, hget⟩ := restore_accepted hparent h hfit hsilent
    obtain ⟨relative, f, document, w1, hsplit, hne, hf, hm, hfree, hmoved, -, rfl⟩ := quarantine_ok h
    have hread : entriesOf read = savedEntries cfg w ++ [e] := by rw [entriesOf, hget]
    have hback : (entriesOf read).eraseIdx (savedEntries cfg w).length = savedEntries cfg w := by
      rw [hread, List.eraseIdx_append_of_length_le (Nat.le_refl _), Nat.sub_self]
      simp
    rcases restore_run hacc with ⟨g, w3, hg, hout, -, hrun⟩ | ⟨hno, -⟩
    · refine ⟨_, hrun, restored_of_moved hfree hf hmoved hg hout ?_⟩
      rw [savedEntries_written, hback]
    · exact absurd (clean_eraseIdx (hread ▸ hget) hclean _) hno

/-- `/auth/a.json`, quarantined, is restored. -/
theorem quarantine_undone_once :
    Undone sampleConfig onePy oneDisk onceDisk samplePath aJson := by
  have hrun : quarantineAuthRecord sampleConfig onePy true steady samplePath [] [] oneDisk =
      (.ok aJson, onceDisk) := Prod.ext (by decide +kernel) (by rw [onceDisk])
  have hsize : (fileAt onceDisk (sampleConfig.inArchive manifestName)).all
      (fun f => f.bytes.length ≤ maxManifestBytes) = true := by decide +kernel
  have hnone : savedEntries sampleConfig oneDisk = [] := by decide +kernel
  refine (restore_undoes_iff (by decide) hrun).mpr ⟨fun f hf => ?_, by rw [hnone]; simp⟩
  rw [hf] at hsize
  simpa using hsize

/-! ### A quarantine that is not undone -/

/-- In a run, no entry answers to the name of a file that is quarantined next. -/
theorem silent_of_run {log : List Held} (hi : Inv cfg py w log) {target : FileName}
    (hfree : freeName cfg (lockedWorld cfg w) target) :
    ∀ e ∈ savedEntries cfg w, Silent cfg py target.text e := by
  intro e he
  obtain ⟨i, hlt, rfl⟩ := List.getElem_of_mem he
  have hlen : i < log.length := by rw [← hi.entries.length_eq]; exact hlt
  have hrecords := hi.entries.get hlt hlen
  obtain ⟨fields, hfields⟩ : ∃ fields, (savedEntries cfg w)[i] = .obj fields := by
    obtain ⟨_, _, _, -, -, he⟩ := hrecords
    exact ⟨_, he⟩
  rw [List.get_eq_getElem, hfields] at hrecords
  obtain ⟨hpaths, hselectors⟩ := legacyEntryPaths_records hrecords
  refine ⟨fields, _, _, hfields, hpaths, ?_⟩
  rw [hselectors, List.mem_singleton]
  intro htext
  obtain ⟨-, hlock, hfile⟩ := hi.file (List.get_mem log ⟨i, hlen⟩)
  obtain ⟨-, -, -, -, hnone⟩ := freeName_spec hfree
  have hname : target = (log.get ⟨i, hlen⟩).name := by
    rcases target with ⟨a, _⟩
    rcases hg : (log.get ⟨i, hlen⟩).name with ⟨b, _⟩
    rw [hg] at htext
    obtain rfl : a = b := htext
    rfl
  rw [hname, locked_fileAt cfg w fun he => hlock (inArchive_injective cfg he), hfile] at hnone
  cases hnone

/-- **Not every quarantine is undone by its restore**, whatever the interpreter, though every entry can be
read and none answers to the new name. -/
theorem quarantine_not_undone : ¬ ∃ py : Py, ∀ cfg w w' source reason movedAt target,
    source.dropLast ∈ w.dirs →
    quarantineAuthRecord cfg py true steady source reason movedAt w = (.ok target, w') →
    (∀ e ∈ savedEntries cfg w, Silent cfg py target.text e) → Undone cfg py w w' source target := by
  rintro ⟨py, hall⟩
  refine not_all_fit py fun {new w' log g} hreach hdirs hrun _ => ?_
  obtain ⟨_, _, _, _, -, -, -, -, hfree, -⟩ := quarantine_ok hrun
  obtain ⟨w'', hundone, -⟩ := hall sampleConfig new w' samplePath [] [] g.name hdirs.auth hrun
    (silent_of_run hreach.inv hfree)
  obtain ⟨document, index, hacc⟩ := restore_ok hundone
  exact manifest_fits hacc.readable

end Cloudx.Cloud.QuarantineUndo

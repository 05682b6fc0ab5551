import Cloudx.Cloud.QuarantineRuns

/-! # What a quarantine can do to the files, whatever fails

However many steps of a `quarantine_auth_record` fail, those of its rollback included, the credential
ends in one of two places: where it was, or in the archive under the name chosen for it. No other
credential is touched (`quarantine_taken`). What the manifest says of it is another matter. -/

namespace Cloudx.Cloud.Taking

open Cloudx.Lib.Fault
open Cloudx.Python.Text Cloudx.Python.Value Cloudx.Python.Dump
open Cloudx.Cloud.Disk Cloudx.Cloud.Quarantine Cloudx.Cloud.QuarantineCalls
open Cloudx.Cloud.QuarantineRuns

variable {cfg : Config} {py : Py} {w w' : World} {source target : Path} {f : File}

/-- The files but the manifest are `files`; the nodes are as in `w`, apart from two paths. -/
structure Placed (cfg : Config) (source target : Path) (files : Path → Option File)
    (w w' : World) : Prop where
  dirs : w'.dirs = w.dirs
  files : ∀ q, q ≠ cfg.inArchive manifestName → fileAt w' q = files q
  nodes : ∀ q, q ≠ source → q ≠ target → q ≠ cfg.inArchive manifestName →
    w'.nodes.lookup q = w.nodes.lookup q

/-- The files with `f` at the target and none at the source. -/
def movedFiles (source target : Path) (f : File) (w : World) (q : Path) : Option File :=
  if q = target then some f else if q = source then none else fileAt w q

theorem placed_refl (w : World) : Placed cfg source target (fileAt w) w w :=
  ⟨rfl, fun _ _ => rfl, fun _ _ _ _ => rfl⟩

theorem placed_moved (h : Moved source target f w w') :
    Placed cfg source target (movedFiles source target f w) w w' :=
  ⟨h.dirs, fun q _ => h.files q, fun q h1 h2 _ => h.nodes q h1 h2⟩

/-- A manifest write changes the manifest alone, however it ends. -/
theorem Placed.write {files : Path → Option File} (h : Placed cfg source target files w w')
    (fails : WriteStep → Bool) (document : Dict) : Placed cfg source target files w
      (atomicWriteJson py fails (cfg.inArchive manifestName) document w').2 := by
  have htemp : ∀ t, Placed cfg source target files w { w' with temporary := t } := fun t =>
    ⟨h.dirs, h.files, h.nodes⟩
  have hwritten :
      Placed cfg source target files w (written py (cfg.inArchive manifestName) document w') := by
    refine ⟨h.dirs, fun q hq => ?_, fun q h1 h2 hq => ?_⟩
    · exact (fileAt_insert_ne w' hq _).trans (h.files q hq)
    · exact (Finmap.lookup_insert_of_ne _ hq).trans (h.nodes q h1 h2 hq)
  rcases atomicWriteJson_cases py fails (cfg.inArchive manifestName) document w' with
    ⟨hw, -⟩ | ⟨hw, -⟩ | ⟨hw, -⟩ | ⟨hw, -⟩ | ⟨hw, -⟩
  · rw [hw]; exact hwritten
  · rw [hw]; exact h
  · rw [hw]; exact htemp none
  · rw [hw]; exact htemp none
  · rw [hw]; exact hwritten

/-- The rollback brings the file back, or leaves it. -/
theorem Placed.rollback (hr : Ready cfg source target f w)
    (h : Placed cfg source target (movedFiles source target f w) w w') (fails : Step → Bool)
    (lost : String) :
    Placed cfg source target (fileAt w) w (Act.except (do
        .step fails .rollbackMove .os (replaceStep target source)
        .step fails .rollbackSource .os (pure ())
        .step fails .rollbackTarget .os (pure ()))
      (fun _ => .raise (.rejected lost)) w' : Except PyError Unit × World).2 ∨
    Placed cfg source target (movedFiles source target f w) w (Act.except (do
        .step fails .rollbackMove .os (replaceStep target source)
        .step fails .rollbackSource .os (pure ())
        .step fails .rollbackTarget .os (pure ()))
      (fun _ => .raise (.rejected lost)) w' : Except PyError Unit × World).2 := by
  have hfile : fileAt w' target = some f := by
    rw [h.files target hr.target_manifest, movedFiles, if_pos rfl]
  obtain ⟨w2, hrep, hback⟩ := replaceStep_moved hfile (h.dirs ▸ hr.source_dir)
  have hplaced : Placed cfg source target (fileAt w) w w2 := by
    refine ⟨hback.dirs.trans h.dirs, fun q hq => ?_, fun q h1 h2 hq => ?_⟩
    · rw [hback.files q]
      split_ifs with hs ht
      · rw [hs, hr.source_file]
      · rw [ht, hr.target_file]
      · rw [h.files q hq, movedFiles, if_neg ht, if_neg hs]
    · rw [hback.nodes q h2 h1, h.nodes q h1 h2 hq]
  rcases h1 : fails .rollbackMove with _ | _
  swap
  · right
    simpa [Act.except, Act.bind_run, Act.step_fail h1] using h
  left
  rcases h2 : fails .rollbackSource with _ | _
  swap
  · simpa [Act.except, Act.bind_run, Act.step_ok h1, hrep, Act.step_fail h2] using hplaced
  rcases h3 : fails .rollbackTarget with _ | _
  · simpa [Act.except, Act.bind_run, Act.step_ok h1, hrep, Act.step_ok h2, Act.step_ok h3]
      using hplaced
  · simpa [Act.except, Act.bind_run, Act.step_ok h1, hrep, Act.step_ok h2, Act.step_fail h3]
      using hplaced

/-- The manifest write and its handler. -/
theorem Placed.writeOrUndo (hr : Ready cfg source target f w)
    (h : Placed cfg source target (movedFiles source target f w) w w') (fails : Step → Bool)
    (document : Dict) (undone lost : String) :
    ((∃ e, (writeOrUndo cfg py fails source target document undone lost w').1 = .error e) ∧
      Placed cfg source target (fileAt w) w
        (writeOrUndo cfg py fails source target document undone lost w').2) ∨
    Placed cfg source target (movedFiles source target f w) w
      (writeOrUndo cfg py fails source target document undone lost w').2 := by
  have hwrite := @Placed.write cfg py w w' source target _ h (fun s => fails (.write s)) document
  rcases hw : atomicWriteJson py (fun s => fails (.write s)) (cfg.inArchive manifestName) document w'
    with ⟨e | u, w1⟩
  swap
  · rw [hw] at hwrite
    right
    rw [Quarantine.writeOrUndo, Act.except_ok hw]
    exact hwrite
  rw [hw] at hwrite
  rw [Quarantine.writeOrUndo, Act.except_error hw]
  by_cases he : e ≠ .os
  · rw [if_pos he]
    exact .inr hwrite
  rw [if_neg he]
  have hroll := Placed.rollback hr hwrite fails lost
  rcases hrun : (Act.except (do
      .step fails .rollbackMove .os (replaceStep target source)
      .step fails .rollbackSource .os (pure ())
      .step fails .rollbackTarget .os (pure ()))
    (fun _ => .raise (.rejected lost)) w1 : Except PyError Unit × World) with ⟨e' | u, w2⟩
  · rw [hrun] at hroll
    rw [Act.bind_error hrun]
    exact hroll.imp (fun h => ⟨⟨e', rfl⟩, h⟩) id
  · rw [hrun] at hroll
    rw [Act.bind_ok hrun]
    exact hroll.imp (fun h => ⟨⟨_, rfl⟩, h⟩) id

/-- **A transaction leaves its file at the source or at the target**; when it returns, at the
target. -/
theorem transaction_placed (hr : Ready cfg source target f w) (fails : Step → Bool)
    (document : Dict) (undone lost : String) :
    ((∃ e, (transaction cfg py fails source target document undone lost w).1 = .error e) ∧
      Placed cfg source target (fileAt w) w
        (transaction cfg py fails source target document undone lost w).2) ∨
    Placed cfg source target (movedFiles source target f w) w
      (transaction cfg py fails source target document undone lost w).2 := by
  obtain ⟨w0, hrep, hm0⟩ := replaceStep_moved hr.source_file hr.target_dir
  have hm := hm0.chmod
  rcases h1 : fails .move with _ | _
  swap
  · left
    simp only [transaction, Act.bind_run, Act.step_fail h1]
    exact ⟨⟨_, rfl⟩, placed_refl w⟩
  rcases h2 : fails .chmod with _ | _
  swap
  · right
    simp only [transaction, Act.bind_run, Act.step_ok h1, hrep, Act.step_fail h2]
    exact placed_moved hm0
  rcases h3 : fails .fsyncSource with _ | _
  swap
  · right
    simp only [transaction, Act.bind_run, Act.step_ok h1, hrep, Act.step_ok h2, Act.modify_run,
      Act.step_fail h3]
    exact placed_moved hm
  rcases h4 : fails .fsyncTarget with _ | _
  swap
  · right
    simp only [transaction, Act.bind_run, Act.step_ok h1, hrep, Act.step_ok h2, Act.modify_run,
      Act.step_ok h3, Act.pure_run, Act.step_fail h4]
    exact placed_moved hm
  simp only [transaction, Act.bind_run, Act.step_ok h1, hrep, Act.step_ok h2, Act.modify_run,
    Act.step_ok h3, Act.pure_run, Act.step_ok h4]
  exact Placed.writeOrUndo hr (placed_moved hm) fails document undone lost

/-! ### The whole call -/

/-- The file `f` at `source` has been taken into the archive, under a name that was free. -/
structure Taken (cfg : Config) (source : Path) (name : FileName) (f : File) (w w' : World) : Prop where
  below : cfg.authDir <+: source
  found : fileAt w source = some f
  fresh : fileAt w (cfg.inArchive name) = none
  reserved : name ≠ manifestName ∧ name ≠ lockName
  files : ∀ q, q ≠ cfg.inArchive manifestName → q ≠ cfg.inArchive lockName →
    fileAt w' q = movedFiles source (cfg.inArchive name) f w q

/-- Every file but the manifest and the lock is as it was. -/
def Untouched (cfg : Config) (w w' : World) : Prop :=
  ∀ q, q ≠ cfg.inArchive manifestName → q ≠ cfg.inArchive lockName → fileAt w' q = fileAt w q

theorem untouched_locked (cfg : Config) (w : World) : Untouched cfg w (lockedWorld cfg w) :=
  fun _ _ hl => locked_fileAt cfg w hl

/-- Taking the lock removes no file. -/
theorem locked_keeps {q : Path} (h : fileAt w q = some f) : fileAt (lockedWorld cfg w) q = some f := by
  by_cases hq : q = cfg.inArchive lockName
  · subst hq
    have hthere : pathExists w (cfg.inArchive lockName) = true := by
      by_contra hno
      rw [fileAt_of_not_exists (by simpa using hno)] at h
      cases h
    have hmade : pathExists { w with dirs := w.dirs ∪ cfg.archiveDir.inits.toFinset }
        (cfg.inArchive lockName) = true := by
      unfold pathExists at hthere ⊢
      rw [Bool.or_eq_true, decide_eq_true_eq] at hthere ⊢
      exact hthere.imp (fun hd => Finset.mem_union_left _ hd) id
    rw [lockedWorld, if_pos hmade]
    exact h
  · rw [locked_fileAt cfg w hq, h]

/-- **Where a credential is after a quarantine, whatever fails**: at its place, and then the call has
raised, or in the archive. -/
theorem quarantine_taken (cfg : Config) (py : Py) (fails : Step → Bool) (w : World) (source : Path)
    (reason movedAt : Str) :
    ((∃ e, (quarantineAuthRecord cfg py true fails source reason movedAt w).1 = .error e) ∧
      Untouched cfg w (quarantineAuthRecord cfg py true fails source reason movedAt w).2 ∧
      ∀ f, fileAt w source = some f →
        fileAt (quarantineAuthRecord cfg py true fails source reason movedAt w).2 source = some f) ∨
    ∃ f, Taken cfg source (archiveNameOf cfg w source) f w
      (quarantineAuthRecord cfg py true fails source reason movedAt w).2 := by
  rcases hprep : fails .prepare with _ | _
  swap
  · -- without the lock nothing happens
    left
    unfold quarantineAuthRecord
    rcases ensureRealDirectory w cfg.authDir with e | _
    · exact ⟨⟨e, rfl⟩, fun _ _ _ => rfl, fun _ h => h⟩
    rcases containedRelative w source cfg.authDir with e | relative
    · exact ⟨⟨e, rfl⟩, fun _ _ _ => rfl, fun _ h => h⟩
    · dsimp only
      rw [Act.bind_error (Act.step_fail hprep _ _ _)]
      exact ⟨⟨_, rfl⟩, fun _ _ _ => rfl, fun _ h => h⟩
  rcases @quarantine_checks cfg py w true fails hprep source reason movedAt with
    ⟨-, e, w1, hw, hrun⟩ | ⟨hacc, document, relative, -, -, hrun⟩
  · left
    rw [hrun]
    refine ⟨⟨e, rfl⟩, ?_⟩
    rcases hw with rfl | rfl
    · exact ⟨fun _ _ _ => rfl, fun _ h => h⟩
    · exact ⟨untouched_locked cfg w, fun _ h => locked_keeps h⟩
  obtain ⟨relative', f, -, hsplit, -, hf, hready⟩ := hacc.ready
  have hpre : cfg.authDir <+: source := ⟨relative', hsplit⟩
  have hfree := freeName_spec (archiveNameOf_free cfg w source)
  have hname : fileAt w (cfg.inArchive (archiveNameOf cfg w source)) = none := by
    rw [← locked_fileAt cfg w fun he => hfree.2.1 (inArchive_injective cfg he)]
    exact hfree.2.2.2.2
  rw [hrun, quarantineBody, Act.bind_run]
  rcases @transaction_placed cfg py (lockedWorld cfg w) source _ f hready fails
    (set document (lit "entries") (.arr (entriesOf document ++ [entryOf py relative
      (archiveNameOf cfg w source) reason movedAt])))
    "CPA quarantine manifest write failed; credential was restored"
    "CPA quarantine transaction and rollback failed" with ⟨⟨e, he⟩, hplaced⟩ | hplaced
  · left
    rcases hres : transaction cfg py fails source (cfg.inArchive (archiveNameOf cfg w source))
      (set document (lit "entries") (.arr (entriesOf document ++ [entryOf py relative
        (archiveNameOf cfg w source) reason movedAt])))
      "CPA quarantine manifest write failed; credential was restored"
      "CPA quarantine transaction and rollback failed" (lockedWorld cfg w) with ⟨e' | u, w1⟩
    · rw [hres] at hplaced
      have hsame : Untouched cfg w w1 := fun q h1 h2 =>
        (hplaced.files q h1).trans (locked_fileAt cfg w h2)
      refine ⟨⟨e', rfl⟩, hsame, fun g hg => ?_⟩
      rw [← hg]
      exact hsame source (ne_inArchive hpre _) (ne_inArchive hpre _)
    · rw [hres] at he
      exact absurd he (by simp)
  · right
    refine ⟨f, hpre, hf, hname, ⟨hfree.1, hfree.2.1⟩, fun q h1 h2 => ?_⟩
    have hfiles := hplaced.files q h1
    rw [movedFiles, locked_fileAt cfg w h2] at hfiles
    rcases hres : transaction cfg py fails source (cfg.inArchive (archiveNameOf cfg w source))
      (set document (lit "entries") (.arr (entriesOf document ++ [entryOf py relative
        (archiveNameOf cfg w source) reason movedAt])))
      "CPA quarantine manifest write failed; credential was restored"
      "CPA quarantine transaction and rollback failed" (lockedWorld cfg w) with ⟨e' | u, w1⟩
    · rw [hres] at hfiles
      exact hfiles
    · rw [hres] at hfiles
      exact hfiles

/-! ### The credentials of the archive -/

theorem Untouched.auth (h : Untouched cfg w w') {q : Path} (hq : cfg.authDir <+: q) :
    fileAt w' q = fileAt w q := h q (ne_inArchive hq _) (ne_inArchive hq _)

theorem Untouched.archived (h : Untouched cfg w w') : archived cfg w' = archived cfg w := by
  funext n
  unfold QuarantineRuns.archived
  split_ifs with hn
  · rfl
  · rw [not_or] at hn
    exact h _ (fun he => hn.1 (inArchive_injective cfg he))
      fun he => hn.2 (inArchive_injective cfg he)

theorem Taken.auth {name : FileName} (h : Taken cfg source name f w w') {q : Path}
    (hq : cfg.authDir <+: q) : fileAt w' q = if q = source then none else fileAt w q := by
  rw [h.files q (ne_inArchive hq _) (ne_inArchive hq _), movedFiles, if_neg (ne_inArchive hq _)]

theorem Taken.free {name : FileName} (h : Taken cfg source name f w w') :
    QuarantineRuns.archived cfg w name = none := by
  rw [QuarantineRuns.archived, h.fresh, ite_self]

/-- **A taken file is put under its name**, and the other credentials of the archive stay. -/
theorem Taken.archived {name : FileName} (h : Taken cfg source name f w w') :
    archived cfg w' = Function.update (archived cfg w) name (some f) := by
  funext n
  by_cases hn : n = name
  · subst hn
    rw [Function.update_self, QuarantineRuns.archived, if_neg (by simp [h.reserved])]
    rw [h.files _ (fun he => h.reserved.1 (inArchive_injective cfg he))
      fun he => h.reserved.2 (inArchive_injective cfg he), movedFiles, if_pos rfl]
  · rw [Function.update_of_ne hn]
    unfold QuarantineRuns.archived
    split_ifs with hres
    · rfl
    · rw [not_or] at hres
      rw [h.files _ (fun he => hres.1 (inArchive_injective cfg he))
        fun he => hres.2 (inArchive_injective cfg he), movedFiles,
        if_neg fun he => hn (inArchive_injective cfg he), if_neg]
      exact (ne_inArchive h.below n).symm

end Cloudx.Cloud.Taking

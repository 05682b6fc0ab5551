import Cloudx.Cloud.QuarantineCalls

/-! # Failing steps of the cloud quarantine

What one failing step leaves behind when `quarantine_auth_record` or `restore_quarantined_auth`
raises. The move itself and the manifest write up to its rename are covered: nothing happened yet, or
the handler moves the file back. Everything between the move and the manifest write stands outside
the `try` block, so a failing `chmod` or directory `fsync` leaves the file at its new place with no
entry for it. Inside the block only an `OSError` is caught, so a text that UTF-8 cannot encode leaves
the same state. A failing `fsync` after the rename is caught, but the new manifest stays. -/

namespace Cloudx.Cloud.QuarantineFaults

open Cloudx.Lib.Store Cloudx.Lib.Fault
open Cloudx.Python.Text Cloudx.Python.Value Cloudx.Python.Dump
open Cloudx.Cloud.Disk Cloudx.Cloud.Quarantine Cloudx.Cloud.QuarantineCalls

variable {cfg : Config} {py : Py} {sameDevice : Bool} {w : World}

/-- A step of the rollback. -/
def Step.isRollback : Step → Bool
  | .rollbackMove => true
  | .rollbackSource => true
  | .rollbackTarget => true
  | _ => false

/-- The failing steps whose effect is undone, when the new manifest can be encoded or not, and when
the moved file is the manifest itself or not. -/
def Covered (encodes moves : Prop) : Step → Prop
  | .prepare => True
  | .move => True
  | .write .create => True
  | .write .flush => encodes
  | .write .chmod => encodes
  | .write .replace => encodes
  | .write .fsync => encodes ∧ moves
  | _ => False

theorem unchanged_refl (cfg : Config) (w : World) : Unchanged cfg w w := ⟨fun _ _ _ => rfl, rfl⟩

theorem unchanged_locked {w' : World} :
    Unchanged cfg (lockedWorld cfg w) w' ↔ Unchanged cfg w w' := by
  constructor
  · intro h
    exact ⟨fun q h1 h2 => by rw [h.files q h1 h2, locked_fileAt cfg w h2],
      by rw [h.entries, locked_entries]⟩
  · intro h
    exact ⟨fun q h1 h2 => by rw [h.files q h1 h2, locked_fileAt cfg w h2],
      by rw [h.entries, locked_entries]⟩

/-- **One failing step of a transaction.** -/
theorem transaction_unchanged_iff {t : Step} (ht : Step.isRollback t = false)
    (hprep : t ≠ .prepare) {source target : Path} {f : File} (hr : Ready cfg source target f w)
    {document : Dict} {undone lost : String} {e : PyError}
    (hchange : entriesOf document ≠ savedEntries cfg w)
    (h : (transaction cfg py (only t) source target document undone lost w).1 = .error e) :
    Unchanged cfg w (transaction cfg py (only t) source target document undone lost w).2 ↔
      Covered (clean py (.obj document)) (source = cfg.inArchive manifestName) t := by
  have honly : ∀ s, only t s = true → t = s := fun s hs => (of_decide_eq_true hs).symm
  have hroll : only t .rollbackMove = false ∧ only t .rollbackSource = false ∧
      only t .rollbackTarget = false := by
    refine ⟨only_ne ?_, only_ne ?_, only_ne ?_⟩ <;> rintro rfl <;> exact absurd ht (by decide)
  rcases @transaction_cases cfg py w (only t) source target f hr hroll document undone lost with
    ⟨w1, -, -, hrun⟩ | ⟨hrun, hf⟩ | ⟨e', w1, hrun, hmoved, hmove, hf⟩ | ⟨e', w1, hrun, hsame, hf⟩ |
    ⟨e', w1, hrun, hclean, hf, hold, hnew⟩
  · rw [hrun] at h; exact absurd h (by simp)
  · rw [hrun]
    obtain rfl := honly _ hf
    exact ⟨fun _ => trivial, fun _ => unchanged_refl cfg w⟩
  · rw [hrun]
    have hnot : ¬ Unchanged cfg w w1 := by
      intro hu
      have := hu.files target hr.target_manifest hr.target_lock
      rw [hmoved.files, if_pos rfl, hr.target_file] at this
      exact absurd this (by simp)
    refine ⟨fun hu => absurd hu hnot, fun hc => ?_⟩
    rcases hf with hf | hf | hf | ⟨hcreate, hf | hclean⟩
    · obtain rfl := honly _ hf; exact hc.elim
    · obtain rfl := honly _ hf; exact hc.elim
    · obtain rfl := honly _ hf; exact hc.elim
    · obtain rfl := honly _ hf; exact hc.elim
    · -- the text cannot be encoded, whichever step was to fail
      cases t with
      | write s =>
        cases s with
        | create => rw [only_self] at hcreate; exact absurd hcreate (by simp)
        | encode => exact hc.elim
        | flush => exact absurd hc hclean
        | chmod => exact absurd hc hclean
        | replace => exact absurd hc hclean
        | fsync => exact absurd hc.1 hclean
      | prepare => exact absurd rfl hprep
      | move => rw [only_self] at hmove; exact absurd hmove (by simp)
      | chmod => exact hc.elim
      | fsyncSource => exact hc.elim
      | fsyncTarget => exact hc.elim
      | rollbackMove => exact hc.elim
      | rollbackSource => exact hc.elim
      | rollbackTarget => exact hc.elim
  · rw [hrun]
    refine ⟨fun _ => ?_, fun _ => hsame⟩
    rcases hf with hf | ⟨hclean, hf | hf | hf⟩
    · obtain rfl := honly _ hf; exact trivial
    · obtain rfl := honly _ hf; exact hclean
    · obtain rfl := honly _ hf; exact hclean
    · obtain rfl := honly _ hf; exact hclean
  · rw [hrun]
    obtain rfl := honly _ hf
    refine ⟨fun hu => ⟨hclean, ?_⟩, fun hc => hold hc.2⟩
    by_contra hs
    have := hu.entries
    rw [savedEntries, hnew hs] at this
    exact hchange this

/-! ### `quarantine_auth_record` -/

/-- **When a failed `quarantine_auth_record` leaves everything as it was.** -/
theorem quarantine_unchanged_iff {t : Step} (ht : Step.isRollback t = false) {source : Path}
    {reason movedAt : Str} {e : PyError}
    (h : (quarantineAuthRecord cfg py sameDevice (only t) source reason movedAt w).1 = .error e) :
    Unchanged cfg w (quarantineAuthRecord cfg py sameDevice (only t) source reason movedAt w).2 ↔
      (Accepted cfg sameDevice w source → Covered (Encodes cfg py w source movedAt) False t) := by
  by_cases hprep : t = .prepare
  · subst hprep
    refine ⟨fun _ _ => trivial, fun _ => ?_⟩
    have hrun : (quarantineAuthRecord cfg py sameDevice (only .prepare) source reason movedAt w).2 =
        w := by
      unfold quarantineAuthRecord
      rcases ensureRealDirectory w cfg.authDir with e' | _
      · rfl
      rcases containedRelative w source cfg.authDir with e' | relative
      · rfl
      exact congrArg Prod.snd (Act.bind_error (Act.step_fail (only_self _) _ _ _))
    rw [hrun]
    exact unchanged_refl cfg w
  rcases @quarantine_checks cfg py w sameDevice (only t) (only_ne (Ne.symm hprep)) source reason
    movedAt with ⟨hno, e', w', hw, hrun⟩ | ⟨hacc, document, relative, hm, hrel, hrun⟩
  · refine ⟨fun _ ha => absurd ha hno, fun _ => ?_⟩
    rw [hrun]
    rcases hw with rfl | rfl
    · exact unchanged_refl cfg _
    · exact unchanged_locked.mp (unchanged_refl cfg _)
  · obtain ⟨relative', f, hrel', hsplit, hne, -, hready⟩ := hacc.ready
    rw [hrel, Except.ok.injEq] at hrel'
    subst hrel'
    have hman := (manifest_entries hm).2
    have hclean := @clean_quarantine_iff cfg py w document source relative reason movedAt hm hsplit
      hne
    rw [hrun] at h ⊢
    unfold quarantineBody at h ⊢
    rw [Act.bind_run] at h ⊢
    have hchange : entriesOf (set document (lit "entries") (.arr (entriesOf document ++
        [entryOf py relative (archiveNameOf cfg w source) reason movedAt]))) ≠
        savedEntries cfg (lockedWorld cfg w) := by
      rw [entriesOf_set, locked_entries, hman]
      simp
    rcases hres : transaction cfg py (only t) source (cfg.inArchive (archiveNameOf cfg w source))
      (set document (lit "entries") (.arr (entriesOf document ++
        [entryOf py relative (archiveNameOf cfg w source) reason movedAt])))
      "CPA quarantine manifest write failed; credential was restored"
      "CPA quarantine transaction and rollback failed" (lockedWorld cfg w) with ⟨r | u, w1⟩
    · have hiff := @transaction_unchanged_iff cfg py (lockedWorld cfg w) t ht hprep source _ f hready
        _ "CPA quarantine manifest write failed; credential was restored"
        "CPA quarantine transaction and rollback failed" r hchange (by rw [hres])
      rw [hres] at hiff
      rw [← unchanged_locked]
      simp only at hiff ⊢
      rw [hiff]
      have hmoves : source = cfg.inArchive manifestName ↔ False :=
        iff_false_intro fun he => ne_inArchive (containedRelative_ok hrel).2.2.1 _ he
      rw [hclean, hmoves]
      exact ⟨fun hc _ => hc, fun hc => hc hacc⟩
    · rw [hres] at h; exact absurd h (by simp)

/-! ### `restore_quarantined_auth` -/

/-- Matching entries stand at places of the list. -/
theorem matchEntries_index {selector : Str} : ∀ {start : ℕ} {entries : List Json}
    {found : List (ℕ × List Str × List Str)},
      matchEntries cfg py selector start entries = .ok found →
        ∀ x ∈ found, start ≤ x.1 ∧ x.1 < start + entries.length
  | start, [], found, h, x, hx => by
    simp only [matchEntries, Except.ok.injEq] at h
    rw [← h] at hx; exact absurd hx (by simp)
  | start, .obj entry :: rest, found, h, x, hx => by
    rw [matchEntries] at h
    split at h
    · exact absurd h (by simp)
    · next target source hpaths =>
      rcases hrec : matchEntries cfg py selector (start + 1) rest with e | more
      · rw [hrec] at h; exact absurd h (by simp [Except.map])
      · rw [hrec] at h
        simp only [Except.map, Except.ok.injEq] at h
        have ih := matchEntries_index hrec
        rw [List.length_cons]
        split_ifs at h
        · rw [← h] at hx
          rcases List.mem_cons.mp hx with rfl | hx
          · simp only; omega
          · have := ih x hx; omega
        · rw [← h] at hx
          have := ih x hx; omega
  | _, .null :: _, _, h, _, _ => by simp [matchEntries] at h
  | _, .bool _ :: _, _, h, _, _ => by simp [matchEntries] at h
  | _, .int _ :: _, _, h, _, _ => by simp [matchEntries] at h
  | _, .float _ :: _, _, h, _, _ => by simp [matchEntries] at h
  | _, .str _ :: _, _, h, _, _ => by simp [matchEntries] at h
  | _, .arr _ :: _, _, h, _, _ => by simp [matchEntries] at h

/-- **When a failed `restore_quarantined_auth` leaves everything as it was.** -/
theorem restore_unchanged_iff {t : Step} (ht : Step.isRollback t = false) {selector : Str}
    {e : PyError}
    (h : (restoreQuarantinedAuth cfg py sameDevice (only t) selector w).1 = .error e) :
    Unchanged cfg w (restoreQuarantinedAuth cfg py sameDevice (only t) selector w).2 ↔
      ∀ document index source target,
        RestoreAccepted cfg py sameDevice w selector document index source target →
          Covered (clean py (.obj (set document (lit "entries")
            (.arr ((entriesOf document).eraseIdx index)))))
            (source = cfg.inArchive manifestName) t := by
  by_cases hprep : t = .prepare
  · subst hprep
    refine ⟨fun _ _ _ _ _ _ => trivial, fun _ => ?_⟩
    have hrun : (restoreQuarantinedAuth cfg py sameDevice (only .prepare) selector w).2 = w := by
      unfold restoreQuarantinedAuth
      rcases ensureRealDirectory w cfg.authDir with e' | _
      · rfl
      exact congrArg Prod.snd (Act.bind_error (Act.step_fail (only_self _) _ _ _))
    rw [hrun]
    exact unchanged_refl cfg w
  rcases @restore_checks cfg py w sameDevice (only t) (only_ne (Ne.symm hprep)) selector with
    ⟨hno, e', w', hw, hrun⟩ | ⟨document, index, source, target, hacc, hrun⟩
  · refine ⟨fun _ d i s t' ha => absurd ha (hno d i s t'), fun _ => ?_⟩
    rw [hrun]
    rcases hw with rfl | rfl
    · exact unchanged_refl cfg _
    · exact unchanged_locked.mp (unchanged_refl cfg _)
  · obtain ⟨f, hready⟩ := hacc.ready
    have hman := (manifest_entries hacc.readable).2
    have hindex : index < (entriesOf document).length := by
      obtain ⟨⟨tp, sp, hmatch, -, -⟩, -⟩ := restoreSelect_spec hacc.selected
      have := matchEntries_index hmatch _ (List.mem_singleton.mpr rfl)
      simp only at this; omega
    have hchange : entriesOf (set document (lit "entries")
        (.arr ((entriesOf document).eraseIdx index))) ≠ savedEntries cfg (lockedWorld cfg w) := by
      rw [entriesOf_set, locked_entries, ← hman]
      intro heq
      have := congrArg List.length heq
      rw [List.length_eraseIdx_of_lt hindex] at this; omega
    rw [hrun] at h ⊢
    unfold restoreBody at h ⊢
    rw [Act.bind_run] at h ⊢
    rcases hres : transaction cfg py (only t) source target (set document (lit "entries")
        (.arr ((entriesOf document).eraseIdx index)))
      "CPA restore manifest write failed; credential remained quarantined"
      "CPA restore transaction and rollback failed" (lockedWorld cfg w) with ⟨r | u, w1⟩
    · have hiff := @transaction_unchanged_iff cfg py (lockedWorld cfg w) t ht hprep source target f
        hready _ "CPA restore manifest write failed; credential remained quarantined"
        "CPA restore transaction and rollback failed" r hchange (by rw [hres])
      rw [hres] at hiff
      rw [← unchanged_locked]
      simp only at hiff ⊢
      rw [hiff]
      refine ⟨fun hc d i s t' ha => ?_, fun hc => hc document index source target hacc⟩
      -- the checks determine the entry
      have h1 := hacc.readable.symm.trans ha.readable
      rw [Except.ok.injEq] at h1
      subst h1
      have h2 := hacc.selected.symm.trans ha.selected
      simp only [Except.ok.injEq, Prod.mk.injEq] at h2
      obtain ⟨rfl, rfl, rfl⟩ := h2
      exact hc
    · rw [hres] at h; exact absurd h (by simp)

/-! ### Both calls -/

/-- **When one failing step of a quarantine or a restore is undone.** If a call raises, the
credentials and the manifest entries are as before exactly when its checks refused it, or the failing
step is covered: the lock, the move, the creation of the manifest's temporary, or, for a text that
can be encoded, its writing, `chmod` and rename. -/
theorem cloud_calls_unchanged_iff (cfg : Config) (py : Py) (sameDevice : Bool) (w : World) :
    (∀ source reason movedAt t e, Step.isRollback t = false →
      (quarantineAuthRecord cfg py sameDevice (only t) source reason movedAt w).1 = .error e →
        (Unchanged cfg w
            (quarantineAuthRecord cfg py sameDevice (only t) source reason movedAt w).2 ↔
          (Accepted cfg sameDevice w source →
            Covered (Encodes cfg py w source movedAt) False t))) ∧
    ∀ selector t e, Step.isRollback t = false →
      (restoreQuarantinedAuth cfg py sameDevice (only t) selector w).1 = .error e →
        (Unchanged cfg w (restoreQuarantinedAuth cfg py sameDevice (only t) selector w).2 ↔
          ∀ document index source target,
            RestoreAccepted cfg py sameDevice w selector document index source target →
              Covered (clean py (.obj (set document (lit "entries")
                (.arr ((entriesOf document).eraseIdx index)))))
                (source = cfg.inArchive manifestName) t) :=
  ⟨fun _ _ _ _ _ ht h => quarantine_unchanged_iff ht h, fun _ _ _ ht h => restore_unchanged_iff ht h⟩

theorem oneDisk_accepted : Accepted sampleConfig true oneDisk samplePath :=
  ⟨rfl, ⟨[aJson], rfl⟩, rfl, rfl, ⟨_, rfl⟩⟩

/-- A failing `chmod` of the quarantined file raises and leaves the file in the archive, out of the
manifest. -/
theorem chmod_not_unchanged : ¬ ∃ py : Py, ∀ cfg w source reason movedAt t e,
    Step.isRollback t = false →
      (quarantineAuthRecord cfg py true (only t) source reason movedAt w).1 = .error e →
        Unchanged cfg w (quarantineAuthRecord cfg py true (only t) source reason movedAt w).2 := by
  rintro ⟨py, h⟩
  have hraise : (quarantineAuthRecord sampleConfig py true (only .chmod) samplePath [] [] oneDisk).1 =
    .error .os := rfl
  exact (quarantine_unchanged_iff rfl hraise).mp (h _ _ _ _ _ .chmod _ rfl hraise) oneDisk_accepted

/-- A failing rename of the manifest's temporary is undone. -/
theorem cloud_calls_unchanged_one :
    Unchanged sampleConfig oneDisk (quarantineAuthRecord sampleConfig onePy true
      (only (.write .replace)) samplePath [] [] oneDisk).2 := by
  refine ((cloud_calls_unchanged_iff sampleConfig onePy true oneDisk).1 samplePath [] [] _
    (.rejected "CPA quarantine manifest write failed; credential was restored") rfl
    (by decide +kernel)).mpr fun _ document hm => ?_
  obtain rfl := Except.ok.inj hm
  decide +kernel

end Cloudx.Cloud.QuarantineFaults

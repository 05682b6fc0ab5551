import Cloudx.Local.Archive

/-! # Moving a batch into the local archive

What the loop of `archive_candidates` does to the two directories, for any batch and any fault plan.
`moveAll` is the effect of moving a list of files; the loop follows it as long as no step fails
(`moveLoop_append`). If the chosen names are fresh and different (`FreshTargets`), a batch keeps the
records of the archived files right (`catalogue_moveAll`) and loses no contents
(`contents_moveAll`).

`_unique_target` always returns a name that is free when it is asked (`uniqueTarget_spec`). It is
asked for the whole batch before the first move, so two names of a batch can still meet: exactly
when one is the first free numbered name of another that is taken (`nodup_targets_iff`). -/

namespace Cloudx.Local.ArchiveMoves

open Cloudx.Lib.Store Cloudx.Lib.Fresh Cloudx.Lib.Fault
open Cloudx.Python.Text Cloudx.Python.Value Cloudx.Python.Dump Cloudx.Local.Archive

/-! ### The archived credentials -/

/-- The credential files of the archive directory: all but the manifest and the lock. -/
def credentials (archive : Dir FileName File) : Dir FileName File :=
  (archive.erase manifestName).erase lockName

theorem lookup_credentials {archive : Dir FileName File} {n : FileName} (hm : n ≠ manifestName)
    (hl : n ≠ lockName) : (credentials archive).lookup n = archive.lookup n := by
  rw [credentials, Finmap.lookup_erase_ne hl, Finmap.lookup_erase_ne hm]

theorem mem_credentials {archive : Dir FileName File} {n : FileName} :
    n ∈ credentials archive ↔ n ≠ lockName ∧ n ≠ manifestName ∧ n ∈ archive := by
  rw [credentials, Finmap.mem_erase, Finmap.mem_erase]

theorem credentials_insert {archive : Dir FileName File} {n : FileName} (hm : n ≠ manifestName)
    (hl : n ≠ lockName) (f : File) :
    credentials (archive.insert n f) = (credentials archive).insert n f := by
  refine Finmap.ext_lookup fun x => ?_
  by_cases hx : x = n
  · subst hx
    rw [lookup_credentials hm hl, Finmap.lookup_insert, Finmap.lookup_insert]
  · rw [Finmap.lookup_insert_of_ne _ hx]
    unfold credentials
    by_cases h1 : x = lockName
    · rw [h1, Finmap.lookup_erase, Finmap.lookup_erase]
    · rw [Finmap.lookup_erase_ne h1, Finmap.lookup_erase_ne h1]
      by_cases h2 : x = manifestName
      · rw [h2, Finmap.lookup_erase, Finmap.lookup_erase]
      · rw [Finmap.lookup_erase_ne h2, Finmap.lookup_erase_ne h2, Finmap.lookup_insert_of_ne _ hx]

/-- The manifest and the lock are not credentials. -/
theorem credentials_insert_reserved {archive : Dir FileName File} {n : FileName}
    (h : n = manifestName ∨ n = lockName) (f : File) :
    credentials (archive.insert n f) = credentials archive := by
  refine Finmap.ext_lookup fun x => ?_
  unfold credentials
  by_cases h1 : x = lockName
  · rw [h1, Finmap.lookup_erase, Finmap.lookup_erase]
  · rw [Finmap.lookup_erase_ne h1, Finmap.lookup_erase_ne h1]
    by_cases h2 : x = manifestName
    · rw [h2, Finmap.lookup_erase, Finmap.lookup_erase]
    · rw [Finmap.lookup_erase_ne h2, Finmap.lookup_erase_ne h2, Finmap.lookup_insert_of_ne]
      rcases h with rfl | rfl
      · exact h2
      · exact h1

theorem credentials_erase {archive : Dir FileName File} {n : FileName} :
    credentials (archive.erase n) = (credentials archive).erase n := by
  unfold credentials
  rw [@Finmap.erase_erase _ _ _ manifestName n, @Finmap.erase_erase _ _ _ lockName n]

/-! ### A batch of moves -/

/-- The source name of a selected candidate. -/
abbrev sourceOf (x : ArchiveCandidate × FileName) : FileName := x.1.record.path

/-- The directories after moving a list of files. -/
def moveAll : List (ArchiveCandidate × FileName) → World → World
  | [], w => w
  | (c, target) :: rest, w =>
    match w.auth.lookup c.record.path with
    | none => w
    | some f => moveAll rest { w with
        auth := w.auth.erase c.record.path, archive := w.archive.insert target f }

/-- The sources of a batch are different files of the auth directory. -/
structure Sources (auth : Dir FileName File) (selected : List (ArchiveCandidate × FileName)) :
    Prop where
  nodup : (selected.map sourceOf).Nodup
  mem : ∀ x ∈ selected, sourceOf x ∈ auth

/-- The targets of a batch are different free names, none of them reserved. -/
structure FreshTargets (archive : Dir FileName File)
    (selected : List (ArchiveCandidate × FileName)) : Prop where
  nodup : (selected.map Prod.snd).Nodup
  free : ∀ x ∈ selected, x.2 ∉ archive
  plain : ∀ x ∈ selected, x.2 ≠ manifestName ∧ x.2 ≠ lockName

theorem Sources.tail {w : World} {c : ArchiveCandidate} {target : FileName}
    {rest : List (ArchiveCandidate × FileName)} (h : Sources w.auth ((c, target) :: rest)) :
    ∃ f, w.auth.lookup c.record.path = some f ∧ Sources (w.auth.erase c.record.path) rest := by
  obtain ⟨f, hf⟩ := lookup_of_mem (h.mem _ (List.mem_cons_self ..))
  obtain ⟨hn, hnd⟩ := List.nodup_cons.mp h.nodup
  refine ⟨f, hf, hnd, fun x hx => ?_⟩
  exact Finmap.mem_erase.mpr
    ⟨fun he => hn (List.mem_map.mpr ⟨x, hx, he⟩), h.mem x (List.mem_cons_of_mem _ hx)⟩

theorem FreshTargets.tail {archive : Dir FileName File} {x : ArchiveCandidate × FileName}
    {rest : List (ArchiveCandidate × FileName)} (h : FreshTargets archive (x :: rest)) (f : File) :
    FreshTargets (archive.insert x.2 f) rest := by
  obtain ⟨hn, hnd⟩ := List.nodup_cons.mp h.nodup
  refine ⟨hnd, fun y hy hmem => ?_, fun y hy => h.plain y (List.mem_cons_of_mem _ hy)⟩
  rcases Finmap.mem_insert.mp hmem with he | hm
  · exact hn (he ▸ List.mem_map_of_mem hy)
  · exact h.free y (List.mem_cons_of_mem _ hy) hm

/-- Moving a batch changes nothing but the two directories. -/
theorem moveAll_rest (selected : List (ArchiveCandidate × FileName)) : ∀ w : World,
    (moveAll selected w).temporary = w.temporary ∧ (moveAll selected w).receipts = w.receipts := by
  induction selected with
  | nil => exact fun w => ⟨rfl, rfl⟩
  | cons x rest ih =>
    intro w
    unfold moveAll
    split
    · exact ⟨rfl, rfl⟩
    · exact ih _

/-- The manifest is none of the targets. -/
theorem moveAll_manifest : ∀ (selected : List (ArchiveCandidate × FileName)) (w : World),
    (∀ x ∈ selected, x.2 ≠ manifestName) →
      (moveAll selected w).archive.lookup manifestName = w.archive.lookup manifestName
  | [], w, _ => rfl
  | (c, target) :: rest, w, h => by
    unfold moveAll
    split
    · rfl
    · rw [moveAll_manifest rest _ fun x hx => h x (List.mem_cons_of_mem _ hx)]
      exact Finmap.lookup_insert_of_ne _ (Ne.symm (h (c, target) (List.mem_cons_self ..)))

/-- A batch takes its sources out of the auth directory and leaves the other files. -/
theorem moveAll_auth : ∀ (selected : List (ArchiveCandidate × FileName)) (w : World),
    Sources w.auth selected → ∀ n, (moveAll selected w).auth.lookup n =
      if n ∈ selected.map sourceOf then none else w.auth.lookup n
  | [], w, _, n => by simp [moveAll]
  | (c, target) :: rest, w, h, n => by
    obtain ⟨f, hf, hrest⟩ := h.tail
    unfold moveAll
    rw [hf]
    simp only [List.map_cons, List.mem_cons]
    rw [moveAll_auth rest _ hrest n]
    by_cases hn : n = c.record.path
    · subst hn; simp [Finmap.lookup_erase]
    · simp only [hn, false_or]
      rw [Finmap.lookup_erase_ne hn]

/-- A batch with different targets puts each source under its target and leaves the other files. -/
theorem moveAll_archive : ∀ (selected : List (ArchiveCandidate × FileName)) (w : World),
    Sources w.auth selected → (selected.map Prod.snd).Nodup →
      (∀ x ∈ selected, (moveAll selected w).archive.lookup x.2 = w.auth.lookup (sourceOf x)) ∧
        ∀ n, n ∉ selected.map Prod.snd →
          (moveAll selected w).archive.lookup n = w.archive.lookup n
  | [], w, _, _ => by simp [moveAll]
  | (c, target) :: rest, w, h, hnd => by
    obtain ⟨f, hf, hrest⟩ := h.tail
    obtain ⟨hn, hnd'⟩ := List.nodup_cons.mp hnd
    obtain ⟨ih1, ih2⟩ := moveAll_archive rest
      { w with auth := w.auth.erase c.record.path, archive := w.archive.insert target f } hrest hnd'
    unfold moveAll
    rw [hf]
    refine ⟨fun x hx => ?_, fun n hnmem => ?_⟩
    · rcases List.mem_cons.mp hx with rfl | hx
      · rw [ih2 _ hn, Finmap.lookup_insert, hf]
      · have hne : sourceOf x ≠ c.record.path := fun he =>
          (List.nodup_cons.mp h.nodup).1 (List.mem_map.mpr ⟨x, hx, he⟩)
        rw [ih1 x hx, Finmap.lookup_erase_ne hne]
    · rw [List.map_cons, List.mem_cons, not_or] at hnmem
      rw [ih2 n hnmem.2, Finmap.lookup_insert_of_ne _ hnmem.1]

/-- **A batch with fresh targets loses no contents.** -/
theorem contents_moveAll : ∀ (selected : List (ArchiveCandidate × FileName)) (w : World),
    Sources w.auth selected → FreshTargets w.archive selected →
      contents (moveAll selected w).auth + contents (credentials (moveAll selected w).archive) =
        contents w.auth + contents (credentials w.archive)
  | [], w, _, _ => rfl
  | (c, target) :: rest, w, hs, ht => by
    obtain ⟨f, hf, hrest⟩ := hs.tail
    obtain ⟨hm, hl⟩ := ht.plain (c, target) (List.mem_cons_self ..)
    have hfree : target ∉ credentials w.archive := fun hmem =>
      ht.free (c, target) (List.mem_cons_self ..) (mem_credentials.mp hmem).2.2
    unfold moveAll
    rw [hf]
    simp only
    rw [contents_moveAll rest _ hrest (ht.tail f), credentials_insert hm hl,
      contents_transfer hf hfree]

/-! ### The records of a batch -/

/-- The file of a candidate is there with the recorded digest. -/
def Eligible (py : Py) (auth : Dir FileName File) (c : ArchiveCandidate) : Prop :=
  ∃ f ∈ auth.lookup c.record.path, py.sha256 f.bytes = c.record.digest

instance (py : Py) (auth : Dir FileName File) : DecidablePred (Eligible py auth) := fun c => by
  unfold Eligible; infer_instance

/-- The entry `e` names the archive file `n` and has the digest of its content. -/
def Describes (py : Py) (e : Json) (n : FileName) (f : File) : Prop :=
  get (asDict e) (lit "archiveName") = .str n.text ∧
    get (asDict e) (lit "authSha256") = .str (py.sha256 f.bytes)

theorem describes_entryOf {py : Py} {c : ArchiveCandidate} {target : FileName} {movedAt : Str}
    {f : File} (h : py.sha256 f.bytes = c.record.digest) :
    Describes py (entryOf c target movedAt) target f := by
  rw [Describes, h]; exact ⟨rfl, rfl⟩

/-- What the loop appends to the entries. -/
def entriesFor (selected : List (ArchiveCandidate × FileName)) (movedAt : Str) : List Json :=
  selected.map fun x => entryOf x.1 x.2 movedAt

/-- **A batch with fresh targets keeps the records of the archived files right.** -/
theorem catalogue_moveAll (py : Py) (movedAt : Str) :
    ∀ (selected : List (ArchiveCandidate × FileName)) (w : World) (es : List Json),
      Sources w.auth selected → FreshTargets w.archive selected →
      (∀ x ∈ selected, Eligible py w.auth x.1) →
      Catalogue (Describes py) (fun n => (credentials w.archive).lookup n) es →
        Catalogue (Describes py) (fun n => (credentials (moveAll selected w).archive).lookup n)
          (es ++ entriesFor selected movedAt)
  | [], w, es, _, _, _, h => by simpa [moveAll, entriesFor] using h
  | (c, target) :: rest, w, es, hs, ht, he, h => by
    obtain ⟨f, hf, hrest⟩ := hs.tail
    obtain ⟨hm, hl⟩ := ht.plain (c, target) (List.mem_cons_self ..)
    have hfree : (credentials w.archive).lookup target = none := Finmap.lookup_eq_none.mpr fun hmem =>
      ht.free (c, target) (List.mem_cons_self ..) (mem_credentials.mp hmem).2.2
    have hdigest : py.sha256 f.bytes = c.record.digest := by
      obtain ⟨g, hg, hd⟩ := he (c, target) (List.mem_cons_self ..)
      rw [hf, Option.mem_some_iff] at hg
      exact hg ▸ hd
    have hstep := h.insert hfree (@describes_entryOf py c target movedAt f hdigest)
    rw [← lookup_insert_update, ← credentials_insert hm hl] at hstep
    have := catalogue_moveAll py movedAt rest
      { w with auth := w.auth.erase c.record.path, archive := w.archive.insert target f }
      (es ++ [entryOf c target movedAt]) hrest (ht.tail f) ?_ hstep
    · unfold moveAll
      rw [hf]
      simpa [entriesFor] using this
    · intro x hx
      obtain ⟨g, hg, hd⟩ := he x (List.mem_cons_of_mem _ hx)
      refine ⟨g, ?_, hd⟩
      rwa [Finmap.lookup_erase_ne]
      exact fun heq => (List.nodup_cons.mp hs.nodup).1 (List.mem_map.mpr ⟨x, hx, heq⟩)

/-! ### The loop -/

/-- What the loop appends to `moved`. -/
def movedOf (selected : List (ArchiveCandidate × FileName)) : List (FileName × FileName) :=
  selected.map fun x => (sourceOf x, x.2)

/-- One round of the loop in which nothing fails. -/
theorem moveLoop_cons {fails : ArchiveStep → Bool} {movedAt : Str} {i : ℕ} {c : ArchiveCandidate}
    {target : FileName} {rest : List (ArchiveCandidate × FileName)} {entries : List Json} {t : Txn}
    {f : File} (hm : fails (.move i) = false) (hc : fails (.chmod i) = false)
    (hf : t.world.auth.lookup c.record.path = some f) :
    moveLoop fails movedAt i ((c, target) :: rest) entries t =
      moveLoop fails movedAt (i + 1) rest (entries ++ [entryOf c target movedAt])
        ⟨{ t.world with auth := t.world.auth.erase c.record.path,
                        archive := t.world.archive.insert target f },
          t.moved ++ [(c.record.path, target)]⟩ := by
  simp only [moveLoop, Act.bind_run, Act.step_ok hm, Act.step_ok hc, Txn.lift, replaceIntoArchive,
    transfer_of_lookup hf, Act.pure_run, Act.modify_run]

/-- **The loop follows `moveAll` while no step fails.** -/
theorem moveLoop_append (fails : ArchiveStep → Bool) (movedAt : Str) :
    ∀ (pre rest : List (ArchiveCandidate × FileName)) (i : ℕ) (entries : List Json) (t : Txn),
      Sources t.world.auth pre →
      (∀ j < pre.length, fails (.move (i + j)) = false ∧ fails (.chmod (i + j)) = false) →
        moveLoop fails movedAt i (pre ++ rest) entries t =
          moveLoop fails movedAt (i + pre.length) rest (entries ++ entriesFor pre movedAt)
            ⟨moveAll pre t.world, t.moved ++ movedOf pre⟩
  | [], rest, i, entries, t, _, _ => by simp [entriesFor, movedOf, moveAll]
  | (c, target) :: pre, rest, i, entries, t, hs, hok => by
    obtain ⟨f, hf, hrest⟩ := hs.tail
    obtain ⟨hm, hc⟩ : fails (.move i) = false ∧ fails (.chmod i) = false := hok 0 (by simp)
    rw [List.cons_append, moveLoop_cons hm hc hf, moveLoop_append fails movedAt pre rest _ _ _ hrest]
    · have hi : i + 1 + pre.length = i + ((c, target) :: pre).length := by
        rw [List.length_cons]; omega
      rw [hi, moveAll, hf]
      simp [entriesFor, movedOf]
    · intro j hj
      have := hok (j + 1) (by rw [List.length_cons]; omega)
      rwa [show i + 1 + j = i + (j + 1) by omega]

/-- The whole loop, when no step of it fails. -/
theorem moveLoop_ok {fails : ArchiveStep → Bool} {movedAt : Str}
    {selected : List (ArchiveCandidate × FileName)} {entries : List Json} {w : World}
    (hs : Sources w.auth selected)
    (hok : ∀ j < selected.length, fails (.move j) = false ∧ fails (.chmod j) = false) :
    moveLoop fails movedAt 0 selected entries ⟨w, []⟩ =
      (.ok (entries ++ entriesFor selected movedAt), ⟨moveAll selected w, movedOf selected⟩) := by
  have h := moveLoop_append fails movedAt selected [] 0 entries ⟨w, []⟩ hs
    (fun j hj => by rw [Nat.zero_add]; exact hok j hj)
  rw [List.append_nil] at h
  rw [h]
  simp [moveLoop]

/-! ### The targets of a batch -/

/-- A source cannot keep its name: it is the manifest's, or a file of the archive has it. -/
def Taken (archive : Dir FileName File) (n : FileName) : Prop := n = manifestName ∨ n ∈ archive

/-- The file `m` has the first free numbered name of the taken name `n`. -/
def Collides (archive : Dir FileName File) (n m : FileName) : Prop :=
  Taken archive n ∧ m ∉ archive ∧
    ∃ k, 2 ≤ k ∧ m = numbered n k ∧ ∀ j, 2 ≤ j → j < k → numbered n j ∈ archive

theorem numbered_ne_manifest (n : FileName) (k : ℕ) : numbered n k ≠ manifestName := by
  intro h
  refine numberedText_ne (r := lit "manifest.json") (a := lit "manifes") (c := 116) (e := lit "json")
    (by decide) (by decide) (by decide) ?_ n.text k (congrArg FileName.text h)
  intro b x hx
  have : lit "manifest.json" = lit "manifest.jso" ++ [110] := by decide
  have := (List.append_inj' (this.symm.trans hx) rfl).2
  simp at this; omega

theorem numbered_ne_lock (n : FileName) (k : ℕ) : numbered n k ≠ lockName := by
  intro h
  refine numberedText_ne (r := lit ".archive.lock") (a := lit ".archiv") (c := 101) (e := lit "lock")
    (by decide) (by decide) (by decide) ?_ n.text k (congrArg FileName.text h)
  intro b x hx
  have : lit ".archive.lock" = lit ".archive.loc" ++ [107] := by decide
  have := (List.append_inj' (this.symm.trans hx) rfl).2
  simp at this; omega

theorem json_ne_lock {n : FileName} (h : endsWith n.text (lit ".json")) : n ≠ lockName := by
  rintro rfl; exact absurd h (by decide)

/-- **The name `_unique_target` returns** is free and not reserved: the source's own, or the first
free numbered one. -/
theorem uniqueTarget_spec (archive : Dir FileName File) {n : FileName}
    (hn : endsWith n.text (lit ".json")) :
    uniqueTarget archive n ∉ archive ∧ uniqueTarget archive n ≠ manifestName ∧
      uniqueTarget archive n ≠ lockName ∧
      ((¬ Taken archive n ∧ uniqueTarget archive n = n) ∨
        (Taken archive n ∧ ∃ k, 2 ≤ k ∧ uniqueTarget archive n = numbered n k ∧
          ∀ j, 2 ≤ j → j < k → numbered n j ∈ archive)) := by
  have hlock := json_ne_lock hn
  unfold uniqueTarget
  split_ifs with h
  · refine ⟨h.2.2, h.1, h.2.1, Or.inl ⟨?_, rfl⟩⟩
    rintro (h' | h')
    · exact h.1 h'
    · exact h.2.2 h'
  · obtain ⟨j, h1, h2, h3⟩ := exists_free (numbered n) (numbered_injective n) archive.keys 2
    obtain ⟨s1, s2, s3⟩ := search_spec (fun index => decide (numbered n index ∉ archive))
      archive.keys.card 2 ⟨j, h1, h2, by simpa [Finmap.mem_keys] using h3⟩
    refine ⟨by simpa using s1, numbered_ne_manifest n _, numbered_ne_lock n _, Or.inr ⟨?_, _, s2, rfl,
      fun j hj1 hj2 => by simpa using s3 j hj1 hj2⟩⟩
    by_contra ht
    unfold Taken at ht
    push Not at ht
    exact h ⟨ht.1, hlock, ht.2⟩

/-- **When the targets of a batch differ.** They do unless one source of the batch has the first
free numbered name of another whose name is taken. -/
theorem nodup_targets_iff (archive : Dir FileName File) {ns : List FileName} (hnd : ns.Nodup)
    (hjson : ∀ n ∈ ns, endsWith n.text (lit ".json")) :
    (ns.map (uniqueTarget archive)).Nodup ↔ ∀ n ∈ ns, ∀ m ∈ ns, ¬ Collides archive n m := by
  constructor
  · rintro h n hn m hm ⟨ht, hmem, k, hk, rfl, hfirst⟩
    -- both get the name `numbered n k`
    have hne : n ≠ numbered n k := by
      intro he
      rcases ht with ht | ht
      · exact numbered_ne_manifest n k (he ▸ ht)
      · exact hmem (he ▸ ht)
    refine hne (List.inj_on_of_nodup_map h hn hm ?_)
    obtain ⟨f1, -, -, hn'⟩ := uniqueTarget_spec archive (hjson n hn)
    obtain ⟨-, -, -, hm'⟩ := uniqueTarget_spec archive (hjson _ hm)
    rcases hn' with ⟨h1, -⟩ | ⟨-, k', hk', he, hfirst'⟩
    · exact absurd ht h1
    · rcases hm' with ⟨-, hm'⟩ | ⟨hm', -⟩
      · rw [he, hm']
        rcases Nat.lt_trichotomy k k' with hlt | rfl | hlt
        · exact absurd (hfirst' k hk hlt) hmem
        · rfl
        · exact absurd (hfirst k' hk' hlt) (he ▸ f1)
      · rcases hm' with hm' | hm'
        · exact absurd hm' (numbered_ne_manifest n k)
        · exact absurd hm' hmem
  · intro h
    refine List.Nodup.map_on (fun n hn m hm he => ?_) hnd
    obtain ⟨f1, -, -, hn'⟩ := uniqueTarget_spec archive (hjson n hn)
    obtain ⟨f2, -, -, hm'⟩ := uniqueTarget_spec archive (hjson m hm)
    rcases hn' with ⟨-, hn'⟩ | ⟨tn, k, hk, hn', hfn⟩ <;> rcases hm' with ⟨-, hm'⟩ | ⟨tm, k', hk', hm', hfm⟩
    · rw [← hn', ← hm', he]
    · refine absurd ⟨tm, ?_, k', hk', ?_, hfm⟩ (h m hm n hn)
      · rw [← hn']; exact f1
      · rw [← hn', he, hm']
    · refine absurd ⟨tn, ?_, k, hk, ?_, hfn⟩ (h n hn m hm)
      · rw [← hm']; exact f2
      · rw [← hm', ← he, hn']
    · exact numbered_json_inj (hjson n hn) (hjson m hm) (by rw [← hn', ← hm', he])

/-! ### The candidates a call moves -/

/-- The candidates whose file is there with the recorded digest. -/
def eligible (py : Py) (auth : Dir FileName File) (candidates : List ArchiveCandidate) :
    List ArchiveCandidate := candidates.filter fun c => Eligible py auth c

/-- The names a call moves. -/
def sourceNames (py : Py) (auth : Dir FileName File) (candidates : List ArchiveCandidate) :
    List FileName := (eligible py auth candidates).map fun c => c.record.path

/-- A selection is the eligible candidates, each with the target chosen for it. -/
theorem select_eq {py : Py} {w : World} : ∀ {candidates : List ArchiveCandidate}
    {selected : List (ArchiveCandidate × FileName)}, select py w candidates = .ok selected →
      selected = (eligible py w.auth candidates).map fun c =>
        (c, uniqueTarget w.archive c.record.path)
  | [], selected, h => by
    simp only [select, Except.ok.injEq] at h
    rw [← h]; rfl
  | c :: cs, selected, h => by
    unfold select at h
    split at h
    · next hnone =>
      have hc : ¬ Eligible py w.auth c := by
        rintro ⟨f, hf, -⟩
        rw [hnone] at hf; exact absurd hf (by simp)
      rw [select_eq h, eligible, eligible, List.filter_cons_of_neg (by simpa using hc)]
    · next f hf =>
      split_ifs at h with hsize hdigest
      · have hc : ¬ Eligible py w.auth c := by
          rintro ⟨g, hg, hd⟩
          rw [hf, Option.mem_some_iff] at hg
          exact hdigest (hg ▸ hd)
        rw [select_eq h, eligible, eligible, List.filter_cons_of_neg (by simpa using hc)]
      · have hc : Eligible py w.auth c := ⟨f, hf, not_not.mp hdigest⟩
        rcases hrec : select py w cs with e | rest
        · rw [hrec] at h; exact absurd h (by simp [Except.map])
        · rw [hrec] at h
          simp only [Except.map, Except.ok.injEq] at h
          rw [← h, select_eq hrec, eligible, eligible, List.filter_cons_of_pos (by simpa using hc),
            List.map_cons]

theorem select_eligible {py : Py} {w : World} {candidates : List ArchiveCandidate}
    {selected : List (ArchiveCandidate × FileName)} (h : select py w candidates = .ok selected)
    {x : ArchiveCandidate × FileName} (hx : x ∈ selected) : Eligible py w.auth x.1 := by
  rw [select_eq h] at hx
  obtain ⟨c, hc, rfl⟩ := List.mem_map.mp hx
  simpa using (List.mem_filter.mp hc).2

/-- The candidates of one call: different `.json` names. -/
structure Batch (candidates : List ArchiveCandidate) : Prop where
  nodup : (candidates.map fun c => c.record.path).Nodup
  json : ∀ c ∈ candidates, endsWith c.record.path.text (lit ".json")

/-- None of the names is the first free numbered name of another one that is taken. -/
def Apart (archive : Dir FileName File) (ns : List FileName) : Prop :=
  ∀ n ∈ ns, ∀ m ∈ ns, ¬ Collides archive n m

/-- No file of the batch that will be moved has the first free numbered name of another one whose
own name is taken. -/
def Separate (py : Py) (w : World) (candidates : List ArchiveCandidate) : Prop :=
  Apart w.archive (sourceNames py w.auth candidates)

theorem Batch.names {py : Py} {auth : Dir FileName File} {candidates : List ArchiveCandidate}
    (hb : Batch candidates) : (sourceNames py auth candidates).Nodup ∧
      ∀ n ∈ sourceNames py auth candidates, endsWith n.text (lit ".json") := by
  have hsub : (eligible py auth candidates).Sublist candidates := List.filter_sublist
  refine ⟨hb.nodup.sublist (hsub.map _), fun n hn => ?_⟩
  obtain ⟨c, hc, rfl⟩ := List.mem_map.mp hn
  exact hb.json c (hsub.subset hc)

theorem select_sources {py : Py} {w : World} {candidates : List ArchiveCandidate}
    {selected : List (ArchiveCandidate × FileName)} (hb : Batch candidates)
    (h : select py w candidates = .ok selected) : Sources w.auth selected := by
  refine ⟨?_, fun x hx => ?_⟩
  · rw [select_eq h, List.map_map]
    exact hb.names.1
  · obtain ⟨f, hf, -⟩ := select_eligible h hx
    exact mem_of_lookup hf

/-- The targets of a selection are free and not reserved. -/
theorem select_free {py : Py} {w : World} {candidates : List ArchiveCandidate}
    {selected : List (ArchiveCandidate × FileName)} (hb : Batch candidates)
    (h : select py w candidates = .ok selected) {x : ArchiveCandidate × FileName}
    (hx : x ∈ selected) : x.2 ∉ w.archive ∧ x.2 ≠ manifestName ∧ x.2 ≠ lockName := by
  rw [select_eq h] at hx
  obtain ⟨c, hc, rfl⟩ := List.mem_map.mp hx
  obtain ⟨h1, h2, h3, -⟩ := uniqueTarget_spec w.archive
    (hb.names.2 c.record.path (List.mem_map.mpr ⟨c, hc, rfl⟩))
  exact ⟨h1, h2, h3⟩

/-- **The first `k` targets of a call differ exactly when the names they are for are apart.** -/
theorem take_targets_nodup_iff {py : Py} {w : World} {candidates : List ArchiveCandidate}
    {selected : List (ArchiveCandidate × FileName)} (hb : Batch candidates)
    (h : select py w candidates = .ok selected) (k : ℕ) :
    ((selected.take k).map Prod.snd).Nodup ↔
      Apart w.archive ((sourceNames py w.auth candidates).take k) := by
  have hmap : (selected.take k).map Prod.snd =
      ((sourceNames py w.auth candidates).take k).map (uniqueTarget w.archive) := by
    rw [select_eq h, sourceNames, ← List.map_take, ← List.map_take, List.map_map, List.map_map]
    rfl
  rw [hmap]
  exact nodup_targets_iff w.archive (hb.names.1.sublist (List.take_sublist k _))
    fun n hn => hb.names.2 n (List.mem_of_mem_take hn)

theorem targets_nodup_iff {py : Py} {w : World} {candidates : List ArchiveCandidate}
    {selected : List (ArchiveCandidate × FileName)} (hb : Batch candidates)
    (h : select py w candidates = .ok selected) :
    (selected.map Prod.snd).Nodup ↔ Separate py w candidates := by
  have hlen : (sourceNames py w.auth candidates).length = selected.length := by
    rw [select_eq h, sourceNames, List.length_map, List.length_map]
  have := take_targets_nodup_iff hb h selected.length
  rwa [List.take_length, List.take_of_length_le hlen.le] at this

theorem select_targets {py : Py} {w : World} {candidates : List ArchiveCandidate}
    {selected : List (ArchiveCandidate × FileName)} (hb : Batch candidates)
    (h : select py w candidates = .ok selected) (hsep : Separate py w candidates) :
    FreshTargets w.archive selected :=
  ⟨(targets_nodup_iff hb h).mpr hsep, fun _ hx => (select_free hb h hx).1,
    fun _ hx => (select_free hb h hx).2⟩

/-- The file with the text `s` as a candidate, with its digest. -/
def candidateFor (py : Py) (n : FileName) (s : String) : ArchiveCandidate :=
  ⟨⟨n, py.sha256 (textFile s).bytes, lit "invalid-auth-json"⟩, lit "invalid-auth-json", none⟩

/-- An auth directory with the one file `a.json`, and no archive. -/
def oneWorld : World := ⟨Finmap.singleton aJson (textFile "one"), ∅, none, ∅⟩

/-! ### Taking the lock -/

theorem archiveCandidates_run {py : Py} {sameDevice : Bool} {fails : ArchiveStep → Bool}
    {candidates : List ArchiveCandidate} {movedAt : Str} (hne : candidates ≠ [])
    (hok : fails .prepare = false) (w : World) :
    archiveCandidates py sameDevice fails candidates movedAt w =
      archiveLocked py sameDevice fails candidates movedAt w.locked := by
  rw [archiveCandidates, if_neg hne]
  exact Act.bind_ok (Act.step_ok hok _ _ _)

theorem restoreRun_run {py : Py} {sameDevice : Bool} {fails : RestoreStep → Bool}
    {selector : Str} (hname : pathName selector = selector) (hok : fails .prepare = false)
    (w : World) : restoreRun py sameDevice fails selector selector w =
      restoreLocked py sameDevice fails selector w.locked := by
  rw [restoreRun, if_neg (by simp [hname])]
  exact Act.bind_ok (Act.step_ok hok _ _ _)

theorem locked_auth (w : World) : w.locked.auth = w.auth := by
  unfold World.locked; split_ifs <;> rfl

theorem locked_lookup (w : World) {n : FileName} (h : n ≠ lockName) :
    w.locked.archive.lookup n = w.archive.lookup n := by
  unfold World.locked
  split_ifs
  · rfl
  · exact Finmap.lookup_insert_of_ne _ h

theorem locked_mem (w : World) {n : FileName} (h : n ≠ lockName) :
    n ∈ w.locked.archive ↔ n ∈ w.archive := by
  rw [Finmap.mem_iff, Finmap.mem_iff, locked_lookup w h]

theorem locked_credentials (w : World) : credentials w.locked.archive = credentials w.archive := by
  unfold World.locked
  split_ifs
  · rfl
  · exact credentials_insert_reserved (Or.inr rfl) _

/-- Taking the lock does not change which names are apart. -/
theorem locked_apart {w : World} {ns : List FileName}
    (hjson : ∀ n ∈ ns, endsWith n.text (lit ".json")) :
    Apart w.locked.archive ns ↔ Apart w.archive ns := by
  unfold Apart
  refine forall₂_congr fun n hn => forall₂_congr fun m hm => ?_
  unfold Collides Taken
  simp only [locked_mem w (json_ne_lock (hjson n hn)), locked_mem w (json_ne_lock (hjson m hm)),
    locked_mem w (numbered_ne_lock _ _)]

theorem locked_separate {py : Py} {w : World} {candidates : List ArchiveCandidate}
    (hb : Batch candidates) : Separate py w.locked candidates ↔ Separate py w candidates := by
  unfold Separate
  rw [locked_auth, locked_apart (@Batch.names py w.auth _ hb).2]

/-! ### The saved manifest -/

/-- The entries the manifest file holds; none if there is no readable manifest. -/
def savedEntries (archive : Dir FileName File) : List Json :=
  match archive.lookup manifestName with
  | some ⟨_, .value (.obj document)⟩ => entriesOf document
  | _ => []

theorem savedEntries_congr {a b : Dir FileName File}
    (h : a.lookup manifestName = b.lookup manifestName) : savedEntries a = savedEntries b := by
  rw [savedEntries, savedEntries, h]

theorem locked_entries (w : World) : savedEntries w.locked.archive = savedEntries w.archive :=
  savedEntries_congr (locked_lookup w (by decide))

/-- `_manifest` returns the saved entries. -/
theorem manifest_entries {archive : Dir FileName File} {document : Dict}
    (h : manifest archive = .ok document) : entriesOf document = savedEntries archive := by
  unfold manifest at h
  unfold savedEntries
  split at h
  · next hnone =>
    rw [hnone]
    simp only [Except.ok.injEq] at h
    rw [← h]; decide
  · next file hsome =>
    rw [hsome]
    split_ifs at h with hsize
    split at h
    · exact absurd h (by simp)
    · exact absurd h (by simp)
    · exact absurd h (by simp)
    · next d hd =>
      obtain ⟨bytes, content⟩ := file
      simp only at hd
      subst hd
      split_ifs at h with hschema
      split at h
      · rw [Except.ok.injEq] at h
        rw [← h]
      · exact absurd h (by simp)
    · exact absurd h (by simp)

theorem locked_manifest (w : World) : manifest w.locked.archive = manifest w.archive := by
  rw [manifest, manifest, locked_lookup w (by decide : manifestName ≠ lockName)]

theorem entriesOf_set (document : Dict) (entries : List Json) :
    entriesOf (set document (lit "entries") (.arr entries)) = entries := by
  rw [entriesOf, get_set_self]

theorem savedEntries_insert (py : Py) (archive : Dir FileName File) (document : Dict)
    (entries : List Json) : savedEntries (archive.insert manifestName
      (jsonFile py true (set document (lit "entries") (.arr entries)))) = entries := by
  rw [savedEntries, Finmap.lookup_insert]
  exact entriesOf_set document entries

/-- `atomic_json` with no failing step. -/
theorem atomicJson_ok (py : Py) {fails : WriteStep → Bool} (hok : ∀ s, fails s = false)
    (document : Dict) (w : World) : atomicJson py fails document w = (.ok (), { w with
      archive := w.archive.insert manifestName (jsonFile py true document), temporary := none }) := by
  simp only [atomicJson, Act.bind_run, Act.except, Act.step_ok (hok _), Act.modify_run,
    Option.getD_some]

/-- A failing step of `atomic_json` leaves the directories as they were. -/
theorem atomicJson_fail (py : Py) {fails : WriteStep → Bool} {s : WriteStep} (hs : fails s = true)
    (document : Dict) (w : World) : atomicJson py fails document w = (.error .os, w) ∨
      atomicJson py fails document w = (.error .os, { w with temporary := none }) := by
  by_cases h1 : fails .createTemporary = true
  · left; simp only [atomicJson, Act.bind_run, Act.step_fail h1]
  · right
    rw [Bool.not_eq_true] at h1
    by_cases h2 : fails .writeTemporary = true
    · simp only [atomicJson, Act.bind_run, Act.except, Act.step_ok h1, Act.modify_run,
        Act.step_fail h2, Act.raise_run]
    · rw [Bool.not_eq_true] at h2
      have h3 : fails .replaceManifest = true := by
        cases s
        · rw [hs] at h1; exact absurd h1 (by simp)
        · rw [hs] at h2; exact absurd h2 (by simp)
        · exact hs
      simp only [atomicJson, Act.bind_run, Act.except, Act.step_ok h1, Act.modify_run,
        Act.step_ok h2, Act.step_fail h3, Act.raise_run]

/-- The `try` block, when no step it reaches fails. -/
theorem archiveBody_ok {py : Py} {w : World} {fails : ArchiveStep → Bool} {movedAt : Str}
    {document : Dict} {selected : List (ArchiveCandidate × FileName)}
    (hs : Sources w.auth selected)
    (hloop : ∀ j < selected.length, fails (.move j) = false ∧ fails (.chmod j) = false)
    (hwrite : ∀ s, fails (.write s) = false) (harchive : fails .fsyncArchive = false)
    (hauth : fails .fsyncAuth = false) :
    archiveBody py fails movedAt document selected ⟨w, []⟩ =
      (.ok (), ⟨{ moveAll selected w with
        archive := (moveAll selected w).archive.insert manifestName (jsonFile py true
          (set document (lit "entries") (.arr (entriesOf document ++ entriesFor selected movedAt))))
        temporary := none }, movedOf selected⟩) := by
  rw [archiveBody, Act.bind_ok (moveLoop_ok hs hloop)]
  simp only [Act.bind_run, Txn.lift, atomicJson_ok py hwrite, Act.step_ok harchive,
    Act.step_ok hauth, Act.pure_run]

/-! ### Restoring -/

/-- The entry a successful selection found, and the two names it goes by. -/
theorem restoreSelect_spec {py : Py} {w : World} {document : Dict} {selector : Str} {index : ℕ} {source target : FileName}
    (h : restoreSelect py w document selector = .ok (index, source, target)) :
    ∃ entry, (entriesOf document)[index]? = some entry ∧
      get (asDict entry) (lit "archiveName") = .str source.text ∧ source.text = selector ∧
      source ∈ w.archive ∧ target ∉ w.auth := by
  unfold restoreSelect at h
  split at h
  · next entry i hmatch =>
    -- the matching entry is at its place and carries the selector
    have hmem : (entry, i) ∈ matching (entriesOf document) selector := by rw [hmatch]; simp
    rw [matching, List.mem_filter, List.mk_mem_zipIdx_iff_getElem?] at hmem
    obtain ⟨hat, hkey⟩ := hmem
    have hname : get (asDict entry) (lit "archiveName") = .str selector := by
      cases entry <;> simp_all [asDict]
    simp only at h
    split_ifs at h with hplain
    split at h
    · next s t hs ht =>
      split_ifs at h with hfree
      simp only [Except.ok.injEq, Prod.mk.injEq] at h
      obtain ⟨rfl, rfl, rfl⟩ := h
      rw [not_or, not_not] at hfree
      have htext : s.text = selector := by
        rw [hname] at hs
        have hor : py.str (pyOr (.str selector) (.str [])) = selector := by
          unfold pyOr truthy
          split_ifs with hne
          · rfl
          · simp only [decide_eq_true_eq, not_not, ne_eq] at hne
            rw [hne]; rfl
        rw [hor, FileName.ofStr?] at hs
        split_ifs at hs with hv
        rw [← Option.some.inj hs]
      exact ⟨entry, hat, by rw [hname, htext], htext, hfree⟩
    · exact absurd h (by simp)
  · exact absurd h (by simp)

/-- `restore_run` after its checks, when no step it reaches fails. -/
theorem restoreBody_ok {py : Py} {w : World} {fails : RestoreStep → Bool} {document : Dict}
    {index : ℕ} {source target : FileName} {f : File} (hf : w.archive.lookup source = some f)
    (hmove : fails .move = false) (hchmod : fails .chmod = false)
    (hwrite : ∀ s, fails (.write s) = false) :
    restoreBody py fails document index source target w = (.ok (), { w with
      auth := w.auth.insert target f
      archive := (w.archive.erase source).insert manifestName (jsonFile py true
        (set document (lit "entries") (.arr ((entriesOf document).eraseIdx index))))
      temporary := none }) := by
  simp only [restoreBody, Act.bind_run, Act.except, Act.step_ok hmove, Act.step_ok hchmod,
    replaceFromArchive, transfer_of_lookup hf, Act.pure_run, atomicJson_ok py hwrite]

end Cloudx.Local.ArchiveMoves

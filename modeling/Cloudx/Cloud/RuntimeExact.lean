import Cloudx.Cloud.Monitors
import Cloudx.Lib.Alone

/-! # Receipts, with nobody else

What `archive_runtime_failures` does when nothing fails and nobody interferes. The records are taken once,
before the first receipt, and files go away while the receipts are worked off: a second receipt for a file
that is gone is stale. `outcomesOf` says what becomes of each receipt, from what the disk held at first
(`receipts_outcomes`), and `receipts_exact` what that means for the files, the receipts and the counts. -/

namespace Cloudx.Cloud.RuntimeExact

open Cloudx.Lib.Fault Cloudx.Lib.Threads Cloudx.Lib.Alone
open Cloudx.Python.Text Cloudx.Python.Value Cloudx.Python.Dump
open Cloudx.Shared.Receipt
open Cloudx.Cloud.Disk Cloudx.Cloud.Quarantine Cloudx.Cloud.QuarantineCalls Cloudx.Cloud.Auth
open Cloudx.Cloud.AuthScan Cloudx.Cloud.Receipts Cloudx.Cloud.Archivers Cloudx.Cloud.ArchiverRules
open Cloudx.Cloud.Taking
open Cloudx.Cloud.Sweep (safeFile)

variable {cfg : Config} {py : Py} {call : Call} {records : List AuthRecord} {w s s' : World}

/-! ### What becomes of a receipt -/

section

variable (cfg : Config) (py : Py) (call : Call) (w : World) (records : List AuthRecord)

/-- The receipt at a path, if it is one of the first ones and accepted. -/
def acceptedAt (indexed : Path × ℕ) : Option Failure :=
  if maxFailureReceipts ≤ indexed.2 then none
  else match failureReceipt py call.now (entryAt w indexed.1) with
    | .ok found => found
    | .error _ => none

/-- The digest of a file. -/
def digestAt (p : Path) : Option Str := (safeFile w p).map fun f => py.sha256 f.bytes

/-- The file that a receipt names, if there is a record of it and it has the digest. -/
def targetOf (failure : Failure) : Option Path :=
  match recordsNamed cfg records failure.authFile with
  | [record] => if digestAt py w record.path = some failure.digest then some record.path else none
  | _ => none

/-- The file that the receipt at a path condemns. -/
def condemnedBy (indexed : Path × ℕ) : Option Path :=
  (acceptedAt py call w indexed).bind (targetOf cfg py w records)

/-- What becomes of the receipts when the files of `gone` are gone. -/
def outcomesOf : List Path → List (Path × ℕ) → List Outcome
  | _, [] => []
  | gone, x :: rest =>
    if acceptedAt py call w x = none then .rejected :: outcomesOf gone rest
    else match condemnedBy cfg py call w records x with
      | none => .stale :: outcomesOf gone rest
      | some p => if p ∈ gone then .stale :: outcomesOf gone rest
        else .archived (lastName p) :: outcomesOf (p :: gone) rest

/-- The files that are taken, in order. -/
def takenBy : List Path → List (Path × ℕ) → List Path
  | _, [] => []
  | gone, x :: rest => match condemnedBy cfg py call w records x with
    | none => takenBy gone rest
    | some p => if p ∈ gone then takenBy gone rest else p :: takenBy (p :: gone) rest

/-- The receipts that take a file. -/
def usedBy : List Path → List (Path × ℕ) → List Path
  | _, [] => []
  | gone, x :: rest => match condemnedBy cfg py call w records x with
    | none => usedBy gone rest
    | some p => if p ∈ gone then usedBy gone rest else x.1 :: usedBy (p :: gone) rest

end

/-! ### The disk after some receipts -/

/-- A call without failing steps. -/
structure Steady (call : Call) : Prop where
  quarantine : ∀ p, call.quarantineFails p = steady
  unlink : ∀ p, call.unlinkFails p = false

/-- The disk `s` is `w` without some credentials and some receipts. -/
structure Without (places : Places cfg) (w s : World) (gone used : List Path) : Prop where
  taken : ∀ p ∈ gone, cfg.authDir <+: p ∧ fileAt s p = none
  auth : ∀ p, cfg.authDir <+: p → p ∉ gone → s.nodes.lookup p = w.nodes.lookup p
  receipts : ∀ n, s.nodes.lookup (places.failureDir ++ [n]) =
    if places.failureDir ++ [n] ∈ used then none else w.nodes.lookup (places.failureDir ++ [n])
  archive : ∀ p ∈ gone, ∃ name f, fileAt w p = some f ∧ QuarantineRuns.archived cfg s name = some f

theorem without_refl (places : Places cfg) (w : World) : Without places w w [] [] :=
  ⟨fun _ h => absurd h (by simp), fun _ _ _ => rfl, fun n => by rw [if_neg (by simp)],
    fun _ h => absurd h (by simp)⟩

theorem digestAt_none {p : Path} (h : fileAt s p = none) : digestAt py s p = none := by
  unfold digestAt safeFile
  split
  · next f hf =>
    rw [fileAt, hf] at h
    cases h
  · rfl

theorem digestAt_congr {p : Path} (h : s.nodes.lookup p = w.nodes.lookup p) :
    digestAt py s p = digestAt py w p := by
  unfold digestAt safeFile
  rw [h]

/-- A receipt that is still as it was is read as it was. -/
theorem failureReceipt_congr {p : Path} (h : s.nodes.lookup p = w.nodes.lookup p) :
    failureReceipt py call.now (entryAt s p) = failureReceipt py call.now (entryAt w p) := by
  have hnone : ∀ b : Bool, failureReceipt py call.now (if b then .refused else .absent) = .ok none := by
    intro b
    cases b <;> rfl
  unfold entryAt
  rw [h]
  rcases w.nodes.lookup p with _ | node
  · have h1 := hnone (decide (p ∈ s.dirs))
    have h2 := hnone (decide (p ∈ w.dirs))
    simp only [decide_eq_true_eq] at h1 h2
    exact h1.trans h2.symm
  · cases node <;> rfl

/-- **A quarantine that returns** takes its file out of the auth tree; the rest of what is outside the
archive stays. -/
theorem quarantine_outside {source : Path} {reason movedAt : Str} {target : FileName}
    (h : quarantineAuthRecord cfg py true steady source reason movedAt w = (.ok target, s)) :
    cfg.authDir <+: source ∧ fileAt s source = none ∧
      ∀ q, q ≠ source → ¬ cfg.archiveDir <+: q → s.nodes.lookup q = w.nodes.lookup q := by
  obtain ⟨relative, f, document, w1, hsplit, -, hf, -, -, hmoved, -, rfl⟩ :=
    QuarantineRuns.quarantine_ok h
  have hpre : cfg.authDir <+: source := ⟨relative, hsplit⟩
  have hbelow : ∀ n, cfg.archiveDir <+: cfg.inArchive n := fun n => List.prefix_append _ _
  refine ⟨hpre, ?_, fun q hq hout => ?_⟩
  · have hsource : fileAt w1 source = none := by
      rw [hmoved.files, if_neg (ne_inArchive hpre target), if_pos rfl]
    exact (fileAt_insert_ne w1 (ne_inArchive hpre _) _).trans hsource
  · have hne : ∀ n, q ≠ cfg.inArchive n := by
      rintro n rfl
      exact hout (hbelow n)
    have hwritten : (written py (cfg.inArchive manifestName) (set document (lit "entries")
        (.arr (entriesOf document ++ [entryOf py relative target reason movedAt]))) w1).nodes.lookup q =
        w1.nodes.lookup q := Finmap.lookup_insert_of_ne _ (hne _)
    rw [hwritten, hmoved.nodes q hq (hne _), locked_lookup cfg w (hne _)]

/-- The auth tree and the archive lie apart. -/
theorem not_archive {p : Path} (h : cfg.authDir <+: p) : ¬ cfg.archiveDir <+: p := by
  intro h'
  rcases List.prefix_or_prefix_of_prefix h h' with h'' | h''
  · exact cfg.apart.1 h''
  · exact cfg.apart.2 h''

/-- One file is taken for one receipt. -/
theorem Without.take {places : Places cfg} {gone used : List Path}
    (h : Without places w s gone used) {p : Path} (hp : p ∉ gone) {n : FileName} {reason : Str}
    {movedAt : Str} {target : FileName}
    (hq : quarantineAuthRecord cfg py true steady p reason movedAt s = (.ok target, s')) :
    Without places w { s' with nodes := s'.nodes.erase (places.failureDir ++ [n]) } (p :: gone)
      ((places.failureDir ++ [n]) :: used) := by
  obtain ⟨hbelow, hgone, hrest⟩ := quarantine_outside hq
  have hauth : ∀ q, cfg.authDir <+: q → q ≠ places.failureDir ++ [n] := by
    rintro q hq' rfl
    exact (places.receipts n).1 hq'
  have herase : ∀ q, cfg.authDir <+: q →
      (s'.nodes.erase (places.failureDir ++ [n])).lookup q = s'.nodes.lookup q := fun q hq' =>
    Finmap.lookup_erase_ne (hauth q hq')
  refine ⟨fun q hq' => ?_, fun q hq' hnot => ?_, fun m => ?_, fun q hq' => ?_⟩
  · by_cases hqp : q = p
    · subst hqp
      exact ⟨hbelow, by rw [fileAt, herase q hbelow]; exact hgone⟩
    · obtain ⟨hpre, hnone⟩ := h.taken q ((List.mem_cons.mp hq').resolve_left hqp)
      refine ⟨hpre, ?_⟩
      rw [fileAt, herase q hpre, hrest q hqp (not_archive hpre)]
      exact hnone
  · rw [List.mem_cons, not_or] at hnot
    rw [herase q hq', hrest q hnot.1 (not_archive hq'), h.auth q hq' hnot.2]
  · by_cases hm : places.failureDir ++ [m] = places.failureDir ++ [n]
    · rw [hm, if_pos List.mem_cons_self]
      exact Finmap.lookup_erase _ _
    · have hne : places.failureDir ++ [m] ≠ p := by
        rintro rfl
        exact (places.receipts m).1 hbelow
      have hl : (s'.nodes.erase (places.failureDir ++ [n])).lookup (places.failureDir ++ [m]) =
          s'.nodes.lookup (places.failureDir ++ [m]) := Finmap.lookup_erase_ne hm
      rw [hl, hrest _ hne (places.receipts m).2, h.receipts m]
      simp only [List.mem_cons, hm, false_or]
  · -- what was in the archive stays, and the file joins it
    rcases quarantine_taken cfg py steady s p reason movedAt with ⟨⟨e, he⟩, -⟩ | ⟨f, htaken⟩
    · rw [hq] at he
      cases he
    rw [hq] at htaken
    have hkeep : ∀ name, QuarantineRuns.archived cfg
        { s' with nodes := s'.nodes.erase (places.failureDir ++ [n]) } name =
        QuarantineRuns.archived cfg s' name := by
      intro name
      have hne : cfg.inArchive name ≠ places.failureDir ++ [n] := fun he =>
        (places.receipts n).2 (he ▸ List.prefix_append _ _)
      rw [QuarantineRuns.archived, QuarantineRuns.archived, fileAt, fileAt,
        Finmap.lookup_erase_ne hne]
    have hput := htaken.archived
    by_cases hqp : q = p
    · subst hqp
      refine ⟨_, f, ?_, (hkeep _).trans ((congrFun hput _).trans (Function.update_self ..))⟩
      rw [fileAt, ← h.auth q hbelow hp]
      exact htaken.found
    · obtain ⟨name, g, hg, hin⟩ := h.archive q ((List.mem_cons.mp hq').resolve_left hqp)
      refine ⟨name, g, hg, (hkeep _).trans ?_⟩
      have hne : name ≠ archiveNameOf cfg s p := by
        rintro rfl
        rw [htaken.free] at hin
        cases hin
      rw [hput, Function.update_of_ne hne, hin]

/-! ### The loop -/

theorem acceptedAt_congr {places : Places cfg} {gone used : List Path}
    (h : Without places w s gone used) {n : FileName} {k : ℕ}
    (hunused : places.failureDir ++ [n] ∉ used) :
    acceptedAt py call s (places.failureDir ++ [n], k) =
      acceptedAt py call w (places.failureDir ++ [n], k) := by
  have hl := h.receipts n
  rw [if_neg hunused] at hl
  rw [acceptedAt, acceptedAt, failureReceipt_congr hl]

/-- **One receipt.** -/
theorem takeReceipt_run (hsteady : Steady call) {places : Places cfg} {gone used : List Path}
    (h : Without places w s gone used) {n : FileName} {k : ℕ}
    (hunused : places.failureDir ++ [n] ∉ used) {outcome : Outcome}
    (hrun : alone (takeReceipt py cfg call records (places.failureDir ++ [n], k)) s =
      (.ok outcome, s')) :
    (acceptedAt py call w (places.failureDir ++ [n], k) = none ∧ outcome = .rejected ∧ s' = s) ∨
    (acceptedAt py call w (places.failureDir ++ [n], k) ≠ none ∧
      (∀ p, condemnedBy cfg py call w records (places.failureDir ++ [n], k) = some p → p ∈ gone) ∧
      outcome = .stale ∧ s' = s) ∨
    ∃ p, condemnedBy cfg py call w records (places.failureDir ++ [n], k) = some p ∧ p ∉ gone ∧
      outcome = .archived (lastName p) ∧
      Without places w s' (p :: gone) ((places.failureDir ++ [n]) :: used) := by
  have hacc : acceptedAt py call s (places.failureDir ++ [n], k) =
      acceptedAt py call w (places.failureDir ++ [n], k) := acceptedAt_congr h hunused
  unfold takeReceipt at hrun
  split_ifs at hrun with hmany
  · obtain ⟨hres, rfl⟩ := Prod.mk.inj hrun
    exact .inl ⟨by rw [acceptedAt, if_pos hmany], (Except.ok.inj hres).symm, rfl⟩
  rw [alone_bind, Act.bind_run, readReceipt, alone_look] at hrun
  rw [acceptedAt, if_neg hmany] at hacc
  rcases hreceipt : failureReceipt py call.now (entryAt s (places.failureDir ++ [n])) with e | found
  · rw [hreceipt] at hrun
    exact absurd hrun (by simp)
  simp only [hreceipt] at hrun hacc
  rcases found with _ | failure
  · obtain ⟨hres, rfl⟩ := Prod.mk.inj hrun
    exact .inl ⟨hacc.symm, (Except.ok.inj hres).symm, rfl⟩
  have hnone : acceptedAt py call w (places.failureDir ++ [n], k) ≠ none := by
    rw [← hacc]; simp
  have hcond : condemnedBy cfg py call w records (places.failureDir ++ [n], k) =
      targetOf cfg py w records failure := by
    rw [condemnedBy, ← hacc, Option.bind_some]
  rw [hcond]
  simp only [archiveReceipt] at hrun
  unfold targetOf
  rcases hrecord : recordsNamed cfg records failure.authFile with _ | ⟨record, _ | ⟨second, more⟩⟩
  · simp only [hrecord] at hrun
    obtain ⟨hres, rfl⟩ := Prod.mk.inj hrun
    exact .inr (.inl ⟨hnone, nofun, (Except.ok.inj hres).symm, rfl⟩)
  swap
  · simp only [hrecord] at hrun
    obtain ⟨hres, rfl⟩ := Prod.mk.inj hrun
    exact .inr (.inl ⟨hnone, nofun, (Except.ok.inj hres).symm, rfl⟩)
  simp only [hrecord] at hrun
  have hmem : record ∈ recordsNamed cfg records failure.authFile := by
    rw [hrecord]; exact List.mem_singleton_self _
  obtain ⟨m, -, hpath⟩ := recordsNamed_path hmem
  have hpre : cfg.authDir <+: record.path := hpath ▸ List.prefix_append _ _
  dsimp only
  rw [alone_bind, Act.bind_run, hashFile, alone_look] at hrun
  dsimp only at hrun
  -- the digest now is the one at first, unless the file is gone
  have hdigest : digestAt py s record.path = if record.path ∈ gone then none
      else digestAt py w record.path := by
    split_ifs with hmem
    · exact digestAt_none (h.taken _ hmem).2
    · exact digestAt_congr (h.auth _ hpre hmem)
  rw [← digestAt, hdigest] at hrun
  by_cases hgone : record.path ∈ gone
  · rw [if_pos hgone, if_pos (by simp)] at hrun
    obtain ⟨hres, rfl⟩ := Prod.mk.inj hrun
    refine .inr (.inl ⟨hnone, fun p hp => ?_, (Except.ok.inj hres).symm, rfl⟩)
    split_ifs at hp
    exact Option.some.inj hp ▸ hgone
  rw [if_neg hgone] at hrun
  by_cases hsame : digestAt py w record.path = some failure.digest
  swap
  · rw [if_pos hsame] at hrun
    obtain ⟨hres, rfl⟩ := Prod.mk.inj hrun
    refine .inr (.inl ⟨hnone, fun p hp => ?_, (Except.ok.inj hres).symm, rfl⟩)
    rw [if_neg hsame] at hp
    cases hp
  rw [if_neg (not_not.mpr hsame), alone_bind, Archivers.quarantine, alone_atomically,
    hsteady.quarantine] at hrun
  obtain ⟨target, s1, hquarantine, hrest⟩ := Act.bind_eq_ok.mp hrun
  rw [alone_bind, unlinkReceipt, alone_atomically, hsteady.unlink] at hrest
  obtain ⟨hres, rfl⟩ := Prod.mk.inj hrest
  refine .inr (.inr ⟨record.path, by rw [if_pos hsame], hgone, (Except.ok.inj hres).symm, ?_⟩)
  exact h.take hgone hquarantine

/-- **The loop** does to the disk and reports what the receipts say at first. -/
theorem receipts_outcomes (hsteady : Steady call) {places : Places cfg} :
    ∀ {receipts : List (Path × ℕ)} {gone used : List Path} {s s' : World} {outcomes : List Outcome},
      (∀ x ∈ receipts, ∃ n, x.1 = places.failureDir ++ [n]) →
      (receipts.map Prod.fst).Nodup → (∀ x ∈ receipts, x.1 ∉ used) →
      Without places w s gone used →
      Lib.Interleave.each (fun x => alone (takeReceipt py cfg call records x)) receipts s =
        (.ok outcomes, s') →
      outcomes = outcomesOf cfg py call w records gone receipts ∧
        Without places w s' ((takenBy cfg py call w records gone receipts).reverse ++ gone)
          ((usedBy cfg py call w records gone receipts).reverse ++ used)
  | [], gone, used, s, s', outcomes, _, _, _, h, hrun => by
    obtain ⟨hres, rfl⟩ := Prod.mk.inj hrun
    exact ⟨(Except.ok.inj hres).symm, h⟩
  | (r, k) :: rest, gone, used, s, s', outcomes, hnames, hnd, hunused, h, hrun => by
    obtain ⟨n, hn⟩ := hnames (r, k) List.mem_cons_self
    obtain rfl : r = places.failureDir ++ [n] := hn
    rw [List.map_cons, List.nodup_cons] at hnd
    rw [Lib.Interleave.each] at hrun
    obtain ⟨outcome, s1, hfirst, hrun⟩ := Act.bind_eq_ok.mp hrun
    obtain ⟨more, s2, hmore, hend⟩ := Act.bind_eq_ok.mp hrun
    obtain ⟨hres, rfl⟩ := Prod.mk.inj hend
    obtain rfl : outcome :: more = outcomes := Except.ok.inj hres
    have hnames' : ∀ x ∈ rest, ∃ n, x.1 = places.failureDir ++ [n] := fun x hx =>
      hnames x (List.mem_cons_of_mem _ hx)
    have hunused' : ∀ x ∈ rest, x.1 ∉ used := fun x hx => hunused x (List.mem_cons_of_mem _ hx)
    rcases takeReceipt_run hsteady h (hunused _ List.mem_cons_self) hfirst with
      ⟨hnone, rfl, rfl⟩ | ⟨hsome, hgone, rfl, rfl⟩ | ⟨p, hp, hnot, rfl, hwithout⟩
    · have hcond : condemnedBy cfg py call w records (places.failureDir ++ [n], k) = none := by
        rw [condemnedBy, hnone]; rfl
      obtain ⟨rfl, hw⟩ := receipts_outcomes hsteady hnames' hnd.2 hunused' h hmore
      rw [outcomesOf, if_pos hnone, takenBy, usedBy, hcond]
      exact ⟨rfl, hw⟩
    · obtain ⟨rfl, hw⟩ := receipts_outcomes hsteady hnames' hnd.2 hunused' h hmore
      rw [outcomesOf, if_neg hsome, takenBy, usedBy]
      rcases hc : condemnedBy cfg py call w records (places.failureDir ++ [n], k) with _ | p
      · exact ⟨rfl, hw⟩
      · simp only [if_pos (hgone p hc)]
        exact ⟨trivial, hw⟩
    · have hsome : acceptedAt py call w (places.failureDir ++ [n], k) ≠ none := by
        intro hnone
        rw [condemnedBy, hnone] at hp
        cases hp
      have hunused1 : ∀ x ∈ rest, x.1 ∉ (places.failureDir ++ [n]) :: used := by
        intro x hx hmem
        rcases List.mem_cons.mp hmem with he | hmem
        · exact hnd.1 (List.mem_map.mpr ⟨x, hx, he⟩)
        · exact hunused' x hx hmem
      obtain ⟨rfl, hw⟩ := receipts_outcomes hsteady hnames' hnd.2 hunused1 hwithout hmore
      rw [outcomesOf, if_neg hsome, takenBy, usedBy, hp]
      simp only [if_neg hnot, List.reverse_cons, List.append_assoc, List.singleton_append]
      exact ⟨trivial, hw⟩

/-! ### What the receipts say -/

/-- One of the first receipts is accepted, and names a file of the auth directory that the scan has a
record of, with the digest that it has. -/
def Condemns (cfg : Config) (py : Py) (call : Call) (w : World) (records : List AuthRecord)
    (x : Path × ℕ) (p : Path) : Prop :=
  ∃ failure n, acceptedAt py call w x = some failure ∧ FileName.text n = failure.authFile ∧
    p = cfg.authDir ++ [n] ∧ (∃ record ∈ records, record.path = p) ∧
    digestAt py w p = some failure.digest

theorem recordsNamed_eq (hnd : (records.map AuthRecord.path).Nodup) {record : AuthRecord}
    (hmem : record ∈ records) {n : FileName} (hpath : record.path = cfg.authDir ++ [n]) :
    recordsNamed cfg records n.text = [record] := by
  have hin : record ∈ recordsNamed cfg records n.text := by
    refine List.mem_filter.mpr ⟨hmem, ?_⟩
    simp [hpath, lastName]
  have hall : ∀ r ∈ recordsNamed cfg records n.text, r = record := by
    intro r hr
    obtain ⟨m, hm, hp⟩ := recordsNamed_path hr
    have hname : m = n := by
      obtain ⟨a, _⟩ := m
      obtain ⟨b, _⟩ := n
      obtain rfl : a = b := hm
      rfl
    exact List.inj_on_of_nodup_map hnd (List.mem_of_mem_filter hr) hmem (by rw [hp, hpath, hname])
  have hnodup : (recordsNamed cfg records n.text).Nodup := hnd.of_map.filter _
  rcases hl : recordsNamed cfg records n.text with _ | ⟨a, _ | ⟨b, rest⟩⟩
  · rw [hl] at hin; cases hin
  · rw [hl] at hall
    rw [hall a List.mem_cons_self]
  · rw [hl] at hall hnodup
    have hab := (hall a (by simp)).trans (hall b (by simp)).symm
    rw [List.nodup_cons, hab] at hnodup
    exact absurd List.mem_cons_self hnodup.1

theorem condemnedBy_iff (hnd : (records.map AuthRecord.path).Nodup) {x : Path × ℕ} {p : Path} :
    condemnedBy cfg py call w records x = some p ↔ Condemns cfg py call w records x p := by
  rw [condemnedBy, Option.bind_eq_some_iff]
  constructor
  · rintro ⟨failure, hacc, htarget⟩
    unfold targetOf at htarget
    split at htarget
    · next record hrecord =>
      have hmem : record ∈ recordsNamed cfg records failure.authFile := by
        rw [hrecord]; exact List.mem_singleton_self _
      obtain ⟨n, hn, hpath⟩ := recordsNamed_path hmem
      split_ifs at htarget with hsame
      obtain rfl := Option.some.inj htarget
      exact ⟨failure, n, hacc, hn, hpath, ⟨record, List.mem_of_mem_filter hmem, rfl⟩, hsame⟩
    · cases htarget
  · rintro ⟨failure, n, hacc, hn, rfl, ⟨record, hmem, hpath⟩, hsame⟩
    refine ⟨failure, hacc, ?_⟩
    rw [targetOf, ← hn, recordsNamed_eq hnd hmem hpath]
    simp only [hpath, if_pos hsame]

/-- The files that are taken are those that are condemned. -/
theorem mem_takenBy {p : Path} : ∀ {receipts : List (Path × ℕ)} {gone : List Path},
    p ∈ takenBy cfg py call w records gone receipts ↔
      p ∉ gone ∧ ∃ x ∈ receipts, condemnedBy cfg py call w records x = some p
  | [], gone => by simp [takenBy]
  | x :: rest, gone => by
    rw [takenBy]
    rcases hc : condemnedBy cfg py call w records x with _ | q
    · simp only [mem_takenBy, List.exists_mem_cons_iff, hc]
      simp
    · dsimp only
      split_ifs with hq
      · rw [mem_takenBy]
        simp only [List.exists_mem_cons_iff, hc, Option.some.injEq]
        constructor
        · rintro ⟨h1, h2⟩
          exact ⟨h1, .inr h2⟩
        · rintro ⟨h1, rfl | h2⟩
          · exact absurd hq h1
          · exact ⟨h1, h2⟩
      · rw [List.mem_cons, mem_takenBy]
        simp only [List.exists_mem_cons_iff, hc, Option.some.injEq]
        rw [List.mem_cons, not_or]
        constructor
        · rintro (rfl | ⟨⟨-, h1⟩, h2⟩)
          · exact ⟨hq, .inl rfl⟩
          · exact ⟨h1, .inr h2⟩
        · rintro ⟨h1, h2⟩
          by_cases hpq : p = q
          · exact .inl hpq
          · exact .inr ⟨⟨hpq, h1⟩, h2.resolve_left (Ne.symm hpq)⟩

theorem takenBy_nodup : ∀ (receipts : List (Path × ℕ)) (gone : List Path),
    (takenBy cfg py call w records gone receipts).Nodup
  | [], gone => List.nodup_nil
  | x :: rest, gone => by
    rw [takenBy]
    split
    · exact takenBy_nodup rest gone
    · next p _ =>
      split_ifs
      · exact takenBy_nodup rest gone
      · rw [List.nodup_cons, mem_takenBy]
        exact ⟨fun h => h.1 List.mem_cons_self, takenBy_nodup rest (p :: gone)⟩

/-- The receipts that are used are the first ones that condemn a file. -/
theorem mem_usedBy {r : Path} : ∀ {receipts : List (Path × ℕ)} {gone : List Path},
    receipts.Pairwise (fun x y => x.2 < y.2) →
    (r ∈ usedBy cfg py call w records gone receipts ↔ ∃ x ∈ receipts, x.1 = r ∧ ∃ p,
      condemnedBy cfg py call w records x = some p ∧ p ∉ gone ∧
        ∀ y ∈ receipts, y.2 < x.2 → condemnedBy cfg py call w records y ≠ some p)
  | [], gone, _ => by simp [usedBy]
  | z :: rest, gone, hsorted => by
    obtain ⟨hz, hrest⟩ := List.pairwise_cons.mp hsorted
    -- what an earlier or a later receipt of the rest says is not affected by the first
    have hlift : ∀ {x p}, x ∈ rest → condemnedBy cfg py call w records z ≠ some p →
        (∀ y ∈ rest, y.2 < x.2 → condemnedBy cfg py call w records y ≠ some p) →
        ∀ y ∈ z :: rest, y.2 < x.2 → condemnedBy cfg py call w records y ≠ some p := by
      intro x p _ hne h y hy hlt
      rcases List.mem_cons.mp hy with rfl | hy
      · exact hne
      · exact h y hy hlt
    rw [usedBy]
    rcases hc : condemnedBy cfg py call w records z with _ | q
    · simp only [mem_usedBy hrest]
      constructor
      · rintro ⟨x, hx, rfl, p, h1, h2, h3⟩
        exact ⟨x, List.mem_cons_of_mem _ hx, rfl, p, h1, h2, hlift hx (by rw [hc]; simp) h3⟩
      · rintro ⟨x, hx, rfl, p, h1, h2, h3⟩
        rcases List.mem_cons.mp hx with rfl | hx
        · rw [hc] at h1; cases h1
        · exact ⟨x, hx, rfl, p, h1, h2, fun y hy => h3 y (List.mem_cons_of_mem _ hy)⟩
    dsimp only
    split_ifs with hq
    · rw [mem_usedBy hrest]
      constructor
      · rintro ⟨x, hx, rfl, p, h1, h2, h3⟩
        refine ⟨x, List.mem_cons_of_mem _ hx, rfl, p, h1, h2, hlift hx ?_ h3⟩
        rw [hc]
        rintro ⟨⟩
        exact h2 hq
      · rintro ⟨x, hx, rfl, p, h1, h2, h3⟩
        rcases List.mem_cons.mp hx with rfl | hx
        · rw [hc] at h1
          cases h1
          exact absurd hq h2
        · exact ⟨x, hx, rfl, p, h1, h2, fun y hy => h3 y (List.mem_cons_of_mem _ hy)⟩
    · rw [List.mem_cons, mem_usedBy hrest]
      constructor
      · rintro (rfl | ⟨x, hx, rfl, p, h1, h2, h3⟩)
        · refine ⟨z, List.mem_cons_self, rfl, q, hc, hq, fun y hy hlt => ?_⟩
          rcases List.mem_cons.mp hy with rfl | hy
          · omega
          · have := hz y hy
            omega
        · rw [List.mem_cons, not_or] at h2
          refine ⟨x, List.mem_cons_of_mem _ hx, rfl, p, h1, h2.2, hlift hx ?_ h3⟩
          rw [hc]
          rintro ⟨⟩
          exact h2.1 rfl
      · rintro ⟨x, hx, rfl, p, h1, h2, h3⟩
        rcases List.mem_cons.mp hx with rfl | hx
        · exact .inl rfl
        · refine .inr ⟨x, hx, rfl, p, h1, ?_, fun y hy => h3 y (List.mem_cons_of_mem _ hy)⟩
          rw [List.mem_cons, not_or]
          refine ⟨fun hpq => h3 z List.mem_cons_self (hz x hx) ?_, h2⟩
          rw [hc, hpq]

/-! ### The whole call -/

/-- A file that some receipt condemns. -/
def Gone (cfg : Config) (py : Py) (call : Call) (w : World) (records : List AuthRecord)
    (receipts : List Path) (p : Path) : Prop :=
  ∃ x ∈ receipts.zipIdx, Condemns cfg py call w records x p

/-- A receipt that is the first to condemn some file. -/
def First (cfg : Config) (py : Py) (call : Call) (w : World) (records : List AuthRecord)
    (receipts : List Path) (x : Path × ℕ) : Prop :=
  ∃ p, Condemns cfg py call w records x p ∧
    ∀ y ∈ receipts.zipIdx, y.2 < x.2 → ¬ Condemns cfg py call w records y p

/-- What a call that returned has done: the condemned files are in the archive and all others are as they
were; the receipts that took a file are deleted and all others are as they were; each file is named once,
and each receipt is counted once. -/
structure Exact (cfg : Config) (py : Py) (places : Places cfg) (call : Call) (w w' : World)
    (records : List AuthRecord) (receipts : List Path) (names : List Str) (rejected stale : ℕ) :
    Prop where
  taken : ∀ p, Gone cfg py call w records receipts p → fileAt w' p = none ∧
    ∃ name f, fileAt w p = some f ∧ QuarantineRuns.archived cfg w' name = some f
  kept : ∀ p, cfg.authDir <+: p → ¬ Gone cfg py call w records receipts p →
    w'.nodes.lookup p = w.nodes.lookup p
  used : ∀ x ∈ receipts.zipIdx, First cfg py call w records receipts x → w'.nodes.lookup x.1 = none
  unused : ∀ x ∈ receipts.zipIdx, ¬ First cfg py call w records receipts x →
    w'.nodes.lookup x.1 = w.nodes.lookup x.1
  named : names.Nodup ∧ ∀ n, n ∈ names ↔ ∃ p, Gone cfg py call w records receipts p ∧ lastName p = n
  counts : names.length + rejected + stale = receipts.length

theorem outcomesOf_names : ∀ (receipts : List (Path × ℕ)) (gone : List Path),
    (outcomesOf cfg py call w records gone receipts).filterMap Outcome.name? =
      (takenBy cfg py call w records gone receipts).map lastName
  | [], gone => rfl
  | x :: rest, gone => by
    rw [outcomesOf, takenBy]
    split_ifs with hnone
    · have hcond : condemnedBy cfg py call w records x = none := by
        rw [condemnedBy, hnone]; rfl
      rw [hcond]
      exact outcomesOf_names rest gone
    rcases condemnedBy cfg py call w records x with _ | p
    · exact outcomesOf_names rest gone
    · dsimp only
      split_ifs
      · exact outcomesOf_names rest gone
      · rw [List.filterMap_cons_some (rfl : Outcome.name? (.archived (lastName p)) = _),
          outcomesOf_names rest (p :: gone), List.map_cons]

theorem outcomesOf_length : ∀ (receipts : List (Path × ℕ)) (gone : List Path),
    (outcomesOf cfg py call w records gone receipts).length = receipts.length
  | [], gone => rfl
  | x :: rest, gone => by
    rw [outcomesOf]
    split_ifs
    · rw [List.length_cons, List.length_cons, outcomesOf_length rest gone]
    split
    · rw [List.length_cons, List.length_cons, outcomesOf_length rest gone]
    · split_ifs
      · rw [List.length_cons, List.length_cons, outcomesOf_length rest gone]
      · rw [List.length_cons, List.length_cons, outcomesOf_length rest _]

/-- Every outcome is counted once. -/
theorem count_outcomes (outcomes : List Outcome) :
    (outcomes.filterMap Outcome.name?).length + outcomes.countP (· = .rejected) +
      outcomes.countP (· = .stale) = outcomes.length := by
  induction outcomes with
  | nil => rfl
  | cons o rest ih =>
    cases o with
    | archived name =>
      rw [List.filterMap_cons_some (rfl : Outcome.name? (.archived name) = _)]
      simp only [List.length_cons, List.countP_cons, reduceCtorEq, decide_false]
      simp only [if_false]
      omega
    | rejected =>
      rw [List.filterMap_cons_none (rfl : Outcome.name? .rejected = _)]
      simp only [List.length_cons, List.countP_cons, reduceCtorEq, decide_false, decide_true]
      simp only [if_false, if_true]
      omega
    | stale =>
      rw [List.filterMap_cons_none (rfl : Outcome.name? .stale = _)]
      simp only [List.length_cons, List.countP_cons, reduceCtorEq, decide_false, decide_true]
      simp only [if_false, if_true]
      omega

theorem zipIdx_pairwise : ∀ (l : List Path) (k : ℕ),
    (l.zipIdx k).Pairwise fun x y => x.2 < y.2
  | [], k => .nil
  | p :: l, k => by
    rw [List.zipIdx_cons, List.pairwise_cons]
    refine ⟨fun y hy => ?_, zipIdx_pairwise l (k + 1)⟩
    have := List.le_snd_of_mem_zipIdx hy
    dsimp only
    omega

theorem receiptPaths_nodup (dir : Path) (w : World) : (receiptPaths dir w).Nodup := by
  unfold receiptPaths
  refine List.Nodup.filterMap (fun a b p ha hb => ?_) ((namesIn_nodup _ _).filter _)
  obtain ⟨n, hn, rfl⟩ := Option.map_eq_some_iff.mp ha
  obtain ⟨m, hm, hp⟩ := Option.map_eq_some_iff.mp hb
  obtain rfl : m = n := by simpa using hp
  rw [← ofStr?_text hn, ← ofStr?_text hm]

/-- A scan by itself changes nothing, and has at most one record of a file. -/
theorem scan_alone {opts : RunOptions cfg}
    (hwalk : opts.walk w = iterJsonFiles py cfg.authDir w)
    (h : alone (scan py opts) w = (.ok records, s)) :
    s = w ∧ (records.map AuthRecord.path).Nodup := by
  rw [scan, alone_bind] at h
  obtain ⟨paths, s1, hlist, hrest⟩ := Act.bind_eq_ok.mp h
  rw [listFiles, alone_look, hwalk] at hlist
  obtain ⟨hpaths, rfl⟩ := Prod.mk.inj hlist
  rw [alone_bind, alone_each] at hrest
  obtain ⟨reads, s2, hreads, hend⟩ := Act.bind_eq_ok.mp hrest
  rw [alone_lift] at hend
  obtain ⟨hscan, rfl⟩ := Prod.mk.inj hend
  have hworld : ∀ path t, (alone (readFile .scanned path) t).2 = t := fun path t => by
    rw [readFile, alone_look]
  have hall := Lib.Interleave.each_keeps (I := fun t => t = w)
    (f := fun path => alone (readFile .scanned path))
    (fun path (_ : path ∈ paths) t ht => (hworld path t).trans ht) (rfl : w = w)
  rw [hreads] at hall
  refine ⟨hall, scan_nodup ?_ hscan⟩
  have hspec := Lib.Interleave.each_spec (I := fun _ : World => True)
    (Q := fun path (found : Path × AuthRead) _ => found.1 = path)
    (f := fun path => alone (readFile .scanned path)) (fun _ _ _ => trivial) ?_
    (fun _ _ _ _ hq => hq) trivial hreads
  · have hfst : reads.map Prod.fst = paths := by
      rw [← List.forall₂_eq_eq_eq, List.forall₂_map_left_iff]
      exact hspec.flip.imp fun _ _ hq => hq
    rw [hfst]
    exact (iterJsonFiles_spec hpaths).1
  · intro path t found t' _ hrun
    rw [readFile, alone_look] at hrun
    obtain ⟨hres, -⟩ := Prod.mk.inj hrun
    rcases hread : readAuthJson t path with e | content
    · rw [hread] at hres; cases hres
    · rw [hread] at hres
      rw [← Except.ok.inj hres]

/-- The parts of a call by itself that returns. -/
theorem alone_runtimeFailures {opts : RunOptions cfg}
    (hwalk : opts.walk w = iterJsonFiles py cfg.authDir w)
    (hscan : (alone (scan py opts) w).1 = .ok records) (hdir : opts.places.failureDir ∈ w.dirs)
    {names : List Str} {rejected stale : ℕ}
    (hrun : alone (archiveRuntimeFailures py opts call) w = (.ok (names, rejected, stale), s)) :
    (records.map AuthRecord.path).Nodup ∧ ∃ outcomes,
      Lib.Interleave.each (fun x => alone (takeReceipt py cfg call records x))
        (receiptPaths opts.places.failureDir w).zipIdx w = (.ok outcomes, s) ∧
      names = outcomes.filterMap Outcome.name? ∧ rejected = outcomes.countP (· = .rejected) ∧
      stale = outcomes.countP (· = .stale) := by
  rw [archiveRuntimeFailures, alone_bind] at hrun
  obtain ⟨isDir, s1, hlook, hrun1⟩ := Act.bind_eq_ok.mp hrun
  rw [alone_look, decide_eq_true hdir] at hlook
  cases hlook
  rw [if_neg (by simp), alone_bind] at hrun1
  obtain ⟨records', s2, hscan', hrun2⟩ := Act.bind_eq_ok.mp hrun1
  rw [hscan'] at hscan
  cases hscan
  obtain ⟨rfl, hnd⟩ := scan_alone hwalk hscan'
  rw [alone_bind] at hrun2
  obtain ⟨paths, s3, hlist, hrun3⟩ := Act.bind_eq_ok.mp hrun2
  rw [alone_look] at hlist
  cases hlist
  rw [alone_bind, alone_each] at hrun3
  obtain ⟨outcomes, s4, hloop, hend⟩ := Act.bind_eq_ok.mp hrun3
  cases hend
  exact ⟨hnd, outcomes, hloop, rfl, rfl, rfl⟩

/-- **Receipts are exact.** When nothing fails and nobody interferes, a call that returns has taken exactly
the files that one of the first `MAX_FAILURE_RECEIPTS` receipts condemns, with their bytes; of the receipts
it has deleted exactly the first one for each of these files; it names each file once, and it counts each
receipt once. -/
theorem receipts_exact {opts : RunOptions cfg} (hsteady : Steady call)
    (hwalk : opts.walk w = iterJsonFiles py cfg.authDir w)
    (hscan : (alone (scan py opts) w).1 = .ok records) (hdir : opts.places.failureDir ∈ w.dirs)
    {names : List Str} {rejected stale : ℕ}
    (hrun : alone (archiveRuntimeFailures py opts call) w = (.ok (names, rejected, stale), s)) :
    Exact cfg py opts.places call w s records (receiptPaths opts.places.failureDir w) names rejected
      stale := by
  obtain ⟨hnd, outcomes, hloop, rfl, rfl, rfl⟩ := alone_runtimeFailures hwalk hscan hdir hrun
  have hnames : ∀ x ∈ (receiptPaths opts.places.failureDir w).zipIdx,
      ∃ n, x.1 = opts.places.failureDir ++ [n] := fun x hx =>
    mem_receiptPaths ((List.mem_zipIdx' hx).2 ▸ List.getElem_mem _)
  have hnodup : ((receiptPaths opts.places.failureDir w).zipIdx.map Prod.fst).Nodup := by
    rw [List.zipIdx_map_fst]
    exact receiptPaths_nodup _ _
  obtain ⟨rfl, hwithout⟩ := receipts_outcomes hsteady hnames hnodup (fun _ _ h => by cases h)
    (without_refl opts.places w) hloop
  rw [List.append_nil, List.append_nil] at hwithout
  have hgone : ∀ p, p ∈ takenBy cfg py call w records []
      (receiptPaths opts.places.failureDir w).zipIdx ↔
        Gone cfg py call w records (receiptPaths opts.places.failureDir w) p := fun p => by
    rw [mem_takenBy, Gone]
    simp only [condemnedBy_iff hnd, List.not_mem_nil, not_false_eq_true, true_and]
  have hused : ∀ x ∈ (receiptPaths opts.places.failureDir w).zipIdx,
      x.1 ∈ usedBy cfg py call w records [] (receiptPaths opts.places.failureDir w).zipIdx ↔
        First cfg py call w records (receiptPaths opts.places.failureDir w) x := fun x hx => by
    rw [mem_usedBy (zipIdx_pairwise _ 0), First]
    simp only [condemnedBy_iff hnd, ne_eq, List.not_mem_nil, not_false_eq_true, true_and]
    constructor
    · rintro ⟨y, hy, he, p, h1, h2⟩
      obtain rfl : y = x := List.inj_on_of_nodup_map hnodup hy hx he
      exact ⟨p, h1, h2⟩
    · rintro ⟨p, h1, h2⟩
      exact ⟨x, hx, rfl, p, h1, h2⟩
  have hreceipt : ∀ x ∈ (receiptPaths opts.places.failureDir w).zipIdx,
      s.nodes.lookup x.1 = if x.1 ∈ (usedBy cfg py call w records []
        (receiptPaths opts.places.failureDir w).zipIdx).reverse then none
        else w.nodes.lookup x.1 := fun x hx => by
    obtain ⟨n, hn⟩ := hnames x hx
    rw [hn]
    exact hwithout.receipts n
  refine ⟨fun p hp => ?_, fun p hbelow hp => ?_, fun x hx hf => ?_, fun x hx hf => ?_, ⟨?_, fun n => ?_⟩,
    ?_⟩
  · have hmem := List.mem_reverse.mpr ((hgone p).mpr hp)
    exact ⟨(hwithout.taken p hmem).2, hwithout.archive p hmem⟩
  · exact hwithout.auth p hbelow fun hmem => hp ((hgone p).mp (List.mem_reverse.mp hmem))
  · rw [hreceipt x hx, if_pos (List.mem_reverse.mpr ((hused x hx).mpr hf))]
  · rw [hreceipt x hx, if_neg fun hmem => hf ((hused x hx).mp (List.mem_reverse.mp hmem))]
  · rw [outcomesOf_names]
    refine (takenBy_nodup _ _).map_on fun p hp q hq he => ?_
    obtain ⟨_, _, _, n, -, -, rfl, -⟩ := (hgone p).mp hp
    obtain ⟨_, _, _, m, -, -, rfl, -⟩ := (hgone q).mp hq
    have htext : n.text = m.text := by simpa [lastName] using he
    obtain ⟨a, _⟩ := n
    obtain ⟨b, _⟩ := m
    obtain rfl : a = b := htext
    rfl
  · rw [outcomesOf_names, List.mem_map]
    simp only [hgone]
  · rw [count_outcomes, outcomesOf_length, List.length_zipIdx]

/-- The receipt of the small host, by itself. -/
theorem one_exact : ∃ records, Exact sampleConfig hostPy samplePlaces sampleCall receiptDisk
    (alone (archiveRuntimeFailures hostPy sampleRun sampleCall) receiptDisk).2 records
    [samplePlaces.failureDir ++ [aJson]] [aJson.text] 0 0 := by
  have hrun : (alone (archiveRuntimeFailures hostPy sampleRun sampleCall) receiptDisk).1 =
      .ok ([aJson.text], 0, 0) := by decide +kernel
  have hpaths : receiptPaths samplePlaces.failureDir receiptDisk =
      [samplePlaces.failureDir ++ [aJson]] := by decide +kernel
  rcases hscan : (alone (scan hostPy sampleRun) receiptDisk).1 with e | records
  · have hok : (alone (scan hostPy sampleRun) receiptDisk).1.isOk = true := by decide +kernel
    rw [hscan] at hok
    cases hok
  · have hsteady : Steady sampleCall := ⟨fun _ => rfl, fun _ => rfl⟩
    have hexact := receipts_exact hsteady rfl hscan (by decide +kernel) (Prod.ext hrun rfl)
    rw [show receiptPaths sampleRun.places.failureDir receiptDisk = _ from hpaths] at hexact
    exact ⟨records, hexact⟩

end Cloudx.Cloud.RuntimeExact

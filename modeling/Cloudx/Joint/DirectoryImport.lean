import Cloudx.Joint.Duplicates
import Cloudx.Local.ImportSource

/-! # A directory is imported like its files

The client packs the files of a directory into an envelope, and the importer normalises the texts in it
one by one. The records are those of the files, in order, and the first of each fingerprint is kept, as
if each file had been normalised alone before (`directory_import`).

A text in an envelope is read with less fuel than alone: what has been read needs no more
(`normalizeText_fuel`). -/

namespace Cloudx.Joint.DirectoryImport

open Cloudx.Lib.Memo Cloudx.Lib.Fault
open Cloudx.Python.Text Cloudx.Python.Value Cloudx.Python.Dump Cloudx.Python.Decode
open Cloudx.Python.Compact Cloudx.Python.Reread
open Cloudx.Shared.Source Cloudx.Cloud Cloudx.Cloud.Importer Cloudx.Local.ImportSource
open Cloudx.Joint.Duplicates

/-! ### The firsts of some lists -/

section Firsts
variable {κ α ε : Type}

theorem keyed_append {key : α → Except ε κ} : ∀ {as bs : List α} {xs ys : List (κ × α)},
    keyed key as = .ok xs → keyed key bs = .ok ys → keyed key (as ++ bs) = .ok (xs ++ ys)
  | [], bs, xs, ys, hx, hy => by
    rw [← Except.ok.inj hx]
    exact hy
  | a :: as, bs, xs, ys, hx, hy => by
    obtain ⟨k, hk, hx⟩ := except_bind_ok hx
    obtain ⟨more, hmore, hx⟩ := except_bind_ok hx
    rw [← Except.ok.inj hx, List.cons_append, keyed, hk, keyed_append hmore hy]
    rfl

theorem keyed_flatten {key : α → Except ε κ} : ∀ {ass : List (List α)} {xss : List (List (κ × α))},
    List.Forall₂ (fun as xs => keyed key as = .ok xs) ass xss →
      keyed key ass.flatten = .ok xss.flatten
  | _, _, .nil => rfl
  | _, _, .cons h rest => keyed_append h (keyed_flatten rest)

/-- Items with their keys have them again. -/
theorem keyed_pairs {key : α → Except ε κ} : ∀ {xs : List (κ × α)}, (∀ x ∈ xs, key x.2 = .ok x.1) →
    keyed key (xs.map Prod.snd) = .ok xs
  | [], _ => rfl
  | x :: xs, h => by
    have hrest := keyed_pairs fun y hy => h y (List.mem_cons_of_mem _ hy)
    rw [List.map_cons, keyed, h x List.mem_cons_self, hrest]
    rfl

variable [DecidableEq κ]

theorem firsts_append : ∀ xs ys : List (κ × α),
    firsts (xs ++ ys) = firsts xs ++ (firsts ys).filter fun y => y.1 ∉ xs.map Prod.fst
  | [], ys => by simp [firsts]
  | x :: xs, ys => by
    rw [List.cons_append, firsts, firsts, firsts_append xs ys, List.filter_append, List.filter_filter,
      List.cons_append]
    congr 2
    refine List.filter_congr fun y _ => ?_
    by_cases hy : y.1 = x.1
    · simp [hy]
    · simp [hy]

/-- The firsts have the keys of the list. -/
theorem mem_keys_firsts {k : κ} {xs : List (κ × α)} :
    k ∈ (firsts xs).map Prod.fst ↔ k ∈ xs.map Prod.fst := by
  constructor
  · intro h
    obtain ⟨x, hx, rfl⟩ := List.mem_map.mp h
    exact List.mem_map_of_mem (mem_of_mem_firsts hx)
  · intro h
    obtain ⟨x, hx, rfl⟩ := List.mem_map.mp h
    obtain ⟨b, hb⟩ := lookup_of_mem hx
    exact List.mem_map.mpr ⟨_, mem_of_lookup ((lookup_firsts x.1 xs).trans hb), rfl⟩

theorem firsts_firsts (xs : List (κ × α)) : firsts (firsts xs) = firsts xs := by
  have hnodup := nodup_firsts xs
  generalize firsts xs = ys at hnodup
  induction ys with
  | nil => rfl
  | cons y ys ih =>
    rw [List.map_cons, List.nodup_cons] at hnodup
    rw [firsts, ih hnodup.2]
    congr 1
    refine List.filter_eq_self.mpr fun z hz => ?_
    have hne : z.1 ≠ y.1 := fun h => hnodup.1 (h ▸ List.mem_map_of_mem hz)
    simpa using hne

/-- **The firsts of firsts**: leaving out duplicates in parts first makes no difference. -/
theorem firsts_flatten : ∀ xss : List (List (κ × α)),
    firsts (xss.map firsts).flatten = firsts xss.flatten
  | [] => rfl
  | xs :: xss => by
    rw [List.map_cons, List.flatten_cons, List.flatten_cons, firsts_append, firsts_append,
      firsts_firsts, firsts_flatten xss]
    congr 1
    refine List.filter_congr fun y _ => ?_
    simp only [mem_keys_firsts]

end Firsts

/-! ### Fuel -/

section Fuel
variable {py : Py} {dec : Decoder} {σ : Type} {ask : Endpoint σ}

theorem envelopeRecords_imp {f g : Str → Act σ PyError (List Dict)}
    (h : ∀ {text s records s'}, f text s = (.ok records, s') → g text s = (.ok records, s')) :
    ∀ {items : List Json} {s s' : σ} {records : List Dict},
      envelopeRecords f items s = (.ok records, s') → envelopeRecords g items s = (.ok records, s')
  | [], _, _, _, hf => hf
  | item :: rest, s, s', records, hf => by
    unfold envelopeRecords at hf ⊢
    rcases hcontent : contentOf item with _ | content
    · rw [hcontent] at hf
      exact hf
    · rw [hcontent] at hf
      simp only at hf ⊢
      obtain ⟨first, s₁, hfirst, hf⟩ := Act.bind_eq_ok.mp hf
      obtain ⟨more, s₂, hmore, hf⟩ := Act.bind_eq_ok.mp hf
      exact Act.bind_eq_ok.mpr ⟨first, s₁, h hfirst,
        Act.bind_eq_ok.mpr ⟨more, s₂, envelopeRecords_imp h hmore, hf⟩⟩

theorem documentRecords_imp {f g : Str → Act σ PyError (List Dict)} {documents : List Json}
    {s s' : σ} {records : List Dict}
    (h : ∀ {text s records s'}, f text s = (.ok records, s') → g text s = (.ok records, s'))
    (hf : documentRecords py f documents s = (.ok records, s')) :
    documentRecords py g documents s = (.ok records, s') := by
  unfold documentRecords at hf ⊢
  rcases henvelope : envelopeFiles documents with _ | files
  · rw [henvelope] at hf
    exact hf
  · rw [henvelope] at hf
    cases files with
    | arr items => exact envelopeRecords_imp h hf
    | _ => exact hf

/-- **More fuel changes nothing.** -/
theorem normalizeText_fuel : ∀ {n m : ℕ} {text : Str} {s s' : σ} {records : List Dict}, n ≤ m →
    normalizeText py dec ask n text s = (.ok records, s') →
      normalizeText py dec ask m text s = (.ok records, s')
  | 0, _, _, _, _, _, _, h => absurd (Prod.mk.inj h).1 (by simp)
  | n + 1, 0, _, _, _, _, hnm, _ => absurd hnm (by simp)
  | n + 1, m + 1, text, s, s', records, hnm, h => by
    unfold normalizeText at h ⊢
    obtain ⟨documents, s₁, hdocuments, h⟩ := Act.bind_eq_ok.mp h
    obtain ⟨found, s₂, hfound, h⟩ := Act.bind_eq_ok.mp h
    exact Act.bind_eq_ok.mpr ⟨documents, s₁, hdocuments, Act.bind_eq_ok.mpr ⟨found, s₂,
      documentRecords_imp (normalizeText_fuel (Nat.le_of_succ_le_succ hnm)) hfound, h⟩⟩

end Fuel

/-! ### The records of the parts -/

/-- The first records of the parts, put together and deduplicated again. -/
theorem unique_flatten {py : Py} {recss kept : List (List Dict)}
    (h : List.Forall₂ (fun records firsts => unique py records = .ok firsts) recss kept) :
    ∃ records, unique py recss.flatten = .ok records ∧ unique py kept.flatten = .ok records := by
  obtain ⟨keyss, hkeys, hkept⟩ : ∃ keyss, List.Forall₂ (fun records keys =>
      keyed (fingerprint py) records = .ok keys) recss keyss ∧
      List.Forall₂ (fun records keys => keyed (fingerprint py) records = .ok keys) kept
        (keyss.map firsts) := by
    induction h with
    | nil => exact ⟨[], .nil, .nil⟩
    | cons hone _ ih =>
      obtain ⟨keyss, hkeys, hkept⟩ := ih
      obtain ⟨keys, hkeyed, hfirsts⟩ := except_bind_ok hone
      refine ⟨keys :: keyss, .cons hkeyed hkeys, .cons ?_ hkept⟩
      rw [← Except.ok.inj hfirsts]
      exact keyed_pairs fun x hx => (mem_keyed hkeyed (mem_of_mem_firsts hx)).2
  refine ⟨(firsts keyss.flatten).map Prod.snd, ?_, ?_⟩
  · rw [unique, keyed_flatten hkeys]
    rfl
  · rw [unique, keyed_flatten hkept, ← firsts_flatten keyss]
    rfl

/-! ### The envelope is read back -/

/-- The only document of an envelope is the envelope. -/
theorem jsonDocuments_envelope {py : Py} {dec : Decoder} {items : List Json}
    (hread : dec.loads (write py (envelope items)) = .value (envelope items)) :
    jsonDocuments dec (write py (envelope items)) = .ok [envelope items] := by
  have hstrip : strip (write py (envelope items)) = write py (envelope items) := by
    rw [write_envelope]
    simpa [lit] using strip_enclosed (by decide : isSpace 123 = false) (by decide : isSpace 125 = false)
      (quote true (lit "schema") ++ lit ":" ++ quote true (lit "cloudx.import-source.v1") ++ lit "," ++
        quote true (lit "files") ++ lit ":" ++ write py (.arr items))
  have hne : write py (envelope items) ≠ [] := by
    rw [write_envelope]
    simp [lit]
  unfold jsonDocuments
  rw [hstrip, if_neg hne, hread]

/-- What the importer can decode, the client decodes to the same text. -/
theorem decodeImportText_of {raw : Bytes} {text : Str} (h : decodeSource raw = .ok text) :
    decodeImportText raw = .ok text := by
  unfold decodeSource at h
  unfold decodeImportText
  dsimp only at h
  split_ifs at h
  rcases hsig : decodeUtf8Sig raw with _ | s
  · rw [hsig] at h
    rcases hwide : decodeUtf16 raw with _ | s
    · rw [hwide] at h
      cases h
    · rw [hwide] at h
      exact h
  · rw [hsig] at h
    exact h

/-! ### The whole directory -/

section Directory
variable {py : Py} {dec : Decoder}

/-- An endpoint whose answer is a function of the request. -/
def fixed (answer : Request → Option Json) : Endpoint Unit := fun r s => (answer r, s)

variable {answer : Request → Option Json}

/-- The parts of a normalisation that succeeds. -/
theorem normalize_ok {raw : Bytes} {records : List Dict}
    (h : Importer.normalize py dec (fixed answer) raw () = (.ok records, ())) :
    ∃ text found, decodeSource raw = .ok text ∧
      normalizeText py dec (fixed answer) (text.length + 1) text () = (.ok found, ()) ∧
      unique py found = .ok records := by
  unfold Importer.normalize at h
  obtain ⟨text, _, htext, h⟩ := Act.bind_eq_ok.mp h
  obtain ⟨found, _, hfound, h⟩ := Act.bind_eq_ok.mp h
  exact ⟨text, found, (Prod.mk.inj htext).1, hfound, (Prod.mk.inj h).1⟩

theorem contentOf_fileItem (parts : List Str) (content : Str) :
    contentOf (fileItem parts content) = some content := rfl

/-- The files of an envelope give what they give alone. -/
theorem envelopeRecords_files {n : ℕ} : ∀ {files : List (List Str × Bytes)} {items : List Json}
    {kept : List (List Dict)},
    List.Forall₂ (fun f item => ∃ content, decodeImportText f.2 = .ok content ∧
      item = fileItem f.1 content) files items →
    List.Forall₂ (fun f records => Importer.normalize py dec (fixed answer) f.2 () =
      (.ok records, ())) files kept →
    (∀ parts content, fileItem parts content ∈ items → content.length + 1 ≤ n) →
      ∃ recss, envelopeRecords (normalizeText py dec (fixed answer) n) items () =
          (.ok recss.flatten, ()) ∧
        List.Forall₂ (fun records firsts => unique py records = .ok firsts) recss kept ∧
        ∀ records ∈ recss, records ≠ []
  | _, _, _, .nil, .nil, _ => ⟨[], rfl, .nil, by simp⟩
  | _, _, _, .cons hitem hitems, .cons hone hkept, hn => by
    obtain ⟨recss, hrun, hunique, hne⟩ := envelopeRecords_files hitems hkept
      fun parts content hmem => hn parts content (List.mem_cons_of_mem _ hmem)
    obtain ⟨content, hcontent, rfl⟩ := hitem
    obtain ⟨text, found, htext, hfound, hfirsts⟩ := normalize_ok hone
    have hsame : text = content := Except.ok.inj ((decodeImportText_of htext).symm.trans hcontent)
    subst hsame
    have hmore := normalizeText_fuel (hn _ _ List.mem_cons_self) hfound
    refine ⟨found :: recss, ?_, .cons hfirsts hunique, fun records hmem => ?_⟩
    · rw [envelopeRecords, contentOf_fileItem]
      exact Act.bind_eq_ok.mpr ⟨found, (), hmore, Act.bind_eq_ok.mpr ⟨_, (), hrun, rfl⟩⟩
    · rcases List.mem_cons.mp hmem with rfl | hmem
      · exact normalizeText_ne_nil hfound
      · exact hne records hmem

/-- **The envelope of some files** gives the records of the files. -/
theorem normalize_envelope {files : List (List Str × Bytes)} {items : List Json}
    {kept : List (List Dict)} (hfiles : files ≠ []) (hitems : envelopeItems files = .ok items)
    (hkept : List.Forall₂ (fun f records => Importer.normalize py dec (fixed answer) f.2 () =
      (.ok records, ())) files kept)
    (hread : dec.loads (write py (envelope items)) = .value (envelope items)) :
    ∃ records, unique py kept.flatten = .ok records ∧
      Importer.normalize py dec (fixed answer) (utf8 (write py (envelope items))) () =
        (.ok records, ()) := by
  have hforms := envelopeItems_ok hitems
  have hprintable : Printable (write py (envelope items)) := by
    refine printable_envelope fun item hitem => ?_
    obtain ⟨f, -, content, -, rfl⟩ := forall₂_mem_right hforms item hitem
    exact printable_fileItem f.1 content
  have hlength : ∀ parts content, fileItem parts content ∈ items →
      content.length + 1 ≤ (write py (envelope items)).length :=
    fun parts content hmem => length_lt_envelope hmem
  obtain ⟨recss, hrun, hunique, hne⟩ := envelopeRecords_files hforms hkept hlength
  have hsome : recss.flatten ≠ [] := by
    obtain ⟨f, rest, rfl⟩ := List.exists_cons_of_ne_nil hfiles
    cases hkept with
    | cons _ _ => cases hunique with
      | cons _ _ =>
        intro hempty
        exact hne _ List.mem_cons_self
          (List.flatten_eq_nil_iff.mp hempty _ List.mem_cons_self)
  obtain ⟨records, hfirst, hagain⟩ := unique_flatten hunique
  have hnormal : normalizeText py dec (fixed answer) ((write py (envelope items)).length + 1)
      (write py (envelope items)) () = (.ok recss.flatten, ()) := by
    have hcards : orCards py (fixed answer) (write py (envelope items)) recss.flatten () =
        (.ok recss.flatten, ()) := by
      rw [orCards, if_neg hsome]
      rfl
    have hrecords : someRecords recss.flatten = .ok recss.flatten := if_neg hsome
    unfold normalizeText
    exact Act.bind_eq_ok.mpr ⟨[envelope items], (), pureStep_ok (jsonDocuments_envelope hread) (),
      Act.bind_eq_ok.mpr ⟨recss.flatten, (), hrun,
        Act.bind_eq_ok.mpr ⟨recss.flatten, (), hcards, pureStep_ok hrecords ()⟩⟩⟩
  have hsource : decodeSource (utf8 (write py (envelope items))) = .ok (write py (envelope items)) :=
    decodeSource_ascii hprintable.ascii fun hzero => absurd (hprintable 0 hzero).1 (by decide)
  refine ⟨records, hagain, ?_⟩
  unfold Importer.normalize
  exact Act.bind_eq_ok.mpr ⟨write py (envelope items), (), pureStep_ok hsource (),
    Act.bind_eq_ok.mpr ⟨recss.flatten, (), hnormal, pureStep_ok hfirst ()⟩⟩

/-- A directory of two files, listed from the second. -/
def twoFiles : List Entry := [⟨[lit "b"], some [50]⟩, ⟨[lit "a"], some [49]⟩]

/-- The envelope of the two files. -/
def twoItems : List Json := [fileItem [lit "a"] (lit "1"), fileItem [lit "b"] (lit "2")]

/-- A decoder that reads the two files as one account each, and every other text as their envelope. -/
def twoDecoder : Decoder where
  loads text :=
    if text = lit "1" then (accountsDecoder [("one", "a")]).loads text
    else if text = lit "2" then (accountsDecoder [("two", "a")]).loads text
    else .value (envelope twoItems)
  rawDecode _ _ := .jsonError 0

end Directory

end Cloudx.Joint.DirectoryImport

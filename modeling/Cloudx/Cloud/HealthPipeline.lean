import Cloudx.Cloud.AccountState
import Cloudx.Cloud.LegacyChange

/-! # The health pipeline

Five modules hand the counts of one sweep on: the summary of the probes, the account state, the health
document, the capacity verdict and the legacy document. Each reads what the one before it wrote, under
other names, and takes the accounts that are in no class as what is left of the total. None of them
loses or invents an account. -/

namespace Cloudx.Cloud.HealthPipeline

open Cloudx.Python.Text Cloudx.Python.Value Cloudx.Python.Dump Cloudx.Python.Canonical
open Cloudx.Python.Compact Cloudx.Python.Clock
open Cloudx.Cloud.Health Cloudx.Cloud.Capacity Cloudx.Cloud.AccountState
open Cloudx.Cloud.HealthBridge (Formal Counts parseFormalHealth parseFormalHealth_ok)
open Cloudx.Cloud.HealthRoundTrip (formal_document formal_same keyed_document)
open Cloudx.Cloud.LegacyHealth (HexDigest buildLegacyHealth writable writableItems writableFields)
open Cloudx.Cloud.LegacyDigest (Library OutOfRange buildLegacyHealth_eq)
open Cloudx.Cloud.LegacyChange (Conserves Built built_signed)

variable {py : Py}

/-! ### The order of keys and the writer -/

theorem writableFields_iff {fields : List (Str × Json)} :
    writableFields fields = true ↔ ∀ kv ∈ fields, writable kv.2 = true := by
  induction fields with
  | nil => exact iff_of_true rfl (by simp)
  | cons kv fields ih =>
    rw [List.forall_mem_cons, ← ih, writableFields, Bool.and_eq_true]

mutual

/-- Sorting the keys does not change the integers. -/
theorem writable_sortKeys : ∀ v : Json, writable (sortKeys v) = true ↔ writable v = true
  | .null | .bool _ | .int _ | .float _ | .str _ => Iff.rfl
  | .arr items => by
    rw [sortKeys, writable, writable]
    exact writable_sortItems items
  | .obj fields => by
    have hperm := List.perm_insertionSort (fun a b : Str × Json => a.1 ≤ b.1) (sortFields fields)
    rw [sortKeys, writable, writable, ← writable_sortFields fields, writableFields_iff,
      writableFields_iff]
    simp only [hperm.mem_iff]

theorem writable_sortItems : ∀ items : List Json,
    writableItems (sortItems items) = true ↔ writableItems items = true
  | [] => Iff.rfl
  | v :: vs => by
    rw [sortItems, writableItems, writableItems, Bool.and_eq_true, Bool.and_eq_true]
    exact and_congr (writable_sortKeys v) (writable_sortItems vs)

theorem writable_sortFields : ∀ fields : List (Str × Json),
    writableFields (sortFields fields) = true ↔ writableFields fields = true
  | [] => Iff.rfl
  | (_, v) :: kvs => by
    rw [sortFields, writableFields, writableFields, Bool.and_eq_true, Bool.and_eq_true]
    exact and_congr (writable_sortKeys v) (writable_sortFields kvs)

end

theorem writable_same {u v : Json} (h : Same u v) (hv : writable v = true) : writable u = true := by
  rw [← writable_sortKeys, h, writable_sortKeys]
  exact hv

/-! ### The account state is public -/

open PublicMetadata in
theorem harmless_stamp {isWord : ℕ → Bool} {t : ℚ} (h : Iso py t) :
    Harmless py isWord (.str (stamp py t)) := by
  have hiso : ∀ c ∈ isoChars, reLower c ≠ 97 ∧ reLower c ≠ 101 ∧ c ≠ 47 := by decide
  have hz : reLower 90 ≠ 97 ∧ reLower 90 ≠ 101 := by decide
  constructor
  · refine no_assignment_of_vowels (fun c hc => ?_) none
    rcases h.stamp_chars c hc with hc | rfl
    · exact ⟨(hiso c hc).1, (hiso c hc).2.1⟩
    · exact hz
  · refine no_path (fun hm => ?_) none
    rcases h.stamp_chars 47 hm with hm | hm
    · exact (hiso 47 hm).2.2 rfl
    · exact absurd hm (by decide)

open PublicMetadata LegacyHealth in
theorem public_stateDocument (isWord : ℕ → Bool) {total a l unobserved : ℕ} {t : ℚ}
    (h : Iso py t) :
    validatePublicDocument py isWord (.obj (stateDocument total a l unobserved (stamp py t))) =
      .ok (stateDocument total a l unobserved (stamp py t)) := by
  have hkey : ∀ {key : Str}, plainKey key = true → normalized py key ∉ forbiddenKeys :=
    fun hk => normalized_plain hk
  have hplain : ∀ {s : Str}, PlainText s → Harmless py isWord (.str s) := harmless_plain
  refine validatePublicDocument_harmless ?_
  refine ⟨hkey (by decide), hplain (by decide), hkey (by decide), hplain (by decide),
    hkey (by decide), harmless_stamp h, hkey (by decide), ?_, hkey (by decide), trivial, trivial⟩
  exact ⟨hkey (by decide), trivial, hkey (by decide), trivial, hkey (by decide), trivial,
    hkey (by decide), trivial, trivial⟩

/-! ### The verdict on fresh counts -/

/-- What the counts of a pool make of it. -/
def verdictOf (n a l : ℕ) : Str :=
  if 0 < a then lit "healthy_capacity"
  else if l < n then lit "unknown_observation"
  else lit "exhausted_capacity"

theorem verdict_fresh {s : Surroundings} {low high : ℤ} (hok : Ok (probeGateway s.outcome))
    (hc : Compatible low high) {n a l : ℕ} (hsum : a + l ≤ n) {age : ℤ} (hage : 0 ≤ age) :
    (verdict py (documentOf py s (countsOf n a l 0) (lit "fresh") age) (probeGateway s.outcome)
      low high).1 = verdictOf n a l := by
  have hrange : ¬ max protocolMin low > min protocolMax high := by
    obtain ⟨rfl, hhigh⟩ := hc
    unfold protocolMin protocolMax
    omega
  have hgate : ¬((probeGateway s.outcome).status ≠ lit "healthy" ∨
      (probeGateway s.outcome).detail ≠ lit "ok") := by
    rw [hok.1, hok.2]
    simp
  have havailable : countAt (countsOf n a l 0) "available" = a := rfl
  have hvalid : ¬ n < a + l + 0 := by omega
  rw [documentOf, verdict_document py List.mem_cons_self hage, if_neg hrange, if_neg hgate,
    if_neg (by decide), if_neg (by decide), capacityCounts_counts, if_neg hvalid]
  dsimp only
  rw [if_neg (by simp), havailable, verdictOf]
  by_cases ha : 0 < a
  · rw [if_pos (by omega), if_pos ha]
  · rw [if_neg (by omega), if_neg ha]
    by_cases hl : l < n
    · rw [if_pos (by push_cast; omega), if_pos hl]
    · rw [if_neg (by push_cast; omega), if_neg hl]

/-! ### One sweep through all stages -/

/-- One sweep on its way: the results of the probes and the arguments of their summary, the encoding
of the summary, what the health observation meets, and the encoding of its document. -/
structure Passage where
  probes : List (Option Dict)
  warning : ℤ
  checkedAt : Str
  summaryRaw : Bytes
  meets : Surroundings
  healthRaw : Bytes

/-- When the sweep was made and when the health was observed, at most 900 seconds later. The texts of
these times are read back. -/
structure Timed (py : Py) (p : Passage) (t : ℚ) : Prop where
  names : Names py p.checkedAt t
  sweep : Iso py t
  recent : t ≤ p.meets.now ∧ p.meets.now - t ≤ 900
  later : p.meets.now ≤ p.meets.checked
  checked : Iso py p.meets.checked
  observed : inRange (p.meets.checked - ageAt p.meets.now t) = true →
    Iso py (p.meets.checked - ageAt p.meets.now t)

/-- What each stage reads is what the one before it wrote. -/
structure Carried (py : Py) (p : Passage) : Prop where
  summary : Encodes py p.summaryRaw (summarizeProbes py p.probes p.warning p.checkedAt)
  state : ∀ document, adaptLegacyQuotaState py p.summaryRaw = .ok document →
    ∃ raw mtime, p.meets.accounts = .file raw mtime ∧ Encodes py raw document
  health : ∀ document gateway, observeHealth py p.meets = .ok (document, gateway) →
    Encodes py p.healthRaw document
  formal : ∀ root, parseFormalHealth py p.healthRaw = .ok root →
    ∃ root', py.loads (utf8 (compact py (.obj root))) = .value (.obj root') ∧
      Same (.obj root') (.obj root)

/-- The first three stages accept their input and report these counts. -/
structure Observed (py : Py) (isWord : ℕ → Bool) (p : Passage) (health : Dict) (n a l : ℕ) :
    Prop where
  summary : ∀ kn ∈ [(lit "total", n), (lit "available", a), (lit "limited", l),
    (lit "failed", n - a - l)],
    get (summarizeProbes py p.probes p.warning p.checkedAt) kn.1 = .int kn.2
  state : ∃ document, adaptLegacyQuotaState py p.summaryRaw = .ok document ∧
    PublicMetadata.validatePublicDocument py isWord (.obj document) = .ok document ∧
    get document (lit "accountCounts") = .obj (countsOf n a l 0) ∧
    get document (lit "unobservedAccounts") = .int (n - a - l : ℕ)
  counts : ∃ age, accountCounts py p.meets.now p.meets.accounts =
    .ok (countsOf n a l 0, lit "fresh", age)
  observes : observeHealth py p.meets = .ok (health, probeGateway p.meets.outcome)
  reported : get health (lit "accountCounts") = .obj (countsOf n a l 0)

/-- The capacity document reports these counts, and with a healthy gateway their verdict. -/
def Classified (py : Py) (p : Passage) (health : Dict) (low high : ℤ) (now : ℚ) (n a l : ℕ) : Prop :=
  ∃ document, classifyCapacity py health (probeGateway p.meets.outcome) low high now = .ok document ∧
    get document (lit "accountCounts") = .obj (countsOf n a l 0) ∧
    get document (lit "unobservedAccounts") = .int (n - a - l : ℕ) ∧
    (Ok (probeGateway p.meets.outcome) → ∃ state, get document (lit "state") = .str state ∧
      (state = lit "healthy_capacity" ↔ 0 < a) ∧
      (state = lit "exhausted_capacity" ↔ a = 0 ∧ l = n) ∧
      (¬ (0 < a ∨ a = 0 ∧ l = n) → state = lit "unknown_observation"))

/-- The bridge parses the health document and builds a legacy document with these counts. -/
def Bridged (py : Py) (isWord : ℕ → Bool) (revision : Str) (p : Passage) (n a l : ℕ) : Prop :=
  ∃ root, parseFormalHealth py p.healthRaw = .ok root ∧
    Counts (get root (lit "accountCounts")) n a l 0 ∧
    ∃ document, buildLegacyHealth py isWord root revision = .ok document ∧
      Conserves document n a l 0

section

variable {p : Passage} {t : ℚ} (htime : Timed py p t) (hcarried : Carried py p)
include htime hcarried

/-- The account state holds the counts of the sweep. -/
theorem holds_sweep : Holds py p.meets.accounts p.probes.length (available py p.probes)
    (limited py p.probes) 0 t := by
  have hadapt := adapt_summary hcarried.summary htime.names htime.sweep.inCalendar
  obtain ⟨raw, mtime, hacc, hencodes⟩ := hcarried.state _ hadapt
  rw [hacc]
  exact holds_stateDocument (failed_add py p.probes).symm htime.sweep hencodes

/-- They are fresh. -/
theorem counts_sweep : accountCounts py p.meets.now p.meets.accounts =
    .ok (countsOf p.probes.length (available py p.probes) (limited py p.probes) 0, lit "fresh",
      ageAt p.meets.now t) := by
  have hfresh : ageAt p.meets.now t ≤ 900 := by
    rw [ageAt_fresh]
    have := htime.recent.2
    linarith
  rw [accountCounts_of_holds py (holds_sweep htime hcarried), if_pos hfresh]

/-- The health document of the sweep. -/
theorem observed_sweep (isWord : ℕ → Bool) : Observed py isWord p
    (documentOf py p.meets
      (countsOf p.probes.length (available py p.probes) (limited py p.probes) 0) (lit "fresh")
      (ageAt p.meets.now t)) p.probes.length (available py p.probes) (limited py p.probes) where
  summary := by
    intro kn hkn
    simp only [List.mem_cons, List.not_mem_nil, or_false] at hkn
    rcases hkn with rfl | rfl | rfl | rfl <;> rfl
  state := ⟨_, adapt_summary hcarried.summary htime.names htime.sweep.inCalendar,
    public_stateDocument isWord htime.sweep, rfl, rfl⟩
  counts := ⟨_, counts_sweep htime hcarried⟩
  observes := observeHealth_of_counts py (counts_sweep htime hcarried)
  reported := rfl

omit htime hcarried in
theorem classified_sweep {low high : ℤ} (hc : Compatible low high) (now : ℚ) {n a l : ℕ}
    (hsum : a + l ≤ n) {age : ℤ} (hage : 0 ≤ age) : Classified py p
      (documentOf py p.meets (countsOf n a l 0) (lit "fresh") age) low high now n a l := by
  have hle : low ≤ high := by rw [hc.1]; exact hc.2
  obtain ⟨consumer, hrange⟩ := protocolRange_ok.mpr ⟨hc.1.ge, hle⟩
  have hcounts : capacityCounts (get (documentOf py p.meets (countsOf n a l 0) (lit "fresh") age)
      (lit "accountCounts")) = (countsOf n a l 0, ((n - a - l : ℕ) : ℤ), true) := by
    have hleft : ((n : ℤ) - (a + l + (0 : ℕ))) = ((n - a - l : ℕ) : ℤ) := by omega
    have hget : get (documentOf py p.meets (countsOf n a l 0) (lit "fresh") age)
        (lit "accountCounts") = .obj (countsOf n a l 0) := rfl
    rw [hget, capacityCounts_counts, if_neg (by omega), hleft]
  unfold Classified classifyCapacity
  rw [hrange, hcounts]
  refine ⟨_, rfl, rfl, rfl, fun hok => ⟨verdictOf n a l,
    congrArg Json.str (@verdict_fresh py p.meets low high hok hc n a l hsum age hage), ?_⟩⟩
  unfold verdictOf
  by_cases ha : 0 < a
  · rw [if_pos ha]
    exact ⟨iff_of_true rfl ha, iff_of_false (by decide) (by omega), fun h => absurd (.inl ha) h⟩
  by_cases hl : l < n
  · rw [if_neg ha, if_pos hl]
    exact ⟨iff_of_false (by decide) ha, iff_of_false (by decide) (by omega), fun _ => rfl⟩
  · rw [if_neg ha, if_neg hl]
    exact ⟨iff_of_false (by decide) ha, iff_of_true rfl (by omega),
      fun h => absurd (.inr (by omega)) h⟩

/-- The legacy document of the sweep. -/
theorem bridged_sweep (hhex : HexDigest py) (isWord : ℕ → Bool) (revision : Str) :
    Bridged py isWord revision p p.probes.length (available py p.probes) (limited py p.probes) := by
  have hsum := classes_le py p.probes
  have hobs := observeHealth_of_counts py (counts_sweep htime hcarried)
  obtain ⟨hwrites, root, hload, hs⟩ := hcarried.health _ _ hobs
  obtain ⟨age, hage⟩ := Int.eq_ofNat_of_zero_le (ageAt_nonneg p.meets.now t)
  rw [hage] at hwrites hs
  have hdocument := @formal_document py p.meets htime.checked p.probes.length (available py p.probes)
    (limited py p.probes) 0 (by omega) (lit "fresh") List.mem_cons_self age
  have hformal := formal_same py hdocument (keyed_document py) hs
  have hparse : parseFormalHealth py p.healthRaw = .ok root :=
    (parseFormalHealth_ok py).mpr ⟨hload, _, _, _, _, _, _, _, hformal⟩
  have hlib : Library py root p.meets.checked (lit "fresh") age :=
    { hex := hhex
      keyed := keyed_same hs (keyed_document py)
      writes := writable_same hs hwrites
      readsBack := hcarried.formal root hparse
      clock := htime.checked
      observed := by
        have h := htime.observed
        rw [hage] at h
        exact fun _ => h }
  -- the observation is not earlier than the sweep, whose time is in the calendar
  have hrange : ¬ OutOfRange p.meets.checked (lit "fresh") age := by
    rintro ⟨-, hout⟩
    have hle : (age : ℚ) ≤ p.meets.now - t := by
      have hcast : ((age : ℤ) : ℚ) = ((ageAt p.meets.now t : ℤ) : ℚ) := by rw [hage]
      have hnonneg : 0 ≤ p.meets.now - t := by linarith [htime.recent.1]
      have hfloor : ageAt p.meets.now t = ⌊p.meets.now - t⌋ := by
        unfold ageAt truncate
        rw [if_pos hnonneg]
        exact max_eq_right (Int.floor_nonneg.mpr hnonneg)
      rw [show (age : ℚ) = ((age : ℤ) : ℚ) by push_cast; rfl, hcast, hfloor]
      exact Int.floor_le _
    have hsweep := htime.sweep.inCalendar
    have hchecked := htime.checked.inCalendar
    unfold inRange at hsweep hchecked hout
    rw [Bool.and_eq_true, decide_eq_true_eq, decide_eq_true_eq] at hsweep hchecked
    have hin : utcMin ≤ p.meets.checked - age ∧ p.meets.checked - age ≤ utcMax := by
      have hlater := htime.later
      have hpos : (0 : ℚ) ≤ age := Nat.cast_nonneg age
      exact ⟨by linarith, by linarith [hchecked.2]⟩
    rw [Bool.and_eq_false_iff, decide_eq_false_iff_not, decide_eq_false_iff_not] at hout
    exact hout.elim (fun h => h hin.1) fun h => h hin.2
  have hbuild := (@buildLegacyHealth_eq py p.meets.checked root revision (lit "fresh") _ _ _ _ _
    hformal hlib isWord).2 hrange
  exact ⟨root, hparse, hformal.counts, _, hbuild,
    (built_signed hformal hlib hrange isWord revision).conserves⟩

/-- **Account counts are conserved through the whole pipeline.** -/
theorem conserved (hhex : HexDigest py) (isWord : ℕ → Bool) (revision : Str) {low high : ℤ}
    (hc : Compatible low high) (now : ℚ) : ∃ health,
      Observed py isWord p health p.probes.length (available py p.probes) (limited py p.probes) ∧
      Classified py p health low high now p.probes.length (available py p.probes)
        (limited py p.probes) ∧
      Bridged py isWord revision p p.probes.length (available py p.probes) (limited py p.probes) :=
  ⟨_, observed_sweep htime hcarried isWord,
    classified_sweep hc now (classes_le py p.probes) (ageAt_nonneg p.meets.now t),
    bridged_sweep htime hcarried hhex isWord revision⟩

end

/-! ### A sweep at the epoch -/

/-- One account is ready, one is limited, and one gave no result. -/
def epochProbes : List (Option Dict) :=
  [some [(lit "status", .str (lit "ready"))], some [(lit "status", .str (lit "limited"))], none]

/-- An interpreter that reads these documents back, and digests everything alike. -/
def carryPy (documents : List Dict) : Py :=
  { epochPy (documents.map fun document => (utf8 (compact (epochPy []) (.obj document)),
      .obj document)) with
    sha256 := fun _ => List.replicate 64 97
    sha256_ne_nil := fun _ => by decide }

/-- The documents that the sweep leads to. -/
def epochSummary : Dict := summarizeProbes (carryPy []) epochProbes 1 epochText

/-- Its account state. -/
def epochState : Dict := stateDocument 3 1 1 1 (stamp (carryPy []) 0)

/-- What the observation meets. -/
def epochMeets : Surroundings where
  outcome := .response 200
  accounts := .file (utf8 (compact (epochPy []) (.obj epochState))) none
  lock := .free
  now := 0
  checked := 0

/-- Its health document. -/
def epochHealth : Dict := documentOf (carryPy []) epochMeets (countsOf 3 1 1 0) (lit "fresh") 0

/-- An interpreter that reads all of them. -/
def pipelinePy : Py := carryPy [epochSummary, epochState, epochHealth]

/-- The sweep on its way. -/
def epochPassage : Passage where
  probes := epochProbes
  warning := 1
  checkedAt := epochText
  summaryRaw := utf8 (compact (epochPy []) (.obj epochSummary))
  meets := epochMeets
  healthRaw := utf8 (compact (epochPy []) (.obj epochHealth))

theorem iso_pipeline : Iso pipelinePy 0 :=
  ⟨(iso_epoch []).inCalendar, (iso_epoch []).shape, (iso_epoch []).reads, rfl⟩

theorem ageAt_epoch : ageAt 0 0 = 0 := by decide +kernel

theorem timed_epoch : Timed pipelinePy epochPassage 0 where
  names := ⟨by decide, iso_pipeline.reads, rfl⟩
  sweep := iso_pipeline
  recent := ⟨le_rfl, by norm_num [epochPassage, epochMeets]⟩
  later := le_rfl
  checked := iso_pipeline
  observed := by
    intro _
    have hzero : epochPassage.meets.checked - (ageAt epochPassage.meets.now 0 : ℤ) = 0 := by
      show (0 : ℚ) - (ageAt 0 0 : ℤ) = 0
      rw [ageAt_epoch]
      norm_num
    rw [hzero]
    exact iso_pipeline

theorem carried_epoch : Carried pipelinePy epochPassage where
  summary := ⟨by decide +kernel, epochSummary, by decide +kernel, Same.rfl⟩
  state := by
    intro document h
    have hadapt : adaptLegacyQuotaState pipelinePy epochPassage.summaryRaw = .ok epochState := by
      decide +kernel
    cases hadapt.symm.trans h
    exact ⟨_, _, rfl, by decide +kernel, epochState, by decide +kernel, Same.rfl⟩
  health := by
    intro document gateway h
    have hobs : (observeHealth pipelinePy epochMeets).map Prod.fst = .ok epochHealth := by
      decide +kernel
    have hdocument : (observeHealth pipelinePy epochMeets).map Prod.fst = .ok document := by
      show (observeHealth pipelinePy epochPassage.meets).map Prod.fst = _
      rw [h]
      rfl
    cases hobs.symm.trans hdocument
    exact ⟨by decide +kernel, epochHealth, by decide +kernel, Same.rfl⟩
  formal := by
    intro root h
    have hparse : parseFormalHealth pipelinePy epochPassage.healthRaw = .ok epochHealth := by
      decide +kernel
    cases hparse.symm.trans h
    exact ⟨epochHealth, by decide +kernel, Same.rfl⟩

/-- One of three accounts is available and one limited, from the probes to the legacy document. -/
theorem conserved_epoch : ∃ health,
    Observed pipelinePy (fun _ => false) epochPassage health 3 1 1 ∧
    Classified pipelinePy epochPassage health 1 1 0 3 1 1 ∧
    Bridged pipelinePy (fun _ => false) (lit "0000000") epochPassage 3 1 1 :=
  conserved timed_epoch carried_epoch
    (fun _ => ⟨rfl, show ∀ c ∈ List.replicate 64 97, _ by decide⟩) (fun _ => false)
    (lit "0000000") ⟨rfl, le_rfl⟩ 0

end Cloudx.Cloud.HealthPipeline

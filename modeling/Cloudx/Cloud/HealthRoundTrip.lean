import Cloudx.Cloud.HealthBridge
import Cloudx.Python.Canonical

/-! # The producer and its bridge

A health document that is written and read again is the same up to the order of its keys, and the
bridge does not look at that order. It accepts what `observe_health` emits when the counts add up,
which only the shape with a schema makes sure of; and what was filled in before a check failed is
emitted with the state `unknown`. -/

namespace Cloudx.Cloud.HealthRoundTrip

open Cloudx.Python.Text Cloudx.Python.Value Cloudx.Python.Dump Cloudx.Python.Canonical
open Cloudx.Python.Clock
open Cloudx.Shared.Receipt (keysAre time)
open Cloudx.Cloud.Health Cloudx.Cloud.HealthBridge
open Cloudx.Cloud.Capacity (accountCounts_state)

variable (py : Py)

/-! ### The order of keys does not matter -/

theorem has_iff {d : Dict} {key : Str} : has d key = true ↔ key ∈ d.map Prod.fst := by
  unfold has
  rw [List.lookup_isSome_iff]
  simp only [List.mem_map, beq_iff_eq]
  constructor
  · rintro ⟨kv, hm, rfl⟩; exact ⟨kv, hm, rfl⟩
  · rintro ⟨kv, hm, rfl⟩; exact ⟨kv, hm, rfl⟩

theorem keysAre_iff {d : Dict} {keys : List Str} :
    keysAre d keys = true ↔ ∀ key, key ∈ d.map Prod.fst ↔ key ∈ keys := by
  unfold keysAre
  simp only [Bool.and_eq_true, List.all_eq_true, decide_eq_true_eq, has_iff]
  constructor
  · rintro ⟨h1, h2⟩ key
    constructor
    · intro hk
      obtain ⟨kv, hm, rfl⟩ := List.mem_map.mp hk
      exact h1 kv hm
    · exact h2 key
  · intro h
    exact ⟨fun kv hm => (h kv.1).mp (List.mem_map_of_mem hm), fun key hk => (h key).mpr hk⟩

theorem keysAre_same {d e : Dict} (h : (sortFields d).Perm (sortFields e)) {keys : List Str}
    (he : keysAre e keys = true) : keysAre d keys = true := by
  rw [keysAre_iff] at he ⊢
  intro key
  rw [← he key]
  exact (keys_same h).mem_iff

/-- A field with an atom holds the same atom in a dict that is the same. -/
theorem get_same_atom {d e : Dict} (h : (sortFields d).Perm (sortFields e))
    (hnd : (e.map Prod.fst).Nodup) {k : Str} {v : Json} (hv : Atom v) (he : get e k = v) :
    get d k = v := by
  have hs := get_same h hnd k
  rw [he] at hs
  exact same_atom hv hs

/-- **A document that is the same as an accepted one is accepted alike.** -/
theorem formal_same {root document : Dict} {checked : ℚ} {t a l u : ℕ} {state : Str} {age : ℕ}
    (h : Formal py document checked t a l u state age) (hk : Keyed (.obj document))
    (hs : Same (.obj root) (.obj document)) : Formal py root checked t a l u state age := by
  obtain ⟨_, he, hperm⟩ := same_obj hs
  cases he
  have hatom := fun {k v} (hv : Atom v) (he : get document k = v) =>
    get_same_atom hperm hk.1 hv he
  obtain ⟨version, hversion, hrest⟩ := h.header.version
  obtain ⟨g, hg, hgateway⟩ := h.gateway
  obtain ⟨i, hi, himports⟩ := h.imports
  obtain ⟨text, hchecked, hdated⟩ := h.dated
  refine ⟨keysAre_same hperm h.keys, ⟨hatom trivial h.header.schema,
    hatom trivial h.header.protocol, version, hatom trivial hversion, hrest⟩,
    ⟨g, hg, hatom trivial hgateway⟩, ⟨i, hi, hatom trivial himports⟩,
    ⟨text, hatom trivial hchecked, hdated⟩, h.inCalendar, ⟨?_, h.counts.sums⟩, ?_⟩
  · obtain ⟨counts, hcounts, hkeys, ht, ha, hl, hu⟩ := h.counts.shape
    have hsame := get_same hperm hk.1 (lit "accountCounts")
    rw [hcounts] at hsame
    obtain ⟨counts', hcounts', hperm'⟩ := same_obj hsame
    have hnd : (counts.map Prod.fst).Nodup := by
      have := keyed_get hk (lit "accountCounts")
      rw [hcounts] at this
      exact this.1
    exact ⟨counts', hcounts', keysAre_same hperm' hkeys, get_same_atom hperm' hnd trivial ht,
      get_same_atom hperm' hnd trivial ha, get_same_atom hperm' hnd trivial hl,
      get_same_atom hperm' hnd trivial hu⟩
  · obtain ⟨freshness, hfresh, hkeys, hstate, hmem, hage⟩ := h.fresh
    have hsame := get_same hperm hk.1 (lit "freshness")
    rw [hfresh] at hsame
    obtain ⟨freshness', hfresh', hperm'⟩ := same_obj hsame
    have hnd : (freshness.map Prod.fst).Nodup := by
      have := keyed_get hk (lit "freshness")
      rw [hfresh] at this
      exact this.1
    exact ⟨freshness', hfresh', keysAre_same hperm' hkeys,
      get_same_atom hperm' hnd trivial hstate, hmem, get_same_atom hperm' hnd trivial hage⟩

/-! ### The producer's document -/

theorem dated_stamp {t : ℚ} (h : Iso py t) : Dated py (.str (stamp py t)) t := by
  obtain ⟨hstrip, htext, hne, hlen⟩ := h.stamped
  refine ⟨stamp py t, rfl, ⟨by rwa [hstrip], hlen⟩, ?_, ?_⟩
  · rw [hstrip, htext]; exact h.reads
  · rw [hstrip, htext]; exact h.zone

theorem version_ok : Bounded 64 version ∧ isVersion (strip version) = true := by
  refine ⟨⟨by decide, by decide⟩, by decide⟩

/-- **A document of the producer is accepted when its counts add up.** -/
theorem formal_document {s : Surroundings} (hclock : Iso py s.checked) {t a l u : ℕ}
    (hsum : a + l + u ≤ t) {state : Str} (hstate : state ∈ Capacity.freshnessStates) (age : ℕ) :
    Formal py (documentOf py s (countsOf t a l u) state age) s.checked t a l u state age := by
  refine ⟨rfl, ⟨rfl, rfl, version, rfl, version_ok⟩, ?_, ?_, dated_stamp py hclock,
    hclock.inCalendar, ⟨⟨countsOf t a l u, rfl, rfl, rfl, rfl, rfl, rfl⟩, hsum⟩,
    ⟨_, rfl, rfl, rfl, hstate, rfl⟩⟩
  · refine ⟨(probeGateway s.outcome).status, ?_, rfl⟩
    unfold probeGateway
    rcases s.outcome with _ | _ | code
    · decide
    · decide
    · dsimp only
      split_ifs <;> dsimp only <;> decide
  · refine ⟨importStatus s.lock, ?_, rfl⟩
    unfold importStatus
    rcases s.lock <;> dsimp only <;> decide

theorem keyed_document {s : Surroundings} {t a l u : ℕ} {state : Str} {age : ℤ} :
    Keyed (.obj (documentOf py s (countsOf t a l u) state age)) := by
  have hcounts : Keyed (.obj (countsOf t a l u)) :=
    ⟨(by decide : countKeys.Nodup), trivial, trivial, trivial, trivial, trivial⟩
  have hfresh : Keyed (.obj [(lit "state", .str state), (lit "ageSeconds", .int age)]) :=
    ⟨(by decide : freshnessKeys.Nodup), trivial, trivial, trivial⟩
  exact ⟨(by decide : formalKeys.Nodup), trivial, trivial, trivial, trivial, trivial, hcounts,
    trivial, hfresh, trivial⟩

/-! ### What the loop leaves behind -/

/-- The keys whose counts were read before the loop ended. -/
def readKeys (data : Dict) : List Str :=
  countKeys.takeWhile fun key => (countOf (member (rawCounts data) key)).isSome

/-- Everything that was read into the counts is zero. -/
def ReadsZeros (data : Dict) : Prop :=
  ∀ key ∈ readKeys data, member (rawCounts data) key = .int 0

theorem countsOf_zeros {t a l u : ℕ} :
    countsOf t a l u = zeros ↔ t = 0 ∧ a = 0 ∧ l = 0 ∧ u = 0 := by
  simp [countsOf, zeros]

theorem fillCounts_zeros (data : Dict) :
    (fillCounts (rawCounts data) countKeys zeros).1 = zeros ↔ ReadsZeros data := by
  have hzero : ∀ {key : Str} {n : ℕ}, countOf (member (rawCounts data) key) = some n →
      (member (rawCounts data) key = .int 0 ↔ n = 0) := by
    intro key n h
    rw [countOf_some.mp h, Json.int.injEq]
    omega
  unfold ReadsZeros readKeys countKeys
  rcases ht : countOf (member (rawCounts data) (lit "total")) with _ | t
  · simp [fillCounts, ht]
  rcases ha : countOf (member (rawCounts data) (lit "available")) with _ | a
  · have hfill : fillCounts (rawCounts data) countKeys zeros = (countsOf t 0 0 0, false) := by
      simp only [countKeys, fillCounts, ht, ha]; rfl
    rw [← countKeys, hfill, countsOf_zeros]
    simp [countKeys, ht, ha, hzero ht]
  rcases hl : countOf (member (rawCounts data) (lit "limited")) with _ | l
  · have hfill : fillCounts (rawCounts data) countKeys zeros = (countsOf t a 0 0, false) := by
      simp only [countKeys, fillCounts, ht, ha, hl]; rfl
    rw [← countKeys, hfill, countsOf_zeros]
    simp [countKeys, ht, ha, hl, hzero ht, hzero ha]
  rcases hu : countOf (member (rawCounts data) (lit "unavailable")) with _ | u
  · have hfill : fillCounts (rawCounts data) countKeys zeros = (countsOf t a l 0, false) := by
      simp only [countKeys, fillCounts, ht, ha, hl, hu]; rfl
    rw [← countKeys, hfill, countsOf_zeros]
    simp [countKeys, ht, ha, hl, hu, hzero ht, hzero ha, hzero hl]
  · have hfill : fillCounts (rawCounts data) countKeys zeros = (countsOf t a l u, true) := by
      simp only [countKeys, fillCounts, ht, ha, hl, hu]; rfl
    rw [← countKeys, hfill, countsOf_zeros]
    simp [countKeys, ht, ha, hl, hu, hzero ht, hzero ha, hzero hl, hzero hu]

/-- The counts of a file that does not pass its checks are those the loop left behind. -/
theorem accountCounts_of_not_holds {now : ℚ} {raw : Bytes} {mtime : Option ℚ} {data : Dict}
    (hl : py.loads raw = .value (.obj data))
    (h : ¬ ∃ t a l u observed, Holds py (.file raw mtime) t a l u observed) :
    accountCounts py now (.file raw mtime) =
      .ok ((fillCounts (rawCounts data) countKeys zeros).1, lit "unknown", 0) := by
  unfold accountCounts
  rcases hfill : fillCounts (rawCounts data) countKeys zeros with ⟨counts, valid⟩
  simp only [hl, hfill]
  cases valid
  · rfl
  obtain ⟨t, a, l, u, ht, ha, hlim, hu, rfl⟩ := (fillCounts_valid _ _).mp hfill
  rcases hage : stateAge py now data (countsOf t a l u) mtime with _ | age
  · simp only [if_true]
  · obtain ⟨observed, -, htime⟩ := (stateAge_some py).mp hage
    exact absurd ⟨t, a, l, u, observed, raw, mtime, data, rfl, hl, ht, ha, hlim, hu, htime⟩ h

/-! ### The bridge reads what the producer writes -/

/-- The bytes that `publish` writes. -/
def published (document : Dict) : Bytes := utf8 (dumps py true (.obj document))

/-- The decoder reads the published document back. -/
def ReadsBack (document : Dict) : Prop :=
  ∃ root, py.loads (published py document) = .value (.obj root) ∧ Same (.obj root) (.obj document)

/-- `observe_health` returns a document that the bridge accepts, and one whose freshness is unknown
counts no accounts. -/
def SelfAccepted (s : Surroundings) : Prop :=
  ∃ document gateway, observeHealth py s = .ok (document, gateway) ∧
    (∃ root, parseFormalHealth py (published py document) = .ok root ∧
      Same (.obj root) (.obj document)) ∧
    (member (get document (lit "freshness")) (lit "state") = .str (lit "unknown") →
      get document (lit "accountCounts") = .obj zeros)

/-- The account-state file can be decoded, counts that pass the checks add up, and the counts read
before a check failed are zero. -/
structure Sound (accounts : AccountState) : Prop where
  decodes : ∀ raw mtime e, accounts = .file raw mtime → py.loads raw = .raised e → caught e = true
  sums : ∀ t a l u observed, Holds py accounts t a l u observed → a + l + u ≤ t
  partialZero : (¬ ∃ t a l u observed, Holds py accounts t a l u observed) →
    ∀ raw mtime data, accounts = .file raw mtime → py.loads raw = .value (.obj data) →
      ReadsZeros data

theorem accepted_of_counts {s : Surroundings} (hclock : Iso py s.checked) {t a l u : ℕ}
    (hsum : a + l + u ≤ t) {state : Str} (hstate : state ∈ Capacity.freshnessStates) {age : ℤ}
    (hage : 0 ≤ age) (hread : ReadsBack py (documentOf py s (countsOf t a l u) state age)) :
    ∃ root, parseFormalHealth py (published py (documentOf py s (countsOf t a l u) state age)) =
      .ok root ∧ Same (.obj root) (.obj (documentOf py s (countsOf t a l u) state age)) := by
  obtain ⟨n, rfl⟩ := Int.eq_ofNat_of_zero_le hage
  obtain ⟨root, hl, hs⟩ := hread
  have hformal := formal_same py (formal_document py hclock hsum hstate n) (keyed_document py) hs
  exact ⟨root, (parseFormalHealth_ok py).mpr ⟨hl, _, _, _, _, _, _, _, hformal⟩, hs⟩

/-- Accepted counts add up. -/
theorem sums_of_accepted {s : Surroundings} {t a l u : ℕ} {state : Str} {age : ℤ} {root : Dict}
    {raw : Bytes} (h : parseFormalHealth py raw = .ok root)
    (hs : Same (.obj root) (.obj (documentOf py s (countsOf t a l u) state age))) :
    a + l + u ≤ t := by
  obtain ⟨-, _, t', a', l', u', _, _, hformal⟩ := (parseFormalHealth_ok py).mp h
  obtain ⟨_, he, hperm⟩ := same_obj hs
  cases he
  have hk := @keyed_document py s t a l u state age
  have hsame := get_same hperm hk.1 (lit "accountCounts")
  obtain ⟨counts, hcounts, -, ht, ha, hl, hu⟩ := hformal.counts.shape
  rw [hcounts] at hsame
  obtain ⟨_, he, hperm'⟩ := same_obj (e := countsOf t a l u) hsame
  cases he
  have hnd : ((countsOf t a l u).map Prod.fst).Nodup := (by decide : countKeys.Nodup)
  have heq : ∀ {k : Str} {m n : ℕ}, get counts k = .int m → get (countsOf t a l u) k = .int n →
      m = n := by
    intro k m n hm hn
    rw [get_same_atom hperm' hnd (show Atom (.int n) from trivial) hn] at hm
    exact (Int.ofNat.inj (Json.int.inj hm)).symm
  have h1 : t' = t := heq ht rfl
  have h2 : a' = a := heq ha rfl
  have h3 : l' = l := heq hl rfl
  have h4 : u' = u := heq hu rfl
  have := hformal.counts.sums
  omega

theorem holds_counts {accounts : AccountState} {t a l u t' a' l' u' : ℕ} {o o' : ℚ}
    (h : Holds py accounts t a l u o) (h' : Holds py accounts t' a' l' u' o') :
    t = t' ∧ a = a' ∧ l = l' ∧ u = u' := by
  obtain ⟨raw, mtime, data, rfl, hl, ht, ha, hlim, hu, -⟩ := h
  obtain ⟨_, _, data', he, hl', ht', ha', hlim', hu', -⟩ := h'
  cases he
  have hd : data = data' := Json.obj.inj (Loaded.value.inj (hl.symm.trans hl'))
  subst hd
  have heq : ∀ {v : Json} {m n : ℕ}, v = .int m → v = .int n → m = n := by
    rintro _ m n rfl hn
    exact Int.ofNat.inj (Json.int.inj hn)
  exact ⟨heq ht ht', heq ha ha', heq hlim hlim', heq hu hu'⟩

/-- The assumptions on the standard library: the clock's text is read back, and so is the document. -/
structure Faithful (s : Surroundings) : Prop where
  clock : Iso py s.checked
  readsBack : ∀ document gateway, observeHealth py s = .ok (document, gateway) →
    ReadsBack py document

section

variable {s : Surroundings} (hpy : Faithful py s)
include hpy

/-- Without counts the document is accepted. -/
theorem selfAccepted_of_zeros (hc : accountCounts py s.now s.accounts =
    .ok (zeros, lit "unknown", 0)) : SelfAccepted py s := by
  have hobs := observeHealth_of_counts py hc
  have hunknown : lit "unknown" ∈ Capacity.freshnessStates := by decide
  exact ⟨_, _, hobs, accepted_of_counts py hpy.clock (by omega) hunknown le_rfl
    (hpy.readsBack _ _ hobs), fun _ => rfl⟩

/-- Counts that pass the checks are accepted when they add up. -/
theorem selfAccepted_of_holds {t a l u : ℕ} {observed : ℚ}
    (hh : Holds py s.accounts t a l u observed) : SelfAccepted py s ↔ a + l + u ≤ t := by
  have hc := @accountCounts_of_holds py s.now _ _ _ _ _ _ hh
  have hobs := observeHealth_of_counts py hc
  obtain ⟨hmem, hage⟩ := accountCounts_state py hc
  constructor
  · rintro ⟨document, gateway, hobs', ⟨root, hparse, hs⟩, -⟩
    cases hobs.symm.trans hobs'
    exact sums_of_accepted py hparse hs
  · intro hsum
    refine ⟨_, _, hobs, accepted_of_counts py hpy.clock hsum hmem hage
      (hpy.readsBack _ _ hobs), fun hstate => ?_⟩
    have hne : (if ageAt s.now observed ≤ 900 then lit "fresh" else lit "stale") ≠
        lit "unknown" := by split_ifs <;> decide
    exact absurd (Json.str.inj hstate) hne

/-- Counts that do not pass them are accepted, and zero, when those read are zero. -/
theorem selfAccepted_of_refused {raw : Bytes} {mtime : Option ℚ} {data : Dict}
    (hacc : s.accounts = .file raw mtime) (hl : py.loads raw = .value (.obj data))
    (hh : ¬ ∃ t a l u observed, Holds py (.file raw mtime) t a l u observed) :
    SelfAccepted py s ↔ ReadsZeros data := by
  have hc := @accountCounts_of_not_holds py s.now _ _ _ hl hh
  rw [← hacc] at hc
  have hobs := observeHealth_of_counts py hc
  rw [← fillCounts_zeros]
  constructor
  · rintro ⟨document, gateway, hobs', -, hzero⟩
    cases hobs.symm.trans hobs'
    exact Json.obj.inj (hzero rfl)
  · intro hcounts
    rw [hcounts] at hc
    exact selfAccepted_of_zeros py hpy hc

end

/-! ### Samples -/

/-- The pool of one account, seen at the epoch behind a gateway that answers. -/
def epochSample : Surroundings where
  outcome := .response 200
  accounts := .file Capacity.oneRaw (some 0)
  lock := .free
  now := 0
  checked := 0

/-- Its health document. -/
def epochDocument : Dict :=
  documentOf (epochPy []) epochSample (countsOf 1 1 0 0) (lit "fresh") 0

/-- An interpreter that reads the state file and the published document. -/
def roundTripPy : Py :=
  epochPy [(Capacity.oneRaw, Capacity.oneAvailable),
    (published (epochPy []) epochDocument, .obj epochDocument)]

theorem loads_oneRaw : roundTripPy.loads Capacity.oneRaw = .value Capacity.oneAvailable := by
  decide +kernel

theorem holds_epoch : Holds roundTripPy epochSample.accounts 1 1 0 0 0 := by
  refine ⟨Capacity.oneRaw, some 0, countsOf 1 1 0 0, rfl, loads_oneRaw, rfl, rfl, rfl, rfl, ?_⟩
  rw [if_neg (by decide)]

/-- A state file that ends after its first count. -/
def partialRaw : Bytes := utf8 (dumps onePy true (.obj [(lit "total", .int 3)]))

/-- It is what `observe_health` reads. -/
def partialSample : Surroundings := { epochSample with accounts := .file partialRaw (some 0) }

end Cloudx.Cloud.HealthRoundTrip

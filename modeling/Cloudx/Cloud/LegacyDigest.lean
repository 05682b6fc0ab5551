import Cloudx.Cloud.LegacyHealth

/-! # The builder and the validator of legacy documents

What `build_legacy_health` returns for a formal document, and why a document with one field changed
is not accepted: the digest is taken over the canonical encoding, and the encoding of a built document
is that of no other. What the validator raises on a changed document is another matter. A state is
looked up in a set, so a list or a dict raises `TypeError`; a date may have no form in UTC. -/

namespace Cloudx.Cloud.LegacyDigest

open Cloudx.Python.Text Cloudx.Python.Value Cloudx.Python.Dump Cloudx.Python.Canonical
open Cloudx.Python.Compact Cloudx.Python.Clock
open Cloudx.Lib.Checks
open Cloudx.Cloud.Health Cloudx.Cloud.HealthBridge Cloudx.Cloud.HealthRoundTrip
open Cloudx.Cloud.LegacyHealth

variable {py : Py} {checked : ℚ} {version revision gateway imports : Str}
  {total ready limited unavailable : ℕ} {observed : Json}

/-! ### The shape of the built document -/

theorem basic_ascii {s : Str} (h : Ascii s) : BasicText s := fun c hc => .inl (by
  have := h c hc
  omega)

theorem basic_state {s : Str} (h : s ∈ serviceStates) : BasicText s :=
  basic_ascii ((show ∀ s ∈ serviceStates, Ascii s by decide) s h)

/-- The built document holds texts of the basic plane, integers, booleans and dicts. -/
theorem tame_unsigned (h : Parts py checked version revision gateway imports total ready limited
    unavailable observed) : Tame (.obj (unsigned (py.isoformat checked) version revision gateway
      imports total ready limited unavailable observed)) := by
  have hlit : ∀ {s : Str}, Ascii s → BasicText s := basic_ascii
  have hobserved : Tame observed := by
    rcases h.observed with rfl | ⟨t, ht, rfl⟩
    · trivial
    · exact iso_basic ht
  have hcapacity : BasicText (capacityState total ready (limited + unavailable)) := by
    unfold capacityState
    split_ifs <;> exact hlit (by decide)
  refine ⟨hlit (by decide), hlit (by decide), hlit (by decide), trivial, hlit (by decide),
    iso_basic h.clock, hlit (by decide), ?_, hlit (by decide), ?_, hlit (by decide), ?_,
    hlit (by decide), ?_, trivial⟩
  · exact ⟨hlit (by decide), hlit (by decide), hlit (by decide), (version_plain h.version.2).2,
      hlit (by decide), (revision_plain h.revision).2, trivial⟩
  · exact ⟨hlit (by decide), basic_state h.gateway, hlit (by decide), hlit (by decide),
      hlit (by decide), basic_state h.gateway, hlit (by decide), trivial, hlit (by decide),
      iso_basic h.clock, trivial⟩
  · exact ⟨hlit (by decide), hcapacity, hlit (by decide), trivial, hlit (by decide),
      ⟨hlit (by decide), trivial, hlit (by decide), trivial, hlit (by decide), trivial,
        hlit (by decide), trivial, hlit (by decide), trivial, trivial⟩, hlit (by decide),
      ⟨hlit (by decide), trivial, hlit (by decide), trivial, hlit (by decide), trivial,
        hlit (by decide), trivial, trivial⟩, hlit (by decide), trivial, hlit (by decide), hobserved,
      hlit (by decide), trivial, trivial⟩
  · exact ⟨hlit (by decide), basic_state h.imports, hlit (by decide), hlit (by decide),
      hlit (by decide), trivial, hlit (by decide), trivial, trivial⟩

theorem keyed_unsigned {stamp : Str} (hobserved : Atom observed) : Keyed (.obj (unsigned stamp version
    revision gateway imports total ready limited unavailable observed)) := by
  have hproducer : [lit "name", lit "version", lit "revision"].Nodup := by decide
  have hgateway : gatewayKeys.Nodup := by decide
  have hcapacity : capacityKeys.Nodup := by decide
  have haccounts : [lit "total", lit "ready", lit "warning", lit "blocked", lit "unknown"].Nodup := by
    decide
  have hreasons : [lit "quota", lit "login", lit "cooldown", lit "other"].Nodup := by decide
  have himports : [lit "state", lit "processState", lit "pendingFailures",
    lit "lastFailureAt"].Nodup := by decide
  have hroot : (legacyKeys.dropLast).Nodup := by decide
  exact ⟨hroot, trivial, trivial, trivial, ⟨hproducer, trivial, trivial, trivial, trivial⟩,
    ⟨hgateway, trivial, trivial, trivial, trivial, trivial, trivial⟩,
    ⟨hcapacity, trivial, trivial, ⟨haccounts, trivial, trivial, trivial, trivial, trivial, trivial⟩,
      ⟨hreasons, trivial, trivial, trivial, trivial, trivial⟩, trivial, keyed_atom hobserved, trivial,
      trivial⟩,
    ⟨himports, trivial, trivial, trivial, trivial, trivial⟩, trivial⟩

theorem small_power {n k : ℕ} (h : n < 10 ^ 3) (hk : 3 ≤ k) : n < 10 ^ k :=
  lt_of_lt_of_le h (Nat.pow_le_pow_right (by omega) hk)

theorem small_integer {n : ℕ} (h : n < 10 ^ 3) : n < maxInteger := small_power h (by omega)

theorem writable_unsigned {stamp : Str} (hobserved : Atom observed ∧ ∀ n, observed ≠ .int n)
    (hsum : ready + limited + unavailable ≤ total) (htotal : total < maxInteger) :
    writable (.obj (unsigned stamp version revision gateway imports total ready limited unavailable
      observed)) = true := by
  have h0 : 0 < maxInteger := small_integer (by decide)
  have h1 : 1 < maxInteger := small_integer (by decide)
  have hobs : writable observed = true := by
    cases observed with
    | int n => exact absurd rfl (hobserved.2 n)
    | arr items => exact absurd hobserved.1 id
    | obj fields => exact absurd hobserved.1 id
    | _ => rfl
  have hunknown : ((total : ℤ) - ready - (limited + unavailable)).natAbs < maxInteger := by omega
  have hready : ready < maxInteger := by omega
  have hlimited : limited < maxInteger := by omega
  have hblocked : limited + unavailable < maxInteger := by omega
  have hunavailable : unavailable < maxInteger := by omega
  simp only [unsigned, writable, writableFields, hobs, Int.natAbs_natCast, Int.natAbs_zero,
    Int.natAbs_one, decide_eq_true h0, decide_eq_true h1, decide_eq_true htotal,
    decide_eq_true hready, decide_eq_true hlimited, decide_eq_true hblocked,
    decide_eq_true hunavailable, decide_eq_true hunknown, Bool.and_self]

/-! ### The builder -/

/-- What is assumed of the standard library for a formal document: the digest is hexadecimal, the
decoder reads back what the encoder writes, the document is a Python dict whose integers can be
written, and the dates that are written can be read. -/
structure Library (py : Py) (formal : Dict) (checked : ℚ) (state : Str) (age : ℕ) : Prop where
  hex : HexDigest py
  keyed : Keyed (.obj formal)
  writes : writable (.obj formal) = true
  readsBack : ∃ root, py.loads (utf8 (compact py (.obj formal))) = .value (.obj root) ∧
    Same (.obj root) (.obj formal)
  clock : Iso py checked
  observed : state ≠ lit "unknown" → inRange (checked - age) = true → Iso py (checked - age)

/-- The freshness is known and its age leads out of the calendar. -/
def OutOfRange (checked : ℚ) (state : Str) (age : ℕ) : Prop :=
  state ≠ lit "unknown" ∧ inRange (checked - age) = false

/-- When the accounts were observed. -/
def observedOf (py : Py) (checked : ℚ) (state : Str) (age : ℕ) : Json :=
  if state = lit "unknown" then .null else .str (py.isoformat (checked - age))

/-- The document that is built for a formal one, without its digest. -/
def legacyOf (py : Py) (formal : Dict) (producerRevision : Str) (checked : ℚ) (t a l u : ℕ)
    (state : Str) (age : ℕ) : Dict :=
  unsigned (py.isoformat checked) (textOf (get formal (lit "cloudxVersion")))
    (revisionOf py producerRevision)
    ((gatewayStates.lookup (textOf (get formal (lit "gatewayStatus")))).getD [])
    ((importStates.lookup (textOf (get formal (lit "importStatus")))).getD []) t a l u
    (observedOf py checked state age)

/-- It with its digest. -/
def signedOf (py : Py) (document : Dict) : Dict :=
  document ++ [(lit "digest", .str (lit "sha256:" ++ py.sha256 (utf8 (compact py (.obj document)))))]

variable {formal : Dict} {producerRevision state : Str} {t a l u age : ℕ}

/-- The parts of the built document. -/
theorem parts_of_formal (producerRevision : Str) (h : Formal py formal checked t a l u state age)
    (hlib : Library py formal checked state age) (hrange : ¬ OutOfRange checked state age) :
    Parts py checked (textOf (get formal (lit "cloudxVersion"))) (revisionOf py producerRevision)
      ((gatewayStates.lookup (textOf (get formal (lit "gatewayStatus")))).getD [])
      ((importStates.lookup (textOf (get formal (lit "importStatus")))).getD []) t a l u
      (observedOf py checked state age) where
  clock := hlib.clock
  version := by
    obtain ⟨text, hv, hrest⟩ := h.header.version
    rw [hv]
    exact hrest
  revision := by
    unfold revisionOf
    dsimp only
    split_ifs with hr
    · exact .inr hr
    · exact .inl rfl
  gateway := by
    obtain ⟨g, hg, he⟩ := h.gateway
    rw [he]
    exact (show ∀ g ∈ gatewayStates.map Prod.fst, (gatewayStates.lookup g).getD [] ∈ serviceStates by
      decide) g hg
  imports := by
    obtain ⟨i, hi, he⟩ := h.imports
    rw [he]
    exact (show ∀ i ∈ importStates.map Prod.fst, (importStates.lookup i).getD [] ∈ serviceStates by
      decide) i hi
  sums := h.counts.sums
  observed := by
    unfold observedOf
    by_cases hs : state = lit "unknown"
    · rw [if_pos hs]; exact .inl rfl
    · rw [if_neg hs]
      have hr : inRange (checked - age) = true := by
        by_contra hr
        exact hrange ⟨hs, by simpa using hr⟩
      exact .inr ⟨_, hlib.observed hs hr, rfl⟩

theorem observedOf_atom : Atom (observedOf py checked state age) ∧
    ∀ n, observedOf py checked state age ≠ .int n := by
  unfold observedOf
  split_ifs
  · exact ⟨trivial, fun n h => by cases h⟩
  · exact ⟨trivial, fun n h => by cases h⟩

theorem writable_get {d : Dict} (h : writable (.obj d) = true) (k : Str) :
    writable (get d k) = true := by
  have hfields : ∀ fields : List (Str × Json), writableFields fields = true →
      writable (get fields k) = true := by
    intro fields
    induction fields with
    | nil => intro _; rfl
    | cons kv fields ih =>
      intro hf
      rw [writableFields, Bool.and_eq_true] at hf
      rw [get_cons]
      split_ifs
      · exact hf.1
      · exact ih hf.2
  exact hfields d h

theorem total_small (h : Formal py formal checked t a l u state age)
    (hlib : Library py formal checked state age) : t < maxInteger := by
  obtain ⟨counts, hcounts, -, ht, -⟩ := h.counts.shape
  have hw := writable_get hlib.writes (lit "accountCounts")
  rw [hcounts] at hw
  have hw' := writable_get hw (lit "total")
  rw [ht, writable, decide_eq_true_eq, Int.natAbs_natCast] at hw'
  exact hw'

theorem digestOf_unsigned (hparts : Parts py checked version revision gateway imports total ready
    limited unavailable observed) (hatom : Atom observed ∧ ∀ n, observed ≠ .int n)
    (htotal : total < maxInteger) :
    let document := unsigned (py.isoformat checked) version revision gateway imports total ready
      limited unavailable observed
    digestOf py document = .ok (lit "sha256:" ++ py.sha256 (utf8 (compact py (.obj document)))) := by
  intro document
  have hpop : pop document (lit "digest") = document := rfl
  rw [digestOf, hpop, canonical, if_pos (writable_unsigned hatom hparts.sums htotal)]
  rfl

theorem bounded_digest (hhex : HexDigest py) (raw : Bytes) :
    Bounded 80 (lit "sha256:" ++ py.sha256 raw) ∧
      strip (lit "sha256:" ++ py.sha256 raw) = lit "sha256:" ++ py.sha256 raw := by
  have hstrip : strip (lit "sha256:" ++ py.sha256 raw) = lit "sha256:" ++ py.sha256 raw := by
    refine strip_of_all fun c hc => ?_
    have hhexchar : ∀ c < 103, 48 ≤ c → isSpace c = false := by decide
    rcases List.mem_append.mp hc with hc | hc
    · exact (show ∀ c ∈ lit "sha256:", isSpace c = false by decide) c hc
    · have := (hhex raw).2 c hc
      exact hhexchar c (by omega) (by omega)
  have hlen : (lit "sha256:").length = 7 := rfl
  refine ⟨⟨?_, ?_⟩, hstrip⟩
  · rw [hstrip]
    simp [lit]
  · rw [List.length_append, hlen, (hhex raw).1]
    omega

/-- **What `build_legacy_health` returns.** -/
theorem buildLegacyHealth_eq (h : Formal py formal checked t a l u state age)
    (hlib : Library py formal checked state age) (isWord : ℕ → Bool) :
    (OutOfRange checked state age → buildLegacyHealth py isWord formal producerRevision =
      .error (rejected "formal health freshness age is out of range")) ∧
    (¬ OutOfRange checked state age → buildLegacyHealth py isWord formal producerRevision =
      .ok (signedOf py (legacyOf py formal producerRevision checked t a l u state age))) := by
  have htotal := total_small h hlib
  obtain ⟨root, hload, hs⟩ := hlib.readsBack
  have hroot := formal_same py h hlib.keyed hs
  have hparse := (parseFormalHealth_ok py).mpr ⟨hload, _, _, _, _, _, _, _, hroot⟩
  have hcanonical : canonical py formal = .ok (utf8 (compact py (.obj formal))) := by
    rw [canonical, if_pos hlib.writes]
  have hdated : timestamp py "formal health checkedAt" (get root (lit "checkedAt")) = .ok checked :=
    (timestamp_ok py).mpr ⟨hroot.dated, hroot.inCalendar⟩
  -- the fields of the document that was read are those of the formal one
  obtain ⟨_, he, hperm⟩ := same_obj hs
  cases he
  have hfield : ∀ {k s : Str}, get formal k = .str s → get root k = get formal k := by
    intro k s he
    rw [he]
    exact get_same_atom hperm hlib.keyed.1 (show Atom (.str s) from trivial) he
  obtain ⟨text, hversion, -⟩ := h.header.version
  obtain ⟨g, -, hgateway⟩ := h.gateway
  obtain ⟨i, -, himports⟩ := h.imports
  obtain ⟨counts, hcounts, -, ht, ha, hl, hu⟩ := hroot.counts.shape
  obtain ⟨freshness, hfresh, -, hstate, -, hage⟩ := hroot.fresh
  have hcount : ∀ {key : String} {n : ℕ}, get counts (lit key) = .int n →
      (countAt counts key).toNat = n := by
    intro key n hn
    unfold countAt
    rw [hn]
    exact Int.toNat_natCast n
  have hageAt : countAt freshness "ageSeconds" = age := by
    unfold countAt
    rw [hage]
  have hobserved : observedText py checked freshness =
      if state = lit "unknown" then .ok .null
      else if inRange (checked - age) then .ok (.str (py.isoformat (checked - age)))
      else .error (rejected "formal health freshness age is out of range") := by
    unfold observedText
    rw [hstate, hageAt]
    by_cases hknown : state = lit "unknown"
    · rw [if_pos hknown, if_pos (by rw [hknown])]
    · rw [if_neg hknown, if_neg fun he => hknown (Json.str.inj he)]
      rfl
  unfold buildLegacyHealth
  constructor
  · rintro ⟨hknown, hout⟩
    simp only [bind_error_iff]
    refine .inr ⟨_, hcanonical, .inr ⟨root, hparse, .inr ⟨checked, hdated, .inl ?_⟩⟩⟩
    rw [hfresh]
    show observedText py checked freshness = _
    rw [hobserved, if_neg hknown, if_neg (by rw [hout]; simp)]
  · intro hin
    have hparts := parts_of_formal producerRevision h hlib hin
    have hdigest := digestOf_unsigned hparts observedOf_atom htotal
    have hvalid := validate_unsigned hparts hdigest (bounded_digest hlib.hex _)
    have hpublic : PublicMetadata.validatePublicDocument py isWord (.obj (signedOf py
        (legacyOf py formal producerRevision checked t a l u state age))) = .ok (signedOf py
        (legacyOf py formal producerRevision checked t a l u state age)) :=
      PublicMetadata.validatePublicDocument_harmless (harmless_unsigned hlib.hex hparts _)
    have hobs : observedText py checked freshness = .ok (observedOf py checked state age) := by
      rw [hobserved, observedOf]
      split_ifs with hs hr
      · rfl
      · rfl
      · exact absurd ⟨hs, by simpa using hr⟩ hin
    have hset : ∀ digest, set (legacyOf py formal producerRevision checked t a l u state age)
        (lit "digest") digest = legacyOf py formal producerRevision checked t a l u state age ++
          [(lit "digest", digest)] := fun _ => rfl
    have hdocument : unsigned (py.isoformat checked) (textOf (get root (lit "cloudxVersion")))
        (revisionOf py producerRevision)
        ((gatewayStates.lookup (textOf (get root (lit "gatewayStatus")))).getD [])
        ((importStates.lookup (textOf (get root (lit "importStatus")))).getD [])
        (countAt (asDict (get root (lit "accountCounts"))) "total").toNat
        (countAt (asDict (get root (lit "accountCounts"))) "available").toNat
        (countAt (asDict (get root (lit "accountCounts"))) "limited").toNat
        (countAt (asDict (get root (lit "accountCounts"))) "unavailable").toNat
        (observedOf py checked state age) =
        legacyOf py formal producerRevision checked t a l u state age := by
      rw [hcounts, hfield hversion, hfield hgateway, hfield himports, asDict, hcount ht, hcount ha,
        hcount hl, hcount hu]
      rfl
    simp only [bind_ok_iff]
    refine ⟨_, hcanonical, root, hparse, checked, hdated, observedOf py checked state age, ?_,
      lit "sha256:" ++ py.sha256 (utf8 (compact py
        (.obj (legacyOf py formal producerRevision checked t a l u state age)))), ?_, (), ?_, ?_⟩
    · rw [hfresh]; exact hobs
    · rw [hdocument]; exact hdigest
    · rw [hdocument, hset]; exact hvalid
    · rw [hdocument, hset]; exact hpublic

end Cloudx.Cloud.LegacyDigest

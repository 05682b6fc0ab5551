import Cloudx.Cloud.LegacyDigest

/-! # A legacy document with one field changed

No change of one field of a built document is accepted, whatever the new value. It is rejected with
`LegacyHealthRejected` unless a check that is reached cannot take the value: a list or a dict where a
state is looked up, a date without a form in UTC, an integer too long to be written. `LegacyTame` goes
through the checks in their order. -/

namespace Cloudx.Cloud.LegacyChange

open Cloudx.Python.Text Cloudx.Python.Value Cloudx.Python.Dump Cloudx.Python.Canonical
open Cloudx.Python.Compact Cloudx.Python.Clock
open Cloudx.Lib.Checks
open Cloudx.Shared.Receipt (Returns keysAre)
open Cloudx.Cloud.Receipts (Hashable)
open Cloudx.Cloud.Health Cloudx.Cloud.HealthBridge Cloudx.Cloud.HealthRoundTrip
open Cloudx.Cloud.LegacyHealth Cloudx.Cloud.LegacyDigest

variable (py : Py)

/-! ### One check of a chain -/

/-- A value that is a date has a form in UTC. -/
def InCalendar (value : Json) : Prop := ∀ t, Dated py value t → inRange t = true

section

variable {py} {β : Type} {label message : String} {value : Json} {keys states : List Str}

theorem only_exact_bind {f : Dict → Except PyError β} :
    Only IsRejected (exactKeys keys label value >>= f) ↔
      ∀ d, value = .obj d → keysAre d keys = true → Only IsRejected (f d) := by
  rw [only_bind_of only_exactKeys]
  simp only [exactKeys_ok, and_imp]

theorem only_member_bind {x : Except PyError β} :
    Only IsRejected (requireMember states message value >>= fun _ => x) ↔
      Hashable value ∧ (OneOf states value → Only IsRejected x) := by
  rw [only_bind, only_requireMember]
  simp only [requireMember_ok]
  refine and_congr_right fun _ => ?_
  constructor
  · rintro h ⟨s, hs, hv⟩; exact h s ⟨hv, hs⟩
  · rintro h s ⟨hv, hs⟩; exact h ⟨s, hs, hv⟩

theorem only_timestamp_bind {x : Except PyError β} :
    Only IsRejected (timestamp py label value >>= fun _ => x) ↔
      InCalendar py value ∧ (Returns (timestamp py label value) → Only IsRejected x) := by
  rw [only_bind, only_timestamp]
  refine and_congr_right fun _ => ?_
  constructor
  · rintro h ⟨t, ht⟩; exact h t ht
  · intro h t ht; exact h ⟨t, ht⟩

theorem only_unit_bind {α : Type} {x : Except PyError α} {y : Except PyError β} :
    Only IsRejected (x >>= fun _ => y) ↔
      Only IsRejected x ∧ (Returns x → Only IsRejected y) := by
  rw [only_bind]
  refine and_congr_right fun _ => ?_
  constructor
  · rintro h ⟨a, ha⟩; exact h a ha
  · intro h a ha; exact h ⟨a, ha⟩

/-- A check that only rejects leaves the rest of the chain. -/
theorem only_quiet_bind {α : Type} {x : Except PyError α} {y : Except PyError β}
    (hx : Only IsRejected x) :
    Only IsRejected (x >>= fun _ => y) ↔ (Returns x → Only IsRejected y) := by
  rw [only_unit_bind, and_iff_right hx]

theorem only_optionalTimestamp :
    Only IsRejected (optionalTimestamp py label value) ↔ InCalendar py value := by
  unfold optionalTimestamp
  cases value with
  | null =>
    refine iff_of_true (only_ok ()) fun t ht => ?_
    obtain ⟨_, he, -⟩ := ht
    cases he
  | _ =>
    dsimp only
    rw [only_timestamp_bind]
    exact and_iff_left fun _ => only_ok ()

end

/-! ### The stages -/

theorem only_validateProducer {value : Json} : Only IsRejected (validateProducer value) := by
  unfold validateProducer
  refine only_exact_bind.mpr fun producer _ _ => ?_
  refine (only_require_bind (isRejected _)).mpr fun _ => ?_
  refine (only_bind_of only_boundedText).mpr fun _ _ => ?_
  refine (only_require_bind (isRejected _)).mpr fun _ => ?_
  refine (only_bind_of only_boundedText).mpr fun _ _ => ?_
  exact only_require (isRejected _)

theorem only_validateHttpStatus {value : Json} : Only IsRejected (validateHttpStatus value) := by
  unfold validateHttpStatus
  cases value with
  | null => exact only_ok ()
  | _ =>
    exact (only_bind_of only_requireCount).mpr fun _ _ => only_require (isRejected _)

theorem only_validateSessions {value : Json} : Only IsRejected (validateSessions value) := by
  unfold validateSessions
  cases value with
  | null => exact only_ok ()
  | _ => exact (only_bind_of only_requireCount).mpr fun _ _ => only_ok ()

theorem only_countAll {label : String} (counts : List (Str × Json)) :
    Only IsRejected (countAll label counts) := by
  induction counts with
  | nil => exact only_ok []
  | cons nv counts ih =>
    obtain ⟨name, value⟩ := nv
    refine (only_bind_of only_requireCount).mpr fun _ _ => ?_
    exact (only_bind_of ih).mpr fun _ _ => only_ok _

theorem only_validateCounts {capacity : Dict} : Only IsRejected (validateCounts capacity) := by
  unfold validateCounts
  refine only_exact_bind.mpr fun accounts _ _ => ?_
  refine only_exact_bind.mpr fun reasons _ _ => ?_
  refine (only_bind_of (only_countAll accounts)).mpr fun _ _ => ?_
  refine (only_bind_of (only_countAll reasons)).mpr fun _ _ => ?_
  refine (only_require_bind (isRejected _)).mpr fun _ => ?_
  refine (only_require_bind (isRejected _)).mpr fun _ => ?_
  refine (only_require_bind (isRejected _)).mpr fun _ => ?_
  exact only_require (isRejected _)

/-- The states of the gateway that are looked up can be hashed, and its date has a form in UTC. -/
def GatewayTame (gateway : Dict) : Prop :=
  Hashable (get gateway (lit "state")) ∧ (OneOf serviceStates (get gateway (lit "state")) →
    Hashable (get gateway (lit "endpointState")) ∧
    (OneOf serviceStates (get gateway (lit "endpointState")) →
      Hashable (get gateway (lit "processState")) ∧
      (OneOf processStates (get gateway (lit "processState")) →
        Returns (validateHttpStatus (get gateway (lit "httpStatus"))) →
        InCalendar py (get gateway (lit "observedAt")))))

theorem only_validateGateway {value : Json} : Only IsRejected (validateGateway py value) ↔
    ∀ gateway, value = .obj gateway → keysAre gateway gatewayKeys = true →
      GatewayTame py gateway := by
  unfold validateGateway GatewayTame
  rw [only_exact_bind]
  refine forall₃_congr fun gateway _ _ => ?_
  rw [only_member_bind, only_member_bind, only_member_bind,
    only_quiet_bind only_validateHttpStatus, only_timestamp_bind]
  have hlast : ∀ p : Prop, (p ∧ (Returns (timestamp py "legacy health gateway.observedAt"
      (get gateway (lit "observedAt"))) → Only IsRejected (pure () : Except PyError Unit))) ↔ p :=
    fun p => and_iff_left fun _ => only_pure ()
  rw [hlast]

/-- The state of the capacity can be hashed, and the dates that are reached have a form in UTC. -/
def CapacityTame (capacity : Dict) : Prop :=
  Hashable (get capacity (lit "state")) ∧ (OneOf capacityStates (get capacity (lit "state")) →
    isBool (get capacity (lit "available")) = true → Returns (validateCounts capacity) →
    Returns (validateSessions (get capacity (lit "activeSessions"))) →
    InCalendar py (get capacity (lit "observedAt")) ∧
    (Returns (optionalTimestamp py "legacy health capacity.observedAt"
        (get capacity (lit "observedAt"))) →
      InCalendar py (get capacity (lit "earliestRecoveryAt"))))

theorem only_validateCapacity {value : Json} : Only IsRejected (validateCapacity py value) ↔
    ∀ capacity, value = .obj capacity → keysAre capacity capacityKeys = true →
      CapacityTame py capacity := by
  unfold validateCapacity CapacityTame
  rw [only_exact_bind]
  refine forall₃_congr fun capacity _ _ => ?_
  rw [only_member_bind, only_require_bind (isRejected _), only_quiet_bind only_validateCounts,
    only_quiet_bind only_validateSessions, only_unit_bind, only_optionalTimestamp,
    only_optionalTimestamp]

/-- The fields of the imports. -/
def importKeys : List Str :=
  [lit "state", lit "processState", lit "pendingFailures", lit "lastFailureAt"]

/-- The states of the imports that are looked up can be hashed, and their date has a form in UTC. -/
def ImportsTame (imports : Dict) : Prop :=
  Hashable (get imports (lit "state")) ∧ (OneOf serviceStates (get imports (lit "state")) →
    Hashable (get imports (lit "processState")) ∧
    (OneOf processStates (get imports (lit "processState")) →
      Returns (requireCount "legacy health imports.pendingFailures"
        (get imports (lit "pendingFailures"))) →
      InCalendar py (get imports (lit "lastFailureAt"))))

theorem only_validateImports {value : Json} : Only IsRejected (validateImports py value) ↔
    ∀ imports, value = .obj imports → keysAre imports importKeys = true →
      ImportsTame py imports := by
  unfold validateImports ImportsTame
  rw [only_exact_bind]
  refine forall₃_congr fun imports _ _ => ?_
  rw [only_member_bind, only_member_bind, only_quiet_bind only_requireCount,
    only_optionalTimestamp]

theorem only_digestOf {root : Dict} : Only IsRejected (LegacyHealth.digestOf py root) ↔
    writable (.obj (pop root (lit "digest"))) = true := by
  unfold LegacyHealth.digestOf canonical
  by_cases hw : writable (.obj (pop root (lit "digest"))) = true
  · rw [if_pos hw]
    exact iff_of_true (only_ok _) hw
  · rw [if_neg hw]
    refine iff_of_false (fun h => ?_) hw
    obtain ⟨_, he⟩ := h _ rfl
    cases he

theorem only_validateDigest {root : Dict} : Only IsRejected (validateDigest py root) ↔
    (Returns (boundedText "legacy health digest" 80 (get root (lit "digest"))) →
      writable (.obj (pop root (lit "digest"))) = true) := by
  unfold validateDigest
  rw [only_bind_of only_boundedText]
  constructor
  · rintro h ⟨digest, hd⟩
    exact (only_digestOf py).mp (only_bind.mp (h digest hd)).1
  · intro h digest hd
    refine (only_bind_of ((only_digestOf py).mpr (h ⟨digest, hd⟩))).mpr fun _ _ => ?_
    exact only_require (isRejected _)

/-- The document names its contract and its version. -/
def identified (root : Dict) : Bool :=
  get root (lit "contract") = .str legacyContract && isOne (get root (lit "schemaVersion"))

/-- No check of the validator meets a value it cannot take. -/
def LegacyTame (root : Dict) : Prop :=
  keysAre root legacyKeys = true → identified root = true →
    InCalendar py (get root (lit "generatedAt")) ∧
    (Returns (timestamp py "legacy health generatedAt" (get root (lit "generatedAt"))) →
      Returns (validateProducer (get root (lit "producer"))) →
      (∀ gateway, get root (lit "gateway") = .obj gateway → keysAre gateway gatewayKeys = true →
        GatewayTame py gateway) ∧
      (Returns (validateGateway py (get root (lit "gateway"))) →
        (∀ capacity, get root (lit "capacity") = .obj capacity →
          keysAre capacity capacityKeys = true → CapacityTame py capacity) ∧
        (Returns (validateCapacity py (get root (lit "capacity"))) →
          (∀ imports, get root (lit "imports") = .obj imports →
            keysAre imports importKeys = true → ImportsTame py imports) ∧
          (Returns (validateImports py (get root (lit "imports"))) →
            Returns (boundedText "legacy health digest" 80 (get root (lit "digest"))) →
            writable (.obj (pop root (lit "digest"))) = true))))

/-- **What the validator raises.** -/
theorem only_validateLegacyHealth {root : Dict} :
    Only IsRejected (validateLegacyHealth py (.obj root)) ↔ LegacyTame py root := by
  unfold validateLegacyHealth LegacyTame
  rw [only_exact_bind]
  have hobj : ∀ {P : Dict → Prop}, (∀ d, Json.obj root = .obj d → P d) ↔ P root := fun {P} =>
    ⟨fun h => h root rfl, fun h d hd => by cases hd; exact h⟩
  rw [hobj]
  refine forall_congr' fun _ => ?_
  rw [only_require_bind (isRejected _)]
  refine forall_congr' fun _ => ?_
  rw [only_timestamp_bind, only_quiet_bind only_validateProducer, only_unit_bind, only_unit_bind,
    only_unit_bind, only_validateGateway, only_validateCapacity, only_validateImports,
    only_validateDigest]

/-! ### Changing a field -/

/-- The value with what is at the path of keys replaced. -/
def change : List Str → Json → Json → Json
  | [], value, _ => value
  | key :: path, value, .obj fields => .obj (set fields key (change path value (get fields key)))
  | _ :: _, _, v => v

/-- What is at a path of keys, if they are all there. -/
def valueAt : List Str → Json → Option Json
  | [], v => some v
  | key :: path, .obj fields => (fields.lookup key).bind (valueAt path)
  | _ :: _, _ => none

theorem keyed_lookup {fields : Dict} (h : Keyed (.obj fields)) {key : Str} {v : Json}
    (hv : fields.lookup key = some v) : get fields key = v ∧ Keyed v := by
  have hget : get fields key = v := by
    unfold Python.Value.get
    rw [hv]
    rfl
  exact ⟨hget, hget ▸ keyed_get h key⟩

/-- A change that keeps the value the same replaced something by the same. -/
theorem change_same : ∀ {path : List Str} {v old value : Json}, Keyed v →
    valueAt path v = some old → Same (change path value v) v → Same value old
  | [], v, old, value, _, hold, hs => by
    cases hold
    exact hs
  | key :: path, .obj fields, old, value, hk, hold, hs => by
    rw [valueAt, Option.bind_eq_some_iff] at hold
    obtain ⟨w, hw, hold⟩ := hold
    obtain ⟨hget, hkw⟩ := keyed_lookup hk hw
    rw [change] at hs
    obtain ⟨_, he, hperm⟩ := same_obj hs
    cases he
    have hsame := get_same hperm hk.1 key
    rw [get_set_self, hget] at hsame
    exact change_same hkw hold hsame

theorem points_of_basic {s : Str} (h : BasicText s) : Points s := fun c hc => by
  rcases h c hc with h | h <;> omega

mutual

theorem pointed_of_tame : ∀ {v : Json}, Tame v → Pointed v
  | .null, _ | .bool _, _ | .int _, _ => trivial
  | .float _, h | .arr _, h => absurd h id
  | .str _, h => points_of_basic h
  | .obj _, h => pointedFields_of_tame h

theorem pointedFields_of_tame : ∀ {fields : List (Str × Json)}, TameFields fields →
    PointedFields fields
  | [], _ => trivial
  | (_, _) :: _, ⟨hk, hv, hrest⟩ =>
    ⟨points_of_basic hk, pointed_of_tame hv, pointedFields_of_tame hrest⟩

end

theorem pointed_lookup {fields : Dict} (h : Pointed (.obj fields)) {key : Str} {v : Json}
    (hv : fields.lookup key = some v) : Points key ∧ Pointed v :=
  pointedFields_iff.mp h _ (mem_of_lookup hv)

theorem pointed_set {fields : Dict} (h : Pointed (.obj fields)) {key : Str} (hk : Points key)
    {v : Json} (hv : Pointed v) : Pointed (.obj (set fields key v)) := by
  have hfields : ∀ d : Dict, PointedFields d → PointedFields (set d key v) := by
    intro d
    induction d with
    | nil => intro _; exact ⟨hk, hv, trivial⟩
    | cons kv d ih =>
      intro hd
      obtain ⟨k, w⟩ := kv
      rw [Python.Value.set]
      split_ifs
      · exact ⟨hk, hv, hd.2.2⟩
      · exact ⟨hd.1, hd.2.1, ih hd.2.2⟩
  exact hfields fields h

theorem pointed_change : ∀ {path : List Str} {v old value : Json}, Pointed v →
    valueAt path v = some old → Pointed value → Pointed (change path value v)
  | [], _, _, _, _, _, hv => hv
  | key :: path, .obj fields, old, value, h, hold, hv => by
    rw [valueAt, Option.bind_eq_some_iff] at hold
    obtain ⟨w, hw, hold⟩ := hold
    obtain ⟨hkey, hpointed⟩ := pointed_lookup h hw
    have hget : get fields key = w := by
      unfold Python.Value.get
      rw [hw]
      rfl
    rw [change, hget]
    exact pointed_set h hkey (pointed_change hpointed hold hv)

/-! ### A change is never accepted -/

theorem get_append_single {d : Dict} {key k : Str} (h : k ≠ key) (v : Json) :
    get (d ++ [(key, v)]) k = get d k := by
  refine get_append_left fun hm => h ?_
  simpa using hm

theorem get_append_self {d : Dict} {key : Str} (h : key ∉ d.map Prod.fst) (v : Json) :
    get (d ++ [(key, v)]) key = v := by
  induction d with
  | nil => rw [List.nil_append, get_cons, if_pos rfl]
  | cons kv d ih =>
    rw [List.map_cons, List.mem_cons, not_or] at h
    rw [List.cons_append, get_cons, if_neg h.1, ih h.2]

theorem lookup_append_single {d : Dict} {key k : Str} (h : k ≠ key) (v : Json) :
    (d ++ [(key, v)]).lookup k = d.lookup k := by
  rw [List.lookup_append, List.lookup_cons, beq_false_of_ne h]
  cases d.lookup k <;> rfl

theorem set_append_single {d : Dict} {key k : Str} (hk : k ∈ d.map Prod.fst) (v w : Json) :
    set (d ++ [(key, v)]) k w = set d k w ++ [(key, v)] := by
  induction d with
  | nil => cases hk
  | cons kv d ih =>
    obtain ⟨k', v'⟩ := kv
    rw [List.cons_append, Python.Value.set, Python.Value.set]
    split_ifs with he
    · rfl
    · rw [List.map_cons, List.mem_cons] at hk
      rw [ih (hk.resolve_left (Ne.symm he)), List.cons_append]

theorem keys_set {d : Dict} {k : Str} (hk : k ∈ d.map Prod.fst) (w : Json) :
    (set d k w).map Prod.fst = d.map Prod.fst := by
  induction d with
  | nil => cases hk
  | cons kv d ih =>
    obtain ⟨k', v'⟩ := kv
    rw [Python.Value.set]
    split_ifs with he
    · rw [List.map_cons, List.map_cons, he]
    · rw [List.map_cons, List.mem_cons] at hk
      rw [List.map_cons, List.map_cons, ih (hk.resolve_left (Ne.symm he))]

theorem pop_append_single {d : Dict} {key : Str} (h : key ∉ d.map Prod.fst) (v : Json) :
    pop (d ++ [(key, v)]) key = d := by
  unfold pop
  rw [List.filter_append, List.filter_cons_of_neg (by simp), List.filter_nil, List.append_nil,
    List.filter_eq_self]
  intro kv hkv
  refine decide_eq_true fun he => h ?_
  rw [← he]
  exact List.mem_map_of_mem hkv

/-- A field of the document, other than the digest, and what it holds. -/
structure Field (document : Dict) (key : Str) (path : List Str) (old : Json) : Prop where
  notDigest : key ≠ lit "digest"
  holds : valueAt (key :: path) (.obj document) = some old

/-- The document with one field changed. -/
def changed (document : Dict) (key : Str) (path : List Str) (value : Json) : Dict :=
  set document key (change path value (get document key))

section

variable {py} {document : Dict} {key : Str} {path : List Str} {old value : Json}

/-- The changed document without its digest is the one without its digest, changed. -/
theorem pop_changed {digest : Json} (hno : lit "digest" ∉ document.map Prod.fst)
    (h : Field document key path old) :
    pop (changed (document ++ [(lit "digest", digest)]) key path value) (lit "digest") =
      changed document key path value ∧
    get (changed (document ++ [(lit "digest", digest)]) key path value) (lit "digest") = digest := by
  have hkey : key ∈ document.map Prod.fst := by
    have hv := h.holds
    rw [valueAt, Option.bind_eq_some_iff] at hv
    obtain ⟨w, hw, -⟩ := hv
    exact List.mem_map.mpr ⟨_, mem_of_lookup hw, rfl⟩
  have hset : changed (document ++ [(lit "digest", digest)]) key path value =
      changed document key path value ++ [(lit "digest", digest)] := by
    unfold changed
    rw [get_append_single h.notDigest, set_append_single hkey]
  have hno' : lit "digest" ∉ (changed document key path value).map Prod.fst := by
    unfold changed
    rw [keys_set hkey]
    exact hno
  rw [hset]
  exact ⟨pop_append_single hno' _, get_append_self hno' _⟩

/-- No other encoding has the digest of this document. -/
def NoCollision (py : Py) (document : Dict) : Prop :=
  ∀ raw, py.sha256 raw = py.sha256 (utf8 (compact py (.obj document))) →
    raw = utf8 (compact py (.obj document))

/-- **A changed field is never accepted.** -/
theorem changed_not_accepted (hf : FloatTexts py) (hhex : HexDigest py)
    (hcollision : NoCollision py document) (hno : lit "digest" ∉ document.map Prod.fst)
    (htame : Tame (.obj document)) (hkeyed : Keyed (.obj document))
    (h : Field document key path old) (hvalue : Pointed value) (hdiffers : ¬ Same value old) :
    validateLegacyHealth py (.obj (changed (signedOf py document) key path value)) ≠ .ok () := by
  intro hok
  obtain ⟨hpop, hdigest⟩ := @pop_changed document key path old value _ hno h
  unfold validateLegacyHealth at hok
  simp only [bind_ok_iff, exactKeys_ok] at hok
  obtain ⟨root, ⟨he, -⟩, _, -, _, -, _, -, _, -, _, -, _, -, hok⟩ := hok
  cases he
  unfold validateDigest at hok
  simp only [bind_ok_iff, boundedText_ok, require_ok, decide_eq_true_eq] at hok
  obtain ⟨_, ⟨text, htext, -, rfl⟩, expected, hexpected, heq⟩ := hok
  rw [signedOf] at htext hexpected
  rw [hdigest] at htext
  cases htext
  rw [(bounded_digest hhex _).2] at heq
  unfold LegacyHealth.digestOf canonical at hexpected
  rw [hpop] at hexpected
  split_ifs at hexpected
  · rw [← heq] at hexpected
    have hsha := List.append_cancel_left (Except.ok.inj hexpected)
    have hpointed : Pointed (.obj (changed document key path value)) :=
      @pointed_change (key :: path) (.obj document) old value (pointed_of_tame htame) h.holds hvalue
    have hsame := compact_injective hf htame hpointed (hcollision _ hsha).symm
    exact hdiffers (@change_same (key :: path) (.obj document) old value hkeyed h.holds hsame.symm)
  · cases hexpected

end

/-! ### The builder and the validator agree -/

/-- The counts of the legacy document are the formal ones in other classes. -/
structure Conserves (document : Dict) (t a l u : ℕ) : Prop where
  total : valueAt [lit "capacity", lit "accounts", lit "total"] (.obj document) = some (.int t)
  ready : valueAt [lit "capacity", lit "accounts", lit "ready"] (.obj document) = some (.int a)
  warning : valueAt [lit "capacity", lit "accounts", lit "warning"] (.obj document) = some (.int 0)
  blocked : valueAt [lit "capacity", lit "accounts", lit "blocked"] (.obj document) =
    some (.int (l + u : ℕ))
  unknown : ∃ n : ℕ, valueAt [lit "capacity", lit "accounts", lit "unknown"] (.obj document) =
    some (.int n) ∧ a + (l + u) + n = t
  quota : valueAt [lit "capacity", lit "blockedReasons", lit "quota"] (.obj document) = some (.int l)
  login : valueAt [lit "capacity", lit "blockedReasons", lit "login"] (.obj document) = some (.int 0)
  cooldown : valueAt [lit "capacity", lit "blockedReasons", lit "cooldown"] (.obj document) =
    some (.int 0)
  other : valueAt [lit "capacity", lit "blockedReasons", lit "other"] (.obj document) = some (.int u)

/-- What is promised of a built document: it is valid, public and signed, and it keeps the counts. -/
structure Built (py : Py) (isWord : ℕ → Bool) (document : Dict) (t a l u : ℕ) : Prop where
  valid : validateLegacyHealth py (.obj document) = .ok ()
  isPublic : PublicMetadata.validatePublicDocument py isWord (.obj document) = .ok document
  conserves : Conserves document t a l u
  signed : ∃ digest, LegacyHealth.digestOf py document = .ok digest ∧
    get document (lit "digest") = .str digest

/-- The builder stops at an age out of range, or builds such a document, for which the change of this
field is rejected. -/
def Agrees (py : Py) (isWord : ℕ → Bool) (formal : Dict) (revision : Str) (checked : ℚ)
    (t a l u : ℕ) (state : Str) (age : ℕ) (key : Str) (path : List Str) (value : Json) : Prop :=
  (OutOfRange checked state age ∧ buildLegacyHealth py isWord formal revision =
    .error (rejected "formal health freshness age is out of range")) ∨
  ∃ document, buildLegacyHealth py isWord formal revision = .ok document ∧
    Built py isWord document t a l u ∧
    ∃ message, validateLegacyHealth py (.obj (changed document key path value)) =
      .error (.rejected message)

section

variable {py} {formal : Dict} {checked : ℚ} {t a l u age : ℕ} {state : Str}

theorem built_signed (h : Formal py formal checked t a l u state age)
    (hlib : Library py formal checked state age) (hin : ¬ OutOfRange checked state age)
    (isWord : ℕ → Bool) (revision : Str) : Built py isWord
      (signedOf py (legacyOf py formal revision checked t a l u state age)) t a l u := by
  have hparts := parts_of_formal revision h hlib hin
  have hdigest := digestOf_unsigned hparts observedOf_atom (total_small h hlib)
  have hsum := h.counts.sums
  have hunknown : (t : ℤ) - a - (l + u) = (t - a - (l + u) : ℕ) := by omega
  refine ⟨validate_unsigned hparts hdigest (bounded_digest hlib.hex _),
    PublicMetadata.validatePublicDocument_harmless (harmless_unsigned hlib.hex hparts _),
    ⟨rfl, rfl, rfl, rfl, ⟨t - a - (l + u), ?_, by omega⟩, rfl, rfl, rfl, rfl⟩, _, ?_, rfl⟩
  · rw [← hunknown]; rfl
  · exact hdigest

/-- The field of the built document is one of the document without its digest. -/
theorem field_unsigned {document : Dict} {key : Str} {path : List Str} {old : Json}
    (h : Field (signedOf py document) key path old) : Field document key path old := by
  refine ⟨h.notDigest, ?_⟩
  have hv := h.holds
  rw [valueAt, signedOf, lookup_append_single h.notDigest] at hv
  exact hv

/-- The parser accepted the document, with this date, these counts and this freshness. -/
structure Accepted (py : Py) (formal : Dict) (checked : ℚ) (t a l u : ℕ) (state : Str) (age : ℕ) :
    Prop where
  parsed : ∃ raw, parseFormalHealth py raw = .ok formal
  formal : Formal py formal checked t a l u state age

/-- **When the builder and the validator agree**: unless the changed field holds what a check that is
reached cannot take. The change of a built document is accepted in no case. -/
theorem agrees_iff (h : Accepted py formal checked t a l u state age)
    (hlib : Library py formal checked state age) (hf : FloatTexts py) (isWord : ℕ → Bool)
    (revision : Str)
    (hcollision : NoCollision py (legacyOf py formal revision checked t a l u state age))
    {key : Str} {path : List Str} {old value : Json}
    (hfield : Field (signedOf py (legacyOf py formal revision checked t a l u state age)) key path old)
    (hvalue : Pointed value) (hdiffers : ¬ Same value old) :
    let document := changed
      (signedOf py (legacyOf py formal revision checked t a l u state age)) key path value
    (¬ OutOfRange checked state age → validateLegacyHealth py (.obj document) ≠ .ok ()) ∧
    (Agrees py isWord formal revision checked t a l u state age key path value ↔
      OutOfRange checked state age ∨ LegacyTame py document) := by
  intro document
  obtain ⟨hout, hin⟩ := @buildLegacyHealth_eq py checked formal revision state t a l u age h.formal
    hlib isWord
  have hnot : ¬ OutOfRange checked state age → validateLegacyHealth py (.obj document) ≠ .ok () := by
    intro hrange
    have hparts := parts_of_formal revision h.formal hlib hrange
    exact changed_not_accepted hf hlib.hex hcollision
      (show lit "digest" ∉ legacyKeys.dropLast by decide) (tame_unsigned hparts)
      (keyed_unsigned observedOf_atom.1) (field_unsigned hfield) hvalue hdiffers
  refine ⟨hnot, ?_⟩
  constructor
  · rintro (⟨hrange, -⟩ | ⟨built, hbuild, -, message, herror⟩)
    · exact .inl hrange
    · by_cases hrange : OutOfRange checked state age
      · exact .inl hrange
      · cases (hin hrange).symm.trans hbuild
        refine .inr ((only_validateLegacyHealth py).mp (only_iff.mpr (.inr ?_)))
        exact ⟨_, herror, message, rfl⟩
  · intro hcond
    by_cases hrange : OutOfRange checked state age
    · exact .inl ⟨hrange, hout hrange⟩
    · have htame := hcond.resolve_left hrange
      refine .inr ⟨_, hin hrange, built_signed h.formal hlib hrange isWord revision, ?_⟩
      rcases only_iff.mp ((only_validateLegacyHealth py).mpr htame) with ⟨_, hok⟩ | ⟨e, he, m, rfl⟩
      · exact absurd hok (hnot hrange)
      · exact ⟨m, he⟩

end

/-! ### Samples -/

/-- Sixty-four times the same digit. -/
def digits64 (c : ℕ) : Str := List.replicate 64 c

/-- A formal document of the epoch. -/
def epochFormal : Dict := epochDocument

/-- An interpreter that reads these documents, with one digest for one text and another for the
rest. -/
def digestPy (documents : List (Bytes × Json)) (marked : Bytes) : Py :=
  { epochPy documents with
    sha256 := fun raw => if raw = marked then digits64 97 else digits64 98
    floatText := fun _ => lit "1.0"
    sha256_ne_nil := fun raw => by split_ifs <;> decide }

/-- What is built for that document. -/
def epochLegacy (py : Py) : Dict :=
  legacyOf py epochFormal (lit "0000000") 0 1 1 0 0 (lit "fresh") 0

/-- The canonical encodings of the two documents. -/
def formalRaw : Bytes := utf8 (compact (digestPy [] []) (.obj epochFormal))

/-- The canonical encoding of the built document without its digest. -/
def legacyRaw : Bytes := utf8 (compact (digestPy [] []) (.obj (epochLegacy (digestPy [] []))))

/-- An interpreter that reads the formal document and digests the legacy one. -/
def legacyPy : Py := digestPy [(formalRaw, .obj epochFormal)] legacyRaw

theorem iso_legacy : Iso legacyPy 0 :=
  ⟨(iso_epoch []).inCalendar, (iso_epoch []).shape, (iso_epoch []).reads, rfl⟩

theorem accepted_epoch : Accepted legacyPy epochFormal 0 1 1 0 0 (lit "fresh") 0 where
  parsed := ⟨formalRaw, by decide +kernel⟩
  formal := @formal_document legacyPy epochSample iso_legacy 1 1 0 0 (by decide) (lit "fresh")
    (by decide) 0

theorem inRange_epoch : ¬ OutOfRange 0 (lit "fresh") 0 := by
  rintro ⟨-, h⟩
  exact absurd h (by decide +kernel)

theorem writable_epoch : writable (.obj epochFormal) = true := by
  decide +kernel

theorem library_epoch : Library legacyPy epochFormal 0 (lit "fresh") 0 where
  hex := by
    intro raw
    show (if raw = legacyRaw then digits64 97 else digits64 98).length = 64 ∧
      ∀ c ∈ (if raw = legacyRaw then digits64 97 else digits64 98), _
    split_ifs
    · decide
    · decide
  keyed := keyed_document (epochPy [])
  writes := writable_epoch
  readsBack := ⟨epochFormal, by decide +kernel, Same.rfl⟩
  clock := iso_legacy
  observed := by
    intro _ _
    have h0 : (0 : ℚ) - ((0 : ℕ) : ℚ) = 0 := by norm_num
    rw [h0]
    exact iso_legacy

theorem floatTexts_legacy : FloatTexts legacyPy where
  chars _ := show ∀ c ∈ lit "1.0", c ∈ numberChars by decide
  mark _ := show ∃ c ∈ lit "1.0", c ∈ lit ".eNI" by decide
  first _ := show ∀ c ∈ (lit "1.0").head?, c ∈ lit "0123456789-NI" by decide

/-- The digest of the marked text is that of no other. -/
theorem eq_of_digest (documents : List (Bytes × Json)) {raw marked : Bytes}
    (h : (digestPy documents marked).sha256 raw = (digestPy documents marked).sha256 marked) :
    raw = marked := by
  by_contra hne
  have hleft : (digestPy documents marked).sha256 raw = digits64 98 := if_neg hne
  have hright : (digestPy documents marked).sha256 marked = digits64 97 := if_pos rfl
  exact absurd (hleft.symm.trans (h.trans hright)) (by decide)

theorem noCollision_legacy : NoCollision legacyPy (epochLegacy legacyPy) := by
  have hmark : utf8 (compact legacyPy (.obj (epochLegacy legacyPy))) = legacyRaw := by
    decide +kernel
  intro raw
  rw [hmark]
  exact eq_of_digest _

theorem field_epoch : Field (signedOf legacyPy (epochLegacy legacyPy)) (lit "gateway")
    [lit "state"] (.str (lit "ready")) :=
  ⟨by decide, by decide +kernel⟩

theorem agrees_epoch : validateLegacyHealth legacyPy (.obj (changed
    (signedOf legacyPy (epochLegacy legacyPy)) (lit "gateway") [lit "state"]
    (.str (lit "degraded")))) ≠ .ok () :=
  (agrees_iff accepted_epoch library_epoch floatTexts_legacy (fun _ => false) (lit "0000000")
    noCollision_legacy field_epoch
    (show Pointed (.str (lit "degraded")) from show ∀ c ∈ lit "degraded", c < 0x110000 by decide)
    fun h => by cases h).1 inRange_epoch

/-- **A state changed to a list makes the validator raise `TypeError`.** -/
theorem changed_state_raises : ¬ Agrees legacyPy (fun _ => false) epochFormal (lit "0000000") 0 1 1 0 0
    (lit "fresh") 0 (lit "gateway") [lit "state"] (.arr []) := by
  have hraise : validateLegacyHealth legacyPy (.obj (changed
      (signedOf legacyPy (epochLegacy legacyPy)) (lit "gateway") [lit "state"] (.arr []))) =
      .error .unhashable := by decide +kernel
  have hbuild := (@buildLegacyHealth_eq legacyPy 0 epochFormal (lit "0000000") (lit "fresh") 1 1 0 0 0
    accepted_epoch.formal library_epoch fun _ => false).2 inRange_epoch
  rintro (⟨hrange, -⟩ | ⟨document, hdoc, -, message, herror⟩)
  · exact inRange_epoch hrange
  · cases hbuild.symm.trans hdoc
    cases hraise.symm.trans herror

end Cloudx.Cloud.LegacyChange

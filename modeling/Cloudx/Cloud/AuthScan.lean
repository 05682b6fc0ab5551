import Cloudx.Cloud.Auth

/-! # What a scan finds

`scan_auth_records` sorts the records of all files, keeps the first of each key and sorts again. Since
the records of one file have one key, what is left is at most one record a file (`scan_nodup`). -/

namespace Cloudx.Cloud.AuthScan

open Cloudx.Python.Text Cloudx.Python.Value Cloudx.Python.Dump
open Cloudx.Shared.Credential
open Cloudx.Cloud.Disk Cloudx.Cloud.Quarantine Cloudx.Cloud.Auth

variable {py : Py}

/-! ### Path texts -/

theorem posix_injective {p q : Path} (hp : p ≠ []) (hq : q ≠ []) (h : posix p = posix q) : p = q := by
  have hparts := congrArg pathParts h
  rw [pathParts_posix hp, pathParts_posix hq] at hparts
  refine List.map_injective_iff.mpr ?_ hparts
  rintro ⟨a, _⟩ ⟨b, _⟩ rfl
  rfl

theorem pathText_injective : Function.Injective pathText := by
  intro p q h
  have hpos : posix p = posix q := (List.cons.inj h).2
  have hnil : ∀ {q : Path}, posix [] = posix q → q = [] := by
    intro q h
    by_contra hq
    have hparts := pathParts_posix hq
    rw [← h] at hparts
    exact hq (by simpa [posix, pathParts, splitSlash] using hparts.symm)
  rcases eq_or_ne p [] with rfl | hp
  · exact (hnil hpos).symm
  rcases eq_or_ne q [] with rfl | hq
  · exact hnil hpos.symm
  exact posix_injective hp hq hpos

/-- A key made from an account name is no path. -/
theorem dedupKey_eq_pathText {r : AuthRecord} {p : Path} (h : dedupKey r = pathText p) :
    strip r.codexxAccount = [] ∧ r.path = p := by
  unfold dedupKey at h
  split_ifs at h with hc
  · exact ⟨hc, pathText_injective h⟩
  · exact absurd (List.cons.inj h).1 (by decide)

theorem dedupKey_of_empty {r : AuthRecord} (h : r.codexxAccount = []) :
    dedupKey r = pathText r.path := by
  rw [dedupKey, h, if_pos (by rfl)]

/-! ### The walk -/

theorem ofStr?_text {s : Str} {n : FileName} (h : FileName.ofStr? s = some n) : n.text = s := by
  unfold FileName.ofStr? at h
  split_ifs at h with hv
  rw [← Option.some.inj h]

theorem namesIn_nodup (base : Path) (paths : Finset Path) : (namesIn base paths).Nodup :=
  Finset.sort_nodup _ _

/-- What the walk yields lies below the directory it starts from. -/
theorem mem_walk {w : World} : ∀ {fuel : ℕ} {base p : Path}, p ∈ walk py w fuel base →
    ∃ n rest, p = base ++ n :: rest
  | fuel + 1, base, p, h => by
    rw [walk, List.mem_append, List.mem_filterMap, List.mem_flatMap] at h
    rcases h with ⟨s, -, hs⟩ | ⟨s, -, hp⟩
    · obtain ⟨n, -, rfl⟩ := Option.map_eq_some_iff.mp hs
      exact ⟨n, [], rfl⟩
    · split at hp
      · next n _ =>
        obtain ⟨m, rest, rfl⟩ := mem_walk hp
        exact ⟨n, m :: rest, by simp⟩
      · exact absurd hp (by simp)

/-- **The walk yields no path twice.** -/
theorem walk_nodup {w : World} : ∀ (fuel : ℕ) (base : Path), (walk py w fuel base).Nodup
  | 0, _ => by simp [walk]
  | fuel + 1, base => by
    rw [walk, List.nodup_append']
    refine ⟨?_, ?_, ?_⟩
    · refine List.Nodup.filterMap ?_ ((namesIn_nodup base _).filter _)
      intro s t p hs ht
      obtain ⟨n, hn, rfl⟩ := Option.map_eq_some_iff.mp hs
      obtain ⟨m, hm, heq⟩ := Option.map_eq_some_iff.mp ht
      have hnm : m = n := by simpa using heq
      rw [← ofStr?_text hn, ← ofStr?_text hm, hnm]
    · rw [List.nodup_flatMap]
      refine ⟨fun s _ => ?_, ?_⟩
      · split
        · exact walk_nodup fuel _
        · exact List.nodup_nil
      · refine (namesIn_nodup base w.dirs).imp fun {s t} hst => ?_
        -- below different directories
        intro p hp hq
        simp only at hp hq
        split at hp
        swap
        · exact absurd hp (by simp)
        next n hn =>
        split at hq
        swap
        · exact absurd hq (by simp)
        next m hm =>
        obtain ⟨_, _, rfl⟩ := mem_walk hp
        obtain ⟨_, _, heq⟩ := mem_walk hq
        simp only [List.append_assoc, List.singleton_append, List.append_cancel_left_eq] at heq
        have hnm : n = m := (List.cons.inj heq).1
        exact hst (by rw [← ofStr?_text hn, ← ofStr?_text hm, hnm])
    · intro p hp hq
      rw [List.mem_filterMap] at hp
      obtain ⟨s, -, hs⟩ := hp
      obtain ⟨n, -, rfl⟩ := Option.map_eq_some_iff.mp hs
      obtain ⟨t, -, hq⟩ := List.mem_flatMap.mp hq
      split at hq
      · obtain ⟨_, _, heq⟩ := mem_walk hq
        have := congrArg List.length heq
        simp at this
      · exact absurd hq (by simp)

/-- **The files of a directory**: all below it, and none twice. -/
theorem iterJsonFiles_spec {root : Path} {w : World} {paths : List Path}
    (h : iterJsonFiles py root w = .ok paths) : paths.Nodup ∧ ∀ p ∈ paths, root <+: p := by
  unfold iterJsonFiles at h
  split_ifs at h with hex
  · simp only [pure, Except.pure, Except.ok.injEq] at h
    rw [← h]; simp
  rcases hd : ensureRealDirectory w root with e | u
  · rw [hd] at h; exact absurd h (by simp [bind, Except.bind])
  rw [hd] at h
  simp only [bind, Except.bind] at h
  split_ifs at h
  simp only [pure, Except.pure, Except.ok.injEq] at h
  rw [← h]
  refine ⟨walk_nodup _ _, fun p hp => ?_⟩
  obtain ⟨n, rest, rfl⟩ := mem_walk hp
  exact List.prefix_append _ _

/-! ### The records of one file -/

theorem bundleRecord_spec {p : Path} {i : ℕ} {entry : Dict} {x : AuthRecord × Dict}
    (h : bundleRecord py p i entry = some x) : x.1.path = p ∧ x.1.codexxAccount = [] := by
  unfold bundleRecord at h
  simp only at h
  split_ifs at h
  rw [← Option.some.inj h]
  exact ⟨rfl, rfl⟩

theorem mem_bundleRecords {p : Path} {x : AuthRecord × Dict} : ∀ {i : ℕ} {accounts : List Json},
    x ∈ bundleRecords py p i accounts ↔
      ∃ k entry, accounts[k]? = some (.obj entry) ∧ bundleRecord py p (i + k) entry = some x
  | i, [] => by simp [bundleRecords]
  | i, v :: rest => by
    have htail : (∃ k entry, rest[k]? = some (.obj entry) ∧
        bundleRecord py p (i + 1 + k) entry = some x) ↔
        ∃ k entry, (v :: rest)[k + 1]? = some (.obj entry) ∧
          bundleRecord py p (i + (k + 1)) entry = some x := by
      simp only [List.getElem?_cons_succ, Nat.add_assoc, Nat.add_comm 1]
    have hsplit : (∃ k entry, (v :: rest)[k]? = some (.obj entry) ∧
        bundleRecord py p (i + k) entry = some x) ↔
        (∃ entry, v = .obj entry ∧ bundleRecord py p i entry = some x) ∨
        ∃ k entry, (v :: rest)[k + 1]? = some (.obj entry) ∧
          bundleRecord py p (i + (k + 1)) entry = some x := by
      constructor
      · rintro ⟨k, entry, hk, hx⟩
        rcases k with _ | k
        · exact Or.inl ⟨entry, Option.some.inj hk, hx⟩
        · exact Or.inr ⟨k, entry, hk, hx⟩
      · rintro (⟨entry, rfl, hx⟩ | ⟨k, entry, hk, hx⟩)
        · exact ⟨0, entry, rfl, hx⟩
        · exact ⟨k + 1, entry, hk, hx⟩
    rw [hsplit, ← htail, ← mem_bundleRecords]
    cases v with
    | obj entry => simp [bundleRecords]
    | null => simp [bundleRecords]
    | bool b => simp [bundleRecords]
    | int n => simp [bundleRecords]
    | float x => simp [bundleRecords]
    | str s => simp [bundleRecords]
    | arr items => simp [bundleRecords]

theorem documentRecord_path {p : Path} {data : Dict} {r : AuthRecord}
    (h : documentRecord py p data = .ok (some r)) : r.path = p := by
  unfold documentRecord at h
  simp only at h
  split_ifs at h
  · exact absurd h (by simp)
  · simp only [Except.ok.injEq, Option.some.injEq] at h
    rw [← h]; rfl
  · rcases he : expiryText py data (authTokens py data) with e | expiresAt
    · rw [he] at h; exact absurd h (by simp [bind, Except.bind])
    · rw [he] at h
      simp only [bind, Except.bind, pure, Except.pure, Except.ok.injEq, Option.some.injEq] at h
      rw [← h]
  · exact absurd h (by simp)

/-- The records of a document: those of its bundle, or at most one. -/
theorem payloadRecords_cases (py : Py) (p : Path) (data : Dict) :
    (payloadRecords py p data = bundleRecords py p 1 (asList (get data (lit "accounts"))) ∧
      payloadRecords py p data ≠ []) ∨
    (bundleRecords py p 1 (asList (get data (lit "accounts"))) = [] ∧
      (payloadRecords py p data).length ≤ 1 ∧ ∀ x ∈ payloadRecords py p data, x.1.path = p) := by
  unfold payloadRecords
  simp only
  by_cases h : bundleRecords py p 1 (asList (get data (lit "accounts"))) = []
  · right
    rw [if_neg (not_not.mpr h)]
    refine ⟨h, ?_⟩
    split_ifs <;> simp
  · left
    rw [if_pos h]
    exact ⟨rfl, h⟩

/-- **The records of a file** have its path and one key. -/
theorem fileRecords_spec {p : Path} {content : AuthRead} {rs : List AuthRecord}
    (h : fileRecords py p content = .ok rs) :
    (∀ r ∈ rs, r.path = p) ∧ ∀ r ∈ rs, ∀ r' ∈ rs, dedupKey r = dedupKey r' := by
  have hone : ∀ {rs : List AuthRecord}, rs.length ≤ 1 → ∀ r ∈ rs, ∀ r' ∈ rs,
      dedupKey r = dedupKey r' := by
    intro rs hlen r hr r' hr'
    obtain ⟨i, hi, rfl⟩ := List.getElem_of_mem hr
    obtain ⟨j, hj, rfl⟩ := List.getElem_of_mem hr'
    have : i = j := by omega
    subst this; rfl
  have hdoc : ∀ {data : Dict} {rs : List AuthRecord},
      (documentRecord py p data).map Option.toList = .ok rs →
        (∀ r ∈ rs, r.path = p) ∧ ∀ r ∈ rs, ∀ r' ∈ rs, dedupKey r = dedupKey r' := by
    intro data rs h
    rcases hd : documentRecord py p data with e | o
    · rw [hd] at h; exact absurd h (by simp [Except.map])
    rw [hd] at h
    simp only [Except.map, Except.ok.injEq] at h
    subst h
    refine ⟨fun r hr => ?_, hone (by cases o <;> simp)⟩
    rw [Option.mem_toList] at hr
    subst hr
    exact documentRecord_path hd
  cases content with
  | failed reason =>
    simp only [fileRecords, Except.ok.injEq] at h
    subst h
    exact ⟨by simp [invalidRecord], hone (by simp)⟩
  | data data =>
    unfold fileRecords at h
    simp only at h
    split at h
    swap
    · exact hdoc h
    split_ifs at h with hb
    swap
    · exact hdoc h
    simp only [Except.ok.injEq] at h
    subst h
    rcases payloadRecords_cases py p data with ⟨heq, -⟩ | ⟨-, hlen, hpath⟩
    · have hspec : ∀ r ∈ (payloadRecords py p data).map Prod.fst,
          r.path = p ∧ r.codexxAccount = [] := by
        intro r hr
        obtain ⟨x, hx, rfl⟩ := List.mem_map.mp hr
        rw [heq, mem_bundleRecords] at hx
        obtain ⟨_, _, -, hx⟩ := hx
        exact bundleRecord_spec hx
      refine ⟨fun r hr => (hspec r hr).1, fun r hr r' hr' => ?_⟩
      rw [dedupKey_of_empty (hspec r hr).2, dedupKey_of_empty (hspec r' hr').2, (hspec r hr).1,
        (hspec r' hr').1]
    · refine ⟨fun r hr => ?_, hone (by simpa using hlen)⟩
      obtain ⟨x, hx, rfl⟩ := List.mem_map.mp hr
      exact hpath x hx

/-! ### The records of all files -/

theorem mem_allRecords {r : AuthRecord} : ∀ {reads : List (Path × AuthRead)} {rs : List AuthRecord},
    allRecords py reads = .ok rs →
      (r ∈ rs ↔ ∃ x ∈ reads, ∃ rs', fileRecords py x.1 x.2 = .ok rs' ∧ r ∈ rs')
  | [], rs, h => by
    rw [allRecords, Except.ok.injEq] at h
    simp [← h]
  | (p, content) :: rest, rs, h => by
    rw [allRecords] at h
    rcases hf : fileRecords py p content with e | first
    · rw [hf] at h; exact absurd h (by simp [bind, Except.bind])
    rcases ha : allRecords py rest with e | more
    · rw [hf, ha] at h; exact absurd h (by simp [bind, Except.bind])
    rw [hf, ha] at h
    simp only [bind, Except.bind, pure, Except.pure, Except.ok.injEq] at h
    rw [← h, List.mem_append, mem_allRecords ha]
    constructor
    · rintro (hr | ⟨x, hx, hr⟩)
      · exact ⟨_, List.mem_cons_self, first, hf, hr⟩
      · exact ⟨x, List.mem_cons_of_mem _ hx, hr⟩
    · rintro ⟨x, hx, rs', hrs, hr⟩
      rcases List.mem_cons.mp hx with rfl | hx
      · rw [hf, Except.ok.injEq] at hrs
        exact Or.inl (hrs ▸ hr)
      · exact Or.inr ⟨x, hx, rs', hrs, hr⟩

/-- Records of one path have one key, if no file was read twice. -/
theorem allRecords_key {reads : List (Path × AuthRead)} {rs : List AuthRecord}
    (hnd : (reads.map Prod.fst).Nodup) (h : allRecords py reads = .ok rs) {r r' : AuthRecord}
    (hr : r ∈ rs) (hr' : r' ∈ rs) (hp : r.path = r'.path) : dedupKey r = dedupKey r' := by
  obtain ⟨x, hx, rs1, h1, hr1⟩ := (mem_allRecords h).mp hr
  obtain ⟨y, hy, rs2, h2, hr2⟩ := (mem_allRecords h).mp hr'
  have hpath : x.1 = y.1 := by
    rw [← (fileRecords_spec h1).1 r hr1, ← (fileRecords_spec h2).1 r' hr2, hp]
  obtain rfl : x = y := List.inj_on_of_nodup_map hnd hx hy hpath
  rw [h1, Except.ok.injEq] at h2
  subst h2
  exact (fileRecords_spec h1).2 r hr1 r' hr2

/-! ### The first record of each key -/

theorem mem_keepFirst {r : AuthRecord} : ∀ {seen : List Str} {rs : List AuthRecord},
    r ∈ keepFirst seen rs → r ∈ rs ∧ dedupKey r ∉ seen
  | _, [], h => absurd h (by simp [keepFirst])
  | seen, r' :: rs, h => by
    unfold keepFirst at h
    split_ifs at h with hs
    · obtain ⟨h1, h2⟩ := mem_keepFirst h
      exact ⟨List.mem_cons_of_mem _ h1, h2⟩
    · rcases List.mem_cons.mp h with rfl | h
      · exact ⟨List.mem_cons_self, hs⟩
      · obtain ⟨h1, h2⟩ := mem_keepFirst h
        exact ⟨List.mem_cons_of_mem _ h1, fun hn => h2 (List.mem_cons_of_mem _ hn)⟩

theorem keepFirst_keys : ∀ (seen : List Str) (rs : List AuthRecord),
    ((keepFirst seen rs).map dedupKey).Nodup
  | _, [] => by simp [keepFirst]
  | seen, r :: rs => by
    unfold keepFirst
    split_ifs with hs
    · exact keepFirst_keys seen rs
    · rw [List.map_cons, List.nodup_cons]
      refine ⟨fun hm => ?_, keepFirst_keys _ rs⟩
      obtain ⟨r', hr', he⟩ := List.mem_map.mp hm
      exact (mem_keepFirst hr').2 (he ▸ List.mem_cons_self)

/-- Every key is kept. -/
theorem exists_keepFirst {r : AuthRecord} : ∀ {seen : List Str} {rs : List AuthRecord}, r ∈ rs →
    dedupKey r ∉ seen → ∃ r' ∈ keepFirst seen rs, dedupKey r' = dedupKey r
  | seen, r' :: rs, h, hs => by
    unfold keepFirst
    by_cases hseen : dedupKey r' ∈ seen
    · rw [if_pos hseen]
      rcases List.mem_cons.mp h with rfl | h
      · exact absurd hseen hs
      · exact exists_keepFirst h hs
    · rw [if_neg hseen]
      by_cases hk : dedupKey r' = dedupKey r
      · exact ⟨r', List.mem_cons_self, hk⟩
      · rcases List.mem_cons.mp h with rfl | h
        · exact absurd rfl hk
        · obtain ⟨r'', hr'', he⟩ := @exists_keepFirst r (dedupKey r' :: seen) rs h
            (by simp [Ne.symm hk, hs])
          exact ⟨r'', List.mem_cons_of_mem _ hr'', he⟩

/-! ### The scan -/

theorem scan_ok {reads : List (Path × AuthRead)} {records : List AuthRecord}
    (h : scanAuthRecords py reads = .ok records) : ∃ rs, allRecords py reads = .ok rs ∧
      records.Perm (keepFirst [] (rs.insertionSort fun a b => rankLE a b)) := by
  unfold scanAuthRecords at h
  rcases ha : allRecords py reads with e | rs
  · rw [ha] at h; exact absurd h (by simp [bind, Except.bind])
  rw [ha] at h
  simp only [bind, Except.bind, pure, Except.pure, Except.ok.injEq] at h
  exact ⟨rs, rfl, h ▸ List.perm_insertionSort _ _⟩

/-- A record of a scan is one of a file that was read. -/
theorem mem_scan {reads : List (Path × AuthRead)} {records : List AuthRecord} {r : AuthRecord}
    (h : scanAuthRecords py reads = .ok records) (hr : r ∈ records) :
    ∃ content rs, (r.path, content) ∈ reads ∧ fileRecords py r.path content = .ok rs ∧ r ∈ rs := by
  obtain ⟨rs, ha, hperm⟩ := scan_ok h
  have hmem := (mem_keepFirst (hperm.mem_iff.mp hr)).1
  rw [(List.perm_insertionSort _ _).mem_iff, mem_allRecords ha] at hmem
  obtain ⟨⟨p, content⟩, hx, rs', hrs, hr'⟩ := hmem
  obtain rfl := (fileRecords_spec hrs).1 r hr'
  exact ⟨content, rs', hx, hrs, hr'⟩

/-- **A scan has at most one record a file**, if no file was read twice. -/
theorem scan_nodup {reads : List (Path × AuthRead)} {records : List AuthRecord}
    (hnd : (reads.map Prod.fst).Nodup) (h : scanAuthRecords py reads = .ok records) :
    (records.map AuthRecord.path).Nodup := by
  obtain ⟨rs, ha, hperm⟩ := scan_ok h
  have hkeys := keepFirst_keys [] (rs.insertionSort fun a b => rankLE a b)
  have hmem : ∀ r ∈ keepFirst [] (rs.insertionSort fun a b => rankLE a b), r ∈ rs := fun r hr =>
    (List.perm_insertionSort _ _).mem_iff.mp (mem_keepFirst hr).1
  rw [(hperm.map AuthRecord.path).nodup_iff]
  refine List.Nodup.map_on ?_ hkeys.of_map
  intro r hr r' hr' hp
  exact List.inj_on_of_nodup_map hkeys hr hr'
    (allRecords_key hnd ha (hmem r hr) (hmem r' hr') hp)

/-! ### The credential of a payload -/

/-- The tokens and the account of a payload, under their names. -/
def tokenTexts (py : Py) (payload : Dict) : List (Str × Str) :=
  [(lit "access_token", (authTokens py payload).access),
    (lit "refresh_token", (authTokens py payload).refresh),
    (lit "id_token", (authTokens py payload).id), (lit "account_id", authAccountId py payload)]

/-- The optional fields of `payload_auth`. -/
def optionalFields : List Str :=
  [lit "email", lit "user_email", lit "last_refresh", lit "plan_label", lit "renews_at",
    lit "plan_expires_at"]

/-- Apart from its optional fields an authentication document has a mode and the tokens. -/
theorem get_payloadAuth (py : Py) (payload : Dict) {key : Str} (h : key ∉ optionalFields) :
    get (payloadAuth py payload) key = get [(lit "auth_mode", .str (lit "chatgpt")),
      (lit "tokens", .obj (((tokenTexts py payload).filter (·.2 ≠ [])).map
        fun kv => (kv.1, .str kv.2)))] key := by
  refine get_append_left fun hm => h ?_
  obtain ⟨kv, hkv, rfl⟩ := List.mem_map.mp hm
  obtain ⟨k, hk, hf⟩ := List.mem_filterMap.mp hkv
  split at hf
  · split_ifs at hf
    rw [← Option.some.inj hf]
    exact hk
  · exact absurd hf (by simp)

theorem get_payloadAuth_null (py : Py) (payload : Dict) {key : Str}
    (h : key ∉ lit "auth_mode" :: lit "tokens" :: optionalFields) :
    get (payloadAuth py payload) key = .null := by
  simp only [List.mem_cons, not_or] at h
  rw [get_payloadAuth py payload h.2.2, get_cons, if_neg h.1, get_cons, if_neg h.2.1, get_nil]

/-- A text that `payload_auth` stores is read back. -/
theorem text_payloadAuth (py : Py) (payload : Dict) (key : Str) {text : Str}
    (hlook : ((tokenTexts py payload).lookup key).getD [] = text) (hstrip : strip text = text) :
    py.text [get (asDict (get (payloadAuth py payload) (lit "tokens"))) key] = text := by
  have htokens : asDict (get (payloadAuth py payload) (lit "tokens")) =
      ((tokenTexts py payload).filter (·.2 ≠ [])).map fun kv => (kv.1, .str kv.2) := by
    rw [get_payloadAuth py payload (by decide)]
    rfl
  have hkeys : ((tokenTexts py payload).map Prod.fst).Nodup := by
    change [lit "access_token", lit "refresh_token", lit "id_token", lit "account_id"].Nodup
    decide
  rw [htokens, get_texts key _ hkeys, hlook]
  split_ifs with hempty
  · rw [hempty]; rfl
  · rw [text_str, hstrip]

theorem authToken_payloadAuth (py : Py) (payload : Dict) {key : Str}
    (h : key ∉ lit "auth_mode" :: lit "tokens" :: optionalFields)
    (hlook : ((tokenTexts py payload).lookup key).getD [] = authToken py payload key) :
    authToken py (payloadAuth py payload) key = authToken py payload key := by
  conv_lhs =>
    rw [authToken, get_payloadAuth_null py payload h, get_payloadAuth_null py payload (by decide)]
  exact text_payloadAuth py payload key hlook (strip_text py _)

/-- **The tokens of an authentication document are those of its payload.** -/
theorem authTokens_payloadAuth (py : Py) (payload : Dict) :
    authTokens py (payloadAuth py payload) = authTokens py payload := by
  unfold authTokens
  rw [authToken_payloadAuth py payload (by decide) rfl, authToken_payloadAuth py payload (by decide) rfl,
    authToken_payloadAuth py payload (by decide) rfl]

theorem authAccountId_payloadAuth (py : Py) (payload : Dict) :
    authAccountId py (payloadAuth py payload) = authAccountId py payload := by
  conv_lhs =>
    rw [authAccountId, get_payloadAuth_null py payload (by decide),
      get_payloadAuth_null py payload (by decide), get_payloadAuth_null py payload (by decide)]
  exact text_payloadAuth py payload _ rfl (strip_text py _)

/-- The mode of an authentication document. -/
theorem authMode_payloadAuth (py : Py) (payload : Dict) :
    py.lower (py.text [get (payloadAuth py payload) (lit "auth_mode")]) = lit "chatgpt" := by
  rw [get_payloadAuth py payload (by decide), get_cons, if_pos rfl, text_str]
  exact py.lower_ascii _ (by decide)

end Cloudx.Cloud.AuthScan

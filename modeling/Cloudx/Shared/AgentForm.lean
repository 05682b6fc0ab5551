import Cloudx.Python.Reread
import Cloudx.Shared.AgentIdentity

/-! # Normal forms are normalised to themselves

The normal form of an Agent Identity, written out (`form`). Normalising it again, after it has been
written and read, gives it back if it is accepted at all. It is not when its account or its address
came from a fallback that is not plain (`renormalize_iff`). -/

namespace Cloudx.Shared.AgentForm

open Cloudx.Lib.Memo
open Cloudx.Python.Text Cloudx.Python.Value Cloudx.Python.Canonical Cloudx.Python.Reread
open Cloudx.Shared Cloudx.Shared.AgentIdentity

/-- The text of a field, stripped; empty if there is none. -/
def fieldText (data : Dict) (key : Str) : Str :=
  match get data key with
  | .str s => strip s
  | _ => []

/-- The fields a normal form always has. -/
def required (disabled : Bool) (runtimeId key : Str) : Dict :=
  [(lit "type", .str (lit "codex")), (lit "auth_kind", .str (lit "oauth")),
    (lit "auth_mode", .str authMode), (lit "disabled", .bool disabled),
    (lit "websockets", .bool false), (lit "agent_runtime_id", .str runtimeId),
    (lit "agent_private_key", .str key)]

/-- The texts that are not empty, stored one after the other. -/
def storeTexts (texts : Str → Str) (keys : List Str) (d : Dict) : Dict :=
  keys.foldl (fun d key => setText d key (texts key)) d

/-- The optional fields of a normal form, in its order. -/
def optionalKeys : List Str := [lit "account_id", lit "email"] ++ metadata.map Prod.fst

/-- The normal form with these fields. -/
def form (disabled : Bool) (runtimeId key : Str) (texts : Str → Str) (fedramp : Option Bool) : Dict :=
  let result := storeTexts texts optionalKeys (required disabled runtimeId key)
  match fedramp with
  | none => result
  | some b => set result (lit "chatgpt_account_is_fedramp") (.bool b)

/-- The optional texts of the normal form of a credential. -/
def textsOf (data : Dict) (fallbackAccountId fallbackEmail : Str) (key : Str) : Str :=
  if key = lit "account_id" then
    orText (fieldText data key) (orText (fieldText data (lit "chatgpt_account_id"))
      (strip fallbackAccountId))
  else if key = lit "email" then orText (fieldText data key) (strip fallbackEmail)
  else fieldText data key

/-! ### What is read from a field -/

theorem fieldText_str {data : Dict} {key s : Str} (h : get data key = .str s) :
    fieldText data key = strip s := by
  unfold fieldText
  rw [h]

theorem requiredText_field {data : Dict} {key s : Str} {maximum : ℕ}
    (h : requiredText data key maximum = .ok s) : s = fieldText data key := by
  unfold requiredText at h
  cases hget : get data key with
  | str value =>
    rw [hget] at h
    dsimp only at h
    split_ifs at h
    rw [fieldText_str hget, Except.ok.inj h]
  | _ =>
    rw [hget] at h
    exact absurd h (by simp)

theorem optionalText_field {data : Dict} {key s : Str} {maximum : ℕ}
    (h : optionalText data key maximum = .ok s) : s = fieldText data key := by
  unfold optionalText at h
  cases hget : get data key with
  | null =>
    rw [hget] at h
    unfold fieldText
    rw [hget]
    exact (Except.ok.inj h).symm
  | str value =>
    rw [hget] at h
    dsimp only at h
    rw [fieldText_str hget]
    split_ifs at h with hempty
    · rw [hempty]
      exact (Except.ok.inj h).symm
    · exact (Except.ok.inj h).symm
  | _ =>
    rw [hget] at h
    exact absurd h (by simp)

theorem privateKey_field {py : Py} {data : Dict} {s : Str} (h : privateKey py data = .ok s) :
    s = fieldText data (lit "agent_private_key") := by
  unfold privateKey at h
  obtain ⟨encoded, hencoded, h⟩ := except_bind_ok h
  split at h
  · exact absurd h (by simp)
  · split_ifs at h
    rw [← Except.ok.inj h]
    exact requiredText_field hencoded

theorem strip_fieldText (data : Dict) (key : Str) : strip (fieldText data key) = fieldText data key := by
  unfold fieldText
  split
  · exact strip_strip _
  · rfl

theorem strip_textsOf (data : Dict) (account email key : Str) :
    strip (textsOf data account email key) = textsOf data account email key := by
  unfold textsOf
  split_ifs
  · exact strip_orText (strip_fieldText _ _) (strip_orText (strip_fieldText _ _) (strip_strip _))
  · exact strip_orText (strip_fieldText _ _) (strip_strip _)
  · exact strip_fieldText _ _

theorem fieldText_stored {d : Dict} {key s : Str} (h : get d key = stored s) (hs : strip s = s) :
    fieldText d key = s := by
  unfold fieldText
  rw [h, stored]
  by_cases hempty : s = []
  · rw [if_pos hempty, hempty]
  · rw [if_neg hempty]
    exact hs

/-! ### What is stored -/

theorem lookup_setText_ne (d : Dict) {key k : Str} (h : k ≠ key) (value : Str) :
    (setText d key value).lookup k = d.lookup k := by
  unfold setText
  split_ifs
  · rfl
  · exact lookup_set_ne d h _

theorem lookup_storeTexts_ne {texts : Str → Str} {k : Str} : ∀ {keys : List Str} {d : Dict},
    k ∉ keys → (storeTexts texts keys d).lookup k = d.lookup k
  | [], _, _ => rfl
  | key :: keys, d, h => by
    rw [List.mem_cons, not_or] at h
    have hrest : (storeTexts texts keys (setText d key (texts key))).lookup k =
        (setText d key (texts key)).lookup k := lookup_storeTexts_ne h.2
    exact hrest.trans (lookup_setText_ne d h.1 _)

theorem get_storeTexts {texts : Str → Str} {k : Str} : ∀ {keys : List Str} {d : Dict}, k ∈ keys →
    keys.Nodup → get d k = .null → get (storeTexts texts keys d) k = stored (texts k)
  | key :: keys, d, hk, hnd, hnull => by
    rw [List.nodup_cons] at hnd
    show get (storeTexts texts keys (setText d key (texts key))) k = _
    rcases List.mem_cons.mp hk with rfl | hk
    · unfold Python.Value.get
      rw [lookup_storeTexts_ne hnd.1]
      exact get_setText_self hnull _
    · have hne : k ≠ key := fun h => hnd.1 (h ▸ hk)
      exact get_storeTexts hk hnd.2 ((get_setText_ne d hne _).trans hnull)

theorem storeTexts_congr {texts texts' : Str → Str} : ∀ {keys : List Str} {d : Dict},
    (∀ k ∈ keys, texts k = texts' k) → storeTexts texts keys d = storeTexts texts' keys d
  | [], _, _ => rfl
  | key :: keys, d, h => by
    show storeTexts texts keys (setText d key (texts key)) = storeTexts texts' keys _
    rw [h key List.mem_cons_self]
    exact storeTexts_congr fun k hk => h k (List.mem_cons_of_mem key hk)

theorem copyMetadata_texts {data : Dict} : ∀ {fields : List (Str × ℕ)} {d d' : Dict},
    copyMetadata data fields d = .ok d' → d' = storeTexts (fieldText data) (fields.map Prod.fst) d
  | [], _, _, h => (Except.ok.inj h).symm
  | (key, maximum) :: rest, d, d', h => by
    obtain ⟨value, hvalue, hrest⟩ := except_bind_ok h
    rw [optionalText_field hvalue] at hrest
    show d' = storeTexts (fieldText data) (rest.map Prod.fst) (setText d key (fieldText data key))
    exact copyMetadata_texts hrest

/-! ### The form -/

/-- **What `normalize` returns**, written out. -/
theorem normalize_form {py : Py} {data result : Dict} {account email : Str}
    (h : AgentIdentity.normalize py data account email = .ok result) :
    ∃ disabled fedramp, result = form disabled (fieldText data (lit "agent_runtime_id"))
        (fieldText data (lit "agent_private_key")) (textsOf data account email) fedramp ∧
      (data.lookup (lit "disabled") = none ∧ disabled = false ∨
        data.lookup (lit "disabled") = some (.bool disabled)) ∧
      get data (lit "chatgpt_account_is_fedramp") = (fedramp.map Json.bool).getD .null := by
  have hagent := (normalize_ok h).agent
  unfold AgentIdentity.normalize at h
  rw [if_neg (by simpa using hagent)] at h
  obtain ⟨-, -, h⟩ := except_bind_ok h
  obtain ⟨runtimeId, hruntime, h⟩ := except_bind_ok h
  obtain ⟨key, hkey, h⟩ := except_bind_ok h
  extract_lets next at h
  obtain ⟨disabled, hdisabled, h⟩ : ∃ b, (data.lookup (lit "disabled") = none ∧ b = false ∨
      data.lookup (lit "disabled") = some (.bool b)) ∧ next b = .ok result := by
    split at h
    · next hnone => exact ⟨false, .inl ⟨hnone, rfl⟩, h⟩
    · next b hsome => exact ⟨b, .inr hsome, h⟩
    · exact absurd h (by simp [bind, Except.bind])
  simp only [next] at h
  obtain ⟨own, hown, h⟩ := except_bind_ok h
  have hown' := optionalText_field hown
  obtain ⟨chatgpt, hchatgpt, h⟩ : ∃ chatgpt, (own = [] →
      chatgpt = fieldText data (lit "chatgpt_account_id")) ∧ _ = Except.ok result := by
    split_ifs at h with hempty
    · obtain ⟨chatgpt, hc, h⟩ := except_bind_ok h
      exact ⟨chatgpt, fun _ => optionalText_field hc, h⟩
    · exact ⟨[], fun he => absurd he hempty, h⟩
  obtain ⟨address, haddress, h⟩ := except_bind_ok h
  obtain ⟨base, hbase, h⟩ := except_bind_ok h
  have haccount : orText own (orText chatgpt (strip account)) =
      textsOf data account email (lit "account_id") := by
    rw [textsOf, if_pos rfl, ← hown']
    by_cases hempty : own = []
    · rw [hchatgpt hempty]
    · exact (if_neg hempty).trans (if_neg hempty).symm
  have hemail : orText address (strip email) = textsOf data account email (lit "email") := by
    rw [textsOf, if_neg (by decide), if_pos rfl, optionalText_field haddress]
  have hstored : base = storeTexts (textsOf data account email) optionalKeys
      (required disabled runtimeId key) := by
    have hkeys : ∀ k ∈ metadata.map Prod.fst, k ≠ lit "account_id" ∧ k ≠ lit "email" := by decide
    rw [copyMetadata_texts hbase, haccount, hemail]
    refine (storeTexts_congr fun k hk => ?_).trans rfl
    rw [textsOf, if_neg (hkeys k hk).1, if_neg (hkeys k hk).2]
  rw [requiredText_field hruntime, privateKey_field hkey] at hstored
  split at h
  · next hfed =>
    exact ⟨disabled, none, by rw [← Except.ok.inj h, hstored]; rfl, hdisabled, hfed⟩
  · next b hfed =>
    exact ⟨disabled, some b, by rw [← Except.ok.inj h, hstored]; rfl, hdisabled, hfed⟩
  · exact absurd h (by simp)

/-! ### The form as a dict -/

theorem mem_storeTexts {texts : Str → Str} {kv : Str × Json} : ∀ {keys : List Str} {d : Dict},
    kv ∈ storeTexts texts keys d → kv ∈ d ∨ ∃ s, kv.2 = .str s
  | [], _, h => .inl h
  | key :: keys, d, h => by
    have hrest : kv ∈ storeTexts texts keys (setText d key (texts key)) := h
    rcases mem_storeTexts hrest with hkv | hkv
    · unfold setText at hkv
      split_ifs at hkv
      · exact .inl hkv
      · exact (mem_set hkv).imp id fun heq => ⟨texts key, by rw [heq]⟩
    · exact .inr hkv

theorem nodup_storeTexts {texts : Str → Str} : ∀ {keys : List Str} {d : Dict},
    (d.map Prod.fst).Nodup → ((storeTexts texts keys d).map Prod.fst).Nodup
  | [], _, h => h
  | key :: keys, d, h => by
    show ((storeTexts texts keys (setText d key (texts key))).map Prod.fst).Nodup
    refine nodup_storeTexts ?_
    unfold setText
    split_ifs
    · exact h
    · exact nodup_set h key _

variable {disabled : Bool} {runtimeId key : Str} {texts : Str → Str} {fedramp : Option Bool}

/-- The keys of a normal form are distinct. -/
theorem nodup_form : ((form disabled runtimeId key texts fedramp).map Prod.fst).Nodup := by
  have hkeys : ((required disabled runtimeId key).map Prod.fst).Nodup :=
    (by decide : (normalKeys.take 7).Nodup)
  unfold form
  rcases fedramp with _ | b
  · exact nodup_storeTexts hkeys
  · exact nodup_set (nodup_storeTexts hkeys) _ _

/-- **A normal form holds no container.** -/
theorem atom_form (k : Str) : Atom (get (form disabled runtimeId key texts fedramp) k) := by
  have hbase : ∀ kv ∈ required disabled runtimeId key, Atom kv.2 := by
    intro kv hkv
    simp only [required, List.mem_cons, List.not_mem_nil, or_false] at hkv
    rcases hkv with rfl | rfl | rfl | rfl | rfl | rfl | rfl <;> exact trivial
  have hstored : ∀ kv ∈ storeTexts texts optionalKeys (required disabled runtimeId key),
      Atom kv.2 := by
    intro kv hkv
    rcases mem_storeTexts hkv with hkv | ⟨s, hs⟩
    · exact hbase kv hkv
    · rw [hs]
      exact trivial
  have hall : ∀ kv ∈ form disabled runtimeId key texts fedramp, Atom kv.2 := by
    intro kv hkv
    rcases fedramp with _ | b
    · exact hstored kv hkv
    · rcases mem_set hkv with hkv | rfl
      · exact hstored kv hkv
      · exact trivial
  exact atom_get hall k

theorem lookup_form_required {k : Str} (hk : k ∈ normalKeys.take 7) :
    (form disabled runtimeId key texts fedramp).lookup k =
      (required disabled runtimeId key).lookup k := by
  have hkeys : ∀ k ∈ normalKeys.take 7, k ∉ optionalKeys ∧
      k ≠ lit "chatgpt_account_is_fedramp" := by decide
  obtain ⟨hk1, hk2⟩ := hkeys k hk
  unfold form
  rcases fedramp with _ | b
  · exact lookup_storeTexts_ne hk1
  · exact (lookup_set_ne _ hk2 _).trans (lookup_storeTexts_ne hk1)

theorem get_form_optional {k : Str} (hk : k ∈ optionalKeys) :
    get (form disabled runtimeId key texts fedramp) k = stored (texts k) := by
  have hkeys : ∀ k ∈ optionalKeys, k ∉ normalKeys.take 7 ∧
      k ≠ lit "chatgpt_account_is_fedramp" := by decide
  obtain ⟨hk1, hk2⟩ := hkeys k hk
  have hnull : get (required disabled runtimeId key) k = .null := get_of_not_mem hk1
  have hstored : get (storeTexts texts optionalKeys (required disabled runtimeId key)) k =
      stored (texts k) := get_storeTexts hk (by decide) hnull
  unfold form
  rcases fedramp with _ | b
  · exact hstored
  · exact (get_set_ne _ hk2 _).trans hstored

theorem get_form_fedramp : get (form disabled runtimeId key texts fedramp)
    (lit "chatgpt_account_is_fedramp") = (fedramp.map Json.bool).getD .null := by
  unfold form
  rcases fedramp with _ | b
  · unfold Python.Value.get
    rw [lookup_storeTexts_ne (by decide)]
    rfl
  · exact get_set_self _ _ _

theorem lookup_form_other {k : Str} (hk : k ∉ normalKeys) :
    (form disabled runtimeId key texts fedramp).lookup k = none := by
  have hsplit : normalKeys = normalKeys.take 7 ++ (optionalKeys ++
      [lit "chatgpt_account_is_fedramp"]) := by decide
  rw [hsplit] at hk
  simp only [List.mem_append, List.mem_singleton, not_or] at hk
  obtain ⟨hk1, hk2, hk3⟩ := hk
  have hnone : (required disabled runtimeId key).lookup k = none := lookup_none hk1
  unfold form
  rcases fedramp with _ | b
  · exact (lookup_storeTexts_ne hk2).trans hnone
  · exact (lookup_set_ne _ hk3 _).trans ((lookup_storeTexts_ne hk2).trans hnone)

/-! ### Normalising again -/

section Again
variable {py : Py} {data record d : Dict} {account email : Str}

/-- What `normalize` does depends on the values of the keys alone. -/
theorem normalize_congr {e : Dict} (h : ∀ k, d.lookup k = e.lookup k) :
    AgentIdentity.normalize py d account email = AgentIdentity.normalize py e account email := by
  have hget : ∀ k, get d k = get e k := fun k => by
    unfold Python.Value.get
    rw [h k]
  simp only [AgentIdentity.normalize, isAgentIdentity, privateKey, requiredText, optionalText,
    copyMetadata, metadata, hget, h]

/-- The account of a normal form is its account again. -/
theorem account_again {f g : Str}
    (hf : textsOf data account email (lit "account_id") = [] → strip f = [])
    (hown : fieldText d (lit "account_id") = textsOf data account email (lit "account_id"))
    (hchatgpt : fieldText d (lit "chatgpt_account_id") =
      textsOf data account email (lit "chatgpt_account_id")) :
    textsOf d f g (lit "account_id") = textsOf data account email (lit "account_id") := by
  have hfirst : textsOf d f g (lit "account_id") =
      orText (fieldText d (lit "account_id")) (orText (fieldText d (lit "chatgpt_account_id"))
        (strip f)) := if_pos rfl
  rw [hfirst, hown, hchatgpt]
  by_cases hempty : textsOf data account email (lit "account_id") = []
  · -- without an account there was no `chatgpt_account_id` either
    have hnone : fieldText data (lit "chatgpt_account_id") = [] := by
      rw [textsOf, if_pos rfl] at hempty
      unfold orText at hempty
      split_ifs at hempty with hown hchat
      · exact hchat
      · exact hempty
      · exact absurd hempty hown
    have hchat : textsOf data account email (lit "chatgpt_account_id") = [] := by
      rw [textsOf, if_neg (by decide), if_neg (by decide), hnone]
    rw [hempty, hchat, hf hempty]
    rfl
  · exact if_neg hempty

/-- **A normal form that is accepted again is left as it is**, with fallbacks that add nothing. -/
theorem renormalize_of (h : AgentIdentity.normalize py data account email = .ok record)
    (hsame : (sortFields d).Perm (sortFields record)) {f g : Str}
    (hf : textsOf data account email (lit "account_id") = [] → strip f = [])
    (hg : textsOf data account email (lit "email") = [] → strip g = []) {again : Dict}
    (hagain : AgentIdentity.normalize py d f g = .ok again) : again = record := by
  obtain ⟨disabled, fedramp, hform, -, -⟩ := normalize_form h
  obtain ⟨disabled', fedramp', hform', hdisabled', hfedramp'⟩ := normalize_form hagain
  have hn := normalize_ok h
  have hread : ∀ k, get d k = get record k := fun k => by
    refine get_atom hsame ?_ ?_
    · rw [hform]
      exact nodup_form
    · rw [hform]
      exact atom_form k
  have hdis : disabled' = disabled := by
    have hlook : d.lookup (lit "disabled") = some (.bool disabled) := by
      rw [lookup_atom hsame (by rw [hform]; exact nodup_form) (by rw [hform]; exact atom_form _), hform,
        lookup_form_required (by decide)]
      rfl
    rcases hdisabled' with ⟨hnone, -⟩ | hsome
    · rw [hlook] at hnone
      exact absurd hnone (by simp)
    · rw [hlook] at hsome
      exact (Json.bool.inj (Option.some.inj hsome)).symm
  have hfed : fedramp' = fedramp := by
    rw [hread, hform, get_form_fedramp] at hfedramp'
    rcases fedramp with _ | b <;> rcases fedramp' with _ | b' <;> simp_all
  have hruntime : fieldText d (lit "agent_runtime_id") = fieldText data (lit "agent_runtime_id") := by
    have hget : get record (lit "agent_runtime_id") = .str (fieldText data (lit "agent_runtime_id")) := by
      rw [hform]
      unfold Python.Value.get
      rw [lookup_form_required (by decide)]
      rfl
    unfold fieldText at hget ⊢
    rw [hread, hget]
    exact strip_fieldText data _
  have hkey : fieldText d (lit "agent_private_key") = fieldText data (lit "agent_private_key") := by
    have hget : get record (lit "agent_private_key") =
        .str (fieldText data (lit "agent_private_key")) := by
      rw [hform]
      unfold Python.Value.get
      rw [lookup_form_required (by decide)]
      rfl
    unfold fieldText at hget ⊢
    rw [hread, hget]
    exact strip_fieldText data _
  have htext : ∀ k ∈ optionalKeys, fieldText d k = textsOf data account email k := fun k hk => by
    refine fieldText_stored ?_ (strip_textsOf data account email k)
    rw [hread, hform, get_form_optional hk]
  have htexts : ∀ k ∈ optionalKeys, textsOf d f g k = textsOf data account email k := by
    intro k hk
    by_cases haccount : k = lit "account_id"
    · subst haccount
      exact account_again hf (htext _ hk) (htext _ (by decide))
    by_cases hemail : k = lit "email"
    · subst hemail
      rw [← htext _ hk, textsOf, if_neg haccount, if_pos rfl]
      unfold orText
      split_ifs with hempty
      · rw [hempty, hg (by rw [← htext _ hk, hempty])]
      · rfl
    · rw [← htext k hk, textsOf, if_neg haccount, if_neg hemail]
  rw [hform', hform, hdis, hfed, hruntime, hkey]
  unfold form
  rw [storeTexts_congr htexts]

/-- The fields of a normal form that has been written and read are the fallbacks that add nothing. -/
theorem renormalize (h : AgentIdentity.normalize py data account email = .ok record)
    (hsame : (sortFields d).Perm (sortFields record)) {again : Dict}
    (hagain : AgentIdentity.normalize py d (py.text [get d (lit "account_id")])
      (py.text [get d (lit "name")]) = .ok again) : again = record := by
  obtain ⟨disabled, fedramp, hform, -, -⟩ := normalize_form h
  have hread : ∀ k, get d k = get record k := fun k => by
    refine get_atom hsame ?_ ?_
    · rw [hform]
      exact nodup_form
    · rw [hform]
      exact atom_form k
  refine renormalize_of h hsame (fun hempty => ?_) (fun _ => ?_) hagain
  · rw [hread, hform, get_form_optional (by decide), hempty]
    rfl
  · have hname : get d (lit "name") = .null := by
      rw [hread, hform]
      unfold Python.Value.get
      rw [lookup_form_other (by decide)]
      rfl
    rw [hname]
    rfl

/-- **When a normal form is accepted again**: its account and its address are plain if they came from
the fallbacks. -/
theorem renormalize_iff (h : AgentIdentity.normalize py data account email = .ok record)
    (hsame : (sortFields d).Perm (sortFields record)) :
    AgentIdentity.normalize py d (py.text [get d (lit "account_id")]) (py.text [get d (lit "name")]) =
        .ok record ↔
      (optionalText data (lit "account_id") 256 = .ok [] →
        optionalText data (lit "chatgpt_account_id") 256 = .ok [] → plainText 256 (strip account)) ∧
      (optionalText data (lit "email") 320 = .ok [] → plainText 320 (strip email)) := by
  have hn := normalize_ok h
  obtain ⟨disabled, fedramp, hform, -, -⟩ := normalize_form h
  have hlook : ∀ k, d.lookup k = record.lookup k := fun k => by
    refine lookup_atom hsame ?_ ?_
    · rw [hform]
      exact nodup_form
    · rw [hform]
      exact atom_form k
  rw [← hn.account_plain, ← hn.email_plain, ← hn.returns_iff (py.text [get d (lit "account_id")])
    (py.text [get d (lit "name")]), ← normalize_congr hlook]
  constructor
  · exact fun hagain => ⟨record, hagain⟩
  · rintro ⟨again, hagain⟩
    rw [hagain, renormalize h hsame hagain]

end Again

/-! ### The normal form as a credential -/

/-- `fingerprint_parts` -/
def fingerprintParts (py : Py) (data : Dict) : List Str :=
  if AgentIdentity.isAgentIdentity py data then
    [authMode, py.text [get data (lit "agent_runtime_id")], py.text [get data (lit "agent_private_key")]]
  else []

section Closed
variable {py : Py} {data record : Dict} {account email : Str}

/-- A text field that passed its check is the text of the field. -/
theorem text_field {key s : Str} {maximum : ℕ} (h : requiredText data key maximum = .ok s) :
    py.text [get data key] = fieldText data key := by
  unfold requiredText at h
  cases hget : get data key with
  | str value => rw [fieldText_str hget, text_str]
  | _ =>
    rw [hget] at h
    exact absurd h (by simp)

/-- The parts of the fingerprint stay as they are. -/
theorem fingerprintParts_normalize (h : AgentIdentity.normalize py data account email = .ok record) :
    fingerprintParts py record = fingerprintParts py data := by
  have hn := normalize_ok h
  obtain ⟨runtimeId, hruntime, hgetRuntime⟩ := hn.runtime
  obtain ⟨key, hkey, hgetKey⟩ := hn.key
  have hkeyText : ∃ encoded, requiredText data (lit "agent_private_key") 256 = .ok encoded := by
    unfold privateKey at hkey
    obtain ⟨encoded, hencoded, -⟩ := except_bind_ok hkey
    exact ⟨encoded, hencoded⟩
  obtain ⟨encoded, hencoded⟩ := hkeyText
  rw [fingerprintParts, fingerprintParts, if_pos hn.agent, if_pos hn.isAgentIdentity,
    text_field hruntime, text_field hencoded, hgetRuntime, hgetKey, text_str, text_str,
    requiredText_field hruntime, privateKey_field hkey, strip_fieldText, strip_fieldText]

/-- A normal form has the allow-listed fields only. -/
theorem keys_normalize (h : AgentIdentity.normalize py data account email = .ok record) :
    ∀ key ∈ record.map Prod.fst, key ∈ normalKeys := by
  obtain ⟨disabled, fedramp, rfl, -, -⟩ := normalize_form h
  intro key hkey
  by_contra hno
  obtain ⟨kv, hkv, rfl⟩ := List.mem_map.mp hkey
  have hne := List.lookup_eq_none_iff.mp (lookup_form_other hno) kv hkv
  exact absurd hne (by simp)

/-- **When the normal form of a credential is closed under `normalize`**: what comes from a fallback is
plain. -/
theorem normal_form_closed_iff (h : AgentIdentity.normalize py data account email = .ok record) :
    (isValid py record = true ∧ AgentIdentity.normalize py record [] [] = .ok record ∧
        fingerprintParts py record = fingerprintParts py data ∧
        ∀ key ∈ record.map Prod.fst, key ∈ normalKeys) ↔
      (optionalText data (lit "account_id") 256 = .ok [] →
        optionalText data (lit "chatgpt_account_id") 256 = .ok [] → plainText 256 (strip account)) ∧
      (optionalText data (lit "email") 320 = .ok [] → plainText 320 (strip email)) := by
  have hn := normalize_ok h
  have hvalid := hn.isValid_iff
  rw [hn.account_plain, hn.email_plain] at hvalid
  rw [← hvalid]
  refine ⟨fun hall => hall.1, fun hrecord => ⟨hrecord, ?_, fingerprintParts_normalize h,
    keys_normalize h⟩⟩
  cases hagain : AgentIdentity.normalize py record [] [] with
  | error e =>
    rw [isValid, hagain] at hrecord
    exact absurd hrecord (by simp [Except.toBool])
  | ok again =>
    rw [renormalize_of h (List.Perm.refl _) (fun _ => rfl) (fun _ => rfl) hagain]

end Closed

/-- An interpreter that reads the text `key` as an Ed25519 key of zeros. -/
def keyPy : Py :=
  { Python.Dump.tablePy [] [] [] with
    b64decode := fun s => if s = lit "key" then some (ed25519Prefix ++ List.replicate 32 0) else none }

/-- A credential with an ID token and a task, and without an account. -/
def taskIdentity : Dict :=
  [(lit "auth_mode", .str (lit "AgentIdentity")), (lit "agent_runtime_id", .str (lit " run ")),
    (lit "agent_private_key", .str (lit "key")), (lit "id_token", .str (lit "a.b.c")),
    (lit "agent_task_id", .str (lit "task"))]

/-- The normal form of that credential with an account and an address. -/
def taskRecord (account email : Str) : Dict :=
  form false (lit "run") (lit "key")
    (fun key => if key = lit "account_id" then account else if key = lit "email" then email else []) none

theorem plain_fallbacks_closed : isValid keyPy (taskRecord (lit "a") (lit "x@y")) = true ∧
    AgentIdentity.normalize keyPy (taskRecord (lit "a") (lit "x@y")) [] [] =
      .ok (taskRecord (lit "a") (lit "x@y")) ∧
    fingerprintParts keyPy (taskRecord (lit "a") (lit "x@y")) = fingerprintParts keyPy taskIdentity ∧
    ∀ key ∈ (taskRecord (lit "a") (lit "x@y")).map Prod.fst, key ∈ normalKeys :=
  (@normal_form_closed_iff keyPy taskIdentity (taskRecord (lit "a") (lit "x@y")) (lit " a ") (lit "x@y")
    (by decide +kernel)).mpr
      ⟨fun _ _ => by decide +kernel, fun _ => by decide +kernel⟩

/-- The outer account of a record may be longer than the limit of the field it is stored in. -/
theorem long_fallback_invalid :
    AgentIdentity.normalize keyPy taskIdentity (List.replicate 257 97) [] =
      .ok (taskRecord (List.replicate 257 97) []) ∧
    isValid keyPy (taskRecord (List.replicate 257 97) []) = false ∧
    AgentIdentity.normalize keyPy (taskRecord (List.replicate 257 97) []) [] [] =
      .error (lit "account_id is invalid") := by
  refine ⟨by decide +kernel, by decide +kernel, by decide +kernel⟩

end Cloudx.Shared.AgentForm

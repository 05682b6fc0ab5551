import Cloudx.Cloud.ImportRecords
import Cloudx.Shared.AgentForm

/-! # Importing a written file again

What `_flatten` makes of a record that has been read back from its file. The fields of the record come
before the claims of its tokens, so that it stays as it is, unless a field was left blank: the first
value that counts was a text of blanks, and the record does not have the field. Then the claim takes
its place (`flatten_read`, `settled_iff`).

A file that stays is skipped when it is imported again, with or without `force`
(`imported_again`). -/

namespace Cloudx.Cloud.Reimport

open Cloudx.Lib.Memo Cloudx.Lib.Store Cloudx.Lib.Rollback Cloudx.Lib.Fault
open Cloudx.Python.Text Cloudx.Python.Value Cloudx.Python.Dump Cloudx.Python.Canonical
open Cloudx.Python.Compact Cloudx.Python.Reread
open Cloudx.Shared Cloudx.Shared.Credential Cloudx.Shared.Source
open Cloudx.Cloud Cloudx.Cloud.Importer Cloudx.Cloud.ImportRecords

/-! ### When a record is settled -/

/-- The first value that counts among these is a text of blanks. -/
def Blank (py : Py) (values : List Json) : Prop :=
  truthy (pyOrs values) = true ∧ py.text values = []

/-- No field of a token record is left blank, unless the tokens have nothing for it either. -/
structure SettledTokens (py : Py) (entry source accessClaims idClaims : Dict) : Prop where
  email : Blank py [get source (lit "email"), get source (lit "user_email"), get entry (lit "name")] →
    py.text [get idClaims (lit "email")] = []
  account : Blank py [get source (lit "account_id"), get source (lit "chatgpt_account_id")] →
    py.text [get (authClaim accessClaims idClaims) (lit "chatgpt_account_id")] = []
  expiry : Blank py [get source (lit "expired"), get source (lit "expiry"),
      get source (lit "auth_expires_at"), get source (lit "expires_at")] →
    expiredOf py [] accessClaims idClaims = .ok []

/-- The account and the address of an Agent Identity that come from its entry are plain. -/
structure SettledAgent (py : Py) (entry source : Dict) : Prop where
  account : AgentIdentity.optionalText source (lit "account_id") 256 = .ok [] →
    AgentIdentity.optionalText source (lit "chatgpt_account_id") 256 = .ok [] →
      AgentIdentity.plainText 256 (py.text [get entry (lit "account_id")]) = true
  email : AgentIdentity.optionalText source (lit "email") 320 = .ok [] →
    AgentIdentity.plainText 320 (py.text [get entry (lit "name")]) = true

/-- When the record of an entry stays as it is. -/
def Settled (py : Py) (entry : Dict) : Prop :=
  if AgentIdentity.isAgentIdentity py (sourceOf entry) = true then
    SettledAgent py entry (sourceOf entry)
  else ∀ accessClaims idClaims,
    decodeJwtPayload py (authTokens py (sourceOf entry)).access = .ok accessClaims →
    decodeJwtPayload py (authTokens py (sourceOf entry)).id = .ok idClaims →
      SettledTokens py entry (sourceOf entry) accessClaims idClaims

/-! ### A flat record and its fields -/

/-- The fields of a flat record before the copied ones. -/
def baseRecord (disabled websockets : Bool) (tokens : Tokens) (account email expired : Str) : Dict :=
  let flat : Dict := [(lit "type", .str (lit "codex")), (lit "disabled", .bool disabled),
    (lit "websockets", .bool websockets), (lit "access_token", .str tokens.access),
    (lit "refresh_token", .str tokens.refresh), (lit "id_token", .str tokens.id),
    (lit "account_id", .str account)]
  setIf (expired ≠ []) (setIf (email ≠ []) flat (lit "email") (.str email)) (lit "expired")
    (.str expired)

variable {py : Py}

/-- The first of two texts that is not empty, as `pyOrs` chooses it. -/
theorem pyOrs_append : ∀ xs ys : List Json,
    pyOrs (xs ++ ys) = if truthy (pyOrs xs) = true then pyOrs xs else pyOrs ys
  | [], _ => rfl
  | x :: xs, ys => by
    rw [List.cons_append, pyOrs, pyOrs, pyOrs_append xs ys]
    unfold pyOr
    by_cases hx : truthy x = true
    · rw [if_pos hx, if_pos hx, if_pos hx]
    · rw [if_neg hx, if_neg hx]

/-- A text that is chosen among some fields and a claim. -/
theorem text_append (values : List Json) (claim : Json) : py.text (values ++ [claim]) =
    if truthy (pyOrs values) = true then py.text values else py.text [claim] := by
  unfold Py.text
  rw [pyOrs_append]
  split_ifs <;> rfl

/-- **A text that is chosen again**, after the fields have become one: it changes when they are blank and
the claim is not. -/
theorem text_again (values : List Json) (claim : Json) {text : Str}
    (h : py.text (values ++ [claim]) = text) :
    (if text = [] then py.text [claim] else text) = text ↔
      (Blank py values → py.text [claim] = []) := by
  subst h
  rw [text_append]
  unfold Blank
  by_cases hcounts : truthy (pyOrs values) = true
  · rw [if_pos hcounts]
    by_cases hempty : py.text values = []
    · rw [if_pos hempty, hempty]
      exact ⟨fun h _ => h, fun h => h ⟨hcounts, rfl⟩⟩
    · rw [if_neg hempty]
      exact iff_of_true rfl fun hblank => absurd hblank.2 hempty
  · rw [if_neg hcounts]
    refine iff_of_true ?_ fun hblank => absurd hblank.1 hcounts
    split_ifs <;> rfl

/-- The expiry of a record is that of its source or of its tokens. -/
theorem expiredOf_eq (source accessClaims idClaims : Dict) :
    expiredOf py source accessClaims idClaims =
      let values := [get source (lit "expired"), get source (lit "expiry"),
        get source (lit "auth_expires_at"), get source (lit "expires_at")]
      if truthy (pyOrs values) = true then .ok (py.text values)
      else expiredOf py [] accessClaims idClaims := rfl

/-- An expiry that is chosen again. -/
theorem expiry_again {source accessClaims idClaims : Dict} {expired : Str}
    (h : expiredOf py source accessClaims idClaims = .ok expired) :
    (if expired = [] then expiredOf py [] accessClaims idClaims else .ok expired) = .ok expired ↔
      (Blank py [get source (lit "expired"), get source (lit "expiry"),
          get source (lit "auth_expires_at"), get source (lit "expires_at")] →
        expiredOf py [] accessClaims idClaims = .ok []) := by
  rw [expiredOf_eq] at h
  dsimp only at h
  unfold Blank
  by_cases hcounts : truthy (pyOrs [get source (lit "expired"), get source (lit "expiry"),
      get source (lit "auth_expires_at"), get source (lit "expires_at")]) = true
  · rw [if_pos hcounts] at h
    rw [Except.ok.inj h]
    by_cases hempty : expired = []
    · rw [if_pos hempty, hempty]
      exact ⟨fun h _ => h, fun h => h ⟨hcounts, rfl⟩⟩
    · rw [if_neg hempty]
      exact iff_of_true rfl fun hblank => absurd hblank.2 hempty
  · rw [if_neg hcounts] at h
    refine iff_of_true ?_ fun hblank => absurd hblank.1 hcounts
    split_ifs
    · exact h
    · rfl

theorem strip_expiredOf {source accessClaims idClaims : Dict} {expired : Str}
    (h : expiredOf py source accessClaims idClaims = .ok expired) : strip expired = expired := by
  unfold expiredOf at h
  dsimp only at h
  split_ifs at h
  · rw [← Except.ok.inj h]
    exact strip_strip _
  · obtain ⟨access, -, h⟩ := except_bind_ok h
    split_ifs at h
    · rw [← Except.ok.inj h]
      exact strip_strip _
    · obtain ⟨identity, -, h⟩ := except_bind_ok h
      rw [← Except.ok.inj h]
      exact strip_strip _

/-! ### Copied keys -/

theorem lookup_copyKeys_ne (payload : Dict) {k : Str} : ∀ {keys : List Str} {flat : Dict}, k ∉ keys →
    (copyKeys payload keys flat).lookup k = flat.lookup k
  | [], _, _ => rfl
  | key :: keys, flat, h => by
    rw [List.mem_cons, not_or] at h
    show (copyKeys payload keys (setIf (has payload key) flat key (get payload key))).lookup k = _
    rw [lookup_copyKeys_ne payload h.2]
    unfold setIf
    split_ifs
    · exact lookup_set_ne flat h.1 _
    · rfl

/-- A copied key has what the source has. -/
theorem lookup_copyKeys {payload : Dict} {k : Str} : ∀ {keys : List Str} {flat : Dict}, keys.Nodup →
    k ∈ keys → flat.lookup k = none → (copyKeys payload keys flat).lookup k = payload.lookup k
  | key :: keys, flat, hnd, hk, hnone => by
    rw [List.nodup_cons] at hnd
    show (copyKeys payload keys (setIf (has payload key) flat key (get payload key))).lookup k = _
    rcases List.mem_cons.mp hk with rfl | hk
    · rw [lookup_copyKeys_ne payload hnd.1]
      unfold setIf has
      rcases hlook : payload.lookup k with _ | v
      · exact hnone
      · have hget : get payload k = v := by
          unfold Python.Value.get
          rw [hlook]
          rfl
        rw [hget]
        exact lookup_set_self flat k v
    · have hne : k ≠ key := fun h => hnd.1 (h ▸ hk)
      refine lookup_copyKeys hnd.2 hk ?_
      unfold setIf
      split_ifs
      · rw [lookup_set_ne flat hne, hnone]
      · exact hnone

theorem nodup_copyKeys {payload : Dict} : ∀ {keys : List Str} {flat : Dict},
    (flat.map Prod.fst).Nodup → ((copyKeys payload keys flat).map Prod.fst).Nodup
  | [], _, h => h
  | key :: keys, flat, h => by
    show ((copyKeys payload keys (setIf (has payload key) flat key (get payload key))).map Prod.fst).Nodup
    exact nodup_copyKeys (nodup_setIf h _ key _)

/-- Copying what is the same. -/
theorem copyKeys_same {d e : Dict} : ∀ {keys : List Str} {flat flat' : Dict},
    (∀ k ∈ keys, has d k = has e k ∧ Same (get d k) (get e k)) → SameValues flat flat' →
      SameValues (copyKeys d keys flat) (copyKeys e keys flat')
  | [], _, _, _, h => h
  | key :: keys, flat, flat', hkeys, h => by
    obtain ⟨hhas, hget⟩ := hkeys key List.mem_cons_self
    show SameValues (copyKeys d keys (setIf (has d key) flat key (get d key)))
      (copyKeys e keys (setIf (has e key) flat' key (get e key)))
    refine copyKeys_same (fun k hk => hkeys k (List.mem_cons_of_mem key hk)) ?_
    rw [hhas]
    unfold setIf
    split_ifs
    · exact h.set hget key
    · exact h

/-! ### Token records -/

/-- The keys before the copied ones. -/
def baseKeys : List Str :=
  [lit "type", lit "disabled", lit "websockets", lit "access_token", lit "refresh_token",
    lit "id_token", lit "account_id", lit "email", lit "expired"]

theorem lookup_base_none {disabled websockets : Bool} {tokens : Tokens} {account email expired k : Str}
    (hk : k ∉ baseKeys) :
    (baseRecord disabled websockets tokens account email expired).lookup k = none := by
  have hset : ∀ (condition : Bool) (d : Dict) (key : Str) (value : Json), k ≠ key →
      (setIf condition d key value).lookup k = d.lookup k := by
    intro condition d key value hne
    unfold setIf
    split_ifs
    · exact lookup_set_ne d hne value
    · rfl
  simp only [baseKeys, List.mem_cons, List.not_mem_nil, or_false, not_or] at hk
  obtain ⟨h1, h2, h3, h4, h5, h6, h7, h8, h9⟩ := hk
  unfold baseRecord
  rw [hset _ _ _ _ h9, hset _ _ _ _ h8]
  exact lookup_none (by simp [h1, h2, h3, h4, h5, h6, h7])

section Tokens
variable {source d : Dict} {disabled websockets : Bool} {tokens : Tokens} {account email expired : Str}

theorem get_base_fixed {k : Str} (hemail : k ≠ lit "email") (hexpired : k ≠ lit "expired") :
    get (baseRecord disabled websockets tokens account email expired) k =
      get [(lit "type", .str (lit "codex")), (lit "disabled", .bool disabled),
        (lit "websockets", .bool websockets), (lit "access_token", .str tokens.access),
        (lit "refresh_token", .str tokens.refresh), (lit "id_token", .str tokens.id),
        (lit "account_id", .str account)] k := by
  unfold baseRecord
  rw [get_setIf_ne _ _ hexpired, get_setIf_ne _ _ hemail]

theorem get_setIf_stored {d : Dict} {key : Str} (h : get d key = .null) (s : Str) :
    get (setIf (s ≠ []) d key (.str s)) key = AgentIdentity.stored s := by
  unfold setIf AgentIdentity.stored
  by_cases hs : s = []
  · rw [if_neg (by simpa using hs), if_pos hs, h]
  · rw [if_pos (by simpa using hs), if_neg hs, get_set_self]

theorem get_base_email :
    get (baseRecord disabled websockets tokens account email expired) (lit "email") =
      AgentIdentity.stored email := by
  unfold baseRecord
  rw [get_setIf_ne _ _ (by decide)]
  exact get_setIf_stored rfl email

theorem get_base_expired :
    get (baseRecord disabled websockets tokens account email expired) (lit "expired") =
      AgentIdentity.stored expired := by
  unfold baseRecord
  refine get_setIf_stored ?_ expired
  rw [get_setIf_ne _ _ (by decide)]
  rfl

/-- The fields before the copied ones hold no container. -/
theorem atom_base (k : Str) :
    Atom (get (baseRecord disabled websockets tokens account email expired) k) := by
  have hstored : ∀ s, Atom (AgentIdentity.stored s) := fun s => by
    unfold AgentIdentity.stored
    split_ifs <;> exact trivial
  by_cases hemail : k = lit "email"
  · rw [hemail, get_base_email]
    exact hstored email
  by_cases hexpired : k = lit "expired"
  · rw [hexpired, get_base_expired]
    exact hstored expired
  rw [get_base_fixed hemail hexpired]
  refine atom_get (fun kv hkv => ?_) k
  simp only [List.mem_cons, List.not_mem_nil, or_false] at hkv
  rcases hkv with rfl | rfl | rfl | rfl | rfl | rfl | rfl <;> exact trivial

theorem nodup_base :
    ((baseRecord disabled websockets tokens account email expired).map Prod.fst).Nodup := by
  refine nodup_setIf (nodup_setIf ?_ _ _ _) _ _ _
  exact (by decide : [lit "type", lit "disabled", lit "websockets", lit "access_token",
    lit "refresh_token", lit "id_token", lit "account_id"].Nodup)

/-- A stored text is chosen before all others, if it is there. -/
theorem text_stored {s : Str} (hs : strip s = s) (values : List Json) :
    py.text (AgentIdentity.stored s :: values) = if s = [] then py.text values else s := by
  unfold AgentIdentity.stored
  by_cases hempty : s = []
  · rw [if_pos hempty, if_pos hempty]
    rfl
  · have hcounts : truthy (.str s) = true := by simpa [truthy] using hempty
    rw [if_neg hempty, if_neg hempty]
    unfold Py.text
    rw [pyOrs, pyOr, if_pos hcounts]
    exact hs

variable (hsame : (sortFields d).Perm
  (sortFields (copyKeys source copiedKeys (baseRecord disabled websockets tokens account email expired))))
include hsame

/-- A field of a record that is read back. -/
theorem read_base {k : Str} (hk : k ∉ copiedKeys) :
    get d k = get (baseRecord disabled websockets tokens account email expired) k := by
  have hrecord : get (copyKeys source copiedKeys
      (baseRecord disabled websockets tokens account email expired)) k =
        get (baseRecord disabled websockets tokens account email expired) k :=
    get_copyKeys_ne source hk
  rw [get_atom hsame (nodup_copyKeys nodup_base) (by rw [hrecord]; exact atom_base k), hrecord]

/-- A field that the record does not have. -/
theorem read_null {k : Str} (hk : k ∉ copiedKeys ++ baseKeys) : get d k = .null := by
  rw [List.mem_append, not_or] at hk
  rw [read_base hsame hk.1]
  unfold Python.Value.get
  rw [lookup_base_none hk.2]
  rfl

/-- **What `_flatten` makes of a record that is read back.** -/
theorem flatten_read {accessClaims idClaims : Dict} (htokens : tokens.Stripped)
    (hany : tokens.any = true) (haccess : decodeJwtPayload py tokens.access = .ok accessClaims)
    (hid : decodeJwtPayload py tokens.id = .ok idClaims) (haccount : strip account = account)
    (hemail : strip email = email) (hexpired : strip expired = expired) :
    flatten py d =
      (if expired = [] then expiredOf py [] accessClaims idClaims else .ok expired) >>= fun expired' =>
        .ok (copyKeys d copiedKeys (baseRecord disabled websockets tokens
          (if account = [] then py.text [get (authClaim accessClaims idClaims) (lit "chatgpt_account_id")]
            else account)
          (if email = [] then py.text [get idClaims (lit "email")] else email) expired')) := by
  have hsource : sourceOf d = d := by
    unfold sourceOf
    rw [read_null hsame (by decide)]
  have hagent : AgentIdentity.isAgentIdentity py d = false :=
    AgentIdentity.not_agent_of_mode (read_null hsame (by decide))
  have hfield : ∀ k, k ∉ copiedKeys → k ≠ lit "email" → k ≠ lit "expired" → get d k =
      get [(lit "type", .str (lit "codex")), (lit "disabled", .bool disabled),
        (lit "websockets", .bool websockets), (lit "access_token", .str tokens.access),
        (lit "refresh_token", .str tokens.refresh), (lit "id_token", .str tokens.id),
        (lit "account_id", .str account)] k := fun k h1 h2 h3 => by
    rw [read_base hsame h1, get_base_fixed h2 h3]
  have hread : authTokens py d = tokens := by
    refine authTokens_fields htokens ?_ ?_ ?_ (read_null hsame (by decide)) (read_null hsame (by decide))
    · exact (hfield _ (by decide) (by decide) (by decide)).trans rfl
    · exact (hfield _ (by decide) (by decide) (by decide)).trans rfl
    · exact (hfield _ (by decide) (by decide) (by decide)).trans rfl
  have htype : authType py d d = lit "codex" := by
    have hcodex : get d (lit "type") = .str (lit "codex") :=
      (hfield _ (by decide) (by decide) (by decide)).trans rfl
    have hfold : py.casefold (lit "codex") = lit "codex" := by
      rw [py.casefold_ascii _ (by decide)]
      decide
    have hnested : pyOrs [get d (lit "type"), get d (lit "provider")] = .str (lit "codex") := by
      rw [hcodex]
      rfl
    unfold authType
    rw [hnested]
    show (if py.casefold (lit "codex") ≠ [] then py.casefold (lit "codex") else _) = _
    rw [hfold, if_pos (by decide)]
  have hexpiry : expiredOf py d accessClaims idClaims =
      if expired = [] then expiredOf py [] accessClaims idClaims else .ok expired := by
    have hown : get d (lit "expired") = AgentIdentity.stored expired :=
      (read_base hsame (by decide)).trans get_base_expired
    rw [expiredOf_eq, hown, read_null hsame (by decide), read_null hsame (by decide),
      read_null hsame (by decide)]
    dsimp only
    rw [text_stored hexpired]
    by_cases hempty : expired = []
    · rw [if_pos hempty, hempty]
      rfl
    · have hcounts : truthy (pyOrs [AgentIdentity.stored expired, .null, .null, .null]) = true := by
        simp [AgentIdentity.stored, hempty, pyOrs, pyOr, truthy]
      rw [if_neg hempty, if_neg hempty, if_pos hcounts]
  have hrecord : ∀ expired', flatRecord py d d tokens accessClaims idClaims expired' =
      copyKeys d copiedKeys (baseRecord disabled websockets tokens
        (if account = [] then py.text [get (authClaim accessClaims idClaims) (lit "chatgpt_account_id")]
          else account)
        (if email = [] then py.text [get idClaims (lit "email")] else email) expired') := by
    intro expired'
    have haddress : get d (lit "email") = AgentIdentity.stored email :=
      (read_base hsame (by decide)).trans get_base_email
    have hown : get d (lit "account_id") = .str account :=
      (hfield _ (by decide) (by decide) (by decide)).trans rfl
    have hdisabled : truthy (get d (lit "disabled")) = disabled := by
      rw [(hfield _ (by decide) (by decide) (by decide)).trans rfl]
      rfl
    have hwebsockets : truthy (get d (lit "websockets")) = websockets := by
      rw [(hfield _ (by decide) (by decide) (by decide)).trans rfl]
      rfl
    have hfirst : py.text [get d (lit "account_id"), get d (lit "chatgpt_account_id"),
        get (authClaim accessClaims idClaims) (lit "chatgpt_account_id")] =
          if account = [] then
            py.text [get (authClaim accessClaims idClaims) (lit "chatgpt_account_id")]
          else account := by
      rw [hown, read_null hsame (by decide)]
      by_cases hempty : account = []
      · rw [if_pos hempty, hempty]
        rfl
      · have hstored : Json.str account = AgentIdentity.stored account := (if_neg hempty).symm
        rw [hstored, text_stored haccount, if_neg hempty, if_neg hempty]
    have hsecond : py.text [get d (lit "email"), get d (lit "user_email"), get d (lit "name"),
        get idClaims (lit "email")] =
          if email = [] then py.text [get idClaims (lit "email")] else email := by
      rw [haddress, read_null hsame (by decide), read_null hsame (by decide), text_stored hemail]
      rfl
    unfold flatRecord
    rw [hfirst, hsecond, hdisabled, hwebsockets]
    rfl
  unfold flatten
  dsimp only
  rw [hsource, if_neg (by simp [hagent]), hread, hany, haccess, hid, htype]
  show (expiredOf py d accessClaims idClaims >>= fun expired' =>
    Except.ok (flatRecord py d d tokens accessClaims idClaims expired')) = _
  simp only [hexpiry, hrecord]

end Tokens

theorem stored_inj {a b : Str} (h : AgentIdentity.stored a = AgentIdentity.stored b) : a = b := by
  unfold AgentIdentity.stored at h
  split_ifs at h with ha hb
  · rw [ha, hb]
  · exact Json.str.inj h

/-- **When the record of tokens stays**: if nothing in it is left blank. -/
theorem tokens_again {entry source d accessClaims idClaims : Dict} {tokens : Tokens} {expired : Str}
    (htokens : tokens.Stripped) (hany : tokens.any = true)
    (haccess : decodeJwtPayload py tokens.access = .ok accessClaims)
    (hid : decodeJwtPayload py tokens.id = .ok idClaims)
    (hexpired : expiredOf py source accessClaims idClaims = .ok expired)
    (hsame : (sortFields d).Perm
      (sortFields (flatRecord py entry source tokens accessClaims idClaims expired))) :
    (∃ again, flatten py d = .ok again ∧
        Same (.obj again) (.obj (flatRecord py entry source tokens accessClaims idClaims expired))) ↔
      SettledTokens py entry source accessClaims idClaims := by
  set disabled := truthy (get source (lit "disabled"))
  set websockets := truthy (get source (lit "websockets"))
  set account := py.text ([get source (lit "account_id"), get source (lit "chatgpt_account_id")] ++
    [get (authClaim accessClaims idClaims) (lit "chatgpt_account_id")]) with haccount
  set email := py.text ([get source (lit "email"), get source (lit "user_email"),
    get entry (lit "name")] ++ [get idClaims (lit "email")]) with hemail
  have hrecord : flatRecord py entry source tokens accessClaims idClaims expired =
      copyKeys source copiedKeys (baseRecord disabled websockets tokens account email expired) := rfl
  rw [hrecord] at hsame ⊢
  have hread : flatten py d = _ := flatten_read hsame htokens hany haccess hid (strip_text py _)
    (strip_text py _) (strip_expiredOf hexpired)
  have hsecond := @text_again py _ _ _ hemail.symm
  have hfirst := @text_again py _ _ _ haccount.symm
  generalize (if account = [] then py.text [get (authClaim accessClaims idClaims)
    (lit "chatgpt_account_id")] else account) = account' at hread hfirst
  generalize (if email = [] then py.text [get idClaims (lit "email")] else email) = email' at hread hsecond
  have hnodup : ((copyKeys source copiedKeys
      (baseRecord disabled websockets tokens account email expired)).map Prod.fst).Nodup :=
    nodup_copyKeys nodup_base
  constructor
  · rintro ⟨again, hagain, heq⟩
    rw [hread] at hagain
    obtain ⟨expired', hexpired', hagain⟩ := except_bind_ok hagain
    rw [← Except.ok.inj hagain] at heq
    obtain ⟨e, he, hperm⟩ := same_obj heq
    rw [← Json.obj.inj he] at hperm
    have hfield : ∀ k ∉ copiedKeys, get (baseRecord disabled websockets tokens account' email' expired') k =
        get (baseRecord disabled websockets tokens account email expired) k := by
      intro k hk
      have hboth := read_base hperm hk
      rwa [get_copyKeys_ne _ hk] at hboth
    refine ⟨hsecond.mp ?_, hfirst.mp ?_, (expiry_again hexpired).mp ?_⟩
    · have hkey := hfield (lit "email") (by decide)
      rw [get_base_email, get_base_email] at hkey
      exact stored_inj hkey
    · have hkey := hfield (lit "account_id") (by decide)
      rw [get_base_fixed (by decide) (by decide), get_base_fixed (by decide) (by decide)] at hkey
      exact Json.str.inj hkey
    · have hkey := hfield (lit "expired") (by decide)
      rw [get_base_expired, get_base_expired] at hkey
      rw [hexpired', stored_inj hkey]
  · intro hsettled
    rw [hsecond.mpr hsettled.email, hfirst.mpr hsettled.account,
      (expiry_again hexpired).mpr hsettled.expiry] at hread
    have hkeys : ∀ k ∈ copiedKeys, k ∉ baseKeys := by decide
    refine ⟨_, hread, SameValues.same (copyKeys_same (fun k hk => ?_) (SameValues.refl _))⟩
    have hlook : (copyKeys source copiedKeys
        (baseRecord disabled websockets tokens account email expired)).lookup k = source.lookup k :=
      lookup_copyKeys (by decide) hk (lookup_base_none (hkeys k hk))
    have hhas := has_same hsame hnodup k
    have hget := get_same hsame hnodup k
    unfold has at hhas ⊢
    unfold Python.Value.get at hget ⊢
    rw [hlook] at hhas hget
    exact ⟨hhas, hget⟩

/-! ### The parts of `_flatten` -/

/-- The record of a token entry. -/
theorem flatten_tokens {entry record : Dict} (h : flatten py entry = .ok record)
    (hagent : AgentIdentity.isAgentIdentity py (sourceOf entry) = false) :
    ∃ accessClaims idClaims expired, (authTokens py (sourceOf entry)).any = true ∧
      decodeJwtPayload py (authTokens py (sourceOf entry)).access = .ok accessClaims ∧
      decodeJwtPayload py (authTokens py (sourceOf entry)).id = .ok idClaims ∧
      expiredOf py (sourceOf entry) accessClaims idClaims = .ok expired ∧
      record = flatRecord py entry (sourceOf entry) (authTokens py (sourceOf entry)) accessClaims
        idClaims expired := by
  unfold flatten at h
  dsimp only at h
  rw [if_neg (by simp [hagent])] at h
  by_cases hany : (authTokens py (sourceOf entry)).any = true
  swap
  · rw [if_pos (by simpa using hany)] at h
    exact absurd h (by simp)
  rw [if_neg (by simpa using hany)] at h
  obtain ⟨accessClaims, haccess, h⟩ := except_bind_ok h
  obtain ⟨idClaims, hid, h⟩ := except_bind_ok h
  split_ifs at h
  obtain ⟨expired, hexpired, h⟩ := except_bind_ok h
  exact ⟨accessClaims, idClaims, expired, hany, haccess, hid, hexpired, (Except.ok.inj h).symm⟩

/-- The record of an Agent Identity. -/
theorem flatten_agent {entry record : Dict}
    (hagent : AgentIdentity.isAgentIdentity py (sourceOf entry) = true) :
    flatten py entry = .ok record ↔ AgentIdentity.normalize py (sourceOf entry)
      (py.text [get entry (lit "account_id")]) (py.text [get entry (lit "name")]) = .ok record := by
  unfold flatten
  dsimp only
  rw [if_pos hagent]
  rcases AgentIdentity.normalize py (sourceOf entry) (py.text [get entry (lit "account_id")])
      (py.text [get entry (lit "name")]) with message | form
  · exact iff_of_false (by simp) (by simp)
  · exact ⟨fun h => by rw [Except.ok.inj h], fun h => by rw [Except.ok.inj h]⟩

/-- What every flat record is like: its keys are distinct, it has none of the keys of a container, and
what its fingerprint is made of is no container. -/
structure FlatForm (record : Dict) : Prop where
  nodup : (record.map Prod.fst).Nodup
  bare : ∀ k ∈ [lit "schema", lit "result", lit "payload", lit "accounts", lit "files",
    lit "credentials", lit "token", lit "tokens"], record.lookup k = none
  atoms : ∀ k ∈ [lit "auth_mode", lit "agent_runtime_id", lit "agent_private_key",
    lit "access_token", lit "refresh_token", lit "id_token"], Atom (get record k)

/-- **Every flat record has this form.** -/
theorem flatForm {entry record : Dict} (h : flatten py entry = .ok record) : FlatForm record := by
  by_cases hagent : AgentIdentity.isAgentIdentity py (sourceOf entry) = true
  · obtain ⟨disabled, fedramp, hform, -, -⟩ :=
      AgentForm.normalize_form ((flatten_agent hagent).mp h)
    have hbare : ∀ k ∈ [lit "schema", lit "result", lit "payload", lit "accounts", lit "files",
        lit "credentials", lit "token", lit "tokens"], k ∉ AgentIdentity.normalKeys := by decide
    rw [hform]
    exact ⟨AgentForm.nodup_form, fun k hk => AgentForm.lookup_form_other (hbare k hk),
      fun k _ => AgentForm.atom_form k⟩
  · obtain ⟨accessClaims, idClaims, expired, -, -, -, -, hrecord⟩ :=
      flatten_tokens h (Bool.eq_false_iff.mpr hagent)
    have hbare : ∀ k ∈ [lit "schema", lit "result", lit "payload", lit "accounts", lit "files",
        lit "credentials", lit "token", lit "tokens"], k ∉ copiedKeys ∧ k ∉ baseKeys := by decide
    have hatoms : ∀ k ∈ [lit "auth_mode", lit "agent_runtime_id", lit "agent_private_key",
        lit "access_token", lit "refresh_token", lit "id_token"], k ∉ copiedKeys := by decide
    rw [hrecord]
    refine ⟨nodup_copyKeys nodup_base, fun k hk => ?_, fun k hk => ?_⟩
    · exact (lookup_copyKeys_ne _ (hbare k hk).1).trans (lookup_base_none (hbare k hk).2)
    · exact (get_copyKeys_ne _ (hatoms k hk)).symm ▸ atom_base k

section Again
variable {record d : Dict} (hform : FlatForm record) (hsame : (sortFields d).Perm (sortFields record))
include hform hsame

theorem lookup_bare {k : Str} (hk : k ∈ [lit "schema", lit "result", lit "payload", lit "accounts",
    lit "files", lit "credentials", lit "token", lit "tokens"]) : d.lookup k = none := by
  have hnone := hform.bare k hk
  have hatom : Atom (get record k) := by
    unfold Python.Value.get
    rw [hnone]
    exact trivial
  rw [lookup_atom hsame hform.nodup hatom, hnone]

theorem get_bare {k : Str} (hk : k ∈ [lit "schema", lit "result", lit "payload", lit "accounts",
    lit "files", lit "credentials", lit "token", lit "tokens"]) : get d k = .null := by
  unfold Python.Value.get
  rw [lookup_bare hform hsame hk]
  rfl

/-- A record that is read back is no container. -/
theorem sourceOf_bare : sourceOf d = d := by
  unfold sourceOf
  rw [get_bare hform hsame (by decide)]

/-- **A record that is read back has the same fingerprint.** -/
theorem fingerprint_again : fingerprint py d = fingerprint py record := by
  have hget : ∀ k ∈ [lit "auth_mode", lit "agent_runtime_id", lit "agent_private_key",
      lit "access_token", lit "refresh_token", lit "id_token"], get d k = get record k :=
    fun k hk => get_atom hsame hform.nodup (hform.atoms k hk)
  have hbare : ∀ k ∈ [lit "token", lit "tokens"], get d k = .null ∧ get record k = .null := by
    intro k hk
    have hmem : k ∈ [lit "schema", lit "result", lit "payload", lit "accounts", lit "files",
        lit "credentials", lit "token", lit "tokens"] := by
      have : ∀ k ∈ [lit "token", lit "tokens"], k ∈ [lit "schema", lit "result", lit "payload",
        lit "accounts", lit "files", lit "credentials", lit "token", lit "tokens"] := by decide
      exact this k hk
    refine ⟨get_bare hform hsame hmem, ?_⟩
    unfold Python.Value.get
    rw [hform.bare k hmem]
    rfl
  unfold fingerprint fingerprintParts AgentIdentity.isAgentIdentity authTokens authToken
  rw [hget (lit "auth_mode") (by decide), hget (lit "agent_runtime_id") (by decide),
    hget (lit "agent_private_key") (by decide), hget (lit "access_token") (by decide),
    hget (lit "refresh_token") (by decide), hget (lit "id_token") (by decide),
    (hbare (lit "token") (by decide)).1, (hbare (lit "token") (by decide)).2,
    (hbare (lit "tokens") (by decide)).1, (hbare (lit "tokens") (by decide)).2]

end Again

/-- **When a record stays as it is**: if its entry was settled. -/
theorem settled_iff {entry record d : Dict} (h : flatten py entry = .ok record)
    (hsame : (sortFields d).Perm (sortFields record)) :
    (∃ again, flatten py d = .ok again ∧ Same (.obj again) (.obj record)) ↔ Settled py entry := by
  have hform := flatForm h
  unfold Settled
  by_cases hagent : AgentIdentity.isAgentIdentity py (sourceOf entry) = true
  · rw [if_pos hagent]
    have hnormal := (flatten_agent hagent).mp h
    have hagain : AgentIdentity.isAgentIdentity py (sourceOf d) = true := by
      rw [sourceOf_bare hform hsame]
      have hmode := get_atom hsame hform.nodup (hform.atoms (lit "auth_mode") (by decide))
      have := (AgentIdentity.normalize_ok hnormal).isAgentIdentity
      unfold AgentIdentity.isAgentIdentity at this ⊢
      rw [hmode]
      exact this
    have hkept := AgentForm.renormalize_iff hnormal hsame
    rw [strip_text, strip_text] at hkept
    have hiff : SettledAgent py entry (sourceOf entry) ↔ flatten py d = .ok record := by
      rw [flatten_agent hagain, sourceOf_bare hform hsame, hkept]
      exact ⟨fun h => ⟨h.account, h.email⟩, fun h => ⟨h.1, h.2⟩⟩
    rw [hiff]
    constructor
    · rintro ⟨again, hflat, -⟩
      have hsame' : again = record := by
        have hnormal' := (flatten_agent hagain).mp hflat
        rw [sourceOf_bare hform hsame] at hnormal'
        exact AgentForm.renormalize hnormal hsame hnormal'
      rw [hflat, hsame']
    · exact fun hflat => ⟨record, hflat, Same.rfl⟩
  · rw [if_neg hagent]
    obtain ⟨accessClaims, idClaims, expired, hany, haccess, hid, hexpired, rfl⟩ :=
      flatten_tokens h (Bool.eq_false_iff.mpr hagent)
    rw [tokens_again (stripped_authTokens py _) hany haccess hid hexpired hsame]
    constructor
    · intro hsettled access identity hax hix
      rw [← Except.ok.inj (haccess.symm.trans hax), ← Except.ok.inj (hid.symm.trans hix)]
      exact hsettled
    · exact fun hall => hall accessClaims idClaims haccess hid

/-! ### The bytes of a file -/

section Bytes
variable {dec : Decoder} {σ : Type} {ask : Endpoint σ} {record d : Dict}

theorem accountsIn_none {key : Str} : ∀ {fields : List (Str × Json)}, fields.lookup key = none →
    accountsIn key fields = none
  | [], _ => by unfold accountsIn; rfl
  | (k, v) :: rest, h => by
    rw [List.lookup_cons] at h
    by_cases hk : key = k
    · rw [beq_iff_eq.mpr hk] at h
      exact absurd h (by simp)
    · rw [beq_false_of_ne hk] at h
      unfold accountsIn
      rw [if_neg (Ne.symm hk), accountsIn_none h]

theorem listIn_none : ∀ {fields : List (Str × Json)}, fields.lookup (lit "accounts") = none →
    listIn fields = none
  | [], _ => by unfold listIn; rfl
  | (k, v) :: rest, h => by
    rw [List.lookup_cons] at h
    by_cases hk : lit "accounts" = k
    · rw [beq_iff_eq.mpr hk] at h
      exact absurd h (by simp)
    · rw [beq_false_of_ne hk] at h
      unfold listIn
      rw [if_neg (Ne.symm hk), listIn_none h]

/-- A record that is read back is its own entry. -/
theorem expand_bare (hform : FlatForm record) (hsame : (sortFields d).Perm (sortFields record)) :
    expand (.obj d) = [d] := by
  unfold expand
  rw [accountsIn_none (lookup_bare hform hsame (by decide)),
    accountsIn_none (lookup_bare hform hsame (by decide)),
    listIn_none (lookup_bare hform hsame (by decide)), get_bare hform hsame (by decide)]

/-- The text of a record has one document. -/
theorem jsonDocuments_record
    (hread : dec.loads (dumpsAt py true 0 (.obj record)) = .value (.obj d)) :
    jsonDocuments dec (dumps py true (.obj record)) = .ok [.obj d] := by
  have hne : dumpsAt py true 0 (.obj record) ≠ [] := by
    unfold dumpsAt block
    split_ifs <;> simp
  unfold jsonDocuments
  dsimp only
  rw [strip_dumps, if_neg hne, hread]

/-- **`normalize` of the file of a record** is `_flatten` of what is read from it. -/
theorem normalize_file (hf : FloatTexts py) (hform : FlatForm record)
    (hread : dec.loads (dumpsAt py true 0 (.obj record)) = .value (.obj d))
    (hsame : (sortFields d).Perm (sortFields record)) (s : σ) :
    Importer.normalize py dec ask (serialized py record).bytes s =
      (flatten py d >>= fun again => unique py [again], s) := by
  have hlaid := laid_dumps hf (.obj record)
  have hsource : decodeSource (utf8 (dumps py true (.obj record))) =
      .ok (dumps py true (.obj record)) :=
    decodeSource_ascii hlaid.ascii fun hzero => by
      have := hlaid 0 hzero
      omega
  have hdocuments := jsonDocuments_record hread
  have henvelope : envelopeFiles [.obj d] = none := by
    show (if get d (lit "schema") = _ then some (get d (lit "files")) else none) = none
    rw [get_bare hform hsame (by decide)]
    rfl
  have hfound : ∀ normal, documentRecords py normal [.obj d] s =
      (flatten py d >>= fun again => .ok [again], s) := by
    intro normal
    unfold documentRecords
    rw [henvelope, List.flatMap_singleton, expand_bare hform hsame]
    show (flatten py d >>= fun again => Except.ok [again], s) = _
    rfl
  have htext : ∀ n, normalizeText py dec ask (n + 1) (dumps py true (.obj record)) s =
      (flatten py d >>= fun again => .ok [again], s) := by
    intro n
    unfold normalizeText
    rw [Act.bind_ok (pureStep_ok hdocuments s)]
    rcases hflat : flatten py d with e | again
    · rw [Act.bind_error ((hfound _).trans (by rw [hflat]; rfl))]
      rfl
    · rw [Act.bind_ok ((hfound _).trans (by rw [hflat]; rfl))]
      rfl
  show Importer.normalize py dec ask (utf8 (dumps py true (.obj record))) s = _
  unfold Importer.normalize
  rw [Act.bind_ok (pureStep_ok hsource s)]
  rcases hflat : flatten py d with e | again
  · rw [Act.bind_error ((htext _).trans (by rw [hflat]; rfl))]
    rfl
  · rw [Act.bind_ok ((htext _).trans (by rw [hflat]; rfl))]
    rfl

end Bytes

/-! ### The import of a file -/

/-- A file that an import has written is kept: `normalize` makes its record of it again, without the
endpoint, and where the file still is, importing it skips it, with or without `force`. -/
def Kept (py : Py) (dec : Decoder) (name : FileName) (record : Dict) : Prop :=
  ∀ (σ : Type) (ask : Endpoint σ) (s : σ), ∃ again,
    Importer.normalize py dec ask (serialized py record).bytes s = (.ok [again], s) ∧
    Same (.obj again) (.obj record) ∧ target py again = .ok name ∧
    ∀ (force : Bool) (others : Finset FileName) (files : Dir FileName File), name ∉ others →
      files.lookup name = some (serialized py record) →
        importRecords py (fun _ => false) force dec ask (some []) false (serialized py record).bytes s
            (.present others files) =
          (.ok (resultOf py false (serialized py record).bytes ⟨0, 1⟩), s, .present others files)

/-- A single record is unique, if it has a fingerprint. -/
theorem unique_single (record : Dict) :
    unique py [record] = (fingerprint py record).map fun _ => [record] := by
  unfold unique keyed keyed
  rcases fingerprint py record with e | print
  · rfl
  · rfl

/-- A record whose target holds its bytes is skipped. -/
theorem storeRecords_same {record : Dict} {name : FileName} {file : File} {force : Bool}
    {others : Finset FileName} {files : Dir FileName File} (htarget : target py record = .ok name)
    (hothers : name ∉ others) (hfile : files.lookup name = some file)
    (hbytes : file.bytes = (serialized py record).bytes) :
    storeRecords py (fun _ => false) force false [record] (.present others files) =
      (.ok ⟨0, 1⟩, .present others files) := by
  have hplan : planFrom py (fun _ => false) force (.present others files) 0 [record] =
      .ok (1, []) := by
    have hregular : name ∉ (Found.present others files).others := hothers
    have hfound : (Found.present others files).files.lookup name = some file := hfile
    unfold planFrom
    rw [htarget]
    simp only [bind, Except.bind]
    rw [if_neg hregular, if_neg (by simp), hfound, Option.map_some, if_pos (congrArg some hbytes)]
    rfl
  show underLock py (fun _ => false) force false [record] (.present others files) = _
  unfold underLock
  rw [if_neg (by simp), hplan]
  rfl

/-- **When a written file is kept**: if the entry of its record was settled. -/
theorem kept_iff {dec : Decoder} {entry record d : Dict} {name : FileName} (hf : FloatTexts py)
    (h : flatten py entry = .ok record) (htarget : target py record = .ok name)
    (hread : dec.loads (dumpsAt py true 0 (.obj record)) = .value (.obj d))
    (hsame : (sortFields d).Perm (sortFields record)) :
    Kept py dec name record ↔ Settled py entry := by
  have hform := flatForm h
  rw [← settled_iff h hsame]
  constructor
  · intro hkept
    obtain ⟨again, hnormal, heq, -⟩ := hkept Unit silent ()
    rw [normalize_file hf hform hread hsame] at hnormal
    obtain ⟨record', hflat, hunique⟩ := except_bind_ok (Prod.mk.inj hnormal).1
    rw [unique_single] at hunique
    obtain ⟨print, -, hsingle⟩ := except_map_ok hunique
    refine ⟨again, ?_, heq⟩
    rw [hflat, List.singleton_inj.mp hsingle]
  · rintro ⟨again, hflat, heq⟩ σ ask s
    obtain ⟨e, he, hperm⟩ := same_obj heq
    rw [← Json.obj.inj he] at hperm
    have hprint : fingerprint py again = fingerprint py record := fingerprint_again hform hperm
    have htarget' : target py again = .ok name := by
      rw [← htarget]
      unfold target
      rw [hprint]
    obtain ⟨print, hfound, -⟩ := target_ok htarget'
    have hnormal : Importer.normalize py dec ask (serialized py record).bytes s = (.ok [again], s) := by
      rw [normalize_file hf hform hread hsame, hflat]
      show (unique py [again], s) = _
      rw [unique_single, hfound]
      rfl
    refine ⟨again, hnormal, heq, htarget', fun force others files hothers hfile => ?_⟩
    have hbytes : (serialized py record).bytes = (serialized py again).bytes := by
      show utf8 (dumps py true (.obj record)) = utf8 (dumps py true (.obj again))
      rw [dumps_same heq]
    have hcapable : checkCapability py (some []) [again] = .ok () := by
      unfold checkCapability
      split_ifs <;> rfl
    rw [importRecords_eq (fun _ => false) false (.present others files) hnormal, hcapable]
    dsimp only
    rw [storeRecords_same htarget' hothers hfile hbytes]
    rfl

/-! ### Every file of an import -/

section Run
variable {dec : Decoder} {σ : Type} {ask : Endpoint σ}

theorem flattenAll_entries : ∀ {entries records : List Dict}, flattenAll py entries = .ok records →
    ∀ record ∈ records, ∃ entry, flatten py entry = .ok record
  | [], records, h, record, hmem => by
    rw [← Except.ok.inj h] at hmem
    exact absurd hmem (by simp)
  | entry :: rest, records, h, record, hmem => by
    obtain ⟨first, hfirst, h⟩ := except_bind_ok h
    obtain ⟨more, hmore, h⟩ := except_bind_ok h
    rw [← Except.ok.inj h] at hmem
    rcases List.mem_cons.mp hmem with rfl | hmem
    · exact ⟨entry, hfirst⟩
    · exact flattenAll_entries hmore record hmem

theorem refreshLines_entries : ∀ {lines : List Str} {s s' : σ} {records : List Dict},
    refreshLines py ask lines s = (.ok records, s') →
      ∀ record ∈ records, ∃ entry, flatten py entry = .ok record
  | [], s, s', records, h, record, hmem => by
    rw [← Except.ok.inj (Prod.mk.inj h).1] at hmem
    exact absurd hmem (by simp)
  | line :: rest, s, s', records, h, record, hmem => by
    unfold refreshLines at h
    obtain ⟨card, s₁, hcard, h⟩ := Act.bind_eq_ok.mp h
    rcases card with _ | card
    · exact refreshLines_entries h record hmem
    · obtain ⟨first, s₂, hfirst, h⟩ := Act.bind_eq_ok.mp h
      obtain ⟨more, s₃, hmore, h⟩ := Act.bind_eq_ok.mp h
      rw [← Except.ok.inj (Prod.mk.inj h).1] at hmem
      rcases List.mem_cons.mp hmem with rfl | hmem
      · unfold refreshCard at hfirst
        dsimp only at hfirst
        split_ifs at hfirst
        · exact absurd (Prod.mk.inj hfirst).1 (by simp)
        · split at hfirst
          · exact ⟨_, (Prod.mk.inj hfirst).1⟩
          · exact absurd (Prod.mk.inj hfirst).1 (by simp)
      · exact refreshLines_entries hmore record hmem

theorem envelopeRecords_entries {normal : Str → Act σ PyError (List Dict)}
    (h : ∀ {text s s' records}, normal text s = (.ok records, s') →
      ∀ record ∈ records, ∃ entry, flatten py entry = .ok record) :
    ∀ {items : List Json} {s s' : σ} {records : List Dict},
      envelopeRecords normal items s = (.ok records, s') →
        ∀ record ∈ records, ∃ entry, flatten py entry = .ok record
  | [], s, s', records, hrun, record, hmem => by
    rw [← Except.ok.inj (Prod.mk.inj hrun).1] at hmem
    exact absurd hmem (by simp)
  | item :: rest, s, s', records, hrun, record, hmem => by
    unfold envelopeRecords at hrun
    rcases hcontent : contentOf item with _ | content
    · rw [hcontent] at hrun
      exact absurd (Prod.mk.inj hrun).1 (by simp)
    · rw [hcontent] at hrun
      obtain ⟨first, s₁, hfirst, hrun⟩ := Act.bind_eq_ok.mp hrun
      obtain ⟨more, s₂, hmore, hrun⟩ := Act.bind_eq_ok.mp hrun
      rw [← Except.ok.inj (Prod.mk.inj hrun).1] at hmem
      rcases List.mem_append.mp hmem with hmem | hmem
      · exact h hfirst record hmem
      · exact envelopeRecords_entries h hmore record hmem

/-- **Every record of a text is that of an entry.** -/
theorem normalizeText_entries : ∀ {n : ℕ} {text : Str} {s s' : σ} {records : List Dict},
    normalizeText py dec ask n text s = (.ok records, s') →
      ∀ record ∈ records, ∃ entry, flatten py entry = .ok record
  | 0, _, _, _, _, h => absurd (Prod.mk.inj h).1 (by simp)
  | n + 1, text, s, s', records, h => by
    unfold normalizeText at h
    obtain ⟨documents, s₁, -, h⟩ := Act.bind_eq_ok.mp h
    obtain ⟨found, s₂, hfound, h⟩ := Act.bind_eq_ok.mp h
    obtain ⟨kept, s₃, hkept, h⟩ := Act.bind_eq_ok.mp h
    have hentries : ∀ record ∈ found, ∃ entry, flatten py entry = .ok record := by
      unfold documentRecords at hfound
      rcases henvelope : envelopeFiles documents with _ | files
      · rw [henvelope] at hfound
        exact flattenAll_entries (Prod.mk.inj hfound).1
      · rw [henvelope] at hfound
        cases files with
        | arr items => exact envelopeRecords_entries normalizeText_entries hfound
        | _ => exact absurd (Prod.mk.inj hfound).1 (by simp)
    have hsome : someRecords kept = .ok records := (Prod.mk.inj h).1
    unfold someRecords at hsome
    split_ifs at hsome
    rw [← Except.ok.inj hsome]
    unfold orCards at hkept
    split_ifs at hkept
    · exact refreshLines_entries hkept
    · rw [← Except.ok.inj (Prod.mk.inj hkept).1]
      exact hentries

/-- What is written is named by no other kind of file. -/
theorem planFrom_regular {fails : Step → Bool} {force : Bool} {auth : AuthDir} :
    ∀ {records : List Dict} {i skipped : ℕ} {plan : List (Write FileName File)},
      planFrom py fails force auth i records = .ok (skipped, plan) →
        ∀ record ∈ records, ∀ name, target py record = .ok name → name ∉ auth.others
  | [], _, _, _, _, _, hmem, _, _ => absurd hmem (by simp)
  | first :: rest, i, skipped, plan, h, record, hmem, name, hname => by
    unfold planFrom at h
    obtain ⟨name', hname', h⟩ := except_bind_ok h
    dsimp only at h
    split_ifs at h with h1 h2 h3 h4
    · obtain ⟨more, hmore, -⟩ := except_bind_ok h
      rcases List.mem_cons.mp hmem with rfl | hmem
      · rw [← Except.ok.inj (hname'.symm.trans hname)]
        exact h1
      · exact planFrom_regular hmore record hmem name hname
    · obtain ⟨more, hmore, -⟩ := except_bind_ok h
      rcases List.mem_cons.mp hmem with rfl | hmem
      · rw [← Except.ok.inj (hname'.symm.trans hname)]
        exact h1
      · exact planFrom_regular hmore record hmem name hname

theorem storeRecords_regular {fails : Step → Bool} {force : Bool} {records : List Dict}
    {auth auth' : AuthDir} {counts : Counts}
    (h : storeRecords py fails force false records auth = (.ok counts, auth')) :
    ∀ record ∈ records, ∀ name, target py record = .ok name → name ∉ auth'.others := by
  have hlocked : underLock py fails force false records auth = (.ok counts, auth') := by
    rcases auth with _ | _ | ⟨others, files⟩
    · exact h
    · exact absurd (Prod.mk.inj h).1 (by simp)
    · exact h
  unfold underLock at hlocked
  by_cases hlock : fails .lock = true
  · rw [if_pos hlock] at hlocked
    exact absurd (Prod.mk.inj hlocked).1 (by simp)
  rw [if_neg hlock] at hlocked
  rcases hplan : planFrom py fails force auth 0 records with e | ⟨skipped, plan⟩
  · rw [hplan] at hlocked
    exact absurd (Prod.mk.inj hlocked).1 (by simp)
  · rw [hplan] at hlocked
    rw [← (Prod.mk.inj hlocked).2]
    exact fun record hmem name hname => planFrom_regular hplan record hmem name hname

/-- The records of a source come from entries. -/
theorem normalize_entries {raw : Bytes} {s s' : σ} {records : List Dict}
    (h : Importer.normalize py dec ask raw s = (.ok records, s')) :
    ∃ all, unique py all = .ok records ∧ ∀ record ∈ records, ∃ entry, flatten py entry = .ok record := by
  unfold Importer.normalize at h
  obtain ⟨text, s₁, -, h⟩ := Act.bind_eq_ok.mp h
  obtain ⟨all, s₂, hall, h⟩ := Act.bind_eq_ok.mp h
  have hunique : unique py all = .ok records := (Prod.mk.inj h).1
  refine ⟨all, hunique, fun record hmem => ?_⟩
  obtain ⟨keys, hkeys, hunique⟩ := except_bind_ok hunique
  rw [← Except.ok.inj hunique] at hmem
  obtain ⟨x, hx, rfl⟩ := List.mem_map.mp hmem
  exact normalizeText_entries hall x.2 (mem_keyed hkeys (mem_of_mem_firsts hx)).1

variable {fails : Step → Bool} {force : Bool} {capability : Option Str} {raw : Bytes} {s s' : σ}
  {auth auth' : AuthDir} {result : ImportResult}

/-- A successful import is the transaction of its records. -/
theorem importRecords_ok
    (h : importRecords py fails force dec ask capability false raw s auth = (.ok result, s', auth')) :
    ∃ records, Importer.normalize py dec ask raw s = (.ok records, s') ∧
      storeRecords py fails force false records auth = (.ok result.counts, auth') := by
  unfold importRecords at h
  rcases hnormal : Importer.normalize py dec ask raw s with ⟨e | records, s₁⟩
  · rw [hnormal] at h
    exact absurd (Prod.mk.inj h).1 (by simp)
  · rw [hnormal] at h
    dsimp only at h
    rcases hcheck : checkCapability py capability records with e | ⟨⟩
    · rw [hcheck] at h
      exact absurd (Prod.mk.inj h).1 (by simp)
    · rw [hcheck] at h
      obtain ⟨hresult, hrest⟩ := Prod.mk.inj h
      obtain ⟨hs, hauth⟩ := Prod.mk.inj hrest
      obtain ⟨counts, hcounts, rfl⟩ := except_map_ok hresult
      exact ⟨records, by rw [hs], Prod.ext hcounts hauth⟩

/-- **Which files of an import stay**: the files that it writes, and for each of them, that it is kept
exactly when the entry of its record was settled. -/
theorem imported_again (hf : FloatTexts py)
    (himport : importRecords py fails force dec ask capability false raw s auth =
      (.ok result, s', auth'))
    (hshort : ∀ records, (Importer.normalize py dec ask raw s).1 = .ok records →
      ShortDigests py records)
    (hread : ∀ records, (Importer.normalize py dec ask raw s).1 = .ok records →
      ∀ record ∈ records, ∃ v, dec.loads (dumpsAt py true 0 (.obj record)) = .value v ∧
        Same v (.obj record)) :
    ∃ files : List (FileName × Dict), files.length = result.counts.written ∧
      (∀ n ∉ files.map Prod.fst, auth'.files.lookup n = auth.files.lookup n) ∧
      ∀ f ∈ files, auth'.files.lookup f.1 = some (serialized py f.2) ∧ f.1 ∉ auth'.others ∧
        (∃ entry, flatten py entry = .ok f.2) ∧
        ∀ entry, flatten py entry = .ok f.2 → (Kept py dec f.1 f.2 ↔ Settled py entry) := by
  obtain ⟨records, hnormal, hstore⟩ := importRecords_ok himport
  obtain ⟨all, hunique, hentries⟩ := normalize_entries hnormal
  obtain ⟨targets, hstored⟩ := storeRecords_ok hunique (hshort records (by rw [hnormal])) hstore
  refine ⟨targets.filter fun x => ¬ stored py auth.files x, ?_, fun n hn => ?_, fun f hf' => ?_⟩
  · rw [hstored.written, List.countP_eq_length_filter]
  · refine hstored.same n fun x hx hname => ?_
    by_contra hno
    exact hn (List.mem_map.mpr ⟨x, List.mem_filter.mpr ⟨hx, by simpa using hno⟩, hname⟩)
  · obtain ⟨hmem, hno⟩ := List.mem_filter.mp hf'
    obtain ⟨hrecord, htarget⟩ := mem_keyed hstored.found hmem
    refine ⟨hstored.changed f hmem (by simpa using hno),
      storeRecords_regular hstore f.2 hrecord f.1 htarget, hentries f.2 hrecord, fun entry hflat => ?_⟩
    obtain ⟨v, hv, hsame⟩ := hread records (by rw [hnormal]) f.2 hrecord
    obtain ⟨d, rfl, hperm⟩ := same_obj hsame
    exact kept_iff hf hflat htarget hv hperm

end Run

/-- An interpreter with an ID token whose payload has an address. -/
def claimsPy : Py :=
  { tablePy [(utf8 ([0, 0] ++ lit "h.p.s"),
      lit "88fb5eecc41b25a8c61b4faea7bc5fd6c4a7f6c27b1f9c8650fba4ec35dd68aa")] []
      [(lit "p", .obj [(lit "email", .str (lit "a@b"))])] with
    floatText := fun _ => lit "1.0" }

/-- The flat record of the token. -/
def tokenRecord (email : Str) : Dict :=
  setIf (email ≠ []) [(lit "type", .str (lit "codex")), (lit "disabled", .bool false),
    (lit "websockets", .bool false), (lit "access_token", .str []), (lit "refresh_token", .str []),
    (lit "id_token", .str (lit "h.p.s")), (lit "account_id", .str [])] (lit "email") (.str email)

/-- A decoder that reads the text `x` as the token with an address, and all others as a record. -/
def tokenDecoder (email : String) (record : Dict) : Decoder where
  loads text :=
    if text = lit "x" then
      .value (.obj [(lit "id_token", .str (lit "h.p.s")), (lit "email", .str (lit email))])
    else .value (.obj record)
  rawDecode _ _ := .jsonError 0

/-- The file of the record. -/
def tokenName : FileName := ⟨lit "codex-88fb5eecc41b25a8c61b4fae.json", by decide⟩

/-- The bytes of the file of a record. -/
def tokenBytes (email : Str) : Bytes := (serialized claimsPy (tokenRecord email)).bytes

/-- An address of blanks is left out of the record, and the next import takes that of the token: the
file is refused without `force`, and replaced with it. -/
theorem blank_address_changes :
    importRecords claimsPy (fun _ => false) false (tokenDecoder " " (tokenRecord [])) silent none false
        [120] () .absent =
      (.ok (resultOf claimsPy false [120] ⟨1, 0⟩), (),
        .present ∅ ((∅ : Dir FileName File).insert tokenName (serialized claimsPy (tokenRecord [])))) ∧
    ¬ Kept claimsPy (tokenDecoder " " (tokenRecord [])) tokenName (tokenRecord []) ∧
    ∀ force, (importRecords claimsPy (fun _ => false) force (tokenDecoder " " (tokenRecord [])) silent
        (some []) false (tokenBytes []) () (.present ∅ ((∅ : Dir FileName File).insert tokenName
          (serialized claimsPy (tokenRecord []))))).1 =
      if force then .ok (resultOf claimsPy false (tokenBytes []) ⟨1, 0⟩)
      else .error (rejected "target_exists"
        "an import target already exists; use --force to replace it") := by
  have hagain : Importer.normalize claimsPy (tokenDecoder " " (tokenRecord [])) silent (tokenBytes [])
      () = (.ok [tokenRecord (lit "a@b")], ()) := by decide +kernel
  refine ⟨by decide +kernel, fun hkept => ?_, fun force => ?_⟩
  · obtain ⟨again, hnormal, hsame, -⟩ := hkept Unit silent ()
    have heq : again = tokenRecord (lit "a@b") := by
      have := hnormal.symm.trans hagain
      exact List.singleton_inj.mp (Except.ok.inj (Prod.mk.inj this).1)
    rw [heq] at hsame
    exact absurd hsame (by unfold Same; decide +kernel)
  · cases force <;> decide +kernel

/-- A record with an address of its own stays as it is. -/
theorem own_address_kept : ∃ files : List (FileName × Dict), files.length = 1 ∧
    ∀ f ∈ files, ∀ entry, flatten claimsPy entry = .ok f.2 →
      (Kept claimsPy (tokenDecoder "c@d" (tokenRecord (lit "c@d"))) f.1 f.2 ↔
        Settled claimsPy entry) := by
  have hnormal : Importer.normalize claimsPy (tokenDecoder "c@d" (tokenRecord (lit "c@d"))) silent [120]
      () = (.ok [tokenRecord (lit "c@d")], ()) := by decide +kernel
  have himport : importRecords claimsPy (fun _ => false) false
      (tokenDecoder "c@d" (tokenRecord (lit "c@d"))) silent none false [120] () .absent =
      (.ok (resultOf claimsPy false [120] ⟨1, 0⟩), (), .present ∅ ((∅ : Dir FileName File).insert
        tokenName (serialized claimsPy (tokenRecord (lit "c@d"))))) := by decide +kernel
  have hfloat : FloatTexts claimsPy :=
    ⟨fun _ => show ∀ c ∈ lit "1.0", c ∈ numberChars by decide,
      fun _ => show ∃ c ∈ lit "1.0", c ∈ lit ".eNI" by decide,
      fun _ => show ∀ c ∈ (lit "1.0").head?, c ∈ lit "0123456789-NI" by decide⟩
  have hshort : ∀ records, (Importer.normalize claimsPy (tokenDecoder "c@d" (tokenRecord (lit "c@d")))
      silent [120] ()).1 = .ok records → ShortDigests claimsPy records := by
    intro records h
    rw [hnormal] at h
    rw [← Except.ok.inj h]
    intro r hr r' hr' p p' hp hp' _
    rw [List.mem_singleton.mp hr] at hp
    rw [List.mem_singleton.mp hr'] at hp'
    exact Except.ok.inj (hp.symm.trans hp')
  have hread : ∀ records, (Importer.normalize claimsPy (tokenDecoder "c@d" (tokenRecord (lit "c@d")))
      silent [120] ()).1 = .ok records → ∀ record ∈ records, ∃ v,
        (tokenDecoder "c@d" (tokenRecord (lit "c@d"))).loads (dumpsAt claimsPy true 0 (.obj record)) =
          .value v ∧ Same v (.obj record) := by
    intro records h record hrecord
    rw [hnormal] at h
    rw [← Except.ok.inj h] at hrecord
    rw [List.mem_singleton.mp hrecord]
    exact ⟨.obj (tokenRecord (lit "c@d")), by decide +kernel, Same.rfl⟩
  obtain ⟨files, hlength, -, hfiles⟩ := imported_again hfloat himport hshort hread
  exact ⟨files, hlength, fun f hf => (hfiles f hf).2.2.2⟩

end Cloudx.Cloud.Reimport

import Cloudx.Cloud.Importer
import Cloudx.Local.Importer

/-! # Which credentials an import takes for the same

Both imports keep the first record of each fingerprint. Probing tells credentials apart by more than
what the fingerprint is made of: it also knows the account of a token record. A record that is not kept
is then lost to the sweeps, unless a kept one has its identity.

The fingerprint is the digest of texts joined by null characters (`nothing_lost_iff`). -/

namespace Cloudx.Joint.Duplicates

open Cloudx.Lib.Memo Cloudx.Lib.Fault
open Cloudx.Python.Text Cloudx.Python.Value Cloudx.Python.Dump
open Cloudx.Shared Cloudx.Shared.Credential Cloudx.Shared.Source

/-- What probing tells credentials apart by: the runtime and the key of an Agent Identity, or the
tokens and the account. -/
inductive Identity where
  | agent (runtimeId privateKey : Str)
  | tokens (tokens : Tokens) (accountId : Str)
deriving DecidableEq

variable (py : Py)

/-- The identity of a record. -/
def identity (record : Dict) : Identity :=
  if AgentIdentity.isAgentIdentity py record then
    .agent (py.text [get record (lit "agent_runtime_id")])
      (py.text [get record (lit "agent_private_key")])
  else .tokens (authTokens py record) (authAccountId py record)

/-- What is hashed of a record. -/
def printed (record : Dict) : Bytes := utf8 ([0].intercalate (fingerprintParts py record))

/-- No two of the records have one digest for different bytes. -/
def NoCollision (records : List Dict) : Prop :=
  ∀ r ∈ records, ∀ r' ∈ records, py.sha256 (printed py r) = py.sha256 (printed py r') →
    printed py r = printed py r'

/-- **No record is lost**: each has its identity among those that are kept. -/
def NothingLost (records kept : List Dict) : Prop :=
  ∀ r ∈ records, ∃ k ∈ kept, identity py k = identity py r

/-- What the records must not be for the fingerprint to tell them apart: with the same tokens and
other accounts, of different kinds with the same fields, or with other fields that give the same bytes
when null characters join them. -/
structure ToldApart (records : List Dict) : Prop where
  accounts : ∀ r ∈ records, ∀ r' ∈ records, AgentIdentity.isAgentIdentity py r = false →
    AgentIdentity.isAgentIdentity py r' = false → authTokens py r = authTokens py r' →
      authAccountId py r = authAccountId py r'
  kinds : ∀ r ∈ records, ∀ r' ∈ records, AgentIdentity.isAgentIdentity py r = true →
    AgentIdentity.isAgentIdentity py r' = false → fingerprintParts py r ≠ fingerprintParts py r'
  nulls : ∀ r ∈ records, ∀ r' ∈ records, fingerprintParts py r ≠ fingerprintParts py r' →
    printed py r ≠ printed py r'

variable {py}

/-- What is hashed is part of the identity. -/
theorem fingerprintParts_identity {r r' : Dict} (h : identity py r = identity py r') :
    fingerprintParts py r = fingerprintParts py r' := by
  unfold identity at h
  unfold fingerprintParts
  by_cases hr : AgentIdentity.isAgentIdentity py r = true
  · by_cases hr' : AgentIdentity.isAgentIdentity py r' = true
    · rw [if_pos hr, if_pos hr'] at h ⊢
      obtain ⟨hruntime, hkey⟩ := Identity.agent.inj h
      rw [hruntime, hkey]
    · rw [if_pos hr, if_neg hr'] at h
      exact absurd h (by simp)
  · by_cases hr' : AgentIdentity.isAgentIdentity py r' = true
    · rw [if_neg hr, if_pos hr'] at h
      exact absurd h (by simp)
    · rw [if_neg hr, if_neg hr'] at h ⊢
      rw [(Identity.tokens.inj h).1]

theorem fingerprint_ok {r : Dict} {print : Str} (h : fingerprint py r = .ok print) :
    print = py.sha256 (printed py r) := by
  unfold fingerprint at h
  simp only at h
  split_ifs at h
  exact (Except.ok.inj h).symm

theorem tokens_ext {t t' : Tokens} (haccess : t.access = t'.access) (hrefresh : t.refresh = t'.refresh)
    (hid : t.id = t'.id) : t = t' := by
  cases t
  cases t'
  cases haccess
  cases hrefresh
  cases hid
  rfl

/-- Records are told apart exactly when those that are hashed alike have one identity. -/
theorem toldApart_iff {records : List Dict} : ToldApart py records ↔
    ∀ r ∈ records, ∀ r' ∈ records, printed py r = printed py r' → identity py r = identity py r' := by
  constructor
  · intro h r hr r' hr' hprinted
    have hparts : fingerprintParts py r = fingerprintParts py r' := by
      by_contra hne
      exact h.nulls r hr r' hr' hne hprinted
    rcases hk : AgentIdentity.isAgentIdentity py r with _ | _
    · rcases hk' : AgentIdentity.isAgentIdentity py r' with _ | _
      · have htokens : authTokens py r = authTokens py r' := by
          simp only [fingerprintParts, hk, hk', Bool.false_eq_true, if_false, List.cons.injEq] at hparts
          obtain ⟨haccess, hrefresh, hid, -⟩ := hparts
          exact tokens_ext haccess hrefresh hid
        have haccount := h.accounts r hr r' hr' hk hk' htokens
        simp only [identity, hk, hk', Bool.false_eq_true, if_false, htokens, haccount]
      · exact absurd hparts.symm (h.kinds r' hr' r hr hk' hk)
    · rcases hk' : AgentIdentity.isAgentIdentity py r' with _ | _
      · exact absurd hparts (h.kinds r hr r' hr' hk hk')
      · simp only [fingerprintParts, hk, hk', if_true, List.cons.injEq, true_and, and_true] at hparts
        simp only [identity, hk, hk', if_true, hparts.1, hparts.2]
  · intro h
    have hprinted : ∀ r r' : Dict, fingerprintParts py r = fingerprintParts py r' →
        printed py r = printed py r' := fun r r' hparts => by rw [printed, printed, hparts]
    refine ⟨fun r hr r' hr' hk hk' htokens => ?_, fun r hr r' hr' hk hk' hparts => ?_,
      fun r hr r' hr' hne hsame => hne (fingerprintParts_identity (h r hr r' hr' hsame))⟩
    · have hparts : fingerprintParts py r = fingerprintParts py r' := by
        simp only [fingerprintParts, hk, hk', Bool.false_eq_true, if_false, htokens]
      have hident := h r hr r' hr' (hprinted r r' hparts)
      simp only [identity, hk, hk', Bool.false_eq_true, if_false] at hident
      exact (Identity.tokens.inj hident).2
    · have hident := h r hr r' hr' (hprinted r r' hparts)
      simp only [identity, hk, hk', Bool.false_eq_true, if_false, if_true] at hident
      exact absurd hident (by simp)

/-- **What is kept of the firsts of the fingerprints** loses nothing exactly when the records are told
apart. -/
theorem firsts_lose_nothing {records : List Dict} {keys : List (Str × Dict)}
    (hkeys : keyed (fingerprint py) records = .ok keys) (hno : NoCollision py records) :
    NothingLost py records ((firsts keys).map Prod.snd) ↔ ToldApart py records := by
  have hident : ∀ r ∈ records, ∀ r' ∈ records, identity py r = identity py r' →
      fingerprint py r = fingerprint py r' := by
    intro r _ r' _ h
    unfold fingerprint
    rw [fingerprintParts_identity h]
  rw [toldApart_iff]
  refine (firsts_represent hkeys hident).trans
    ⟨fun h r hr r' hr' hprinted => ?_, fun h r hr r' hr' hsame => ?_⟩
  · obtain ⟨x, -, rfl, hx⟩ := forall₂_mem_left (forall_keyed hkeys) r hr
    obtain ⟨x', -, rfl, hx'⟩ := forall₂_mem_left (forall_keyed hkeys) r' hr'
    refine h _ hr _ hr' ?_
    rw [hx, hx', fingerprint_ok hx, fingerprint_ok hx', hprinted]
  · obtain ⟨x, -, rfl, hx⟩ := forall₂_mem_left (forall_keyed hkeys) r hr
    obtain ⟨x', -, rfl, hx'⟩ := forall₂_mem_left (forall_keyed hkeys) r' hr'
    refine h _ hr _ hr' (hno _ hr _ hr' ?_)
    rw [← fingerprint_ok hx, ← fingerprint_ok hx']
    rw [hx, hx'] at hsame
    exact Except.ok.inj hsame

/-- `_deduplicate` keeps the firsts of the fingerprints that it has not seen. -/
theorem deduplicate_firsts : ∀ {records kept : List (Dict × Str)} {seen : List Str},
    Local.Importer.deduplicate py seen records = .ok kept →
      ∃ keys, keyed (fun x : Dict × Str => fingerprint py x.1) records = .ok keys ∧
        kept = ((firsts keys).filter fun x => x.1 ∉ seen).map Prod.snd
  | [], kept, seen, h => by
    rw [← Except.ok.inj h]
    exact ⟨[], rfl, rfl⟩
  | (flat, hint) :: rest, kept, seen, h => by
    obtain ⟨print, hprint, h⟩ := except_bind_ok h
    by_cases hseen : print ∈ seen
    · rw [if_pos hseen] at h
      obtain ⟨keys, hkeys, rfl⟩ := deduplicate_firsts h
      refine ⟨(print, flat, hint) :: keys, ?_, ?_⟩
      · rw [keyed, hprint, hkeys]
        rfl
      · rw [firsts, List.filter_cons_of_neg (by simpa using hseen), List.filter_filter]
        congr 1
        refine List.filter_congr fun x _ => ?_
        by_cases hx : x.1 = print
        · simp [hx, hseen]
        · simp [hx]
    · rw [if_neg hseen] at h
      obtain ⟨more, hmore, h⟩ := except_bind_ok h
      obtain ⟨keys, hkeys, rfl⟩ := deduplicate_firsts hmore
      refine ⟨(print, flat, hint) :: keys, ?_, ?_⟩
      · rw [keyed, hprint, hkeys]
        rfl
      · rw [firsts, List.filter_cons_of_pos (by simpa using hseen), List.map_cons,
          List.filter_filter, ← Except.ok.inj h]
        congr 2
        refine List.filter_congr fun x _ => ?_
        by_cases hx : x.1 = print
        · simp [hx]
        · simp [hx]

/-- The name hints do not matter for the fingerprints. -/
theorem keyed_fst : ∀ {records : List (Dict × Str)} {keys : List (Str × Dict × Str)},
    keyed (fun x : Dict × Str => fingerprint py x.1) records = .ok keys →
      keyed (fingerprint py) (records.map Prod.fst) = .ok (keys.map fun x => (x.1, x.2.1))
  | [], keys, h => by
    rw [← Except.ok.inj h]
    rfl
  | x :: rest, keys, h => by
    obtain ⟨print, hprint, h⟩ := except_bind_ok h
    obtain ⟨more, hmore, h⟩ := except_bind_ok h
    have hfst : fingerprint py x.1 = .ok print := hprint
    rw [← Except.ok.inj h, List.map_cons, keyed, hfst, keyed_fst hmore]
    rfl

theorem firsts_fst : ∀ keys : List (Str × Dict × Str),
    firsts (keys.map fun x => (x.1, x.2.1)) = (firsts keys).map fun x => (x.1, x.2.1)
  | [] => rfl
  | x :: rest => by
    rw [List.map_cons, firsts, firsts, List.map_cons, firsts_fst rest, List.filter_map]
    rfl

/-- A decoder that reads every text as accounts with these tokens and account ids. -/
def accountsDecoder (accounts : List (String × String)) : Decoder where
  loads _ := .value (.arr (accounts.map fun x =>
    .obj [(lit "access_token", .str (lit x.1)), (lit "account_id", .str (lit x.2))]))
  rawDecode _ _ := .jsonError 0

/-- The flat record of such an account. -/
def accountRecord (x : String × String) : Dict :=
  [(lit "type", .str (lit "codex")), (lit "disabled", .bool false), (lit "websockets", .bool false),
    (lit "access_token", .str (lit x.1)), (lit "refresh_token", .str []), (lit "id_token", .str []),
    (lit "account_id", .str (lit x.2))]

/-- An interpreter with the digests of the tokens `one` and `two`. -/
def accountsPy : Py := tablePy [
  (utf8 (lit "one" ++ [0, 0]), lit "8311ba4c03fe7ba730d7c48544eb66e7a098b48a16a7520f97dfdf07ec0c1f75"),
  (utf8 (lit "two" ++ [0, 0]), lit "63596f276d3bf970da2be71abcbc2fe11a298516e8d871a1b229476b8ded2e1c")] [] []

/-- The endpoint that never answers. -/
def noEndpoint : Cloud.Importer.Endpoint Unit := fun _ s => (none, s)

/-- The text of one source. -/
def oneSource : List Local.Importer.SourceText := [⟨lit "x", lit "stdin", fun _ _ => []⟩]

/-- The flat records of such accounts, without name hints. -/
def hinted (accounts : List (String × String)) : List (Dict × Str) :=
  accounts.map fun x => (accountRecord x, [])

/-- Two accounts with one token. -/
def sameToken : List (String × String) := [("one", "a"), ("one", "b")]

/-- Two accounts with different tokens. -/
def otherToken : List (String × String) := [("one", "a"), ("two", "a")]

end Cloudx.Joint.Duplicates

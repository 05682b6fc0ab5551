import Cloudx.Python.Dump

/-! # Answers of the token endpoint

What opening a refresh request gives and reading the answer, and the refresh token in it. The endpoint
takes the old token back when it answers, so that the new one is nowhere else. -/

namespace Cloudx.Shared.TokenEndpoint

open Cloudx.Python.Text Cloudx.Python.Value Cloudx.Python.Dump

/-- What comes of a refresh request: an HTTP error, one of `URLError`, `TimeoutError`, `OSError` and
`ValueError`, another exception, or the body of an answer. -/
inductive Reply where
  | httpError (code : ℕ)
  | unavailable
  | raised (e : PyError)
  | body (file : File)
deriving DecidableEq

/-- The JSON of an answer, if it is read. -/
def Reply.json : Reply → Option Json
  | .body ⟨_, .value v⟩ => some v
  | _ => none

/-- The refresh token that an answer gives out. -/
def Reply.successor (reply : Reply) : Option Str :=
  match reply.json with
  | some (.obj payload) => match get payload (lit "refresh_token") with
    | .str token => if token = [] then none else some token
    | _ => none
  | _ => none

/-- The file is read as a document with this refresh token. -/
def Holds (file : File) (token : Str) : Prop :=
  ∃ document, file.content = .value (.obj document) ∧ get document (lit "refresh_token") = .str token

theorem holds_jsonFile {py : Py} {ascii : Bool} {record : Dict} {token : Str} :
    Holds (jsonFile py ascii record) token ↔ get record (lit "refresh_token") = .str token := by
  constructor
  · rintro ⟨document, hcontent, hget⟩
    rw [Json.obj.inj (Loaded.value.inj hcontent)]
    exact hget
  · intro hget
    exact ⟨record, rfl, hget⟩

theorem successor_some {reply : Reply} {token : Str} (h : reply.successor = some token) :
    token ≠ [] ∧ ∃ raw payload, reply = .body ⟨raw, .value (.obj payload)⟩ ∧
      get payload (lit "refresh_token") = .str token := by
  unfold Reply.successor at h
  split at h
  · next payload hjson =>
    split at h
    · next text htext =>
      split_ifs at h with hempty
      rw [← Option.some.inj h]
      refine ⟨hempty, ?_⟩
      unfold Reply.json at hjson
      split at hjson
      · next raw v =>
        rw [Option.some.inj hjson]
        exact ⟨raw, payload, rfl, htext⟩
      · exact absurd hjson (by simp)
    · exact absurd h (by simp)
  · exact absurd h (by simp)

end Cloudx.Shared.TokenEndpoint

import Cloudx.Python.Dump
import Cloudx.Shared.AgentIdentity
import Cloudx.Shared.Credential

/-! # Import sources

What the cloud importer and the local importer share: the JSON objects in a text, and the fingerprint
by which equal credentials are found. -/

namespace Cloudx.Shared.Source

open Cloudx.Python.Text Cloudx.Python.Value Cloudx.Python.Dump
open Cloudx.Shared Cloudx.Shared.Credential

/-- What `JSONDecoder().raw_decode(text, start)` does: a value and where it ends, a decode error at a
position, or another exception. -/
inductive RawDecoded where
  | value (v : Json) (stop : ℕ)
  | jsonError (pos : ℕ)
  | raised (e : PyError)

/-- The JSON decoder on texts. -/
structure Decoder where
  /-- `json.loads(text)`; a text has no decoding to fail -/
  loads : Str → Loaded
  /-- `JSONDecoder().raw_decode(text, start)` -/
  rawDecode : Str → ℕ → RawDecoded

/-- `text.find(c, index)` of a character. -/
def findFrom (text : Str) (c index : ℕ) : Option ℕ :=
  ((text.drop index).findIdx? (· = c)).map (· + index)

/-- The JSON values that begin at the braces of a text from `index` on; `invalid` is the exception for
a decode error. There are fewer of them than the text has characters. -/
def valuesFrom (dec : Decoder) (invalid : ℕ → PyError) (text : Str) :
    ℕ → ℕ → Except PyError (List Json)
  | 0, _ => .ok []
  | fuel + 1, index =>
    match findFrom text 123 index with
    | none => .ok []
    | some start => match dec.rawDecode text start with
      | .jsonError pos => .error (invalid pos)
      | .raised e => .error e
      | .value v stop => do
        let more ← valuesFrom dec invalid text fuel stop
        return v :: more

variable (py : Py)

/-- `agent_identity.fingerprint_parts(data) or _auth_tokens(data)` -/
def fingerprintParts (data : Dict) : List Str :=
  if AgentIdentity.isAgentIdentity py data then
    [AgentIdentity.authMode, py.text [get data (lit "agent_runtime_id")],
      py.text [get data (lit "agent_private_key")]]
  else
    let tokens := authTokens py data
    [tokens.access, tokens.refresh, tokens.id]

/-- `hashlib.sha256("\0".join(parts).encode("utf-8")).hexdigest()` -/
def fingerprint (data : Dict) : Except PyError Str :=
  let joined := [0].intercalate (fingerprintParts py data)
  if encodable joined then .ok (py.sha256 (utf8 joined)) else .error .unicodeEncode

end Cloudx.Shared.Source

import Cloudx.Python.Decode

/-! # The key list of the gateway

`install_scoped_gateway_key.py` reads and extends the block `api-keys:` of the gateway's YAML file as
text: the list ends at the first line that starts in the first column and is neither blank nor a
comment. -/

namespace Cloudx.Scripts.GatewayKeys

open Cloudx.Python.Text Cloudx.Python.Value Cloudx.Python.Dump Cloudx.Python.Decode

/-- `RuntimeError(message)` -/
def runtimeError (message : String) : PyError := .rejected message

/-! ### The block -/

/-- The lines that start with `api-keys:`. -/
def keyStarts (lines : List Str) : List ℕ :=
  (List.range lines.length).filter fun index =>
    startsWith (lines.getD index []) (lit "api-keys:")

/-- The line of the only `api-keys:`, which must stand alone. -/
def blockStart (lines : List Str) : Except PyError ℕ :=
  match keyStarts lines with
  | [start] =>
    if strip (lines.getD start []) = lit "api-keys:" then .ok start
    else .error (runtimeError "gateway api-keys is not a supported block list")
  | _ => .error (runtimeError "gateway api-keys is not a supported block list")

/-- A line in the first column, neither blank nor a comment. -/
def endsBlock (line : Str) : Bool :=
  strip line ≠ [] && !startsWith (strip line) (lit "#") && !(line.head?.any isSpace)

/-- The loop of `append_api_key`: where the block ends, and how many entries it has. -/
def scanBlock (index count : ℕ) : List Str → ℕ × ℕ
  | [] => (index, count)
  | line :: rest =>
    if endsBlock line then (index, count)
    else scanBlock (index + 1) (if startsWith (strip line) (lit "-") then count + 1 else count) rest

/-- `append_api_key` -/
def appendApiKey (original : Bytes) (key : Str) : Except PyError (Bytes × ℕ) :=
  match decodeUtf8 original with
  | none => .error .value
  | some text => do
    let lines := splitlines true text
    let start ← blockStart lines
    let (stop, count) := scanBlock (start + 1) 0 (lines.drop (start + 1))
    let entry := lit "  - " ++ quote true key ++ lit "\n"
    return (utf8 (lines.take stop ++ entry :: lines.drop stop).flatten, count)

/-! ### The entries -/

/-- The text between single quotes, in which a quote is written twice. -/
def unquoteSingle : Str → Option Str
  | [] => some []
  | 39 :: 39 :: s => (unquoteSingle s).map (39 :: ·)
  | c :: s => if c = 39 then none else (unquoteSingle s).map (c :: ·)

/-- `[A-Za-z0-9._~-]` -/
def isPlain (c : ℕ) : Bool :=
  (65 ≤ c && c ≤ 90) || (97 ≤ c && c ≤ 122) || (48 ≤ c && c ≤ 57) || c ∈ lit "._~-"

/-- The checks of a parsed entry. -/
def checkedKey : Json → Except PyError Str
  | .str parsed =>
    if parsed = [] ∨ 512 < parsed.length then
      .error (runtimeError "gateway api-key entry is invalid")
    else .ok parsed
  | _ => .error (runtimeError "gateway api-key entry is invalid")

/-- `parse_api_key_scalar` -/
def parseApiKeyScalar (py : Py) (value : Str) : Except PyError Str :=
  if startsWith value (lit "\"") then
    match py.loads (utf8 value) with
    | .value parsed => checkedKey parsed
    | .raised e => .error e
    | _ => .error (runtimeError "gateway api-key entry has invalid double-quoted syntax")
  else if startsWith value (lit "'") then
    if value.length < 2 ∨ endsWith value (lit "'") = false then
      .error (runtimeError "gateway api-key entry has invalid single-quoted syntax")
    else match unquoteSingle (value.drop 1).dropLast with
      | none => .error (runtimeError "gateway api-key entry has invalid single-quoted syntax")
      | some parsed => checkedKey (.str parsed)
  else if 1 ≤ value.length ∧ value.length ≤ 512 ∧ value.all isPlain then checkedKey (.str value)
  else .error (runtimeError "gateway api-key entry is not a supported scalar")

/-- The loop of `api_keys` over the lines after the start of the block. -/
def collectKeys (py : Py) : List Str → Except PyError (List Str)
  | [] => .ok []
  | line :: rest =>
    let stripped := strip line
    if endsBlock line then .ok []
    else if stripped = [] ∨ startsWith stripped (lit "#") ∨ ¬ startsWith stripped (lit "-") then
      collectKeys py rest
    else do
      let key ← parseApiKeyScalar py (strip (stripped.drop 1))
      let keys ← collectKeys py rest
      return key :: keys

/-- `api_keys` -/
def apiKeys (py : Py) (original : Bytes) : Except PyError (List Str) :=
  match decodeUtf8 original with
  | none => .error (runtimeError "gateway config is not UTF-8")
  | some text => do
    let lines := splitlines false text
    let start ← blockStart lines
    let result ← collectKeys py (lines.drop (start + 1))
    if result = [] then .error (runtimeError "gateway api-keys is empty") else .ok result

/-! ### Single quotes -/

/-- A text with each quote written twice. -/
def doubled (s : Str) : Str := s.flatMap fun c => if c = 39 then [39, 39] else [c]

/-- A text between single quotes, as YAML writes it. -/
def singleQuoted (s : Str) : Str := 39 :: doubled s ++ [39]

theorem unquoteSingle_doubled : ∀ s : Str, unquoteSingle (doubled s) = some s
  | [] => rfl
  | c :: s => by
    have ih := unquoteSingle_doubled s
    by_cases hc : c = 39
    · subst hc
      show unquoteSingle (39 :: 39 :: doubled s) = some (39 :: s)
      rw [unquoteSingle, ih]
      rfl
    · have hcons : doubled (c :: s) = c :: doubled s := by
        rw [doubled, List.flatMap_cons, if_neg hc]
        rfl
      rw [hcons, unquoteSingle, if_neg hc, ih]
      · rfl
      · rintro rest rfl
        exact absurd rfl hc

/-- A run of quotes is read two at a time. -/
theorem doubled_of_unquoteSingle {inner s : Str} (h : unquoteSingle inner = some s) :
    inner = doubled s := by
  induction inner using unquoteSingle.induct generalizing s with
  | case1 =>
    obtain rfl : [] = s := by simpa [unquoteSingle] using h
    rfl
  | case2 inner ih =>
    rw [unquoteSingle] at h
    obtain ⟨t, ht, rfl⟩ := Option.map_eq_some_iff.mp h
    rw [ih ht]
    rfl
  | case3 inner hpair =>
    rw [unquoteSingle, if_pos rfl] at h
    · cases h
    · exact hpair
  | case4 c inner hpair hc ih =>
    rw [unquoteSingle, if_neg hc] at h
    · obtain ⟨t, ht, rfl⟩ := Option.map_eq_some_iff.mp h
      rw [ih ht, doubled, doubled, List.flatMap_cons, if_neg hc]
      rfl
    · exact hpair

theorem checkedKey_str {s key : Str} : checkedKey (.str s) = .ok key ↔
    s = key ∧ 1 ≤ key.length ∧ key.length ≤ 512 := by
  show (if s = [] ∨ 512 < s.length then
    Except.error (runtimeError "gateway api-key entry is invalid") else .ok s) = .ok key ↔ _
  split_ifs with h
  · refine iff_of_false (by simp) ?_
    rintro ⟨rfl, hmin, hmax⟩
    rcases h with rfl | h
    · exact absurd hmin (by simp)
    · omega
  · rw [not_or] at h
    have hpos := List.length_pos_iff.mpr h.1
    constructor
    · intro hok
      obtain rfl := Except.ok.inj hok
      exact ⟨rfl, hpos, by omega⟩
    · rintro ⟨rfl, -, -⟩
      rfl

/-- The branch of a value that starts with a single quote. -/
theorem parseApiKeyScalar_single (py : Py) {value key : Str}
    (hstart : startsWith value (lit "'") = true) : parseApiKeyScalar py value = .ok key ↔
      value = singleQuoted key ∧ 1 ≤ key.length ∧ key.length ≤ 512 := by
  obtain ⟨rest, rfl⟩ : [39] <+: value := of_decide_eq_true hstart
  rw [List.singleton_append] at hstart ⊢
  have hdouble : ¬ startsWith (39 :: rest) (lit "\"") = true := by
    intro h
    have hpair : (34 : ℕ) = 39 ∧ [] <+: rest := List.cons_prefix_cons.mp (of_decide_eq_true h)
    exact absurd hpair.1 (by decide)
  rw [parseApiKeyScalar, if_neg hdouble, if_pos hstart, List.drop_one, List.tail_cons]
  split_ifs with hshort
  · refine iff_of_false (by simp) ?_
    rintro ⟨hvalue, -, -⟩
    rw [singleQuoted, List.cons_append] at hvalue
    obtain rfl := (List.cons.inj hvalue).2
    rcases hshort with hlen | hlast
    · rw [List.length_cons, List.length_append] at hlen
      exact absurd hlen (by simp)
    · exact absurd (decide_eq_true (List.suffix_append (39 :: doubled key) [39])) (by
        rw [endsWith] at hlast
        rw [List.cons_append]
        exact ne_true_of_eq_false hlast)
  · rw [not_or, Bool.not_eq_false] at hshort
    -- the last character is the closing quote, and not the opening one
    obtain ⟨front, hfront⟩ : [39] <:+ 39 :: rest := of_decide_eq_true hshort.2
    obtain ⟨inner, rfl⟩ : ∃ inner, rest = inner ++ [39] := by
      rcases front with _ | ⟨c, inner⟩
      · rw [← hfront] at hshort
        exact absurd hshort.1 (by simp)
      · exact ⟨inner, (List.cons.inj hfront).2.symm⟩
    rw [List.dropLast_concat]
    constructor
    · intro h
      cases hinner : unquoteSingle inner with
      | none =>
        rw [hinner] at h
        cases h
      | some s =>
        rw [hinner] at h
        obtain ⟨rfl, hlen⟩ := checkedKey_str.mp h
        exact ⟨by rw [doubled_of_unquoteSingle hinner]; rfl, hlen⟩
    · rintro ⟨hvalue, hlen⟩
      rw [singleQuoted, List.cons_append] at hvalue
      have hinner : inner = doubled key := List.append_cancel_right (List.cons.inj hvalue).2
      rw [hinner, unquoteSingle_doubled]
      exact checkedKey_str.mpr ⟨rfl, hlen⟩

theorem startsWith_singleQuoted (s : Str) : startsWith (singleQuoted s) (lit "'") = true :=
  decide_eq_true ⟨doubled s ++ [39], rfl⟩

/-- **Single quoting and its decoder are inverse to each other.** -/
theorem single_quoting (py : Py) :
    (∀ s : Str, 1 ≤ s.length → s.length ≤ 512 → parseApiKeyScalar py (singleQuoted s) = .ok s) ∧
    (∀ value s : Str, startsWith value (lit "'") = true → parseApiKeyScalar py value = .ok s →
      value = singleQuoted s) ∧
    ∀ value value' s : Str, startsWith value (lit "'") = true →
      startsWith value' (lit "'") = true → parseApiKeyScalar py value = .ok s →
      parseApiKeyScalar py value' = .ok s → value = value' := by
  have hform : ∀ value s : Str, startsWith value (lit "'") = true →
      parseApiKeyScalar py value = .ok s → value = singleQuoted s := fun value s hstart hok =>
    ((parseApiKeyScalar_single py hstart).mp hok).1
  refine ⟨fun s hmin hmax => ?_, hform, fun value value' s hstart hstart' hok hok' => ?_⟩
  · exact (parseApiKeyScalar_single py (startsWith_singleQuoted s)).mpr ⟨rfl, hmin, hmax⟩
  · rw [hform value s hstart hok, hform value' s hstart' hok']

theorem three_quotes_read : parseApiKeyScalar onePy (lit "'a''''''b'") = .ok (lit "a'''b") := by
  have hvalue : lit "'a''''''b'" = singleQuoted (lit "a'''b") := by decide
  rw [hvalue]
  exact (single_quoting onePy).1 (lit "a'''b") (by decide) (by decide)

/-! ### The other values -/

/-- `value.split(" #", 1)[0]` -/
def beforeComment : Str → Str
  | [] => []
  | 32 :: 35 :: _ => []
  | c :: s => c :: beforeComment s

/-- `top_level_value` -/
def topLevelValue (original : Bytes) (name : String) : Except PyError Str :=
  match decodeUtf8 original with
  | none => .error .value
  | some text =>
    let start := lit name ++ lit ":"
    let found := (splitlines false text).filterMap fun line =>
      if startsWith line start then some (strip (line.drop start.length)) else none
    match found with
    | [value] =>
      if value = [] then .error (runtimeError ("gateway config has no usable " ++ name))
      else
        let value := strip (beforeComment value)
        if value.head? = value.getLast? ∧ (value.head? = some 39 ∨ value.head? = some 34) then
          .ok (value.drop 1).dropLast
        else .ok value
    | _ => .error (runtimeError ("gateway config has no usable " ++ name))

example : appendApiKey (utf8 (lit "api-keys:\n  - old\nhost: a\n")) (lit "new") =
    .ok (utf8 (lit "api-keys:\n  - old\n  - \"new\"\nhost: a\n"), 1) := by decide +kernel

end Cloudx.Scripts.GatewayKeys

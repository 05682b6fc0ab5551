import Cloudx.Python.Text
import Mathlib.Data.Rat.Defs

/-! # JSON values as Python sees them

`json.loads` yields `None`, booleans, integers, floats (with `NaN` and the infinities), strings,
lists and dicts. A dict is its list of items; `get` finds a key's value and gives `None` for a
missing key, which the modelled code does not tell from a JSON `null`.

`Py` collects what the code takes from the interpreter and from the standard library and what the
results do not depend on: digests, decoders, case folding, the text of floats and containers.
Every theorem holds for all of them. -/

namespace Cloudx.Python.Value

open Cloudx.Python.Text

/-- A Python `float`. -/
inductive PyFloat where
  | finite (q : ℚ)
  | inf
  | negInf
  | nan
deriving DecidableEq

/-- A value returned by `json.loads`. -/
inductive Json where
  | null
  | bool (b : Bool)
  | int (n : ℤ)
  | float (x : PyFloat)
  | str (s : Str)
  | arr (items : List Json)
  | obj (fields : List (Str × Json))

/-- The items of a Python dict with string keys. -/
abbrev Dict := List (Str × Json)

/-! ### Equality -/

mutual

/-- Equality of JSON values is decided by comparing them. -/
def decEq : (a b : Json) → Decidable (a = b)
  | .null, .null => .isTrue rfl
  | .bool a, .bool b => if h : a = b then .isTrue (by rw [h]) else .isFalse (by simpa using h)
  | .int a, .int b => if h : a = b then .isTrue (by rw [h]) else .isFalse (by simpa using h)
  | .float a, .float b => if h : a = b then .isTrue (by rw [h]) else .isFalse (by simpa using h)
  | .str a, .str b => if h : a = b then .isTrue (by rw [h]) else .isFalse (by simpa using h)
  | .arr a, .arr b =>
    match decEqItems a b with
    | .isTrue h => .isTrue (by rw [h])
    | .isFalse h => .isFalse (by simpa using h)
  | .obj a, .obj b =>
    match decEqFields a b with
    | .isTrue h => .isTrue (by rw [h])
    | .isFalse h => .isFalse (by simpa using h)
  | .null, .bool _ | .null, .int _ | .null, .float _ | .null, .str _ | .null, .arr _
  | .null, .obj _ | .bool _, .null | .bool _, .int _ | .bool _, .float _ | .bool _, .str _
  | .bool _, .arr _ | .bool _, .obj _ | .int _, .null | .int _, .bool _ | .int _, .float _
  | .int _, .str _ | .int _, .arr _ | .int _, .obj _ | .float _, .null | .float _, .bool _
  | .float _, .int _ | .float _, .str _ | .float _, .arr _ | .float _, .obj _ | .str _, .null
  | .str _, .bool _ | .str _, .int _ | .str _, .float _ | .str _, .arr _ | .str _, .obj _
  | .arr _, .null | .arr _, .bool _ | .arr _, .int _ | .arr _, .float _ | .arr _, .str _
  | .arr _, .obj _ | .obj _, .null | .obj _, .bool _ | .obj _, .int _ | .obj _, .float _
  | .obj _, .str _ | .obj _, .arr _ => .isFalse (by simp)

/-- Equality of lists of values. -/
def decEqItems : (a b : List Json) → Decidable (a = b)
  | [], [] => .isTrue rfl
  | [], _ :: _ => .isFalse (by simp)
  | _ :: _, [] => .isFalse (by simp)
  | a :: as, b :: bs =>
    match decEq a b, decEqItems as bs with
    | .isTrue h, .isTrue h' => .isTrue (by rw [h, h'])
    | .isFalse h, _ => .isFalse (by simp [h])
    | _, .isFalse h => .isFalse (by simp [h])

/-- Equality of dicts, item by item. -/
def decEqFields : (a b : List (Str × Json)) → Decidable (a = b)
  | [], [] => .isTrue rfl
  | [], _ :: _ => .isFalse (by simp)
  | _ :: _, [] => .isFalse (by simp)
  | (k, a) :: as, (k', b) :: bs =>
    if hk : k = k' then
      match decEq a b, decEqFields as bs with
      | .isTrue h, .isTrue h' => .isTrue (by rw [hk, h, h'])
      | .isFalse h, _ => .isFalse (by simp [h])
      | _, .isFalse h => .isFalse (by simp [h])
    else .isFalse (by simp [hk])

end

instance : DecidableEq Json := decEq

/-! ### Dicts -/

/-- `d.get(key)`; `None` if the key is missing. -/
def get (d : Dict) (key : Str) : Json := (d.lookup key).getD .null

/-- `key in d`. -/
def has (d : Dict) (key : Str) : Bool := (d.lookup key).isSome

/-- `d[key] = value`: in place if the key is there, at the end otherwise. -/
def set : Dict → Str → Json → Dict
  | [], key, value => [(key, value)]
  | (k, v) :: d, key, value => if k = key then (key, value) :: d else (k, v) :: set d key value

/-- `d[key] = value` if `condition`. -/
def setIf (condition : Bool) (d : Dict) (key : Str) (value : Json) : Dict :=
  if condition then set d key value else d

/-- `d.pop(key)`, without its value. -/
def pop (d : Dict) (key : Str) : Dict := d.filter (·.1 ≠ key)

/-- `value if isinstance(value, dict) else {}`. -/
def asDict : Json → Dict
  | .obj fields => fields
  | _ => []

@[simp] theorem get_nil (k : Str) : get [] k = .null := rfl

theorem get_cons (kv : Str × Json) (d : Dict) (k : Str) :
    get (kv :: d) k = if k = kv.1 then kv.2 else get d k := by
  unfold get
  rw [List.lookup_cons]
  split_ifs with h
  · rw [beq_iff_eq.mpr h]; rfl
  · rw [beq_false_of_ne h]

theorem get_set_self (d : Dict) (key : Str) (value : Json) : get (set d key value) key = value := by
  induction d with
  | nil => simp [set, get_cons]
  | cons kv d ih =>
    unfold set
    split_ifs with h
    · rw [get_cons, if_pos rfl]
    · rw [get_cons, if_neg (Ne.symm h), ih]

theorem get_set_ne (d : Dict) {key k : Str} (h : k ≠ key) (value : Json) :
    get (set d key value) k = get d k := by
  induction d with
  | nil => simp [set, get_cons, h]
  | cons kv d ih =>
    unfold set
    split_ifs with hk
    · rw [get_cons, get_cons, hk, if_neg h, if_neg h]
    · rw [get_cons, get_cons, ih]

theorem get_setIf_ne (condition : Bool) (d : Dict) {key k : Str} (h : k ≠ key) (value : Json) :
    get (setIf condition d key value) k = get d k := by
  unfold setIf
  split_ifs
  · exact get_set_ne d h value
  · rfl

theorem lookup_set_ne (d : Dict) {key k : Str} (h : k ≠ key) (value : Json) :
    (set d key value).lookup k = d.lookup k := by
  induction d with
  | nil => rw [set, List.lookup_cons, beq_false_of_ne h]
  | cons kv d ih =>
    unfold set
    split_ifs with hk
    · rw [List.lookup_cons, List.lookup_cons, hk, beq_false_of_ne h]
    · rw [List.lookup_cons, List.lookup_cons, ih]

theorem get_pop_ne (d : Dict) {key k : Str} (h : k ≠ key) : get (pop d key) k = get d k := by
  induction d with
  | nil => rfl
  | cons kv d ih =>
    unfold pop at ih ⊢
    rw [get_cons]
    by_cases hk : kv.1 = key
    · rw [List.filter_cons_of_neg (by simp [hk]), ih, if_neg (by rw [hk]; exact h)]
    · rw [List.filter_cons_of_pos (by simp [hk]), get_cons, ih]

theorem get_of_not_mem {d : Dict} {key : Str} (h : key ∉ d.map Prod.fst) : get d key = .null := by
  induction d with
  | nil => rfl
  | cons kv d ih =>
    rw [List.map_cons, List.mem_cons, not_or] at h
    rw [get_cons, if_neg h.1, ih h.2]

theorem get_append_left {d e : Dict} {key : Str} (h : key ∉ e.map Prod.fst) :
    get (d ++ e) key = get d key := by
  induction d with
  | nil => exact get_of_not_mem h
  | cons kv d ih => rw [List.cons_append, get_cons, get_cons, ih]

/-- In a dict of the texts that are not empty, a key has its text or nothing. -/
theorem get_texts (key : Str) : ∀ kvs : List (Str × Str), (kvs.map Prod.fst).Nodup →
    get ((kvs.filter (·.2 ≠ [])).map fun kv => (kv.1, Json.str kv.2)) key =
      if (kvs.lookup key).getD [] = [] then .null else .str ((kvs.lookup key).getD [])
  | [], _ => rfl
  | (k, v) :: kvs, hnd => by
    rw [List.map_cons, List.nodup_cons] at hnd
    have ih := get_texts key kvs hnd.2
    rw [List.lookup_cons]
    by_cases hk : key = k
    · rw [beq_iff_eq.mpr hk]
      subst hk
      by_cases hv : v = []
      · rw [List.filter_cons_of_neg (by simp [hv]), get_of_not_mem]
        · simp [hv]
        · intro hm
          simp only [List.map_map, List.mem_map, List.mem_filter] at hm
          obtain ⟨kv, ⟨hkv, -⟩, he⟩ := hm
          exact hnd.1 (List.mem_map.mpr ⟨kv, hkv, he⟩)
      · rw [List.filter_cons_of_pos (by simp [hv]), List.map_cons, get_cons, if_pos rfl]
        simp [hv]
    · rw [beq_false_of_ne hk, ← ih]
      by_cases hv : v = []
      · rw [List.filter_cons_of_neg (by simp [hv])]
      · rw [List.filter_cons_of_pos (by simp [hv]), List.map_cons, get_cons, if_neg hk]

/-! ### Truth and text -/

/-- `bool(value)`. -/
def truthy : Json → Bool
  | .null => false
  | .bool b => b
  | .int n => n ≠ 0
  | .float x => x ≠ .finite 0
  | .str s => s ≠ []
  | .arr items => !items.isEmpty
  | .obj fields => !fields.isEmpty

/-- `a or b`. -/
def pyOr (a b : Json) : Json := if truthy a then a else b

/-- `a or b or … or ""`. -/
def pyOrs : List Json → Json
  | [] => .str []
  | a :: rest => pyOr a (pyOrs rest)

/-- The exceptions the modelled code meets. -/
inductive PyError where
  | os
  | unicodeEncode
  | recursion
  | value
  | overflow
  | unhashable
  | rejected (message : String)
  | refused (code : String) (message : Str)
deriving DecidableEq

/-- What decoding a text as JSON does: a value, one of the two decode errors its callers expect, or
another exception (nesting too deep, an integer with too many digits). -/
inductive Loaded where
  | value (v : Json)
  | jsonError
  | unicodeError
  | raised (e : PyError)
deriving DecidableEq

/-- An ASCII text with its capital letters made small. -/
def asciiLower (s : Str) : Str := s.map fun c => if 65 ≤ c ∧ c ≤ 90 then c + 32 else c

/-- What the modelled code takes from the interpreter and the standard library, with what it relies
on: digests are not empty, and an ASCII text has only its capital letters changed. -/
structure Py where
  /-- `hashlib.sha256(raw).hexdigest()` -/
  sha256 : Bytes → Str
  /-- `json.loads(raw.decode("utf-8"))` -/
  loads : Bytes → Loaded
  /-- `str(value)` of a float, a list or a dict -/
  repr : Json → Str
  /-- `repr(x)` of a float, as `json.dumps` writes it -/
  floatText : PyFloat → Str
  /-- `s.lower()` -/
  lower : Str → Str
  /-- `s.casefold()` -/
  casefold : Str → Str
  /-- `raw.decode("utf-8", "ignore")` -/
  decodeIgnore : Bytes → Str
  /-- `base64.b64decode(s, validate=True)`; `none` for its errors -/
  b64decode : Str → Option Bytes
  /-- `json.loads(base64.urlsafe_b64decode(s + padding).decode("utf-8"))` -/
  jwtSegment : Str → Loaded
  /-- `float(n)` of an integer; `none` for `OverflowError` -/
  float : ℤ → Option ℚ
  /-- `datetime.fromisoformat(s)` in seconds, UTC if it names no zone; `none` for `ValueError` -/
  fromisoformat : Str → Option ℚ
  /-- `datetime.fromisoformat(s).tzinfo is not None` -/
  hasZone : Str → Bool
  /-- `datetime.fromtimestamp(x, tz=utc)` in seconds; `none` for its errors -/
  fromtimestamp : PyFloat → Option ℚ
  /-- `float(s)` of a text; `none` for `ValueError` -/
  floatOfText : Str → Option PyFloat
  /-- `t.isoformat()` of an instant -/
  isoformat : ℚ → Str
  /-- `datetime.fromtimestamp(float(n), tz=utc).isoformat()`; `none` for its errors -/
  isoFromEpoch : Json → Option Str
  sha256_ne_nil : ∀ raw, sha256 raw ≠ []
  lower_ascii : ∀ s : Str, (∀ c ∈ s, c < 128) → lower s = asciiLower s
  casefold_ascii : ∀ s : Str, (∀ c ∈ s, c < 128) → casefold s = asciiLower s

/-- `str(value)`. -/
def Py.str (py : Py) : Json → Str
  | .null => lit "None"
  | .bool true => lit "True"
  | .bool false => lit "False"
  | .int n => (if n < 0 then [45] else []) ++ decimal n.natAbs
  | .str s => s
  | v => py.repr v

/-- `str(a or b or … or "").strip()`. -/
def Py.text (py : Py) (values : List Json) : Str := strip (py.str (pyOrs values))

/-! ### Times -/

/-- `value[:-1] + "+00:00"` of a text that ends in `Z`. -/
def isoText (value : Str) : Str :=
  if endsWith value (lit "Z") then value.dropLast ++ lit "+00:00" else value

/-- `datetime.min` in UTC -/
def utcMin : ℚ := -62135596800

/-- `datetime.max` in UTC -/
def utcMax : ℚ := 253402300799999999 / 1000000

/-- An instant that is a `datetime` in UTC. A time with an offset near the ends of the calendar may
not be one. -/
def inRange (t : ℚ) : Bool := utcMin ≤ t && t ≤ utcMax

/-- `t.astimezone(timezone.utc)` -/
def astimezone (t : ℚ) : Except PyError ℚ := if inRange t then .ok t else .error .overflow

/-! ### Facts -/

theorem pyOrs_null (values : List Json) : pyOrs (.null :: values) = pyOrs values := rfl

theorem strip_text (py : Py) (values : List Json) : strip (py.text values) = py.text values :=
  strip_strip _

theorem text_str (py : Py) (s : Str) : py.text [.str s] = strip s := by
  unfold Py.text pyOrs pyOr
  split_ifs with h
  · rfl
  · have hs : s = [] := by simpa [truthy] using h
    rw [hs]; rfl

end Cloudx.Python.Value

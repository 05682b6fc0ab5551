import Mathlib.Data.List.Basic
import Mathlib.Data.List.TakeWhile
import Mathlib.Data.Nat.Digits.Lemmas
import Mathlib.Data.List.DropRight
import Mathlib.Data.List.Lex

/-! # Python text and file names

A Python `str` is a sequence of code points. Unlike Lean's `String` it may hold lone surrogates
(`json.loads` and `os.walk` both produce them), so `Str` is a list of numbers. The functions below
are the string methods and the `pathlib` properties the modelled code uses. -/

namespace Cloudx.Python.Text

/-- A Python `str`: its code points. -/
abbrev Str := List ℕ

instance : LawfulBEq Str := inferInstance

instance : IsTrans Str (· ≤ ·) := inferInstance

instance : Std.Antisymm fun a b : Str => a ≤ b := inferInstance

instance : Std.Total fun a b : Str => a ≤ b := inferInstance

/-- The Python literal with the text `s`. -/
def lit (s : String) : Str := s.toList.map Char.toNat

/-- The contents of a file. -/
abbrev Bytes := List UInt8

/-! ### String methods -/

/-- The code points `str.strip` removes: those with `str.isspace`. -/
def isSpace (c : ℕ) : Bool :=
  (9 ≤ c && c ≤ 13) || (28 ≤ c && c ≤ 32) || c == 0x85 || c == 0xA0 || c == 0x1680 ||
    (0x2000 ≤ c && c ≤ 0x200A) || c == 0x2028 || c == 0x2029 || c == 0x202F || c == 0x205F ||
    c == 0x3000

/-- `s.strip()`. -/
def strip (s : Str) : Str := ((s.dropWhile isSpace).reverse.dropWhile isSpace).reverse

/-- `s.count(".")`. -/
def dots (s : Str) : ℕ := s.count 46

/-- `sub in s`. -/
def contains (sub s : Str) : Bool := decide (sub <:+: s)

/-- `s.endswith(suffix)`. -/
def endsWith (s suffix : Str) : Bool := decide (suffix <:+ s)

/-- `s.startswith(prefix)`. -/
def startsWith (s start : Str) : Bool := decide (start <+: s)

/-- `s.replace(old, new)` after `skip` characters of a match. -/
def replaceFrom (old new : Str) : ℕ → Str → Str
  | _, [] => []
  | skip + 1, _ :: s => replaceFrom old new skip s
  | 0, c :: s =>
    if startsWith (c :: s) old then new ++ replaceFrom old new (old.length - 1) s
    else c :: replaceFrom old new 0 s

/-- `s.replace(old, new)` for an `old` that is not empty. -/
def replace (old new s : Str) : Str := replaceFrom old new 0 s

/-- `"%d" % n`. -/
def decimal (n : ℕ) : Str := if n = 0 then [48] else (Nat.digits 10 n).reverse.map (48 + ·)

/-- What is stripped has no blanks left at its ends. -/
theorem strip_strip (s : Str) : strip (strip s) = strip s := by
  have hr : ∀ t : Str, strip t = (t.dropWhile isSpace).rdropWhile isSpace := fun _ => rfl
  obtain ⟨rest, hrest⟩ : strip s <+: s.dropWhile isSpace := by
    rw [hr]; exact List.rdropWhile_prefix isSpace _
  have hhead : (strip s).dropWhile isSpace = strip s := by
    rw [List.dropWhile_eq_self_iff]
    intro hl
    have hd := List.dropWhile_get_zero_not isSpace s (by rw [← hrest]; simp; omega)
    simp only [List.get_eq_getElem, ← hrest] at hd
    rw [List.getElem_append_left hl] at hd
    simpa using hd
  rw [hr (strip s), hhead, hr s, List.rdropWhile_idempotent]

theorem decimal_ne_nil (n : ℕ) : decimal n ≠ [] := by
  unfold decimal; split_ifs with h <;> simp [Nat.digits_eq_nil_iff_eq_zero, h]

theorem decimal_digit {n c : ℕ} (hc : c ∈ decimal n) : 48 ≤ c ∧ c ≤ 57 := by
  unfold decimal at hc
  split_ifs at hc with h
  · simp at hc; omega
  · obtain ⟨d, hd, rfl⟩ := List.mem_map.mp hc
    have := Nat.digits_lt_base (by norm_num : 1 < 10) (List.mem_reverse.mp hd)
    omega

theorem decimal_injective : Function.Injective decimal := by
  intro a b h
  unfold decimal at h
  have hinj : Function.Injective (48 + · : ℕ → ℕ) := fun x y hxy => by simpa using hxy
  split_ifs at h with ha hb hb
  · omega
  · have := Nat.getLast_digit_ne_zero 10 hb
    have hd : Nat.digits 10 b = [0] := by
      have h' := @List.map_injective_iff.mpr hinj [0] _ h
      simpa using congrArg List.reverse h'.symm
    exact absurd (by simp [hd]) this
  · have := Nat.getLast_digit_ne_zero 10 ha
    have hd : Nat.digits 10 a = [0] := by
      have h' := @List.map_injective_iff.mpr hinj _ [0] h
      simpa using congrArg List.reverse h'
    exact absurd (by simp [hd]) this
  · exact Nat.digits_inj_iff.mp (List.reverse_injective (List.map_injective_iff.mpr hinj h))

/-! ### File names -/

/-- The text of a directory entry: not empty, no `/` and no NUL, and neither `.` nor `..`. -/
def ValidName (s : Str) : Prop := s ≠ [] ∧ 47 ∉ s ∧ 0 ∉ s ∧ s ≠ [46] ∧ s ≠ [46, 46]

instance (s : Str) : Decidable (ValidName s) := by unfold ValidName; infer_instance

/-- A file name: a text that can name a directory entry. -/
structure FileName where
  text : Str
  valid : ValidName text
deriving DecidableEq

theorem validName_manifest : ValidName (lit "manifest.json") := by decide

/-- The file name with the text `s`, if `s` can be one. -/
def FileName.ofStr? (s : Str) : Option FileName := if h : ValidName s then some ⟨s, h⟩ else none

/-- `s.split("/")` -/
def splitSlash : Str → List Str
  | [] => [[]]
  | c :: s =>
    if c = 47 then [] :: splitSlash s
    else match splitSlash s with
      | [] => [[c]]
      | p :: ps => (c :: p) :: ps

/-- The components of a path: those between its slashes, without empty ones and `.`. -/
def pathParts (s : Str) : List Str := (splitSlash s).filter fun p => p ≠ [] ∧ p ≠ [46]

/-- `pathlib.Path(s).name` -/
def pathName (s : Str) : Str := (pathParts s).getLast?.getD []

theorem splitSlash_single {s : Str} (h : 47 ∉ s) : splitSlash s = [s] := by
  induction s with
  | nil => rfl
  | cons c s ih =>
    rw [List.mem_cons, not_or] at h
    rw [splitSlash, if_neg (Ne.symm h.1), ih h.2]

theorem pathParts_name (n : FileName) : pathParts n.text = [n.text] := by
  obtain ⟨h1, h2, -, h3, -⟩ := n.valid
  rw [pathParts, splitSlash_single h2, List.filter_cons_of_pos (by simp [h1, h3])]; rfl

theorem pathName_name (n : FileName) : pathName n.text = n.text := by
  rw [pathName, pathParts_name]; rfl

theorem ofStr?_name (n : FileName) : FileName.ofStr? n.text = some n := by
  rw [FileName.ofStr?, dif_pos n.valid]

/-- The index of the last `.` of `s` is `i` with `0 < i < len(s) - 1`: the text from there on;
otherwise nothing (`PurePath.suffix`). -/
def suffixOf (s : Str) : Str :=
  let tail := (s.reverse.takeWhile (· ≠ 46)).reverse
  if tail.length + 1 < s.length ∧ tail ≠ [] then 46 :: tail else []

/-- The text without its suffix (`PurePath.stem`). -/
def stemOf (s : Str) : Str := s.take (s.length - (suffixOf s).length)

/-- The text after the last `.`, all of `s` if there is none. -/
theorem afterDot_spec (s : Str) :
    ∃ t, s = t ++ (s.reverse.takeWhile (· ≠ 46)).reverse ∧
      (t = [] ∨ ∃ t', t = t' ++ [46]) ∧ 46 ∉ (s.reverse.takeWhile (· ≠ 46)).reverse := by
  refine ⟨(s.reverse.dropWhile (· ≠ 46)).reverse, ?_, ?_, ?_⟩
  · rw [← List.reverse_append, List.takeWhile_append_dropWhile, List.reverse_reverse]
  · rcases h : s.reverse.dropWhile (· ≠ 46) with _ | ⟨c, r⟩
    · left; rw [h]; rfl
    · right
      have hc := List.head?_dropWhile_not (· ≠ 46) s.reverse
      rw [h] at hc
      have : c = 46 := by simpa using hc
      exact ⟨r.reverse, by rw [h, this, List.reverse_cons]⟩
  · intro hm
    have := List.mem_takeWhile_imp (List.mem_reverse.mp hm)
    simp at this

/-- A text is its stem followed by its suffix; the suffix is empty, or a `.` and a nonempty text
without one, after a nonempty stem. -/
theorem stem_suffix (s : Str) : stemOf s ++ suffixOf s = s ∧
    (suffixOf s = [] ∨ ∃ e, suffixOf s = 46 :: e ∧ e ≠ [] ∧ 46 ∉ e ∧ stemOf s ≠ []) := by
  obtain ⟨t, hs, ht, hdot⟩ := afterDot_spec s
  unfold stemOf suffixOf
  generalize (s.reverse.takeWhile (· ≠ 46)).reverse = e at hs hdot ⊢
  simp only
  split_ifs with h
  · rcases ht with rfl | ⟨t', rfl⟩
    · rw [List.nil_append] at hs
      rw [hs] at h; omega
    · have hlen : s.length - (46 :: e).length = t'.length := by
        rw [hs]; simp
      have hst : s = t' ++ 46 :: e := by rw [hs]; simp
      have htake : s.take t'.length = t' := by rw [hst, List.take_left]
      rw [hlen, htake]
      refine ⟨hst.symm, Or.inr ⟨e, rfl, h.2, hdot, ?_⟩⟩
      rintro rfl
      rw [hst] at h
      simp at h
  · simp

/-- Texts without a `.` after the last one: the parts are determined. -/
theorem append_dot_inj {a a' d d' : Str} (hd : 46 ∉ d) (hd' : 46 ∉ d')
    (h : a ++ 46 :: d = a' ++ 46 :: d') : a = a' ∧ d = d' := by
  rcases List.append_eq_append_iff.mp h with ⟨c, rfl, hc⟩ | ⟨c, rfl, hc⟩
  · rcases c with _ | ⟨x, c⟩
    · simp at hc; exact ⟨by simp, hc⟩
    · simp at hc
      exact absurd (hc.2 ▸ by simp : (46 : ℕ) ∈ d) hd
  · rcases c with _ | ⟨x, c⟩
    · simp at hc; exact ⟨by simp, hc.symm⟩
    · simp at hc
      exact absurd (hc.2 ▸ by simp : (46 : ℕ) ∈ d') hd'

/-! ### Numbered names -/

/-- `"%s.%d%s" % (path.stem, index, path.suffix)`. -/
def numberedText (s : Str) (index : ℕ) : Str := stemOf s ++ 46 :: (decimal index ++ suffixOf s)

theorem mem_numberedText {s : Str} {k c : ℕ} (h : c ∈ numberedText s k) :
    c ∈ s ∨ c = 46 ∨ (48 ≤ c ∧ c ≤ 57) := by
  have hs := (stem_suffix s).1
  simp only [numberedText, List.mem_append, List.mem_cons] at h
  rcases h with h | h | h | h
  · left; rw [← hs]; exact List.mem_append_left _ h
  · exact Or.inr (Or.inl h)
  · exact Or.inr (Or.inr (decimal_digit h))
  · left; rw [← hs]; exact List.mem_append_right _ h

/-- A numbered name holds a digit between its stem and its suffix, so it is a file name. -/
theorem numberedText_valid {s : Str} (hs : ValidName s) (k : ℕ) : ValidName (numberedText s k) := by
  obtain ⟨c, d, hc⟩ := List.exists_cons_of_ne_nil (decimal_ne_nil k)
  have hdig := decimal_digit (n := k) (c := c) (by rw [hc]; simp)
  have hmem : c ∈ numberedText s k := by simp [numberedText, hc]
  refine ⟨by simp [numberedText], fun h => ?_, fun h => ?_, fun h => ?_, fun h => ?_⟩
  · rcases mem_numberedText h with h | h | h
    · exact hs.2.1 h
    · omega
    · omega
  · rcases mem_numberedText h with h | h | h
    · exact hs.2.2.1 h
    · omega
    · omega
  · rw [h] at hmem; simp at hmem; omega
  · rw [h] at hmem; simp at hmem; omega

/-- The file name `stem.index.suffix`. -/
def numbered (n : FileName) (index : ℕ) : FileName :=
  ⟨numberedText n.text index, numberedText_valid n.valid index⟩

theorem numbered_injective (n : FileName) : Function.Injective (numbered n) := by
  intro i j h
  have h' := congrArg FileName.text h
  simp only [numbered, numberedText, List.append_cancel_left_eq, List.cons.injEq, true_and,
    List.append_cancel_right_eq] at h'
  exact decimal_injective h'

/-- The text before the suffix of a numbered name ends in a digit. -/
theorem numberedText_shape (s : Str) (k : ℕ) : (∃ a c, numberedText s k = a ++ [c] ∧ 48 ≤ c ∧ c ≤ 57) ∨
    ∃ a c e, numberedText s k = (a ++ [c]) ++ 46 :: e ∧ 46 ∉ e ∧ 48 ≤ c ∧ c ≤ 57 := by
  obtain ⟨d, c, hc⟩ := (List.eq_nil_or_concat' (decimal k)).resolve_left (decimal_ne_nil k)
  have hdig := decimal_digit (n := k) (c := c) (by rw [hc]; simp)
  rcases (stem_suffix s).2 with h | ⟨e, he, -, hdot, -⟩
  · exact Or.inl ⟨stemOf s ++ 46 :: d, c, by simp [numberedText, h, hc], hdig⟩
  · exact Or.inr ⟨stemOf s ++ 46 :: d, c, e, by simp [numberedText, he, hc], hdot, hdig⟩

/-- A text in which no digit stands at the end or before the last `.` is not a numbered name. -/
theorem numberedText_ne {r a e : Str} {c : ℕ} (hr : r = (a ++ [c]) ++ 46 :: e) (he : 46 ∉ e)
    (hc : c < 48 ∨ 57 < c) (hl : ∀ b x, r = b ++ [x] → x < 48 ∨ 57 < x) (s : Str) (k : ℕ) :
    numberedText s k ≠ r := by
  intro h
  rcases numberedText_shape s k with ⟨b, x, hx, hdig⟩ | ⟨b, x, e', hx, he', hdig⟩
  · have := hl b x (by rw [← h, hx]); omega
  · have h' : (b ++ [x]) ++ 46 :: e' = (a ++ [c]) ++ 46 :: e := by rw [← hx, h, hr]
    have := (append_dot_inj he' he h').1
    have hxc : x = c := by simpa using (List.append_inj' this rfl).2
    omega

/-! ### Names that end in `.json` -/

/-- A text that ends in `.json` is `.json` itself, which has no suffix, or has the suffix `.json`. -/
theorem suffixOf_json {s : Str} (h : endsWith s (lit ".json")) :
    s = lit ".json" ∨ suffixOf s = lit ".json" := by
  obtain ⟨t, rfl⟩ : lit ".json" <:+ s := by simpa [endsWith] using h
  rcases t with _ | ⟨c, t⟩
  · left; rfl
  · right
    have htail : ((c :: t ++ lit ".json").reverse.takeWhile (· ≠ 46)).reverse = lit "json" := by
      have : (c :: t ++ lit ".json").reverse = (lit "json").reverse ++ 46 :: (c :: t).reverse := by
        rw [List.reverse_append]; rfl
      rw [this]
      rfl
    unfold suffixOf
    rw [htail, if_pos]
    · rfl
    · exact ⟨by simp [show (lit "json").length = 4 from rfl, show (lit ".json").length = 5 from rfl],
        by decide⟩

/-- **Different `.json` names have different numbered names.** -/
theorem numbered_json_inj {n m : FileName} (hn : endsWith n.text (lit ".json"))
    (hm : endsWith m.text (lit ".json")) {i j : ℕ} (h : numbered n i = numbered m j) : n = m := by
  have h' : numberedText n.text i = numberedText m.text j := congrArg FileName.text h
  have hdot : ∀ k, 46 ∉ decimal k := fun k hk => by have := decimal_digit hk; omega
  have hlast : ∀ (s : Str) k, suffixOf s = [] → ∃ b x, numberedText s k = b ++ [x] ∧ x ≤ 57 := by
    intro s k hs
    obtain ⟨d, x, hx⟩ := (List.eq_nil_or_concat' (decimal k)).resolve_left (decimal_ne_nil k)
    have := decimal_digit (n := k) (c := x) (by rw [hx]; simp)
    exact ⟨stemOf s ++ 46 :: d, x, by simp [numberedText, hs, hx], this.2⟩
  have hjson : ∀ (s : Str) k, suffixOf s = lit ".json" →
      ∃ b, numberedText s k = b ++ [110] := fun s k hs =>
    ⟨stemOf s ++ 46 :: (decimal k ++ lit ".jso"), by simp [numberedText, hs]; rfl⟩
  have hne : suffixOf (lit ".json") = [] := by decide
  have hval : ∀ {a b : FileName}, a.text = b.text → a = b := by
    rintro ⟨a, _⟩ ⟨b, _⟩ rfl; rfl
  rcases suffixOf_json hn with hn | hn <;> rcases suffixOf_json hm with hm | hm
  · exact hval (hn.trans hm.symm)
  · obtain ⟨b, x, hx, hle⟩ := hlast n.text i (by rw [hn, hne])
    obtain ⟨b', hb'⟩ := hjson m.text j hm
    have := (List.append_inj' (hx.symm.trans (h'.trans hb')) rfl).2
    simp at this; omega
  · obtain ⟨b, x, hx, hle⟩ := hlast m.text j (by rw [hm, hne])
    obtain ⟨b', hb'⟩ := hjson n.text i hn
    have := (List.append_inj' (hx.symm.trans (h'.symm.trans hb')) rfl).2
    simp at this; omega
  · have hcut : stemOf n.text ++ 46 :: decimal i = stemOf m.text ++ 46 :: decimal j := by
      refine @List.append_cancel_right _ _ (lit ".json") _ ?_
      simpa [numberedText, hn, hm] using h'
    have hst := (append_dot_inj (hdot i) (hdot j) hcut).1
    refine hval ?_
    rw [← (stem_suffix n.text).1, ← (stem_suffix m.text).1, hst, hn, hm]

end Cloudx.Python.Text

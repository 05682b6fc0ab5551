import Cloudx.Python.Dump

/-! # Bytes to text, and text to lines

`raw.decode("utf-8")` takes shortest forms only, and no surrogates. It reads back what
`s.encode("utf-8")` writes (`decodeUtf8_utf8`). `str.splitlines` breaks at more characters than the line
feed, and takes a carriage return with a line feed after it as one break. -/

namespace Cloudx.Python.Decode

open Cloudx.Python.Text Cloudx.Python.Dump

/-- The six bits of a continuation byte. -/
def continuation (b : UInt8) : Option ℕ :=
  if 0x80 ≤ b.toNat ∧ b.toNat < 0xC0 then some (b.toNat - 0x80) else none

/-- The code point made of the bits of a first byte and of continuation bytes. -/
def codePoint (first : ℕ) : Bytes → Option ℕ
  | [] => some first
  | b :: bs => (continuation b).bind fun n => codePoint (64 * first + n) bs

/-- How many continuation bytes a first byte asks for, its bits, and the least code point that needs
so many. -/
def leading (b : UInt8) : Option (ℕ × ℕ × ℕ) :=
  let n := b.toNat
  if n < 0x80 then some (0, n, 0)
  else if 0xC0 ≤ n ∧ n < 0xE0 then some (1, n - 0xC0, 0x80)
  else if 0xE0 ≤ n ∧ n < 0xF0 then some (2, n - 0xE0, 0x800)
  else if 0xF0 ≤ n ∧ n < 0xF8 then some (3, n - 0xF0, 0x10000)
  else none

/-- The first character and the bytes after it. -/
def nextChar : Bytes → Option (ℕ × Bytes)
  | [] => none
  | b :: bs => do
    let (size, first, least) ← leading b
    let c ← codePoint first (bs.take size)
    if (bs.take size).length = size ∧ least ≤ c ∧ c < 0x110000 ∧ (c < 0xD800 ∨ 0xDFFF < c) then
      some (c, bs.drop size)
    else none

/-- At most so many characters. -/
def decodeFrom : ℕ → Bytes → Option Str
  | _, [] => some []
  | 0, _ :: _ => none
  | n + 1, b :: bs => do
    let (c, rest) ← nextChar (b :: bs)
    let s ← decodeFrom n rest
    return c :: s

/-- `raw.decode("utf-8")`; `none` for `UnicodeDecodeError` -/
def decodeUtf8 (raw : Bytes) : Option Str := decodeFrom raw.length raw

/-- `raw.decode("utf-8-sig")`: a byte order mark at the start is left out. -/
def decodeUtf8Sig (raw : Bytes) : Option Str :=
  if [0xEF, 0xBB, 0xBF] <+: raw then decodeUtf8 (raw.drop 3) else decodeUtf8 raw

/-- The 16-bit units of some bytes. -/
def units (bigEndian : Bool) : Bytes → Option (List ℕ)
  | [] => some []
  | [_] => none
  | a :: b :: rest =>
    (units bigEndian rest).map fun more =>
      (if bigEndian then 256 * a.toNat + b.toNat else 256 * b.toNat + a.toNat) :: more

/-- The characters of 16-bit units; half of a surrogate pair is an error. -/
def pairUnits : List ℕ → Option Str
  | [] => some []
  | [u] => if 0xD800 ≤ u ∧ u ≤ 0xDFFF then none else some [u]
  | u :: v :: rest =>
    if 0xD800 ≤ u ∧ u ≤ 0xDBFF then
      if 0xDC00 ≤ v ∧ v ≤ 0xDFFF then
        (pairUnits rest).map fun s => (0x10000 + (u - 0xD800) * 0x400 + (v - 0xDC00)) :: s
      else none
    else if 0xDC00 ≤ u ∧ u ≤ 0xDFFF then none
    else (pairUnits (v :: rest)).map fun s => u :: s

/-- `raw.decode("utf-16")`, where the host is little-endian: a byte order mark at the start tells the
order and is left out. -/
def decodeUtf16 (raw : Bytes) : Option Str :=
  if [0xFF, 0xFE] <+: raw then (units false (raw.drop 2)).bind pairUnits
  else if [0xFE, 0xFF] <+: raw then (units true (raw.drop 2)).bind pairUnits
  else (units false raw).bind pairUnits

/-- The characters that `splitlines` breaks at. -/
def lineBreaks : Str := [10, 11, 12, 13, 0x1C, 0x1D, 0x1E, 0x85, 0x2028, 0x2029]

/-- The lines of a text, of which `line` is what has been read of the first. -/
def splitFrom (keepends : Bool) (line : Str) : Str → List Str
  | [] => if line = [] then [] else [line]
  | 13 :: 10 :: s =>
    (if keepends then line ++ [13, 10] else line) :: splitFrom keepends [] s
  | c :: s =>
    if c ∈ lineBreaks then (if keepends then line ++ [c] else line) :: splitFrom keepends [] s
    else splitFrom keepends (line ++ [c]) s

/-- `s.splitlines(keepends=keepends)` -/
def splitlines (keepends : Bool) (s : Str) : List Str := splitFrom keepends [] s

/-! ### What is encoded is read back -/

theorem toNat_ofNat {n : ℕ} (h : n < 256) : (UInt8.ofNat n).toNat = n := by
  rw [UInt8.toNat_ofNat', Nat.mod_eq_of_lt h]

theorem continuation_low (n : ℕ) : continuation (UInt8.ofNat (0x80 + n % 64)) = some (n % 64) := by
  have hlt : n % 64 < 64 := Nat.mod_lt _ (by decide)
  unfold continuation
  rw [toNat_ofNat (by omega), if_pos (by omega), Nat.add_sub_cancel_left]

/-- **The first character of an encoded text is read back.** -/
theorem nextChar_utf8Char {c : ℕ} (hc : c < 0x110000) (hs : c < 0xD800 ∨ 0xDFFF < c) (rest : Bytes) :
    nextChar (utf8Char c ++ rest) = some (c, rest) := by
  unfold utf8Char
  simp only
  split_ifs with h1 h2 h3
  · rw [List.cons_append, List.nil_append, nextChar]
    have hlead : leading (UInt8.ofNat c) = some (0, c, 0) := by
      unfold leading
      simp only [toNat_ofNat (by omega : c < 256), if_pos h1]
    simp only [hlead, bind, Option.bind, List.take_zero, List.drop_zero, codePoint]
    rw [if_pos ⟨rfl, Nat.zero_le _, hc, hs⟩]
  · rw [List.cons_append, List.cons_append, List.nil_append, nextChar]
    have hlead : leading (UInt8.ofNat (0xC0 + c / 64)) = some (1, c / 64, 0x80) := by
      unfold leading
      simp only [toNat_ofNat (by omega : 0xC0 + c / 64 < 256)]
      rw [if_neg (by omega), if_pos (by omega)]
      simp
    have hpoint : codePoint (c / 64) [UInt8.ofNat (0x80 + c % 64)] = some c := by
      rw [codePoint, continuation_low, Option.bind_some, codePoint]
      congr 1
      omega
    simp only [hlead, bind, Option.bind, List.take_succ_cons, List.take_zero, List.drop_succ_cons,
      List.drop_zero, hpoint]
    rw [if_pos ⟨rfl, by omega, hc, hs⟩]
  · rw [List.cons_append, List.cons_append, List.cons_append, List.nil_append, nextChar]
    have hlead : leading (UInt8.ofNat (0xE0 + c / 4096)) = some (2, c / 4096, 0x800) := by
      unfold leading
      simp only [toNat_ofNat (by omega : 0xE0 + c / 4096 < 256)]
      rw [if_neg (by omega), if_neg (by omega), if_pos (by omega)]
      simp
    have hpoint : codePoint (c / 4096) [UInt8.ofNat (0x80 + c / 64 % 64),
        UInt8.ofNat (0x80 + c % 64)] = some c := by
      rw [codePoint, continuation_low, Option.bind_some, codePoint, continuation_low,
        Option.bind_some, codePoint]
      congr 1
      omega
    simp only [hlead, bind, Option.bind, List.take_succ_cons, List.take_zero, List.drop_succ_cons,
      List.drop_zero, hpoint]
    rw [if_pos ⟨rfl, by omega, hc, hs⟩]
  · rw [List.cons_append, List.cons_append, List.cons_append, List.cons_append, List.nil_append,
      nextChar]
    have hlead : leading (UInt8.ofNat (0xF0 + c / 262144)) = some (3, c / 262144, 0x10000) := by
      unfold leading
      simp only [toNat_ofNat (by omega : 0xF0 + c / 262144 < 256)]
      rw [if_neg (by omega), if_neg (by omega), if_neg (by omega), if_pos (by omega)]
      simp
    have hpoint : codePoint (c / 262144) [UInt8.ofNat (0x80 + c / 4096 % 64),
        UInt8.ofNat (0x80 + c / 64 % 64), UInt8.ofNat (0x80 + c % 64)] = some c := by
      rw [codePoint, continuation_low, Option.bind_some, codePoint, continuation_low,
        Option.bind_some, codePoint, continuation_low, Option.bind_some, codePoint]
      congr 1
      omega
    simp only [hlead, bind, Option.bind, List.take_succ_cons, List.take_zero, List.drop_succ_cons,
      List.drop_zero, hpoint]
    rw [if_pos ⟨rfl, by omega, hc, hs⟩]

theorem utf8Char_ne_nil (c : ℕ) : utf8Char c ≠ [] := by
  unfold utf8Char
  simp only
  split_ifs <;> simp

theorem decodeFrom_utf8 : ∀ {s : Str} {n : ℕ}, s.length ≤ n → (∀ c ∈ s, c < 0x110000) →
    encodable s = true → decodeFrom n (utf8 s) = some s
  | [], n, _, _, _ => by cases n <;> rfl
  | c :: s, 0, hn, _, _ => absurd hn (by simp)
  | c :: s, n + 1, hn, hc, he => by
    have hchar := hc c List.mem_cons_self
    have hrest : ∀ d ∈ s, d < 0x110000 := fun d hd => hc d (List.mem_cons_of_mem _ hd)
    unfold encodable at he
    rw [List.all_cons, Bool.and_eq_true] at he
    have hfirst : c < 0xD800 ∨ 0xDFFF < c := by simpa using he.1
    have hbytes : utf8 (c :: s) = utf8Char c ++ utf8 s := rfl
    obtain ⟨b, bs, hb⟩ : ∃ b bs, utf8Char c ++ utf8 s = b :: bs :=
      List.exists_cons_of_ne_nil (by simp [utf8Char_ne_nil])
    have hnext := nextChar_utf8Char hchar hfirst (utf8 s)
    have ih : decodeFrom n (utf8 s) = some s :=
      decodeFrom_utf8 (Nat.le_of_succ_le_succ hn) hrest he.2
    rw [hb] at hnext
    rw [hbytes, hb, decodeFrom, hnext]
    simp only [bind, Option.bind, ih]
    rfl

/-- **UTF-8 round trip.** -/
theorem decodeUtf8_utf8 {s : Str} (hc : ∀ c ∈ s, c < 0x110000) (he : encodable s = true) :
    decodeUtf8 (utf8 s) = some s :=
  decodeFrom_utf8 (length_utf8 s) hc he

/-! ### What is read is what was encoded -/

theorem continuation_eq {b : UInt8} {n : ℕ} (h : continuation b = some n) :
    n < 64 ∧ b.toNat = 0x80 + n := by
  unfold continuation at h
  split_ifs at h with hrange
  obtain rfl := Option.some.inj h
  omega

theorem ofNat_eq {b : UInt8} {n : ℕ} (h : b.toNat = n) : UInt8.ofNat n = b := by
  rw [← h, UInt8.ofNat_toNat]

/-- A code point of one more byte. -/
theorem codePoint_cons {first c : ℕ} {b : UInt8} {bs : Bytes}
    (h : codePoint first (b :: bs) = some c) :
    ∃ n, n < 64 ∧ b.toNat = 0x80 + n ∧ codePoint (64 * first + n) bs = some c := by
  rw [codePoint, Option.bind_eq_some_iff] at h
  obtain ⟨n, hn, h⟩ := h
  exact ⟨n, (continuation_eq hn).1, (continuation_eq hn).2, h⟩

theorem codePoint_nil {first c : ℕ} (h : codePoint first [] = some c) : first = c :=
  Option.some.inj h

/-- **A character that is read was encoded in its shortest form.** -/
theorem utf8Char_nextChar {raw rest : Bytes} {c : ℕ} (h : nextChar raw = some (c, rest)) :
    utf8Char c ++ rest = raw ∧ c < 0x110000 ∧ (c < 0xD800 ∨ 0xDFFF < c) := by
  rcases raw with _ | ⟨b, bs⟩
  · cases h
  rw [nextChar] at h
  obtain ⟨⟨size, first, least⟩, hlead, h⟩ := Option.bind_eq_some_iff.mp h
  obtain ⟨c', hpoint, h⟩ := Option.bind_eq_some_iff.mp h
  split_ifs at h with hgood
  obtain ⟨rfl, rfl⟩ : c' = c ∧ bs.drop size = rest := by
    simpa only [Option.some.injEq, Prod.mk.injEq] using h
  obtain ⟨hsize, hleast, hmax, hsurrogate⟩ := hgood
  refine ⟨?_, hmax, hsurrogate⟩
  obtain ⟨front, hfront, hlen⟩ : ∃ front, bs = front ++ bs.drop size ∧ front.length = size :=
    ⟨bs.take size, (List.take_append_drop size bs).symm, hsize⟩
  have htake : bs.take size = front := by
    conv_lhs => rw [hfront, ← hlen]
    exact List.take_left
  rw [htake] at hpoint
  unfold leading at hlead
  have hb := b.toNat_lt
  simp only at hlead
  -- one case for each number of bytes
  split_ifs at hlead with h1 h2 h3 h4
  · obtain ⟨rfl, rfl, rfl⟩ : 0 = size ∧ b.toNat = first ∧ 0 = least := by simpa using hlead
    obtain rfl := List.length_eq_zero_iff.mp hlen
    have hc := codePoint_nil hpoint
    unfold utf8Char
    simp only
    rw [if_pos (by omega), ofNat_eq hc]
    exact congrArg (b :: ·) hfront.symm
  · obtain ⟨rfl, rfl, rfl⟩ : 1 = size ∧ b.toNat - 0xC0 = first ∧ 0x80 = least := by
      simpa using hlead
    obtain ⟨b1, rfl⟩ := List.length_eq_one_iff.mp hlen
    obtain ⟨n1, hn1, hb1, hpoint⟩ := codePoint_cons hpoint
    have hc := codePoint_nil hpoint
    unfold utf8Char
    simp only
    rw [if_neg (by omega), if_pos (by omega), @ofNat_eq b _ (by omega),
      @ofNat_eq b1 _ (by omega)]
    exact congrArg (b :: ·) hfront.symm
  · obtain ⟨rfl, rfl, rfl⟩ : 2 = size ∧ b.toNat - 0xE0 = first ∧ 0x800 = least := by
      simpa using hlead
    obtain ⟨b1, b2, rfl⟩ := List.length_eq_two.mp hlen
    obtain ⟨n1, hn1, hb1, hpoint⟩ := codePoint_cons hpoint
    obtain ⟨n2, hn2, hb2, hpoint⟩ := codePoint_cons hpoint
    have hc := codePoint_nil hpoint
    unfold utf8Char
    simp only
    rw [if_neg (by omega), if_neg (by omega), if_pos (by omega), @ofNat_eq b _ (by omega),
      @ofNat_eq b1 _ (by omega), @ofNat_eq b2 _ (by omega)]
    exact congrArg (b :: ·) hfront.symm
  · obtain ⟨rfl, rfl, rfl⟩ : 3 = size ∧ b.toNat - 0xF0 = first ∧ 0x10000 = least := by
      simpa using hlead
    obtain ⟨b1, b2, b3, rfl⟩ := List.length_eq_three.mp hlen
    obtain ⟨n1, hn1, hb1, hpoint⟩ := codePoint_cons hpoint
    obtain ⟨n2, hn2, hb2, hpoint⟩ := codePoint_cons hpoint
    obtain ⟨n3, hn3, hb3, hpoint⟩ := codePoint_cons hpoint
    have hc := codePoint_nil hpoint
    unfold utf8Char
    simp only
    rw [if_neg (by omega), if_neg (by omega), if_neg (by omega), @ofNat_eq b _ (by omega),
      @ofNat_eq b1 _ (by omega), @ofNat_eq b2 _ (by omega), @ofNat_eq b3 _ (by omega)]
    exact congrArg (b :: ·) hfront.symm

theorem utf8_decodeFrom : ∀ {n : ℕ} {raw : Bytes} {s : Str}, decodeFrom n raw = some s →
    utf8 s = raw ∧ (∀ c ∈ s, c < 0x110000) ∧ encodable s = true
  | 0, [], s, h | _ + 1, [], s, h => by
    obtain rfl : [] = s := Option.some.inj h
    exact ⟨rfl, by simp, rfl⟩
  | n + 1, b :: bs, s, h => by
    rw [decodeFrom] at h
    obtain ⟨⟨c, rest⟩, hnext, h⟩ := Option.bind_eq_some_iff.mp h
    obtain ⟨t, hrest, h⟩ := Option.bind_eq_some_iff.mp h
    obtain rfl : c :: t = s := Option.some.inj h
    obtain ⟨hraw, hmax, hsurrogate⟩ := utf8Char_nextChar hnext
    obtain ⟨ht, hpoints, hencodable⟩ := utf8_decodeFrom hrest
    refine ⟨?_, List.forall_mem_cons.mpr ⟨hmax, hpoints⟩, ?_⟩
    · show utf8Char c ++ utf8 t = b :: bs
      rw [ht, hraw]
    · unfold encodable at hencodable ⊢
      rw [List.all_cons, hencodable, Bool.and_true]
      simpa using hsurrogate

/-- **The bytes of a text are those it was read from.** -/
theorem utf8_decodeUtf8 {raw : Bytes} {s : Str} (h : decodeUtf8 raw = some s) :
    utf8 s = raw ∧ (∀ c ∈ s, c < 0x110000) ∧ encodable s = true := utf8_decodeFrom h

end Cloudx.Python.Decode

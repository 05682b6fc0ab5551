import Cloudx.Python.JsonText
import Cloudx.Local.ResponseObserver

/-! # Streams of events

The body of a streamed response is a sequence of JSON objects, one after another: between them stand
the field names of the event stream, and anywhere among their bytes the sizes of the transfer chunks.
Whatever is quoted before a colon in such a stream, behind a brace or a comma, is the key of one of its
objects; a quotation mark within a string is an escaped one. -/

namespace Cloudx.Local.EventStream

open Cloudx.Python.Text Cloudx.Python.Value Cloudx.Python.JsonText

/-! ### Decoding -/

/-- What is relied on of `raw.decode("utf-8", errors="replace")`: ASCII bytes stand for themselves,
whatever is around them, and others give characters that are not ASCII. -/
structure Decodes (decode : Bytes → Str) : Prop where
  empty : ∀ a, decode a = [] ↔ a = []
  ascii : ∀ a b c, b < 128 → decode (a ++ b :: c) = decode a ++ b.toNat :: decode c
  other : ∀ a, (∀ b ∈ a, 128 ≤ b) → ∀ c ∈ decode a, 128 ≤ c

theorem ascii_split : ∀ s : Bytes, (∀ b ∈ s, 128 ≤ b) ∨
    ∃ a b t, s = a ++ b :: t ∧ (∀ x ∈ a, (128 : UInt8) ≤ x) ∧ b < 128
  | [] => Or.inl (by simp)
  | b :: s => by
    by_cases hb : b < 128
    · exact Or.inr ⟨[], b, s, rfl, by simp, hb⟩
    · have hb' : 128 ≤ b := UInt8.not_lt.mp hb
      rcases ascii_split s with h | ⟨a, c, t, rfl, ha, hc⟩
      · exact Or.inl (List.forall_mem_cons.mpr ⟨hb', h⟩)
      · exact Or.inr ⟨b :: a, c, t, rfl, List.forall_mem_cons.mpr ⟨hb', ha⟩, hc⟩

/-- **An ASCII character comes from its byte**, and parts the bytes as it parts the text. -/
theorem decode_split {decode : Bytes → Str} (hd : Decodes decode) (s : Bytes) {p q : Str} {c : UInt8}
    (hc : c < 128) (h : decode s = p ++ c.toNat :: q) :
    ∃ x y, s = x ++ c :: y ∧ decode x = p ∧ decode y = q := by
  have hsmall : c.toNat < 128 := UInt8.lt_iff_toNat_lt.mp hc
  rcases ascii_split s with hs | ⟨a, b, t, hs, ha, hb⟩
  · have := hd.other s hs c.toNat (by rw [h]; simp)
    omega
  · rw [hs, hd.ascii a b t hb] at h
    rw [hs]
    have hnot : ∀ {u : Str}, decode a = p ++ c.toNat :: u → False := fun hu => by
      have := hd.other a ha c.toNat (by rw [hu]; simp)
      omega
    rcases List.append_eq_append_iff.mp h with ⟨p', rfl, hrest⟩ | ⟨u, hu, hrest⟩
    · rcases p' with _ | ⟨d, p'⟩
      · obtain ⟨hbc, hq⟩ := List.cons.inj hrest
        obtain rfl : b = c := UInt8.toNat_inj.mp hbc
        exact ⟨a, t, rfl, (List.append_nil _).symm, hq⟩
      · obtain ⟨rfl, hq⟩ := List.cons.inj hrest
        obtain ⟨x, y, rfl, hx, hy⟩ := decode_split hd t hc hq
        refine ⟨a ++ b :: x, y, by rw [List.append_assoc]; rfl, ?_, hy⟩
        rw [hd.ascii a b x hb, hx]
    · rcases u with _ | ⟨d, u⟩
      · obtain ⟨hbc, hq⟩ := List.cons.inj hrest
        obtain rfl : c = b := UInt8.toNat_inj.mp hbc
        exact ⟨a, t, rfl, by rw [hu, List.append_nil], hq.symm⟩
      · obtain ⟨rfl, -⟩ := List.cons.inj hrest
        exact (hnot hu).elim
termination_by s.length
decreasing_by
  rw [hs, List.length_append, List.length_cons]
  omega

theorem mem_decode {decode : Bytes → Str} (hd : Decodes decode) {s : Bytes} {b : UInt8} (hb : b < 128)
    (h : b ∈ s) : b.toNat ∈ decode s := by
  obtain ⟨x, y, rfl⟩ := List.append_of_mem h
  rw [hd.ascii x b y hb]
  simp

/-- Blanks. -/
def WhiteBytes (w : Bytes) : Prop := ∀ b ∈ w, isWhite b.toNat = true

theorem white_lt {b : UInt8} (h : isWhite b.toNat = true) : b < 128 := by
  unfold isWhite at h
  simp only [Bool.or_eq_true, beq_iff_eq] at h
  have hlt : b.toNat < 128 := by omega
  exact UInt8.lt_iff_toNat_lt.mpr hlt

/-- Blanks stand for themselves. -/
theorem decode_white {decode : Bytes → Str} (hd : Decodes decode) : ∀ {w : Bytes} (s : Bytes),
    WhiteBytes w → decode (w ++ s) = w.map UInt8.toNat ++ decode s
  | [], _, _ => rfl
  | b :: w, s, hw => by
    have h := hd.ascii [] b (w ++ s) (white_lt (hw b List.mem_cons_self))
    rw [(hd.empty []).mpr rfl, List.nil_append, List.nil_append,
      decode_white hd s fun c hc => hw c (List.mem_cons_of_mem _ hc)] at h
    exact h

theorem white_map {w : Bytes} (hw : WhiteBytes w) : White (w.map UInt8.toNat) := by
  intro c hc
  obtain ⟨b, hb, rfl⟩ := List.mem_map.mp hc
  exact hw b hb

/-- Blanks come from blanks. -/
theorem white_split {decode : Bytes → Str} (hd : Decodes decode) : ∀ {w q : Str} {s : Bytes},
    White w → decode s = w ++ q → ∃ w' t, s = w' ++ t ∧ WhiteBytes w' ∧ decode t = q
  | [], _, s, _, h => ⟨[], s, rfl, fun _ hb => absurd hb (by simp), h⟩
  | c :: w, q, s, hw, h => by
    have hc := hw c List.mem_cons_self
    have hlt : c < 128 := by
      unfold isWhite at hc
      simp only [Bool.or_eq_true, beq_iff_eq] at hc
      omega
    have hbyte : (UInt8.ofNat c).toNat = c := by
      rw [UInt8.toNat_ofNat']
      omega
    have hb : UInt8.ofNat c < 128 := UInt8.lt_iff_toNat_lt.mpr (by rw [hbyte]; exact hlt)
    obtain ⟨x, y, rfl, hx, hy⟩ := @decode_split decode hd s [] (w ++ q) (UInt8.ofNat c) hb (by
      rw [hbyte]; exact h)
    obtain rfl := (hd.empty x).mp hx
    obtain ⟨w', t, rfl, hw', ht⟩ := white_split hd (fun d hd' => hw d (List.mem_cons_of_mem _ hd')) hy
    refine ⟨UInt8.ofNat c :: w', t, rfl, ?_, ht⟩
    intro b hb'
    rcases List.mem_cons.mp hb' with rfl | hb'
    · rw [hbyte]; exact hc
    · exact hw' b hb'

/-! ### Transfer chunks -/

/-- A hex digit. -/
def isHexByte (b : UInt8) : Bool := (hexDigit b.toNat).isSome

/-- The bytes on the wire are those of the payload, with chunk sizes on lines of their own between
them. -/
inductive Chunked : Bytes → Bytes → Prop
  | nil : Chunked [] []
  | byte (b : UInt8) {payload wire : Bytes} (h : Chunked payload wire) :
    Chunked (b :: payload) (b :: wire)
  | size (digits : Bytes) (hne : digits ≠ []) (hdigits : ∀ b ∈ digits, isHexByte b = true)
    {payload wire : Bytes} (h : Chunked payload wire) :
    Chunked payload (13 :: 10 :: (digits ++ 13 :: 10 :: wire))

/-- A byte that is part of no chunk size parts the payload as it parts the wire. -/
theorem chunked_split {payload wire : Bytes} (h : Chunked payload wire) : ∀ {p q : Bytes},
    wire = p ++ 34 :: q → ∃ x y, payload = x ++ 34 :: y ∧ Chunked x p ∧ Chunked y q := by
  induction h with
  | nil => exact fun h => absurd h (by simp)
  | @byte b payload wire hrest ih =>
    intro p q hw
    rcases p with _ | ⟨c, p⟩
    · obtain ⟨rfl, rfl⟩ := List.cons.inj hw
      exact ⟨[], payload, rfl, .nil, hrest⟩
    · obtain ⟨rfl, hwire⟩ := List.cons.inj hw
      obtain ⟨x, y, rfl, hx, hy⟩ := ih hwire
      exact ⟨b :: x, y, rfl, .byte b hx, hy⟩
  | @size digits hne hdigits payload wire hrest ih =>
    intro p q hw
    have hcut : 13 :: 10 :: (digits ++ 13 :: 10 :: wire) = (13 :: 10 :: digits ++ [13, 10]) ++ wire := by
      simp
    have hno : (34 : UInt8) ∉ 13 :: 10 :: digits ++ [13, 10] := by
      intro hmem
      simp only [List.cons_append, List.mem_cons, List.mem_append, List.not_mem_nil, or_false] at hmem
      rcases hmem with h | h | h | h | h
      · exact absurd h (by decide)
      · exact absurd h (by decide)
      · exact absurd (hdigits 34 h) (by decide)
      · exact absurd h (by decide)
      · exact absurd h (by decide)
    rw [hcut] at hw
    rcases List.append_eq_append_iff.mp hw with ⟨p', rfl, hw'⟩ | ⟨u, hu, hw'⟩
    · obtain ⟨x, y, hxy, hx, hy⟩ := ih hw'
      refine ⟨x, y, hxy, ?_, hy⟩
      have hsize := Chunked.size digits hne hdigits hx
      rw [show 13 :: 10 :: digits ++ [13, 10] ++ p' = 13 :: 10 :: (digits ++ 13 :: 10 :: p') by simp]
      exact hsize
    · rcases u with _ | ⟨d, u⟩
      · obtain ⟨x, y, hxy, hx, hy⟩ := @ih [] q hw'.symm
        refine ⟨x, y, hxy, ?_, hy⟩
        have hsize := Chunked.size digits hne hdigits hx
        rw [List.append_nil] at hu
        rw [← hu]
        exact hsize
      · obtain ⟨rfl, -⟩ := List.cons.inj hw'
        exact absurd (by rw [hu]; simp) hno

/-- A text without line breaks on the wire is a text of the payload. -/
theorem chunked_text : ∀ {u payload q : Bytes}, 13 ∉ u → Chunked payload (u ++ q) →
    ∃ payload', payload = u ++ payload' ∧ Chunked payload' q
  | [], payload, _, _, h => ⟨payload, rfl, h⟩
  | b :: u, payload, q, hu, h => by
    rw [List.mem_cons, not_or] at hu
    generalize hwire : b :: u ++ q = wire at h
    rcases h with _ | @⟨_, payload, wire, hrest⟩ | _
    · exact absurd hwire (by simp)
    · obtain ⟨rfl, rfl⟩ := List.cons.inj hwire
      obtain ⟨payload', rfl, h'⟩ := chunked_text hu.2 hrest
      exact ⟨payload', rfl, h'⟩
    · exact absurd (List.cons.inj hwire).1.symm hu.1

/-- Blanks before a byte that is neither a blank nor a digit are blanks of the payload. -/
theorem chunked_white : ∀ {w payload q : Bytes} {c : UInt8}, WhiteBytes w →
    isWhite c.toNat = false → isHexByte c = false → Chunked payload (w ++ c :: q) →
    ∃ payload', payload = w ++ c :: payload' ∧ Chunked payload' q
  | [], payload, q, c, _, hwhite, _, h => by
    have hc : (13 : UInt8) ∉ [c] := fun hmem => by
      rw [← List.mem_singleton.mp hmem] at hwhite
      exact absurd hwhite (by decide)
    exact @chunked_text [c] payload q hc h
  | b :: w, payload, q, c, hw, hwhite, hhex, h => by
    generalize hwire : b :: w ++ c :: q = wire at h
    rcases h with _ | @⟨_, payload, wire, hrest⟩ | ⟨digits, hne, hdigits, hrest⟩
    · exact absurd hwire (by simp)
    · obtain ⟨rfl, rfl⟩ := List.cons.inj hwire
      obtain ⟨payload', rfl, h'⟩ := @chunked_white w payload q c
        (fun d hd => hw d (List.mem_cons_of_mem _ hd)) hwhite hhex hrest
      exact ⟨payload', rfl, h'⟩
    · -- a digit stands where only blanks may
      obtain ⟨d, digits, rfl⟩ := List.exists_cons_of_ne_nil hne
      have hd := hdigits d List.mem_cons_self
      have hblank : ∀ e : UInt8, isHexByte e = true → isWhite e.toNat = false := by
        intro e he
        unfold isHexByte at he
        obtain ⟨n, hn⟩ := Option.isSome_iff_exists.mp he
        have := hexDigit_plain hn
        unfold isWhite
        simp only [Bool.or_eq_false_iff, beq_eq_false_iff_ne]
        omega
      rcases w with _ | ⟨b', _ | ⟨b'', w⟩⟩
      · obtain ⟨-, hwire⟩ := List.cons.inj hwire
        obtain ⟨rfl, -⟩ := List.cons.inj hwire
        exact absurd hwhite (by decide)
      · obtain ⟨-, hwire⟩ := List.cons.inj hwire
        obtain ⟨-, hwire⟩ := List.cons.inj hwire
        obtain ⟨rfl, -⟩ := List.cons.inj hwire
        exact absurd hd (by simp [hhex])
      · obtain ⟨-, hwire⟩ := List.cons.inj hwire
        obtain ⟨-, hwire⟩ := List.cons.inj hwire
        obtain ⟨rfl, -⟩ := List.cons.inj hwire
        have := hw b'' (by simp)
        rw [hblank b'' hd] at this
        exact absurd this (by simp)

/-- The wire ends as the payload does, or in a chunk size. -/
theorem chunked_last {payload wire : Bytes} (h : Chunked payload wire) : ∀ {x : Bytes} {b : UInt8},
    payload = x ++ [b] → (∃ z, wire = z ++ [b]) ∨ ∃ z d, wire = z ++ [d, 13, 10] ∧ isHexByte d = true := by
  induction h with
  | nil => exact fun h => absurd h (by simp)
  | @byte b payload wire hrest ih =>
    intro x c hx
    rcases x with _ | ⟨d, x⟩
    · obtain ⟨rfl, rfl⟩ := List.cons.inj hx
      -- nothing of the payload is left: what follows are chunk sizes
      have hsizes : ∀ {payload wire : Bytes}, Chunked payload wire → payload = [] →
          wire = [] ∨ ∃ z d, wire = z ++ [d, 13, 10] ∧ isHexByte d = true := by
        intro payload wire h
        induction h with
        | nil => exact fun _ => Or.inl rfl
        | byte => exact fun h => absurd h (by simp)
        | @size digits hne hdigits payload wire _ ih =>
          intro hnil
          right
          rcases ih hnil with rfl | ⟨z, d, rfl, hd⟩
          · obtain ⟨digits', d, rfl⟩ := (List.eq_nil_or_concat' digits).resolve_left hne
            exact ⟨13 :: 10 :: digits', d, by simp, hdigits d (by simp)⟩
          · exact ⟨13 :: 10 :: (digits ++ 13 :: 10 :: z), d, by simp, hd⟩
      rcases hsizes hrest rfl with rfl | ⟨z, d, rfl, hd⟩
      · exact Or.inl ⟨[], rfl⟩
      · exact Or.inr ⟨b :: z, d, rfl, hd⟩
    · obtain ⟨rfl, htail⟩ := List.cons.inj hx
      rcases ih htail with ⟨z, rfl⟩ | ⟨z, e, rfl, he⟩
      · exact Or.inl ⟨b :: z, rfl⟩
      · exact Or.inr ⟨b :: z, e, rfl, he⟩
  | @size digits hne hdigits payload wire _ ih =>
    intro x c hx
    rcases ih hx with ⟨z, rfl⟩ | ⟨z, e, rfl, he⟩
    · exact Or.inl ⟨13 :: 10 :: (digits ++ 13 :: 10 :: z), by simp⟩
    · exact Or.inr ⟨13 :: 10 :: (digits ++ 13 :: 10 :: z), e, by simp, he⟩

/-! ### Members -/

/-- A string with the value `k` and a colon stand at the start; `rest` follows. -/
def KeyAt (decode : Bytes → Str) (k : Str) (rest s : Bytes) : Prop :=
  ∃ raw w, s = 34 :: (raw ++ 34 :: (w ++ 58 :: rest)) ∧ WhiteBytes w ∧
    unescape (decode raw) = some k

/-- A string with the value `v` stands at the start, after blanks. -/
def ValueAt (decode : Bytes → Str) (v : Str) (s : Bytes) : Prop :=
  ∃ w raw rest, s = w ++ 34 :: (raw ++ 34 :: rest) ∧ WhiteBytes w ∧ unescape (decode raw) = some v

/-- The keys that no event has. -/
def failureKeys : List Str := [lit "error", lit "message"]

/-- The keys under which signals are looked for. -/
def signalKeys : List Str := [lit "type", lit "code", lit "error_type"]

/-- A member that tells of no failure: it has none of the keys, and no bad text for a signal. -/
def Innocent (bad : Str → Prop) (k : Str) (v : Json) : Prop :=
  k ∉ failureKeys ∧ (k ∈ signalKeys → ∀ s, v = .str s → ¬ bad s)

/-- The same of a key and what follows its colon. -/
def InnocentAt (decode : Bytes → Str) (bad : Str → Prop) (k : Str) (rest : Bytes) : Prop :=
  k ∉ failureKeys ∧ (k ∈ signalKeys → ∀ s, ValueAt decode s rest → ¬ bad s)

/-- A streamed response: the status line and the headers, what comes before the first object of the
body, and the rest of the body, in which objects follow each other. -/
structure Stream (decode : Bytes → Str) where
  head : Bytes
  lead : Bytes
  payload : Bytes
  wire : Bytes
  objects : List (List (Str × Json))
  lead_quote : 34 ∉ lead
  chunked : Chunked payload wire
  body : Sequence objects (decode payload)

variable {decode : Bytes → Str} {bad : Str → Prop}

/-- All that comes before the first object. -/
def Stream.front (x : Stream decode) : Bytes := x.head ++ [13, 10, 13, 10] ++ x.lead

/-- The bytes of the response. -/
def Stream.bytes (x : Stream decode) : Bytes := x.front ++ x.wire

/-- No name of the fields is written in plain characters only. -/
theorem not_plain {k : Str} (h : ∀ c ∈ k, isPlain c = true) : k ∉ failureKeys ∧ k ∉ signalKeys := by
  have hall : ∀ key ∈ failureKeys ++ signalKeys, ∃ c ∈ key, isPlain c = false := by decide
  rw [← not_or, ← List.mem_append]
  intro hmem
  obtain ⟨c, hc, hplain⟩ := hall k hmem
  rw [h c hc] at hplain
  exact absurd hplain (by simp)

theorem not_mem_raw (hd : Decodes decode) {raw : Bytes} {s : Str} {b : UInt8} (hb : b < 32)
    (h : unescape (decode raw) = some s) : b ∉ raw := by
  intro hmem
  have hlt : b.toNat < 32 := UInt8.lt_iff_toNat_lt.mp hb
  have hascii : b < 128 := UInt8.lt_iff_toNat_lt.mpr (show b.toNat < 128 by omega)
  have := lexical_ge (lexical_of_unescape h) b.toNat (mem_decode hd hascii hmem)
  omega

/-- A brace or a comma, and blanks, end neither in a backslash nor in a chunk size. -/
theorem open_last {start w z : Bytes} {o : UInt8} (ho : o = 123 ∨ o = 44) (hw : WhiteBytes w) :
    start ++ o :: w ≠ z ++ [92] ∧ ∀ d, isHexByte d = true → start ++ o :: w ≠ z ++ [d, 13, 10] := by
  have hlast : ∀ {x y : Bytes} {b c : UInt8}, x ++ [b] = y ++ [c] → b = c ∧ x = y := fun h =>
    ⟨by simpa using (List.append_inj' h rfl).2, (List.append_inj' h rfl).1⟩
  constructor
  · intro h
    rcases List.eq_nil_or_concat' w with rfl | ⟨w', b, rfl⟩
    · obtain rfl := (hlast h).1
      exact absurd ho (by decide)
    · rw [← List.cons_append, ← List.append_assoc] at h
      obtain rfl := (hlast h).1
      exact absurd (hw 92 (by simp)) (by decide)
  · intro d hd h
    have h10 : start ++ o :: w = (z ++ [d, 13]) ++ [10] := by rw [h]; simp
    rcases List.eq_nil_or_concat' w with rfl | ⟨w', b, rfl⟩
    · obtain rfl := (hlast h10).1
      exact absurd ho (by decide)
    · rw [← List.cons_append, ← List.append_assoc] at h10
      have h13 : start ++ o :: w' = (z ++ [d]) ++ [13] := by rw [(hlast h10).2]; simp
      rcases List.eq_nil_or_concat' w' with rfl | ⟨w'', c, rfl⟩
      · obtain rfl := (hlast h13).1
        exact absurd ho (by decide)
      · rw [← List.cons_append, ← List.append_assoc] at h13
        have hdigit := (hlast h13).2
        rcases List.eq_nil_or_concat' w'' with rfl | ⟨w3, e, rfl⟩
        · obtain rfl := (hlast hdigit).1
          rcases ho with rfl | rfl <;> exact absurd hd (by decide)
        · rw [← List.cons_append, ← List.append_assoc] at hdigit
          obtain rfl := (hlast hdigit).1
          have hwhite := hw e (by simp)
          unfold isHexByte at hd
          obtain ⟨n, hn⟩ := Option.isSome_iff_exists.mp hd
          have := hexDigit_plain hn
          unfold isWhite at hwhite
          simp only [Bool.or_eq_true, beq_iff_eq] at hwhite
          omega

/-- **In the body** a string before a colon, behind a brace or a comma, is the key of a member. -/
theorem body_innocent (hd : Decodes decode) (x : Stream decode)
    (hbody : ∀ fields ∈ x.objects, Everywhere (Innocent bad) (.obj fields))
    {start p w t rest : Bytes} {o : UInt8} {k : Str} (hwire : x.wire = p ++ 34 :: t)
    (hp : x.front ++ p = start ++ o :: w) (ho : o = 123 ∨ o = 44) (hw : WhiteBytes w)
    (hkey : KeyAt decode k rest (34 :: t)) : InnocentAt decode bad k rest := by
  obtain ⟨raw, v, ht, hv, hraw⟩ := hkey
  obtain rfl := (List.cons.inj ht).2
  obtain ⟨P, T, hpayload, hP, hT⟩ := chunked_split x.chunked hwire
  -- no chunk size stands between the quotation mark and what follows the colon
  obtain ⟨T', rfl, hT'⟩ := chunked_text (not_mem_raw hd (by decide) hraw) hT
  obtain ⟨T'', rfl, hT''⟩ := @chunked_text [34] T' _ (by decide) hT'
  obtain ⟨R, rfl, hR⟩ := chunked_white hv (by decide) (by decide) hT''
  have htext : decode x.payload = decode P ++
      34 :: (decode raw ++ 34 :: (v.map UInt8.toNat ++ 58 :: decode R)) := by
    rw [hpayload, hd.ascii P 34 _ (by decide), List.singleton_append, hd.ascii raw 34 _ (by decide),
      decode_white hd _ hv]
    have h58 := hd.ascii [] 58 R (by decide)
    rw [(hd.empty []).mpr rfl, List.nil_append, List.nil_append] at h58
    rw [h58]
    rfl
  have hlast : ∀ p', decode P ≠ p' ++ [92] := by
    intro p' h
    obtain ⟨X, Y, rfl, -, hY⟩ := @decode_split decode hd P p' [] 92 (by decide) h
    obtain rfl := (hd.empty Y).mp hY
    rcases chunked_last hP rfl with ⟨z, rfl⟩ | ⟨z, d, rfl, hdigit⟩
    · rw [← List.append_assoc] at hp
      exact (@open_last start w (x.front ++ z) o ho hw).1 hp.symm
    · rw [← List.append_assoc] at hp
      exact (@open_last start w (x.front ++ z) o ho hw).2 d hdigit hp.symm
  obtain ⟨tokens, hok, htokens, hmembers, -⟩ := sequence_tokens x.body hbody
  rcases member_of_text hok hmembers (htokens.trans htext) hraw (white_map hv) hlast with
    hplain | ⟨value, hinnocent, hvalue⟩
  · exact ⟨(not_plain hplain).1, fun h => absurd h (not_plain hplain).2⟩
  · refine ⟨hinnocent.1, fun hsignal s hs => hinnocent.2 hsignal s (hvalue s ?_)⟩
    obtain ⟨w', raw', rest', rfl, hw', hraw'⟩ := hs
    obtain ⟨R', rfl, hR'⟩ := chunked_white hw' (by decide) (by decide) hR
    obtain ⟨R'', rfl, hR''⟩ := chunked_text (not_mem_raw hd (by decide) hraw') hR'
    obtain ⟨R3, rfl, -⟩ := @chunked_text [34] R'' _ (by decide) hR''
    refine ⟨w'.map UInt8.toNat, decode raw', decode R3, ?_, white_map hw', hraw'⟩
    rw [decode_white hd _ hw']
    have h34 := hd.ascii [] 34 (raw' ++ ([34] ++ R3)) (by decide)
    rw [(hd.empty []).mpr rfl, List.nil_append, List.nil_append] at h34
    rw [h34, List.singleton_append, hd.ascii raw' 34 R3 (by decide)]
    rfl

/-- After a quotation mark before the first object there is a line break before it too. -/
theorem break_after (x : Stream decode) {a f : Bytes} (h : x.front = a ++ 34 :: f) : 10 ∈ f := by
  unfold Stream.front at h
  rcases List.append_eq_append_iff.mp h with ⟨c, -, hc⟩ | ⟨c, hc, hf⟩
  · exact absurd (by rw [hc]; simp) x.lead_quote
  · rcases c with _ | ⟨d, c⟩
    · exact absurd (by rw [← List.nil_append x.lead, ← hf]; simp) x.lead_quote
    · obtain ⟨rfl, rfl⟩ := List.cons.inj hf
      rcases List.eq_nil_or_concat' c with rfl | ⟨c', e, rfl⟩
      · have := (List.append_inj' (show (x.head ++ [13, 10, 13]) ++ [10] = a ++ [34] by
          rw [← hc]; simp) rfl).2
        exact absurd this (by decide)
      · have hlast : (x.head ++ [13, 10, 13]) ++ [10] = (a ++ 34 :: c') ++ [e] := by
          calc (x.head ++ [13, 10, 13]) ++ [10] = x.head ++ [13, 10, 13, 10] := by simp
            _ = a ++ 34 :: (c' ++ [e]) := hc
            _ = (a ++ 34 :: c') ++ [e] := by simp
        have := (List.append_inj' hlast rfl).2
        simp only [List.cons.injEq, and_true] at this
        rw [← this]
        simp

/-- A string that begins before the first object ends before it. -/
theorem string_in_front (hd : Decodes decode) {f y raw u : Bytes} {s : Str} (hf : 10 ∈ f)
    (hraw : unescape (decode raw) = some s) (h : f ++ y = raw ++ 34 :: u) :
    ∃ f', f = raw ++ 34 :: f' ∧ u = f' ++ y := by
  rcases List.append_eq_append_iff.mp h with ⟨c, rfl, -⟩ | ⟨c, rfl, hc⟩
  · exact absurd (List.mem_append_left c hf) (not_mem_raw hd (by decide) hraw)
  · rcases c with _ | ⟨d, c⟩
    · rw [List.append_nil] at hf
      exact absurd hf (not_mem_raw hd (by decide) hraw)
    · obtain ⟨rfl, rfl⟩ := List.cons.inj hc
      exact ⟨c, rfl, rfl⟩

/-- Blanks that begin there end there, or before a brace. -/
theorem white_in_front (hd : Decodes decode) (x : Stream decode) {f w u : Bytes} {c : UInt8}
    (hw : WhiteBytes w) (hc : isWhite c.toNat = false) (hhex : isHexByte c = false) (hlt : c < 128)
    (hbrace : c ≠ 123) (h : f ++ x.wire = w ++ c :: u) : ∃ f', f = w ++ c :: f' ∧ u = f' ++ x.wire := by
  have hnot : ∀ {v : Bytes}, WhiteBytes v → x.wire ≠ v ++ c :: u := by
    intro v hv hwire
    have hchunked := x.chunked
    rw [hwire] at hchunked
    obtain ⟨payload', hpayload, -⟩ := chunked_white hv hc hhex hchunked
    obtain ⟨-, -, -, -, hopen⟩ := @sequence_tokens (fun _ _ => True) _ _ x.body fun fields _ =>
      everywhere_true (.obj fields)
    have h := hd.ascii [] c payload' hlt
    rw [(hd.empty []).mpr rfl, List.nil_append, List.nil_append] at h
    have := hopen (v.map UInt8.toNat) c.toNat (decode payload') (by
      rw [hpayload, decode_white hd _ hv, h]) (white_map hv) hc
    exact hbrace (UInt8.toNat_inj.mp this)
  rcases List.append_eq_append_iff.mp h with ⟨v, rfl, hv⟩ | ⟨v, rfl, hv⟩
  · exact absurd hv (hnot fun b hb => hw b (List.mem_append_right _ hb))
  · rcases v with _ | ⟨d, v⟩
    · exact absurd hv.symm (@hnot [] fun b hb => absurd hb (by simp))
    · obtain ⟨rfl, rfl⟩ := List.cons.inj hv
      exact ⟨v, rfl, rfl⟩

/-- **Whatever is quoted before a colon in a stream, behind a brace or a comma, is innocent**, if the
members of its objects are, and what is quoted before the first object. -/
theorem stream_innocent (hd : Decodes decode) (x : Stream decode)
    (hbody : ∀ fields ∈ x.objects, Everywhere (Innocent bad) (.obj fields))
    (hfront : ∀ a s k rest, x.front = a ++ s → KeyAt decode k rest s → InnocentAt decode bad k rest)
    {start w s rest : Bytes} {o : UInt8} {k : Str} (hbytes : x.bytes = start ++ o :: (w ++ s))
    (ho : o = 123 ∨ o = 44) (hw : WhiteBytes w) (hkey : KeyAt decode k rest s) :
    InnocentAt decode bad k rest := by
  obtain ⟨raw, v, rfl, hv, hraw⟩ := hkey
  have hkey : KeyAt decode k rest (34 :: (raw ++ 34 :: (v ++ 58 :: rest))) := ⟨raw, v, rfl, hv, hraw⟩
  have hsplit : x.front ++ x.wire = (start ++ o :: w) ++ 34 :: (raw ++ 34 :: (v ++ 58 :: rest)) := by
    rw [List.append_assoc]
    exact hbytes
  rcases List.append_eq_append_iff.mp hsplit with ⟨p, hp, hwire⟩ | ⟨f, hf, hwire⟩
  · exact body_innocent hd x hbody hwire hp.symm ho hw hkey
  · rcases f with _ | ⟨d, f⟩
    · rw [List.append_nil] at hf
      refine @body_innocent decode bad hd x hbody start [] w _ rest o k hwire.symm ?_ ho hw hkey
      rw [List.append_nil]
      exact hf
    · -- the quotation mark stands before the first object, and so does all that matters
      obtain ⟨rfl, hrest⟩ := List.cons.inj hwire
      obtain ⟨f1, rfl, h1⟩ := string_in_front hd (break_after x hf) hraw hrest.symm
      obtain ⟨f2, rfl, rfl⟩ :=
        white_in_front hd x hv (by decide) (by decide) (by decide) (by decide) h1.symm
      obtain ⟨hname, hsignal⟩ := hfront _ _ k f2 hf ⟨raw, v, rfl, hv, hraw⟩
      refine ⟨hname, fun hk s hs => hsignal hk s ?_⟩
      obtain ⟨w', raw', rest', h2, hw', hraw'⟩ := hs
      obtain ⟨f3, rfl, h3⟩ :=
        white_in_front hd x hw' (by decide) (by decide) (by decide) (by decide) h2
      have hbreak : 10 ∈ f3 := by
        refine @break_after decode x ((start ++ o :: w) ++ 34 :: (raw ++ 34 :: (v ++ 58 :: w'))) f3 ?_
        rw [hf]
        simp
      obtain ⟨f4, rfl, -⟩ := string_in_front hd hbreak hraw' h3.symm
      exact ⟨w', raw', f4, rfl, hw', hraw'⟩

end Cloudx.Local.EventStream

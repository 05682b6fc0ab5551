import Cloudx.Local.EventStream
import Cloudx.Local.Connection

/-! # Model output is not taken for a failure

The observer looks for failure markers in the raw bytes of a successful response, and then for an
error document in the lines of what it has kept of it: any line, also a part of one if the buffer has
been cut. The text of a model may hold whatever the observer looks for. It does so within the strings of
events, where quotation marks are escaped, so that no part of it reads as an object with an error, a
message or a known signal. -/

namespace Cloudx.Local.SilentSuccess

open Cloudx.Lib.Chunks
open Cloudx.Python.Text Cloudx.Python.Value Cloudx.Python.JsonText
open Cloudx.Local.RootCause Cloudx.Local.ApiFailure Cloudx.Local.ResponseObserver
open Cloudx.Local.Segmentation Cloudx.Local.Connection Cloudx.Local.EventStream

/-- What is relied on of the interpreter: bytes are decoded as `Decodes` says, `json.loads` yields only
what its text spells, `casefold` goes character by character on ASCII, and the text of a list begins
with a bracket, that of a dict with a brace and that of a number with a digit or a sign. -/
structure Documented (r : Reader) : Prop where
  decodes : Decodes r.decodeReplace
  loads : ∀ s v, r.loads s = .value v → ∃ t, Spells t s ∧ v = collapse t
  casefold : ∀ c s, c < 128 → r.py.casefold (c :: s) = asciiLower [c] ++ r.py.casefold s
  reprList : ∀ items, ∃ s, r.py.repr (.arr items) = 91 :: s
  reprDict : ∀ fields, ∃ s, r.py.repr (.obj fields) = 123 :: s
  reprFinite : ∀ q, ∃ c s, r.py.repr (.float (.finite q)) = c :: s ∧ ((48 ≤ c ∧ c ≤ 57) ∨ c = 45)
  reprInf : r.py.repr (.float .inf) = lit "inf"
  reprNegInf : r.py.repr (.float .negInf) = lit "-inf"
  reprNan : r.py.repr (.float .nan) = lit "nan"

variable {r : Reader}

/-! ### Signals -/

theorem strip_head {c : ℕ} (hc : isSpace c = false) (s : Str) : ∃ s', strip (c :: s) = c :: s' := by
  have hfirst : (c :: s).dropWhile isSpace = c :: s := List.dropWhile_cons_of_neg (by simp [hc])
  unfold strip
  rw [hfirst, List.reverse_cons, List.dropWhile_append]
  by_cases hnil : (s.reverse.dropWhile isSpace).isEmpty = true
  · rw [if_pos hnil, List.dropWhile_cons_of_neg (by simp [hc])]
    exact ⟨[], rfl⟩
  · rw [if_neg hnil, List.reverse_append]
    exact ⟨_, rfl⟩

/-- A text that begins with no letter is no known signal. -/
theorem normalized_head (hr : Documented r) {v : Json} {c : ℕ} {s : Str}
    (h : r.py.str (pyOrs [v]) = c :: s) (hspace : isSpace c = false) (hascii : c < 128)
    (hcapital : ¬(65 ≤ c ∧ c ≤ 90)) (hsmall : ¬(97 ≤ c ∧ c ≤ 122)) :
    normalized r.py v ∉ knownSignals := by
  obtain ⟨s', hs'⟩ := strip_head hspace s
  have hheads : ∀ signal ∈ knownSignals, signal ≠ [] ∧ 97 ≤ signal.headD 0 ∧ signal.headD 0 ≤ 122 := by
    decide
  have hlower : asciiLower [c] = [c] := by
    unfold asciiLower
    rw [List.map_singleton, if_neg hcapital]
  intro hmem
  unfold normalized Py.text at hmem
  rw [h, hs', hr.casefold c s' hascii, hlower] at hmem
  have hhead := (hheads _ hmem).2
  unfold replace at hhead
  rw [List.singleton_append, replaceFrom] at hhead
  split_ifs at hhead with hdash
  · simp only [List.cons_append, List.headD_cons] at hhead
    omega
  · simp only [List.headD_cons] at hhead
    omega

theorem casefold_exact (r : Reader) {s : Str} (h : ∀ c ∈ s, c < 128) :
    r.py.casefold s = asciiLower s := r.py.casefold_ascii s h

/-- A value that is no text is no known signal. -/
theorem normalized_no_text (hr : Documented r) : ∀ {v : Json}, (∀ s, v ≠ .str s) →
    normalized r.py v ∉ knownSignals := by
  have hfalsy : ∀ v, truthy v = false → normalized r.py v ∉ knownSignals := by
    intro v hv
    have hnil : pyOrs [v] = .str [] := by
      unfold pyOrs pyOr
      rw [hv]
      rfl
    unfold normalized Py.text
    rw [hnil, show strip (r.py.str (.str [])) = [] from rfl, casefold_exact r (by simp)]
    decide
  have hnamed : ∀ {v : Json} {s : Str}, r.py.str (pyOrs [v]) = s → (∀ c ∈ s, c < 128) →
      strip s = s → replace [45] [95] (asciiLower s) ∉ knownSignals →
      normalized r.py v ∉ knownSignals := by
    intro v s hs hascii hstrip hnot
    unfold normalized Py.text
    rw [hs, hstrip, casefold_exact r hascii]
    exact hnot
  have htruthy : ∀ v, truthy v = true → pyOrs [v] = v := by
    intro v hv
    unfold pyOrs pyOr
    rw [if_pos hv]
  have hdigit : ∀ c : ℕ, (48 ≤ c ∧ c ≤ 57) ∨ c = 45 → isSpace c = false := by
    intro c hc
    have hall : ∀ d < 58, ((48 ≤ d ∧ d ≤ 57) ∨ d = 45) → isSpace d = false := by decide
    exact hall c (by omega) hc
  intro v hv
  by_cases ht : truthy v = true
  · have hpy := htruthy v ht
    rcases v with _ | b | n | x | s | items | fields
    · exact absurd ht (by decide)
    · rcases b with _ | _
      · exact absurd ht (by decide)
      · exact @hnamed _ (lit "True") (by rw [hpy]; rfl) (by decide) (by decide) (by decide)
    · obtain ⟨c, s, hs, hc⟩ : ∃ c s, r.py.str (.int n) = c :: s ∧ ((48 ≤ c ∧ c ≤ 57) ∨ c = 45) := by
        show ∃ c s, (if n < 0 then [45] else []) ++ decimal n.natAbs = c :: s ∧ _
        by_cases hn : n < 0
        · exact ⟨45, decimal n.natAbs, by rw [if_pos hn]; rfl, Or.inr rfl⟩
        · obtain ⟨c, s, hs⟩ := List.exists_cons_of_ne_nil (decimal_ne_nil n.natAbs)
          refine ⟨c, s, by rw [if_neg hn]; exact hs, Or.inl (@decimal_digit n.natAbs c ?_)⟩
          rw [hs]
          exact List.mem_cons_self
      exact normalized_head hr ((congrArg r.py.str hpy).trans hs) (hdigit c hc) (by omega) (by omega)
        (by omega)
    · rcases x with q | _ | _ | _
      · obtain ⟨c, s, hs, hc⟩ := hr.reprFinite q
        exact normalized_head hr ((congrArg r.py.str hpy).trans hs) (hdigit c hc) (by omega) (by omega)
          (by omega)
      · exact @hnamed _ (lit "inf") (by rw [hpy]; exact hr.reprInf) (by decide) (by decide) (by decide)
      · exact @hnamed _ (lit "-inf") (by rw [hpy]; exact hr.reprNegInf) (by decide) (by decide)
          (by decide)
      · exact @hnamed _ (lit "nan") (by rw [hpy]; exact hr.reprNan) (by decide) (by decide) (by decide)
    · exact absurd rfl (hv s)
    · obtain ⟨s, hs⟩ := hr.reprList items
      exact @normalized_head r hr (.arr items) 91 s ((congrArg r.py.str hpy).trans hs) (by decide)
        (by decide) (by decide) (by decide)
    · obtain ⟨s, hs⟩ := hr.reprDict fields
      exact @normalized_head r hr (.obj fields) 123 s ((congrArg r.py.str hpy).trans hs) (by decide)
        (by decide) (by decide) (by decide)
  · exact hfalsy v (by simpa using ht)

/-! ### Documents in a part of a stream -/

theorem strip_isInfix (s : Str) : strip s <:+: s := by
  unfold strip
  have hsuffix : (s.dropWhile isSpace).reverse.dropWhile isSpace <:+ (s.dropWhile isSpace).reverse :=
    List.dropWhile_suffix _
  have hprefix := List.reverse_prefix.mpr hsuffix
  rw [List.reverse_reverse] at hprefix
  exact hprefix.isInfix.trans (List.dropWhile_suffix _).isInfix

theorem splitLinesFrom_infix : ∀ (s line : Str), ∀ t ∈ splitLinesFrom line s,
    t <:+: line.reverse ++ s
  | [], line, t, ht => by
    rw [splitLinesFrom] at ht
    split_ifs at ht
    · exact absurd ht (by simp)
    · rw [List.mem_singleton.mp ht, List.append_nil]
  | c :: s, line, t, ht => by
    have hhead : ∀ {u : Str}, line.reverse <:+: line.reverse ++ u :=
      (List.prefix_append _ _).isInfix
    have hcons : t ∈ splitLinesFrom (c :: line) s → t <:+: line.reverse ++ c :: s := by
      intro h
      have := splitLinesFrom_infix s (c :: line) t h
      rw [List.reverse_cons, List.append_assoc] at this
      exact this
    have hafter : ∀ {u : Str}, t ∈ splitLinesFrom [] s → s <:+ u → t <:+: line.reverse ++ u := by
      intro u h hs
      have := splitLinesFrom_infix s [] t h
      rw [List.reverse_nil, List.nil_append] at this
      exact (this.trans hs.isInfix).trans (List.suffix_append _ _).isInfix
    rcases s with _ | ⟨d, s⟩
    · rw [splitLinesFrom.eq_3 _ _ _ (fun _ _ h => absurd h (by simp))] at ht
      split_ifs at ht
      · rcases List.mem_cons.mp ht with rfl | ht
        · exact hhead
        · exact hafter ht (List.suffix_cons _ _)
      · exact hcons ht
    · by_cases hcrlf : c = 13 ∧ d = 10
      · obtain ⟨rfl, rfl⟩ := hcrlf
        rw [splitLinesFrom] at ht
        rcases List.mem_cons.mp ht with rfl | ht
        · exact hhead
        · have := splitLinesFrom_infix s [] t ht
          rw [List.reverse_nil, List.nil_append] at this
          exact (this.trans ((List.suffix_cons 10 s).trans (List.suffix_cons 13 _)).isInfix).trans
            (List.suffix_append _ _).isInfix
      · rw [splitLinesFrom.eq_3 _ _ _ (fun _ h13 h10 =>
          hcrlf ⟨h13, (List.cons.inj h10).1⟩)] at ht
        split_ifs at ht
        · rcases List.mem_cons.mp ht with rfl | ht
          · exact hhead
          · exact hafter ht (List.suffix_cons _ _)
        · exact hcons ht

/-- **What is tried as a document stands in the text.** -/
theorem candidates_infix {text candidate : Str} (h : candidate ∈ candidates text) :
    candidate <:+: text := by
  have hdata : ∀ s : Str, strip (s.drop 5) <:+: s := fun s =>
    (strip_isInfix _).trans (List.drop_suffix 5 s).isInfix
  unfold candidates at h
  rcases List.mem_append.mp h with h | h
  · split_ifs at h
    · rw [List.mem_singleton.mp h]
      exact (hdata _).trans (strip_isInfix text)
    · exact absurd h (by simp)
  · rcases List.mem_cons.mp h with rfl | h
    · exact strip_isInfix text
    · obtain ⟨line, hline, hcandidate⟩ := List.mem_filterMap.mp h
      have hin : line <:+: text := by
        have := splitLinesFrom_infix text [] line (List.mem_reverse.mp hline)
        simpa using this
      unfold lineCandidate at hcandidate
      dsimp only at hcandidate
      split_ifs at hcandidate
      obtain rfl := Option.some.inj hcandidate
      unfold withoutData
      split_ifs
      · exact ((hdata _).trans (strip_isInfix line)).trans hin
      · exact (strip_isInfix line).trans hin

/-- A text that reads as a known signal. -/
def ReadsAsSignal (py : Py) (s : Str) : Prop := normalized py (.str s) ∈ knownSignals

/-- The members of a stream's objects tell of no failure, nor does what is quoted before the first. -/
structure Harmless (r : Reader) (x : Stream r.decodeReplace) : Prop where
  body : ∀ fields ∈ x.objects, Everywhere (Innocent (ReadsAsSignal r.py)) (.obj fields)
  front : ∀ a s k rest, x.front = a ++ s → KeyAt r.decodeReplace k rest s →
    InnocentAt r.decodeReplace (ReadsAsSignal r.py) k rest

variable {x : Stream r.decodeReplace}

/-- **A member of an object in a part of the stream is innocent**, also if the object itself is not
one of the stream's: one that begins within a string, say. -/
theorem part_innocent (hr : Documented r) (hx : Harmless r x) {part : Bytes} (hpart : part <:+: x.bytes)
    {tokens : List Token} {pre post : Str} {a b : List Lexeme} {o : ℕ} {k : Str} {v : Json}
    (hok : ∀ t ∈ tokens, t.Ok) (htext : r.decodeReplace part = pre ++ (textOf tokens ++ post))
    (ho : o = 123 ∨ o = 44)
    (hlexemes : lexemesOf tokens = a ++ .mark o :: .string k :: .mark 58 :: (lexemes v ++ b)) :
    Innocent (ReadsAsSignal r.py) k v := by
  obtain ⟨p, w, raw, w', q, hkey, hw, hw', hraw, hstring⟩ := key_in_text hok hlexemes
  rw [hkey] at htext
  -- the text is parted at its ASCII characters, and the bytes with it
  have hbyte : ∃ c : UInt8, c < 128 ∧ c.toNat = o ∧ (c = 123 ∨ c = 44) := by
    rcases ho with rfl | rfl
    · exact ⟨123, by decide, rfl, Or.inl rfl⟩
    · exact ⟨44, by decide, rfl, Or.inr rfl⟩
  obtain ⟨c, hascii, hc, hcase⟩ := hbyte
  obtain ⟨X, Y, rfl, -, hY⟩ := @decode_split r.decodeReplace hr.decodes part (pre ++ p)
    (w ++ 34 :: (raw ++ 34 :: (w' ++ 58 :: (q ++ post)))) c hascii (by rw [htext, hc]; simp)
  obtain ⟨W, Z, rfl, hW, hZ⟩ := white_split hr.decodes hw hY
  obtain ⟨E, Z1, rfl, hE, hZ1⟩ := @decode_split r.decodeReplace hr.decodes Z []
    (raw ++ 34 :: (w' ++ 58 :: (q ++ post))) 34 (by decide) hZ
  obtain rfl := (hr.decodes.empty E).mp hE
  obtain ⟨RAW, Z2, rfl, hRAW, hZ2⟩ := @decode_split r.decodeReplace hr.decodes Z1 raw
    (w' ++ 58 :: (q ++ post)) 34 (by decide) hZ1
  obtain ⟨W', Z3, rfl, hW', hZ3⟩ := white_split hr.decodes hw' hZ2
  obtain ⟨E, REST, rfl, hE, hREST⟩ := @decode_split r.decodeReplace hr.decodes Z3 [] (q ++ post) 58
    (by decide) hZ3
  obtain rfl := (hr.decodes.empty E).mp hE
  obtain ⟨front, back, hbytes⟩ := hpart
  have hinnocent := @stream_innocent r.decodeReplace (ReadsAsSignal r.py) hr.decodes x hx.body hx.front
    (front ++ X) W (34 :: (RAW ++ 34 :: (W' ++ 58 :: (REST ++ back)))) (REST ++ back) c k
    (by rw [← hbytes]; simp) hcase hW ⟨RAW, W', rfl, hW', by rw [hRAW]; exact hraw⟩
  refine ⟨hinnocent.1, fun hk s hs => hinnocent.2 hk s ?_⟩
  subst hs
  obtain ⟨w3, raw3, rest3, rfl, hw3, hraw3⟩ := hstring s b rfl
  obtain ⟨W3, Z4, rfl, hW3, hZ4⟩ := @white_split r.decodeReplace hr.decodes w3
    (34 :: (raw3 ++ 34 :: (rest3 ++ post))) REST hw3 (by rw [hREST]; simp)
  obtain ⟨E, Z5, rfl, hE, hZ5⟩ := @decode_split r.decodeReplace hr.decodes Z4 []
    (raw3 ++ 34 :: (rest3 ++ post)) 34 (by decide) hZ4
  obtain rfl := (hr.decodes.empty E).mp hE
  obtain ⟨RAW3, Z6, rfl, hRAW3, -⟩ := @decode_split r.decodeReplace hr.decodes Z5 raw3 (rest3 ++ post) 34
    (by decide) hZ5
  exact ⟨W3, RAW3, Z6 ++ back, by simp, hW3, by rw [hRAW3]; exact hraw3⟩

/-- What a decoded document says under the keys that matter. -/
structure NoFailure (py : Py) (d : Dict) : Prop where
  missing : ∀ k ∈ failureKeys, get d k = .null
  signals : ∀ k ∈ signalKeys, normalized py (get d k) ∉ knownSignals
  fields : errorFields d = d

/-- **A document in a part of the stream tells of no failure.** -/
theorem document_harmless (hr : Documented r) (hx : Harmless r x) {part : Bytes}
    (hpart : part <:+: x.bytes) {d : Dict}
    (h : errorDocument r (r.decodeReplace part) = .ok d) : NoFailure r.py d := by
  have hfirst : ∀ {cs : List Str}, firstObject r cs = .ok d →
      d = [] ∨ ∃ c ∈ cs, r.loads c = .value (.obj d) := by
    intro cs
    induction cs with
    | nil => exact fun h => Or.inl (Except.ok.inj h).symm
    | cons c cs ih =>
      intro h
      have hlater : firstObject r cs = .ok d → d = [] ∨ ∃ c' ∈ c :: cs, r.loads c' = .value (.obj d) :=
        fun h => (ih h).imp id fun ⟨c', hc', hl⟩ => ⟨c', List.mem_cons_of_mem _ hc', hl⟩
      rw [firstObject] at h
      split at h
      · next d' hload =>
        obtain rfl := Except.ok.inj h
        exact Or.inr ⟨c, List.mem_cons_self, hload⟩
      · exact hlater h
      · exact hlater h
      · exact absurd h (by simp)
      · exact absurd h (by simp)
  rcases hfirst h with rfl | ⟨c, hc, hload⟩
  · refine ⟨fun k _ => rfl, fun k _ => ?_, rfl⟩
    exact normalized_no_text hr (by simp)
  · obtain ⟨pre, post, htext⟩ := candidates_infix hc
    obtain ⟨t, ⟨tokens, hok, hlexemes, rfl⟩, hcollapse⟩ := hr.loads c _ hload
    obtain ⟨fields, rfl, rfl⟩ := collapse_obj hcollapse.symm
    rw [List.append_assoc] at htext
    have hmember : ∀ {k : Str} {v : Json}, (k, v) ∈ fields → Innocent (ReadsAsSignal r.py) k v := by
      intro k v hmem
      obtain ⟨a, o, b, ho, hab⟩ := member_lexemes hmem
      exact part_innocent hr hx hpart hok htext.symm ho (hlexemes.trans hab)
    have hmissing : ∀ k ∈ failureKeys, get (dictOf (collapseFields fields)) k = .null := by
      intro k hk
      by_contra hnull
      obtain ⟨v, hv, -⟩ := written_of_get rfl hnull
      exact (hmember hv).1 hk
    refine ⟨hmissing, fun k hk => ?_, ?_⟩
    · rcases hvalue : get (dictOf (collapseFields fields)) k with _ | b | n | y | s | items | fs
      case str =>
        obtain ⟨v, hv, hs⟩ := written_of_get hvalue (by simp)
        exact (hmember hv).2 hk s (collapse_str hs.symm)
      all_goals exact normalized_no_text hr (by simp)
    · have herror : get (dictOf (collapseFields fields)) (lit "error") = .null :=
        hmissing _ List.mem_cons_self
      unfold errorFields
      rw [herror]
      dsimp only
      rcases hresponse : get (dictOf (collapseFields fields)) (lit "response") with
        _ | b | n | y | s | items | response
      case obj =>
        -- an error within a response would be written there too
        obtain ⟨v, hv, hobj⟩ := written_of_get hresponse (by simp)
        obtain ⟨inner, rfl, rfl⟩ := collapse_obj hobj.symm
        have hinner : get (dictOf (collapseFields inner)) (lit "error") = .null := by
          by_contra hnull
          obtain ⟨v', hv', -⟩ := written_of_get rfl hnull
          obtain ⟨a, o, b, -, hab⟩ := member_lexemes hv
          obtain ⟨a', o', b', ho', hab'⟩ := member_lexemes hv'
          have hsplit : lexemesOf tokens = (a ++ .mark o :: .string (lit "response") :: .mark 58 :: a') ++
              .mark o' :: .string (lit "error") :: .mark 58 :: (lexemes v' ++ (b' ++ b)) := by
            rw [hlexemes, hab, hab']
            simp
          exact (part_innocent hr hx hpart hok htext.symm ho' hsplit).1 List.mem_cons_self
        dsimp only
        rw [hinner]
      all_goals rfl

/-- **A part of the stream is not classified as a failure.** -/
theorem classify_harmless (hr : Documented r) (hx : Harmless r x) {part : Bytes}
    (hpart : part <:+: x.bytes) {status : Option ℤ} (hstatus : ∀ code, status = some code → code < 400)
    {now : ℚ} {failure : Observation} (h : classify r status part now = .ok failure) :
    failure.cause = causeUnknown := by
  have hlast : lastBytes maxErrorBytes part <:+: x.bytes :=
    (List.drop_suffix _ part).isInfix.trans hpart
  unfold classify at h
  dsimp only at h
  rcases hdocument : errorDocument r (r.decodeReplace (lastBytes maxErrorBytes part)) with e | d
  · rw [hdocument] at h
    exact absurd h (by simp)
  · have hd := document_harmless hr hx hlast hdocument
    have hmessage : get d (lit "message") = .null := hd.missing _ (by decide)
    have hnil : r.py.casefold (r.py.text [.null, .null]) = [] := by
      rw [show r.py.text [.null, .null] = [] from rfl, casefold_exact r (by simp)]
      rfl
    have hsearch : status.any (400 ≤ ·) = false := by
      rcases status with _ | code
      · rfl
      · have := hstatus code rfl
        simpa using this
    have hsignal : normalizedSignal r.py d = signalOther := by
      unfold normalizedSignal
      rw [firstSignal, if_neg (hd.signals _ (by decide)), firstSignal, if_neg (hd.signals _ (by decide)),
        firstSignal, if_neg (hd.signals _ (by decide)), firstSignal]
    rw [hdocument] at h
    dsimp only at h
    rw [hd.fields, hmessage, hnil, hsignal, hsearch, if_neg (fun hne => hne rfl),
      if_neg Bool.false_ne_true] at h
    rcases hretry : retryAt r d now with e | time
    · rw [hretry] at h
      exact absurd h (by simp)
    · have hcause : causeOf status signalOther [] [] = (causeUnknown, false, signalNone) := by
        have htests : tests.find? (fun t => t.applies signalOther [] []) = none := by decide
        have hcodes : status ≠ some 401 ∧ status ≠ some 403 ∧ status ≠ some 429 ∧
            status.any (500 ≤ ·) = false := by
          refine ⟨fun h => ?_, fun h => ?_, fun h => ?_, ?_⟩
          · have := hstatus _ h; omega
          · have := hstatus _ h; omega
          · have := hstatus _ h; omega
          · rcases status with _ | code
            · rfl
            · have := hstatus code rfl
              simp only [Option.any_some, decide_eq_false_iff_not]
              omega
        unfold causeOf
        rw [htests]
        unfold statusCause
        rw [if_neg hcodes.1, if_neg hcodes.2.1, if_neg hcodes.2.2.1, hcodes.2.2.2,
          if_neg Bool.false_ne_true, if_pos rfl]
      rw [hretry, hcause] at h
      rw [← Except.ok.inj h]

/-! ### The observer -/

/-- The observations that the calls of `feed` and the `close` after them pass on, whether or not a
call before has raised an exception. -/
def passed (r : Reader) : Observer → List (Bytes × ℚ) → ℚ → List Observation
  | o, [], last => match (o.close r last).2 with
    | .ok seen => seen.toList
    | .error _ => []
  | o, (data, now) :: pieces, last => match o.feed r data now with
    | (fed, .ok seen) => seen.toList ++ passed r fed pieces last
    | (fed, .error _) => passed r fed pieces last

/-- No text of a status line stands where the buffer begins once it has been cut. -/
def CutsClean (stream : Bytes) : Prop :=
  ∀ i, 0 < i → i + maxErrorBytes ≤ stream.length →
    statusLine ((stream.drop i).take maxErrorBytes) = none

/-- The observer has been fed a part of the stream. -/
structure Fed (code : ℤ) (part : Bytes) (o : Observer) : Prop where
  buffer : o.buffer = lastBytes maxErrorBytes part
  total : o.totalBytes = part.length
  status : o.statusCode = none ∨ o.statusCode = some code

theorem statusesFrom_suffix : ∀ (a b : Bytes) {pos : ℕ}, statusesFrom pos (a ++ b) = [] →
    statusesFrom 0 b = []
  | [], b, pos, h => by
    rw [List.nil_append, statusesFrom_eq_map, List.map_eq_nil_iff] at h
    exact h
  | c :: a, b, pos, h => by
    rw [List.cons_append, statusesFrom, List.append_eq_nil_iff] at h
    exact statusesFrom_suffix a b h.2

/-- **What the buffer shows of status lines**: the first one, at its start, or none. -/
theorem statuses_buffer {stream part : Bytes} {code : ℤ} (hstatus : statusLine stream = some code)
    (hone : OneStatus stream) (hcut : CutsClean stream) (hpart : part <+: stream) :
    statuses (lastBytes maxErrorBytes part) = [] ∨
      part.length ≤ maxErrorBytes ∧ statuses (lastBytes maxErrorBytes part) = [(0, code)] := by
  have hnone : statusesFrom 0 (lastBytes maxErrorBytes part) = [] := by
    obtain ⟨a, ha⟩ : lastBytes maxErrorBytes part <:+ part := List.drop_suffix _ part
    refine @statusesFrom_suffix a _ 0 ?_
    rw [ha]
    exact hone part hpart
  unfold statuses
  rw [hnone, List.append_nil]
  by_cases hlen : part.length ≤ maxErrorBytes
  · rw [lastBytes_eq, lastN_of_le hlen]
    rcases (statusLine_part hstatus hpart).1 with h | ⟨h, -⟩
    · rw [h]
      exact Or.inr ⟨hlen, rfl⟩
    · rw [h]
      exact Or.inl rfl
  · left
    have hcutpart : lastBytes maxErrorBytes part =
        (stream.drop (part.length - maxErrorBytes)).take maxErrorBytes := by
      obtain ⟨rest, rfl⟩ := hpart
      have hsize : (part.drop (part.length - maxErrorBytes)).length = maxErrorBytes := by
        rw [List.length_drop]
        omega
      rw [List.drop_append_of_le_length (by omega)]
      exact (List.take_left' hsize).symm
    rw [hcutpart, hcut _ (by omega) (by
      have := hpart.length_le
      omega)]
    rfl

theorem noteStatus_fed {code : ℤ} {part : Bytes} {o : Observer} (h : Fed code part o) (now : ℚ)
    (hstart : o.bufferStart = part.length - o.buffer.length)
    (hstatuses : statuses o.buffer = [] ∨
      part.length ≤ maxErrorBytes ∧ statuses o.buffer = [(0, code)]) :
    Fed code part (o.noteStatus now) := by
  unfold Observer.noteStatus
  rcases hstatuses with hnone | ⟨hlen, hone⟩
  · rw [hnone]
    exact h
  · have hzero : o.bufferStart = 0 := by
      have hbuffer := h.buffer
      rw [lastBytes_eq, lastN_of_le hlen] at hbuffer
      rw [hstart, hbuffer, Nat.sub_self]
    rw [hone]
    dsimp only [List.getLast?_singleton]
    split_ifs with hnew hold
    · rw [hzero] at hnew
      simp only [Nat.cast_zero, zero_add] at hnew
      omega
    · exact ⟨h.buffer, h.total, Or.inr rfl⟩
    · exact ⟨h.buffer, h.total, Or.inr rfl⟩

/-- **Another piece.** -/
theorem absorb_fed {stream part data : Bytes} {code : ℤ} {o : Observer} (now : ℚ)
    (hstatus : statusLine stream = some code) (hone : OneStatus stream) (hcut : CutsClean stream)
    (h : Fed code part o) (hpart : part ++ data <+: stream) :
    Fed code (part ++ data) (o.absorb data now) := by
  have hbuffer : lastBytes maxErrorBytes (o.buffer ++ data) = lastBytes maxErrorBytes (part ++ data) := by
    rw [h.buffer, lastBytes_eq, lastBytes_eq, lastBytes_eq]
    exact lastN_append _ part data
  have htotal : o.totalBytes + data.length = (part ++ data).length := by
    rw [h.total, List.length_append]
  obtain ⟨hextend, hstart⟩ : Fed code (part ++ data) (o.extend data) ∧
      (o.extend data).bufferStart = (part ++ data).length - (o.extend data).buffer.length := by
    unfold Observer.extend
    rw [hbuffer, htotal]
    dsimp only
    exact ⟨Fed.mk (by dsimp only) (by dsimp only) h.status, by dsimp only⟩
  have hnoted := noteStatus_fed hextend now hstart (by
    rw [hextend.buffer]
    exact statuses_buffer hstatus hone hcut hpart)
  obtain ⟨h1, h2, -, h4, -⟩ := noteMarkers_fields ((o.extend data).noteStatus now) data now
  exact ⟨h1.trans hnoted.buffer, h2.trans hnoted.total, by
    unfold Observer.absorb
    rw [h4]
    exact hnoted.status⟩

/-- An emission on a harmless buffer passes nothing on. -/
theorem emit_fed (hr : Documented r) (hx : Harmless r x) {code : ℤ} (hcode : code < 400) {part : Bytes}
    {o : Observer} (h : Fed code part o) (hpart : part <+: x.bytes) (force : Bool) (now : ℚ) :
    Fed code part (o.emit r force now).1 ∧ ∀ seen, (o.emit r force now).2 ≠ .ok (some seen) := by
  have hbuffer : o.buffer <:+: x.bytes := by
    rw [h.buffer]
    exact (List.drop_suffix _ part).isInfix.trans hpart.isInfix
  have hstatus : ∀ c, o.statusCode = some c → c < 400 := by
    intro c hc
    rcases h.status with hnone | hsome
    · exact absurd (hnone.symm.trans hc) (by simp)
    · rw [← Option.some.inj (hsome.symm.trans hc)]
      exact hcode
  unfold Observer.emit
  dsimp only
  rcases hclassify : classify r o.statusCode o.buffer (o.responseObservedAt.getD now) with e | failure
  · exact ⟨⟨h.buffer, h.total, h.status⟩, fun seen hseen => absurd hseen (by simp)⟩
  · dsimp only
    rw [if_pos (classify_harmless hr hx hbuffer hstatus hclassify)]
    exact ⟨⟨h.buffer, h.total, h.status⟩, fun seen hseen => absurd hseen (by simp)⟩

/-- **Model output is never taken for a failure.** A successful response whose events tell of none is
observed in silence, however it is divided and cut. -/
theorem success_silent (hr : Documented r) (hx : Harmless r x) {code : ℤ}
    (hstatus : statusLine x.bytes = some code) (hcode : code < 400) (hone : OneStatus x.bytes)
    (hcut : CutsClean x.bytes) (pieces : List (Bytes × ℚ)) (last : ℚ)
    (hpieces : (pieces.map Prod.fst).flatten <+: x.bytes) :
    passed r newObserver pieces last = [] := by
  have hrun : ∀ (pieces : List (Bytes × ℚ)) (part : Bytes) (o : Observer), Fed code part o →
      part ++ (pieces.map Prod.fst).flatten <+: x.bytes → passed r o pieces last = [] := by
    intro pieces
    induction pieces with
    | nil =>
      intro part o h hpart
      rw [List.map_nil, List.flatten_nil, List.append_nil] at hpart
      obtain ⟨-, hsilent⟩ := emit_fed hr hx hcode h hpart true last
      rw [passed, Observer.close]
      rcases hresult : (o.emit r true last).2 with e | seen
      · rfl
      · rcases seen with _ | seen
        · rfl
        · exact absurd hresult (hsilent seen)
    | cons piece pieces ih =>
      obtain ⟨data, now⟩ := piece
      intro part o h hpart
      rw [List.map_cons, List.flatten_cons, ← List.append_assoc] at hpart
      have hbefore : part ++ data <+: x.bytes := (List.prefix_append _ _).trans hpart
      have hfed : Fed code (part ++ data) (o.feed r data now).1 ∧
          ∀ seen, (o.feed r data now).2 ≠ .ok (some seen) := by
        by_cases hnil : data = []
        · rw [show o.feed r data now = (o, .ok none) by rw [Observer.feed, if_pos hnil], hnil,
            List.append_nil]
          exact ⟨h, fun seen hseen => absurd hseen (by simp)⟩
        · have habsorbed := absorb_fed now hstatus hone hcut h hbefore
          by_cases hmay : (o.absorb data now).mayContainFailure = true
          · have hfeed : o.feed r data now = (o.absorb data now).emit r false now := by
              rw [Observer.feed, if_neg hnil]
              exact if_pos hmay
            rw [hfeed]
            exact emit_fed hr hx hcode habsorbed hbefore false now
          · have hfeed : o.feed r data now = (o.absorb data now, .ok none) := by
              rw [Observer.feed, if_neg hnil]
              exact if_neg hmay
            rw [hfeed]
            dsimp only
            exact ⟨habsorbed, fun seen hseen => absurd hseen (by simp)⟩
      have hrest := ih (part ++ data) (o.feed r data now).1 hfed.1 hpart
      rw [passed]
      rcases hresult : o.feed r data now with ⟨fed, e | seen⟩
      · rw [hresult] at hrest
        exact hrest
      · rw [hresult] at hrest hfed
        rcases seen with _ | seen
        · exact hrest
        · exact absurd rfl (hfed.2 seen)
  exact hrun pieces [] newObserver ⟨rfl, rfl, Or.inl rfl⟩ hpieces

/-! ### Two streams -/

/-- `str(value)` of what is neither a text, a number of the integers nor a name, by its kind. -/
def kindText : Json → Str
  | .arr _ => lit "[]"
  | .obj _ => lit "\x7b\x7d"
  | .float (.finite _) => lit "0.5"
  | .float .inf => lit "inf"
  | .float .negInf => lit "-inf"
  | .float .nan => lit "nan"
  | _ => []

/-- A reader of ASCII text that knows one document. -/
def knowing (text : Str) (value : Json) : Reader where
  py := { Python.Dump.tablePy [] [] [] with repr := kindText }
  decodeReplace raw := raw.map UInt8.toNat
  loads s := if s = text then .value value else .jsonError
  timedelta _ := none

theorem documented_knowing {text : Str} {v : Json} (h : Spells v text) :
    Documented (knowing text (collapse v)) where
  decodes := {
    empty := fun _ => List.map_eq_nil_iff
    ascii := fun a b c _ => by
      show (a ++ b :: c).map UInt8.toNat = _
      rw [List.map_append, List.map_cons]
      rfl
    other := fun a ha c hc => by
      obtain ⟨b, hb, rfl⟩ := List.mem_map.mp hc
      exact UInt8.le_iff_toNat_le.mp (ha b hb) }
  loads := fun s value hload => by
    change (if s = text then Loaded.value (collapse v) else .jsonError) = .value value at hload
    split_ifs at hload with hs
    rw [hs]
    exact ⟨v, h, (Loaded.value.inj hload).symm⟩
  casefold := fun c s _ => by
    show asciiLower (c :: s) = asciiLower [c] ++ asciiLower s
    rfl
  reprList := fun _ => ⟨[93], rfl⟩
  reprDict := fun _ => ⟨[125], rfl⟩
  reprFinite := fun _ => ⟨48, [46, 53], rfl, Or.inl (by decide)⟩
  reprInf := rfl
  reprNegInf := rfl
  reprNan := rfl

theorem chunked_self : ∀ payload : Bytes, Chunked payload payload
  | [] => .nil
  | b :: payload => .byte b (chunked_self payload)

/-- An event whose only member is a string. -/
def eventText (key value : String) : Str :=
  123 :: 34 :: (lit key ++ 34 :: 58 :: 34 :: (lit value ++ [34, 125]))

theorem spells_event {key value : String} (hkey : unescape (lit key) = some (lit key))
    (hvalue : unescape (lit value) = some (lit value)) :
    Spells (.obj [(lit key, .str (lit value))]) (eventText key value) := by
  refine ⟨[.mark 123, .string (lit key) (lit key), .mark 58, .string (lit value) (lit value),
    .mark 125], ?_, rfl, ?_⟩
  · intro t ht
    simp only [List.mem_cons, List.not_mem_nil, or_false] at ht
    rcases ht with rfl | rfl | rfl | rfl | rfl
    · exact (by decide : 123 ∈ marks)
    · exact hkey
    · exact (by decide : 58 ∈ marks)
    · exact hvalue
    · exact (by decide : 125 ∈ marks)
  · simp [textOf, Token.text, eventText]

/-- The stream of that response. -/
def eventStream (key value : String) (hkey : unescape (lit key) = some (lit key))
    (hvalue : unescape (lit value) = some (lit value))
    (hascii : ((eventText key value).map UInt8.ofNat).map UInt8.toNat = eventText key value)
    (known : Json) : Stream (knowing (eventText key value) known).decodeReplace where
  head := ascii "HTTP/1.1 200 OK"
  lead := []
  payload := (eventText key value).map UInt8.ofNat
  wire := (eventText key value).map UInt8.ofNat
  objects := [[(lit key, .str (lit value))]]
  lead_quote := by simp
  chunked := chunked_self _
  body := by
    show Sequence _ (((eventText key value).map UInt8.ofNat).map UInt8.toNat)
    rw [hascii, ← List.append_nil (eventText key value)]
    exact .cons (spells_event hkey hvalue) (Or.inl rfl) .nil

/-- The event of a model that speaks of a usage limit. -/
def limitStream : Stream (knowing (eventText "delta" "usage_limit_reached")
    (.obj [(lit "delta", .str (lit "usage_limit_reached"))])).decodeReplace :=
  eventStream "delta" "usage_limit_reached" (by decide) (by decide) (by decide) _

theorem success_silent_limit :
    passed (knowing (eventText "delta" "usage_limit_reached")
        (.obj [(lit "delta", .str (lit "usage_limit_reached"))]))
      newObserver [(limitStream.bytes, 0)] 0 = [] := by
  have hparts : ∀ part ∈ limitStream.bytes.inits, statusesFrom 0 part = [] := by decide +kernel
  have hlen : limitStream.bytes.length ≤ 100 := by decide +kernel
  have hmax : maxErrorBytes = 262144 := rfl
  refine success_silent (documented_knowing (spells_event (by decide) (by decide))) ⟨?_, ?_⟩
    (by decide +kernel : statusLine limitStream.bytes = some 200) (by decide)
    (fun part hpart => hparts part ((List.mem_inits _ _).mpr hpart)) ?_ [(limitStream.bytes, 0)] 0 ?_
  · intro fields hfields
    obtain rfl := List.mem_singleton.mp hfields
    exact ⟨⟨by decide, fun hk => absurd hk (by decide)⟩, trivial, trivial⟩
  · rintro a s k rest hfront ⟨raw, w, rfl, -, -⟩
    have hquote : 34 ∉ limitStream.front := by decide +kernel
    exact absurd ((congrArg (34 ∈ ·) hfront).mpr (by simp)) hquote
  · intro i _ hi
    have hle : i + maxErrorBytes ≤ 100 := le_trans hi hlen
    omega
  · rw [List.map_singleton, List.flatten_singleton]
    exact List.prefix_rfl

/-- The event of a response whose type is a known signal but for its capital letter. -/
def forbiddenStream : Stream (knowing (eventText "type" "Forbidden")
    (.obj [(lit "type", .str (lit "Forbidden"))])).decodeReplace :=
  eventStream "type" "Forbidden" (by decide) (by decide) (by decide) _

/-- Signals are compared after normalisation: an event whose type is no known signal as it is written
may still be taken for a failure. -/
theorem normalized_type_observed :
    ¬ ∀ (r : Reader) (x : Stream r.decodeReplace) (code : ℤ), Documented r →
      statusLine x.bytes = some code → code < 400 → OneStatus x.bytes →
      (∀ fields ∈ x.objects, Everywhere (Innocent (· ∈ knownSignals)) (.obj fields)) →
      ∀ (pieces : List (Bytes × ℚ)) (last : ℚ), (pieces.map Prod.fst).flatten = x.bytes →
        passed r newObserver pieces last = [] := by
  intro h
  have hparts : ∀ part ∈ forbiddenStream.bytes.inits, statusesFrom 0 part = [] := by decide +kernel
  have hsilent := h _ forbiddenStream 200
    (documented_knowing (spells_event (by decide) (by decide))) (by decide +kernel) (by decide)
    (fun part hpart => hparts part ((List.mem_inits _ _).mpr hpart)) (fun fields hfields => by
      obtain rfl := List.mem_singleton.mp hfields
      exact ⟨⟨by decide, fun _ s hs => by
        rw [← Json.str.inj hs]
        decide⟩, trivial, trivial⟩)
    [(forbiddenStream.bytes, 0)] 0 (by simp)
  have hobserved : passed (knowing (eventText "type" "Forbidden")
      (.obj [(lit "type", .str (lit "Forbidden"))])) newObserver [(forbiddenStream.bytes, 0)] 0 ≠ [] := by
    decide +kernel
  exact hobserved hsilent

end Cloudx.Local.SilentSuccess

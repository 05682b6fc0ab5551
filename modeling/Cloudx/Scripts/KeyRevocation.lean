import Cloudx.Lib.Checks
import Cloudx.Python.Lines
import Cloudx.Python.Reread
import Cloudx.Scripts.GatewayKeys

/-! # Taking a key out of the list

`revoke_scoped_gateway_key.py` takes the one key with a digest out of the block that
`install_scoped_gateway_key.py` reads and extends. The three loops agree on the block: the lines after
its header up to the first that starts in the first column and is neither blank nor a comment
(`Layout`). Lines are cut again after an edit; that leaves the keys as they are (`listed_solid`). -/

namespace Cloudx.Scripts.KeyRevocation

open Cloudx.Lib.Checks
open Cloudx.Python.Text Cloudx.Python.Value Cloudx.Python.Dump Cloudx.Python.Decode
open Cloudx.Python.Compact Cloudx.Python.Reread Cloudx.Python.Lines Cloudx.Scripts.GatewayKeys

/-! ### Removing -/

/-- The keys with a digest; `key.encode("utf-8")` raises for a lone surrogate. -/
def matching (py : Py) (digest : Str) : List Str → Except PyError (List Str)
  | [] => .ok []
  | key :: keys =>
    if encodable key then do
      let found ← matching py digest keys
      return if py.sha256 (utf8 key) = digest then key :: found else found
    else .error .value

/-- The loop of `remove_api_key_by_digest`: how many lines it leaves out, and the others. -/
def removeLoop (py : Py) (start : ℕ) (target : Str) (index : ℕ) (inKeys : Bool) :
    List Str → Except PyError (ℕ × List Str)
  | [] => .ok (0, [])
  | line :: rest =>
    if index = start then do
      let (removed, output) ← removeLoop py start target (index + 1) true rest
      return (removed, line :: output)
    else
      let stripped := strip line
      let inKeys := inKeys && !endsBlock line
      if inKeys && startsWith stripped (lit "-") then do
        let value ← parseApiKeyScalar py (strip (stripped.drop 1))
        let (removed, output) ← removeLoop py start target (index + 1) inKeys rest
        return if value = target then (removed + 1, output) else (removed, line :: output)
      else do
        let (removed, output) ← removeLoop py start target (index + 1) inKeys rest
        return (removed, line :: output)

/-- `remove_api_key_by_digest` -/
def removeApiKeyByDigest (py : Py) (original : Bytes) (digest : Str) :
    Except PyError (Bytes × Str × ℕ) := do
  let keys ← apiKeys py original
  let found ← matching py digest keys
  match found, decodeUtf8 original with
  | [target], some text => do
    let lines := splitlines true text
    let (removed, output) ← removeLoop py ((keyStarts lines).headD 0) target 0 false lines
    if removed ≠ 1 then
      .error (runtimeError "previous credential line was not removed exactly once")
    else
      let updated := utf8 output.flatten
      let left ← apiKeys py updated
      if left ≠ keys.erase target then
        .error (runtimeError "revocation changed an unrelated gateway key")
      else return (updated, target, keys.length)
  | [_], none => .error .value
  | _, _ =>
    .error (runtimeError "previous credential digest does not match exactly one gateway key")

/-! ### The block -/

/-- The line starts with `api-keys:`. -/
abbrev opens (line : Str) : Bool := startsWith line (lit "api-keys:")

/-- The parts of the lines: those before the list, its header, those of the list and those after. -/
structure Layout (lines before : List Str) (header : Str) (entries after : List Str) : Prop where
  parts : lines = before ++ header :: (entries ++ after)
  opened : opens header = true
  alone : strip header = lit "api-keys:"
  only : ∀ line ∈ before ++ (entries ++ after), opens line = false
  inside : ∀ line ∈ entries, endsBlock line = false
  ended : ∀ line ∈ after.head?, endsBlock line = true

theorem keyStarts_cons (line : Str) (lines : List Str) : keyStarts (line :: lines) =
    (if opens line then [0] else []) ++ (keyStarts lines).map (· + 1) := by
  unfold keyStarts
  rw [List.length_cons, List.range_succ_eq_map, List.filter_cons, List.filter_map]
  show (if opens line = true then _ else _) = _
  split_ifs <;> rfl

theorem keyStarts_nil_iff : ∀ {lines : List Str},
    keyStarts lines = [] ↔ ∀ line ∈ lines, opens line = false
  | [] => by simp [keyStarts]
  | line :: lines => by
    rw [keyStarts_cons, List.append_eq_nil_iff, List.map_eq_nil_iff, keyStarts_nil_iff,
      List.forall_mem_cons]
    simp

/-- One line opens the block, and no other. -/
theorem keyStarts_single_iff : ∀ {lines : List Str} {start : ℕ}, keyStarts lines = [start] ↔
    ∃ before header rest, lines = before ++ header :: rest ∧ before.length = start ∧
      opens header = true ∧ ∀ line ∈ before ++ rest, opens line = false
  | [], start => by simp [keyStarts]
  | line :: lines, start => by
    rw [keyStarts_cons]
    by_cases hopen : opens line = true
    · rw [if_pos hopen, List.singleton_append, List.cons.injEq, List.map_eq_nil_iff,
        keyStarts_nil_iff]
      constructor
      · rintro ⟨rfl, hrest⟩
        exact ⟨[], line, lines, rfl, rfl, hopen, hrest⟩
      · rintro ⟨before, header, rest, hlines, rfl, -, honly⟩
        rcases before with _ | ⟨first, before⟩
        · obtain ⟨rfl, rfl⟩ := List.cons.inj hlines
          exact ⟨rfl, honly⟩
        · obtain ⟨rfl, rfl⟩ := List.cons.inj hlines
          rw [honly line (by simp)] at hopen
          cases hopen
    · rw [if_neg hopen, List.nil_append, List.map_eq_singleton_iff]
      constructor
      · rintro ⟨n, hn, rfl⟩
        obtain ⟨before, header, rest, rfl, rfl, hheader, honly⟩ := keyStarts_single_iff.mp hn
        refine ⟨line :: before, header, rest, rfl, rfl, hheader, ?_⟩
        exact List.forall_mem_cons.mpr ⟨eq_false_of_ne_true hopen, honly⟩
      · rintro ⟨before, header, rest, hlines, rfl, hheader, honly⟩
        rcases before with _ | ⟨first, before⟩
        · obtain ⟨rfl, rfl⟩ := List.cons.inj hlines
          exact absurd hheader hopen
        · obtain ⟨rfl, rfl⟩ := List.cons.inj hlines
          exact ⟨before.length, keyStarts_single_iff.mpr ⟨before, header, rest, rfl, rfl, hheader,
            fun l hl => honly l (List.mem_cons_of_mem _ hl)⟩, rfl⟩

theorem blockStart_iff {lines : List Str} {start : ℕ} : blockStart lines = .ok start ↔
    keyStarts lines = [start] ∧ strip (lines.getD start []) = lit "api-keys:" := by
  unfold blockStart
  rcases keyStarts lines with _ | ⟨first, _ | ⟨second, rest⟩⟩
  · simp
  · simp only [List.cons.injEq, and_true]
    split_ifs with halone
    · rw [Except.ok.injEq]
      constructor
      · rintro rfl
        exact ⟨rfl, halone⟩
      · exact fun h => h.1
    · refine iff_of_false (by simp) ?_
      rintro ⟨rfl, h⟩
      exact halone h
  · simp

/-! ### The entries -/

/-- A line of the list that is an entry. -/
def isEntry (line : Str) : Bool := startsWith (strip line) (lit "-")

/-- The key of an entry. -/
def entryKey (py : Py) (line : Str) : Except PyError Str :=
  parseApiKeyScalar py (strip ((strip line).drop 1))

theorem collectKeys_cons {py : Py} {line : Str} (hin : endsBlock line = false) (rest : List Str) :
    collectKeys py (line :: rest) =
      if isEntry line then do
        let key ← entryKey py line
        let keys ← collectKeys py rest
        return key :: keys
      else collectKeys py rest := by
  rw [collectKeys, if_neg (by simp [hin])]
  by_cases hentry : isEntry line = true
  · have hstart : lit "-" <+: strip line := of_decide_eq_true hentry
    obtain ⟨more, hmore⟩ := hstart
    have hskip : ¬ (strip line = [] ∨ startsWith (strip line) (lit "#") = true ∨
        ¬ startsWith (strip line) (lit "-") = true) := by
      rintro (hnil | hhash | hno)
      · rw [hnil] at hmore
        cases hmore
      · rw [← hmore] at hhash
        have hpair : (35 : ℕ) = 45 ∧ [] <+: more := List.cons_prefix_cons.mp (of_decide_eq_true hhash)
        exact absurd hpair.1 (by decide)
      · exact hno hentry
    rw [if_neg hskip, if_pos hentry]
    rfl
  · rw [if_pos (.inr (.inr hentry)), if_neg hentry]

theorem collectKeys_append {py : Py} : ∀ {a : List Str}, (∀ line ∈ a, endsBlock line = false) →
    ∀ (b : List Str) {keys : List Str}, collectKeys py (a ++ b) = .ok keys ↔
      ∃ ka kb, collectKeys py a = .ok ka ∧ collectKeys py b = .ok kb ∧ keys = ka ++ kb
  | [], _, b, keys => by simp [collectKeys]
  | line :: a, h, b, keys => by
    have hin := h line List.mem_cons_self
    have ih := @collectKeys_append py a (fun l hl => h l (List.mem_cons_of_mem _ hl)) b
    rw [List.cons_append, collectKeys_cons hin, collectKeys_cons hin]
    split_ifs with hentry
    · cases hkey : entryKey py line with
      | error e => simp [bind, Except.bind]
      | ok key =>
        cases hb : collectKeys py (a ++ b) with
        | error e =>
          refine iff_of_false (by simp [bind, Except.bind]) ?_
          rintro ⟨ka, kb, hka, hkb, rfl⟩
          cases ha : collectKeys py a with
          | error e' =>
            rw [ha] at hka
            cases hka
          | ok ka' =>
            have := ih.mpr ⟨ka', kb, ha, hkb, rfl⟩
            rw [hb] at this
            cases this
        | ok all =>
          obtain ⟨ka, kb, hka, hkb, rfl⟩ := ih.mp hb
          rw [hka]
          constructor
          · intro hok
            obtain rfl := Except.ok.inj hok
            exact ⟨key :: ka, kb, rfl, hkb, rfl⟩
          · rintro ⟨ka', kb', hka', hkb', rfl⟩
            obtain rfl := Except.ok.inj hka'
            obtain rfl := Except.ok.inj (hkb.symm.trans hkb')
            rfl
    · exact ih

theorem collectKeys_after {py : Py} {after : List Str} (h : ∀ line ∈ after.head?, endsBlock line = true) :
    collectKeys py after = .ok [] := by
  rcases after with _ | ⟨line, after⟩
  · rfl
  · rw [collectKeys, if_pos (h line rfl)]

/-! ### The keys of a text -/

/-- The lines have a list, and these are its keys. -/
def Listed (py : Py) (lines keys : List Str) : Prop :=
  ∃ before header entries after, Layout lines before header entries after ∧
    collectKeys py entries = .ok keys

/-- The loop of `api_keys`, on the lines of the text. -/
def keysRead (py : Py) (lines : List Str) : Except PyError (List Str) := do
  let start ← blockStart lines
  collectKeys py (lines.drop (start + 1))

/-- The lines after the header are those of the list and those after. -/
theorem layout_of_start {lines : List Str} {start : ℕ} (h : blockStart lines = .ok start) :
    ∃ before header entries after, Layout lines before header entries after ∧
      start = before.length ∧ lines.drop (start + 1) = entries ++ after := by
  obtain ⟨hstarts, halone⟩ := blockStart_iff.mp h
  obtain ⟨before, header, rest, rfl, rfl, hopen, honly⟩ := keyStarts_single_iff.mp hstarts
  have hrest := @List.takeWhile_append_dropWhile _ (fun line => !endsBlock line) rest
  refine ⟨before, header, rest.takeWhile fun line => !endsBlock line,
    rest.dropWhile fun line => !endsBlock line, ⟨?_, hopen, ?_, ?_, ?_, ?_⟩, rfl, ?_⟩
  · rw [hrest]
  · rw [← halone]
    simp
  · rwa [hrest]
  · intro line hline
    simpa using List.mem_takeWhile_imp hline
  · intro line hline
    have hnot := List.head?_dropWhile_not (fun line => !endsBlock line) rest
    rw [Option.mem_def.mp hline] at hnot
    simpa using hnot
  · rw [hrest]
    simp

theorem Layout.start {lines before : List Str} {header : Str} {entries after : List Str}
    (h : Layout lines before header entries after) : blockStart lines = .ok before.length := by
  obtain ⟨rfl, hopen, halone, honly, -, -⟩ := h
  refine blockStart_iff.mpr ⟨keyStarts_single_iff.mpr ⟨before, header, _, rfl, rfl, hopen, honly⟩, ?_⟩
  rw [← halone]
  simp

theorem Layout.drop {lines before : List Str} {header : Str} {entries after : List Str}
    (h : Layout lines before header entries after) :
    lines.drop (before.length + 1) = entries ++ after := by
  rw [h.parts, ← List.drop_drop, List.drop_left]
  rfl

theorem Layout.collect {py : Py} {lines before : List Str} {header : Str} {entries after keys : List Str}
    (h : Layout lines before header entries after) :
    collectKeys py (entries ++ after) = .ok keys ↔ collectKeys py entries = .ok keys := by
  rw [collectKeys_append h.inside, collectKeys_after h.ended]
  constructor
  · rintro ⟨ka, kb, hka, hkb, rfl⟩
    obtain rfl := Except.ok.inj hkb
    rwa [List.append_nil]
  · exact fun hkeys => ⟨keys, [], hkeys, rfl, (List.append_nil keys).symm⟩

theorem keysRead_iff {py : Py} {lines keys : List Str} :
    keysRead py lines = .ok keys ↔ Listed py lines keys := by
  unfold keysRead
  constructor
  · intro h
    cases hstart : blockStart lines with
    | error e =>
      rw [hstart] at h
      cases h
    | ok start =>
      obtain ⟨before, header, entries, after, hlay, rfl, hdrop⟩ := layout_of_start hstart
      have hkeys : collectKeys py (lines.drop (before.length + 1)) = .ok keys := by
        rw [hstart] at h
        exact h
      rw [hdrop, hlay.collect] at hkeys
      exact ⟨before, header, entries, after, hlay, hkeys⟩
  · rintro ⟨before, header, entries, after, hlay, hkeys⟩
    rw [hlay.start]
    show collectKeys py (lines.drop (before.length + 1)) = .ok keys
    rw [hlay.drop, hlay.collect, hkeys]

/-! ### Lines without breaks and without blank lines -/

theorem opens_chomp {line : Str} (h : Line line) : opens (chomp line) = opens line := by
  have hname : NoBreak (lit "api-keys:") := by
    show ∀ c ∈ lit "api-keys:", c ∉ lineBreaks
    decide
  rcases h with ⟨body, ending, rfl, hbody, hbreak⟩ | ⟨-, hbody⟩
  · rw [chomp_append hbody hbreak]
    exact decide_eq_decide.mpr (prefix_closed hname hbreak).symm
  · rw [chomp_noBreak hbody]

theorem endsBlock_blank {line : Str} (h : strip line = []) : endsBlock line = false := by
  simp [endsBlock, h]

theorem endsBlock_chomp {line : Str} (h : Line line) : endsBlock (chomp line) = endsBlock line := by
  have hstrip := strip_chomp h
  by_cases hblank : strip line = []
  · rw [endsBlock_blank hblank, endsBlock_blank (hstrip.trans hblank)]
  · have hhead : (chomp line).head? = line.head? := by
      rcases h with ⟨body, ending, rfl, hbody, hbreak⟩ | ⟨-, hbody⟩
      · rw [chomp_append hbody hbreak] at hstrip ⊢
        rcases body with _ | ⟨c, body⟩
        · exact absurd hstrip.symm hblank
        · rfl
      · rw [chomp_noBreak hbody]
    rw [endsBlock, endsBlock, hstrip, hhead]

theorem keyStarts_chomp : ∀ {lines : List Str}, (∀ line ∈ lines, Line line) →
    keyStarts (lines.map chomp) = keyStarts lines
  | [], _ => rfl
  | line :: lines, h => by
    rw [List.map_cons, keyStarts_cons, keyStarts_cons, opens_chomp (h line List.mem_cons_self),
      keyStarts_chomp fun l hl => h l (List.mem_cons_of_mem _ hl)]

theorem collectKeys_chomp {py : Py} : ∀ {lines : List Str}, (∀ line ∈ lines, Line line) →
    collectKeys py (lines.map chomp) = collectKeys py lines
  | [], _ => rfl
  | line :: lines, h => by
    have hline := h line List.mem_cons_self
    have ih := @collectKeys_chomp py lines fun l hl => h l (List.mem_cons_of_mem _ hl)
    rw [List.map_cons, collectKeys, collectKeys, endsBlock_chomp hline, strip_chomp hline, ih]

/-- Breaks do not matter to the keys. -/
theorem keysRead_chomp {py : Py} {lines : List Str} (h : ∀ line ∈ lines, Line line) :
    keysRead py (lines.map chomp) = keysRead py lines := by
  have hget : ∀ n, strip ((lines.map chomp).getD n []) = strip (lines.getD n []) := by
    intro n
    rw [List.getD_eq_getElem?_getD, List.getD_eq_getElem?_getD, List.getElem?_map]
    cases hn : lines[n]? with
    | none => rfl
    | some line => exact strip_chomp (h line (List.mem_of_getElem? hn))
  have hstart : blockStart (lines.map chomp) = blockStart lines := by
    rw [blockStart, blockStart, keyStarts_chomp h]
    simp only [hget]
  have hcollect : ∀ n, collectKeys py ((lines.map chomp).drop n) = collectKeys py (lines.drop n) := by
    intro n
    rw [← List.map_drop]
    exact collectKeys_chomp fun l hl => h l (List.mem_of_mem_drop hl)
  rw [keysRead, keysRead, hstart]
  simp only [hcollect]

theorem opens_blank {line : Str} (h : strip line = []) : opens line = false := by
  refine Bool.eq_false_iff.mpr fun hopen => ?_
  obtain ⟨rest, rfl⟩ : lit "api-keys:" <+: line := of_decide_eq_true hopen
  have hlast : ∀ t : Str, (t.reverse.dropWhile isSpace) = [] → ∀ c ∈ t, isSpace c = true := by
    intro t ht c hc
    exact List.dropWhile_eq_nil_iff.mp ht c (List.mem_reverse.mpr hc)
  have hdrop : (lit "api-keys:" ++ rest).dropWhile isSpace = lit "api-keys:" ++ rest := rfl
  rw [strip, hdrop, List.reverse_eq_nil_iff] at h
  exact absurd (hlast _ h 97 (List.mem_append_left _ (by decide))) (by decide)

theorem collectKeys_filter {py : Py} : ∀ lines : List Str,
    collectKeys py (lines.filter fun line => strip line ≠ []) = collectKeys py lines
  | [] => rfl
  | line :: lines => by
    have ih := @collectKeys_filter py lines
    by_cases hblank : strip line = []
    · rw [List.filter_cons_of_neg (by simp [hblank]), ih, collectKeys_cons (endsBlock_blank hblank),
        if_neg (by simp [isEntry, hblank, startsWith, lit])]
    · rw [List.filter_cons_of_pos (by simp [hblank]), collectKeys, collectKeys, ih]

/-- The parts up to the header, and the lines after it. -/
theorem listed_iff {py : Py} {lines keys : List Str} : Listed py lines keys ↔
    ∃ before header rest, lines = before ++ header :: rest ∧ opens header = true ∧
      strip header = lit "api-keys:" ∧ (∀ line ∈ before ++ rest, opens line = false) ∧
      collectKeys py rest = .ok keys := by
  constructor
  · rintro ⟨before, header, entries, after, hlay, hkeys⟩
    exact ⟨before, header, entries ++ after, hlay.parts, hlay.opened, hlay.alone, hlay.only,
      hlay.collect.mpr hkeys⟩
  · rintro ⟨before, header, rest, rfl, hopen, halone, honly, hkeys⟩
    have hstart : blockStart (before ++ header :: rest) = .ok before.length := by
      refine blockStart_iff.mpr
        ⟨keyStarts_single_iff.mpr ⟨before, header, rest, rfl, rfl, hopen, honly⟩, ?_⟩
      rw [← halone]
      simp
    have hdrop : (before ++ header :: rest).drop (before.length + 1) = rest := by simp
    refine keysRead_iff.mp ?_
    rw [keysRead, hstart]
    show collectKeys py ((before ++ header :: rest).drop (before.length + 1)) = .ok keys
    rw [hdrop, hkeys]

/-- **Blank lines do not matter to the keys.** -/
theorem listed_filter {py : Py} {lines keys : List Str} :
    Listed py (lines.filter fun line => strip line ≠ []) keys ↔ Listed py lines keys := by
  rw [listed_iff, listed_iff]
  constructor
  · rintro ⟨before, header, rest, hparts, hopen, halone, honly, hkeys⟩
    obtain ⟨before', tail, rfl, rfl, htail⟩ := List.filter_eq_append_iff.mp hparts
    obtain ⟨blank, rest', rfl, hblank, -, rfl⟩ := List.filter_eq_cons_iff.mp htail
    refine ⟨before' ++ blank, header, rest', (List.append_assoc _ _ _).symm, hopen, halone, ?_,
      by rw [← hkeys, collectKeys_filter]⟩
    intro line hline
    by_cases hstrip : strip line = []
    · exact opens_blank hstrip
    · have hsolid : decide (strip line ≠ []) = true := decide_eq_true hstrip
      refine honly line (List.mem_append.mpr ?_)
      rcases List.mem_append.mp hline with hfront | hrest
      · rcases List.mem_append.mp hfront with hfront | hfront
        · exact .inl (List.mem_filter.mpr ⟨hfront, hsolid⟩)
        · exact absurd hsolid (hblank line hfront)
      · exact .inr (List.mem_filter.mpr ⟨hrest, hsolid⟩)
  · rintro ⟨before, header, rest, rfl, hopen, halone, honly, hkeys⟩
    have hheader : decide (strip header ≠ []) = true := by
      rw [halone]
      rfl
    refine ⟨before.filter fun line => strip line ≠ [], header, rest.filter fun line => strip line ≠ [],
      ?_, hopen, halone, ?_, by rw [collectKeys_filter, hkeys]⟩
    · rw [List.filter_append, List.filter_cons, if_pos hheader]
    · rw [← List.filter_append]
      exact fun line hline => honly line (List.mem_of_mem_filter hline)

/-- **The keys are told by the lines that are not blank.** -/
theorem listed_solid {py : Py} {lines keys : List Str} (h : ∀ line ∈ lines, Line line) :
    Listed py (solid lines) keys ↔ Listed py lines keys := by
  rw [solid, listed_filter, ← keysRead_iff, keysRead_chomp h, keysRead_iff]

section

variable {py : Py} {raw : Bytes} {text : Str} {keys : List Str}

theorem apiKeys_read (htext : decodeUtf8 raw = some text) : apiKeys py raw =
    (keysRead py (splitlines true text)).bind fun result =>
      if result = [] then .error (runtimeError "gateway api-keys is empty") else .ok result := by
  rw [← keysRead_chomp (cut_splitlines text).1, ← splitlines_false, apiKeys, htext, keysRead]
  cases hstart : blockStart (splitlines false text) with
  | error e => simp only [hstart, bind, Except.bind]
  | ok start => simp only [hstart, bind, Except.bind]

theorem apiKeys_of_listed (htext : decodeUtf8 raw = some text)
    (h : Listed py (splitlines true text) keys) : apiKeys py raw =
      if keys = [] then .error (runtimeError "gateway api-keys is empty") else .ok keys := by
  rw [apiKeys_read htext, keysRead_iff.mpr h]
  rfl

theorem listed_of_apiKeys (h : apiKeys py raw = .ok keys) :
    ∃ text, decodeUtf8 raw = some text ∧ Listed py (splitlines true text) keys ∧ keys ≠ [] := by
  cases htext : decodeUtf8 raw with
  | none =>
    rw [apiKeys, htext] at h
    cases h
  | some text =>
    refine ⟨text, rfl, ?_⟩
    rw [apiKeys_read htext] at h
    cases hread : keysRead py (splitlines true text) with
    | error e =>
      rw [hread] at h
      cases h
    | ok result =>
      rw [hread] at h
      replace h : (if result = [] then
        Except.error (runtimeError "gateway api-keys is empty") else .ok result) = .ok keys := h
      split_ifs at h with hempty
      obtain rfl := Except.ok.inj h
      exact ⟨keysRead_iff.mp hread, hempty⟩

end

/-- Lines put together, of which some may meet, have the keys that they have apart. -/
theorem listed_flatten {py : Py} {lines keys : List Str} (hlines : Stacked lines) :
    Listed py (splitlines true lines.flatten) keys ↔ Listed py lines keys := by
  rw [← listed_solid (cut_splitlines _).1, solid_flatten hlines, listed_solid hlines.1]

/-! ### Texts that have an encoding -/

/-- A text of code points that UTF-8 encodes. -/
def Scalars (s : Str) : Prop := ∀ c ∈ s, c < 0x110000 ∧ (c < 0xD800 ∨ 0xDFFF < c)

theorem Scalars.decode {s : Str} (h : Scalars s) : decodeUtf8 (utf8 s) = some s := by
  refine decodeUtf8_utf8 (fun c hc => (h c hc).1) ?_
  unfold encodable
  rw [List.all_eq_true]
  exact fun c hc => by simpa using (h c hc).2

theorem scalars_of_decode {raw : Bytes} {s : Str} (h : decodeUtf8 raw = some s) :
    Scalars s ∧ utf8 s = raw := by
  obtain ⟨hraw, hpoints, hencodable⟩ := utf8_decodeUtf8 h
  unfold encodable at hencodable
  rw [List.all_eq_true] at hencodable
  exact ⟨fun c hc => ⟨hpoints c hc, by simpa using hencodable c hc⟩, hraw⟩

theorem scalars_flatten {lines : List Str} :
    Scalars lines.flatten ↔ ∀ line ∈ lines, Scalars line := by
  unfold Scalars
  simp only [List.mem_flatten]
  exact ⟨fun h line hline c hc => h c ⟨line, hline, hc⟩, fun h c ⟨line, hline, hc⟩ => h line hline c hc⟩

theorem utf8_append (s t : Str) : utf8 (s ++ t) = utf8 s ++ utf8 t := List.flatMap_append

/-! ### Appending -/

/-- The line of a new key. -/
def entryLine (key : Str) : Str := lit "  - " ++ quote true key ++ lit "\n"

theorem entryLine_printable (key : Str) : Printable (lit "  - " ++ quote true key) :=
  Printable.append (by decide) (printable_quote key)

theorem Printable.noBreak {s : Str} (h : Printable s) : NoBreak s := by
  have hbreaks : ∀ c ∈ lineBreaks, ¬ (32 ≤ c ∧ c < 127) := by decide
  exact fun c hc hbreak => hbreaks c hbreak (h c hc)

theorem entryLine_closed (key : Str) : Closed (entryLine key) :=
  ⟨_, lit "\n", rfl, Printable.noBreak (entryLine_printable key), .inr ⟨10, by decide, rfl⟩⟩

theorem entryLine_scalars (key : Str) : Scalars (entryLine key) := by
  intro c hc
  rcases List.mem_append.mp hc with hc | hc
  · have := entryLine_printable key c hc
    omega
  · rw [List.mem_singleton.mp hc]
    decide

theorem strip_entryLine (key : Str) : strip (entryLine key) = lit "- " ++ quote true key := by
  have hdrop : strip (lit "  - " ++ quote true key) = strip (lit "- " ++ quote true key) := rfl
  have henclosed : lit "- " ++ quote true key =
      45 :: (32 :: 34 :: key.flatMap (escape true) ++ [34]) := rfl
  rw [entryLine, strip_append_blank (by decide), hdrop, henclosed]
  exact strip_enclosed (by decide) (by decide) _

theorem endsBlock_entryLine (key : Str) : endsBlock (entryLine key) = false := by
  have hhead : (entryLine key).head? = some 32 := rfl
  rw [endsBlock, hhead]
  exact Bool.and_false _

/-- The text of a new entry is read back by the decoder of JSON. -/
theorem entryKey_entryLine {py : Py} {key : Str}
    (hread : py.loads (utf8 (quote true key)) = .value (.str key)) (hmin : 1 ≤ key.length)
    (hmax : key.length ≤ 512) :
    isEntry (entryLine key) = true ∧ entryKey py (entryLine key) = .ok key := by
  have hvalue : strip ((lit "- " ++ quote true key).drop 1) = quote true key := by
    have hspace : strip (32 :: quote true key) = strip (quote true key) := rfl
    show strip (32 :: quote true key) = quote true key
    rw [hspace]
    exact strip_enclosed (by decide) (by decide) (key.flatMap (escape true))
  have hquote : startsWith (quote true key) (lit "\"") = true :=
    decide_eq_true ⟨key.flatMap (escape true) ++ [34], rfl⟩
  rw [isEntry, entryKey, strip_entryLine, hvalue, parseApiKeyScalar, if_pos hquote, hread]
  exact ⟨decide_eq_true ⟨32 :: quote true key, rfl⟩, checkedKey_str.mpr ⟨rfl, hmin, hmax⟩⟩

/-- The loop of `append_api_key` counts the keys that `api_keys` reads. -/
theorem scanBlock_entries {py : Py} {after : List Str} (hend : ∀ line ∈ after.head?, endsBlock line = true) :
    ∀ {entries keys : List Str} (index count : ℕ), (∀ line ∈ entries, endsBlock line = false) →
      collectKeys py entries = .ok keys →
      scanBlock index count (entries ++ after) = (index + entries.length, count + keys.length)
  | [], keys, index, count, _, hkeys => by
    obtain rfl := Except.ok.inj hkeys
    rcases after with _ | ⟨line, after⟩
    · rfl
    · rw [List.nil_append, scanBlock, if_pos (hend line rfl)]
      rfl
  | line :: entries, keys, index, count, hin, hkeys => by
    have hline := hin line List.mem_cons_self
    have hrest : ∀ l ∈ entries, endsBlock l = false := fun l hl => hin l (List.mem_cons_of_mem _ hl)
    rw [collectKeys_cons hline] at hkeys
    rw [List.cons_append, scanBlock, if_neg (by simp [hline])]
    change scanBlock (index + 1) (if isEntry line then count + 1 else count) _ = _
    by_cases hentry : isEntry line = true
    · rw [if_pos hentry] at hkeys
      obtain ⟨key, hkey, hkeys⟩ := bind_ok_iff.mp hkeys
      obtain ⟨more, hmore, hkeys⟩ := bind_ok_iff.mp hkeys
      obtain rfl := Except.ok.inj hkeys
      rw [if_pos hentry, scanBlock_entries hend _ _ hrest hmore, List.length_cons, List.length_cons]
      congr 1 <;> omega
    · rw [if_neg hentry] at hkeys
      rw [if_neg hentry, scanBlock_entries hend _ _ hrest hkeys, List.length_cons]
      congr 1
      omega

/-- **The new line stands at the end of the list.** -/
theorem append_spec {py : Py} {raw : Bytes} {text : Str} {before : List Str} {header : Str}
    {entries after keys : List Str} (htext : decodeUtf8 raw = some text)
    (hlay : Layout (splitlines true text) before header entries after)
    (hkeys : collectKeys py entries = .ok keys) (key : Str) : appendApiKey raw key =
      .ok (utf8 (before ++ header :: (entries ++ entryLine key :: after)).flatten, keys.length) := by
  have hfront : before ++ header :: (entries ++ after) = (before ++ header :: entries) ++ after := by
    simp
  have hlen : before.length + 1 + entries.length = (before ++ header :: entries).length := by
    rw [List.length_append, List.length_cons]
    omega
  rw [appendApiKey, htext]
  simp only [bind, Except.bind, hlay.start, hlay.drop]
  rw [scanBlock_entries hlay.ended _ _ hlay.inside hkeys, hlay.parts]
  simp only [hfront, hlen, List.take_left, List.drop_left, Nat.zero_add]
  rw [List.append_assoc, List.cons_append]
  rfl

/-- The list does not run into the end of a text whose last line has no break. -/
def Terminated (text : Str) : Prop :=
  (∃ c ∈ text.getLast?, c ∈ lineBreaks) ∨
    ∃ start, blockStart (splitlines true text) = .ok start ∧
      ∃ line ∈ (splitlines true text).drop (start + 1), endsBlock line = true

/-- A text that ends with a break ends with a closed line. -/
theorem closed_of_break {lines : List Str} (hlines : ∀ line ∈ lines, Line line)
    (hlast : ∃ c ∈ lines.flatten.getLast?, c ∈ lineBreaks) : ∀ line ∈ lines.getLast?, Closed line := by
  intro line hline
  obtain ⟨front, rfl⟩ := List.getLast?_eq_some_iff.mp hline
  obtain ⟨c, hc, hbreak⟩ := hlast
  rcases hlines line (by simp) with hclosed | ⟨hne, hbody⟩
  · exact hclosed
  · rw [List.flatten_append, List.flatten_singleton, List.getLast?_append_of_ne_nil _ hne] at hc
    exact absurd hbreak (hbody c (List.mem_of_getLast? hc))

/-- The line before the new one has a break. -/
theorem closed_before {text : Str} {before : List Str} {header : Str} {entries after : List Str}
    (hlay : Layout (splitlines true text) before header entries after) (hend : Terminated text) :
    ∀ line ∈ (before ++ header :: entries).getLast?, Closed line := by
  have hcut := cut_splitlines text
  have hparts : splitlines true text = (before ++ header :: entries) ++ after := by
    rw [hlay.parts]
    simp
  rcases after with _ | ⟨b, after⟩
  · rw [List.append_nil] at hparts
    rcases hend with hlast | ⟨start, hstart, line, hline, hends⟩
    · rw [← flatten_splitlines text] at hlast
      rw [← hparts]
      exact closed_of_break hcut.1 hlast
    · obtain rfl := Except.ok.inj (hlay.start.symm.trans hstart)
      rw [hlay.drop, List.append_nil] at hline
      rw [hlay.inside line hline] at hends
      cases hends
  · have hchain := hcut.2
    rw [hparts, List.isChain_append] at hchain
    exact fun line hline => (hchain.2.2 line hline b rfl).1

/-- **The lines after an append.** -/
theorem append_layout {text : Str} {before : List Str} {header : Str} {entries after : List Str}
    (hlay : Layout (splitlines true text) before header entries after) (hend : Terminated text)
    (key : Str) : Cut (before ++ header :: (entries ++ entryLine key :: after)) ∧
      Layout (before ++ header :: (entries ++ entryLine key :: after)) before header
        (entries ++ [entryLine key]) after := by
  have hclosed := closed_before hlay hend
  have hcut := cut_splitlines text
  have hfront : ∀ tail : List Str, before ++ header :: (entries ++ tail) =
      (before ++ header :: entries) ++ tail := fun tail => by simp
  constructor
  · rw [hlay.parts, hfront] at hcut
    rw [hfront]
    refine hcut.insert (fun a ha => ⟨hclosed a ha, fun hmeet => ?_⟩) (entryLine_closed key)
      fun b _ hmeet => ?_
    · have hhead : (entryLine key).head? = some 32 := rfl
      rw [Meets, hhead] at hmeet
      exact absurd hmeet.2 (by decide)
    · have hlast : (entryLine key).getLast? = some 10 := List.getLast?_concat
      rw [Meets, hlast] at hmeet
      exact absurd hmeet.1 (by decide)
  · have hopens : opens (entryLine key) = false := by
      refine Bool.eq_false_iff.mpr fun hopen => ?_
      have hpair : (97 : ℕ) = 32 ∧ _ := List.cons_prefix_cons.mp (of_decide_eq_true hopen)
      exact absurd hpair.1 (by decide)
    refine ⟨by simp, hlay.opened, hlay.alone, ?_, ?_, hlay.ended⟩
    · intro line hline
      by_cases hnew : line = entryLine key
      · rw [hnew, hopens]
      · refine hlay.only line ?_
        simp only [List.mem_append, List.mem_singleton, hnew, or_false] at hline ⊢
        exact hline
    · intro line hline
      rcases List.mem_append.mp hline with hline | hline
      · exact hlay.inside line hline
      · rw [List.mem_singleton.mp hline, endsBlock_entryLine]

/-! ### Leaving lines out -/

/-- The line is an entry with this key. -/
def names (py : Py) (target line : Str) : Bool :=
  isEntry line && decide (entryKey py line = .ok target)

/-- Outside the list every line is kept. -/
theorem removeLoop_out {py : Py} {start : ℕ} {target : Str} : ∀ (lines rest : List Str) {index : ℕ},
    index + lines.length ≤ start ∨ start < index → removeLoop py start target index false (lines ++ rest) =
      (removeLoop py start target (index + lines.length) false rest).map
        fun result => (result.1, lines ++ result.2)
  | [], rest, index, _ => by
    cases h : removeLoop py start target index false rest with
    | error e => simp [h, Except.map]
    | ok result => simp [h, Except.map]
  | line :: lines, rest, index, hout => by
    rw [List.length_cons] at hout
    have hindex : index ≠ start := by omega
    have ih := @removeLoop_out py start target lines rest (index + 1) (by omega)
    have hnext : index + 1 + lines.length = index + (lines.length + 1) := by omega
    rw [List.cons_append, removeLoop, if_neg hindex]
    simp only [Bool.false_and]
    rw [if_neg (by decide), ih, hnext, List.length_cons]
    cases removeLoop py start target (index + (lines.length + 1)) false rest <;> rfl

/-- After the list every line is kept. -/
theorem removeLoop_after {py : Py} {start index : ℕ} {target : Str} (hindex : start < index)
    {after : List Str} (hend : ∀ line ∈ after.head?, endsBlock line = true) :
    removeLoop py start target index true after = .ok (0, after) := by
  rcases after with _ | ⟨line, after⟩
  · rfl
  · have hout := @removeLoop_out py start target after [] (index + 1) (.inr (by omega))
    rw [List.append_nil] at hout
    rw [removeLoop, if_neg (by omega), hend line rfl]
    simp only [Bool.not_true, Bool.and_false, Bool.false_and]
    rw [if_neg (by decide), hout]
    simp only [removeLoop, Except.map, bind, Except.bind, List.append_nil]
    rfl

/-- In the list the entries of the key are left out. -/
theorem removeLoop_entries {py : Py} {start : ℕ} {target : Str} {after : List Str}
    (hend : ∀ line ∈ after.head?, endsBlock line = true) :
    ∀ {entries keys : List Str} {index : ℕ}, start < index →
      (∀ line ∈ entries, endsBlock line = false) → collectKeys py entries = .ok keys →
      removeLoop py start target index true (entries ++ after) =
        .ok (keys.count target, entries.filter (fun line => !names py target line) ++ after)
  | [], keys, index, hindex, _, hkeys => by
    obtain rfl := Except.ok.inj hkeys
    exact removeLoop_after hindex hend
  | line :: entries, keys, index, hindex, hin, hkeys => by
    have hline := hin line List.mem_cons_self
    have hrest : ∀ l ∈ entries, endsBlock l = false := fun l hl => hin l (List.mem_cons_of_mem _ hl)
    rw [collectKeys_cons hline] at hkeys
    rw [List.cons_append, removeLoop, if_neg (by omega), hline]
    simp only [Bool.not_false, Bool.and_true, Bool.true_and]
    change (if isEntry line then entryKey py line >>= fun value => _ else _) = _
    by_cases hentry : isEntry line = true
    · rw [if_pos hentry] at hkeys ⊢
      obtain ⟨key, hkey, hkeys⟩ := bind_ok_iff.mp hkeys
      obtain ⟨more, hmore, hkeys⟩ := bind_ok_iff.mp hkeys
      obtain rfl := Except.ok.inj hkeys
      have ih := @removeLoop_entries py start target after hend entries more (index + 1) (by omega)
        hrest hmore
      simp only [hkey, ih, bind, Except.bind, pure, Except.pure]
      by_cases htarget : key = target
      · subst htarget
        have hnames : names py key line = true := by simp [names, hentry, hkey]
        rw [if_pos rfl, List.count_cons_self, List.filter_cons_of_neg (by simp [hnames])]
      · have hnames : names py target line = false := by simp [names, hkey, htarget]
        rw [if_neg htarget, List.count_cons_of_ne htarget, List.filter_cons_of_pos (by simp [hnames])]
        rfl
    · rw [if_neg hentry] at hkeys ⊢
      have ih := @removeLoop_entries py start target after hend entries keys (index + 1) (by omega)
        hrest hkeys
      have hnames : names py target line = false := by simp [names, hentry]
      simp only [ih, bind, Except.bind, pure, Except.pure]
      rw [List.filter_cons_of_pos (by simp [hnames])]
      rfl

/-- **The loop leaves out the entries of the key, and counts them.** -/
theorem removeLoop_layout {py : Py} {lines before : List Str} {header : Str}
    {entries after keys : List Str} (hlay : Layout lines before header entries after)
    (hkeys : collectKeys py entries = .ok keys) (target : Str) :
    removeLoop py before.length target 0 false lines = .ok (keys.count target,
      before ++ header :: (entries.filter (fun line => !names py target line) ++ after)) := by
  have hout := @removeLoop_out py before.length target before (header :: (entries ++ after)) 0
    (.inl (by omega))
  rw [hlay.parts, hout, Nat.zero_add, removeLoop, if_pos rfl,
    removeLoop_entries hlay.ended (by omega) hlay.inside hkeys]
  rfl

/-- A key that is not in the list has no entry. -/
theorem filter_others {py : Py} {target : Str} : ∀ {entries keys : List Str},
    (∀ line ∈ entries, endsBlock line = false) → collectKeys py entries = .ok keys →
    target ∉ keys → entries.filter (fun l => !names py target l) = entries
  | [], _, _, _, _ => rfl
  | line :: entries, keys, hin, hkeys, hnone => by
    have hrest : ∀ l ∈ entries, endsBlock l = false := fun l hl => hin l (List.mem_cons_of_mem _ hl)
    rw [collectKeys_cons (hin line List.mem_cons_self)] at hkeys
    by_cases hentry : isEntry line = true
    · rw [if_pos hentry] at hkeys
      obtain ⟨key, hkey, hkeys⟩ := bind_ok_iff.mp hkeys
      obtain ⟨more, hmore, hkeys⟩ := bind_ok_iff.mp hkeys
      obtain rfl := Except.ok.inj hkeys
      rw [List.mem_cons, not_or] at hnone
      have hnames : names py target line = false := by simp [names, hkey, Ne.symm hnone.1]
      rw [List.filter_cons_of_pos (by simp [hnames]), filter_others hrest hmore hnone.2]
    · rw [if_neg hentry] at hkeys
      have hnames : names py target line = false := by simp [names, hentry]
      rw [List.filter_cons_of_pos (by simp [hnames]), filter_others hrest hkeys hnone]

/-- A key that stands once in the list has one entry. -/
theorem entry_of_count {py : Py} {target : Str} : ∀ {entries keys : List Str},
    (∀ line ∈ entries, endsBlock line = false) → collectKeys py entries = .ok keys →
    keys.count target = 1 → ∃ front line back, entries = front ++ line :: back ∧
      names py target line = true ∧
      entries.filter (fun l => !names py target l) = front ++ back ∧
      collectKeys py (front ++ back) = .ok (keys.erase target)
  | [], keys, _, hkeys, hcount => by
    obtain rfl := Except.ok.inj hkeys
    cases hcount
  | line :: entries, keys, hin, hkeys, hcount => by
    have hline := hin line List.mem_cons_self
    have hrest : ∀ l ∈ entries, endsBlock l = false := fun l hl => hin l (List.mem_cons_of_mem _ hl)
    rw [collectKeys_cons hline] at hkeys
    by_cases hentry : isEntry line = true
    · rw [if_pos hentry] at hkeys
      obtain ⟨key, hkey, hkeys⟩ := bind_ok_iff.mp hkeys
      obtain ⟨more, hmore, hkeys⟩ := bind_ok_iff.mp hkeys
      obtain rfl := Except.ok.inj hkeys
      by_cases htarget : key = target
      · subst htarget
        have hnames : names py key line = true := by simp [names, hentry, hkey]
        have hnone : key ∉ more := by
          rw [List.count_cons_self] at hcount
          exact List.count_eq_zero.mp (by omega)
        have hothers : entries.filter (fun l => !names py key l) = entries :=
          filter_others hrest hmore hnone
        refine ⟨[], line, entries, rfl, hnames, ?_, ?_⟩
        · rw [List.filter_cons_of_neg (by simp [hnames]), hothers]
          rfl
        · rw [List.erase_cons_head]
          exact hmore
      · have hnames : names py target line = false := by simp [names, hkey, htarget]
        rw [List.count_cons_of_ne htarget] at hcount
        obtain ⟨front, found, back, rfl, hfound, hfilter, herase⟩ := entry_of_count hrest hmore hcount
        refine ⟨line :: front, found, back, rfl, hfound, ?_, ?_⟩
        · rw [List.filter_cons_of_pos (by simp [hnames]), hfilter]
          rfl
        · rw [List.cons_append, collectKeys_cons hline, if_pos hentry, hkey, herase,
            List.erase_cons_tail (by simpa using htarget)]
          rfl
    · rw [if_neg hentry] at hkeys
      have hnames : names py target line = false := by simp [names, hentry]
      obtain ⟨front, found, back, rfl, hfound, hfilter, herase⟩ := entry_of_count hrest hkeys hcount
      refine ⟨line :: front, found, back, rfl, hfound, ?_, ?_⟩
      · rw [List.filter_cons_of_pos (by simp [hnames]), hfilter]
        rfl
      · rw [List.cons_append, collectKeys_cons hline, if_neg hentry, herase]

/-! ### Both edits -/

theorem matching_eq {py : Py} {digest : Str} : ∀ {keys : List Str},
    (∀ key ∈ keys, encodable key = true) →
    matching py digest keys = .ok (keys.filter fun key => py.sha256 (utf8 key) = digest)
  | [], _ => rfl
  | key :: keys, h => by
    have ih := @matching_eq py digest keys fun k hk => h k (List.mem_cons_of_mem _ hk)
    rw [matching, if_pos (h key List.mem_cons_self), ih, List.filter_cons]
    simp only [bind, Except.bind, pure, Except.pure, decide_eq_true_eq]

/-- A key with a digest of its own stands once in the list. -/
theorem count_of_filter {py : Py} {digest target : Str} {keys : List Str}
    (h : keys.filter (fun key => py.sha256 (utf8 key) = digest) = [target]) :
    keys.count target = 1 := by
  have hmem : target ∈ keys.filter fun key => py.sha256 (utf8 key) = digest := by
    rw [h]
    exact List.mem_cons_self
  have hcount : (keys.filter fun key => py.sha256 (utf8 key) = digest).count target =
      keys.count target := List.count_filter (List.mem_filter.mp hmem).2
  rw [h, List.count_singleton_self] at hcount
  exact hcount.symm

/-- The list without some of its lines. -/
theorem Layout.filter {lines before : List Str} {header : Str} {entries after : List Str}
    (h : Layout lines before header entries after) {kept : List Str} (hkept : kept.Sublist entries) :
    Layout (before ++ header :: (kept ++ after)) before header kept after := by
  refine ⟨rfl, h.opened, h.alone, fun line hline => h.only line ?_,
    fun line hline => h.inside line (hkept.subset hline), h.ended⟩
  rcases List.mem_append.mp hline with hline | hline
  · exact List.mem_append_left _ hline
  · refine List.mem_append_right _ ?_
    rcases List.mem_append.mp hline with hline | hline
    · exact List.mem_append_left _ (hkept.subset hline)
    · exact List.mem_append_right _ hline

/-- **What a removal writes.** The last key is not removed. -/
theorem remove_spec {py : Py} {raw : Bytes} {text : Str} {before : List Str} {header : Str}
    {entries after keys : List Str} {digest target : Str} (htext : decodeUtf8 raw = some text)
    (hlay : Layout (splitlines true text) before header entries after)
    (hkeys : collectKeys py entries = .ok keys) (hencodable : ∀ key ∈ keys, encodable key = true)
    (hfilter : keys.filter (fun key => py.sha256 (utf8 key) = digest) = [target]) :
    removeApiKeyByDigest py raw digest =
      if keys.erase target = [] then .error (runtimeError "gateway api-keys is empty")
      else .ok (utf8 (before ++ header ::
        (entries.filter (fun line => !names py target line) ++ after)).flatten, target, keys.length) := by
  have hcount := count_of_filter hfilter
  have hne : keys ≠ [] := by
    rintro rfl
    cases hcount
  have hread := apiKeys_of_listed htext ⟨before, header, entries, after, hlay, hkeys⟩
  rw [if_neg hne] at hread
  have hstart : keyStarts (splitlines true text) = [before.length] := (blockStart_iff.mp hlay.start).1
  obtain ⟨front, line, back, hentries, -, hkept, hleft⟩ := entry_of_count hlay.inside hkeys hcount
  -- the lines that are left, and the keys that are read from them
  have hparts : splitlines true text = (before ++ header :: front) ++ line :: (back ++ after) := by
    rw [hlay.parts, hentries]
    simp
  have hlines : before ++ header :: (front ++ back ++ after) =
      (before ++ header :: front) ++ (back ++ after) := by simp
  have hcut := cut_splitlines text
  rw [hparts] at hcut
  have hstacked := hcut.remove
  rw [← hlines] at hstacked
  have hscalars : Scalars (before ++ header :: (front ++ back ++ after)).flatten := by
    have hall := (scalars_of_decode htext).1
    rw [← flatten_splitlines text, hparts, scalars_flatten] at hall
    rw [hlines, scalars_flatten]
    intro l hl
    refine hall l ?_
    rcases List.mem_append.mp hl with hl | hl
    · exact List.mem_append_left _ hl
    · exact List.mem_append_right _ (List.mem_cons_of_mem _ hl)
  have hsub : (front ++ back).Sublist entries := by
    rw [hentries]
    exact (List.Sublist.refl front).append (List.sublist_cons_self line back)
  have hupdated := @apiKeys_of_listed py _ _ _ hscalars.decode ((listed_flatten hstacked).mpr
    ⟨before, header, front ++ back, after, hlay.filter hsub, hleft⟩)
  have hloop := removeLoop_layout hlay hkeys target
  rw [hcount, hkept] at hloop
  rw [hkept, removeApiKeyByDigest, hread]
  simp only [bind, Except.bind, matching_eq hencodable, hfilter, htext, hstart, List.headD_cons, hloop]
  rw [if_neg (by decide), hupdated]
  split_ifs with hempty
  · rfl
  · simp only [ne_eq, not_true_eq_false, if_false]
    rfl

/-- The line after `front` is the entry of the key in the list of the text. -/
def KeyLine (py : Py) (text key : Str) (front : List Str) (line : Str) (back : List Str) : Prop :=
  ∃ before header entries entries' after, Layout (splitlines true text) before header
      (entries ++ line :: entries') after ∧ front = before ++ header :: entries ∧
    back = entries' ++ after ∧ isEntry line = true ∧ entryKey py line = .ok key

/-- **The key list is edited exactly, and an append can be undone.** -/
theorem editing (py : Py) :
    (∀ (c : Bytes) (text : Str) (keys : List Str) (k : Str), decodeUtf8 c = some text →
      apiKeys py c = .ok keys → Terminated text → 1 ≤ k.length → k.length ≤ 512 →
      py.loads (utf8 (quote true k)) = .value (.str k) →
      ∃ updated text', appendApiKey c k = .ok (updated, keys.length) ∧
        apiKeys py updated = .ok (keys ++ [k]) ∧ decodeUtf8 updated = some text' ∧
        (splitlines true text).Sublist (splitlines true text') ∧
        (k ∉ keys → (∀ key ∈ keys ++ [k], encodable key = true) →
          (∀ key ∈ keys, py.sha256 (utf8 key) = py.sha256 (utf8 k) → key = k) →
          removeApiKeyByDigest py updated (py.sha256 (utf8 k)) = .ok (c, k, keys.length + 1))) ∧
    ∀ (c : Bytes) (text : Str) (keys : List Str) (digest target : Str), decodeUtf8 c = some text →
      apiKeys py c = .ok keys → (∀ key ∈ keys, encodable key = true) →
      keys.filter (fun key => py.sha256 (utf8 key) = digest) = [target] →
      ∃ front line back, KeyLine py text target front line back ∧
        c = utf8 front.flatten ++ utf8 line ++ utf8 back.flatten ∧
        removeApiKeyByDigest py c digest =
          if keys = [target] then .error (runtimeError "gateway api-keys is empty")
          else .ok (utf8 front.flatten ++ utf8 back.flatten, target, keys.length) := by
  constructor
  · intro c text keys k htext hkeys hend hmin hmax hread
    obtain ⟨text', htext', ⟨before, header, entries, after, hlay, hcollect⟩, hne⟩ := listed_of_apiKeys hkeys
    obtain rfl : text' = text := Option.some.inj (htext'.symm.trans htext)
    obtain ⟨hcut, hlay'⟩ := append_layout hlay hend k
    obtain ⟨hscalars, hraw⟩ := scalars_of_decode htext
    obtain ⟨hentry, hkey⟩ := entryKey_entryLine hread hmin hmax
    have hlast : collectKeys py [entryLine k] = .ok [k] := by
      rw [collectKeys_cons (endsBlock_entryLine k), if_pos hentry, hkey]
      rfl
    have hcollect' : collectKeys py (entries ++ [entryLine k]) = .ok (keys ++ [k]) :=
      (collectKeys_append hlay.inside _).mpr ⟨keys, [k], hcollect, hlast, rfl⟩
    have hscalars' : Scalars (before ++ header :: (entries ++ entryLine k :: after)).flatten := by
      rw [← flatten_splitlines text', hlay.parts, scalars_flatten] at hscalars
      rw [scalars_flatten]
      intro line hline
      by_cases hnew : line = entryLine k
      · rw [hnew]
        exact entryLine_scalars k
      · refine hscalars line ?_
        simp only [List.mem_append, List.mem_cons, hnew, false_or] at hline ⊢
        exact hline
    have hlines := splitlines_flatten hcut
    have hupdated := @apiKeys_of_listed py _ _ _ hscalars'.decode
      (by rw [hlines]; exact ⟨before, header, entries ++ [entryLine k], after, hlay', hcollect'⟩)
    rw [if_neg (by simp)] at hupdated
    refine ⟨_, _, append_spec htext hlay hcollect k, hupdated, hscalars'.decode, ?_, ?_⟩
    · rw [hlines, hlay.parts]
      exact (List.Sublist.refl before).append
        (((List.Sublist.refl entries).append (List.sublist_cons_self _ after)).cons_cons header)
    · intro hnew hencodable hdigest
      have hothers : keys.filter (fun key => py.sha256 (utf8 key) = py.sha256 (utf8 k)) = [] := by
        refine List.filter_eq_nil_iff.mpr fun key hmem heq => hnew ?_
        rwa [← hdigest key hmem (of_decide_eq_true heq)]
      have hfilter : (keys ++ [k]).filter (fun key => py.sha256 (utf8 key) = py.sha256 (utf8 k)) =
          [k] := by
        rw [List.filter_append, hothers, List.filter_cons_of_pos (by simp)]
        rfl
      rw [← hlines] at hlay'
      have hremove := remove_spec hscalars'.decode hlay' hcollect' hencodable hfilter
      have herase : (keys ++ [k]).erase k = keys := by
        rw [List.erase_append_right _ hnew, List.erase_cons_head, List.append_nil]
      have hnames : names py k (entryLine k) = true := by simp [names, hentry, hkey]
      have hkept : (entries ++ [entryLine k]).filter (fun line => !names py k line) = entries := by
        rw [List.filter_append, filter_others hlay.inside hcollect hnew,
          List.filter_cons_of_neg (by simp [hnames])]
        exact List.append_nil entries
      rw [herase, if_neg hne, hkept, ← hlay.parts, flatten_splitlines, hraw, List.length_append] at hremove
      exact hremove
  · intro c text keys digest target htext hkeys hencodable hfilter
    obtain ⟨text', htext', ⟨before, header, entries, after, hlay, hcollect⟩, hne⟩ := listed_of_apiKeys hkeys
    obtain rfl : text' = text := Option.some.inj (htext'.symm.trans htext)
    have hcount := count_of_filter hfilter
    obtain ⟨front, line, back, hentries, hnames, hkept, -⟩ :=
      entry_of_count hlay.inside hcollect hcount
    have hline : isEntry line = true ∧ entryKey py line = .ok target := by
      simpa [names] using hnames
    refine ⟨before ++ header :: front, line, back ++ after,
      ⟨before, header, front, back, after, hentries ▸ hlay, rfl, rfl, hline⟩, ?_, ?_⟩
    · have hraw := (scalars_of_decode htext).2
      rw [← hraw, ← flatten_splitlines text', hlay.parts, hentries, ← utf8_append, ← utf8_append]
      congr 1
      simp
    · rw [remove_spec htext hlay hcollect hencodable hfilter, hkept, ← utf8_append]
      have hlast : keys.erase target = [] ↔ keys = [target] := by
        constructor
        · intro hempty
          have hmem : target ∈ keys := List.count_pos_iff.mp (by omega)
          obtain ⟨a, b, -, hab, herase⟩ := List.exists_erase_eq hmem
          rw [hempty] at herase
          obtain ⟨rfl, rfl⟩ := List.append_eq_nil_iff.mp herase.symm
          exact hab
        · rintro rfl
          exact List.erase_cons_head target []
      simp only [hlast]
      congr 4
      simp

/-- An interpreter that reads the key `new` in double quotes. -/
def newPy : Py := tablePy [] [(utf8 (quote true (lit "new")), .str (lit "new"))] []

/-- A list with a comment and a blank line, and a value after it. -/
def oldConfig : Str := lit "api-keys:\n  # one\n  - old\n\nhost: a\n"

/-- A list with two keys, and a carriage return before the line of the first. -/
def pairConfig : Str := lit "api-keys:\r  - old\n\n  - 'it''s'"

theorem key_appended_and_removed : (∃ updated text', appendApiKey (utf8 oldConfig) (lit "new") =
      .ok (updated, 1) ∧ apiKeys newPy updated = .ok ([lit "old"] ++ [lit "new"]) ∧
      decodeUtf8 updated = some text' ∧
      (splitlines true oldConfig).Sublist (splitlines true text') ∧
      (lit "new" ∉ [lit "old"] → (∀ key ∈ [lit "old"] ++ [lit "new"], encodable key = true) →
        (∀ key ∈ [lit "old"], newPy.sha256 (utf8 key) = newPy.sha256 (utf8 (lit "new")) →
          key = lit "new") →
        removeApiKeyByDigest newPy updated (newPy.sha256 (utf8 (lit "new"))) =
          .ok (utf8 oldConfig, lit "new", 2))) ∧
    ∃ front line back, KeyLine newPy pairConfig (lit "old") front line back ∧
      utf8 pairConfig = utf8 front.flatten ++ utf8 line ++ utf8 back.flatten ∧
      removeApiKeyByDigest newPy (utf8 pairConfig) (newPy.sha256 (utf8 (lit "old"))) =
        if [lit "old", lit "it's"] = [lit "old"] then
          .error (runtimeError "gateway api-keys is empty")
        else .ok (utf8 front.flatten ++ utf8 back.flatten, lit "old", 2) := by
  constructor
  · exact (editing newPy).1 (utf8 oldConfig) oldConfig [lit "old"] (lit "new") (by decide +kernel)
      (by decide +kernel) (.inl ⟨10, by decide +kernel, by decide⟩) (by decide) (by decide)
      (by decide +kernel)
  · exact (editing newPy).2 (utf8 pairConfig) pairConfig [lit "old", lit "it's"]
      (newPy.sha256 (utf8 (lit "old"))) (lit "old") (by decide +kernel) (by decide +kernel)
      (by decide +kernel) (by decide +kernel)

/-- **The only key of a list is not removed.** -/
theorem only_key_refused :
    apiKeys newPy (utf8 (lit "api-keys:\n  - only\n")) = .ok [lit "only"] ∧
      ¬ ∃ updated, removeApiKeyByDigest newPy (utf8 (lit "api-keys:\n  - only\n"))
        (newPy.sha256 (utf8 (lit "only"))) = .ok updated := by
  have hrefused : removeApiKeyByDigest newPy (utf8 (lit "api-keys:\n  - only\n"))
      (newPy.sha256 (utf8 (lit "only"))) =
        .error (runtimeError "gateway api-keys is empty") := by decide +kernel
  refine ⟨by decide +kernel, ?_⟩
  rintro ⟨updated, hok⟩
  rw [hrefused] at hok
  cases hok

end Cloudx.Scripts.KeyRevocation

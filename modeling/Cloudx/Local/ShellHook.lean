import Cloudx.Lib.Blocks
import Cloudx.Python.Lines
import Cloudx.Python.Value
import Mathlib.Data.List.DropRight

/-! # The hook in the shell configuration

`install_shell_hook` leaves the blocks of earlier installers out of `.zshrc` and writes its own block at
the end. A start marker opens a block whether or not an end marker follows, so that one without an end
takes all lines after it along. The lines of the user are kept exactly if every start marker has an end
(`user_lines_kept`); read as the shell reads them, between line feeds, they must also be lines for
`splitlines`, which breaks at other characters too. -/

namespace Cloudx.Local.ShellHook

open Cloudx.Lib.Blocks
open Cloudx.Python.Text Cloudx.Python.Value Cloudx.Python.Dump Cloudx.Python.Decode Cloudx.Python.Lines
open scoped List

/-! ### Installing -/

/-- The lines that start a block. -/
def startMarkers : List Str :=
  [lit "# codexx shell hook start", lit "# cloudx shell hook start", lit "# >>> codexx >>>"]

/-- The lines that end a block. -/
def endMarkers : List Str :=
  [lit "# codexx shell hook end", lit "# cloudx shell hook end", lit "# <<< codexx <<<"]

/-- The line starts a block. -/
def isStart (line : Str) : Bool := strip line ∈ startMarkers

/-- The line ends a block. -/
def isEnd (line : Str) : Bool := strip line ∈ endMarkers

/-- The line is blank. -/
def isBlank (line : Str) : Bool := strip line = []

/-- The lines without the blank ones at the end. -/
def popBlank (lines : List Str) : List Str := lines.rdropWhile isBlank

/-- The block that is written for the hook file with the path `hook`. -/
def blockLines (hook : Str) : List Str :=
  [lit "# cloudx shell hook start", lit "source " ++ hook, lit "# cloudx shell hook end"]

/-- The lines that are written. -/
def newLines (hook : Str) (lines : List Str) : List Str :=
  let filtered := popBlank (kept isStart isEnd false lines)
  (if filtered = [] then [] else filtered ++ [[]]) ++ blockLines hook

/-- `s.rstrip()` -/
def rstrip (s : Str) : Str := s.rdropWhile isSpace

/-- `path.read_text(encoding="utf-8")` of a file with the bytes `raw`. -/
def readText (raw : Bytes) : Except PyError Str :=
  match decodeUtf8 raw with
  | some s => .ok (universalNewlines s)
  | none => .error .value

/-- What `install_shell_hook` writes: the new `.zshrc`, and the copy of the old one if there is one. -/
structure Installed where
  zshrc : Bytes
  backup : Option Bytes
deriving DecidableEq

/-- `install_shell_hook`; `none` if `.zshrc` is not a file. -/
def installShellHook (hook : Str) (zshrc : Option Bytes) : Except PyError Installed := do
  let original ← match zshrc with
    | some raw => readText raw
    | none => .ok []
  let text := rstrip ([10].intercalate (newLines hook (splitlines false original))) ++ [10]
  if encodable text then .ok ⟨utf8 text, zshrc.map fun _ => utf8 original⟩ else .error .unicodeEncode

/-! ### What the user wrote -/

/-- The lines of a text for a shell: what stands between its line feeds. -/
def shellLines (s : Str) : List Str := s.splitOn 10

/-- The lines outside the complete blocks, without the blank ones at their end. -/
def required (lines : List Str) : List Str := popBlank (outside isStart isEnd lines)

/-- Every start marker is followed by an end marker. -/
def Terminated (lines : List Str) : Prop := Balanced isStart isEnd lines

/-- **The configuration is preserved.** The file that is written ends with the block, the only one; before
it are the lines `lines` that stand outside the blocks; and installing again writes the same bytes. -/
def Preserved (lines : List Str) (hook : Str) (result : Bytes) : Prop :=
  ∃ text front, readText result = .ok text ∧ splitlines false text = front ++ blockLines hook ∧
    (∀ line ∈ front, isStart line = false) ∧ required lines <+ front ∧
      (installShellHook hook (some result)).map Installed.zshrc = .ok result

/-! ### The markers -/

theorem markers_disjoint : ∀ marker ∈ startMarkers, marker ∉ endMarkers := by decide

theorem endMarker_noBreak : ∀ marker ∈ endMarkers, NoBreak marker := by
  have h : ∀ marker ∈ endMarkers, ∀ c ∈ marker, c ∉ lineBreaks := by decide
  exact h

theorem endMarker_ne_nil : ∀ marker ∈ endMarkers, marker ≠ [] := by decide

theorem isStart_not_end (line : Str) (h : isStart line) : isEnd line = false :=
  decide_eq_false (markers_disjoint _ (of_decide_eq_true h))

theorem isBlank_not_marker {line : Str} (h : isBlank line) :
    isStart line = false ∧ isEnd line = false := by
  have hnil : strip line = [] := of_decide_eq_true h
  rw [isStart, isEnd, hnil]
  decide

theorem isStart_not_blank {line : Str} (h : isStart line) : isBlank line = false := by
  by_contra hblank
  rw [(isBlank_not_marker (eq_true_of_ne_false hblank)).1] at h
  cases h

/-- The middle line of the block is no marker. -/
theorem source_not_end (hook : Str) : isEnd (lit "source " ++ hook) = false := by
  refine decide_eq_false fun hmem => ?_
  have hstart : ∀ marker ∈ endMarkers, marker.head? = some 35 := by decide
  have hhead : (strip (lit "source" ++ ([32] ++ hook))).head? = some 115 := by
    by_cases hblank : ∀ c ∈ [32] ++ hook, isSpace c = true
    · rw [strip_append_blank hblank]
      decide
    · have hmiddle := @strip_middle (lit "s") ([32] ++ hook) (lit "ource") (by decide) hblank
      rw [show lit "source" = lit "s" ++ lit "ource" from rfl, hmiddle]
      rfl
  have h := hstart _ hmem
  rw [show lit "source " ++ hook = lit "source" ++ ([32] ++ hook) from rfl, hhead] at h
  cases h

/-! ### The text that is written -/

theorem intercalate_fed : ∀ (lines : List Str) (last : Str),
    ([10] : Str).intercalate (lines ++ [last]) = fed lines ++ last
  | [], last => List.intercalate_singleton
  | line :: lines, last => by
    rw [List.cons_append, List.intercalate_cons_of_ne_nil (by simp), intercalate_fed lines last, fed, fed,
      List.flatMap_cons]
    simp

/-- Every line that is written gets a line feed. -/
theorem written_fed (hook : Str) (lines : List Str) :
    rstrip ([10].intercalate (newLines hook lines)) ++ [10] = fed (newLines hook lines) := by
  obtain ⟨front, hfront⟩ : ∃ front, newLines hook lines = front ++ [lit "# cloudx shell hook end"] :=
    ⟨(if popBlank (kept isStart isEnd false lines) = [] then [] else
      popBlank (kept isStart isEnd false lines) ++ [[]]) ++
        [lit "# cloudx shell hook start", lit "source " ++ hook], by
      rw [List.append_assoc]
      rfl⟩
  have hend : lit "# cloudx shell hook end" = lit "# cloudx shell hook en" ++ [100] := rfl
  rw [hfront, intercalate_fed, hend, ← List.append_assoc, rstrip,
    List.rdropWhile_concat_neg isSpace _ 100 (by decide)]
  simp [fed]

/-- The text of `.zshrc`, which may be missing. -/
def contents (zshrc : Option Bytes) : Option Str := decodeUtf8 (zshrc.getD [])

theorem install_eq {hook original : Str} {zshrc : Option Bytes} (h : contents zshrc = some original) :
    installShellHook hook zshrc =
      if encodable (fed (newLines hook (splitlines false original))) then
        .ok ⟨utf8 (fed (newLines hook (splitlines false original))),
          zshrc.map fun _ => utf8 (universalNewlines original)⟩
      else .error .unicodeEncode := by
  unfold installShellHook
  rcases zshrc with _ | raw
  · obtain rfl : [] = original := Option.some.inj h
    simp only [bind, Except.bind]
    rw [written_fed]
    rfl
  · have hread : readText raw = .ok (universalNewlines original) := by
      rw [contents, Option.getD_some] at h
      rw [readText, h]
    simp only [bind, Except.bind, hread]
    rw [splitlines_universal, written_fed]

theorem install_ok {hook original : Str} {zshrc : Option Bytes} {result : Installed}
    (h : contents zshrc = some original) (hok : installShellHook hook zshrc = .ok result) :
    encodable (fed (newLines hook (splitlines false original))) = true ∧
      result.zshrc = utf8 (fed (newLines hook (splitlines false original))) := by
  rw [install_eq h] at hok
  split_ifs at hok with hencodable
  exact ⟨hencodable, congrArg Installed.zshrc (Except.ok.inj hok).symm⟩

/-! ### What is kept -/

/-- The lines before the block. -/
def frontLines (lines : List Str) : List Str :=
  if popBlank (kept isStart isEnd false lines) = [] then []
  else popBlank (kept isStart isEnd false lines) ++ [[]]

theorem newLines_front (hook : Str) (lines : List Str) :
    newLines hook lines = frontLines lines ++ blockLines hook := rfl

theorem popBlank_subset {lines : List Str} {line : Str} (h : line ∈ popBlank lines) : line ∈ lines :=
  (List.rdropWhile_prefix isBlank _).subset h

theorem popBlank_concat (lines : List Str) : popBlank (lines ++ [[]]) = popBlank lines :=
  List.rdropWhile_concat_pos isBlank lines [] rfl

theorem dropWhile_mono {α : Type} (p : α → Bool) {l m : List α} (h : l <+ m) :
    l.dropWhile p <+ m.dropWhile p := by
  induction h with
  | slnil => exact List.Sublist.refl _
  | @cons l m a h ih =>
    rw [List.dropWhile_cons]
    split_ifs
    · exact ih
    · exact ((List.dropWhile_sublist p).trans h).cons a
  | @cons_cons l m a h ih =>
    rw [List.dropWhile_cons, List.dropWhile_cons]
    split_ifs
    · exact ih
    · exact h.cons_cons a

theorem popBlank_mono {l m : List Str} (h : l <+ m) : popBlank l <+ popBlank m :=
  List.reverse_sublist.mpr (dropWhile_mono isBlank (List.reverse_sublist.mpr h))

theorem required_or_blank {lines : List Str} {line : Str} (h : line ∈ outside isStart isEnd lines) :
    line ∈ required lines ∨ isBlank line := by
  have hparts := @List.rdropWhile_append_rtakeWhile _ isBlank (outside isStart isEnd lines)
  rw [← hparts] at h
  exact (List.mem_append.mp h).imp_right List.mem_rtakeWhile_imp

/-- The loop over the pieces of the lines keeps the lines that must be kept, if these are whole. -/
theorem required_kept {lines : List Str} {pieces : Str → List Str} {whole : Str → Bool}
    (hclose : ∀ line, isEnd line → ∀ skipping, after isStart isEnd skipping (pieces line) = false)
    (hwhole : ∀ line, whole line → pieces line = [line])
    (hblank : ∀ line, isBlank line → after isStart isEnd false (pieces line) = false)
    (hterminated : Terminated lines) (hrequired : ∀ line ∈ required lines, whole line) :
    required lines <+ popBlank (kept isStart isEnd false (lines.flatMap pieces)) := by
  have hother : ∀ line ∈ outside isStart isEnd lines, whole line = false →
      after isStart isEnd false (pieces line) = false := by
    intro line hline hnot
    refine hblank line ((required_or_blank hline).resolve_left fun hreq => ?_)
    rw [hrequired line hreq] at hnot
    cases hnot
  have hkept := outside_kept hclose hwhole (fun _ => rfl) hterminated hother
  have hsub : required lines <+ outside isStart isEnd lines :=
    (List.rdropWhile_prefix isBlank _).sublist
  have hfilter : (required lines).filter whole = required lines := List.filter_eq_self.mpr hrequired
  have hpop : popBlank (required lines) = required lines := List.rdropWhile_idempotent isBlank _
  rw [← hpop]
  refine popBlank_mono ?_
  rw [← hfilter]
  exact (hsub.filter whole).trans hkept

theorem popBlank_front (lines : List Str) :
    popBlank (frontLines lines) = popBlank (kept isStart isEnd false lines) := by
  rw [frontLines]
  split_ifs with h
  · rw [h]
    rfl
  · rw [popBlank_concat, popBlank, popBlank, List.rdropWhile_idempotent]

theorem mem_front {lines : List Str} {line : Str} (h : line ∈ frontLines lines) :
    line = [] ∨ line ∈ kept isStart isEnd false lines := by
  rw [frontLines] at h
  split_ifs at h with hnil
  · simp at h
  · rcases List.mem_append.mp h with h | h
    · exact .inr (popBlank_subset h)
    · exact .inl (List.mem_singleton.mp h)

theorem front_not_start {lines : List Str} : ∀ line ∈ frontLines lines, isStart line = false := by
  intro line h
  rcases mem_front h with rfl | h
  · rfl
  · exact kept_not_opens line h

/-- Installing again leaves the lines as they are. -/
theorem newLines_newLines (hook : Str) (lines : List Str) :
    newLines hook (newLines hook lines) = newLines hook lines := by
  have hkept : kept isStart isEnd false (newLines hook lines) = frontLines lines := by
    have hmiddle : ∀ line ∈ [lit "source " ++ hook], isEnd line = false := by
      simp only [List.mem_singleton, forall_eq]
      exact source_not_end hook
    have hblock : kept isStart isEnd false (blockLines hook) = [] :=
      kept_block (by decide) (by decide) (by decide) hmiddle false
    rw [newLines_front, kept_append, kept_plain front_not_start, after_plain front_not_start, hblock,
      List.append_nil]
  rw [newLines_front hook (newLines hook lines), frontLines, hkept, popBlank_front]
  rfl

theorem mem_splitlines {s line : Str} {c : ℕ} (hline : line ∈ splitlines false s) (hc : c ∈ line) :
    c ∈ s := by
  rw [splitlines_false] at hline
  obtain ⟨whole, hwhole, rfl⟩ := List.mem_map.mp hline
  rw [← flatten_splitlines s]
  exact List.mem_flatten.mpr ⟨whole, hwhole, (List.takeWhile_prefix _).subset hc⟩

/-- What is true of the lines of the user, of the blank line and of the block is true of all that is
written. -/
theorem newLines_forall {P : Str → Prop} {hook : Str} {lines : List Str} (hlines : ∀ line ∈ lines, P line)
    (hnil : P []) (hblock : ∀ line ∈ blockLines hook, P line) : ∀ line ∈ newLines hook lines, P line := by
  intro line h
  rcases List.mem_append.mp h with h | h
  · rcases mem_front h with rfl | h
    · exact hnil
    · exact hlines line (kept_sublist.subset h)
  · exact hblock line h

theorem blockLines_noBreak {hook : Str} (h : NoBreak hook) : ∀ line ∈ blockLines hook, NoBreak line := by
  have hstart : NoBreak (lit "# cloudx shell hook start") := by unfold NoBreak; decide
  have hsource : NoBreak (lit "source ") := by unfold NoBreak; decide
  have hend : NoBreak (lit "# cloudx shell hook end") := by unfold NoBreak; decide
  simp only [blockLines, List.mem_cons, List.not_mem_nil, or_false, forall_eq_or_imp, forall_eq]
  exact ⟨hstart, hsource.append h, hend⟩

/-- The file that is written is read back, and its lines are those that were written. -/
theorem written_read {hook original : Str} (hpoints : ∀ c ∈ hook, c < 0x110000)
    (hhook : NoBreak hook) (horiginal : ∀ c ∈ original, c < 0x110000)
    (hencodable : encodable (fed (newLines hook (splitlines false original))) = true) :
    let lines := newLines hook (splitlines false original)
    contents (some (utf8 (fed lines))) = some (fed lines) ∧
      readText (utf8 (fed lines)) = .ok (fed lines) ∧ splitlines false (fed lines) = lines := by
  intro lines
  have hnoBreak : ∀ line ∈ lines, NoBreak line :=
    newLines_forall (fun line h => noBreak_splitlines h) (by simp [NoBreak]) (blockLines_noBreak hhook)
  have hchars : ∀ c ∈ fed lines, c < 0x110000 ∧ c ≠ 13 := by
    have hlines : ∀ line ∈ lines, ∀ c ∈ line, c < 0x110000 := by
      refine newLines_forall (fun line h c hc => horiginal c (mem_splitlines h hc)) (by simp) ?_
      simp only [blockLines, List.mem_cons, List.not_mem_nil, or_false, forall_eq_or_imp, forall_eq]
      refine ⟨by decide, fun c hc => ?_, by decide⟩
      rcases List.mem_append.mp hc with hc | hc
      · have hsource : ∀ c ∈ lit "source ", c < 0x110000 := by decide
        exact hsource c hc
      · exact hpoints c hc
    intro c hc
    obtain ⟨line, hline, hc⟩ := List.mem_flatMap.mp hc
    rcases List.mem_append.mp hc with hc | hc
    · exact ⟨hlines line hline c hc, fun h13 => hnoBreak line hline c hc (h13 ▸ by decide)⟩
    · rw [List.mem_singleton.mp hc]
      decide
  have hdecode : decodeUtf8 (utf8 (fed lines)) = some (fed lines) :=
    decodeUtf8_utf8 (fun c hc => (hchars c hc).1) hencodable
  refine ⟨hdecode, ?_, splitlines_fed hnoBreak⟩
  rw [readText, hdecode]
  exact congrArg Except.ok (universalNewlines_self fun h => (hchars 13 h).2 rfl)

/-! ### The configuration is preserved -/

section

variable {hook original : Str} {zshrc : Option Bytes} {result : Installed}

/-- The lines of the user are in the new file if the loop keeps them. -/
theorem preserved_of {lines : List Str} (hpoints : ∀ c ∈ hook, c < 0x110000)
    (hread : contents zshrc = some original) (hok : installShellHook hook zshrc = .ok result)
    (hhook : NoBreak hook)
    (hlines : required lines <+ popBlank (kept isStart isEnd false (splitlines false original))) :
    Preserved lines hook result.zshrc := by
  obtain ⟨hencodable, hresult⟩ := install_ok hread hok
  obtain ⟨hcontents, htext, hsplit⟩ :=
    written_read hpoints hhook (utf8_decodeUtf8 hread).2.1 hencodable
  rw [hresult]
  refine ⟨_, frontLines (splitlines false original), htext, hsplit, front_not_start, ?_, ?_⟩
  · refine hlines.trans ?_
    rw [frontLines]
    split_ifs with h
    · rw [h]
    · exact List.sublist_append_left _ _
  · rw [install_eq hcontents, hsplit, newLines_newLines, if_pos hencodable]
    rfl

/-- In a preserved configuration the lines of the user are lines for `splitlines`, and no start marker
takes any of them along. -/
theorem Preserved.cond {lines : List Str} {new : Bytes} (h : Preserved lines hook new) :
    NoBreak hook ∧ Terminated lines ∧ ∀ line ∈ required lines, NoBreak line := by
  obtain ⟨text, front, -, hsplit, hfront, hlines, -⟩ := h
  have hnoBreak : ∀ line ∈ front ++ blockLines hook, NoBreak line := by
    rw [← hsplit]
    exact fun line hline => noBreak_splitlines hline
  refine ⟨fun c hc => ?_, ?_, fun line hline => ?_⟩
  · exact hnoBreak (lit "source " ++ hook) (by simp [blockLines]) c (List.mem_append_right _ hc)
  · by_contra hterminated
    obtain ⟨line, hline, hstart⟩ :=
      @opener_outside _ _ _ isStart_not_end false _ (by simp) hterminated
    have hreq : line ∈ required lines :=
      (required_or_blank hline).resolve_right (by rw [isStart_not_blank hstart]; simp)
    rw [hfront line (hlines.subset hreq)] at hstart
    cases hstart
  · exact hnoBreak line (List.mem_append_left _ (hlines.subset hline))

theorem after_single {line : Str} (h : isEnd line) (skipping : Bool) :
    after isStart isEnd skipping [line] = false := by
  have hstart : ¬ isStart line = true := fun hstart => by simp [isStart_not_end line hstart] at h
  cases skipping <;> simp [after, hstart, h]

/-- The pieces of a shell line that ends a block have one that does, and only blank ones around it. -/
theorem after_pieces {line : Str} (h : isEnd line) (skipping : Bool) :
    after isStart isEnd skipping (splitlines false (line ++ [10])) = false := by
  have hmarker : strip line ∈ endMarkers := of_decide_eq_true h
  have hstrip : strip (splitlines true (line ++ [10])).flatten = strip line := by
    rw [flatten_splitlines, strip_append_blank (by decide)]
  obtain ⟨found, hsolid, hfound⟩ := solid_single (endMarker_noBreak _ hmarker)
    (endMarker_ne_nil _ hmarker) (cut_splitlines (line ++ [10])).stacked hstrip
  have hneutral : ∀ {l : List Str}, (∀ a ∈ l, ¬ decide (strip a ≠ []) = true) → ∀ skipping,
      after isStart isEnd skipping l = skipping := by
    intro l hl skipping
    refine after_neutral fun a ha => isBlank_not_marker (decide_eq_true ?_)
    simpa using hl a ha
  rw [solid, ← splitlines_false] at hsolid
  obtain ⟨before, behind, hparts, hbefore, -, hbehind⟩ := List.filter_eq_cons_iff.mp hsolid
  have hend : isEnd found := decide_eq_true (hfound ▸ hmarker)
  rw [hparts, after_append, hneutral hbefore, ← List.singleton_append, after_append,
    after_single hend, hneutral (List.filter_eq_nil_iff.mp hbehind)]

theorem pieces_noBreak {line : Str} (h : NoBreak line) : splitlines false (line ++ [10]) = [line] := by
  have hcut := splitlines_cons false h (.inr ⟨10, by decide, rfl⟩)
    (fun hmeet : Meets [10] [] => absurd hmeet.1 (by decide))
  rw [List.append_nil] at hcut
  exact hcut

theorem pieces_blank {line : Str} (h : isBlank line) :
    after isStart isEnd false (splitlines false (line ++ [10])) = false := by
  refine after_neutral fun piece hpiece => isBlank_not_marker (decide_eq_true ?_)
  have hline : strip line = [] := of_decide_eq_true h
  refine strip_nil_iff.mpr fun c hc => ?_
  rcases List.mem_append.mp (mem_splitlines hpiece hc) with hc | hc
  · exact strip_nil_iff.mp hline c hc
  · rw [List.mem_singleton.mp hc]
    rfl

/-- Cutting at line feeds first keeps the same lines. -/
theorem kept_shellLines (s : Str) :
    popBlank (kept isStart isEnd false
      ((shellLines s).flatMap fun line => splitlines false (line ++ [10]))) =
        popBlank (kept isStart isEnd false (splitlines false s)) := by
  rw [shellLines, ← splitlines_splitOn]
  rcases splitFrom_fed [] s with h | h
  · exact congrArg (fun lines => popBlank (kept isStart isEnd false lines)) h
  · have hlast : ∀ skipping, kept isStart isEnd skipping [[]] = [] ∨
        kept isStart isEnd skipping [[]] = [[]] := by decide
    rw [show splitlines false (s ++ [10]) = splitlines false s ++ [[]] from h, kept_append]
    rcases hlast (after isStart isEnd false (splitlines false s)) with hlast | hlast
    · rw [hlast, List.append_nil]
    · rw [hlast, popBlank_concat]

/-- **The lines of the user are kept exactly if every start marker is followed by an end marker** and the
path of the hook has no line break. For the lines between line feeds the ones that must be kept must also
have no other line break in them. -/
theorem user_lines_kept (hpoints : ∀ c ∈ hook, c < 0x110000) (hread : contents zshrc = some original)
    (hok : installShellHook hook zshrc = .ok result) :
    (Preserved (splitlines false original) hook result.zshrc ↔
      NoBreak hook ∧ Terminated (splitlines false original)) ∧
    (Preserved (shellLines original) hook result.zshrc ↔
      NoBreak hook ∧ Terminated (shellLines original) ∧
        ∀ line ∈ required (shellLines original), NoBreak line) := by
  refine ⟨⟨fun h => ⟨h.cond.1, h.cond.2.1⟩, ?_⟩, ⟨fun h => h.cond, ?_⟩⟩
  · rintro ⟨hhook, hterminated⟩
    refine preserved_of hpoints hread hok hhook ?_
    have hkept := @required_kept (splitlines false original) (fun line => [line]) (fun _ => true)
      (fun line h skipping => after_single h skipping) (fun _ _ => rfl)
      (fun line h => after_neutral fun piece hpiece => by
        rw [List.mem_singleton.mp hpiece]
        exact isBlank_not_marker h) hterminated (fun _ _ => rfl)
    rwa [List.flatMap_singleton'] at hkept
  · rintro ⟨hhook, hterminated, hlines⟩
    refine preserved_of hpoints hread hok hhook ?_
    have hkept := @required_kept (shellLines original) (fun line => splitlines false (line ++ [10]))
      (fun line => line.all fun c => c ∉ lineBreaks) (fun line h skipping => after_pieces h skipping)
      (fun line h => pieces_noBreak fun c hc => by simpa using List.all_eq_true.mp h c hc)
      (fun line h => pieces_blank h) hterminated
      (fun line h => List.all_eq_true.mpr fun c hc => by simpa using hlines line h c hc)
    rwa [kept_shellLines] at hkept

/-- A block as it is written. -/
def exampleBlock : Str :=
  lit "# cloudx shell hook start\nsource /h/shell.zsh\n# cloudx shell hook end\n"

/-- A configuration with the block of an earlier installer. -/
def exampleEarlier : Str := lit "a=1\n# >>> codexx >>>\nb\n# <<< codexx <<<\nc=2\n"

/-- A configuration in which the end of that block is missing. -/
def exampleOpen : Str := lit "# >>> codexx >>>\na=1\n"

/-- The block of an earlier installer is replaced. -/
theorem earlier_block_replaced :
    installShellHook (lit "/h/shell.zsh") (some (utf8 exampleEarlier)) =
      .ok ⟨utf8 (lit "a=1\nc=2\n\n" ++ exampleBlock), some (utf8 exampleEarlier)⟩ ∧
    Preserved (splitlines false exampleEarlier) (lit "/h/shell.zsh")
      (utf8 (lit "a=1\nc=2\n\n" ++ exampleBlock)) :=
  have hok : installShellHook (lit "/h/shell.zsh") (some (utf8 exampleEarlier)) =
      .ok ⟨utf8 (lit "a=1\nc=2\n\n" ++ exampleBlock), some (utf8 exampleEarlier)⟩ := by
    decide +kernel
  ⟨hok, (user_lines_kept (by decide) (by decide) hok).1.mpr
    ⟨by unfold NoBreak; decide, by unfold Terminated; decide +kernel⟩⟩

/-- After a start marker without an end the lines of the user are lost. -/
theorem unterminated_marker_loses_lines :
    installShellHook (lit "/h/shell.zsh") (some (utf8 exampleOpen)) =
      .ok ⟨utf8 exampleBlock, some (utf8 exampleOpen)⟩ ∧
    ¬ Preserved (splitlines false exampleOpen) (lit "/h/shell.zsh") (utf8 exampleBlock) := by
  refine ⟨by decide +kernel, fun h => ?_⟩
  have hterminated : ¬ Terminated (splitlines false exampleOpen) := by
    unfold Terminated
    decide +kernel
  exact hterminated h.cond.2.1

end

end Cloudx.Local.ShellHook

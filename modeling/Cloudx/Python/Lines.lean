import Cloudx.Python.Decode

/-! # Lines

`str.splitlines(keepends=True)` cuts a text into lines: each is a text without a break and then its
break, and only the last may have none. Cutting takes the first break that there is, so that a carriage
return and a line feed of two neighbours would become one break: lines put together are cut in the same
places when no two neighbours meet so (`splitlines_flatten`), and up to blank lines in any case
(`solid_flatten`). -/

namespace Cloudx.Python.Lines

open Cloudx.Python.Text Cloudx.Python.Dump Cloudx.Python.Decode

/-- A text without a line break. -/
def NoBreak (s : Str) : Prop := ∀ c ∈ s, c ∉ lineBreaks

/-- A line break: one character, or a carriage return and a line feed. -/
def IsBreak (s : Str) : Prop := s = [13, 10] ∨ ∃ c ∈ lineBreaks, s = [c]

/-- A line with its break. -/
def Closed (line : Str) : Prop := ∃ body ending, line = body ++ ending ∧ NoBreak body ∧ IsBreak ending

/-- A line, of which the last of a text may have no break. -/
def Line (line : Str) : Prop := Closed line ∨ (line ≠ [] ∧ NoBreak line)

/-- A carriage return at the end of one line, and a line feed at the start of the next. -/
def Meets (a b : Str) : Prop := a.getLast? = some 13 ∧ b.head? = some 10

/-- The lines of a text in the order they stand in. -/
def Cut (lines : List Str) : Prop :=
  (∀ line ∈ lines, Line line) ∧ lines.IsChain fun a b => Closed a ∧ ¬ Meets a b

/-- Lines that may meet. -/
def Stacked (lines : List Str) : Prop :=
  (∀ line ∈ lines, Line line) ∧ lines.IsChain fun a _ => Closed a

/-- The line without its break. -/
def chomp (line : Str) : Str := line.takeWhile fun c => c ∉ lineBreaks

/-! ### One line -/

theorem NoBreak.cons {c : ℕ} {s : Str} (hc : c ∉ lineBreaks) (hs : NoBreak s) : NoBreak (c :: s) :=
  fun d hd => (List.mem_cons.mp hd).elim (fun h => h ▸ hc) (hs d)

theorem NoBreak.concat {c : ℕ} {s : Str} (hs : NoBreak s) (hc : c ∉ lineBreaks) :
    NoBreak (s ++ [c]) :=
  fun d hd => (List.mem_append.mp hd).elim (hs d) fun h => List.mem_singleton.mp h ▸ hc

theorem IsBreak.ne_nil {s : Str} (h : IsBreak s) : s ≠ [] := by
  rcases h with rfl | ⟨c, -, rfl⟩ <;> simp

theorem IsBreak.mem {s : Str} (h : IsBreak s) : ∃ c ∈ s, c ∈ lineBreaks := by
  rcases h with rfl | ⟨c, hc, rfl⟩
  · exact ⟨13, by simp, by decide⟩
  · exact ⟨c, by simp, hc⟩

theorem Closed.ne_nil {line : Str} (h : Closed line) : line ≠ [] := by
  obtain ⟨body, ending, rfl, -, hbreak⟩ := h
  simp [hbreak.ne_nil]

theorem Line.ne_nil {line : Str} (h : Line line) : line ≠ [] := h.elim Closed.ne_nil (·.1)

theorem chomp_noBreak {s : Str} (h : NoBreak s) : chomp s = s :=
  List.takeWhile_eq_self_iff.mpr fun c hc => decide_eq_true (h c hc)

theorem chomp_append {body ending : Str} (h : NoBreak body) (hbreak : IsBreak ending) :
    chomp (body ++ ending) = body := by
  have hhead : ∃ c rest, ending = c :: rest ∧ c ∈ lineBreaks := by
    rcases hbreak with rfl | ⟨c, hc, rfl⟩
    · exact ⟨13, [10], rfl, by decide⟩
    · exact ⟨c, [], rfl, hc⟩
  obtain ⟨c, rest, rfl, hc⟩ := hhead
  rw [chomp, List.takeWhile_append_of_pos fun d hd => decide_eq_true (h d hd),
    List.takeWhile_cons_of_neg (by simpa using hc), List.append_nil]

/-- Every break is a blank. -/
theorem break_isSpace : ∀ c ∈ lineBreaks, isSpace c = true := by decide

theorem ending_isSpace {ending : Str} (h : IsBreak ending) : ∀ c ∈ ending, isSpace c = true := by
  rcases h with rfl | ⟨c, hc, rfl⟩
  · decide
  · exact fun d hd => List.mem_singleton.mp hd ▸ break_isSpace c hc

/-- Blanks at the end do not matter to `strip`. -/
theorem strip_append_blank {s ending : Str} (h : ∀ c ∈ ending, isSpace c = true) :
    strip (s ++ ending) = strip s := by
  have hreverse : ∀ t : Str, (t ++ ending).reverse.dropWhile isSpace = t.reverse.dropWhile isSpace := by
    intro t
    rw [List.reverse_append]
    exact List.dropWhile_append_of_pos fun c hc => h c (List.mem_reverse.mp hc)
  unfold strip
  rw [List.dropWhile_append]
  split_ifs with hblank
  · have hs : s.dropWhile isSpace = [] := by simpa using hblank
    have he : ending.dropWhile isSpace = [] := List.dropWhile_eq_nil_iff.mpr h
    rw [hs, he]
  · rw [hreverse]

theorem strip_blank_append {s t : Str} (h : ∀ c ∈ s, isSpace c = true) : strip (s ++ t) = strip t := by
  rw [strip, List.dropWhile_append_of_pos h, ← strip]

theorem strip_nil_iff {s : Str} : strip s = [] ↔ ∀ c ∈ s, isSpace c = true := by
  rw [strip, List.reverse_eq_nil_iff, List.dropWhile_eq_nil_iff]
  constructor
  · intro h c hc
    by_contra hspace
    have hleft : s.dropWhile isSpace ≠ [] := fun hnil => hspace (List.dropWhile_eq_nil_iff.mp hnil c hc)
    have hhead := List.head_dropWhile_not isSpace hleft
    rw [h _ (List.mem_reverse.mpr (List.head_mem hleft))] at hhead
    cases hhead
  · exact fun h c hc => h c ((List.dropWhile_sublist isSpace).subset (List.mem_reverse.mp hc))

/-- What stands between texts that are not blank is not stripped. -/
theorem strip_middle {s t : Str} (m : Str) (hs : ¬ ∀ c ∈ s, isSpace c = true)
    (ht : ¬ ∀ c ∈ t, isSpace c = true) : strip (s ++ m ++ t) =
      s.dropWhile isSpace ++ m ++ (t.reverse.dropWhile isSpace).reverse := by
  have hleft : (s.dropWhile isSpace).isEmpty = false := by
    rw [List.isEmpty_eq_false_iff]
    exact fun h => hs (List.dropWhile_eq_nil_iff.mp h)
  have hright : (t.reverse.dropWhile isSpace).isEmpty = false := by
    rw [List.isEmpty_eq_false_iff]
    exact fun h => ht fun c hc => List.dropWhile_eq_nil_iff.mp h c (List.mem_reverse.mpr hc)
  rw [strip, List.append_assoc, List.dropWhile_append, hleft, if_neg Bool.false_ne_true,
    List.reverse_append, List.reverse_append, List.append_assoc, List.dropWhile_append, hright,
    if_neg Bool.false_ne_true]
  simp

theorem strip_chomp {line : Str} (h : Line line) : strip (chomp line) = strip line := by
  rcases h with ⟨body, ending, rfl, hbody, hbreak⟩ | ⟨-, hbody⟩
  · rw [chomp_append hbody hbreak, strip_append_blank (ending_isSpace hbreak)]
  · rw [chomp_noBreak hbody]

/-- A text without a break that starts a line is in its body. -/
theorem prefix_closed {name body ending : Str} (hname : NoBreak name) (hbreak : IsBreak ending) :
    name <+: body ++ ending ↔ name <+: body := by
  refine ⟨fun h => ?_, fun h => h.trans (List.prefix_append body ending)⟩
  rcases List.prefix_or_prefix_of_prefix h (List.prefix_append body ending) with hshort | ⟨more, rfl⟩
  · exact hshort
  · rcases more with _ | ⟨c, more⟩
    · rw [List.append_nil]
    · have hmore : c :: more <+: ending := (List.prefix_append_right_inj body).mp h
      have hc : c ∉ lineBreaks := hname c (by simp)
      rcases hbreak with rfl | ⟨d, hd, rfl⟩
      · exact absurd ((List.cons_prefix_cons.mp hmore).1 ▸ by decide) hc
      · exact absurd ((List.cons_prefix_cons.mp hmore).1 ▸ hd) hc

/-! ### Cutting -/

/-- What has no break is read into the line. -/
theorem splitFrom_noBreak (keepends : Bool) : ∀ {body : Str} (line rest : Str), NoBreak body →
    splitFrom keepends line (body ++ rest) = splitFrom keepends (line ++ body) rest
  | [], line, rest, _ => by rw [List.nil_append, List.append_nil]
  | c :: body, line, rest, h => by
    have hc : c ∉ lineBreaks := h c List.mem_cons_self
    have hbody : NoBreak body := fun d hd => h d (List.mem_cons_of_mem _ hd)
    rw [List.cons_append, splitFrom, if_neg hc, splitFrom_noBreak keepends _ _ hbody,
      List.append_assoc, List.singleton_append]
    rintro s rfl
    exact absurd (by decide) hc

/-- The first line of a text. -/
theorem splitlines_cons (keepends : Bool) {body ending rest : Str} (hbody : NoBreak body)
    (hbreak : IsBreak ending) (hmeet : ¬ Meets ending rest) :
    splitlines keepends (body ++ ending ++ rest) =
      (if keepends then body ++ ending else body) :: splitlines keepends rest := by
  rw [splitlines, List.append_assoc, splitFrom_noBreak keepends [] _ hbody, List.nil_append]
  rcases hbreak with rfl | ⟨c, hc, rfl⟩
  · rw [List.cons_append, List.singleton_append, splitFrom]
    rfl
  · rw [List.singleton_append, splitFrom, if_pos hc]
    · rfl
    · rintro s rfl rfl
      exact hmeet ⟨rfl, rfl⟩

theorem splitlines_noBreak (keepends : Bool) {body : Str} (hbody : NoBreak body) (hne : body ≠ []) :
    splitlines keepends body = [body] := by
  have hsplit := splitFrom_noBreak keepends [] [] hbody
  rw [List.append_nil, List.nil_append] at hsplit
  rw [splitlines, hsplit, splitFrom, if_neg hne]

/-- **The lines of a text.** Without their breaks they are what `splitlines()` returns. -/
theorem splitFrom_spec (line s : Str) (hline : NoBreak line) :
    Cut (splitFrom true line s) ∧ (splitFrom true line s).flatten = line ++ s ∧
      splitFrom false line s = (splitFrom true line s).map chomp := by
  induction line, s using splitFrom.induct with
  | case1 =>
    rw [splitFrom, splitFrom, if_pos rfl]
    exact ⟨⟨by simp, List.isChain_nil⟩, rfl, rfl⟩
  | case2 line hne =>
    rw [splitFrom, splitFrom, if_neg hne]
    refine ⟨⟨?_, List.isChain_singleton _⟩, by simp, ?_⟩
    · intro l hl
      rw [List.mem_singleton.mp hl]
      exact .inr ⟨hne, hline⟩
    · rw [List.map_singleton, chomp_noBreak hline]
  | case3 line s ih =>
    obtain ⟨⟨hlines, hchain⟩, hflat, hfalse⟩ := ih (by simp [NoBreak])
    have hbreak : IsBreak [13, 10] := .inl rfl
    have hclosed : Closed (line ++ [13, 10]) := ⟨line, [13, 10], rfl, hline, hbreak⟩
    rw [splitFrom, splitFrom, if_pos rfl, if_neg (by decide)]
    refine ⟨⟨?_, ?_⟩, ?_, ?_⟩
    · exact List.forall_mem_cons.mpr ⟨.inl hclosed, hlines⟩
    · refine List.isChain_cons.mpr ⟨fun b _ => ⟨hclosed, fun hmeet => ?_⟩, hchain⟩
      rw [Meets, List.getLast?_append] at hmeet
      exact absurd hmeet.1 (by simp)
    · rw [List.flatten_cons, hflat]
      simp
    · rw [List.map_cons, chomp_append hline hbreak, hfalse]
  | case4 line c s hpair hc ih =>
    obtain ⟨⟨hlines, hchain⟩, hflat, hfalse⟩ := ih (by simp [NoBreak])
    have hbreak : IsBreak [c] := .inr ⟨c, hc, rfl⟩
    have hclosed : Closed (line ++ [c]) := ⟨line, [c], rfl, hline, hbreak⟩
    rw [splitFrom, splitFrom, if_pos hc, if_pos hc, if_pos rfl, if_neg (by decide)]
    · refine ⟨⟨?_, ?_⟩, ?_, ?_⟩
      · exact List.forall_mem_cons.mpr ⟨.inl hclosed, hlines⟩
      · refine List.isChain_cons.mpr ⟨fun b hb => ⟨hclosed, fun hmeet => ?_⟩, hchain⟩
        -- the next line starts with what comes after the break
        obtain ⟨rest, hrest⟩ : ∃ rest, splitFrom true [] s = b :: rest :=
          List.head?_eq_some_iff.mp hb
        obtain ⟨d, hd⟩ : ∃ d, b = 10 :: d := List.head?_eq_some_iff.mp hmeet.2
        have hc13 : c = 13 := by simpa [Meets] using hmeet.1
        rw [hrest, hd, List.flatten_cons, List.nil_append, List.cons_append] at hflat
        exact hpair _ hc13 hflat.symm
      · rw [List.flatten_cons, hflat]
        simp
      · rw [List.map_cons, chomp_append hline hbreak, hfalse]
    · exact hpair
    · exact hpair
  | case5 line c s hpair hc ih =>
    rw [splitFrom, splitFrom, if_neg hc, if_neg hc]
    · obtain ⟨hcut, hflat, hfalse⟩ := ih (hline.concat hc)
      refine ⟨hcut, ?_, hfalse⟩
      rw [hflat, List.append_assoc, List.singleton_append]
    · exact hpair
    · exact hpair

theorem cut_splitlines (s : Str) : Cut (splitlines true s) :=
  (splitFrom_spec [] s (by simp [NoBreak])).1

theorem flatten_splitlines (s : Str) : (splitlines true s).flatten = s :=
  (splitFrom_spec [] s (by simp [NoBreak])).2.1

theorem splitlines_false (s : Str) : splitlines false s = (splitlines true s).map chomp :=
  (splitFrom_spec [] s (by simp [NoBreak])).2.2

/-! ### Putting lines together -/

/-- The break of a line and the first line after it. -/
theorem meets_flatten {a : Str} {lines : List Str} (hne : ∀ line ∈ lines, line ≠ []) :
    Meets a lines.flatten ↔ ∃ b ∈ lines.head?, Meets a b := by
  rcases lines with _ | ⟨b, lines⟩
  · simp [Meets]
  · obtain ⟨c, rest, rfl⟩ := List.exists_cons_of_ne_nil (hne b List.mem_cons_self)
    simp [Meets]

theorem meets_append {a ending : Str} (hending : ending ≠ []) {b : Str} :
    Meets (a ++ ending) b ↔ Meets ending b := by
  obtain ⟨front, c, rfl⟩ := (List.eq_nil_or_concat' ending).resolve_left hending
  rw [Meets, Meets, ← List.append_assoc, List.getLast?_concat, List.getLast?_concat]

theorem Cut.tail {line : Str} {lines : List Str} (h : Cut (line :: lines)) : Cut lines :=
  ⟨fun l hl => h.1 l (List.mem_cons_of_mem _ hl), h.2.tail⟩

theorem Stacked.tail {line : Str} {lines : List Str} (h : Stacked (line :: lines)) : Stacked lines :=
  ⟨fun l hl => h.1 l (List.mem_cons_of_mem _ hl), h.2.tail⟩

theorem Cut.stacked {lines : List Str} (h : Cut lines) : Stacked lines :=
  ⟨h.1, h.2.imp fun _ _ hab => hab.1⟩

/-- **Lines of which no two meet are cut where they were put together.** -/
theorem splitlines_flatten : ∀ {lines : List Str}, Cut lines → splitlines true lines.flatten = lines
  | [], _ => rfl
  | line :: lines, h => by
    have ih := splitlines_flatten h.tail
    rw [List.flatten_cons]
    rcases h.1 line List.mem_cons_self with ⟨body, ending, rfl, hbody, hbreak⟩ | ⟨hne, hbody⟩
    · have hmeet : ¬ Meets ending lines.flatten := by
        rw [meets_flatten fun l hl => (h.tail.1 l hl).ne_nil]
        rintro ⟨b, hb, hmeet⟩
        have hnot := (List.isChain_cons.mp h.2).1 b hb
        exact hnot.2 ((meets_append hbreak.ne_nil).mpr hmeet)
      rw [splitlines_cons true hbody hbreak hmeet, ih]
      rfl
    · -- a line without a break is the last one
      rcases lines with _ | ⟨b, lines⟩
      · rw [List.flatten_nil, List.append_nil, splitlines_noBreak true hbody hne]
      · obtain ⟨body, ending, rfl, -, hbreak⟩ := ((List.isChain_cons.mp h.2).1 b rfl).1
        rcases hbreak with rfl | ⟨c, hc, rfl⟩
        · exact absurd (by decide) (hbody 13 (by simp))
        · exact absurd hc (hbody c (by simp))

/-- The lines that are not blank, without their breaks. -/
def solid (lines : List Str) : List Str := (lines.map chomp).filter fun line => strip line ≠ []

theorem solid_append (a b : List Str) : solid (a ++ b) = solid a ++ solid b := by
  rw [solid, List.map_append, List.filter_append]
  rfl

theorem solid_cons (a : Str) (b : List Str) : solid (a :: b) = solid [a] ++ solid b :=
  solid_append [a] b

/-- Without their breaks, lines with one body are the same. -/
theorem solid_congr {a b : Str} (h : chomp a = chomp b) (lines : List Str) :
    solid (a :: lines) = solid (b :: lines) := by
  rw [solid, List.map_cons, h, ← List.map_cons]
  rfl

/-- **Lines that meet lose no more than a blank line.** -/
theorem solid_flatten : ∀ {lines : List Str}, Stacked lines →
    solid (splitlines true lines.flatten) = solid lines
  | [], _ => rfl
  | line :: lines, h => by
    rcases h.1 line List.mem_cons_self with ⟨body, ending, rfl, hbody, hbreak⟩ | ⟨hne, hbody⟩
    · by_cases hmeet : Meets ending lines.flatten
      · -- the next line is a line feed, which the carriage return takes in
        obtain ⟨b, hb, hnext⟩ := (meets_flatten fun l hl => (h.tail.1 l hl).ne_nil).mp hmeet
        obtain ⟨rest, rfl⟩ : ∃ rest, lines = b :: rest := List.head?_eq_some_iff.mp hb
        obtain ⟨more, rfl⟩ : ∃ more, b = 10 :: more := List.head?_eq_some_iff.mp hnext.2
        obtain rfl : more = [] := by
          rcases h.1 (10 :: more) (by simp) with ⟨b', e', he, hb', hbreak'⟩ | ⟨-, hno⟩
          · rcases b' with _ | ⟨c, b'⟩
            · rcases hbreak' with rfl | ⟨c, -, rfl⟩
              · exact absurd he (by simp)
              · exact (List.cons.inj he).2
            · obtain rfl : 10 = c := (List.cons.inj he).1
              exact absurd (by decide) (hb' 10 List.mem_cons_self)
          · exact absurd (by decide) (hno 10 List.mem_cons_self)
        obtain rfl : ending = [13] := by
          rcases hbreak with rfl | ⟨c, -, rfl⟩
          · exact absurd hnext.1 (by decide)
          · rw [show c = 13 by simpa [Meets] using hnext.1]
        have hpair : IsBreak [13, 10] := .inl rfl
        have hnot : ¬ Meets [13, 10] rest.flatten := fun hm => absurd hm.1 (by decide)
        have hflat : (body ++ [13]) ++ ([10] ++ rest.flatten) = body ++ [13, 10] ++ rest.flatten := by
          simp
        have ih := solid_flatten h.tail.tail
        have hblank : solid (([10] : Str) :: rest) = solid rest := rfl
        rw [List.flatten_cons, List.flatten_cons, hflat, splitlines_cons true hbody hpair hnot, if_pos rfl,
          solid_cons, ih, solid_cons (body ++ [13]), hblank]
        congr 1
        exact solid_congr (by
          rw [chomp_append hbody hpair, chomp_append hbody (.inr ⟨13, by decide, rfl⟩)]) []
      · rw [List.flatten_cons, splitlines_cons true hbody hbreak hmeet, if_pos rfl, solid_cons,
          solid_flatten h.tail, ← solid_cons]
    · rcases lines with _ | ⟨b, lines⟩
      · rw [List.flatten_singleton, splitlines_noBreak true hbody hne]
      · obtain ⟨body, ending, rfl, -, hbreak⟩ := (List.isChain_cons.mp h.2).1 b rfl
        rcases hbreak with rfl | ⟨c, hc, rfl⟩
        · exact absurd (by decide) (hbody 13 (by simp))
        · exact absurd hc (hbody c (by simp))

/-! ### Changing lines -/

/-- A line goes in after a closed one, if it meets neither neighbour. -/
theorem Cut.insert {before after : List Str} {line : Str} (h : Cut (before ++ after))
    (hlast : ∀ a ∈ before.getLast?, Closed a ∧ ¬ Meets a line) (hline : Closed line)
    (hfirst : ∀ b ∈ after.head?, ¬ Meets line b) : Cut (before ++ line :: after) := by
  obtain ⟨hlines, hchain⟩ := h
  rw [List.isChain_append] at hchain
  refine ⟨?_, ?_⟩
  · intro l hl
    rcases List.mem_append.mp hl with hl | hl
    · exact hlines l (List.mem_append_left _ hl)
    · rcases List.mem_cons.mp hl with rfl | hl
      · exact .inl hline
      · exact hlines l (List.mem_append_right _ hl)
  · rw [List.isChain_append]
    refine ⟨hchain.1, List.isChain_cons.mpr ⟨fun b hb => ⟨hline, hfirst b hb⟩, hchain.2.1⟩, ?_⟩
    intro a ha b hb
    obtain rfl : line = b := by simpa using hb
    exact hlast a ha

/-- A line can be taken out. -/
theorem Cut.remove {before after : List Str} {line : Str} (h : Cut (before ++ line :: after)) :
    Stacked (before ++ after) := by
  obtain ⟨hlines, hchain⟩ := h.stacked
  rw [List.isChain_append, List.isChain_cons] at hchain
  refine ⟨fun l hl => hlines l ?_, ?_⟩
  · rcases List.mem_append.mp hl with hl | hl
    · exact List.mem_append_left _ hl
    · exact List.mem_append_right _ (List.mem_cons_of_mem _ hl)
  · rw [List.isChain_append]
    exact ⟨hchain.1, hchain.2.1.2, fun a ha b _ => hchain.2.2 a ha line rfl⟩

/-! ### Line feeds -/

/-- The text as `open` reads it: every carriage return, with the line feed after it, is a line feed. -/
def universalNewlines : Str → Str
  | [] => []
  | 13 :: 10 :: s => 10 :: universalNewlines s
  | c :: s => (if c = 13 then 10 else c) :: universalNewlines s

/-- Lines with a line feed after each. -/
def fed (lines : List Str) : Str := lines.flatMap fun line => line ++ [10]

theorem NoBreak.append {s t : Str} (hs : NoBreak s) (ht : NoBreak t) : NoBreak (s ++ t) :=
  fun c hc => (List.mem_append.mp hc).elim (hs c) (ht c)

theorem noBreak_splitlines {s line : Str} (h : line ∈ splitlines false s) : NoBreak line := by
  rw [splitlines_false] at h
  obtain ⟨whole, -, rfl⟩ := List.mem_map.mp h
  exact fun c hc => by simpa using List.mem_takeWhile_imp hc

theorem splitFrom_universal (line s : Str) :
    splitFrom false line (universalNewlines s) = splitFrom false line s := by
  induction line, s using splitFrom.induct with
  | case1 | case2 => rfl
  | case3 line s ih =>
    show line :: splitFrom false [] (universalNewlines s) = line :: splitFrom false [] s
    rw [ih]
  | case4 line c s hpair hc ih =>
    have hread : universalNewlines (c :: s) = (if c = 13 then 10 else c) :: universalNewlines s := by
      rw [universalNewlines]
      exact hpair
    have hbreak : (if c = 13 then 10 else c) ∈ lineBreaks := by
      split_ifs
      · decide
      · exact hc
    rw [hread, splitFrom, splitFrom, if_pos hbreak, if_pos hc, if_neg (by simp), if_neg (by simp), ih]
    · exact hpair
    · intro t h13
      by_cases hcr : c = 13
      · rw [if_pos hcr] at h13
        cases h13
      · rw [if_neg hcr] at h13
        exact absurd h13 hcr
  | case5 line c s hpair hc ih =>
    have h13 : c ≠ 13 := fun h => hc (h ▸ by decide)
    have hread : universalNewlines (c :: s) = c :: universalNewlines s := by
      rw [universalNewlines, if_neg h13]
      exact hpair
    rw [hread, splitFrom, splitFrom, if_neg hc, if_neg hc, ih]
    · exact hpair
    · exact fun t h => absurd h h13

/-- Reading all line ends as line feeds leaves the lines as they are. -/
theorem splitlines_universal (s : Str) : splitlines false (universalNewlines s) = splitlines false s :=
  splitFrom_universal [] s

theorem universalNewlines_self : ∀ {s : Str}, 13 ∉ s → universalNewlines s = s
  | [], _ => rfl
  | c :: s, h => by
    rw [List.mem_cons, not_or] at h
    rw [universalNewlines, if_neg (Ne.symm h.1), universalNewlines_self h.2]
    exact fun t hc => absurd hc.symm h.1

/-- A line feed ends a line, whatever follows. -/
theorem splitFrom_feed (line s rest : Str) : splitFrom false line (s ++ 10 :: rest) =
    splitFrom false line (s ++ [10]) ++ splitFrom false [] rest := by
  induction line, s using splitFrom.induct with
  | case1 | case2 => simp [splitFrom, lineBreaks]
  | case3 line s ih =>
    show line :: splitFrom false [] (s ++ 10 :: rest) =
      line :: splitFrom false [] (s ++ [10]) ++ splitFrom false [] rest
    rw [ih, List.cons_append]
  | case4 line c s hpair hc ih =>
    by_cases hlast : c = 13 ∧ s = []
    · obtain ⟨rfl, rfl⟩ := hlast
      simp [splitFrom]
    · have hnot : ∀ more : Str, ∀ t, c = 13 → s ++ 10 :: more = 10 :: t → False := by
        rintro more t rfl ht
        rcases s with _ | ⟨d, s⟩
        · exact hlast ⟨rfl, rfl⟩
        · exact hpair s rfl (by rw [(List.cons.inj ht).1])
      rw [List.cons_append, List.cons_append, splitFrom, splitFrom, if_pos hc, if_pos hc, ih]
      · rfl
      · exact hnot []
      · exact hnot rest
  | case5 line c s hpair hc ih =>
    have h13 : c ≠ 13 := fun h => hc (h ▸ by decide)
    rw [List.cons_append, List.cons_append, splitFrom, splitFrom, if_neg hc, if_neg hc, ih]
    · exact fun t h => absurd h h13
    · exact fun t h => absurd h h13

/-- A line feed at the end adds a blank line or nothing. -/
theorem splitFrom_fed (line s : Str) : splitFrom false line (s ++ [10]) = splitFrom false line s ∨
    splitFrom false line (s ++ [10]) = splitFrom false line s ++ [[]] := by
  induction line, s using splitFrom.induct with
  | case1 => exact .inr rfl
  | case2 line hne => simp [splitFrom, lineBreaks, hne]
  | case3 line s ih =>
    show line :: splitFrom false [] (s ++ [10]) = line :: splitFrom false [] s ∨
      line :: splitFrom false [] (s ++ [10]) = line :: splitFrom false [] s ++ [[]]
    rcases ih with ih | ih
    · exact .inl (by rw [ih])
    · exact .inr (by rw [ih, List.cons_append])
  | case4 line c s hpair hc ih =>
    by_cases hlast : c = 13 ∧ s = []
    · obtain ⟨rfl, rfl⟩ := hlast
      simp [splitFrom, lineBreaks]
    · have hnot : ∀ t, c = 13 → s ++ [10] = 10 :: t → False := by
        rintro t rfl ht
        rcases s with _ | ⟨d, s⟩
        · exact hlast ⟨rfl, rfl⟩
        · exact hpair s rfl (by rw [(List.cons.inj ht).1])
      rw [List.cons_append, splitFrom, splitFrom, if_pos hc, if_pos hc, if_neg (by simp)]
      · rcases ih with ih | ih
        · exact .inl (by rw [ih])
        · exact .inr (by rw [ih, List.cons_append])
      · exact hpair
      · exact hnot
  | case5 line c s hpair hc ih =>
    have h13 : c ≠ 13 := fun h => hc (h ▸ by decide)
    rw [List.cons_append, splitFrom, splitFrom, if_neg hc, if_neg hc]
    · exact ih
    · exact hpair
    · exact fun t h => absurd h h13

/-- The lines of a text are those of the pieces between its line feeds. -/
theorem splitlines_splitOn (s : Str) : splitlines false (s ++ [10]) =
    (s.splitOn 10).flatMap fun piece => splitlines false (piece ++ [10]) := by
  by_cases h : 10 ∈ s
  · obtain ⟨piece, rest, rfl, hpiece⟩ := List.eq_append_cons_of_mem h
    have hless : rest.length < (piece ++ 10 :: rest).length := by simp; omega
    have ih := splitlines_splitOn rest
    have hcut := splitFrom_feed [] piece (rest ++ [10])
    rw [List.splitOn_append_cons_self_of_not_mem hpiece, List.flatMap_cons, ← ih, List.append_assoc,
      List.cons_append]
    exact hcut
  · rw [List.splitOn_eq_singleton h, List.flatMap_singleton]
termination_by s.length

/-- Lines without breaks are cut where their line feeds are. -/
theorem splitlines_fed : ∀ {lines : List Str}, (∀ line ∈ lines, NoBreak line) →
    splitlines false (fed lines) = lines
  | [], _ => rfl
  | line :: lines, h => by
    have hcut := splitlines_cons false (h line List.mem_cons_self) (.inr ⟨10, by decide, rfl⟩)
      (fun hmeet : Meets [10] (fed lines) => absurd hmeet.1 (by decide))
    have ih := splitlines_fed fun l hl => h l (List.mem_cons_of_mem _ hl)
    rw [fed, List.flatMap_cons]
    rw [ih] at hcut
    exact hcut

/-- A text that has no break but at its ends has one line that is not blank. -/
theorem solid_single {m : Str} (hm : NoBreak m) (hne : m ≠ []) : ∀ {lines : List Str},
    Stacked lines → strip lines.flatten = m → ∃ line, solid lines = [line] ∧ strip line = m
  | [], _, h => absurd h.symm hne
  | line :: lines, hlines, h => by
    rw [List.flatten_cons] at h
    have hline := hlines.1 line List.mem_cons_self
    by_cases hblank : strip line = []
    · obtain ⟨found, hsolid, hfound⟩ := solid_single hm hne hlines.tail
        (by rw [← h, strip_blank_append (strip_nil_iff.mp hblank)])
      have hnone : solid [line] = [] := by simp [solid, strip_chomp hline, hblank]
      exact ⟨found, by rw [solid_cons, hnone, List.nil_append, hsolid], hfound⟩
    · have hrest : ∀ c ∈ lines.flatten, isSpace c = true := by
        by_contra hrest
        -- the break of the line would stand in the middle of the text
        rcases lines with _ | ⟨next, more⟩
        · exact hrest (by simp)
        · obtain ⟨body, ending, rfl, -, hbreak⟩ := ((List.isChain_cons.mp hlines.2).1 next rfl)
          have hbody : ¬ ∀ c ∈ body, isSpace c = true := by
            rw [strip_append_blank (ending_isSpace hbreak)] at hblank
            exact fun hbody => hblank (strip_nil_iff.mpr hbody)
          rw [strip_middle ending hbody hrest] at h
          obtain ⟨c, hc, hbreaks⟩ := hbreak.mem
          exact hm c (by rw [← h]; simp [hc]) hbreaks
      have hsolid : solid lines = [] := by
        refine List.filter_eq_nil_iff.mpr fun l hl => ?_
        obtain ⟨whole, hwhole, rfl⟩ := List.mem_map.mp hl
        have hspaces : strip whole = [] :=
          strip_nil_iff.mpr fun c hc => hrest c (List.mem_flatten.mpr ⟨whole, hwhole, hc⟩)
        simp [strip_chomp (hlines.tail.1 whole hwhole), hspaces]
      rw [strip_append_blank hrest] at h
      refine ⟨chomp line, ?_, by rw [strip_chomp hline, h]⟩
      rw [solid_cons, hsolid, List.append_nil, solid, List.map_singleton, List.filter_singleton,
        strip_chomp hline]
      simp [hblank]

/-! ### Joining lines again -/

/-- The text with a line feed for every line break. -/
def feeds : Str → Str
  | [] => []
  | 13 :: 10 :: s => 10 :: feeds s
  | c :: s => (if c ∈ lineBreaks then 10 else c) :: feeds s

theorem splitFrom_ne_nil (line : Str) {s : Str} (h : line ≠ [] ∨ s ≠ []) :
    splitFrom false line s ≠ [] := by
  induction line, s using splitFrom.induct with
  | case1 => exact absurd rfl (h.resolve_left (by simp))
  | case2 line hline => simp [splitFrom, hline]
  | case3 line s ih => simp [splitFrom]
  | case4 line c s hpair hc ih => rw [splitFrom, if_pos hc]; simp; exact hpair
  | case5 line c s hpair hc ih =>
    rw [splitFrom, if_neg hc]
    · exact ih (.inl (by simp))
    · exact hpair

theorem join_splitFrom (line s : Str) (h : ∀ c, s.getLast? = some c → c ∉ lineBreaks) :
    [10].intercalate (splitFrom false line s) = line ++ feeds s := by
  induction line, s using splitFrom.induct with
  | case1 => rfl
  | case2 line hline => simp [splitFrom, hline, feeds]
  | case3 line s ih =>
    have hne : s ≠ [] := by
      rintro rfl
      exact h 10 rfl (by decide)
    have hlast : ∀ c, s.getLast? = some c → c ∉ lineBreaks := fun c hc =>
      h c (by rw [List.getLast?_cons_cons, List.getLast?_cons_of_ne_nil hne, hc])
    have hcut : splitFrom false line (13 :: 10 :: s) = line :: splitFrom false [] s := rfl
    have hfeeds : feeds (13 :: 10 :: s) = 10 :: feeds s := rfl
    rw [hcut, hfeeds, List.intercalate_cons_of_ne_nil (splitFrom_ne_nil [] (.inr hne)), ih hlast]
    simp
  | case4 line c s hpair hc ih =>
    have hne : s ≠ [] := by
      rintro rfl
      exact h c rfl hc
    have hlast : ∀ d, s.getLast? = some d → d ∉ lineBreaks := fun d hd =>
      h d (by rw [List.getLast?_cons_of_ne_nil hne, hd])
    have hfeeds : feeds (c :: s) = 10 :: feeds s := by
      rw [feeds, if_pos hc]
      exact hpair
    rw [splitFrom, if_pos hc, if_neg (by simp), hfeeds,
      List.intercalate_cons_of_ne_nil (splitFrom_ne_nil [] (.inr hne)), ih hlast]
    · simp
    · exact hpair
  | case5 line c s hpair hc ih =>
    have hlast : ∀ d, s.getLast? = some d → d ∉ lineBreaks := by
      intro d hd
      refine h d ?_
      rw [List.getLast?_cons, hd]
      rfl
    have hfeeds : feeds (c :: s) = c :: feeds s := by
      rw [feeds, if_neg hc]
      exact hpair
    rw [splitFrom, if_neg hc, ih hlast, hfeeds]
    · simp
    · exact hpair

/-- **Joining the lines of a text** that does not end with a break gives the text with line feeds. -/
theorem join_splitlines {s : Str} (h : ∀ c, s.getLast? = some c → c ∉ lineBreaks) :
    [10].intercalate (splitlines false s) = feeds s := join_splitFrom [] s h

theorem feeds_noBreak : ∀ {s : Str}, NoBreak s → feeds s = s
  | [], _ => rfl
  | c :: s, h => by
    have hc : c ∉ lineBreaks := h c List.mem_cons_self
    rw [feeds, if_neg hc, feeds_noBreak fun d hd => h d (List.mem_cons_of_mem _ hd)]
    rintro t rfl
    exact absurd (show 13 ∈ lineBreaks by decide) hc

theorem feeds_append {a b : Str} (h : ¬ Meets a b) : feeds (a ++ b) = feeds a ++ feeds b := by
  induction a using feeds.induct with
  | case1 => rfl
  | case2 a ih =>
    have hmeets : ¬ Meets a b := fun hm => h ⟨by
      have hne : a ≠ [] := by
        rintro rfl
        cases hm.1
      rw [List.getLast?_cons_cons, List.getLast?_cons_of_ne_nil hne, hm.1], hm.2⟩
    exact congrArg (10 :: ·) (ih hmeets)
  | case3 c a hpair ih =>
    have hmeets : ¬ Meets a b := fun hm => h ⟨by
      have hne : a ≠ [] := by
        rintro rfl
        cases hm.1
      rw [List.getLast?_cons_of_ne_nil hne, hm.1], hm.2⟩
    rw [List.cons_append, feeds, feeds, ih hmeets]
    · rfl
    · exact hpair
    · intro t hc ht
      rcases a with _ | ⟨d, a⟩
      · exact h ⟨by rw [hc]; rfl, by rw [show b = 10 :: t from ht]; rfl⟩
      · rw [List.cons_append] at ht
        obtain ⟨rfl, -⟩ := List.cons.inj ht
        exact hpair a hc rfl

end Cloudx.Python.Lines

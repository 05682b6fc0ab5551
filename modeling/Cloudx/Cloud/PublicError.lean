import Cloudx.Cloud.PublicMetadata
import Cloudx.Python.Words

/-! # Public errors

`sanitize_public_error` takes the control characters out of a message, puts single spaces between its
words, refuses it if one of three patterns matches, and cuts it. What it returns is short and is not
changed by a second call. The patterns look for a path at the start of a text and after a blank, a
quotation mark or `=` only: a path into a home directory after another character is shown
(`sanitized_safe_iff`). -/

namespace Cloudx.Cloud.PublicError

open Cloudx.Python.Text Cloudx.Python.Lines Cloudx.Python.Words Cloudx.Cloud.PublicMetadata

/-! ### The function -/

/-- `_CONTROL` -/
def isControl (c : ℕ) : Bool := c ≤ 8 || c == 11 || c == 12 || (14 ≤ c && c ≤ 31) || c == 127

/-- `[\s"'=]` -/
def isAnchor (c : ℕ) : Bool := isSpace c || c ∈ lit "\"'="

/-- `[^/\s"']` -/
def isPlain (c : ℕ) : Bool := !(c == 47 || isSpace c || c ∈ lit "\"'")

/-- `/(?:[^/\s"']+/)+[^\s"']*` -/
def absolutePathAt (s : Str) : Bool :=
  s.head? = some 47 && s.tail.takeWhile isPlain ≠ [] && (s.tail.dropWhile isPlain).head? = some 47

/-- A pattern is searched for in the text after the character `before`. -/
def search (found : Option ℕ → Str → Bool) : Option ℕ → Str → Bool
  | _, [] => false
  | before, c :: s => found before (c :: s) || search found (some c) s

/-- At the start, or after a blank, a quotation mark or `=`. -/
def anchored (found : Str → Bool) (before : Option ℕ) (s : Str) : Bool :=
  (before.map isAnchor).getD true && found s

/-- `_ABSOLUTE_PATH.search` -/
def absolutePath (s : Str) : Bool := search (anchored absolutePathAt) none s

variable (isWord : ℕ → Bool)

/-- One of the three patterns matches. -/
def refused (message : Str) : Bool :=
  forbiddenAssignment isWord none message || localUserPath none message || absolutePath message

/-- The message without control characters, with single spaces between its words. -/
def tidied (text : Str) : Str := collapse (strip (text.filter fun c => !isControl c))

/-- The text for a message that is refused. -/
def refusedText : Str := lit "request failed without exposing prohibited Phi metadata"

/-- The text for a message that is empty. -/
def emptyText : Str := lit "request failed without a reported reason"

/-- `message[:297].rstrip() + "..."` for a message of more than 300 characters. -/
def shortened (message : Str) : Str :=
  if message.length > 300 then (message.take 297).rdropWhile isSpace ++ lit "..." else message

/-- `sanitize_public_error`, of `text = str(error or "")`. -/
def sanitizePublicError (text : Str) : Str :=
  let message := tidied text
  if refused isWord message then refusedText
  else if shortened message = [] then emptyText else shortened message

/-! ### What a text reveals -/

/-- `/Users/` or `/home/`, in any letter case. -/
def homeAt (s : Str) : Bool := [lit "/users/", lit "/home/"].any (startsLike · s)

/-- A directory of a user stands in the text. -/
def reveals (s : Str) : Bool := search (fun _ s => homeAt s) none s

/-- A directory of a user stands in the text right after a character that is no blank, no quotation mark
and no `=`. -/
def hidden (s : Str) : Bool :=
  search (fun before s => (before.map fun c => !isAnchor c).getD false && homeAt s) none s

/-- The characters of a message that can be shown. -/
def shownPart (message : Str) : Str := if message.length > 300 then message.take 297 else message

/-- What the text of an error is to be. -/
structure Safe (text : Str) : Prop where
  nonempty : sanitizePublicError isWord text ≠ []
  short : (sanitizePublicError isWord text).length ≤ 300
  printable : ∀ c ∈ sanitizePublicError isWord text, isControl c = false
  fixed : sanitizePublicError isWord (sanitizePublicError isWord text) = sanitizePublicError isWord text
  hides : reveals (sanitizePublicError isWord text) = false

/-! ### Searching a text that goes on -/

variable {isWord} {found other : Option ℕ → Str → Bool}

theorem search_none (h : ∀ before s, found before s = false) : ∀ {before : Option ℕ} {s : Str},
    search found before s = false
  | _, [] => rfl
  | before, c :: s => by rw [search, h, search_none h, Bool.or_false]

theorem search_or : ∀ {before : Option ℕ} {s : Str},
    search (fun before s => found before s || other before s) before s =
      (search found before s || search other before s)
  | _, [] => rfl
  | before, c :: s => by
    simp only [search, search_or]
    ac_rfl

/-- What is found before the end of a text is found however the text goes on. -/
theorem search_append {ending more : Str}
    (hstep : ∀ before q, q ≠ [] → found before (q ++ ending) = true → other before (q ++ more) = true)
    (hending : ∀ before, search found before ending = false) : ∀ {q : Str} {before : Option ℕ},
      search found before (q ++ ending) = true → search other before (q ++ more) = true
  | [], before, h => by rw [List.nil_append, hending] at h; cases h
  | c :: q, before, h => by
    rw [List.cons_append, search, Bool.or_eq_true] at h ⊢
    rcases h with h | h
    · exact .inl (hstep before (c :: q) (by simp) h)
    · exact .inr (search_append hstep hending h)

/-- A name without the characters of the ending is in the text before it. -/
theorem startsLike_length {name q ending : Str} (hname : ∀ c ∈ ending, reLower c ∉ name)
    (h : startsLike name (q ++ ending) = true) : name.length ≤ q.length := by
  have hmap := of_decide_eq_true h
  by_contra hlen
  have hshort : name.length - q.length ≠ 0 := by omega
  rw [List.take_append, List.map_append] at hmap
  rcases ending with _ | ⟨c, ending⟩
  · have hlength := congrArg List.length hmap
    simp at hlength
    omega
  · refine hname c List.mem_cons_self ?_
    obtain ⟨n, hn⟩ := Nat.exists_eq_succ_of_ne_zero hshort
    rw [← hmap, hn, List.take_succ_cons]
    simp

theorem startsLike_append {name q ending more : Str} (hlen : name.length ≤ q.length) :
    startsLike name (q ++ ending) = startsLike name (q ++ more) := by
  unfold startsLike
  rw [List.take_append_of_le_length hlen, List.take_append_of_le_length hlen]

/-! ### The patterns -/

/-- Characters that stand in no pattern. -/
def Inert (s : Str) : Prop := ∀ c ∈ s, c = 46 ∨ isSpace c = true

theorem inert_dots : Inert (lit "...") := by unfold Inert; decide

theorem reLower_inert {c : ℕ} (h : c = 46 ∨ isSpace c = true) : reLower c = c := by
  unfold reLower
  rcases h with rfl | h
  · rfl
  · simp only [isSpace, Bool.or_eq_true, Bool.and_eq_true, decide_eq_true_eq, beq_iff_eq] at h
    split_ifs <;> omega

/-- The names of all patterns are letters, slashes and a colon. -/
theorem name_chars : ∀ name ∈ forbiddenNames ++ [lit "/users/", lit "/home/", lit "file:///users/",
    lit "file:///home/"], name ≠ [] ∧ ∀ c ∈ name, c ≠ 46 ∧ isSpace c = false := by decide

theorem not_in_name {name ending : Str} (hinert : Inert ending)
    (hname : name ∈ forbiddenNames ++ [lit "/users/", lit "/home/", lit "file:///users/",
      lit "file:///home/"]) : ∀ c ∈ ending, reLower c ∉ name := by
  intro c hc hmem
  rw [reLower_inert (hinert c hc)] at hmem
  obtain ⟨hdot, hspace⟩ := (name_chars name hname).2 c hmem
  rcases hinert c hc with rfl | h
  · exact hdot rfl
  · rw [hspace] at h
    cases h

theorem any_startsLike {names : List Str} (hnames : names ⊆ forbiddenNames ++
    [lit "/users/", lit "/home/", lit "file:///users/", lit "file:///home/"]) {q ending : Str}
    (hinert : Inert ending) (more : Str) (h : names.any (startsLike · (q ++ ending)) = true) :
    names.any (startsLike · (q ++ more)) = true := by
  obtain ⟨name, hname, hlike⟩ := List.any_eq_true.mp h
  have hlen := startsLike_length (not_in_name hinert (hnames hname)) hlike
  exact List.any_eq_true.mpr ⟨name, hname, by rwa [startsLike_append hlen] at hlike⟩

theorem userPathAt_append {q ending : Str} (hinert : Inert ending) (more : Str)
    (h : userPathAt (q ++ ending) = true) : userPathAt (q ++ more) = true :=
  any_startsLike (fun _ hname => List.mem_append_right _ hname) hinert more h

theorem homeAt_append {q ending : Str} (hinert : Inert ending) (more : Str)
    (h : homeAt (q ++ ending) = true) : homeAt (q ++ more) = true := by
  refine any_startsLike (fun name hname => List.mem_append_right _ ?_) hinert more h
  simp only [List.mem_cons, List.not_mem_nil, or_false] at hname ⊢
  tauto

theorem startsAssignment_dots {q : Str} (more : Str) (h : startsAssignment (q ++ lit "...") = true) :
    q ≠ [] ∧ startsAssignment (q ++ more) = true := by
  have hdots : startsAssignment (lit "...") = false := rfl
  have hq : q ≠ [] := by
    rintro rfl
    rw [List.nil_append, hdots] at h
    cases h
  refine ⟨hq, ?_⟩
  unfold startsAssignment at h ⊢
  rw [List.dropWhile_append] at h ⊢
  by_cases hempty : (q.dropWhile isSpace).isEmpty = true
  · rw [if_pos hempty] at h
    cases h
  · rw [if_neg hempty] at h ⊢
    obtain ⟨c, rest, hrest⟩ := List.exists_cons_of_ne_nil (mt List.isEmpty_iff.mpr hempty)
    rw [hrest] at h ⊢
    exact h

theorem assignmentAt_append {before : Option ℕ} {q : Str} (more : Str)
    (h : assignmentAt isWord before (q ++ lit "...") = true) :
    assignmentAt isWord before (q ++ more) = true := by
  obtain ⟨name, hname, hmatch⟩ := List.any_eq_true.mp h
  simp only [Bool.and_eq_true] at hmatch
  obtain ⟨⟨⟨hlike, hfirst⟩, hlast⟩, hassign⟩ := hmatch
  have hmem : name ∈ forbiddenNames ++ [lit "/users/", lit "/home/", lit "file:///users/",
    lit "file:///home/"] := List.mem_append_left _ hname
  have hlen := startsLike_length (not_in_name inert_dots hmem) hlike
  have hnil := (name_chars name hmem).1
  rw [List.drop_append_of_le_length hlen] at hassign hlast
  rw [List.take_append_of_le_length hlen] at hlast
  obtain ⟨hrest, hassign⟩ := startsAssignment_dots more hassign
  have hq0 : q ≠ [] := by
    rintro rfl
    exact hnil (List.length_eq_zero_iff.mp (Nat.le_zero.mp hlen))
  obtain ⟨c, rest, hq⟩ := List.exists_cons_of_ne_nil hq0
  obtain ⟨d, others, hd⟩ := List.exists_cons_of_ne_nil hrest
  refine List.any_eq_true.mpr ⟨name, hname, ?_⟩
  simp only [Bool.and_eq_true]
  rw [List.drop_append_of_le_length hlen, List.take_append_of_le_length hlen]
  refine ⟨⟨⟨by rwa [startsLike_append hlen] at hlike, ?_⟩, ?_⟩, hassign⟩
  · rw [hq] at hfirst ⊢
    exact hfirst
  · rw [hd] at hlast ⊢
    exact hlast

theorem absolutePathAt_append {q : Str} (more : Str) (hq : q ≠ [])
    (h : absolutePathAt (q ++ lit "...") = true) : absolutePathAt (q ++ more) = true := by
  obtain ⟨c, q, rfl⟩ := List.exists_cons_of_ne_nil hq
  have hempty : ¬ (q.dropWhile isPlain).isEmpty = true := by
    intro hempty
    simp only [absolutePathAt, List.cons_append, List.tail_cons, List.dropWhile_append, if_pos hempty,
      Bool.and_eq_true] at h
    exact absurd h.2 (by decide)
  have hsome : q.dropWhile isPlain ≠ [] := mt List.isEmpty_iff.mpr hempty
  have htake : ∀ t : Str, (q ++ t).takeWhile isPlain = q.takeWhile isPlain := by
    intro t
    have hless : (q.takeWhile isPlain).length ≠ q.length := by
      intro hlen
      have hparts := congrArg List.length (@List.takeWhile_append_dropWhile _ isPlain q)
      rw [List.length_append, hlen] at hparts
      exact hsome (List.length_eq_zero_iff.mp (by omega))
    rw [List.takeWhile_append, if_neg hless]
  have hdrop : ∀ t : Str, ((q ++ t).dropWhile isPlain).head? = (q.dropWhile isPlain).head? := by
    intro t
    rw [List.dropWhile_append, if_neg hempty, List.head?_append_of_ne_nil _ hsome]
  unfold absolutePathAt at h ⊢
  simp only [List.cons_append, List.head?_cons, List.tail_cons, htake, hdrop] at h ⊢
  exact h

/-! ### What is refused -/

theorem assignment_search : ∀ {before : Option ℕ} {s : Str},
    forbiddenAssignment isWord before s = search (assignmentAt isWord) before s
  | _, [] => rfl
  | before, c :: s => by rw [forbiddenAssignment, search, assignment_search]

theorem userPath_search : ∀ {before : Option ℕ} {s : Str},
    localUserPath before s = search (anchored userPathAt) before s
  | _, [] => rfl
  | before, c :: s => by
    rw [localUserPath, search, userPath_search]
    rfl

/-- At an anchor, what is found before the end of a text is found however it goes on. -/
theorem anchored_append {pattern wider : Str → Bool} {q ending more : Str}
    (h : pattern (q ++ ending) = true → wider (q ++ more) = true) {before : Option ℕ}
    (hfound : anchored pattern before (q ++ ending) = true) : anchored wider before (q ++ more) = true := by
  unfold anchored at hfound ⊢
  rw [Bool.and_eq_true] at hfound ⊢
  exact ⟨hfound.1, h hfound.2⟩

theorem search_dots {pattern : Option ℕ → Str → Bool}
    (h : ∀ before s, s ∈ [lit "...", lit "..", lit "."] → pattern before s = false) (before : Option ℕ) :
    search pattern before (lit "...") = false := by
  rw [show lit "..." = [46, 46, 46] from rfl]
  simp only [search, Bool.or_eq_false_iff]
  exact ⟨h _ _ (by decide), h _ _ (by decide), h _ _ (by decide), trivial⟩

/-- A message that is refused with dots at its end is refused however it goes on. -/
theorem refused_append {q : Str} (more : Str) (h : refused isWord (q ++ lit "...") = true) :
    refused isWord (q ++ more) = true := by
  unfold refused at h ⊢
  rw [Bool.or_eq_true, Bool.or_eq_true] at h ⊢
  rw [assignment_search, userPath_search] at h ⊢
  rcases h with (h | h) | h
  · refine .inl (.inl (search_append (fun before q hq => assignmentAt_append more) ?_ h))
    refine search_dots fun before s hs => ?_
    have hdots : ∀ s ∈ [lit "...", lit "..", lit "."], ∀ name ∈ forbiddenNames,
        startsLike name s = false := by decide
    refine List.any_eq_false.mpr fun name hname => ?_
    rw [hdots s hs name hname]
    simp
  · refine .inl (.inr (search_append
      (fun before q hq => anchored_append (userPathAt_append inert_dots more)) ?_ h))
    refine search_dots fun before s hs => ?_
    have hdots : ∀ s ∈ [lit "...", lit "..", lit "."], userPathAt s = false := by decide
    rw [anchored, hdots s hs, Bool.and_false]
  · refine .inr (search_append
      (fun before q hq => anchored_append (absolutePathAt_append more hq)) ?_ h)
    refine search_dots fun before s hs => ?_
    have hdots : ∀ s ∈ [lit "...", lit "..", lit "."], absolutePathAt s = false := by decide
    rw [anchored, hdots s hs, Bool.and_false]

/-! ### The message -/

theorem mem_strip {s : Str} {c : ℕ} (h : c ∈ strip s) : c ∈ s :=
  (List.dropWhile_sublist isSpace).subset (List.mem_reverse.mp
    ((List.dropWhile_sublist isSpace).subset (List.mem_reverse.mp h)))

theorem tidied_printable {text : Str} : ∀ c ∈ tidied text, isControl c = false := by
  intro c hc
  rcases mem_collapse hc with hc | rfl
  · simpa using (List.mem_filter.mp (mem_strip hc)).2
  · rfl

theorem tidied_tidy {text : Str} : Tidy (tidied text) := tidy_collapse _

/-- **What is tidy, printable, short and not refused is returned as it is.** -/
theorem sanitize_fixed {s : Str} (htidy : Tidy s) (hprint : ∀ c ∈ s, isControl c = false)
    (hrefused : refused isWord s = false) (hlen : s.length ≤ 300) (hne : s ≠ []) :
    sanitizePublicError isWord s = s := by
  have hfilter : s.filter (fun c => !isControl c) = s :=
    List.filter_eq_self.mpr fun c hc => by rw [hprint c hc]; rfl
  have htidied : tidied s = s := by rw [tidied, hfilter, strip_tidy htidy, collapse_tidy htidy]
  have hshort : shortened s = s := if_neg (by omega)
  unfold sanitizePublicError
  simp only [htidied, hrefused, hshort, if_neg hne, Bool.false_eq_true, if_false]

theorem refusedText_fixed : refused isWord refusedText = false := by
  have h58 : 58 ∉ refusedText ∧ 61 ∉ refusedText := by decide
  have h47 : 47 ∉ refusedText := by decide
  have habsolute : absolutePath refusedText = false := by decide
  rw [refused, no_assignment_of_chars h58, no_path h47, habsolute]
  rfl

theorem emptyText_fixed : refused isWord emptyText = false := by
  have h58 : 58 ∉ emptyText ∧ 61 ∉ emptyText := by decide
  have h47 : 47 ∉ emptyText := by decide
  have habsolute : absolutePath emptyText = false := by decide
  rw [refused, no_assignment_of_chars h58, no_path h47, habsolute]
  rfl

/-- The shortened message has what the function returns a second time. -/
theorem shortened_spec {m : Str} (htidy : Tidy m) (hprint : ∀ c ∈ m, isControl c = false)
    (hrefused : refused isWord m = false) (hne : m ≠ []) :
    Tidy (shortened m) ∧ (∀ c ∈ shortened m, isControl c = false) ∧
      refused isWord (shortened m) = false ∧ (shortened m).length ≤ 300 ∧ shortened m ≠ [] := by
  rw [shortened]
  split_ifs with hlong
  · obtain ⟨more, hmore⟩ := List.rdropWhile_prefix isSpace (m.take 297)
    have hwhole : m = (m.take 297).rdropWhile isSpace ++ (more ++ m.drop 297) := by
      rw [← List.append_assoc, hmore, List.take_append_drop]
    have hlength := congrArg List.length hmore
    rw [List.length_append, List.length_take] at hlength
    refine ⟨?_, ?_, ?_, ?_, by simp [lit]⟩
    · refine @Tidy.cut (m.take 297) (m.drop 297) ?_ _ (by decide) (by decide)
      rwa [List.take_append_drop]
    · intro c hc
      rcases List.mem_append.mp hc with hc | hc
      · exact hprint c (by rw [hwhole]; exact List.mem_append_left _ hc)
      · have hdots : ∀ c ∈ lit "...", isControl c = false := by decide
        exact hdots c hc
    · by_contra h
      rw [Bool.not_eq_false] at h
      have hm := refused_append (more ++ m.drop 297) h
      rw [← hwhole, hrefused] at hm
      cases hm
    · have hdots : (lit "...").length = 3 := rfl
      rw [List.length_append, hdots]
      omega
  · exact ⟨htidy, hprint, hrefused, by omega, hne⟩

/-! ### What the text reveals -/

theorem reveals_append {q ending more : Str} (hinert : Inert ending)
    (h : reveals (q ++ ending) = true) : reveals (q ++ more) = true := by
  have hending : ∀ s, s <:+ ending → homeAt s = false := by
    intro s hs
    by_contra hhome
    rw [Bool.not_eq_false] at hhome
    have hnil := @homeAt_append [] s (fun c hc => hinert c (hs.subset hc)) [] hhome
    exact absurd hnil (by decide)
  refine search_append (fun before q _ h => homeAt_append hinert more h) (fun before => ?_) h
  have hsearch : ∀ {s : Str} {before : Option ℕ}, s <:+ ending →
      search (fun _ s => homeAt s) before s = false := by
    intro s
    induction s with
    | nil => exact fun _ => rfl
    | cons c s ih =>
      intro before hs
      rw [search, hending _ hs, ih ((List.suffix_cons c s).trans hs), Bool.or_false]
  exact hsearch (List.suffix_refl _)

/-- The cut hides nothing and shows nothing new. -/
theorem reveals_shortened (m : Str) : reveals (shortened m) = reveals (shownPart m) := by
  rw [shortened, shownPart]
  split_ifs
  · have hparts := @List.rdropWhile_append_rtakeWhile _ isSpace (m.take 297)
    have hinert : Inert ((m.take 297).rtakeWhile isSpace) := fun c hc => .inr (List.mem_rtakeWhile_imp hc)
    have hdots : reveals ((m.take 297).rdropWhile isSpace ++ lit "...") =
        reveals ((m.take 297).rdropWhile isSpace ++ (m.take 297).rtakeWhile isSpace) := by
      rw [Bool.eq_iff_iff]
      exact ⟨reveals_append inert_dots, reveals_append hinert⟩
    rw [hdots, hparts]
  · rfl

/-- In a message that is not refused, a directory that is shown stands after another character. -/
theorem reveals_hidden {m : Str} (h : refused isWord m = false) :
    reveals (shownPart m) = hidden (shownPart m) := by
  obtain ⟨more, hmore⟩ : shownPart m <+: m := by
    rw [shownPart]
    split_ifs
    · exact List.take_prefix _ _
    · exact List.prefix_refl _
  have hempty : Inert [] := by simp [Inert]
  have hanchored : search (anchored homeAt) none (shownPart m) = false := by
    by_contra hfound
    rw [Bool.not_eq_false, ← List.append_nil (shownPart m)] at hfound
    have huser : ∀ s, homeAt s = true → userPathAt s = true := by
      intro s hs
      simp only [homeAt, userPathAt, List.any_cons, List.any_nil, Bool.or_eq_true] at hs ⊢
      tauto
    have hpath : localUserPath none (shownPart m ++ more) = true := by
      rw [userPath_search]
      have hstep : ∀ before (q : Str), q ≠ [] → anchored homeAt before (q ++ []) = true →
          anchored userPathAt before (q ++ more) = true :=
        fun before q _ => anchored_append fun hs => huser _ (homeAt_append hempty more hs)
      exact search_append hstep (fun _ => rfl) hfound
    rw [hmore] at hpath
    unfold refused at h
    rw [hpath, Bool.or_true, Bool.true_or] at h
    cases h
  have hsplit : (fun (_ : Option ℕ) s => homeAt s) = fun before s => anchored homeAt before s ||
      ((before.map fun c => !isAnchor c).getD false && homeAt s) := by
    funext before s
    rcases before with _ | c
    · simp [anchored]
    · cases hanchor : isAnchor c <;> simp [anchored, hanchor]
  rw [reveals, hsplit, search_or, hanchored, Bool.false_or]
  rfl

/-- **The text of an error reveals a directory of a user exactly if** the message is not refused and in the
part that is shown such a directory stands right after a character other than a blank, a quotation mark or
`=`. The text is never empty, never long, has no control characters and is not changed by a second call. -/
theorem sanitized_safe_iff (isWord : ℕ → Bool) (text : Str) : Safe isWord text ↔
    refused isWord (tidied text) = true ∨ hidden (shownPart (tidied text)) = false := by
  have hsafe : ∀ s, sanitizePublicError isWord text = s → Tidy s →
      (∀ c ∈ s, isControl c = false) → refused isWord s = false → s.length ≤ 300 → s ≠ [] →
        (Safe isWord text ↔ reveals s = false) := by
    rintro s rfl htidy hprint hrefused hlen hne
    exact ⟨fun h => h.hides,
      fun h => ⟨hne, hlen, hprint, sanitize_fixed htidy hprint hrefused hlen hne, h⟩⟩
  have htidyText : ∀ s, s = collapse s → Tidy s := fun s h => h ▸ tidy_collapse s
  by_cases hrefused : refused isWord (tidied text) = true
  · have hs : sanitizePublicError isWord text = refusedText := if_pos hrefused
    rw [hsafe _ hs (htidyText _ (by decide)) (by decide) refusedText_fixed (by decide) (by decide)]
    exact iff_of_true (by decide) (.inl hrefused)
  · by_cases hnil : tidied text = []
    · have hs : sanitizePublicError isWord text = emptyText := by
        unfold sanitizePublicError
        rw [hnil]
        rfl
      rw [hsafe _ hs (htidyText _ (by decide)) (by decide) emptyText_fixed (by decide) (by decide), hnil]
      exact iff_of_true (by decide) (.inr rfl)
    · rw [Bool.not_eq_true] at hrefused
      obtain ⟨htidy, hprint, hnot, hlen, hne⟩ :=
        shortened_spec (@tidied_tidy text) tidied_printable hrefused hnil
      have hs : sanitizePublicError isWord text = shortened (tidied text) := by
        unfold sanitizePublicError
        simp only [hrefused, Bool.false_eq_true, if_false, if_neg hne]
      rw [hsafe _ hs htidy hprint hnot hlen hne, reveals_shortened, reveals_hidden hrefused, hrefused]
      simp

/-- A path in brackets is shown. -/
theorem bracketed_path_shown :
    sanitizePublicError asciiWord (lit "no file (/Users/a/b)") = lit "no file (/Users/a/b)" ∧
      ¬ Safe asciiWord (lit "no file (/Users/a/b)") := by
  have hsame : sanitizePublicError asciiWord (lit "no file (/Users/a/b)") =
      lit "no file (/Users/a/b)" := by decide +kernel
  refine ⟨hsame, fun h => ?_⟩
  have hhides := h.hides
  rw [hsame] at hhides
  exact absurd hhides (by decide +kernel)

end Cloudx.Cloud.PublicError

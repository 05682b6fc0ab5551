import Cloudx.Python.Lines

/-! # Words

`" ".join(s.split())` is a text without other blanks than single spaces between its words (`Tidy`). Such a
text is its own: joining its words gives it back (`collapse_tidy`). -/

namespace Cloudx.Python.Words

open Cloudx.Python.Text Cloudx.Python.Lines

/-- The words of a text, of which `word` is what has been read of the first. -/
def wordsFrom (word : Str) : Str → List Str
  | [] => if word = [] then [] else [word]
  | c :: s =>
    if isSpace c then if word = [] then wordsFrom [] s else word :: wordsFrom [] s
    else wordsFrom (word ++ [c]) s

/-- `s.split()` -/
def splitWords (s : Str) : List Str := wordsFrom [] s

/-- `" ".join(s.split())` -/
def collapse (s : Str) : Str := [32].intercalate (splitWords s)

/-- Every blank is a single space between two other characters. -/
structure Tidy (s : Str) : Prop where
  spaces : ∀ c ∈ s, isSpace c = true → c = 32
  single : s.IsChain fun a b => ¬ (a = 32 ∧ b = 32)
  first : s.head? ≠ some 32
  last : s.getLast? ≠ some 32

theorem tidy_nil : Tidy [] := ⟨by simp, List.isChain_nil, by simp, by simp⟩

theorem Tidy.head_not_space {c : ℕ} {s : Str} (h : Tidy (c :: s)) : isSpace c = false := by
  by_contra hspace
  have hc := h.spaces c List.mem_cons_self (eq_true_of_ne_false hspace)
  exact h.first (by rw [hc]; rfl)

theorem Tidy.last_not_space {c : ℕ} {s : Str} (h : Tidy (s ++ [c])) : isSpace c = false := by
  by_contra hspace
  have hc := h.spaces c (by simp) (eq_true_of_ne_false hspace)
  exact h.last (by rw [hc]; simp)

/-! ### Joining gives the text back -/

theorem wordsFrom_ne_nil {word : Str} (h : word ≠ []) : ∀ s : Str, wordsFrom word s ≠ []
  | [] => by simp [wordsFrom, h]
  | c :: s => by
    rw [wordsFrom, if_neg h]
    split_ifs
    · simp
    · exact wordsFrom_ne_nil (by simp) s

/-- The words that are read of a tidy rest, after `word`. -/
theorem join_wordsFrom : ∀ {s : Str} (word : Str), (∀ c ∈ s, isSpace c = true → c = 32) →
    s.IsChain (fun a b => ¬ (a = 32 ∧ b = 32)) → s.getLast? ≠ some 32 →
    (word = [] → s.head? ≠ some 32) → ([32] : Str).intercalate (wordsFrom word s) = word ++ s
  | [], word, _, _, _, _ => by
    rw [wordsFrom]
    split_ifs with hword
    · rw [hword]
      rfl
    · rw [List.intercalate_singleton, List.append_nil]
  | c :: s, word, hspaces, hchain, hlast, hfirst => by
    have hrest : ∀ d ∈ s, isSpace d = true → d = 32 := fun d hd => hspaces d (List.mem_cons_of_mem _ hd)
    have hne : s ≠ [] → s.getLast? ≠ some 32 := by
      intro hs
      rwa [List.getLast?_cons_of_ne_nil hs] at hlast
    rw [wordsFrom]
    by_cases hspace : isSpace c = true
    · obtain rfl : c = 32 := hspaces c List.mem_cons_self hspace
      have hword : word ≠ [] := fun hword => hfirst hword rfl
      have hs : s ≠ [] := fun hs => hlast (by rw [hs]; rfl)
      have hhead : s.head? ≠ some 32 := by
        intro hhead
        exact (List.isChain_cons.mp hchain).1 32 hhead ⟨rfl, rfl⟩
      have ih := join_wordsFrom [] hrest hchain.tail (hne hs) fun _ => hhead
      have hwords : wordsFrom [] s ≠ [] := by
        intro hnil
        rw [hnil] at ih
        exact hs ih.symm
      rw [if_pos hspace, if_neg hword, List.intercalate_cons_of_ne_nil hwords, ih]
      simp
    · rw [if_neg hspace]
      have hlast' : s.getLast? ≠ some 32 := by
        by_cases hs : s = []
        · simp [hs]
        · exact hne hs
      rw [join_wordsFrom (word ++ [c]) hrest hchain.tail hlast' (by simp)]
      simp

/-- **A tidy text is not changed.** -/
theorem collapse_tidy {s : Str} (h : Tidy s) : collapse s = s :=
  join_wordsFrom [] h.spaces h.single h.last fun _ => h.first

/-! ### What is joined is tidy -/

theorem wordsFrom_solid : ∀ {s word : Str}, (∀ c ∈ word, isSpace c = false) →
    ∀ w ∈ wordsFrom word s, w ≠ [] ∧ ∀ c ∈ w, isSpace c = false
  | [], word, hword, w, hw => by
    rw [wordsFrom] at hw
    split_ifs at hw with hnil
    · simp at hw
    · rw [List.mem_singleton.mp hw]
      exact ⟨hnil, hword⟩
  | c :: s, word, hword, w, hw => by
    rw [wordsFrom] at hw
    split_ifs at hw with hspace hnil
    · exact wordsFrom_solid (by simp) w hw
    · rcases List.mem_cons.mp hw with rfl | hw
      · exact ⟨hnil, hword⟩
      · exact wordsFrom_solid (by simp) w hw
    · refine wordsFrom_solid (fun d hd => ?_) w hw
      rcases List.mem_append.mp hd with hd | hd
      · exact hword d hd
      · rw [List.mem_singleton.mp hd]
        exact eq_false_of_ne_true hspace

theorem tidy_word {w : Str} (h : ∀ c ∈ w, isSpace c = false) : Tidy w := by
  have h32 : ∀ c ∈ w, c ≠ 32 := by
    rintro c hc rfl
    exact absurd (h 32 hc) (by decide)
  refine ⟨fun c hc hspace => absurd (h c hc) (by simp [hspace]), ?_, ?_, ?_⟩
  · refine List.Pairwise.isChain (List.pairwise_of_forall_mem_list ?_)
    exact fun a ha b _ hab => h32 a ha hab.1
  · exact fun hhead => h32 32 (List.mem_of_mem_head? hhead) rfl
  · exact fun hlast => h32 32 (List.mem_of_mem_getLast? hlast) rfl

/-- Two tidy texts that are not empty, with a space between them. -/
theorem Tidy.join {s t : Str} (hs : Tidy s) (ht : Tidy t) (hs0 : s ≠ []) (ht0 : t ≠ []) :
    Tidy (s ++ [32] ++ t) := by
  obtain ⟨a, s', rfl⟩ := List.exists_cons_of_ne_nil hs0
  obtain ⟨b, t', rfl⟩ := List.exists_cons_of_ne_nil ht0
  refine ⟨fun c hc hspace => ?_, ?_, ?_, ?_⟩
  · simp only [List.mem_append, List.mem_singleton] at hc
    rcases hc with (hc | rfl) | hc
    · exact hs.spaces c hc hspace
    · rfl
    · exact ht.spaces c hc hspace
  · have hspace : ([32] ++ b :: t').IsChain fun a b => ¬ (a = 32 ∧ b = 32) := by
      refine List.isChain_cons.mpr ⟨?_, ht.single⟩
      rintro c hc ⟨-, rfl⟩
      exact ht.first hc
    rw [List.append_assoc]
    refine List.isChain_append.mpr ⟨hs.single, hspace, ?_⟩
    rintro c hc d hd ⟨rfl, -⟩
    exact hs.last hc
  · exact hs.first
  · rw [List.getLast?_append_of_ne_nil _ ht0]
    exact ht.last

theorem tidy_intercalate : ∀ {words : List Str},
    (∀ w ∈ words, w ≠ [] ∧ ∀ c ∈ w, isSpace c = false) →
      Tidy (([32] : Str).intercalate words) ∧ (words ≠ [] → ([32] : Str).intercalate words ≠ [])
  | [], _ => ⟨tidy_nil, fun h => absurd rfl h⟩
  | [w], h => by
    obtain ⟨hne, hw⟩ := h w List.mem_cons_self
    rw [List.intercalate_singleton]
    exact ⟨tidy_word hw, fun _ => hne⟩
  | w :: w' :: words, h => by
    obtain ⟨hne, hw⟩ := h w List.mem_cons_self
    obtain ⟨htidy, hrest⟩ := tidy_intercalate fun v hv => h v (List.mem_cons_of_mem w hv)
    rw [List.intercalate_cons_cons]
    exact ⟨(tidy_word hw).join htidy hne (hrest (by simp)), fun _ => by simp⟩

/-- **The joined words are tidy.** -/
theorem tidy_collapse (s : Str) : Tidy (collapse s) :=
  (tidy_intercalate (wordsFrom_solid (by simp))).1

theorem mem_wordsFrom : ∀ {s word w : Str} {c : ℕ}, w ∈ wordsFrom word s → c ∈ w → c ∈ word ∨ c ∈ s
  | [], word, w, c, hw, hc => by
    rw [wordsFrom] at hw
    split_ifs at hw
    · simp at hw
    · exact .inl (List.mem_singleton.mp hw ▸ hc)
  | d :: s, word, w, c, hw, hc => by
    rw [wordsFrom] at hw
    split_ifs at hw
    · rcases mem_wordsFrom hw hc with h | h
      · simp at h
      · exact .inr (List.mem_cons_of_mem _ h)
    · rcases List.mem_cons.mp hw with rfl | hw
      · exact .inl hc
      · rcases mem_wordsFrom hw hc with h | h
        · simp at h
        · exact .inr (List.mem_cons_of_mem _ h)
    · rcases mem_wordsFrom hw hc with h | h
      · rcases List.mem_append.mp h with h | h
        · exact .inl h
        · exact .inr (List.mem_singleton.mp h ▸ List.mem_cons_self)
      · exact .inr (List.mem_cons_of_mem _ h)

/-- The characters of the joined words are those of the text, and spaces. -/
theorem mem_collapse {s : Str} {c : ℕ} (h : c ∈ collapse s) : c ∈ s ∨ c = 32 := by
  have hjoin : ∀ {words : List Str}, c ∈ ([32] : Str).intercalate words →
      (∃ w ∈ words, c ∈ w) ∨ c = 32 := by
    intro words hc
    induction words with
    | nil => cases hc
    | cons w words ih =>
      rcases words with _ | ⟨w', words⟩
      · exact .inl ⟨w, by simp, by rwa [List.intercalate_singleton] at hc⟩
      · rw [List.intercalate_cons_cons, List.append_assoc, List.mem_append, List.mem_append,
          List.mem_singleton] at hc
        rcases hc with hc | hc | hc
        · exact .inl ⟨w, by simp, hc⟩
        · exact .inr hc
        · exact (ih hc).imp_left fun ⟨v, hv, hmem⟩ => ⟨v, List.mem_cons_of_mem _ hv, hmem⟩
  rcases hjoin h with ⟨w, hw, hc⟩ | hc
  · exact .inl ((mem_wordsFrom hw hc).resolve_left (by simp))
  · exact .inr hc

/-! ### Parts of a tidy text -/

/-- A tidy text has no blanks at its ends. -/
theorem strip_tidy {s : Str} (h : Tidy s) : strip s = s := by
  rcases s with _ | ⟨c, s⟩
  · rfl
  · obtain ⟨front, d, hd⟩ := (List.eq_nil_or_concat' (c :: s)).resolve_left (by simp)
    have hc := h.head_not_space
    rw [hd] at h
    have hlast := h.last_not_space
    rw [strip, List.dropWhile_cons_of_neg (by simp [hc]), hd, List.reverse_append, List.reverse_singleton,
      List.singleton_append, List.dropWhile_cons_of_neg (by simp [hlast]), List.reverse_cons,
      List.reverse_reverse]

/-- A tidy text that is cut, without the space at the end, and goes on with other characters. -/
theorem Tidy.cut {s t : Str} (h : Tidy (s ++ t)) {ending : Str}
    (hending : ∀ c ∈ ending, isSpace c = false) (hne : ending ≠ []) :
    Tidy (s.rdropWhile isSpace ++ ending) := by
  have h32 : ∀ c ∈ ending, c ≠ 32 := by
    rintro c hc rfl
    exact absurd (hending 32 hc) (by decide)
  obtain ⟨more, hmore⟩ := List.rdropWhile_prefix isSpace s
  have hwhole : Tidy (s.rdropWhile isSpace ++ (more ++ t)) := by
    rw [← List.append_assoc, hmore]
    exact h
  have hchain := List.isChain_append.mp hwhole.single
  refine ⟨fun c hc hspace => ?_, ?_, ?_, ?_⟩
  · rcases List.mem_append.mp hc with hc | hc
    · exact hwhole.spaces c (List.mem_append_left _ hc) hspace
    · exact absurd (hending c hc) (by simp [hspace])
  · refine List.isChain_append.mpr ⟨hchain.1, (tidy_word hending).single, ?_⟩
    rintro a ha b hb ⟨-, rfl⟩
    exact h32 32 (List.mem_of_mem_head? hb) rfl
  · rcases hs : s.rdropWhile isSpace with _ | ⟨c, rest⟩
    · rw [List.nil_append]
      exact fun hhead => h32 32 (List.mem_of_mem_head? hhead) rfl
    · rw [hs] at hwhole
      exact hwhole.first
  · rw [List.getLast?_append_of_ne_nil _ hne]
    exact fun hlast => h32 32 (List.mem_of_mem_getLast? hlast) rfl

end Cloudx.Python.Words

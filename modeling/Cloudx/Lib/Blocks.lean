import Mathlib.Data.List.Infix

/-! # Blocks between markers

A list in which some elements open a block and others close one. `kept` is the loop that leaves blocks
out: an opening element starts a block whether it is closed or not. `outside` leaves out the closed
blocks only, each up to the first element that closes it. The loop keeps all that is outside exactly if
every opening element is closed later (`Balanced`): `opener_outside`, and `outside_kept` for a loop that
runs over the elements cut into pieces. -/

namespace Cloudx.Lib.Blocks

open scoped List

variable {α : Type} (opens closes : α → Bool)

/-- What the loop keeps. -/
def kept : Bool → List α → List α
  | _, [] => []
  | skipping, a :: rest =>
    if opens a then kept true rest
    else if skipping && closes a then kept false rest
    else if skipping then kept true rest
    else a :: kept false rest

/-- The loop is in a block at the end of the list. -/
def after : Bool → List α → Bool
  | skipping, [] => skipping
  | skipping, a :: rest =>
    if opens a then after true rest
    else if skipping && closes a then after false rest
    else after skipping rest

/-- What stands outside the closed blocks; `inside` in one that is closed later. -/
def outsideFrom : Bool → List α → List α
  | _, [] => []
  | true, a :: rest => if closes a then outsideFrom false rest else outsideFrom true rest
  | false, a :: rest =>
    if opens a && rest.any closes then outsideFrom true rest else a :: outsideFrom false rest

/-- What stands outside the closed blocks. -/
def outside (l : List α) : List α := outsideFrom opens closes false l

/-- Every opening element is closed later. -/
def Balanced (l : List α) : Prop := ∀ a rest, a :: rest <:+ l → opens a → ∃ b ∈ rest, closes b

variable {opens closes}

theorem Balanced.tail {a : α} {rest : List α} (h : Balanced opens closes (a :: rest)) :
    Balanced opens closes rest :=
  fun b more hmore => h b more (hmore.trans (List.suffix_cons a rest))

theorem Balanced.head {a : α} {rest : List α} (h : Balanced opens closes (a :: rest))
    (ha : opens a) : rest.any closes = true := by
  obtain ⟨b, hb, hcloses⟩ := h a rest (List.suffix_refl _) ha
  exact List.any_eq_true.mpr ⟨b, hb, hcloses⟩

theorem balanced_cons {a : α} {rest : List α} : Balanced opens closes (a :: rest) ↔
    (opens a → ∃ b ∈ rest, closes b) ∧ Balanced opens closes rest := by
  refine ⟨fun h => ⟨fun ha => h a rest (List.suffix_refl _) ha, h.tail⟩, ?_⟩
  rintro ⟨hhead, htail⟩ b more hmore hb
  rcases List.suffix_cons_iff.mp hmore with heq | hmore
  · obtain ⟨rfl, rfl⟩ := List.cons.inj heq
    exact hhead hb
  · exact htail b more hmore hb

theorem balanced_nil : Balanced opens closes [] := fun _ _ h => by simp at h

instance : (l : List α) → Decidable (Balanced opens closes l)
  | [] => isTrue balanced_nil
  | _ :: rest =>
    have := instDecidableBalanced rest
    decidable_of_iff' _ balanced_cons

/-! ### The loop -/

theorem kept_not_opens : ∀ {skipping : Bool} {l : List α}, ∀ a ∈ kept opens closes skipping l,
    opens a = false
  | _, [], a, ha => by simp [kept] at ha
  | skipping, b :: rest, a, ha => by
    rw [kept] at ha
    split_ifs at ha with hopen hclose hskip
    · exact kept_not_opens a ha
    · exact kept_not_opens a ha
    · exact kept_not_opens a ha
    · rcases List.mem_cons.mp ha with rfl | ha
      · exact eq_false_of_ne_true hopen
      · exact kept_not_opens a ha

theorem kept_sublist : ∀ {skipping : Bool} {l : List α}, kept opens closes skipping l <+ l
  | _, [] => List.Sublist.refl _
  | skipping, a :: rest => by
    rw [kept]
    split_ifs
    · exact kept_sublist.cons a
    · exact kept_sublist.cons a
    · exact kept_sublist.cons a
    · exact kept_sublist.cons_cons a

theorem kept_append : ∀ {skipping : Bool} {l more : List α},
    kept opens closes skipping (l ++ more) =
      kept opens closes skipping l ++ kept opens closes (after opens closes skipping l) more
  | _, [], more => rfl
  | skipping, a :: rest, more => by
    rw [List.cons_append, kept, kept, after]
    cases opens a
    · cases skipping
      · exact congrArg (a :: ·) kept_append
      · cases closes a
        · exact kept_append
        · exact kept_append
    · exact kept_append

theorem after_append : ∀ {skipping : Bool} {l more : List α},
    after opens closes skipping (l ++ more) =
      after opens closes (after opens closes skipping l) more
  | _, [], more => rfl
  | skipping, a :: rest, more => by
    rw [List.cons_append, after, after]
    split_ifs
    · exact after_append
    · exact after_append
    · exact after_append

/-- A list in which nothing opens a block is kept. -/
theorem kept_plain : ∀ {l : List α}, (∀ a ∈ l, opens a = false) → kept opens closes false l = l
  | [], _ => rfl
  | a :: rest, h => by
    have hrest : ∀ b ∈ rest, opens b = false := fun b hb => h b (List.mem_cons_of_mem _ hb)
    rw [kept, h a List.mem_cons_self, if_neg Bool.false_ne_true, Bool.false_and,
      if_neg Bool.false_ne_true, if_neg Bool.false_ne_true, kept_plain hrest]

theorem after_plain : ∀ {l : List α}, (∀ a ∈ l, opens a = false) → after opens closes false l = false
  | [], _ => rfl
  | a :: rest, h => by
    have hrest : ∀ b ∈ rest, opens b = false := fun b hb => h b (List.mem_cons_of_mem _ hb)
    rw [after, h a List.mem_cons_self, if_neg Bool.false_ne_true, Bool.false_and,
      if_neg Bool.false_ne_true, after_plain hrest]

/-- Elements that neither open nor close a block leave the loop where it is. -/
theorem after_neutral : ∀ {skipping : Bool} {l : List α},
    (∀ a ∈ l, opens a = false ∧ closes a = false) → after opens closes skipping l = skipping
  | _, [], _ => rfl
  | skipping, a :: rest, h => by
    obtain ⟨hopen, hclose⟩ := h a List.mem_cons_self
    have hrest : ∀ b ∈ rest, opens b = false ∧ closes b = false :=
      fun b hb => h b (List.mem_cons_of_mem _ hb)
    rw [after, hopen, hclose, if_neg Bool.false_ne_true, Bool.and_false, if_neg Bool.false_ne_true,
      after_neutral hrest]

/-- A block in which nothing else closes it is left out. -/
theorem kept_block {first last : α} {middle : List α} (hfirst : opens first) (hlast : closes last)
    (hopen : opens last = false) (hmiddle : ∀ a ∈ middle, closes a = false) (skipping : Bool) :
    kept opens closes skipping (first :: (middle ++ [last])) = [] := by
  have hrest : ∀ {l : List α}, (∀ a ∈ l, closes a = false) →
      kept opens closes true (l ++ [last]) = [] := by
    intro l hl
    induction l with
    | nil => simp [kept, hopen, hlast]
    | cons a l ih =>
      have ih := ih fun b hb => hl b (List.mem_cons_of_mem _ hb)
      rw [List.cons_append, kept, hl a List.mem_cons_self, Bool.and_false, if_neg Bool.false_ne_true,
        if_pos rfl, ih, ite_self]
  rw [kept, if_pos hfirst, hrest hmiddle]

/-! ### Closed blocks -/

theorem outsideFrom_sublist : ∀ {inside : Bool} {l : List α}, outsideFrom opens closes inside l <+ l
  | true, [] | false, [] => List.Sublist.refl _
  | true, a :: rest => by
    rw [outsideFrom]
    split_ifs
    · exact outsideFrom_sublist.cons a
    · exact outsideFrom_sublist.cons a
  | false, a :: rest => by
    rw [outsideFrom]
    split_ifs
    · exact outsideFrom_sublist.cons a
    · exact outsideFrom_sublist.cons_cons a

/-- An opening element that is not closed stands outside the closed blocks. -/
theorem opener_outside (hdisjoint : ∀ a, opens a → closes a = false) : ∀ {inside : Bool} {l : List α},
    (inside → l.any closes = true) → ¬ Balanced opens closes l →
      ∃ a ∈ outsideFrom opens closes inside l, opens a
  | _, [], _, h => by simp [Balanced] at h
  | true, a :: rest, hinside, h => by
    have hany := hinside rfl
    rw [List.any_cons] at hany
    rw [outsideFrom]
    by_cases hclose : closes a = true
    · have hopen : ¬ opens a = true := fun hopen => by simp [hdisjoint a hopen] at hclose
      have hrest : ¬ Balanced opens closes rest :=
        fun hrest => h (balanced_cons.mpr ⟨fun ha => absurd ha hopen, hrest⟩)
      rw [if_pos hclose]
      exact opener_outside hdisjoint (by simp) hrest
    · rw [eq_false_of_ne_true hclose, Bool.false_or] at hany
      have hrest : ¬ Balanced opens closes rest :=
        fun hrest => h (balanced_cons.mpr ⟨fun _ => List.any_eq_true.mp hany, hrest⟩)
      rw [if_neg hclose]
      exact opener_outside hdisjoint (fun _ => hany) hrest
  | false, a :: rest, _, h => by
    rw [outsideFrom]
    by_cases hblock : (opens a && rest.any closes) = true
    · have hany : rest.any closes = true := (Bool.and_eq_true_iff.mp hblock).2
      have hrest : ¬ Balanced opens closes rest :=
        fun hrest => h (balanced_cons.mpr ⟨fun _ => List.any_eq_true.mp hany, hrest⟩)
      rw [if_pos hblock]
      exact opener_outside hdisjoint (fun _ => hany) hrest
    · rw [if_neg hblock]
      by_cases hopen : opens a = true
      · exact ⟨a, List.mem_cons_self, hopen⟩
      · have hrest : ¬ Balanced opens closes rest :=
          fun hrest => h (balanced_cons.mpr ⟨fun ha => absurd ha hopen, hrest⟩)
        obtain ⟨b, hb, hopens⟩ :=
          @opener_outside hdisjoint false _ (by simp) hrest
        exact ⟨b, List.mem_cons_of_mem _ hb, hopens⟩

/-- **The loop keeps what is outside.** It runs over the pieces of the elements: a whole element is one
piece, another one outside the blocks does not lead into a block, and one that closes a block leads out of
it. The loop may be in a block only where the elements are in a closed one. -/
theorem outside_kept {pieces : α → List α} {whole : α → Bool}
    (hclose : ∀ a, closes a → ∀ skipping, after opens closes skipping (pieces a) = false)
    (hwhole : ∀ a, whole a → pieces a = [a]) : ∀ {inside skipping : Bool} {l : List α},
    (inside = false → skipping = false) → Balanced opens closes l →
      (∀ a ∈ outsideFrom opens closes inside l, whole a = false →
        after opens closes false (pieces a) = false) →
      (outsideFrom opens closes inside l).filter whole <+
        kept opens closes skipping (l.flatMap pieces)
  | true, _, [], _, _, _ | false, _, [], _, _, _ => List.Sublist.refl _
  | true, skipping, a :: rest, _, hbalanced, hother => by
    rw [outsideFrom] at hother ⊢
    rw [List.flatMap_cons, kept_append]
    by_cases ha : closes a = true
    · rw [if_pos ha] at hother ⊢
      rw [hclose a ha]
      exact (outside_kept hclose hwhole (fun _ => rfl) hbalanced.tail hother).trans
        (List.sublist_append_right _ _)
    · rw [if_neg ha] at hother ⊢
      exact (outside_kept hclose hwhole (by simp) hbalanced.tail hother).trans
        (List.sublist_append_right _ _)
  | false, skipping, a :: rest, hskip, hbalanced, hother => by
    rw [outsideFrom] at hother ⊢
    rw [List.flatMap_cons, hskip rfl]
    by_cases hopen : opens a = true
    · rw [if_pos (by rw [hopen, hbalanced.head hopen, Bool.true_and])] at hother ⊢
      rw [kept_append]
      exact (outside_kept hclose hwhole (by simp) hbalanced.tail hother).trans
        (List.sublist_append_right _ _)
    · rw [if_neg (by simp [hopen])] at hother ⊢
      have hrest : ∀ {next : Bool}, next = false →
          (outsideFrom opens closes false rest).filter whole <+
            kept opens closes next (rest.flatMap pieces) :=
        fun hnext => outside_kept hclose hwhole (fun _ => hnext) hbalanced.tail
          fun b hb => hother b (List.mem_cons_of_mem _ hb)
      by_cases ha : whole a = true
      · rw [List.filter_cons_of_pos ha, hwhole a ha, List.singleton_append, kept, if_neg hopen,
          Bool.false_and, if_neg Bool.false_ne_true, if_neg Bool.false_ne_true]
        exact (hrest rfl).cons_cons a
      · rw [List.filter_cons_of_neg ha, kept_append]
        exact (hrest (hother a List.mem_cons_self (eq_false_of_ne_true ha))).trans
          (List.sublist_append_right _ _)

end Cloudx.Lib.Blocks

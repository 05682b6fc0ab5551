import Mathlib.Data.Finset.Image
import Mathlib.Data.List.Infix
import Mathlib.Logic.Function.Basic

/-! # Directory trees

A tree of directories, files and links under a root. A tree knows that everything in it lies in a
directory, and which paths it has, so that a directory can be listed. What lies behind a link is not part
of the tree.

`place` makes a directory or writes a file, and `move` is a rename as the systems of the POSIX family know
it: a directory goes only where nothing is, or onto an empty directory. A run of such changes loses no file
that none of them overwrites: it is where `follow` says (`Runs.file_kept`), apart from every other one
(`Runs.follow_ne`). -/

namespace Cloudx.Lib.Trees

/-- What a path names. A link leads to a directory, to something else, or nowhere. -/
inductive Node (β : Type) where
  | dir
  | file (content : β)
  | link (toDir : Option Bool)
deriving DecidableEq

variable {α β : Type}

/-- A tree: what its paths name, and the paths that name something. -/
structure Tree (α β : Type) where
  node : List α → Option (Node β)
  paths : Finset (List α)
  mem_paths : ∀ p, p ∈ paths ↔ node p ≠ none
  root : node [] = some .dir
  parents : ∀ p n, node (p ++ [n]) ≠ none → node p = some .dir

/-- `path.is_dir()`, which follows links. -/
def Tree.isDir (t : Tree α β) (p : List α) : Bool :=
  match t.node p with
  | some .dir => true
  | some (.link (some true)) => true
  | _ => false

/-- `path.exists()`, which follows links. -/
def Tree.exists (t : Tree α β) (p : List α) : Bool :=
  match t.node p with
  | some (.link none) => false
  | some _ => true
  | none => false

/-- `path.is_symlink()` -/
def Tree.isLink (t : Tree α β) (p : List α) : Bool :=
  match t.node p with
  | some (.link _) => true
  | _ => false

/-- The file at a path. -/
def Tree.file? (t : Tree α β) (p : List α) : Option β :=
  match t.node p with
  | some (.file content) => some content
  | _ => none

/-- Below what is no directory there is nothing. -/
theorem Tree.below {t : Tree α β} {p : List α} (h : t.node p ≠ some .dir) :
    ∀ {r : List α}, r ≠ [] → t.node (p ++ r) = none := by
  intro r
  induction r using List.reverseRecOn with
  | nil => exact fun hr => absurd rfl hr
  | append_singleton r n ih =>
    intro _
    by_contra hnode
    rw [← List.append_assoc] at hnode
    have hdir := t.parents _ _ hnode
    rcases List.eq_nil_or_concat r with rfl | ⟨r', m, rfl⟩
    · rw [List.append_nil] at hdir
      exact h hdir
    · rw [ih (by simp)] at hdir
      cases hdir

variable [DecidableEq α]

/-! ### Where a rename leads -/

/-- Where a path leads after `s` was moved to `d`. -/
def relocate (s d p : List α) : List α := if s <+: p then d ++ p.drop s.length else p

theorem relocate_append (s d r : List α) : relocate s d (s ++ r) = d ++ r := by
  rw [relocate, if_pos (List.prefix_append s r), List.drop_left]

theorem relocate_of_not {s d p : List α} (h : ¬ s <+: p) : relocate s d p = p := if_neg h

theorem relocate_self (s p : List α) : relocate s s p = p := by
  by_cases hs : s <+: p
  · obtain ⟨r, rfl⟩ := hs
    exact relocate_append s s r
  · exact relocate_of_not hs

/-- What the paths name after a rename. -/
def movedNode (t : Tree α β) (s d q : List α) : Option (Node β) :=
  if d <+: q then t.node (s ++ q.drop d.length) else if s <+: q then none else t.node q

theorem movedNode_append (t : Tree α β) (s d r : List α) :
    movedNode t s d (d ++ r) = t.node (s ++ r) := by
  rw [movedNode, if_pos (List.prefix_append d r), List.drop_left]

theorem movedNode_of_not (t : Tree α β) {s d q : List α} (hd : ¬ d <+: q) (hs : ¬ s <+: q) :
    movedNode t s d q = t.node q := by
  rw [movedNode, if_neg hd, if_neg hs]

variable [DecidableEq β]

/-! ### Making directories and writing files -/

/-- Puts something that is not there, or takes the place of something that is no directory. -/
def Tree.place (t : Tree α β) (p : List α) (x : Node β) : Option (Tree α β) :=
  if h : p ≠ [] ∧ t.node p.dropLast = some .dir ∧ t.node p ≠ some .dir then
    some
      { node := Function.update t.node p (some x)
        paths := insert p t.paths
        mem_paths := fun q => by
          rw [Finset.mem_insert]
          by_cases hq : q = p
          · subst hq
            simp
          · rw [Function.update_of_ne hq, t.mem_paths q]
            exact or_iff_right hq
        root := by rw [Function.update_of_ne (Ne.symm h.1)]; exact t.root
        parents := fun q n hnode => by
          by_cases hqn : q ++ [n] = p
          · have hq : q ≠ p := fun he => by
              rw [← he] at hqn
              exact absurd (congrArg List.length hqn) (by simp)
            rw [Function.update_of_ne hq]
            rw [← hqn, List.dropLast_concat] at h
            exact h.2.1
          · rw [Function.update_of_ne hqn] at hnode
            have hdir := t.parents q n hnode
            have hq : q ≠ p := by
              rintro rfl
              exact h.2.2 hdir
            rw [Function.update_of_ne hq]
            exact hdir }
  else none

theorem place_node {t t' : Tree α β} {p : List α} {x : Node β} (h : t.place p x = some t') :
    t'.node = Function.update t.node p (some x) ∧ p ≠ [] ∧ t.node p ≠ some .dir := by
  unfold Tree.place at h
  split_ifs at h with hok
  obtain rfl := Option.some.inj h
  exact ⟨rfl, hok.1, hok.2.2⟩

/-! ### Renaming -/

/-- What a rename of `s` to `d` needs. -/
def Movable (t : Tree α β) (s d : List α) : Prop :=
  s ≠ [] ∧ d ≠ [] ∧ t.node s ≠ none ∧ t.node d.dropLast = some .dir ∧ ¬ s <+: d ∧
    (t.node s = some .dir → t.node d = none ∨
      t.node d = some .dir ∧ ∀ q ∈ t.paths, d <+: q → q = d) ∧
    (t.node s ≠ some .dir → t.node d ≠ some .dir)

instance (t : Tree α β) (s d : List α) : Decidable (Movable t s d) := by
  unfold Movable; infer_instance

omit [DecidableEq α] in
/-- Nothing lies below the target of a rename. -/
theorem Movable.below {t : Tree α β} {s d : List α} (h : Movable t s d) {r : List α} (hr : r ≠ []) :
    t.node (d ++ r) = none := by
  obtain ⟨-, -, -, -, -, hdir, hother⟩ := h
  by_cases hs : t.node s = some .dir
  · rcases hdir hs with hnone | ⟨-, hempty⟩
    · exact t.below (by rw [hnone]; simp) hr
    · by_contra hnode
      have hmem := (t.mem_paths _).mpr hnode
      exact hr (by simpa using hempty _ hmem (List.prefix_append d r))
  · exact t.below (hother hs) hr

omit [DecidableEq α] [DecidableEq β] in
theorem Movable.ne {t : Tree α β} {s d : List α} (h : Movable t s d) : s ≠ d := by
  rintro rfl
  exact h.2.2.2.2.1 (List.prefix_refl s)

omit [DecidableEq α] in
/-- The source does not lie below the target. -/
theorem Movable.not_below {t : Tree α β} {s d : List α} (h : Movable t s d) : ¬ d <+: s := by
  rintro ⟨r, rfl⟩
  rcases eq_or_ne r [] with rfl | hr
  · exact h.2.2.2.2.1 (by simp)
  · exact h.2.2.1 (h.below hr)

/-- The tree after a rename. -/
def Movable.tree {t : Tree α β} {s d : List α} (h : Movable t s d) : Tree α β where
  node := movedNode t s d
  paths := (t.paths.filter fun q => ¬ d <+: q).image (relocate s d)
  mem_paths q := by
    obtain ⟨-, -, -, -, hapart, -, -⟩ := id h
    simp only [Finset.mem_image, Finset.mem_filter, t.mem_paths]
    constructor
    · rintro ⟨p, ⟨hnode, hd⟩, rfl⟩
      by_cases hs : s <+: p
      · obtain ⟨r, rfl⟩ := hs
        rw [relocate_append, movedNode_append]
        exact hnode
      · rw [relocate_of_not hs, movedNode_of_not t hd hs]
        exact hnode
    · intro hnode
      by_cases hd : d <+: q
      · obtain ⟨r, rfl⟩ := hd
        rw [movedNode_append] at hnode
        refine ⟨s ++ r, ⟨hnode, fun hds => ?_⟩, relocate_append s d r⟩
        rcases List.prefix_or_prefix_of_prefix hds (List.prefix_append s r) with h1 | h1
        · exact h.not_below h1
        · exact hapart h1
      · have hs : ¬ s <+: q := fun hs => hnode (by rw [movedNode, if_neg hd, if_pos hs])
        rw [movedNode_of_not t hd hs] at hnode
        exact ⟨q, ⟨hnode, hd⟩, relocate_of_not hs⟩
  root := by
    obtain ⟨hs, hd, -⟩ := id h
    rw [movedNode_of_not t (fun h => hd (List.prefix_nil.mp h)) fun h => hs (List.prefix_nil.mp h)]
    exact t.root
  parents q n hnode := by
    obtain ⟨-, -, -, hparent, hapart, -, -⟩ := id h
    by_cases hd : d <+: q ++ [n]
    · rcases List.prefix_concat_iff.mp hd with rfl | hdq
      · rw [List.dropLast_concat] at hparent
        have hdq : ¬ q ++ [n] <+: q := fun hp => by
          have := hp.length_le
          rw [List.length_append, List.length_singleton] at this
          omega
        rw [movedNode_of_not t hdq fun hs => hapart (hs.trans (List.prefix_append q [n]))]
        exact hparent
      · obtain ⟨r, rfl⟩ := hdq
        rw [List.append_assoc, movedNode_append, ← List.append_assoc] at hnode
        rw [movedNode_append]
        exact t.parents _ _ hnode
    · have hs : ¬ s <+: q ++ [n] := fun hs => hnode (by rw [movedNode, if_neg hd, if_pos hs])
      rw [movedNode_of_not t hd hs] at hnode
      rw [movedNode_of_not t (fun hp => hd (hp.trans (List.prefix_append q [n])))
        fun hp => hs (hp.trans (List.prefix_append q [n]))]
      exact t.parents q n hnode

/-- `os.replace(s, d)`; `none` for its `OSError`. -/
def Tree.move (t : Tree α β) (s d : List α) : Option (Tree α β) :=
  if s = d then if t.node s = none then none else some t
  else if h : Movable t s d then some h.tree else none

/-- A rename that changes the tree. -/
theorem move_cases {t t' : Tree α β} {s d : List α} (h : t.move s d = some t') :
    s = d ∧ t' = t ∨ ∃ hok : Movable t s d, t' = hok.tree := by
  unfold Tree.move at h
  split_ifs at h with hsd hnone hok
  · exact .inl ⟨hsd, (Option.some.inj h).symm⟩
  · exact .inr ⟨hok, (Option.some.inj h).symm⟩

/-- **A file that is not overwritten** is where the rename has put it. -/
theorem Movable.file_kept {t : Tree α β} {s d : List α} (h : Movable t s d) {p : List α} {f : β}
    (hf : t.node p = some (.file f)) (hp : p ≠ d) :
    h.tree.node (relocate s d p) = some (.file f) := by
  by_cases hs : s <+: p
  · obtain ⟨r, rfl⟩ := hs
    rw [relocate_append]
    exact (movedNode_append t s d r).trans hf
  · have hd : ¬ d <+: p := by
      rintro ⟨r, rfl⟩
      rw [h.below (by rintro rfl; exact hp (List.append_nil d))] at hf
      cases hf
    rw [relocate_of_not hs]
    exact (movedNode_of_not t hd hs).trans hf

omit [DecidableEq α] [DecidableEq β] in
/-- A rename of a directory overwrites no file. -/
theorem Movable.dir_overwrites {t : Tree α β} {s d : List α} (h : Movable t s d)
    (hs : t.node s = some .dir) (f : β) : t.node d ≠ some (.file f) := by
  obtain ⟨-, -, -, -, -, hdir, -⟩ := id h
  rcases hdir hs with hnone | ⟨hd, -⟩
  · rw [hnone]; simp
  · rw [hd]; simp

/-- Different paths of a tree stay different. -/
theorem Movable.relocate_ne {t : Tree α β} {s d : List α} (h : Movable t s d) {p q : List α}
    (hp : t.node p ≠ none) (hq : t.node q ≠ none) (hpd : p ≠ d) (hqd : q ≠ d) (hne : p ≠ q) :
    relocate s d p ≠ relocate s d q := by
  have hout : ∀ {p}, t.node p ≠ none → p ≠ d → ∀ r, p ≠ d ++ r := by
    rintro p hnode hpd r rfl
    exact hnode (h.below (by rintro rfl; exact hpd (List.append_nil d)))
  by_cases hsp : s <+: p
  · obtain ⟨r, rfl⟩ := hsp
    rw [relocate_append]
    by_cases hsq : s <+: q
    · obtain ⟨r', rfl⟩ := hsq
      rw [relocate_append]
      intro he
      exact hne (by rw [List.append_cancel_left he])
    · rw [relocate_of_not hsq]
      exact (hout hq hqd r).symm
  · rw [relocate_of_not hsp]
    by_cases hsq : s <+: q
    · obtain ⟨r', rfl⟩ := hsq
      rw [relocate_append]
      exact hout hp hpd r'
    · rw [relocate_of_not hsq]
      exact hne

/-! ### Runs of changes -/

/-- A change: a directory was moved, something else was moved, a directory was made where nothing was,
something was saved at a path, or everything at and below a path may be different. -/
inductive Change (α : Type) where
  | moved (source target : List α)
  | replaced (source target : List α)
  | made (path : List α)
  | saved (path : List α)
  | wrote (path : List α)
deriving DecidableEq

/-- What a change says of the trees before and after it. -/
def Change.Fits (t t' : Tree α β) : Change α → Prop
  | .moved s d => t.move s d = some t' ∧ t.node s = some .dir
  | .replaced s d => t.move s d = some t'
  | .made p => t.place p .dir = some t' ∧ t.node p = none
  | .saved p => ∃ x, t.place p x = some t'
  | .wrote p => ∀ q, ¬ p <+: q → t'.node q = t.node q

/-- Where a path leads after a change. -/
def Change.follow : Change α → List α → List α
  | .moved s d, p => relocate s d p
  | .replaced s d, p => relocate s d p
  | _, p => p

/-- The change may overwrite the file at a path. -/
def Change.Touches : Change α → List α → Prop
  | .replaced s d, p => s ≠ d ∧ p = d
  | .saved q, p => p = q
  | .wrote q, p => q <+: p
  | _, _ => False

/-- The changes from one tree to another. -/
inductive Runs (t : Tree α β) : List (Change α) → Tree α β → Prop
  | nil : Runs t [] t
  | snoc {changes : List (Change α)} {t' t'' : Tree α β} {c : Change α} (h : Runs t changes t')
    (hc : c.Fits t' t'') : Runs t (changes ++ [c]) t''

/-- Where a path leads after some changes. -/
def follow (changes : List (Change α)) (p : List α) : List α :=
  changes.foldl (fun p c => c.follow p) p

/-- One of the changes may overwrite the file that was at a path at first. -/
def Touched : List (Change α) → List α → Prop
  | [], _ => False
  | c :: changes, p => c.Touches p ∨ Touched changes (c.follow p)

theorem follow_concat (changes : List (Change α)) (c : Change α) (p : List α) :
    follow (changes ++ [c]) p = c.follow (follow changes p) := by
  simp [follow]

theorem touched_concat {c : Change α} : ∀ {changes : List (Change α)} {p : List α},
    Touched (changes ++ [c]) p ↔ Touched changes p ∨ c.Touches (follow changes p)
  | [], p => by simp [Touched, follow]
  | d :: changes, p => by
    rw [List.cons_append, Touched, Touched, touched_concat, or_assoc]
    rfl

theorem move_keeps {t t' : Tree α β} {s d p : List α} {f : β} (h : t.move s d = some t')
    (hf : t.node p = some (.file f)) (hp : s ≠ d → p ≠ d) :
    t'.node (relocate s d p) = some (.file f) := by
  rcases move_cases h with ⟨rfl, rfl⟩ | ⟨hok, rfl⟩
  · exact (congrArg t'.node (relocate_self s p)).trans hf
  · exact hok.file_kept hf (hp hok.ne)

theorem move_relocate_ne {t t' : Tree α β} {s d p q : List α} (h : t.move s d = some t')
    (hp : t.node p ≠ none) (hq : t.node q ≠ none) (hpd : s ≠ d → p ≠ d) (hqd : s ≠ d → q ≠ d)
    (hne : p ≠ q) : relocate s d p ≠ relocate s d q := by
  rcases move_cases h with ⟨rfl, rfl⟩ | ⟨hok, rfl⟩
  · exact fun he => hne ((relocate_self s p).symm.trans (he.trans (relocate_self s q)))
  · exact hok.relocate_ne hp hq (hpd hok.ne) (hqd hok.ne) hne

/-- A directory that is moved overwrites no file. -/
theorem move_dir_ne {t t' : Tree α β} {s d p : List α} {f : β} (h : t.move s d = some t')
    (hs : t.node s = some .dir) (hf : t.node p = some (.file f)) : s ≠ d → p ≠ d := by
  rintro hne rfl
  rcases move_cases h with ⟨hsd, -⟩ | ⟨hok, -⟩
  · exact hne hsd
  · exact hok.dir_overwrites hs f hf

theorem Change.Fits.file_kept {t t' : Tree α β} {c : Change α} (h : c.Fits t t') {p : List α} {f : β}
    (hf : t.node p = some (.file f)) (ht : ¬ c.Touches p) :
    t'.node (c.follow p) = some (.file f) := by
  cases c with
  | moved s d => exact move_keeps h.1 hf (move_dir_ne h.1 h.2 hf)
  | replaced s d => exact move_keeps h hf fun hsd hp => ht ⟨hsd, hp⟩
  | made q =>
    have hne : p ≠ q := by
      rintro rfl
      rw [h.2] at hf
      cases hf
    exact (congrFun (place_node h.1).1 p).trans ((Function.update_of_ne hne _ _).trans hf)
  | saved q =>
    obtain ⟨x, hx⟩ := h
    have hne : p ≠ q := ht
    exact (congrFun (place_node hx).1 p).trans ((Function.update_of_ne hne _ _).trans hf)
  | wrote q => exact (h p ht).trans hf

theorem Change.Fits.follow_ne {t t' : Tree α β} {c : Change α} (h : c.Fits t t') {p q : List α}
    {f g : β} (hp : t.node p = some (.file f)) (hq : t.node q = some (.file g)) (htp : ¬ c.Touches p)
    (htq : ¬ c.Touches q) (hne : p ≠ q) : c.follow p ≠ c.follow q := by
  have hpn : t.node p ≠ none := by rw [hp]; simp
  have hqn : t.node q ≠ none := by rw [hq]; simp
  cases c with
  | moved s d =>
    exact move_relocate_ne h.1 hpn hqn (move_dir_ne h.1 h.2 hp) (move_dir_ne h.1 h.2 hq) hne
  | replaced s d =>
    exact move_relocate_ne h hpn hqn (fun hsd hp => htp ⟨hsd, hp⟩) (fun hsd hq => htq ⟨hsd, hq⟩) hne
  | made _ => exact hne
  | saved _ => exact hne
  | wrote _ => exact hne

/-- **No file is lost**: after any changes, a file that none of them touched is where they put it. -/
theorem Runs.file_kept {t t' : Tree α β} {changes : List (Change α)} (h : Runs t changes t')
    {p : List α} {f : β} (hf : t.node p = some (.file f)) (ht : ¬ Touched changes p) :
    t'.node (follow changes p) = some (.file f) := by
  induction h with
  | nil => exact hf
  | @snoc changes t' t'' c _ hc ih =>
    rw [touched_concat, not_or] at ht
    rw [follow_concat]
    exact hc.file_kept (ih ht.1) ht.2

/-- **No two files become one.** -/
theorem Runs.follow_ne {t t' : Tree α β} {changes : List (Change α)} (h : Runs t changes t')
    {p q : List α} {f g : β} (hp : t.node p = some (.file f)) (hq : t.node q = some (.file g))
    (htp : ¬ Touched changes p) (htq : ¬ Touched changes q) (hne : p ≠ q) :
    follow changes p ≠ follow changes q := by
  induction h with
  | nil => exact hne
  | @snoc changes t' t'' c hruns hc ih =>
    rw [touched_concat, not_or] at htp htq
    rw [follow_concat, follow_concat]
    exact hc.follow_ne (hruns.file_kept hp htp.1) (hruns.file_kept hq htq.1) htp.2 htq.2
      (ih htp.1 htq.1)

end Cloudx.Lib.Trees

import Mathlib.Data.List.Forall2
import Mathlib.Data.List.Nodup

/-! # Results shared between equal keys

A list of items under keys, as a Python dict collects it: `firsts` keeps the first item of each key,
`memo` runs a fallible function on these alone, and the results are looked up by key afterwards.
`groups` collects all the items of each key instead. `firstResult` tries one thing after the other
until one has a result. -/

namespace Cloudx.Lib.Memo

variable {κ α β ε : Type}

theorem except_bind_ok {x : Except ε α} {f : α → Except ε β} {b : β} (h : (x >>= f) = .ok b) :
    ∃ a, x = .ok a ∧ f a = .ok b := by
  cases x with
  | error e => cases h
  | ok a => exact ⟨a, rfl, h⟩

theorem except_map_ok {x : Except ε α} {f : α → β} {b : β} (h : x.map f = .ok b) :
    ∃ a, x = .ok a ∧ f a = b := by
  cases x with
  | error e => cases h
  | ok a => exact ⟨a, rfl, Except.ok.inj h⟩

/-! ### The first that has a result -/

/-- Tries `f` on one element after the other. -/
def firstResult (f : α → Except ε (Option β)) : List α → Except ε (Option β)
  | [] => .ok none
  | a :: as => do
    match ← f a with
    | some b => return some b
    | none => firstResult f as

/-- **The result is that of one element, and those before it have none.** -/
theorem firstResult_some {f : α → Except ε (Option β)} {b : β} :
    ∀ {as : List α}, firstResult f as = .ok (some b) →
      ∃ before a after, as = before ++ a :: after ∧ (∀ a' ∈ before, f a' = .ok none) ∧
        f a = .ok (some b)
  | [], h => absurd h (by simp [firstResult])
  | a :: as, h => by
    obtain ⟨o, ho, h⟩ := except_bind_ok h
    cases o with
    | some b' =>
      refine ⟨[], a, as, rfl, by simp, ?_⟩
      rw [ho, ← Option.some.inj (Except.ok.inj h)]
    | none =>
      obtain ⟨before, a', after, rfl, hbefore, ha'⟩ := firstResult_some h
      exact ⟨a :: before, a', after, rfl, by simpa [ho] using hbefore, ha'⟩

/-- What `g` says of an attempt: nothing if there was no result, and no more if it failed. -/
def verdict {γ : Type} (g : β → Option γ) : Except ε (Option β) → Option (Option γ)
  | .ok none => none
  | .ok (some b) => some (g b)
  | .error _ => some none

/-- The verdict on a list of attempts is that on the first one that has one. -/
theorem verdict_firstResult {γ : Type} (g : β → Option γ) (f : α → Except ε (Option β)) :
    ∀ as : List α, verdict g (firstResult f as) = as.findSome? fun a => verdict g (f a)
  | [] => rfl
  | a :: as => by
    rw [List.findSome?_cons, firstResult]
    rcases f a with e | _ | b
    · rfl
    · exact verdict_firstResult g f as
    · rfl

/-! ### Lists of results -/

theorem mapM_option_some {f : α → Option β} :
    ∀ {as : List α} {bs : List β}, as.mapM f = some bs → ∀ a ∈ as, ∃ b, f a = some b
  | a :: as, bs, h, a', ha => by
    rw [List.mapM_cons] at h
    obtain ⟨b, hb, h⟩ := Option.bind_eq_some_iff.mp h
    obtain ⟨bs', hbs, -⟩ := Option.bind_eq_some_iff.mp h
    rcases List.mem_cons.mp ha with rfl | ha
    · exact ⟨b, hb⟩
    · exact mapM_option_some hbs a' ha

theorem forall₂_getElem? {R : α → β → Prop} {as : List α} {bs : List β} (h : List.Forall₂ R as bs)
    {i : ℕ} {a : α} (ha : as[i]? = some a) : ∃ b, bs[i]? = some b ∧ R a b := by
  obtain ⟨hi, rfl⟩ := List.getElem?_eq_some_iff.mp ha
  have hi' : i < bs.length := by rw [← h.length_eq]; exact hi
  exact ⟨bs[i], List.getElem?_eq_getElem hi', h.get hi hi'⟩

theorem forall₂_mem_right {R : α → β → Prop} : ∀ {as : List α} {bs : List β},
    List.Forall₂ R as bs → ∀ b ∈ bs, ∃ a ∈ as, R a b
  | _, _, .nil, _, hb => absurd hb (by simp)
  | a :: as, b' :: bs, .cons h hs, b, hb => by
    rcases List.mem_cons.mp hb with rfl | hb
    · exact ⟨a, List.mem_cons_self, h⟩
    · obtain ⟨a', ha', hr⟩ := forall₂_mem_right hs b hb
      exact ⟨a', List.mem_cons_of_mem a ha', hr⟩

theorem forall₂_mem_left {R : α → β → Prop} : ∀ {as : List α} {bs : List β},
    List.Forall₂ R as bs → ∀ a ∈ as, ∃ b ∈ bs, R a b
  | _, _, .nil, _, ha => absurd ha (by simp)
  | a' :: as, b :: bs, .cons h hs, a, ha => by
    rcases List.mem_cons.mp ha with rfl | ha
    · exact ⟨b, List.mem_cons_self, h⟩
    · obtain ⟨b', hb', hr⟩ := forall₂_mem_left hs a ha
      exact ⟨b', List.mem_cons_of_mem b hb', hr⟩

theorem forall₂_exists {R : α → β → Prop} : ∀ {as : List α},
    (∀ a ∈ as, ∃ b, R a b) → ∃ bs, List.Forall₂ R as bs
  | [], _ => ⟨[], .nil⟩
  | a :: as, h => by
    obtain ⟨b, hb⟩ := h a List.mem_cons_self
    obtain ⟨bs, hbs⟩ := forall₂_exists fun a' ha' => h a' (List.mem_cons_of_mem a ha')
    exact ⟨b :: bs, .cons hb hbs⟩

/-! ### Keys -/

/-- The items under their keys, which may fail to exist. -/
def keyed (key : α → Except ε κ) : List α → Except ε (List (κ × α))
  | [] => .ok []
  | a :: as => do
    let k ← key a
    let more ← keyed key as
    return (k, a) :: more

theorem forall_keyed {key : α → Except ε κ} : ∀ {as : List α} {xs : List (κ × α)},
    keyed key as = .ok xs → List.Forall₂ (fun a x => x.2 = a ∧ key a = .ok x.1) as xs
  | [], xs, h => by rw [← Except.ok.inj h]; exact .nil
  | a :: as, xs, h => by
    obtain ⟨k, hk, h⟩ := except_bind_ok h
    obtain ⟨more, hmore, h⟩ := except_bind_ok h
    rw [← Except.ok.inj h]
    exact .cons ⟨rfl, hk⟩ (forall_keyed hmore)

theorem forall_filterMap {f : α → Option β} {R : α → β → Prop} : ∀ {as : List α},
    (∀ a ∈ as, ∃ b, f a = some b ∧ R a b) → List.Forall₂ R as (as.filterMap f)
  | [], _ => .nil
  | a :: as, h => by
    obtain ⟨b, hb, hR⟩ := h a List.mem_cons_self
    rw [List.filterMap_cons_some hb]
    exact .cons hR (forall_filterMap fun a' ha' => h a' (List.mem_cons_of_mem _ ha'))

/-- The items of a keyed list are the items of the list. -/
theorem mem_keyed {key : α → Except ε κ} {as : List α} {xs : List (κ × α)}
    (h : keyed key as = .ok xs) {x : κ × α} (hx : x ∈ xs) : x.2 ∈ as ∧ key x.2 = .ok x.1 := by
  have hkeyed := forall_keyed h
  obtain ⟨i, hi, rfl⟩ := List.getElem_of_mem hx
  obtain ⟨h1, h2⟩ := hkeyed.get (by rw [hkeyed.length_eq]; exact hi) hi
  simp only [List.get_eq_getElem] at h1 h2
  rw [h1]
  exact ⟨List.getElem_mem _, h2⟩

theorem keyed_ok {key : α → Except ε κ} : ∀ {as : List α}, (∀ a ∈ as, ∃ k, key a = .ok k) →
    ∃ xs, keyed key as = .ok xs
  | [], _ => ⟨[], rfl⟩
  | a :: as, h => by
    obtain ⟨k, hk⟩ := h a List.mem_cons_self
    obtain ⟨xs, hxs⟩ := keyed_ok fun a' ha' => h a' (List.mem_cons_of_mem _ ha')
    exact ⟨(k, a) :: xs, by rw [keyed, hk, hxs]; rfl⟩

/-- **Keys that others tell apart are different** if the others are. -/
theorem nodup_keyed {κ' : Type} {f : α → Except ε κ} {g : α → Except ε κ'} : ∀ {as : List α}
    {xs : List (κ × α)} {ys : List (κ' × α)}, keyed f as = .ok xs → keyed g as = .ok ys →
      (∀ a ∈ as, ∀ a' ∈ as, ∀ k, g a = .ok k → g a' = .ok k → f a = f a') →
        (xs.map Prod.fst).Nodup → (ys.map Prod.fst).Nodup
  | [], xs, ys, _, hg, _, _ => by
    rw [← Except.ok.inj hg]
    exact List.nodup_nil
  | a :: as, xs, ys, hf, hg, htell, hnodup => by
    obtain ⟨k, hk, hf⟩ := except_bind_ok hf
    obtain ⟨xs', hxs, hf⟩ := except_bind_ok hf
    obtain ⟨k', hk', hg⟩ := except_bind_ok hg
    obtain ⟨ys', hys, hg⟩ := except_bind_ok hg
    rw [← Except.ok.inj hf, List.map_cons, List.nodup_cons] at hnodup
    rw [← Except.ok.inj hg, List.map_cons, List.nodup_cons]
    refine ⟨fun hmem => hnodup.1 ?_, nodup_keyed hxs hys (fun b hb b' hb' => htell b
      (List.mem_cons_of_mem a hb) b' (List.mem_cons_of_mem a hb')) hnodup.2⟩
    obtain ⟨y, hy, hkey⟩ := List.mem_map.mp hmem
    obtain ⟨hmem', hgy⟩ := mem_keyed hys hy
    obtain ⟨x, hx, hsame, hfx⟩ := forall₂_mem_left (forall_keyed hxs) y.2 hmem'
    have hgk : g y.2 = .ok k' := hgy.trans (congrArg Except.ok hkey)
    have hfa := htell a List.mem_cons_self y.2 (List.mem_cons_of_mem a hmem') k' hk' hgk
    rw [hk, hfx] at hfa
    exact List.mem_map.mpr ⟨x, hx, (Except.ok.inj hfa).symm⟩

variable [DecidableEq κ]

/-! ### The first of each key -/

/-- The first item of each key, in order. -/
def firsts : List (κ × α) → List (κ × α)
  | [] => []
  | x :: xs => x :: (firsts xs).filter (·.1 ≠ x.1)

theorem lookup_filter_ne {k k' : κ} (h : k ≠ k') : ∀ xs : List (κ × α),
    (xs.filter (·.1 ≠ k')).lookup k = xs.lookup k
  | [] => rfl
  | x :: xs => by
    have ih := lookup_filter_ne h xs
    by_cases hx : x.1 = k'
    · have hk : (k == x.1) = false := beq_false_of_ne (by rw [hx]; exact h)
      rw [List.filter_cons_of_neg (by simp [hx]), ih, List.lookup_cons, hk]
    · rw [List.filter_cons_of_pos (by simp [hx]), List.lookup_cons, List.lookup_cons, ih]

/-- The first items answer a lookup as all the items do. -/
theorem lookup_firsts (k : κ) : ∀ xs : List (κ × α), (firsts xs).lookup k = xs.lookup k
  | [] => rfl
  | x :: xs => by
    rw [firsts, List.lookup_cons, List.lookup_cons]
    by_cases hk : k = x.1
    · rw [beq_iff_eq.mpr hk]
    · rw [beq_false_of_ne hk, lookup_filter_ne hk, lookup_firsts k xs]

theorem lookup_of_mem {k : κ} {a : α} : ∀ {xs : List (κ × α)}, (k, a) ∈ xs →
    ∃ a', xs.lookup k = some a'
  | x :: xs, h => by
    rw [List.lookup_cons]
    by_cases hk : k = x.1
    · exact ⟨x.2, by rw [beq_iff_eq.mpr hk]⟩
    · rw [beq_false_of_ne hk]
      rcases List.mem_cons.mp h with h | h
      · exact absurd (congrArg Prod.fst h) hk
      · exact lookup_of_mem h

theorem mem_of_lookup {k : κ} {a : α} : ∀ {xs : List (κ × α)}, xs.lookup k = some a → (k, a) ∈ xs
  | x :: xs, h => by
    rw [List.lookup_cons] at h
    by_cases hk : k = x.1
    · rw [beq_iff_eq.mpr hk] at h
      rw [hk, ← Option.some.inj h]
      exact List.mem_cons_self
    · rw [beq_false_of_ne hk] at h
      exact List.mem_cons_of_mem _ (mem_of_lookup h)

theorem mem_of_mem_firsts {x : κ × α} : ∀ {xs : List (κ × α)}, x ∈ firsts xs → x ∈ xs
  | y :: ys, h => by
    rcases List.mem_cons.mp h with rfl | h
    · exact List.mem_cons_self
    · exact List.mem_cons_of_mem _ (mem_of_mem_firsts (List.mem_filter.mp h).1)

theorem nodup_firsts : ∀ xs : List (κ × α), ((firsts xs).map Prod.fst).Nodup
  | [] => List.nodup_nil
  | x :: xs => by
    rw [firsts, List.map_cons, List.nodup_cons]
    refine ⟨fun h => ?_, (nodup_firsts xs).sublist (List.Sublist.map _ List.filter_sublist)⟩
    obtain ⟨y, hy, hkey⟩ := List.mem_map.mp h
    have hne := (List.mem_filter.mp hy).2
    simp [hkey] at hne

/-- Every item has the key of one of the firsts. -/
theorem exists_first {key : α → Except ε κ} {as : List α} {keys : List (κ × α)}
    (hkeys : keyed key as = .ok keys) {a : α} (ha : a ∈ as) :
    ∃ x ∈ firsts keys, key a = .ok x.1 ∧ x.2 ∈ as ∧ key x.2 = .ok x.1 := by
  obtain ⟨x, hx, rfl, hkey⟩ := forall₂_mem_left (forall_keyed hkeys) a ha
  obtain ⟨b, hb⟩ := lookup_of_mem hx
  have hfirst := mem_of_lookup ((lookup_firsts x.1 keys).trans hb)
  exact ⟨_, hfirst, hkey, mem_keyed hkeys (mem_of_mem_firsts hfirst)⟩

/-- **Every item is told apart as finely by the firsts** as by its own properties, exactly when items
of one key share them. -/
theorem firsts_represent {ι : Type} {key : α → Except ε κ} {ident : α → ι} {as : List α}
    {keys : List (κ × α)} (hkeys : keyed key as = .ok keys)
    (hident : ∀ a ∈ as, ∀ b ∈ as, ident a = ident b → key a = key b) :
    (∀ a ∈ as, ∃ k ∈ (firsts keys).map Prod.snd, ident k = ident a) ↔
      ∀ a ∈ as, ∀ b ∈ as, key a = key b → ident a = ident b := by
  constructor
  · intro h a ha b hb hab
    obtain ⟨_, hk, hka⟩ := h a ha
    obtain ⟨_, hk', hkb⟩ := h b hb
    obtain ⟨x, hx, rfl⟩ := List.mem_map.mp hk
    obtain ⟨y, hy, rfl⟩ := List.mem_map.mp hk'
    obtain ⟨hxas, hxkey⟩ := mem_keyed hkeys (mem_of_mem_firsts hx)
    obtain ⟨hyas, hykey⟩ := mem_keyed hkeys (mem_of_mem_firsts hy)
    have hsame : key x.2 = key y.2 :=
      (hident _ hxas a ha hka).trans (hab.trans (hident _ hyas b hb hkb).symm)
    rw [hxkey, hykey] at hsame
    have hxy : x = y := List.inj_on_of_nodup_map (nodup_firsts keys) hx hy (Except.ok.inj hsame)
    rw [← hka, ← hkb, hxy]
  · intro h a ha
    obtain ⟨x, hx, hkey, hmem, hxkey⟩ := exists_first hkeys ha
    exact ⟨x.2, List.mem_map.mpr ⟨x, hx, rfl⟩, h x.2 hmem a ha (hxkey.trans hkey.symm)⟩

/-! ### Running a function once for each key -/

/-- The results of `f`, each under its key. -/
def tabulate (f : κ → α → Except ε β) : List (κ × α) → Except ε (List (κ × β))
  | [] => .ok []
  | (k, a) :: xs => do
    let b ← f k a
    let rest ← tabulate f xs
    return (k, b) :: rest

theorem lookup_tabulate {f : κ → α → Except ε β} {k : κ} {a : α} :
    ∀ {xs : List (κ × α)} {table : List (κ × β)}, tabulate f xs = .ok table →
      xs.lookup k = some a → ∃ b, f k a = .ok b ∧ table.lookup k = some b
  | (k', a') :: xs, table, h, hk => by
    obtain ⟨b, hb, h⟩ := except_bind_ok h
    obtain ⟨rest, hrest, h⟩ := except_bind_ok h
    rw [← Except.ok.inj h]
    rw [List.lookup_cons] at hk ⊢
    by_cases he : k = k'
    · subst he
      simp only [beq_self_eq_true, Option.some.injEq] at hk ⊢
      exact ⟨b, by rw [← hk]; exact hb, rfl⟩
    · rw [beq_false_of_ne he] at hk ⊢
      exact lookup_tabulate hrest hk

omit [DecidableEq κ] in
theorem tabulate_ok {f : κ → α → Except ε β} : ∀ {xs : List (κ × α)},
    (∀ x ∈ xs, ∃ b, f x.1 x.2 = .ok b) → ∃ table, tabulate f xs = .ok table
  | [], _ => ⟨[], rfl⟩
  | x :: xs, h => by
    obtain ⟨b, hb⟩ := h x List.mem_cons_self
    obtain ⟨table, ht⟩ := tabulate_ok fun y hy => h y (List.mem_cons_of_mem _ hy)
    exact ⟨(x.1, b) :: table, by rw [tabulate, hb, ht]; rfl⟩

/-- The results of `f` on the first item of each key. -/
def memo (f : κ → α → Except ε β) (xs : List (κ × α)) : Except ε (List (κ × β)) :=
  tabulate f (firsts xs)

/-- **Every item shares the result of the first one with its key.** -/
theorem lookup_memo {f : κ → α → Except ε β} {k : κ} {a : α} {xs : List (κ × α)}
    {table : List (κ × β)} (h : memo f xs = .ok table) (ha : (k, a) ∈ xs) :
    ∃ a' b, xs.lookup k = some a' ∧ f k a' = .ok b ∧ table.lookup k = some b := by
  obtain ⟨a', ha'⟩ := lookup_of_mem ha
  obtain ⟨b, hb, hlook⟩ := lookup_tabulate h (by rw [lookup_firsts]; exact ha')
  exact ⟨a', b, ha', hb, hlook⟩

/-- Runs `f` once for each key and gives every item the result of its key. -/
def shared (key : α → Except ε κ) (f : κ → α → Except ε β) (as : List α) : Except ε (List β) := do
  let xs ← keyed key as
  let table ← memo f xs
  return xs.filterMap fun x => table.lookup x.1

/-- An item's result is that of an item with the same key. -/
def SharedResult (key : α → Except ε κ) (f : κ → α → Except ε β) (as : List α) (a : α) (b : β) :
    Prop :=
  ∃ k a', key a = .ok k ∧ a' ∈ as ∧ key a' = .ok k ∧ f k a' = .ok b

/-- **The results of a shared run**, one for each item. -/
theorem forall_shared {key : α → Except ε κ} {f : κ → α → Except ε β} {as : List α} {bs : List β}
    (h : shared key f as = .ok bs) : List.Forall₂ (SharedResult key f as) as bs := by
  obtain ⟨xs, hxs, h⟩ := except_bind_ok h
  obtain ⟨table, htable, h⟩ := except_bind_ok h
  rw [← Except.ok.inj h]
  have hkeyed := forall_keyed hxs
  have hresults : List.Forall₂ (fun (x : κ × α) b => SharedResult key f as x.2 b) xs
      (xs.filterMap fun x => table.lookup x.1) := by
    refine forall_filterMap fun x hx => ?_
    obtain ⟨a', b, ha', hb, hlook⟩ := lookup_memo htable (k := x.1) (a := x.2) hx
    obtain ⟨h1, h2⟩ := mem_keyed hxs (mem_of_lookup ha')
    exact ⟨b, hlook, x.1, a', (mem_keyed hxs hx).2, h1, h2, hb⟩
  have hfst : List.Forall₂ (fun a (x : κ × α) => x.2 = a) as xs := hkeyed.imp fun _ _ h => h.1
  have has : xs.map Prod.snd = as := by
    rw [← List.forall₂_eq_eq_eq, List.forall₂_map_left_iff]
    exact hfst.flip
  rw [← List.forall₂_map_left_iff (f := Prod.snd), has] at hresults
  exact hresults

/-- **Sharing changes nothing if the key determines the result.** -/
theorem shared_ok_iff {key : α → Except ε κ} {f : κ → α → Except ε β} {as : List α} {bs : List β}
    (hsame : ∀ a ∈ as, ∀ a' ∈ as, ∀ k, key a = .ok k → key a' = .ok k → f k a = f k a') :
    shared key f as = .ok bs ↔
      List.Forall₂ (fun a b => ∃ k, key a = .ok k ∧ f k a = .ok b) as bs := by
  have hsound : ∀ {bs}, shared key f as = .ok bs →
      List.Forall₂ (fun a b => ∃ k, key a = .ok k ∧ f k a = .ok b) as bs := by
    intro bs h
    have hall := forall_shared h
    refine List.forall₂_iff_get.mpr ⟨hall.length_eq, fun i hi hi' => ?_⟩
    obtain ⟨k, a', hk, ha', hk', hb⟩ := hall.get hi hi'
    exact ⟨k, hk, by rw [hsame _ (List.get_mem as ⟨i, hi⟩) a' ha' k hk hk']; exact hb⟩
  refine ⟨hsound, fun h => ?_⟩
  have hrun : ∀ a ∈ as, ∃ k b, key a = .ok k ∧ f k a = .ok b := by
    intro a ha
    obtain ⟨i, hi⟩ := List.getElem?_of_mem ha
    obtain ⟨b, -, k, hk, hb⟩ := forall₂_getElem? h hi
    exact ⟨k, b, hk, hb⟩
  obtain ⟨xs, hxs⟩ := keyed_ok fun a ha => (hrun a ha).imp fun k hk => hk.choose_spec.1
  obtain ⟨table, htable⟩ : ∃ table, memo f xs = .ok table := by
    refine tabulate_ok fun x hx => ?_
    obtain ⟨hmem, hk⟩ := mem_keyed hxs (mem_of_mem_firsts hx)
    obtain ⟨k, b, hk', hb⟩ := hrun x.2 hmem
    obtain rfl := Except.ok.inj (hk.symm.trans hk')
    exact ⟨b, hb⟩
  have hshared : shared key f as = .ok (xs.filterMap fun x => table.lookup x.1) := by
    rw [shared, hxs]
    change (do let table ← memo f xs; pure _) = _
    rw [htable]
    rfl
  rw [hshared]
  congr 1
  have hall := hsound hshared
  refine List.ext_getElem (hall.length_eq.symm.trans h.length_eq) fun i h1 h2 => ?_
  have hi : i < as.length := by rw [h.length_eq]; exact h2
  obtain ⟨k, hk, hb⟩ := hall.get hi h1
  obtain ⟨k', hk', hb'⟩ := h.get hi h2
  obtain rfl := Except.ok.inj (hk.symm.trans hk')
  exact Except.ok.inj (hb.symm.trans hb')

theorem shared_single (key : α → Except ε κ) (f : κ → α → Except ε β) (a : α) :
    shared key f [a] = do
      let k ← key a
      let b ← f k a
      return [b] := by
  unfold shared memo
  rw [keyed]
  rcases key a with e | k
  · rfl
  · simp only [bind, Except.bind, keyed, pure, Except.pure, firsts, List.filter_nil, tabulate]
    rcases f k a with e | b
    · rfl
    · simp

/-! ### Groups -/

/-- The items of each key, in the order in which the keys come up. -/
def groups (xs : List (κ × α)) : List (κ × List α) :=
  (firsts xs).map fun x => (x.1, (xs.filter (·.1 = x.1)).map Prod.snd)

theorem groups_single (k : κ) (a : α) : groups [(k, a)] = [(k, [a])] := by
  simp [groups, firsts]

/-- **A group holds exactly the items of its key**, and there is at least one. -/
theorem mem_groups {xs : List (κ × α)} {k : κ} {as : List α} (h : (k, as) ∈ groups xs) :
    as ≠ [] ∧ ∀ a, a ∈ as ↔ (k, a) ∈ xs := by
  obtain ⟨x, hx, hk⟩ := List.mem_map.mp h
  obtain ⟨rfl, rfl⟩ := Prod.mk.inj hk
  have hmem : ∀ a, a ∈ (xs.filter (·.1 = x.1)).map Prod.snd ↔ (x.1, a) ∈ xs := by
    intro a
    rw [List.mem_map]
    constructor
    · rintro ⟨y, hy, rfl⟩
      obtain ⟨hy, hyk⟩ := List.mem_filter.mp hy
      rw [← of_decide_eq_true hyk]
      exact hy
    · exact fun ha => ⟨(x.1, a), List.mem_filter.mpr ⟨ha, decide_eq_true rfl⟩, rfl⟩
  refine ⟨?_, hmem⟩
  obtain ⟨a, ha⟩ := lookup_of_mem (a := x.2) hx
  rw [lookup_firsts] at ha
  exact List.ne_nil_of_mem ((hmem a).mpr (mem_of_lookup ha))

end Cloudx.Lib.Memo

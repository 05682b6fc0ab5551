import Mathlib.Data.List.Basic
import Mathlib.Data.List.Infix
import Mathlib.Tactic.Common

/-! # Streams that arrive in pieces

Two questions about a program that reads a stream piece by piece. A search for short patterns needs to
keep only the end of what it has read (`infix_append_window`). A verdict that is formed after every
piece, and for good at the end, does not depend on the pieces exactly if no early verdict says more
than the last (`verdict_iff`). -/

namespace Cloudx.Lib.Chunks

variable {α : Type}

/-! ### Searching across pieces -/

/-- The last `n` items. -/
def lastN (n : ℕ) (l : List α) : List α := l.drop (l.length - n)

theorem lastN_of_le {n : ℕ} {l : List α} (h : l.length ≤ n) : lastN n l = l := by
  rw [lastN, Nat.sub_eq_zero_of_le h, List.drop_zero]

theorem length_lastN (n : ℕ) (l : List α) : (lastN n l).length = min n l.length := by
  rw [lastN, List.length_drop]
  omega

/-- The end of a list that ends in a short one. -/
theorem lastN_append_of_le {n : ℕ} (x : List α) {z : List α} (h : z.length ≤ n) :
    lastN n (x ++ z) = lastN (n - z.length) x ++ z := by
  have hcount : (x ++ z).length - n = x.length - (n - z.length) := by
    rw [List.length_append]
    omega
  rw [lastN, hcount, List.drop_append_of_le_length (by omega), lastN]

/-- What was dropped before does not matter. -/
theorem lastN_append (n : ℕ) (x y : List α) : lastN n (lastN n x ++ y) = lastN n (x ++ y) := by
  have hx : x.take (x.length - n) ++ lastN n x = x := List.take_append_drop _ _
  have hlen : (x.take (x.length - n)).length = x.length - n := by
    rw [List.length_take]
    omega
  have hsplit : x ++ y = x.take (x.length - n) ++ (lastN n x ++ y) := by
    rw [← List.append_assoc, hx]
  have hcount : (x ++ y).length - n =
      (x.length - n) + ((lastN n x ++ y).length - n) := by
    rw [List.length_append, List.length_append, length_lastN]
    omega
  calc lastN n (lastN n x ++ y) = (lastN n x ++ y).drop ((lastN n x ++ y).length - n) := rfl
    _ = ((x ++ y).drop (x.length - n)).drop ((lastN n x ++ y).length - n) := by
      rw [hsplit, List.drop_left' hlen]
    _ = lastN n (x ++ y) := by rw [List.drop_drop, ← hcount, lastN]

/-- **A pattern stands in the whole exactly if it stands in what was read before, or in its end and
the new piece**, when the end is as long as the pattern but one. -/
theorem infix_append_window {n : ℕ} {pattern x y : List α} (h : pattern.length ≤ n + 1) :
    pattern <:+: x ++ y ↔ pattern <:+: x ∨ pattern <:+: lastN n x ++ y := by
  constructor
  · rintro ⟨u, v, huv⟩
    by_cases hin : u.length + pattern.length ≤ x.length
    · left
      have hpre : u ++ pattern <+: x := by
        refine List.prefix_of_prefix_length_le ?_ (List.prefix_append x y) (by simpa using hin)
        exact ⟨v, huv⟩
      exact (List.suffix_append u pattern).isInfix.trans hpre.isInfix
    · right
      have hdrop : x.length - n ≤ u.length := by omega
      refine ⟨u.drop (x.length - n), v, ?_⟩
      have hcut := congrArg (List.drop (x.length - n)) huv
      rw [List.append_assoc, List.drop_append_of_le_length hdrop,
        List.drop_append_of_le_length (by omega)] at hcut
      rw [List.append_assoc]
      exact hcut
  · rintro (h | h)
    · exact h.trans (List.prefix_append x y).isInfix
    · refine h.trans (List.IsSuffix.isInfix ?_)
      refine ⟨x.take (x.length - n), ?_⟩
      rw [← List.append_assoc]
      exact congrArg (· ++ y) (List.take_append_drop _ _)

/-! ### Verdicts on pieces -/

variable {ε ν : Type} {early final : List α → Except ε (Option ν)}

/-- A division of a stream into pieces that are not empty. -/
def Division (pieces : List (List α)) (stream : List α) : Prop :=
  pieces.flatten = stream ∧ ∀ piece ∈ pieces, piece ≠ []

/-- The last verdict: one is asked for after every piece, and one at the end. -/
def lastVerdict (early final : List α → Except ε (Option ν)) (read : List α) (kept : Option ν) :
    List (List α) → Except ε (Option ν)
  | [] => match final read with
    | .error e => .error e
    | .ok verdict => .ok (verdict.or kept)
  | piece :: pieces => match early (read ++ piece) with
    | .error e => .error e
    | .ok verdict => lastVerdict early final (read ++ piece) (verdict.or kept) pieces

/-- An early verdict on all of the stream is the verdict at the end. -/
def Consistent (early final : List α → Except ε (Option ν)) : Prop :=
  ∀ stream, (∀ e, early stream = .error e → final stream = .error e) ∧
    ∀ v, early stream = .ok (some v) → final stream = .ok (some v)

/-- No early verdict on a part of the stream says more than the verdict on all of it. -/
def Quiet (early final : List α → Except ε (Option ν)) (stream : List α) : Prop :=
  ∀ part, part <+: stream → part ≠ [] → part ≠ stream →
    (∀ e, early part = .error e → final stream = .error e) ∧
      ∀ v, early part = .ok (some v) → final stream ≠ .ok none

/-- With no early verdict that says more, the last verdict is that of the end. -/
theorem lastVerdict_of_quiet {stream : List α} (hconsistent : Consistent early final)
    (hquiet : Quiet early final stream) : ∀ (pieces : List (List α)) (read : List α) (kept : Option ν),
    read ++ pieces.flatten = stream → (∀ piece ∈ pieces, piece ≠ []) →
    (kept ≠ none → final stream ≠ .ok none) →
    lastVerdict early final read kept pieces = final stream
  | [], read, kept, hread, _, hkept => by
    obtain rfl : read = stream := by simpa using hread
    rw [lastVerdict]
    rcases hfinal : final read with e | _ | v
    · rfl
    · have hnone : kept = none := by
        by_contra hsome
        exact hkept hsome hfinal
      rw [hnone]
      rfl
    · rfl
  | piece :: pieces, read, kept, hread, hne, hkept => by
    have hread' : (read ++ piece) ++ pieces.flatten = stream := by
      rw [← hread, List.flatten_cons, List.append_assoc]
    have hpart : read ++ piece ≠ [] := by
      have := hne piece List.mem_cons_self
      simp [this]
    have htold : (∀ e, early (read ++ piece) = .error e → final stream = .error e) ∧
        ∀ v, early (read ++ piece) = .ok (some v) → final stream ≠ .ok none := by
      by_cases hall : read ++ piece = stream
      · obtain ⟨herror, hsome⟩ := hconsistent stream
        rw [hall]
        exact ⟨herror, fun v hv => by rw [hsome v hv]; simp⟩
      · exact hquiet _ ⟨_, hread'⟩ hpart hall
    rw [lastVerdict]
    rcases hearly : early (read ++ piece) with e | verdict
    · exact (htold.1 e hearly).symm
    · refine lastVerdict_of_quiet hconsistent hquiet pieces _ _ hread'
        (fun p hp => hne p (List.mem_cons_of_mem _ hp)) fun hsome => ?_
      rcases verdict with _ | v
      · exact hkept hsome
      · exact htold.2 v hearly

/-- **The last verdict does not depend on the division exactly if no early verdict says more.** -/
theorem verdict_iff {stream : List α} (hne : stream ≠ []) (hconsistent : Consistent early final) :
    (∀ pieces pieces', Division pieces stream → Division pieces' stream →
        lastVerdict early final [] none pieces = lastVerdict early final [] none pieces') ↔
      Quiet early final stream := by
  constructor
  · intro hsame part hpart hpartne hproper
    obtain ⟨rest, rfl⟩ := hpart
    have hrest : rest ≠ [] := fun h => hproper (by rw [h, List.append_nil])
    have hwhole : lastVerdict early final [] none [part ++ rest] = final (part ++ rest) := by
      obtain ⟨herror, hsome⟩ := hconsistent (part ++ rest)
      rw [lastVerdict, List.nil_append]
      rcases hearly : early (part ++ rest) with e | _ | v
      · exact (herror e hearly).symm
      · show lastVerdict early final (part ++ rest) none [] = final (part ++ rest)
        rw [lastVerdict]
        rcases final (part ++ rest) with e | _ | v <;> rfl
      · show lastVerdict early final (part ++ rest) (some v) [] = final (part ++ rest)
        rw [lastVerdict, hsome v hearly]
        rfl
    have heq := hsame [part, rest] [part ++ rest]
      ⟨by simp, by simp [hpartne, hrest]⟩ ⟨by simp, by simp [hpartne]⟩
    rw [hwhole, lastVerdict, List.nil_append] at heq
    constructor
    · intro e he
      rw [he] at heq
      exact heq.symm
    · intro v hv hnone
      rw [hv] at heq
      simp only [lastVerdict] at heq
      rw [hnone] at heq
      rcases hall : early (part ++ rest) with e | _ | w
      · exact absurd (((hconsistent (part ++ rest)).1 e hall).symm.trans hnone) (by simp)
      · rw [hall] at heq
        exact absurd heq (by simp)
      · rw [hall] at heq
        exact absurd heq (by simp)
  · intro hquiet pieces pieces' hpieces hpieces'
    rw [lastVerdict_of_quiet hconsistent hquiet pieces [] none (by simpa using hpieces.1) hpieces.2
        (by simp),
      lastVerdict_of_quiet hconsistent hquiet pieces' [] none (by simpa using hpieces'.1)
        hpieces'.2 (by simp)]

end Cloudx.Lib.Chunks

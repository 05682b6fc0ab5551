import Cloudx.Python.Value
import Mathlib.Data.List.Sort
import Mathlib.Algebra.Order.Ring.Rat
import Mathlib.Tactic.Linarith

/-! # Keeping the root cause of a failure

A gateway that has lost its last account answers only that no account is usable. Two views keep the
definitive cause that came before: the broker as it observes the responses (`_record_api_failure` of
`broker.py`), and the diagnosis as it reads the logs (`recent_local_observation` of
`api_diagnosis.py`).

Histories are lists of observations with their times, the newest first. -/

namespace Cloudx.Local.RootCause

open Cloudx.Python.Text

/-- `CAUSE_NO_USABLE_ACCOUNTS` -/
def causeNoUsableAccounts : Str := lit "no_usable_accounts"

/-- `DEFINITIVE_ACCOUNT_CAUSES` -/
def definitiveAccountCauses : List Str :=
  [lit "account_deactivated", lit "quota_exhausted", lit "rate_limited", lit "login_required",
    lit "access_denied"]

/-- `ROOT_CAUSE_WINDOW_SECONDS` -/
def rootCauseWindowSeconds : ℚ := 15 * 60

/-- `LOG_LOOKBACK_SECONDS` -/
def logLookbackSeconds : ℚ := 6 * 60 * 60

/-- `MAX_LOG_FILES` -/
def maxLogFiles : ℕ := 100

/-- What `as_observation` returns. -/
structure Observation where
  cause : Str
  httpStatus : Option ℤ
  signal : Str
  observedAt : ℚ
  retryAt : Option Str
  definitive : Bool
  source : Str
  maskedBy : Option Str
deriving DecidableEq

/-- The cause is `CAUSE_NO_USABLE_ACCOUNTS`. -/
def isGeneric (o : Observation) : Bool := o.cause = causeNoUsableAccounts

/-- The cause is in `DEFINITIVE_ACCOUNT_CAUSES`. -/
def isDefinitive (o : Observation) : Bool := o.cause ∈ definitiveAccountCauses

/-- The observation with `maskedBy` set. -/
def masked (o : Observation) : Observation := { o with maskedBy := some causeNoUsableAccounts }

/-! ### The broker -/

/-- `last_api_failure` and `last_api_failure_monotonic` -/
structure Retained where
  last : Option Observation
  since : Option ℚ
deriving DecidableEq

/-- `_record_api_failure` at the monotonic time `now`. -/
def recordApiFailure (s : Retained) (now : ℚ) (o : Observation) : Retained :=
  if o.cause = [] then s
  else match s.last, s.since with
    | some previous, some previousAt =>
      if isGeneric o ∧ isDefinitive previous ∧ now - previousAt ≤ rootCauseWindowSeconds then
        { s with last := some (masked previous) }
      else ⟨some o, some now⟩
    | _, _ => ⟨some o, some now⟩

/-- The broker after a history of observations, the oldest first. -/
def recordAll (history : List (ℚ × Observation)) : Retained :=
  history.foldl (fun s x => recordApiFailure s x.1 x.2) ⟨none, none⟩

/-! ### The logs -/

/-- A log file: its modification time, and what `_parse_log` makes of it. -/
structure LogFile where
  modified : ℚ
  observation : Option Observation
deriving DecidableEq

/-- The loop over the observations before `latest`, the newest first. -/
def searchRoot (latest : Observation) : List Observation → Observation
  | [] => latest
  | candidate :: rest =>
    if rootCauseWindowSeconds < latest.observedAt - candidate.observedAt then latest
    else if isDefinitive candidate then masked candidate
    else searchRoot latest rest

/-- The newest log files that are read. -/
def newestFiles (files : List LogFile) : List LogFile :=
  (files.insertionSort fun a b => b.modified ≤ a.modified).take maxLogFiles

/-- The observations that the newest logs give, less those out of the look-back window. -/
def recentObservations (now : ℚ) (files : List LogFile) : List Observation :=
  ((newestFiles files).filterMap LogFile.observation).filter fun o =>
    now - logLookbackSeconds ≤ o.observedAt && o.observedAt ≤ now + 5 * 60

/-- `recent_local_observation` on the log files it finds. -/
def recentLocalObservation (now : ℚ) (files : List LogFile) : Option Observation :=
  match (recentObservations now files).insertionSort fun a b => b.observedAt ≤ a.observedAt with
  | [] => none
  | latest :: rest => some (if isGeneric latest then searchRoot latest rest else latest)

/-! ### What the broker has kept -/

/-- The observations with a cause, the newest first. -/
def caused (history : List (ℚ × Observation)) : List (ℚ × Observation) :=
  (history.filter fun x => x.2.cause ≠ []).reverse

/-- The definitive observation before the newest generic ones, if all of these came within the
window after it. -/
def root (recent : List (ℚ × Observation)) : Option (ℚ × Observation) :=
  (recent.dropWhile fun x => isGeneric x.2).head?.filter fun x =>
    isDefinitive x.2 && (recent.takeWhile fun y => isGeneric y.2).all fun y =>
      y.1 - x.1 ≤ rootCauseWindowSeconds

/-- What is to be kept of a history: the definitive observation that generic ones have followed
within the window, marked as masked by them, and the newest observation otherwise. -/
def kept (recent : List (ℚ × Observation)) : Option Observation :=
  match root recent, recent.head? with
  | some x, some newest => some (if isGeneric newest.2 then masked x.2 else newest.2)
  | none, some newest => some newest.2
  | _, none => none

theorem generic_not_definitive {o : Observation} (h : isGeneric o = true) :
    isDefinitive o = false := by
  have hcause : o.cause = causeNoUsableAccounts := of_decide_eq_true h
  rw [isDefinitive, hcause]
  decide

theorem root_generic {x : ℚ × Observation} (h : isGeneric x.2 = true)
    (recent : List (ℚ × Observation)) :
    root (x :: recent) = (root recent).filter fun y => x.1 - y.1 ≤ rootCauseWindowSeconds := by
  unfold root
  simp only [List.dropWhile_cons, List.takeWhile_cons, h, if_true]
  rw [Option.filter_filter]
  congr 1
  funext y
  rw [List.all_cons]
  cases isDefinitive y.2 <;> simp [Bool.and_comm]

theorem root_plain {x : ℚ × Observation} (h : isGeneric x.2 = false)
    (recent : List (ℚ × Observation)) :
    root (x :: recent) = if isDefinitive x.2 then some x else none := by
  simp [root, h, Option.filter]

/-- The root is not generic. -/
theorem root_definitive {recent : List (ℚ × Observation)} {x : ℚ × Observation}
    (h : root recent = some x) : isDefinitive x.2 = true := by
  have := (Option.filter_eq_some_iff.mp h).2
  exact (Bool.and_eq_true_iff.mp this).1

/-- The time from which the window of the kept observation is measured. -/
def keptAt (recent : List (ℚ × Observation)) : Option ℚ :=
  match root recent with
  | some x => some x.1
  | none => recent.head?.map Prod.fst

/-- One observation. -/
theorem record_step {recent : List (ℚ × Observation)} {x : ℚ × Observation} (hx : x.2.cause ≠ []) :
    recordApiFailure ⟨kept recent, keptAt recent⟩ x.1 x.2 =
      ⟨kept (x :: recent), keptAt (x :: recent)⟩ := by
  unfold recordApiFailure
  rw [if_neg hx]
  by_cases hg : isGeneric x.2 = true
  · -- a generic observation keeps the root if it is within its window
    rcases hr : root recent with _ | y
    · have hnew : root (x :: recent) = none := by rw [root_generic hg, hr]; rfl
      have hprev : ∀ previous, kept recent = some previous → isDefinitive previous = false := by
        intro previous hk
        rw [kept, hr] at hk
        rcases recent with _ | ⟨z, older⟩
        · exact absurd hk (by simp)
        · rw [← Option.some.inj hk]
          by_cases hz : isGeneric z.2 = true
          · exact generic_not_definitive hz
          · rw [root_plain (by simpa using hz)] at hr
            split_ifs at hr with hd
            simpa using hd
      have hout : (⟨some x.2, some x.1⟩ : Retained) = ⟨kept (x :: recent), keptAt (x :: recent)⟩ := by
        rw [kept, keptAt, hnew]; rfl
      rw [← hout]
      rcases hk : kept recent with _ | previous
      · rfl
      · rcases hka : keptAt recent with _ | t
        · rfl
        · simp only [hprev previous hk]
          rw [if_neg (by simp)]
    · obtain ⟨newest, older, rfl⟩ : ∃ newest older, recent = newest :: older := by
        rcases recent with _ | ⟨z, older⟩
        · exact absurd hr (by simp [root])
        · exact ⟨z, older, rfl⟩
      have hroot := root_definitive hr
      have hkept : ∃ previous, kept (newest :: older) = some previous ∧
          isDefinitive previous = true ∧ masked previous = masked y.2 := by
        rw [kept, hr]
        by_cases hn : isGeneric newest.2 = true
        · exact ⟨masked y.2, by simp [hn], hroot, rfl⟩
        · rw [root_plain (by simpa using hn)] at hr
          split_ifs at hr
          rw [← Option.some.inj hr] at hroot ⊢
          exact ⟨newest.2, by simp [hn], hroot, rfl⟩
      obtain ⟨previous, hprev, hdef, hmask⟩ := hkept
      have hat : keptAt (newest :: older) = some y.1 := by rw [keptAt, hr]
      rw [hprev, hat]
      simp only
      by_cases hw : x.1 - y.1 ≤ rootCauseWindowSeconds
      · have hnew : root (x :: newest :: older) = some y := by
          rw [root_generic hg, hr, Option.filter_some, if_pos (by simpa using hw)]
        rw [if_pos ⟨hg, hdef, hw⟩, kept, keptAt, hnew, hmask]
        simp [hg]
      · have hnew : root (x :: newest :: older) = none := by
          rw [root_generic hg, hr, Option.filter_some, if_neg (by simpa using hw)]
        rw [if_neg (fun h => hw h.2.2), kept, keptAt, hnew]
        rfl
  · -- any other observation replaces what was kept
    have hout : (⟨some x.2, some x.1⟩ : Retained) = ⟨kept (x :: recent), keptAt (x :: recent)⟩ := by
      rw [kept, keptAt, root_plain (by simpa using hg)]
      split_ifs
      · simp [hg]
      · rfl
    rw [← hout]
    split
    · rw [if_neg (fun h => hg h.1)]
    · rfl

/-- The record after a whole history. -/
theorem recordAll_kept (history : List (ℚ × Observation)) :
    recordAll history = ⟨kept (caused history), keptAt (caused history)⟩ := by
  induction history using List.reverseRecOn with
  | nil => rfl
  | append_singleton history x ih =>
    unfold recordAll at ih ⊢
    rw [List.foldl_append, ih, List.foldl_cons, List.foldl_nil]
    by_cases hx : x.2.cause = []
    · have hsame : caused (history ++ [x]) = caused history := by
        rw [caused, List.filter_append, List.filter_singleton]
        simp [hx, caused]
      rw [hsame, recordApiFailure, if_pos hx]
    · have hnew : caused (history ++ [x]) = x :: caused history := by
        rw [caused, List.filter_append, List.filter_singleton]
        simp [hx, caused]
      rw [hnew, record_step hx]

/-- **Retention is exact**: among the observations with a cause, the broker keeps the definitive one
that only generic ones have followed within its window, and the newest otherwise; and the window is
always measured from the definitive one. -/
theorem retention_exact (history : List (ℚ × Observation)) :
    (recordAll history).last = kept (caused history) ∧
      (recordAll history).since = keptAt (caused history) := by
  rw [recordAll_kept]
  exact ⟨rfl, rfl⟩

/-- An observation of this cause, made at this time. -/
def sample (cause : Str) (t : ℚ) : Observation :=
  ⟨cause, some 503, lit "other", t, none, decide (cause ∈ definitiveAccountCauses),
    lit "tunnel_observation", none⟩

/-- The same with the observations that have no cause counted when the root is looked for. -/
def keptOfAll (history : List (ℚ × Observation)) : Option Observation :=
  match root history.reverse, history.getLast? with
  | some x, some newest => some (if isGeneric newest.2 then masked x.2 else newest.2)
  | _, _ => (caused history).head?.map Prod.snd

/-- An observation without a cause does not end the retention: here it comes between the definitive
one and the generic one. -/
theorem causeless_not_counted :
    (recordAll [(0, sample (lit "rate_limited") 0), (1, sample [] 1),
        (2, sample causeNoUsableAccounts 2)]).last ≠
      keptOfAll [(0, sample (lit "rate_limited") 0), (1, sample [] 1),
        (2, sample causeNoUsableAccounts 2)] := by
  decide +kernel

/-! ### The two views -/

/-- What the broker holds after these observations, each recorded when it was made. -/
def brokerView (history : List Observation) : Option Observation :=
  (recordAll (history.map fun o => (o.observedAt, o))).last

/-- The cause and the mask of what is held. -/
def shown (o : Option Observation) : Option (Str × Option Str) :=
  o.map fun o => (o.cause, o.maskedBy)

/-- The newest observation has a cause; and if it is generic, and a definitive one came within the
window before it, then only generic ones (and ones without a cause) came between the two. -/
def Undisturbed (history : List Observation) : Prop :=
  ∀ newest older, history.reverse = newest :: older →
    newest.cause ≠ [] ∧ ∀ between d before, older = between ++ d :: before →
      isGeneric newest = true → isDefinitive d = true → (∀ b ∈ between, isDefinitive b = false) →
      newest.observedAt - d.observedAt ≤ rootCauseWindowSeconds →
        ∀ b ∈ between, b.cause ≠ [] → isGeneric b = true

/-- The logs, sorted, are the history. -/
theorem sorted_logs {observations history : List Observation} (h : observations.Perm history)
    (hinc : history.Pairwise fun a b => a.observedAt < b.observedAt) :
    (observations.insertionSort fun a b => b.observedAt ≤ a.observedAt) = history.reverse := by
  have htotal : Std.Total fun a b : Observation => b.observedAt ≤ a.observedAt :=
    ⟨fun a b => le_total b.observedAt a.observedAt⟩
  have htrans : IsTrans Observation fun a b => b.observedAt ≤ a.observedAt :=
    ⟨fun _ _ _ hab hbc => le_trans hbc hab⟩
  have hsorted := List.pairwise_insertionSort
    (fun a b : Observation => b.observedAt ≤ a.observedAt) observations
  have hrev : history.reverse.Pairwise fun a b => b.observedAt ≤ a.observedAt :=
    List.pairwise_reverse.mpr (hinc.imp le_of_lt)
  have hperm := (List.perm_insertionSort (fun a b : Observation => b.observedAt ≤ a.observedAt)
    observations).trans (h.trans history.reverse_perm.symm)
  have hnodup : (history.map Observation.observedAt).Nodup :=
    List.pairwise_map.mpr (hinc.imp ne_of_lt)
  refine hperm.eq_of_pairwise ?_ hsorted hrev
  -- two observations of the history at the same time are the same one
  intro a b ha hb hab hba
  have ha' : a ∈ history := h.mem_iff.mp ((List.mem_insertionSort _).mp ha)
  exact List.inj_on_of_nodup_map hnodup ha' (List.mem_reverse.mp hb) (le_antisymm hba hab)

/-- The search finds the newest definitive observation, when it is within the window. -/
theorem searchRoot_found {latest d : Observation} (hd : isDefinitive d = true)
    (hw : latest.observedAt - d.observedAt ≤ rootCauseWindowSeconds) (before : List Observation) :
    ∀ between : List Observation, (∀ b ∈ between, isDefinitive b = false) →
      (∀ b ∈ between, d.observedAt ≤ b.observedAt) →
      searchRoot latest (between ++ d :: before) = masked d
  | [], _, _ => by
    rw [List.nil_append, searchRoot, if_neg (not_lt.mpr hw), if_pos hd]
  | b :: between, hnot, hlate => by
    have hb : latest.observedAt - b.observedAt ≤ rootCauseWindowSeconds := by
      have := hlate b (by simp)
      linarith
    rw [List.cons_append, searchRoot, if_neg (not_lt.mpr hb), if_neg (by simp [hnot b])]
    exact searchRoot_found hd hw before between (fun c hc => hnot c (by simp [hc]))
      (fun c hc => hlate c (by simp [hc]))

/-- It finds nothing when every definitive observation is out of the window. -/
theorem searchRoot_missed {latest : Observation} : ∀ older : List Observation,
    (∀ d ∈ older, isDefinitive d = true →
      rootCauseWindowSeconds < latest.observedAt - d.observedAt) →
    searchRoot latest older = latest
  | [], _ => rfl
  | b :: older, h => by
    rw [searchRoot]
    by_cases hb : rootCauseWindowSeconds < latest.observedAt - b.observedAt
    · rw [if_pos hb]
    · have hnot : ¬ isDefinitive b = true := fun hd => hb (h b (by simp) hd)
      rw [if_neg hb, if_neg hnot]
      exact searchRoot_missed older fun d hd => h d (by simp [hd])

/-- Generic observations keep the root that is within the window of all of them. -/
theorem root_after : ∀ {generic : List (ℚ × Observation)}, (∀ y ∈ generic, isGeneric y.2 = true) →
    ∀ recent, root (generic ++ recent) =
      (root recent).filter fun x => generic.all fun y => y.1 - x.1 ≤ rootCauseWindowSeconds
  | [], _, recent => by
    show root recent = (root recent).filter fun _ => true
    rcases root recent with _ | x <;> rfl
  | x :: generic, h, recent => by
    rw [List.cons_append, root_generic (h x (by simp)), root_after (fun y hy => h y (by simp [hy])),
      Option.filter_filter]
    congr 1
    funext y
    rw [List.all_cons, Bool.and_comm]

/-- The observations with a cause, with their times: what the broker counts of a history whose
newest come first. -/
def counted (recent : List Observation) : List (ℚ × Observation) :=
  (recent.filter fun o => o.cause ≠ []).map fun o => (o.observedAt, o)

/-- What the broker counts, when it records each observation at its own time. -/
theorem caused_at (history : List Observation) :
    caused (history.map fun o => (o.observedAt, o)) = counted history.reverse := by
  rw [caused, counted, List.filter_map, ← List.map_reverse, List.filter_reverse]
  rfl

/-- The broker keeps an observation with a cause. -/
theorem kept_caused {recent : List (ℚ × Observation)} (h : ∀ x ∈ recent, x.2.cause ≠ [])
    {o : Observation} (hk : kept recent = some o) : o.cause ≠ [] := by
  rcases recent with _ | ⟨newest, older⟩
  · rw [kept] at hk
    exact absurd hk (by simp [root])
  · rcases hr : root (newest :: older) with _ | x
    · rw [kept, hr] at hk
      rw [← Option.some.inj hk]
      exact h newest (by simp)
    · have hx : x ∈ newest :: older := by
        have hhead := (Option.filter_eq_some_iff.mp hr).1
        exact List.dropWhile_subset _ (List.mem_of_mem_head? hhead)
      rw [kept, hr] at hk
      rw [← Option.some.inj hk]
      split_ifs
      · exact h x hx
      · exact h newest (by simp)

/-- The broker keeps the newest observation when it is not generic. -/
theorem kept_plain {x : ℚ × Observation} (h : isGeneric x.2 = false)
    (older : List (ℚ × Observation)) : kept (x :: older) = some x.2 := by
  rw [kept, root_plain h]
  split_ifs
  · simp [h]
  · rfl

/-- The broker keeps the newest observation when there is no root. -/
theorem kept_rootless {x : ℚ × Observation} {older : List (ℚ × Observation)}
    (h : root (x :: older) = none) : kept (x :: older) = some x.2 := by
  rw [kept, h]
  rfl

/-- There is no root when the newest definitive observation is not the newest that is not generic. -/
theorem root_disturbed {between : List (ℚ × Observation)} {b : ℚ × Observation}
    (hnot : ∀ y ∈ between, isDefinitive y.2 = false) (hb : b ∈ between)
    (hplain : isGeneric b.2 = false) (before : List (ℚ × Observation)) :
    root (between ++ before) = none := by
  induction between with
  | nil => exact absurd hb (by simp)
  | cons y between ih =>
    rw [List.cons_append]
    by_cases hy : isGeneric y.2 = true
    · have hmem : b ∈ between := by
        rcases List.mem_cons.mp hb with rfl | hmem
        · rw [hplain] at hy
          exact absurd hy (by simp)
        · exact hmem
      rw [root_generic hy, ih (fun z hz => hnot z (by simp [hz])) hmem]
      rfl
    · rw [root_plain (by simpa using hy), if_neg (by simp [hnot y])]

theorem mem_counted {recent : List Observation} {x : ℚ × Observation} (hx : x ∈ counted recent) :
    x.2 ∈ recent ∧ x.2.cause ≠ [] ∧ x.1 = x.2.observedAt := by
  obtain ⟨o, ho, rfl⟩ := List.mem_map.mp hx
  obtain ⟨hmem, hcause⟩ := List.mem_filter.mp ho
  exact ⟨hmem, by simpa using hcause, rfl⟩

theorem counted_append (newer older : List Observation) :
    counted (newer ++ older) = counted newer ++ counted older := by
  rw [counted, List.filter_append, List.map_append]
  rfl

theorem counted_cons {o : Observation} (h : o.cause ≠ []) (older : List Observation) :
    counted (o :: older) = (o.observedAt, o) :: counted older := by
  rw [counted, List.filter_cons_of_pos (by simpa using h)]
  rfl

theorem generic_caused {o : Observation} (h : isGeneric o = true) : o.cause ≠ [] := by
  rw [of_decide_eq_true h]
  decide

theorem definitive_caused {o : Observation} (h : isDefinitive o = true) : o.cause ≠ [] := by
  intro hcause
  rw [isDefinitive, hcause] at h
  exact absurd h (by decide)

theorem definitive_not_generic {o : Observation} (h : isDefinitive o = true) :
    isGeneric o = false := by
  by_contra hg
  rw [generic_not_definitive (by simpa using hg)] at h
  exact absurd h (by simp)

/-- The broker shows the definitive observation that only generic ones have followed in time. -/
theorem kept_masked {newest d : Observation} {between : List Observation}
    (hg : isGeneric newest = true) (hd : isDefinitive d = true)
    (hw : newest.observedAt - d.observedAt ≤ rootCauseWindowSeconds)
    (hbetween : ∀ b ∈ between, b.cause ≠ [] → isGeneric b = true)
    (htime : ∀ b ∈ between, b.observedAt ≤ newest.observedAt) (before : List Observation) :
    kept (counted (newest :: (between ++ d :: before))) = some (masked d) := by
  have hrest : counted (between ++ d :: before) =
      counted between ++ (d.observedAt, d) :: counted before := by
    rw [counted_append, counted_cons (definitive_caused hd)]
  have hgeneric : ∀ y ∈ (newest.observedAt, newest) :: counted between, isGeneric y.2 = true := by
    intro y hy
    rcases List.mem_cons.mp hy with rfl | hy
    · exact hg
    · obtain ⟨hmem, hcause, -⟩ := mem_counted hy
      exact hbetween y.2 hmem hcause
  have hin : ∀ y ∈ (newest.observedAt, newest) :: counted between,
      y.1 - d.observedAt ≤ rootCauseWindowSeconds := by
    intro y hy
    rcases List.mem_cons.mp hy with rfl | hy
    · exact hw
    · obtain ⟨hmem, -, htime'⟩ := mem_counted hy
      have := htime y.2 hmem
      rw [htime']
      linarith
  have hroot : root ((newest.observedAt, newest) :: counted (between ++ d :: before)) =
      some (d.observedAt, d) := by
    rw [hrest, ← List.cons_append, root_after hgeneric, root_plain (definitive_not_generic hd),
      if_pos hd, Option.filter_some, if_pos]
    rw [List.all_eq_true]
    intro y hy
    exact decide_eq_true (hin y hy)
  rw [counted_cons (generic_caused hg), kept, hroot]
  simp [hg]

/-- It shows the generic observation when there is no definitive one before it. -/
theorem kept_unmasked {newest : Observation} {older : List Observation}
    (hg : isGeneric newest = true) (hnot : ∀ b ∈ older, isDefinitive b = false) :
    kept (counted (newest :: older)) = some newest := by
  rw [counted_cons (generic_caused hg)]
  apply kept_rootless
  rw [root_generic hg]
  have hroot : root (counted older) = none := by
    by_contra hne
    obtain ⟨x, hx⟩ := Option.ne_none_iff_exists'.mp hne
    have hmem : x ∈ counted older :=
      List.dropWhile_subset _ (List.mem_of_mem_head? (Option.filter_eq_some_iff.mp hx).1)
    have hd := root_definitive hx
    rw [hnot x.2 (mem_counted hmem).1] at hd
    exact absurd hd (by simp)
  rw [hroot]
  rfl

/-- It shows the generic observation when the definitive one is out of the window. -/
theorem kept_late {newest d : Observation} {between : List Observation}
    (hg : isGeneric newest = true) (hd : isDefinitive d = true)
    (hnot : ∀ b ∈ between, isDefinitive b = false)
    (hw : ¬ newest.observedAt - d.observedAt ≤ rootCauseWindowSeconds)
    (before : List Observation) :
    kept (counted (newest :: (between ++ d :: before))) = some newest := by
  rw [counted_cons (generic_caused hg)]
  apply kept_rootless
  rw [counted_append, counted_cons (definitive_caused hd)]
  by_cases hall : ∀ y ∈ counted between, isGeneric y.2 = true
  · have hgeneric : ∀ y ∈ (newest.observedAt, newest) :: counted between,
        isGeneric y.2 = true := by
      intro y hy
      rcases List.mem_cons.mp hy with rfl | hy
      · exact hg
      · exact hall y hy
    rw [← List.cons_append, root_after hgeneric, root_plain (definitive_not_generic hd), if_pos hd,
      Option.filter_some, if_neg]
    simp only [List.all_cons, Bool.and_eq_true, decide_eq_true_eq, not_and]
    exact fun h => absurd h hw
  · push Not at hall
    obtain ⟨b, hb, hplain⟩ := hall
    rw [root_generic hg, root_disturbed (fun y hy => hnot y.2 (mem_counted hy).1) hb
      (by simpa using hplain)]
    rfl

/-- It shows the generic observation when another failure came after the definitive one. -/
theorem kept_disturbed {newest d b : Observation} {between : List Observation}
    (hg : isGeneric newest = true) (hnot : ∀ b ∈ between, isDefinitive b = false)
    (hb : b ∈ between) (hcause : b.cause ≠ []) (hplain : isGeneric b = false)
    (before : List Observation) :
    kept (counted (newest :: (between ++ d :: before))) = some newest := by
  rw [counted_cons (generic_caused hg)]
  apply kept_rootless
  have hmem : (b.observedAt, b) ∈ counted between :=
    List.mem_map.mpr ⟨b, List.mem_filter.mpr ⟨hb, by simpa using hcause⟩, rfl⟩
  rw [counted_append, root_generic hg,
    root_disturbed (fun y hy => hnot y.2 (mem_counted hy).1) hmem hplain]
  rfl

/-- Masked and generic observations are told apart. -/
theorem shown_masked_ne {d newest : Observation} (hd : isDefinitive d = true)
    (hg : isGeneric newest = true) : shown (some newest) ≠ shown (some (masked d)) := by
  intro h
  have hcause : newest.cause = d.cause := congrArg Prod.fst (Option.some.inj h)
  rw [isGeneric, hcause] at hg
  have : isGeneric d = false := definitive_not_generic hd
  rw [isGeneric, hg] at this
  exact absurd this (by simp)

/-- The two views of a history whose newest observation is generic. -/
theorem generic_views_agree {newest : Observation} {older : List Observation}
    (hg : isGeneric newest = true)
    (hinc : (newest :: older).Pairwise fun a b => b.observedAt < a.observedAt) :
    shown (kept (counted (newest :: older))) = shown (some (searchRoot newest older)) ↔
      ∀ between d before, older = between ++ d :: before → isDefinitive d = true →
        (∀ b ∈ between, isDefinitive b = false) →
        newest.observedAt - d.observedAt ≤ rootCauseWindowSeconds →
          ∀ b ∈ between, b.cause ≠ [] → isGeneric b = true := by
  obtain ⟨hnewest, holder⟩ := List.pairwise_cons.mp hinc
  rcases hfind : older.find? isDefinitive with _ | d
  · -- nothing definitive: both show the generic observation
    have hnot : ∀ b ∈ older, isDefinitive b = false := fun b hb => by
      simpa using List.find?_eq_none.mp hfind b hb
    have hsearch : searchRoot newest older = newest :=
      searchRoot_missed older fun b hb hd => absurd (hnot b hb) (by simp [hd])
    rw [kept_unmasked hg hnot, hsearch]
    refine iff_of_true rfl ?_
    intro between d before hsplit hd
    exact absurd (hnot d (by simp [hsplit])) (by simp [hd])
  · obtain ⟨hd, between, before, rfl, hbefore⟩ := List.find?_eq_some_iff_append.mp hfind
    have hnot : ∀ b ∈ between, isDefinitive b = false := fun b hb => by simpa using hbefore b hb
    have huniq : ∀ between' d' before', between ++ d :: before = between' ++ d' :: before' →
        isDefinitive d' = true → (∀ b ∈ between', isDefinitive b = false) →
        between' = between ∧ d' = d := by
      intro between' d' before' hsplit hd' hnot'
      have htake := congrArg (List.takeWhile fun b => !isDefinitive b) hsplit
      have hdrop := congrArg (List.find? isDefinitive) hsplit
      rw [hfind, List.find?_append, List.find?_eq_none.mpr (by simpa using hnot'),
        Option.none_or, List.find?_cons_of_pos hd'] at hdrop
      rw [List.takeWhile_append_of_pos (by simpa using hnot), List.takeWhile_append_of_pos
        (by simpa using hnot'), List.takeWhile_cons_of_neg (by simp [hd]),
        List.takeWhile_cons_of_neg (by simp [hd']), List.append_nil, List.append_nil] at htake
      exact ⟨htake.symm, (Option.some.inj hdrop).symm⟩
    by_cases hw : newest.observedAt - d.observedAt ≤ rootCauseWindowSeconds
    · have hlate : ∀ b ∈ between, d.observedAt ≤ b.observedAt := fun b hb =>
        le_of_lt ((List.pairwise_append.mp holder).2.2 b hb d (by simp))
      rw [searchRoot_found hd hw before between hnot hlate]
      by_cases hall : ∀ b ∈ between, b.cause ≠ [] → isGeneric b = true
      · rw [kept_masked hg hd hw hall
          (fun b hb => le_of_lt (hnewest b (by simp [hb]))) before]
        refine iff_of_true rfl ?_
        intro between' d' before' hsplit hd' hnot' _
        obtain ⟨rfl, rfl⟩ := huniq between' d' before' hsplit hd' hnot'
        exact hall
      · push Not at hall
        obtain ⟨b, hb, hcause, hplain⟩ := hall
        rw [kept_disturbed hg hnot hb hcause (by simpa using hplain) before]
        refine iff_of_false (shown_masked_ne hd hg) fun h => ?_
        exact hplain (h between d before rfl hd hnot hw b hb hcause)
    · have hmissed : ∀ c ∈ between ++ d :: before, isDefinitive c = true →
          rootCauseWindowSeconds < newest.observedAt - c.observedAt := by
        intro c hc hcd
        rcases List.mem_append.mp hc with hc | hc
        · exact absurd (hnot c hc) (by simp [hcd])
        · have hle : c.observedAt ≤ d.observedAt := by
            rcases List.mem_cons.mp hc with rfl | hc
            · exact le_rfl
            · have hrest := (List.pairwise_append.mp holder).2.1
              exact le_of_lt ((List.pairwise_cons.mp hrest).1 c hc)
          linarith
      rw [kept_late hg hd hnot hw before, searchRoot_missed _ hmissed]
      refine iff_of_true rfl ?_
      intro between' d' before' hsplit hd' hnot' hw'
      obtain ⟨rfl, rfl⟩ := huniq between' d' before' hsplit hd' hnot'
      exact absurd hw' hw

/-- **The two views agree exactly on the undisturbed histories**: the broker forgets the definitive
cause when another failure comes between it and the generic answer. -/
theorem views_agree_iff {now : ℚ} {files : List LogFile} {history : List Observation}
    (hfiles : (recentObservations now files).Perm history)
    (hinc : history.Pairwise fun a b => a.observedAt < b.observedAt) :
    shown (brokerView history) = shown (recentLocalObservation now files) ↔
      Undisturbed history := by
  have hview : brokerView history = kept (counted history.reverse) := by
    rw [brokerView, recordAll_kept, caused_at]
  have hdec : history.reverse.Pairwise fun a b => b.observedAt < a.observedAt :=
    List.pairwise_reverse.mpr hinc
  rw [hview, recentLocalObservation, sorted_logs hfiles hinc, Undisturbed]
  generalize history.reverse = recent at hdec ⊢
  rcases recent with _ | ⟨newest, older⟩
  · exact iff_of_true rfl (by simp)
  · show shown (kept (counted (newest :: older))) =
        shown (some (if isGeneric newest then searchRoot newest older else newest)) ↔ _
    by_cases hcause : newest.cause = []
    · -- the broker does not count it, the logs show it
      have hplain : isGeneric newest = false := by
        rw [isGeneric, hcause]
        decide
      refine iff_of_false ?_ fun h => (h newest older rfl).1 hcause
      rw [if_neg (by simp [hplain])]
      rcases hk : kept (counted (newest :: older)) with _ | o
      · simp [shown]
      · intro h
        have hsame : o.cause = newest.cause := congrArg Prod.fst (Option.some.inj h)
        exact kept_caused (fun x hx => (mem_counted hx).2.1) hk (hsame.trans hcause)
    · by_cases hg : isGeneric newest = true
      · rw [if_pos hg, generic_views_agree hg hdec]
        constructor
        · rintro h _ _ ⟨⟩
          exact ⟨hcause, fun between d before hsplit _ => h between d before hsplit⟩
        · intro h between d before hsplit
          exact (h newest older rfl).2 between d before hsplit hg
      · rw [if_neg hg, counted_cons hcause, kept_plain (by simpa using hg)]
        refine iff_of_true rfl ?_
        rintro _ _ ⟨⟩
        exact ⟨hcause, fun _ _ _ _ hgen => absurd hgen hg⟩

/-- A definitive observation, then an upstream failure, then a generic one, a minute apart. -/
def disturbedHistory : List Observation :=
  [sample (lit "quota_exhausted") 0, sample (lit "upstream_failure") 60,
    sample causeNoUsableAccounts 120]

/-- The logs of that history. -/
def disturbedFiles : List LogFile :=
  disturbedHistory.map fun o => ⟨o.observedAt, some o⟩

/-- The broker shows the generic answer there, the logs the definitive cause. -/
theorem disturbed_views_differ :
    (recentObservations 120 disturbedFiles).Perm disturbedHistory ∧
      (disturbedHistory.Pairwise fun a b => a.observedAt < b.observedAt) ∧
      shown (brokerView disturbedHistory) ≠ shown (recentLocalObservation 120 disturbedFiles) := by
  decide +kernel

/-- The same without the upstream failure. -/
theorem views_agree_iff_undisturbed :
    let history := [sample (lit "quota_exhausted") 0, sample causeNoUsableAccounts 120]
    let files := history.map fun o => (⟨o.observedAt, some o⟩ : LogFile)
    (shown (brokerView history) = shown (recentLocalObservation 120 files) ↔
      Undisturbed history) ∧
      shown (brokerView history) = some (lit "quota_exhausted", some causeNoUsableAccounts) :=
  ⟨views_agree_iff (by decide +kernel) (by decide +kernel), by decide +kernel⟩

end Cloudx.Local.RootCause

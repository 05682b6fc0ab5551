import Cloudx.Local.Segmentation
import Mathlib.Data.List.Find

/-! # The diagnosis on a connection that is used again

On one connection several responses follow each other. The observer starts afresh at a status line
that follows a line break, and asks for the verdict it has put off only when the connection is
closed. This module says for which responses it reports what it would report for each of them on a
connection of its own. -/

namespace Cloudx.Local.Connection

open Cloudx.Lib.Chunks
open Cloudx.Python.Text Cloudx.Python.Value
open Cloudx.Local.RootCause Cloudx.Local.ApiFailure Cloudx.Local.ResponseObserver
open Cloudx.Local.Segmentation

variable {r : Reader} {now : ℚ}

/-! ### A line break before a response -/

/-- The reader passes a line break at the start on. -/
structure KeepsBreak (r : Reader) : Prop where
  decode : ∀ raw, r.decodeReplace (13 :: 10 :: raw) = 13 :: 10 :: r.decodeReplace raw
  casefold : ∀ s, r.py.casefold (13 :: 10 :: s) = 13 :: 10 :: r.py.casefold s

theorem strip_break (t : Str) : strip (13 :: 10 :: t) = strip t := by
  unfold strip
  rw [List.dropWhile_cons_of_pos (by decide), List.dropWhile_cons_of_pos (by decide)]

theorem candidates_break (t : Str) : candidates (13 :: 10 :: t) = candidates t := by
  have hlines : splitLines (13 :: 10 :: t) = [] :: splitLines t := rfl
  have hempty : lineCandidate [] = none := by decide
  unfold candidates
  rw [strip_break, hlines, List.reverse_cons, List.filterMap_append]
  simp [hempty]

/-- A phrase that starts with no line break is not found earlier for one. -/
theorem contains_break {phrase : Str} (h : phrase.head?.any (fun c => c ≠ 13 && c ≠ 10) = true)
    (t : Str) : contains phrase (13 :: 10 :: t) = contains phrase t := by
  rcases phrase with _ | ⟨c, phrase⟩
  · exact absurd h (by simp)
  · have hc : c ≠ 13 ∧ c ≠ 10 := by simpa using h
    unfold contains
    rw [decide_eq_decide, List.infix_cons_iff, List.infix_cons_iff]
    refine ⟨fun h => ?_, fun h => Or.inr (Or.inr h)⟩
    rcases h with h | h | h
    · exact absurd (List.cons_prefix_cons.mp h).1 hc.1
    · exact absurd (List.cons_prefix_cons.mp h).1 hc.2
    · exact h

theorem causeOf_break (status : Option ℤ) (signal t message : Str) :
    causeOf status signal (13 :: 10 :: t) message = causeOf status signal t message := by
  have hphrases : ∀ test ∈ tests, ∀ phrase ∈ test.searched,
      phrase.head?.any (fun c => c ≠ 13 && c ≠ 10) = true := by decide +kernel
  have happlies : ∀ test ∈ tests, test.applies signal (13 :: 10 :: t) message =
      test.applies signal t message := by
    intro test htest
    have hany : anyIn test.searched (13 :: 10 :: t) = anyIn test.searched t := by
      unfold anyIn
      rw [Bool.eq_iff_iff, List.any_eq_true, List.any_eq_true]
      exact ⟨fun ⟨p, hp, h⟩ => ⟨p, hp, contains_break (hphrases test htest p hp) t ▸ h⟩,
        fun ⟨p, hp, h⟩ => ⟨p, hp, (contains_break (hphrases test htest p hp) t).symm ▸ h⟩⟩
    unfold Test.applies
    rw [hany]
  unfold causeOf
  rw [List.find?_congr happlies]

/-- **A line break before a response does not change its classification.** -/
theorem classify_break (hbreak : KeepsBreak r) (status : Option ℤ) {raw : Bytes}
    (hlen : raw.length + 2 ≤ maxErrorBytes) (observedAt : ℚ) :
    classify r status (13 :: 10 :: raw) observedAt = classify r status raw observedAt := by
  have hlong : lastBytes maxErrorBytes (13 :: 10 :: raw) = 13 :: 10 :: raw := by
    rw [lastBytes_eq, lastN_of_le]
    rw [List.length_cons, List.length_cons]
    omega
  have hshort : lastBytes maxErrorBytes raw = raw := by
    rw [lastBytes_eq, lastN_of_le]
    omega
  unfold classify errorDocument
  dsimp only
  rw [hlong, hshort, hbreak.decode, candidates_break]
  rcases firstObject r (candidates (r.decodeReplace raw)) with e | document
  · rfl
  · dsimp only
    rcases retryAt r (errorFields document) observedAt with e | time
    · rfl
    · dsimp only
      split_ifs with hmessage hstatus
      · rfl
      · rw [hbreak.casefold, causeOf_break]
      · rfl

/-! ### Responses -/

/-- A response: it starts with its status line, and no line break in it is followed by another. -/
structure Response where
  raw : Bytes
  code : ℤ
  status : statusLine raw = some code
  length_le : raw.length ≤ maxErrorBytes
  single : statusesFrom 0 raw = []

/-- Each response but the last ends in a line break, and none after the first is one byte shorter
than the buffer. -/
def Delimited : List Response → Prop
  | x :: y :: rest =>
    ([13, 10] <:+ x.raw ∧ y.raw.length + 1 ≠ maxErrorBytes) ∧ Delimited (y :: rest)
  | _ => True

theorem length_of_status {raw : Bytes} {code : ℤ} (h : statusLine raw = some code) :
    8 ≤ raw.length := by
  by_contra hshort
  unfold statusLine at h
  rw [List.drop_of_length_le (by omega)] at h
  exact absurd h (by simp)

theorem head_of_status {raw : Bytes} {code : ℤ} (h : statusLine raw = some code) :
    ∃ tail, raw = 72 :: 84 :: tail := by
  obtain ⟨minor, blanks, a, b, c, rest, rfl, -⟩ := statusLine_parts h
  exact ⟨_, rfl⟩

/-- Where a match stands depends on where the search starts. -/
theorem statusesFrom_eq_map (pos : ℕ) (s : Bytes) :
    statusesFrom pos s = (statusesFrom 0 s).map fun x => (x.1 + pos, x.2) := by
  induction s generalizing pos with
  | nil => rfl
  | cons b s ih =>
    rw [statusesFrom, statusesFrom, ih (pos + 1), ih (0 + 1), List.map_append, List.map_map]
    congr 1
    · split_ifs
      · rcases statusLine (s.drop 1) with _ | code
        · rfl
        · simp
      · rfl
    · refine List.map_congr_left fun x _ => ?_
      simp only [Function.comp_apply]
      congr 1
      omega

/-- The matches in the second part of a text are among those in the text, and last. -/
theorem statusesFrom_append (pos : ℕ) (x y : Bytes) :
    ∃ before, statusesFrom pos (x ++ y) = before ++ statusesFrom (pos + x.length) y := by
  induction x generalizing pos with
  | nil => exact ⟨[], rfl⟩
  | cons b x ih =>
    obtain ⟨before, h⟩ := ih (pos + 1)
    rw [List.cons_append, statusesFrom, h, ← List.append_assoc, List.length_cons, Nat.add_assoc,
      Nat.add_comm 1]
    exact ⟨_, rfl⟩

/-- **The last match**, when a response stands at the end after a line break. -/
theorem last_status (x : Response) (before : Bytes) :
    (statuses (before ++ 13 :: 10 :: x.raw)).getLast? = some (before.length, x.code) := by
  obtain ⟨found, h⟩ := statusesFrom_append 0 before (13 :: 10 :: x.raw)
  obtain ⟨tail, htail⟩ := head_of_status x.status
  have hnone : statusesFrom (0 + before.length + 2) x.raw = [] := by
    rw [statusesFrom_eq_map, x.single]
    rfl
  have hsecond : statusesFrom (0 + before.length + 1) (10 :: x.raw) = [] := by
    rw [statusesFrom, if_neg (by simp), hnone]
    rfl
  have hhere : statusesFrom (0 + before.length) (13 :: 10 :: x.raw) = [(before.length, x.code)] := by
    rw [statusesFrom, hsecond, if_pos (by simp)]
    have hdrop : (10 :: x.raw).drop 1 = x.raw := rfl
    rw [hdrop, x.status]
    simp
  rw [statuses, h, hhere, ← List.append_assoc, List.getLast?_append]
  rfl

/-! ### The observer after a status line -/

/-- The observer holds exactly this response, perhaps with the line break before it. -/
structure Begun (x : Response) (now : ℚ) (o : Observer) : Prop where
  buffer : o.buffer = x.raw ∨ o.buffer = 13 :: 10 :: x.raw ∧ x.raw.length + 2 ≤ maxErrorBytes
  total : o.totalBytes = o.bufferStart + o.buffer.length
  offset : o.lastStatusOffset = o.bufferStart
  status : o.statusCode = some x.code
  time : o.responseObservedAt = some now
  seen : o.failureMarkerSeen = hasMarker (lower x.raw)

/-- A new status line cuts off what stands before it, and starts afresh. -/
theorem noteStatus_new {o : Observer} {pos : ℕ} {code : ℤ}
    (hlast : (statuses o.buffer).getLast? = some (pos, code))
    (hnew : o.lastStatusOffset < (o.bufferStart : ℤ) + pos) (hcut : 0 ≤ o.lastStatusOffset ∨ pos = 0) :
    o.noteStatus now = { o with
      buffer := o.buffer.drop pos, bufferStart := o.bufferStart + pos
      lastStatusOffset := o.bufferStart + pos, lastSignature := none, markerTail := []
      failureMarkerSeen := false, responseObservedAt := some now, statusCode := some code } := by
  unfold Observer.noteStatus
  rw [hlast]
  dsimp only
  rw [if_pos hnew]
  by_cases hseen : 0 ≤ o.lastStatusOffset
  · rw [if_pos hseen]
  · rw [if_neg hseen]
    obtain rfl := hcut.resolve_left hseen
    rfl

/-- **A response that has been recognised** is all the observer holds. -/
theorem absorb_begun {o : Observer} {x : Response} {before : Bytes} {found : ℕ}
    (hbuffer : lastBytes maxErrorBytes (o.buffer ++ x.raw) = before ++ x.raw)
    (hlast : (statuses (before ++ x.raw)).getLast? = some (found, x.code))
    (hdrop : (before ++ x.raw).drop found = x.raw ∨
      (before ++ x.raw).drop found = 13 :: 10 :: x.raw ∧ x.raw.length + 2 ≤ maxErrorBytes)
    (hfound : found ≤ before.length)
    (hfits : before.length ≤ o.totalBytes)
    (hnew : o.lastStatusOffset < (o.totalBytes - before.length + found : ℕ))
    (hcut : 0 ≤ o.lastStatusOffset ∨ found = 0) :
    Begun x now (o.absorb x.raw now) ∧ (o.absorb x.raw now).lastSignature = none := by
  have hlength : (before ++ x.raw).length = before.length + x.raw.length := List.length_append
  have hextend : o.extend x.raw = { o with
      buffer := before ++ x.raw, totalBytes := o.totalBytes + x.raw.length
      bufferStart := o.totalBytes - before.length } := by
    unfold Observer.extend
    rw [hbuffer]
    dsimp only
    have hstart : o.totalBytes + x.raw.length - (before ++ x.raw).length =
        o.totalBytes - before.length := by omega
    rw [hstart]
  have hnoted := @noteStatus_new now (o.extend x.raw) found x.code (by rw [hextend]; exact hlast)
    (by rw [hextend]; exact_mod_cast hnew) (by rw [hextend]; exact hcut)
  rw [hextend] at hnoted
  obtain ⟨h1, h2, h3, h4, h5, h6, -, h8, h9⟩ :=
    noteMarkers_fields ((o.extend x.raw).noteStatus now) x.raw now
  unfold Observer.absorb
  rw [hextend] at h1 h2 h3 h4 h5 h6 h8 h9 ⊢
  rw [hnoted] at h1 h2 h3 h4 h5 h6 h8 h9 ⊢
  dsimp only at h1 h2 h3 h4 h5 h6 h8 h9
  refine ⟨⟨?_, ?_, ?_, h4, h9 rfl, ?_⟩, h6⟩
  · rw [h1]
    exact hdrop
  · rw [h1, h2, h3, List.length_drop]
    omega
  · rw [h5, h3]
    push_cast
    rfl
  · rw [h8]
    rfl

theorem statuses_response (x : Response) : statuses x.raw = [(0, x.code)] := by
  rw [statuses, x.status, x.single]
  rfl

/-- The first response on a connection. -/
theorem absorb_first (x : Response) :
    Begun x now (newObserver.absorb x.raw now) ∧
      (newObserver.absorb x.raw now).lastSignature = none := by
  refine @absorb_begun now newObserver x [] 0 ?_ ?_ (Or.inl rfl) le_rfl (Nat.zero_le _) ?_ (Or.inr rfl)
  · rw [lastBytes_eq, lastN_of_le]
    · rfl
    · exact x.length_le
  · rw [List.nil_append, statuses_response]
    rfl
  · show (-1 : ℤ) < ((0 - 0 + 0 : ℕ) : ℤ)
    decide

/-- **The next response on a connection.** -/
theorem absorb_next {o : Observer} {x y : Response} (h : Begun x now o)
    (hbreak : [13, 10] <:+ x.raw) (hlen : y.raw.length + 1 ≠ maxErrorBytes) :
    Begun y now (o.absorb y.raw now) ∧ (o.absorb y.raw now).lastSignature = none := by
  have hsuffix : [13, 10] <:+ o.buffer := by
    rcases h.buffer with heq | ⟨heq, -⟩
    · rw [heq]
      exact hbreak
    · rw [heq]
      exact hbreak.trans ⟨[13, 10], rfl⟩
  have hlong : 8 ≤ o.buffer.length := by
    have hx := length_of_status x.status
    rcases h.buffer with heq | ⟨heq, -⟩
    · rw [heq]
      exact hx
    · rw [heq, List.length_cons, List.length_cons]
      omega
  obtain ⟨start, hstart⟩ := hsuffix
  have hstartlen : o.buffer.length = start.length + 2 := by
    rw [← hstart, List.length_append]
    rfl
  have htotal := h.total
  have hy := y.length_le
  by_cases hfits : y.raw.length + 2 ≤ maxErrorBytes
  · -- the line break before the response is still in the buffer
    have hkept : (lastN (maxErrorBytes - (y.raw.length + 2)) start).length ≤ start.length := by
      rw [length_lastN]
      omega
    refine @absorb_begun now o y (lastN (maxErrorBytes - (y.raw.length + 2)) start ++ [13, 10])
      (lastN (maxErrorBytes - (y.raw.length + 2)) start).length ?_ ?_ (Or.inr ⟨?_, hfits⟩) ?_ ?_ ?_
      (Or.inl ?_)
    · rw [← hstart, lastBytes_eq, List.append_assoc, List.append_assoc]
      have hz : ([13, 10] ++ y.raw).length = y.raw.length + 2 := rfl
      rw [lastN_append_of_le start (by rw [hz]; exact hfits), hz]
    · rw [List.append_assoc]
      exact last_status y _
    · rw [List.append_assoc, List.drop_left]
      rfl
    · rw [List.length_append]
      omega
    · rw [List.length_append, htotal, hstartlen]
      simp only [List.length_cons, List.length_nil]
      omega
    · rw [h.offset, htotal, hstartlen, List.length_append]
      simp only [List.length_cons, List.length_nil]
      omega
    · rw [h.offset]
      exact Int.natCast_nonneg _
  · -- the response fills the buffer
    have hfull : y.raw.length = maxErrorBytes := by omega
    refine @absorb_begun now o y [] 0 ?_ ?_ (Or.inl rfl) le_rfl (Nat.zero_le _) ?_ (Or.inl ?_)
    · rw [lastBytes_eq, lastN_append_of_le _ hfull.le, hfull, Nat.sub_self, lastN, Nat.sub_zero,
        List.drop_length]
    · rw [List.nil_append, statuses_response]
      rfl
    · rw [h.offset, htotal]
      simp only [List.length_nil]
      omega
    · rw [h.offset]
      exact Int.natCast_nonneg _

/-! ### What is reported -/

/-- The classification of a response. -/
def verdict (r : Reader) (now : ℚ) (x : Response) : Except PyError Observation :=
  classify r (some x.code) x.raw now

/-- What a classification reports; before the end not if all it knows is that the server failed. -/
def said (force : Bool) (failure : Observation) : List Observation :=
  if failure.cause = causeUnknown ∨ failure.cause = causeUpstreamFailure ∧ force = false then []
  else [failure]

/-- What is reported of a response when it arrives. -/
def early (r : Reader) (now : ℚ) (x : Response) : List Observation :=
  match verdict r now x with
  | .ok failure => if mayFail x.code x.raw then said false failure else []
  | .error _ => []

/-- What is reported of a response that ends its connection. -/
def late (r : Reader) (now : ℚ) (x : Response) : List Observation :=
  match verdict r now x with
  | .ok failure => said true failure
  | .error _ => []

/-- What is reported of several responses on one connection. -/
def reported (r : Reader) (now : ℚ) : List Response → List Observation
  | [] => []
  | [x] => late r now x
  | x :: y :: rest => early r now x ++ reported r now (y :: rest)

/-- The observer has reported what it reports when the response arrives. -/
structure Reported (r : Reader) (x : Response) (now : ℚ) (o : Observer) : Prop where
  begun : Begun x now o
  last : o.lastSignature = (early r now x).head?.map signature

theorem classify_begun (hbreak : KeepsBreak r) {o : Observer} {x : Response} (h : Begun x now o) :
    classify r o.statusCode o.buffer now = verdict r now x := by
  rw [h.status, verdict]
  rcases h.buffer with heq | ⟨heq, hlen⟩
  · rw [heq]
  · rw [heq, classify_break hbreak _ hlen]

theorem afterLast_break {tail : Bytes} :
    afterLast [13, 10, 13, 10] (13 :: 10 :: 72 :: tail) = afterLast [13, 10, 13, 10] (72 :: tail) := by
  have hno : ∀ b : UInt8, ∀ s : Bytes, ¬ [13, 10, 13, 10] <+: b :: s →
      afterLast [13, 10, 13, 10] (b :: s) = afterLast [13, 10, 13, 10] s := by
    intro b s hprefix
    rw [afterLast, if_neg hprefix]
    rcases afterLast [13, 10, 13, 10] s with _ | n <;> rfl
  rw [hno 13 _ (by simp [List.cons_prefix_cons]), hno 10 _ (by simp [List.cons_prefix_cons])]

theorem mayContainFailure_begun {o : Observer} {x : Response} (h : Begun x now o) :
    o.mayContainFailure = mayFail x.code x.raw := by
  have hafter : afterLast [13, 10, 13, 10] o.buffer = afterLast [13, 10, 13, 10] x.raw := by
    rcases h.buffer with heq | ⟨heq, -⟩
    · rw [heq]
    · obtain ⟨tail, htail⟩ := head_of_status x.status
      rw [heq, htail, afterLast_break]
  unfold Observer.mayContainFailure mayFail
  rw [h.status, h.seen, hafter]
  simp

theorem verdictOf_said (force : Bool) (failure : Observation) :
    verdictOf force failure = (said force failure).head?.map signature := by
  unfold verdictOf said
  split_ifs <;> rfl

/-- **What an emission reports**: the verdict, unless it has been reported before. -/
theorem emit_said (hbreak : KeepsBreak r) {o : Observer} {x : Response} (h : Begun x now o)
    (force : Bool) {failure : Observation} (hverdict : verdict r now x = .ok failure) :
    ∃ emitted, o.emit r force now =
        ({ o with lastSignature := (verdictOf force failure).or o.lastSignature }, .ok emitted) ∧
      emitted.toList = if verdictOf force failure = o.lastSignature then [] else said force failure := by
  obtain ⟨-, hok⟩ := emit_spec r o force now h.time
  obtain ⟨emitted, hemit, -, rfl⟩ := hok failure ((classify_begun hbreak h).trans hverdict)
  refine ⟨_, hemit, ?_⟩
  unfold verdictOf said
  split_ifs with hquiet hsame hnone <;> simp_all

theorem Begun.emitted {o : Observer} {x : Response} (h : Begun x now o) (s : Option Signature) :
    Begun x now { o with lastSignature := s } :=
  ⟨h.buffer, h.total, h.offset, h.status, h.time, h.seen⟩

/-- **A response that arrives.** -/
theorem feed_begun (hbreak : KeepsBreak r) {o : Observer} {x : Response}
    (h : Begun x now (o.absorb x.raw now)) (hfresh : (o.absorb x.raw now).lastSignature = none)
    {failure : Observation} (hverdict : verdict r now x = .ok failure) :
    ∃ fed emitted, o.feed r x.raw now = (fed, .ok emitted) ∧ emitted.toList = early r now x ∧
      Reported r x now fed := by
  have hne : x.raw ≠ [] := by
    intro hnil
    have := length_of_status x.status
    rw [hnil] at this
    exact absurd this (by simp)
  by_cases hmay : (o.absorb x.raw now).mayContainFailure = true
  · have hfeed : o.feed r x.raw now = (o.absorb x.raw now).emit r false now := by
      rw [Observer.feed, if_neg hne]
      exact if_pos hmay
    have hearly : early r now x = said false failure := by
      unfold early
      rw [hverdict]
      exact if_pos ((mayContainFailure_begun h).symm.trans hmay)
    obtain ⟨emitted, hemit, hsaid⟩ := emit_said hbreak h false hverdict
    rw [hfresh] at hsaid
    refine ⟨_, emitted, hfeed.trans hemit, ?_, h.emitted _, ?_⟩
    · rw [hsaid, hearly, verdictOf_said]
      rcases said false failure with _ | ⟨f, rest⟩ <;> simp
    · show (verdictOf false failure).or (o.absorb x.raw now).lastSignature = _
      rw [hfresh, hearly, ← verdictOf_said, Option.or_none]
  · have hfeed : o.feed r x.raw now = (o.absorb x.raw now, .ok none) := by
      rw [Observer.feed, if_neg hne]
      exact if_neg hmay
    have hearly : early r now x = [] := by
      unfold early
      rw [hverdict]
      exact if_neg fun hfail => hmay ((mayContainFailure_begun h).trans hfail)
    refine ⟨_, none, hfeed, hearly.symm, h, ?_⟩
    rw [hfresh, hearly]
    rfl

/-- **The connection is closed** after a response. -/
theorem close_reported (hbreak : KeepsBreak r) {o : Observer} {x : Response}
    (h : Reported r x now o) {failure : Observation} (hverdict : verdict r now x = .ok failure) :
    ∃ closed emitted, o.close r now = (closed, .ok emitted) ∧
      early r now x ++ emitted.toList = late r now x := by
  obtain ⟨emitted, hemit, hsaid⟩ := emit_said hbreak h.begun true hverdict
  refine ⟨_, emitted, hemit, ?_⟩
  have hlate : late r now x = said true failure := by
    unfold late
    rw [hverdict]
  have hearly : early r now x = if mayFail x.code x.raw then said false failure else [] := by
    unfold early
    rw [hverdict]
  rw [hsaid, hlate, h.last, hearly]
  unfold verdictOf said
  split_ifs <;> simp_all

/-- The responses can be classified. -/
def Classified (r : Reader) (now : ℚ) (responses : List Response) : Prop :=
  ∀ x ∈ responses, ∃ failure, verdict r now x = .ok failure

/-- **The rest of a connection.** -/
theorem observe_reported (hbreak : KeepsBreak r) : ∀ (rest : List Response) (x : Response)
    (o : Observer), Reported r x now o → Delimited (x :: rest) → Classified r now (x :: rest) →
    ∃ seen, observe r now o (rest.map Response.raw) = .ok seen ∧
      early r now x ++ seen = reported r now (x :: rest)
  | [], x, o, h, _, hclassified => by
    obtain ⟨failure, hverdict⟩ := hclassified x List.mem_cons_self
    obtain ⟨closed, emitted, hclose, hsaid⟩ := close_reported hbreak h hverdict
    refine ⟨emitted.toList, ?_, hsaid⟩
    rw [List.map_nil, observe, hclose]
    rfl
  | y :: rest, x, o, h, hdelimited, hclassified => by
    obtain ⟨⟨hsuffix, hlen⟩, hrest⟩ := hdelimited
    have hclassified' : Classified r now (y :: rest) :=
      fun z hz => hclassified z (List.mem_cons_of_mem _ hz)
    obtain ⟨failure, hverdict⟩ := hclassified' y List.mem_cons_self
    obtain ⟨hbegun, hfresh⟩ := absorb_next h.begun hsuffix hlen
    obtain ⟨fed, emitted, hfeed, hsaid, hreported⟩ := feed_begun hbreak hbegun hfresh hverdict
    obtain ⟨seen, hseen, hall⟩ := observe_reported hbreak rest y fed hreported hrest hclassified'
    refine ⟨emitted.toList ++ seen, ?_, ?_⟩
    · rw [List.map_cons, observe, hfeed]
      dsimp only
      rw [hseen]
      rfl
    · rw [hsaid, hall, reported]

/-- All of a connection. -/
theorem observe_responses (hbreak : KeepsBreak r) {x : Response} {rest : List Response}
    (hdelimited : Delimited (x :: rest)) (hclassified : Classified r now (x :: rest)) :
    observe r now newObserver ((x :: rest).map Response.raw) =
      .ok (reported r now (x :: rest)) := by
  obtain ⟨failure, hverdict⟩ := hclassified x List.mem_cons_self
  obtain ⟨hbegun, hfresh⟩ := @absorb_first now x
  obtain ⟨fed, emitted, hfeed, hsaid, hreported⟩ := feed_begun hbreak hbegun hfresh hverdict
  obtain ⟨seen, hseen, hall⟩ := observe_reported hbreak rest x fed hreported hdelimited hclassified
  rw [List.map_cons, observe, hfeed]
  dsimp only
  rw [hseen, ← hall, ← hsaid]
  rfl

/-- What is reported if each response has a connection of its own. -/
def separately (r : Reader) (now : ℚ) : List Response → Except PyError (List Observation)
  | [] => .ok []
  | x :: rest =>
    match observe r now newObserver [x.raw], separately r now rest with
    | .error e, _ => .error e
    | .ok _, .error e => .error e
    | .ok seen, .ok others => .ok (seen ++ others)

theorem separately_eq (hbreak : KeepsBreak r) : ∀ (responses : List Response),
    Classified r now responses → separately r now responses = .ok (responses.flatMap (late r now))
  | [], _ => rfl
  | x :: rest, h => by
    have hone : observe r now newObserver [x.raw] = .ok (late r now x) :=
      @observe_responses r now hbreak x [] trivial fun y hy =>
        h y (List.mem_cons.mpr (Or.inl (List.mem_singleton.mp hy)))
    rw [separately, hone, separately_eq hbreak rest fun y hy => h y (List.mem_cons_of_mem _ hy)]
    rfl

/-- A response of which everything is said when it arrives: its cause is unknown, or it may be
classified at once and says more than that the server failed. -/
def Settled (r : Reader) (now : ℚ) (x : Response) : Prop :=
  ∀ failure, verdict r now x = .ok failure → failure.cause = causeUnknown ∨
    mayFail x.code x.raw = true ∧ failure.cause ≠ causeUpstreamFailure

theorem early_late {x : Response} {failure : Observation} (h : verdict r now x = .ok failure) :
    (early r now x).length ≤ (late r now x).length ∧
      (early r now x = late r now x ↔ Settled r now x) := by
  have hsettled : Settled r now x ↔ failure.cause = causeUnknown ∨
      mayFail x.code x.raw = true ∧ failure.cause ≠ causeUpstreamFailure := by
    unfold Settled
    rw [h]
    exact ⟨fun hall => hall failure rfl, fun hone f hf => Except.ok.inj hf ▸ hone⟩
  rw [hsettled]
  unfold early late said
  rw [h]
  by_cases hunknown : failure.cause = causeUnknown
  · simp [hunknown]
  · by_cases hmay : mayFail x.code x.raw = true
    · by_cases hupstream : failure.cause = causeUpstreamFailure
      · simp [hmay, hupstream, show causeUpstreamFailure ≠ causeUnknown by decide]
      · simp [hmay, hunknown, hupstream]
    · simp [hmay, hunknown]

theorem reported_eq_iff : ∀ (responses : List Response), Classified r now responses →
    (reported r now responses).length ≤ (responses.flatMap (late r now)).length ∧
      (reported r now responses = responses.flatMap (late r now) ↔
        ∀ x ∈ responses.dropLast, Settled r now x)
  | [], _ => ⟨le_rfl, iff_of_true rfl fun x hx => absurd hx (by simp)⟩
  | [x], _ => by
    have hone : [x].flatMap (late r now) = late r now x := List.flatMap_singleton _ _
    rw [hone]
    exact ⟨le_rfl, iff_of_true rfl fun y hy => absurd hy (by simp)⟩
  | x :: y :: rest, h => by
    obtain ⟨failure, hverdict⟩ := h x List.mem_cons_self
    obtain ⟨hle, heq⟩ := early_late hverdict
    obtain ⟨hle', heq'⟩ := reported_eq_iff (y :: rest) fun z hz => h z (List.mem_cons_of_mem _ hz)
    rw [reported, List.flatMap_cons, List.length_append, List.length_append]
    refine ⟨by omega, ?_⟩
    rw [List.dropLast_cons_cons, List.forall_mem_cons, ← heq, ← heq']
    constructor
    · intro hsame
      have hlen := congrArg List.length hsame
      rw [List.length_append, List.length_append] at hlen
      exact List.append_inj hsame (by omega)
    · rintro ⟨h1, h2⟩
      rw [h1, h2]

/-- A successful response without a body. -/
def okResponse : Response where
  raw := ascii "HTTP/1.1 200 OK\r\nContent-Length: 0\r\n\r\n"
  code := 200
  status := by decide +kernel
  length_le := by decide +kernel
  single := by decide +kernel

/-- A response of a server that has failed, without a body. -/
def downResponse : Response where
  raw := ascii "HTTP/1.1 503 Service Unavailable\r\nContent-Length: 0\r\n\r\n"
  code := 503
  status := by decide +kernel
  length_le := by decide +kernel
  single := by decide +kernel

theorem keepsBreak_noteReader : KeepsBreak noteReader := ⟨fun _ => rfl, fun _ => rfl⟩

theorem verdict_okResponse : verdict noteReader 0 okResponse =
    .ok ⟨causeUnknown, some 200, signalNone, 0, none, false, lit "tunnel_observation", none⟩ := by
  decide +kernel

theorem verdict_downResponse : verdict noteReader 0 downResponse = .ok ⟨causeUpstreamFailure, some 503,
    lit "http_5xx", 0, none, false, lit "tunnel_observation", none⟩ := by
  decide +kernel

end Cloudx.Local.Connection

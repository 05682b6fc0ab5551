import Cloudx.Lib.Search
import Cloudx.Local.ResponseObserver
import Cloudx.Python.Dump

/-! # When observing disturbs forwarding

`_pump` calls the observer in the thread that forwards, and catches only `OSError`. So forwarding is
what it would be without the observer exactly as long as nothing in `classify_http_failure` raises.
This module says which texts it does not raise for. -/

namespace Cloudx.Local.Forwarding

open Cloudx.Lib.Search
open Cloudx.Python.Text Cloudx.Python.Value
open Cloudx.Local.RootCause Cloudx.Local.ApiFailure Cloudx.Local.ResponseObserver

variable {r : Reader}

/-! ### Documents -/

/-- The text decodes to an object. -/
def IsObject (r : Reader) (candidate : Str) : Prop := ∃ d, r.loads candidate = .value (.obj d)

/-- The text decodes, or fails to in the way that is expected. -/
def Decodes (r : Reader) (candidate : Str) : Prop :=
  (∃ v, r.loads candidate = .value v) ∨ r.loads candidate = .jsonError

/-- Every candidate that the search for a document reaches decodes or fails as expected. -/
def DocumentSafe (r : Reader) (text : Str) : Prop :=
  ∀ candidate, Reached (fun c => ¬ IsObject r c) (candidates text) candidate → Decodes r candidate

theorem firstObject_ok_iff (l : List Str) :
    (∃ d, firstObject r l = .ok d) ↔
      ∀ candidate, Reached (fun c => ¬ IsObject r c) l candidate → Decodes r candidate := by
  induction l with
  | nil => exact ⟨fun _ c hc => absurd hc (not_reached_nil c), fun _ => ⟨[], rfl⟩⟩
  | cons c l ih =>
    rw [forall_reached_cons, firstObject]
    rcases hloads : r.loads c with v | _ | _ | e
    · cases v with
      | obj d =>
        exact iff_of_true ⟨d, rfl⟩ ⟨Or.inl ⟨_, hloads⟩, fun hno => absurd ⟨d, hloads⟩ hno⟩
      | _ =>
        have hno : ¬ IsObject r c := by
          rintro ⟨d, hd⟩
          exact absurd (hloads.symm.trans hd) (by simp)
        exact ih.trans ⟨fun h => ⟨Or.inl ⟨_, hloads⟩, fun _ => h⟩, fun h => h.2 hno⟩
    · have hno : ¬ IsObject r c := by
        rintro ⟨d, hd⟩
        exact absurd (hloads.symm.trans hd) (by simp)
      exact ih.trans ⟨fun h => ⟨Or.inr hloads, fun _ => h⟩, fun h => h.2 hno⟩
    · refine iff_of_false (by simp) ?_
      rintro ⟨⟨v, hv⟩ | hv, -⟩ <;> exact absurd (hloads.symm.trans hv) (by simp)
    · refine iff_of_false (by simp) ?_
      rintro ⟨⟨v, hv⟩ | hv, -⟩ <;> exact absurd (hloads.symm.trans hv) (by simp)

/-! ### Reset times -/

/-- The value is a number or a text that gives a reset time. -/
def GivesTime (py : Py) (value : Json) : Prop :=
  (isPositive value = true ∧ ∃ t, (floatOf py value).bind py.fromtimestamp = some t) ∨
    ∃ text t, value = .str text ∧ strip text ≠ [] ∧ py.fromisoformat (isoText (strip text)) = some t ∧
      inRange t = true

/-- The value is a text that names an instant outside the calendar of UTC. -/
def OutOfCalendar (py : Py) (value : Json) : Prop :=
  ∃ text t, value = .str text ∧ strip text ≠ [] ∧ py.fromisoformat (isoText (strip text)) = some t ∧
    inRange t = false

/-- The duration leads from the instant to an instant within the calendar. -/
def LeadsToDate (r : Reader) (observedAt : ℚ) (value : Json) : Prop :=
  ∃ delta, (floatOf r.py value).bind r.timedelta = some delta ∧ inRange (observedAt + delta) = true

/-- No reset text that is reached is out of the calendar; and if there is no reset time, the first
duration leads to a date. -/
def TimesSafe (r : Reader) (fields : Dict) (observedAt : ℚ) : Prop :=
  (∀ key, Reached (fun k => ¬ GivesTime r.py (get fields k)) resetKeys key →
      ¬ OutOfCalendar r.py (get fields key)) ∧
    ((∀ key ∈ resetKeys, ¬ GivesTime r.py (get fields key)) →
      ∀ key, Reached (fun k => isPositive (get fields k) = false) durationKeys key →
        isPositive (get fields key) = true → LeadsToDate r observedAt (get fields key))

theorem givesTime_str (py : Py) (text : Str) :
    GivesTime py (.str text) ↔ ∃ t, strip text ≠ [] ∧
      py.fromisoformat (isoText (strip text)) = some t ∧ inRange t = true := by
  constructor
  · rintro (⟨hpositive, -⟩ | ⟨text', t, htext, hrest⟩)
    · exact absurd hpositive (by simp [isPositive])
    · obtain rfl := Json.str.inj htext
      exact ⟨t, hrest⟩
  · rintro ⟨t, hrest⟩
    exact Or.inr ⟨text, t, rfl, hrest⟩

theorem outOfCalendar_str (py : Py) (text : Str) :
    OutOfCalendar py (.str text) ↔ ∃ t, strip text ≠ [] ∧
      py.fromisoformat (isoText (strip text)) = some t ∧ inRange t = false := by
  constructor
  · rintro ⟨text', t, htext, hrest⟩
    obtain rfl := Json.str.inj htext
    exact ⟨t, hrest⟩
  · rintro ⟨t, hrest⟩
    exact ⟨text, t, rfl, hrest⟩

/-- What reading a text as a time does. -/
theorem parseTimestamp_cases (py : Py) (text : Str) :
    (GivesTime py (.str text) ∧ ¬ OutOfCalendar py (.str text) ∧
        ∃ t, parseTimestamp py text = .ok (some t)) ∨
      (OutOfCalendar py (.str text) ∧ parseTimestamp py text = .error .overflow) ∨
      ¬ GivesTime py (.str text) ∧ ¬ OutOfCalendar py (.str text) ∧
        parseTimestamp py text = .ok none := by
  rw [givesTime_str, outOfCalendar_str]
  unfold parseTimestamp
  by_cases hblank : strip text = []
  · simp [hblank]
  · rcases hiso : py.fromisoformat (isoText (strip text)) with _ | t
    · simp [hblank]
    · by_cases hrange : inRange t = true
      · simp [hblank, astimezone, hrange]
      · simp [hblank, astimezone, hrange]

/-- **What one key of the first loop does.** -/
theorem resetAt_cons (py : Py) (fields : Dict) (key : Str) (keys : List Str) :
    (GivesTime py (get fields key) ∧ ¬ OutOfCalendar py (get fields key) ∧
        ∃ time, resetAt py fields (key :: keys) = .ok (some time)) ∨
      (OutOfCalendar py (get fields key) ∧ ∃ e, resetAt py fields (key :: keys) = .error e) ∨
      ¬ GivesTime py (get fields key) ∧ ¬ OutOfCalendar py (get fields key) ∧
        resetAt py fields (key :: keys) = resetAt py fields keys := by
  rw [resetAt]
  split
  · next text htext =>
    rw [htext]
    rcases parseTimestamp_cases py text with ⟨hgives, hin, t, h⟩ | ⟨hout, h⟩ | ⟨hno, hin, h⟩
    · exact Or.inl ⟨hgives, hin, _, by rw [h]⟩
    · exact Or.inr (Or.inl ⟨hout, _, by rw [h]⟩)
    · exact Or.inr (Or.inr ⟨hno, hin, by rw [h]⟩)
  · next value hvalue =>
    have hin : ¬ OutOfCalendar py (get fields key) := by
      rintro ⟨text, t, htext, -⟩
      exact hvalue text htext
    have hgives : GivesTime py (get fields key) ↔ isPositive (get fields key) = true ∧
        ∃ t, (floatOf py (get fields key)).bind py.fromtimestamp = some t := by
      refine ⟨fun h => h.resolve_right ?_, Or.inl⟩
      rintro ⟨text, t, htext, -⟩
      exact hvalue text htext
    rw [hgives]
    by_cases hpositive : isPositive (get fields key) = true
    · rw [if_pos hpositive]
      rcases hstamp : (floatOf py (get fields key)).bind py.fromtimestamp with _ | t
      · exact Or.inr (Or.inr ⟨fun h => absurd h.2 (by simp), hin, rfl⟩)
      · exact Or.inl ⟨⟨hpositive, t, rfl⟩, hin, _, rfl⟩
    · rw [if_neg hpositive]
      exact Or.inr (Or.inr ⟨fun h => hpositive h.1, hin, rfl⟩)

theorem resetAt_ok_iff (py : Py) (fields : Dict) (keys : List Str) :
    (∃ time, resetAt py fields keys = .ok time) ↔
      ∀ key, Reached (fun k => ¬ GivesTime py (get fields k)) keys key →
        ¬ OutOfCalendar py (get fields key) := by
  induction keys with
  | nil => exact ⟨fun _ k hk => absurd hk (not_reached_nil k), fun _ => ⟨none, rfl⟩⟩
  | cons key keys ih =>
    rw [forall_reached_cons]
    rcases resetAt_cons py fields key keys with ⟨hgives, hin, t, h⟩ | ⟨hout, e, h⟩ | ⟨hno, hin, h⟩
    · exact iff_of_true ⟨_, h⟩ ⟨hin, fun hno => absurd hgives hno⟩
    · exact iff_of_false (by simp [h]) fun hall => hall.1 hout
    · rw [h]
      exact ih.trans ⟨fun hall => ⟨hin, fun _ => hall⟩, fun hall => hall.2 hno⟩

/-- The first loop finds nothing exactly if no value gives a time. -/
theorem resetAt_none_iff (py : Py) (fields : Dict) (keys : List Str)
    (hreturns : ∃ time, resetAt py fields keys = .ok time) :
    resetAt py fields keys = .ok none ↔ ∀ key ∈ keys, ¬ GivesTime py (get fields key) := by
  induction keys with
  | nil => exact iff_of_true rfl fun k hk => absurd hk (by simp)
  | cons key keys ih =>
    rw [List.forall_mem_cons]
    rcases resetAt_cons py fields key keys with ⟨hgives, -, t, h⟩ | ⟨-, e, h⟩ | ⟨hno, -, h⟩
    · exact iff_of_false (by simp [h]) fun hall => hall.1 hgives
    · obtain ⟨t, ht⟩ := hreturns
      exact absurd (h.symm.trans ht) (by simp)
    · rw [h] at hreturns ⊢
      exact (ih hreturns).trans ⟨fun hall => ⟨hno, hall⟩, fun hall => hall.2⟩

theorem resetIn_ok_iff (fields : Dict) (observedAt : ℚ) (keys : List Str) :
    (∃ time, resetIn r fields observedAt keys = .ok time) ↔
      ∀ key, Reached (fun k => isPositive (get fields k) = false) keys key →
        isPositive (get fields key) = true → LeadsToDate r observedAt (get fields key) := by
  induction keys with
  | nil => exact ⟨fun _ k hk => absurd hk (not_reached_nil k), fun _ => ⟨none, rfl⟩⟩
  | cons key keys ih =>
    rw [forall_reached_cons, resetIn]
    by_cases hpositive : isPositive (get fields key) = true
    · rw [if_pos hpositive]
      unfold LeadsToDate
      rcases hdelta : (floatOf r.py (get fields key)).bind r.timedelta with _ | delta
      · simp [hpositive]
      · by_cases hrange : inRange (observedAt + delta) = true
        · simp [hpositive, hrange]
        · simp [hpositive, hrange]
    · rw [if_neg hpositive]
      have hno : isPositive (get fields key) = false := by simpa using hpositive
      exact ih.trans ⟨fun hall => ⟨fun h => absurd h hpositive, fun _ => hall⟩,
        fun hall => hall.2 hno⟩

theorem retryAt_ok_iff (fields : Dict) (observedAt : ℚ) :
    (∃ time, retryAt r fields observedAt = .ok time) ↔ TimesSafe r fields observedAt := by
  unfold TimesSafe
  rw [← resetAt_ok_iff]
  unfold retryAt
  rcases hfirst : resetAt r.py fields resetKeys with e | _ | time
  · simp
  · have hnone := (resetAt_none_iff r.py fields resetKeys ⟨none, hfirst⟩).mp hfirst
    simp only
    rw [resetIn_ok_iff]
    exact ⟨fun h => ⟨⟨none, rfl⟩, fun _ => h⟩, fun h => h.2 hnone⟩
  · refine iff_of_true ⟨_, rfl⟩ ⟨⟨_, rfl⟩, fun hnone => ?_⟩
    have := (resetAt_none_iff r.py fields resetKeys ⟨_, hfirst⟩).mpr hnone
    exact absurd (hfirst.symm.trans this) (by simp)

/-! ### The observer -/

/-- The text can be classified: its candidates, and the times in the document that is found. -/
def TextSafe (r : Reader) (text : Str) (observedAt : ℚ) : Prop :=
  DocumentSafe r text ∧
    ∀ d, errorDocument r text = .ok d → TimesSafe r (errorFields d) observedAt

/-- **When a classification returns.** -/
theorem classify_ok_iff (status : Option ℤ) (body : Bytes) (observedAt : ℚ) :
    (∃ failure, classify r status body observedAt = .ok failure) ↔
      TextSafe r (r.decodeReplace (lastBytes maxErrorBytes body)) observedAt := by
  unfold TextSafe DocumentSafe
  rw [← firstObject_ok_iff]
  unfold classify errorDocument
  simp only
  rcases firstObject r (candidates (r.decodeReplace (lastBytes maxErrorBytes body))) with e | d
  · simp
  · simp only [Except.ok.injEq, forall_eq', exists_eq', true_and]
    rw [← retryAt_ok_iff]
    rcases retryAt r (errorFields d) observedAt with e | time
    · simp
    · simp

/-- What the observer holds can be classified. -/
def HoldsSafe (r : Reader) (o : Observer) (now : ℚ) : Prop :=
  TextSafe r (r.decodeReplace (lastBytes maxErrorBytes o.buffer)) (o.responseObservedAt.getD now)

theorem emit_ok_iff (o : Observer) (force : Bool) (now : ℚ) :
    (∃ emitted, (o.emit r force now).2 = .ok emitted) ↔ HoldsSafe r o now := by
  unfold HoldsSafe
  rw [← classify_ok_iff o.statusCode]
  unfold Observer.emit
  dsimp only
  rcases classify r o.statusCode o.buffer (o.responseObservedAt.getD now) with e | failure
  · simp
  · refine iff_of_true ?_ ⟨failure, rfl⟩
    dsimp only
    split_ifs <;> exact ⟨_, rfl⟩

/-- A piece ends the loop: the stream is over, or the client has gone. -/
def endsLoop (piece : Piece) : Bool := piece.data = [] || !piece.taken

/-- Whatever is classified, piece by piece and at the end, can be. -/
def Safe (r : Reader) (last : ℚ) : Observer → List Piece → Prop
  | o, [] => HoldsSafe r o last
  | o, piece :: pieces =>
    if endsLoop piece then HoldsSafe r o last
    else ((o.absorb piece.data piece.now).mayContainFailure = true →
        HoldsSafe r (o.absorb piece.data piece.now) piece.now) ∧
      Safe r last (o.feed r piece.data piece.now).1 pieces

theorem feed_ok_iff (o : Observer) {piece : Piece} (hdata : piece.data ≠ []) :
    (∃ emitted, (o.feed r piece.data piece.now).2 = .ok emitted) ↔
      ((o.absorb piece.data piece.now).mayContainFailure = true →
        HoldsSafe r (o.absorb piece.data piece.now) piece.now) := by
  by_cases hmay : (o.absorb piece.data piece.now).mayContainFailure = true
  · have hfeed : o.feed r piece.data piece.now =
        (o.absorb piece.data piece.now).emit r false piece.now := by
      rw [Observer.feed, if_neg hdata]
      exact if_pos hmay
    rw [hfeed, emit_ok_iff]
    exact ⟨fun h _ => h, fun h => h hmay⟩
  · have hfeed : o.feed r piece.data piece.now = (o.absorb piece.data piece.now, .ok none) := by
      rw [Observer.feed, if_neg hdata]
      exact if_neg hmay
    rw [hfeed]
    exact iff_of_true ⟨none, rfl⟩ fun h => absurd h hmay

theorem finish_none (escaping : Bool) (now : ℚ) :
    finish r none escaping now = ⟨[], true, !escaping⟩ := rfl

theorem finish_some (o : Observer) (now : ℚ) :
    (HoldsSafe r o now → finish r (some o) false now = ⟨[], true, true⟩) ∧
      (¬ HoldsSafe r o now → (finish r (some o) false now).returned = false) := by
  rw [← emit_ok_iff o true now]
  unfold finish Observer.close
  dsimp only
  rcases (o.emit r true now).2 with e | emitted
  · simp
  · simp

/-- An exception on its way out leaves `_pump`, whatever `close` does. -/
theorem finish_escaping (o : Observer) (now : ℚ) :
    (finish r (some o) true now).returned = false := by
  unfold finish
  dsimp only
  split <;> rfl

/-- What the relay forwards. -/
def wanted (pieces : List Piece) : Bytes := (pieces.takeWhile fun p => !endsLoop p).flatMap Piece.data

theorem pump_none (last : ℚ) : ∀ pieces, pump r last none pieces = ⟨wanted pieces, true, true⟩
  | [] => rfl
  | piece :: pieces => by
    rw [pump]
    by_cases hends : piece.data = [] ∨ !piece.taken
    · have h : endsLoop piece = true := by simpa [endsLoop] using hends
      rw [if_pos hends, finish_none, wanted, List.takeWhile_cons, h]
      rfl
    · have h : endsLoop piece = false := by simpa [endsLoop, not_or] using hends
      rw [if_neg hends]
      dsimp only
      rw [pump_none last pieces, wanted, wanted, List.takeWhile_cons, h]
      rfl

/-- **What `_pump` does with an observer.** -/
theorem pump_some (last : ℚ) : ∀ (pieces : List Piece) (o : Observer),
    (Safe r last o pieces → pump r last (some o) pieces = pump r last none pieces) ∧
      (¬ Safe r last o pieces → (pump r last (some o) pieces).returned = false)
  | [], o => finish_some o last
  | piece :: pieces, o => by
    unfold Safe pump
    by_cases hends : piece.data = [] ∨ !piece.taken
    · have h : endsLoop piece = true := by simpa [endsLoop] using hends
      rw [if_pos h, if_pos hends, if_pos hends]
      exact finish_some o last
    · have h : endsLoop piece = false := by simpa [endsLoop, not_or] using hends
      rw [if_neg (by simp [h]), if_neg hends, if_neg hends,
        ← feed_ok_iff o fun hdata => hends (Or.inl hdata)]
      obtain ⟨hsafe, hstop⟩ := pump_some last pieces (o.feed r piece.data piece.now).1
      dsimp only
      rcases hfeed : o.feed r piece.data piece.now with ⟨fed, e | emitted⟩
      · exact ⟨fun hall => absurd hall.1 (by simp), fun _ => finish_escaping fed last⟩
      · rw [hfeed] at hsafe hstop
        dsimp only at hsafe hstop
        refine ⟨fun hall => ?_, fun hno => ?_⟩
        · dsimp only
          rw [hsafe hall.2]
        · exact hstop fun hrest => hno ⟨⟨emitted, rfl⟩, hrest⟩

/-- **Observing leaves forwarding alone exactly** when every text that is classified can be: no
candidate document raises anything but a decode error, no reset text lies outside the calendar, no
duration leads out of it. Without an observer every byte is forwarded, the client's side is shut down
and both sockets are closed. -/
theorem forwarding_undisturbed_iff (r : Reader) (last : ℚ) (pieces : List Piece) :
    (handle r last (some newObserver) pieces = handle r last none pieces ↔
        Safe r last newObserver pieces) ∧
      handle r last none pieces = (⟨wanted pieces, true, true⟩, true) := by
  obtain ⟨hsafe, hstop⟩ := @pump_some r last pieces newObserver
  refine ⟨⟨fun h => ?_, fun h => ?_⟩, ?_⟩
  · by_contra hno
    have hreturned : (pump r last (some newObserver) pieces).returned = true := by
      have hpumped : pump r last (some newObserver) pieces = pump r last none pieces :=
        congrArg Prod.fst h
      rw [hpumped, pump_none]
    exact absurd (hreturned.symm.trans (hstop hno)) (by simp)
  · unfold handle
    rw [hsafe h]
  · unfold handle
    rw [pump_none]

/-! ### A response that is not forwarded -/

/-- The object in an error body whose duration leads out of the calendar. -/
def farBody : Str := lit "\x7b\"error\":\x7b\"resets_in_seconds\":1000000000000\x7d\x7d"

/-- A reader that decodes that body. -/
def farReader : Reader where
  py := Python.Dump.tablePy [] [] []
  decodeReplace raw := raw.map UInt8.toNat
  loads s := if s = farBody then
      .value (.obj [(lit "error", .obj [(lit "resets_in_seconds", .int 1000000000000)])])
    else .jsonError
  timedelta
    | .finite q => if q ≤ 86399999999999 then some q else none
    | _ => none

/-- A response in two pieces, the failure and what follows it. -/
def farPieces : List Piece :=
  [⟨ascii "HTTP/1.1 429 Too Many Requests\r\n\r\n" ++ farBody.map UInt8.ofNat, true, 0⟩,
    ⟨ascii "\n", true, 0⟩]

theorem far_duration_cuts_stream :
    ¬ ∀ (r : Reader) (last : ℚ) (pieces : List Piece),
      handle r last (some newObserver) pieces = handle r last none pieces := by
  intro hall
  have hreturned : (handle farReader 0 (some newObserver) farPieces).2 = false := by decide +kernel
  have hreturns : (handle farReader 0 none farPieces).2 = true := by decide +kernel
  rw [hall farReader 0 farPieces] at hreturned
  exact absurd (hreturned.symm.trans hreturns) (by simp)

end Cloudx.Local.Forwarding

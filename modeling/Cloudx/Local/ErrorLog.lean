import Cloudx.Lib.Chunks
import Cloudx.Lib.Markers
import Cloudx.Local.ApiFailure
import Cloudx.Python.Dump

/-! # The error log of the gateway

`api_diagnosis.py` reads a log file from its end, block by block, until a block brings a marker
`=== API RESPONSE ===`, and classifies what stands after it. In what it has read then it searches from the
left. So it finds the last response exactly if the blocks it reads hold no other marker
(`readResponseTail_eq`). -/

namespace Cloudx.Local.ErrorLog

open Cloudx.Lib.Chunks Cloudx.Lib.Markers
open Cloudx.Python.Text Cloudx.Python.Value Cloudx.Python.Dump
open Cloudx.Local.RootCause Cloudx.Local.ApiFailure

/-! ### Reading backwards -/

/-- `MAX_LOG_TAIL_BYTES` -/
def maxLogTailBytes : ℕ := 512 * 1024

/-- `MAX_LOG_FILE_BYTES` -/
def maxLogFileBytes : ℕ := 32 * 1024 * 1024

/-- The size of a block. -/
def blockBytes : ℕ := 16 * 1024

/-- `=== API RESPONSE ===` -/
def markerText : Str := lit "=== API RESPONSE ==="

/-- The marker in the file. -/
def marker : Bytes := utf8 markerText

/-- A path: whether it is a regular file that can be opened, and its bytes. -/
structure LogFile where
  regular : Bool
  raw : Bytes

/-- The loop of `_read_response_tail`: `position` is where the bytes `buffered` begin. -/
def scanBack (raw : Bytes) (position remaining : ℕ) (buffered : Bytes) : Bytes :=
  if 0 < remaining then
    let amount := min blockBytes remaining
    let position := position - amount
    let buffered := (raw.drop position).take amount ++ buffered
    match fromFirst marker buffered with
    | some found => found
    | none => scanBack raw position (remaining - amount) buffered
  else []
termination_by remaining
decreasing_by
  have hblock : 0 < blockBytes := by decide
  omega

/-- `_read_response_tail`; `none` for `OSError` -/
def readResponseTail (log : LogFile) : Option Bytes :=
  if log.regular ∧ log.raw.length ≤ maxLogFileBytes then
    some (scanBack log.raw log.raw.length (min log.raw.length maxLogTailBytes) [])
  else none

/-! ### Classifying -/

/-- `text.split(separator, 1)`: what stands before the separator, and after it. -/
def splitOnce (separator text : Str) : Str × Option Str :=
  match fromFirst separator text with
  | none => (text, none)
  | some found => (text.take (text.length - found.length), some (found.drop separator.length))

/-- `\s*$` at a line end -/
def endsLine (s : Str) : Bool :=
  (s.takeWhile isSpace).contains 10 || s.dropWhile isSpace = []

/-- `Status:\s*([1-5][0-9]{2})\s*$` -/
def statusAt (line : Str) : Option ℤ :=
  if startsWith line (lit "Status:") then
    match (line.drop 7).dropWhile isSpace with
    | a :: b :: c :: rest =>
      if 49 ≤ a ∧ a ≤ 53 ∧ 48 ≤ b ∧ b ≤ 57 ∧ 48 ≤ c ∧ c ≤ 57 ∧ endsLine rest then
        some (100 * (a - 48) + 10 * (b - 48) + (c - 48) : ℤ)
      else none
    | _ => none
  else none

/-- `Timestamp:\s*(\S+)\s*$` -/
def timestampAt (line : Str) : Option Str :=
  if startsWith line (lit "Timestamp:") then
    let rest := (line.drop 10).dropWhile isSpace
    let value := rest.takeWhile fun c => !isSpace c
    if value ≠ [] ∧ endsLine (rest.dropWhile fun c => !isSpace c) then some value else none
  else none

/-- `pattern.search(text)` of a pattern that begins with `^`, with `re.MULTILINE`: the first line start
where it matches. -/
def searchLines {α : Type} (pattern : Str → Option α) (atStart : Bool) : Str → Option α
  | [] => if atStart then pattern [] else none
  | c :: s =>
    match if atStart then pattern (c :: s) else none with
    | some found => some found
    | none => searchLines pattern (c = 10) s

/-- `_parse_log` on the text after the marker. `fallback` is the time of the file, or now. -/
def classifyResponse (r : Reader) (fallback : ℚ) (apiResponse : Str) :
    Except PyError (Option Observation) := do
  let (body, section') := splitOnce (lit "=== RESPONSE ===") apiResponse
  let status := searchLines statusAt true (section'.getD [])
  let observed ← match searchLines timestampAt true apiResponse with
    | none => .ok none
    | some value => parseTimestamp r.py value
  let failure ← classify r status (utf8 body) (observed.getD fallback)
  return some { failure with source := lit "gateway_error_log" }

/-- `_parse_log` on the bytes that were read -/
def parseTail (r : Reader) (fallback : ℚ) (tail : Bytes) : Except PyError (Option Observation) :=
  match (splitOnce markerText (r.decodeReplace tail)).2 with
  | none => .ok none
  | some apiResponse => classifyResponse r fallback apiResponse

/-- `_parse_log` -/
def parseLog (r : Reader) (fallback : ℚ) (log : LogFile) : Except PyError (Option Observation) :=
  match readResponseTail log with
  | none => .ok none
  | some tail => parseTail r fallback tail

/-! ### The last response -/

/-- The bytes of a log in which a marker is looked for. -/
def window (raw : Bytes) : Bytes := lastN maxLogTailBytes raw

/-- The bytes from the last marker in the window on; none if it has no marker. -/
def lastResponse (raw : Bytes) : Bytes := (fromLast marker (window raw)).getD []

/-- How many bytes have been read when those from `distance` bytes before the end are among them. -/
def reach (limit distance : ℕ) : ℕ :=
  min limit (blockBytes * ((distance + (blockBytes - 1)) / blockBytes))

/-- In the blocks that hold the last marker there is no other. -/
def Alone (raw : Bytes) : Prop :=
  ∀ s, fromLast marker (window raw) = some s →
    ∀ t, Occurs marker (lastN (reach (min raw.length maxLogTailBytes) s.length) raw) t → t = s

theorem marker_ne_nil : marker ≠ [] := by decide

theorem lastN_suffix (n : ℕ) (raw : Bytes) : lastN n raw <:+ raw := List.drop_suffix _ _

/-- A shorter window is the end of a longer one. -/
theorem lastN_suffix_of_le {m n : ℕ} (h : m ≤ n) (raw : Bytes) : lastN m raw <:+ lastN n raw :=
  List.suffix_of_suffix_length_le (lastN_suffix m raw) (lastN_suffix n raw) (by
    rw [length_lastN, length_lastN]
    omega)

/-- A block before the bytes that have been read. -/
theorem block_append {raw : Bytes} {read amount : ℕ} (h : read + amount ≤ raw.length) :
    (raw.drop (raw.length - read - amount)).take amount ++ lastN read raw = lastN (read + amount) raw := by
  have hstart : raw.length - (read + amount) = raw.length - read - amount := by omega
  have hnext : raw.length - read = (raw.length - read - amount) + amount := by omega
  rw [lastN, lastN, hstart]
  conv_lhs =>
    rw [hnext, Nat.add_sub_cancel, ← List.drop_drop]
  exact List.take_append_drop _ _

/-- **The scan stops at the blocks that hold the last marker**, and takes the first marker in them. -/
theorem scanBack_spec {raw : Bytes} {limit : ℕ} (hlimit : limit ≤ raw.length) :
    ∀ {remaining read : ℕ}, read + remaining = limit → (read % blockBytes = 0 ∨ remaining = 0) →
      (∀ s, ¬ Occurs marker (lastN read raw) s) →
      scanBack raw (raw.length - read) remaining (lastN read raw) =
        match fromLast marker (lastN limit raw) with
        | none => []
        | some s => (fromFirst marker (lastN (reach limit s.length) raw)).getD [] := by
  intro remaining
  induction remaining using Nat.strongRecOn with
  | ind remaining ih =>
    intro read hread halign hnone
    rw [scanBack]
    split_ifs with hremaining
    · have halign : read % blockBytes = 0 := halign.resolve_right (by omega)
      obtain ⟨amount, hamount⟩ : ∃ amount, amount = min blockBytes remaining := ⟨_, rfl⟩
      have hblock : blockBytes = 16384 := rfl
      simp only [← hamount]
      rw [block_append (by omega)]
      cases hfirst : fromFirst marker (lastN (read + amount) raw) with
      | some found =>
        -- the last marker is in these blocks, and not in those read before
        obtain ⟨hfound, hmax⟩ := fromFirst_some marker_ne_nil hfirst
        obtain ⟨s, hs⟩ : ∃ s, fromLast marker (lastN (read + amount) raw) = some s := by
          cases h : fromLast marker (lastN (read + amount) raw) with
          | none => exact absurd hfound ((fromLast_none marker_ne_nil).mp h found)
          | some s => exact ⟨s, rfl⟩
        have hsmem := (fromLast_some marker_ne_nil hs).1
        have hlong : read < s.length := by
          by_contra hshort
          refine hnone s (hsmem.in_suffix (lastN_suffix_of_le (by omega) raw) ?_)
          rw [length_lastN]
          omega
        have hle := hsmem.length_le
        rw [length_lastN] at hle
        have hreach : reach limit s.length = read + amount := by
          obtain ⟨k, hk⟩ : ∃ k, read = blockBytes * k :=
            ⟨read / blockBytes, (Nat.mul_div_cancel' (Nat.dvd_of_mod_eq_zero halign)).symm⟩
          rw [hblock] at hk hamount
          have hdiv : (s.length + (blockBytes - 1)) / blockBytes = k + 1 := by
            rw [hblock]
            omega
          rw [reach, hdiv, hblock]
          omega
        rw [fromLast_window marker_ne_nil (lastN_suffix_of_le (by omega) raw) hs]
        simp only [hreach, hfirst, Option.getD_some]
      | none =>
        have hposition : raw.length - read - amount = raw.length - (read + amount) := by omega
        simp only [hposition]
        rw [hblock] at halign hamount
        refine ih (remaining - amount) (by omega) (by omega) ?_
          ((fromFirst_none marker_ne_nil).mp hfirst)
        rw [hblock]
        omega
    · have hall : read = limit := by omega
      rw [hall] at hnone
      rw [(fromLast_none marker_ne_nil).mpr hnone]

/-- **What the log reader returns.** -/
theorem readResponseTail_eq {log : LogFile} (hregular : log.regular = true)
    (hsize : log.raw.length ≤ maxLogFileBytes) : readResponseTail log =
      some (match fromLast marker (window log.raw) with
        | none => []
        | some s => (fromFirst marker
            (lastN (reach (min log.raw.length maxLogTailBytes) s.length) log.raw)).getD []) := by
  have hwindow : window log.raw = lastN (min log.raw.length maxLogTailBytes) log.raw := by
    have hcount : log.raw.length - maxLogTailBytes =
        log.raw.length - min log.raw.length maxLogTailBytes := by omega
    rw [window, lastN, lastN, hcount]
  have hnone : ∀ s, ¬ Occurs marker (lastN 0 log.raw) s := by
    intro s
    have hempty : lastN 0 log.raw = [] := by simp [lastN]
    rw [hempty]
    exact not_occurs_nil marker_ne_nil s
  have hscan := @scanBack_spec log.raw (min log.raw.length maxLogTailBytes) (by omega)
    (min log.raw.length maxLogTailBytes) 0 (by omega) (.inl rfl) hnone
  have hempty : lastN 0 log.raw = [] := by simp [lastN]
  rw [hempty, Nat.sub_zero] at hscan
  rw [readResponseTail, if_pos ⟨hregular, hsize⟩, hscan, hwindow]

/-- **When the log reader returns the last response**: no other marker is in the blocks that hold the
last one. Then the log is classified by it. -/
theorem last_response_iff (r : Reader) (fallback : ℚ) {log : LogFile} (hregular : log.regular = true)
    (hsize : log.raw.length ≤ maxLogFileBytes) :
    (readResponseTail log = some (lastResponse log.raw) ↔ Alone log.raw) ∧
      (Alone log.raw → parseLog r fallback log = parseTail r fallback (lastResponse log.raw)) := by
  have htail : readResponseTail log = some (lastResponse log.raw) ↔ Alone log.raw := by
    rw [readResponseTail_eq hregular hsize, Option.some.injEq, lastResponse]
    cases hlast : fromLast marker (window log.raw) with
    | none => exact iff_of_true rfl fun s hs => absurd (hlast.symm.trans hs) (by simp)
    | some s =>
      have hmem := (fromLast_some marker_ne_nil hlast).1
      have hle := hmem.length_le
      rw [window, length_lastN] at hle
      -- the blocks hold the last marker, and it is the last in them
      have hreach : s.length ≤ reach (min log.raw.length maxLogTailBytes) s.length := by
        have hblock : blockBytes = 16384 := rfl
        rw [reach, hblock]
        omega
      have hin : fromLast marker (lastN (reach (min log.raw.length maxLogTailBytes) s.length) log.raw) =
          some s := by
        have hsub : lastN (reach (min log.raw.length maxLogTailBytes) s.length) log.raw <:+
            window log.raw := lastN_suffix_of_le (by rw [reach]; omega) _
        refine fromLast_eq marker_ne_nil (hmem.in_suffix hsub ?_) fun t ht =>
          (fromLast_some marker_ne_nil hlast).2 t (ht.of_suffix hsub)
        rw [length_lastN]
        have := hreach
        omega
      have hiff := first_eq_last_iff marker_ne_nil hin
      simp only [Option.getD_some]
      cases hfirst : fromFirst marker
          (lastN (reach (min log.raw.length maxLogTailBytes) s.length) log.raw) with
      | none => exact absurd (fromLast_some marker_ne_nil hin).1 ((fromFirst_none marker_ne_nil).mp hfirst s)
      | some found =>
        rw [hfirst, Option.some.injEq] at hiff
        show found = s ↔ _
        rw [hiff]
        refine ⟨fun hall s' hs' t ht => ?_, fun halone t ht => halone s hlast t ht⟩
        obtain rfl : s = s' := Option.some.inj (hlast.symm.trans hs')
        exact hall t ht
  refine ⟨htail, fun halone => ?_⟩
  rw [parseLog, htail.mpr halone]

/-- A log with this text. -/
def logOf (text : String) : LogFile := ⟨true, utf8 (lit text)⟩

/-- A reader of ASCII text that knows no JSON document. -/
def plainReader : Reader := ⟨onePy, fun raw => raw.map UInt8.toNat, fun _ => .jsonError, fun _ => none⟩

/-- A log of one response. -/
def oneResponse : LogFile := logOf "request\n=== API RESPONSE ===\n=== RESPONSE ===\nStatus: 429\n"

theorem one_response_classified :
    Alone oneResponse.raw ∧ parseLog plainReader 0 oneResponse =
      parseTail plainReader 0 (utf8 (lit "=== API RESPONSE ===\n=== RESPONSE ===\nStatus: 429\n")) := by
  have hlast : lastResponse oneResponse.raw =
      utf8 (lit "=== API RESPONSE ===\n=== RESPONSE ===\nStatus: 429\n") := by decide +kernel
  have hread : readResponseTail oneResponse = some (lastResponse oneResponse.raw) := by
    rw [readResponseTail_eq rfl (by decide +kernel)]
    decide +kernel
  have halone : Alone oneResponse.raw :=
    (last_response_iff plainReader 0 rfl (by decide +kernel)).1.mp hread
  rw [← hlast]
  exact ⟨halone, (last_response_iff plainReader 0 rfl (by decide +kernel)).2 halone⟩

/-- A log of two responses in one block. -/
def twoResponses : LogFile :=
  logOf "=== API RESPONSE ===\n=== RESPONSE ===\nStatus: 401\n=== API RESPONSE ===\nStatus: 429\n"

/-- Of two responses in one block the first is returned. -/
theorem earlier_response_returned :
    readResponseTail twoResponses = some twoResponses.raw ∧
      lastResponse twoResponses.raw = utf8 (lit "=== API RESPONSE ===\nStatus: 429\n") ∧
      readResponseTail twoResponses ≠ some (lastResponse twoResponses.raw) := by
  have hread : readResponseTail twoResponses = some twoResponses.raw := by
    rw [readResponseTail_eq rfl (by decide +kernel)]
    decide +kernel
  refine ⟨hread, by decide +kernel, ?_⟩
  rw [hread]
  decide +kernel

end Cloudx.Local.ErrorLog

import Cloudx.Local.ApiFailure

/-! # Observing the responses in the relay

`ApiResponseObserver` is fed what the gateway sends, as the relay receives it. It keeps the end of the
stream from the last status line on, and classifies it after every piece that may hold a failure, and
once more at the end. `TcpRelay` feeds it in the thread that forwards the bytes. -/

namespace Cloudx.Local.ResponseObserver

open Cloudx.Python.Text Cloudx.Python.Value
open Cloudx.Local.RootCause Cloudx.Local.ApiFailure

/-! ### Status lines -/

/-- The bytes of an ASCII text. -/
def ascii (s : String) : Bytes := (lit s).map UInt8.ofNat

/-- `\s` -/
def isBlank (b : UInt8) : Bool := b = 32 || (9 ≤ b && b ≤ 13)

/-- `[0-9]` -/
def isDigit (b : UInt8) : Bool := 48 ≤ b && b ≤ 57

/-- `\w` -/
def isWord (b : UInt8) : Bool :=
  isDigit b || (65 ≤ b && b ≤ 90) || (97 ≤ b && b ≤ 122) || b = 95

/-- `([1-5][0-9]{2})\b` at the start: the number. -/
def threeDigits : Bytes → Option ℤ
  | a :: b :: c :: rest =>
    if 49 ≤ a ∧ a ≤ 53 ∧ isDigit b ∧ isDigit c ∧ !rest.head?.any isWord then
      some ((a.toNat - 48) * 100 + (b.toNat - 48) * 10 + (c.toNat - 48) : ℕ)
    else none
  | _ => none

/-- `\s+([1-5][0-9]{2})\b` at the start: the number. -/
def statusNumber (s : Bytes) : Option ℤ :=
  if s.head?.any isBlank then threeDigits (s.dropWhile isBlank) else none

/-- `HTTP/1\.[01]\s+([1-5][0-9]{2})\b` at the start: the number. -/
def statusLine (s : Bytes) : Option ℤ :=
  match s.drop 7 with
  | minor :: rest =>
    if s.take 7 = ascii "HTTP/1." ∧ (minor = 48 ∨ minor = 49) then statusNumber rest else none
  | [] => none

/-- The matches of `_HTTP_STATUS` that start with a line break, with their positions. -/
def statusesFrom (pos : ℕ) : Bytes → List (ℕ × ℤ)
  | [] => []
  | b :: s =>
    (if (b :: s).take 2 = [13, 10] then
      ((statusLine (s.drop 1)).map fun code => (pos, code)).toList
    else []) ++ statusesFrom (pos + 1) s

/-- `_HTTP_STATUS.finditer`: no two matches overlap. -/
def statuses (s : Bytes) : List (ℕ × ℤ) :=
  ((statusLine s).map fun code => (0, code)).toList ++ statusesFrom 0 s

/-! ### Markers -/

/-- `_ERROR_MARKERS` -/
def errorMarkers : List Bytes :=
  [ascii "\"type\":\"error\"", ascii "\"type\": \"error\"", ascii "response.failed",
    ascii "usage_limit_reached", ascii "insufficient_quota", ascii "account_deactivated",
    ascii "account_suspended", ascii "refresh_token_reused", ascii "auth_unavailable",
    ascii "rate_limit_exceeded"]

/-- `raw.lower()` -/
def lowerByte (b : UInt8) : UInt8 := if 65 ≤ b ∧ b ≤ 90 then b + 32 else b

/-- `raw.lower()` -/
def lower (raw : Bytes) : Bytes := raw.map lowerByte

/-- Some marker stands in the bytes. -/
def hasMarker (raw : Bytes) : Bool := errorMarkers.any fun marker => decide (marker <:+: raw)

/-! ### The observer -/

/-- What two emissions in a row must differ in. -/
structure Signature where
  cause : Str
  httpStatus : Option ℤ
  signal : Str
  retryAt : Option Str
deriving DecidableEq

/-- `ApiResponseObserver` -/
structure Observer where
  buffer : Bytes
  statusCode : Option ℤ
  lastSignature : Option Signature
  totalBytes : ℕ
  bufferStart : ℕ
  lastStatusOffset : ℤ
  markerTail : Bytes
  failureMarkerSeen : Bool
  responseObservedAt : Option ℚ
deriving DecidableEq

/-- A new observer. -/
def newObserver : Observer := ⟨[], none, none, 0, 0, -1, [], false, none⟩

/-- The bytes join the buffer, which keeps the last ones. -/
def Observer.extend (o : Observer) (data : Bytes) : Observer :=
  let buffer := lastBytes maxErrorBytes (o.buffer ++ data)
  { o with
    buffer := buffer
    totalBytes := o.totalBytes + data.length
    bufferStart := o.totalBytes + data.length - buffer.length }

/-- The last status line is taken note of; a new one starts a new response. -/
def Observer.noteStatus (o : Observer) (now : ℚ) : Observer :=
  match (statuses o.buffer).getLast? with
  | none => o
  | some (pos, code) =>
    let absolute : ℤ := o.bufferStart + pos
    if o.lastStatusOffset < absolute then
      let cut := if 0 ≤ o.lastStatusOffset then
          { o with buffer := o.buffer.drop pos, bufferStart := o.bufferStart + pos }
        else o
      { cut with
        lastStatusOffset := absolute
        lastSignature := none
        markerTail := []
        failureMarkerSeen := false
        responseObservedAt := some now
        statusCode := some code }
    else { o with statusCode := some code }

/-- Failure markers are looked for in the new bytes and the last ones before them. -/
def Observer.noteMarkers (o : Observer) (data : Bytes) (now : ℚ) : Observer :=
  let input := lower (o.markerTail ++ data)
  let noted := { o with markerTail := lastBytes 128 input }
  if hasMarker input then
    { noted with failureMarkerSeen := true, responseObservedAt := some (o.responseObservedAt.getD now) }
  else noted

/-- `feed`, up to the classification. -/
def Observer.absorb (o : Observer) (data : Bytes) (now : ℚ) : Observer :=
  ((o.extend data).noteStatus now).noteMarkers data now

/-- The number of bytes after the last occurrence of a pattern; `none` if there is none. -/
def afterLast (pattern : Bytes) : Bytes → Option ℕ
  | [] => none
  | b :: s =>
    match afterLast pattern s with
    | some n => some n
    | none => if pattern <+: b :: s then some ((b :: s).length - pattern.length) else none

/-- `_may_contain_failure` -/
def Observer.mayContainFailure (o : Observer) : Bool :=
  if o.statusCode.any (400 ≤ ·) then (afterLast [13, 10, 13, 10] o.buffer).any (0 < ·)
  else o.failureMarkerSeen

/-- What an observation differs in from the one before. -/
def signature (o : Observation) : Signature := ⟨o.cause, o.httpStatus, o.signal, o.retryAt⟩

/-- `_emit_if_classified`: the observation that goes to the callback. -/
def Observer.emit (r : Reader) (o : Observer) (force : Bool) (now : ℚ) :
    Observer × Except PyError (Option Observation) :=
  let observedAt := o.responseObservedAt.getD now
  let timed := { o with responseObservedAt := some observedAt }
  match classify r o.statusCode o.buffer observedAt with
  | .error e => (timed, .error e)
  | .ok failure =>
    if failure.cause = causeUnknown then (timed, .ok none)
    else if failure.cause = causeUpstreamFailure ∧ force = false then (timed, .ok none)
    else if some (signature failure) = o.lastSignature then (timed, .ok none)
    else ({ timed with lastSignature := some (signature failure) }, .ok (some failure))

/-- `feed` -/
def Observer.feed (r : Reader) (o : Observer) (data : Bytes) (now : ℚ) :
    Observer × Except PyError (Option Observation) :=
  if data = [] then (o, .ok none)
  else
    let absorbed := o.absorb data now
    if absorbed.mayContainFailure then absorbed.emit r false now else (absorbed, .ok none)

/-- `close` -/
def Observer.close (r : Reader) (o : Observer) (now : ℚ) :
    Observer × Except PyError (Option Observation) :=
  o.emit r true now

/-! ### The relay -/

/-- What the relay meets when it forwards: a piece from the gateway, whether the client takes it, and
the time. -/
structure Piece where
  data : Bytes
  taken : Bool
  now : ℚ

/-- What `_pump` leaves: the bytes forwarded, whether the client's side was shut down, and whether it
returned. -/
structure Pumped where
  forwarded : Bytes
  shut : Bool
  returned : Bool
deriving DecidableEq

/-- The end of `_pump`: the observer is closed, then the client's side shut down. An exception on
its way out, or one of `close`, leaves the function; none of the observer's is an `OSError`. -/
def finish (r : Reader) (observer : Option Observer) (escaping : Bool) (now : ℚ) : Pumped :=
  match observer with
  | none => ⟨[], true, !escaping⟩
  | some o => match (o.close r now).2 with
    | .ok _ => ⟨[], true, !escaping⟩
    | .error _ => ⟨[], false, false⟩

/-- `_pump`, to the end of the stream or an `OSError` at the time `last`. -/
def pump (r : Reader) (last : ℚ) : Option Observer → List Piece → Pumped
  | observer, [] => finish r observer false last
  | observer, piece :: pieces =>
    if piece.data = [] ∨ !piece.taken then finish r observer false last
    else
      match observer with
      | none =>
        let pumped := pump r last none pieces
        { pumped with forwarded := piece.data ++ pumped.forwarded }
      | some o =>
        match o.feed r piece.data piece.now with
        | (fed, .ok _) =>
          let pumped := pump r last (some fed) pieces
          { pumped with forwarded := piece.data ++ pumped.forwarded }
        | (fed, .error _) =>
          let pumped := finish r (some fed) true last
          { pumped with forwarded := piece.data ++ pumped.forwarded }

/-- `_handle` once both sides are connected: what is forwarded, and whether both sockets are closed in
the end. -/
def handle (r : Reader) (last : ℚ) (observer : Option Observer) (pieces : List Piece) :
    Pumped × Bool :=
  (pump r last observer pieces, (pump r last observer pieces).returned)

end Cloudx.Local.ResponseObserver

import Cloudx.Python.Value

/-! # The tunnel broker

`BrokerServer` of `broker.py` keeps one ssh tunnel for all who hold a lease of it. Its loop reaps the
leases of dead owners, restarts a tunnel that has exited, ends when it has been idle, and answers one
control request at a time.

Everything a step asks of the system is in `Host`: which processes are alive, what the clock shows,
how starting ssh ends. Each function returns the server it leaves behind together with its value or
the exception it raises. The state file is a function of the server and is left out; writing it is
taken to succeed. -/

namespace Cloudx.Local.Broker

open Cloudx.Python.Text Cloudx.Python.Value

/-! ### Exceptions -/

/-- The exceptions of this module, by class. -/
inductive Raised where
  | runtimeError (message : Str)
  | recursionError
  | valueError
  | osError
  | typeError
  | overflowError
  | timeoutExpired
deriving DecidableEq

/-- `except RuntimeError`; `RecursionError` is one. -/
def Raised.isRuntimeError : Raised → Bool
  | .runtimeError _ | .recursionError => true
  | _ => false

/-- `except (ValueError, OSError, RuntimeError)` -/
def Raised.isCaught : Raised → Bool
  | .valueError | .osError => true
  | e => e.isRuntimeError

/-- What the JSON decoder raises. -/
def ofDecoder : PyError → Raised
  | .recursion => .recursionError
  | .overflow => .overflowError
  | .unhashable => .typeError
  | .os => .osError
  | .rejected message => .runtimeError (lit message)
  | .refused _ message => .runtimeError message
  | .value | .unicodeEncode => .valueError

/-! ### The server -/

/-- `TunnelSpec` -/
structure TunnelSpec where
  sshHost : Str
  forwardHost : Str
  forwardPort : ℤ
deriving DecidableEq

/-- What is kept of a lease. -/
structure Lease where
  ownerPid : ℤ
  acquiredAt : ℚ
deriving DecidableEq

/-- The ssh child: its pid, the port it forwards, and whether it has exited. -/
structure Child where
  pid : ℕ
  port : ℕ
  exited : Bool
deriving DecidableEq

/-- `TcpRelay`: its listener's port and the port it connects to. -/
structure Relay where
  publicPort : ℕ
  backend : Option ℕ
deriving DecidableEq

/-- `BrokerServer` -/
structure Server where
  spec : Option TunnelSpec
  leases : List (Str × Lease)
  ssh : Option Child
  relay : Option Relay
  generation : ℕ
  restartDelay : ℚ
  nextRestartAt : ℚ
  lastRelease : ℚ
  stopRequested : Bool
  backendUnavailableSince : Option ℚ
  lastReconnectMilliseconds : Option ℤ
  lastApiFailure : Option Dict
deriving DecidableEq

/-- A new server. -/
def newServer (now : ℚ) : Server :=
  ⟨none, [], none, none, 0, 1, 0, now, false, none, none, none⟩

/-- `relay.set_backend`, if there is a relay. -/
def Server.setBackend (s : Server) (port : Option ℕ) : Server :=
  { s with relay := s.relay.map fun relay => { relay with backend := port } }

/-- How starting ssh ends. -/
inductive Outcome where
  /-- `FileNotFoundError` -/
  | notFound
  /-- any other `OSError` -/
  | refused
  | exited (code : ℤ)
  | timedOut
  | ready (pid : ℕ)
deriving DecidableEq

/-- What a step asks of the system. -/
structure Host where
  /-- `os.getpid()` -/
  pid : ℕ
  /-- `os.kill(pid, 0)` finds a process, its own or another's. -/
  live : ℤ → Bool
  /-- `uuid.UUID(text)` returns. -/
  isUuid : Str → Bool
  /-- `int(text)`; `none` for `ValueError` -/
  intOfText : Str → Option ℤ
  /-- `str(exception)` -/
  message : Raised → Str
  /-- `time.time()` -/
  time : ℚ
  /-- `time.monotonic()`, read three times in a step -/
  now : ℚ
  later : ℚ
  last : ℚ
  /-- The port of `choose_public_listener()`; `none` if it finds none -/
  publicPort : Option ℕ
  /-- `choose_backend_port()`; `none` for `OSError` -/
  backendPort : Option ℕ
  outcome : Outcome
  /-- A killed child does not die within three seconds. -/
  killHangs : Bool
  /-- `config.ssh_binary` -/
  sshBinary : Str

/-- The result of a function that may raise. -/
abbrev Result (α : Type) := Server × Except Raised α

/-! ### Processes -/

/-- The largest pid that `os.kill` takes. -/
def pidMax : ℤ := 2 ^ 31 - 1

/-- `pid_alive` -/
def pidAlive (host : Host) (pid : ℤ) : Except Raised Bool :=
  if pid ≤ 0 then .ok false
  else if pidMax < pid then .error .overflowError
  else .ok (host.live pid)

/-- A text that can be an argument of a process: no NUL, and no surrogate but those that stand for
bytes. -/
def isArgument (s : Str) : Bool :=
  s.all fun c => c ≠ 0 && (c < 0xD800 || (0xDC80 ≤ c && c ≤ 0xDCFF) || 0xDFFF < c)

/-- `_ssh_argv` can be passed to a process. -/
def TunnelSpec.startable (spec : TunnelSpec) : Bool :=
  isArgument spec.sshHost && isArgument spec.forwardHost

/-- The server once its backend is ready. -/
def Server.ready (s : Server) (host : Host) (pid port : ℕ) : Server :=
  let started := { s with
    ssh := some ⟨pid, port, false⟩
    relay := s.relay.map fun relay => { relay with backend := some port }
    generation := s.generation + 1
    restartDelay := 1
    nextRestartAt := 0 }
  match s.backendUnavailableSince with
  | none => started
  | some since => { started with
      lastReconnectMilliseconds := some (max 0 (Int.tdiv ((host.later - since) * 1000).num
        ((host.later - since) * 1000).den))
      backendUnavailableSince := none }

/-- `_start_ssh`, with the relay in place: the child is spawned and waited for. -/
def spawn (host : Host) (s : Server) (spec : TunnelSpec) : Result Unit :=
  match host.backendPort with
  | none => (s, .error .osError)
  | some port =>
    let waiting := s.setBackend none
    if !spec.startable then (waiting, .error .valueError)
    else match host.outcome with
      | .notFound =>
        (waiting, .error (.runtimeError (lit "ssh executable was not found: " ++ host.sshBinary)))
      | .refused => (waiting, .error .osError)
      | .exited code =>
        (waiting, .error (.runtimeError (lit "SSH tunnel exited during startup with code " ++
          (if code < 0 then [45] else []) ++ decimal code.natAbs)))
      | .timedOut =>
        (waiting, .error (.runtimeError (lit "SSH tunnel did not become ready within 20 seconds")))
      | .ready pid => (waiting.ready host pid port, .ok ())

/-- `_start_ssh` -/
def startSsh (host : Host) (s : Server) : Result Unit :=
  match s.spec with
  | none => (s, .error (.runtimeError (lit "tunnel specification is missing")))
  | some spec =>
    match s.relay, host.publicPort with
    | some _, _ => spawn host s spec
    | none, none =>
      (s, .error (.runtimeError (lit "could not allocate a Cloudx tunnel broker port")))
    | none, some port => spawn host { s with relay := some ⟨port, none⟩ } spec

/-- `_stop_ssh` -/
def stopSsh (host : Host) (s : Server) : Result Unit :=
  let stopped := { s with ssh := none }.setBackend none
  match s.ssh with
  | none => (stopped, .ok ())
  | some child =>
    if child.exited || !host.killHangs then (stopped, .ok ())
    else (stopped, .error .timeoutExpired)

/-- `_ensure_ssh` -/
def ensureSsh (host : Host) (s : Server) : Result Unit :=
  match s.ssh with
  | some child =>
    if child.exited then startSsh host ({ s with ssh := none }.setBackend none) else (s, .ok ())
  | none => startSsh host (s.setBackend none)

/-! ### The loop -/

/-- The leases whose owners are dead. -/
def staleIds (host : Host) : List (Str × Lease) → Except Raised (List Str)
  | [] => .ok []
  | (id, lease) :: leases =>
    match pidAlive host lease.ownerPid, staleIds host leases with
    | .error e, _ => .error e
    | .ok _, .error e => .error e
    | .ok true, .ok stale => .ok stale
    | .ok false, .ok stale => .ok (id :: stale)

/-- `_reap_leases` -/
def reapLeases (host : Host) (s : Server) : Result Unit :=
  match staleIds host s.leases with
  | .error e => (s, .error e)
  | .ok stale =>
    let kept := s.leases.filter fun entry => entry.1 ∉ stale
    if stale ≠ [] ∧ kept = [] then ({ s with leases := kept, lastRelease := host.now }, .ok ())
    else ({ s with leases := kept }, .ok ())

/-- The first half of `_maintain_tunnel`: a child that has exited is noticed. -/
def noticeExit (host : Host) (s : Server) : Server :=
  match s.ssh with
  | none => s
  | some child =>
    if child.exited then
      { { s with ssh := none }.setBackend none with
        backendUnavailableSince := some (s.backendUnavailableSince.getD host.now)
        nextRestartAt := host.now + s.restartDelay
        restartDelay := min 20 (s.restartDelay * 2) }
    else s

/-- A start is due. -/
def Server.restartDue (s : Server) (host : Host) : Bool :=
  s.leases ≠ [] && s.ssh.isNone && s.nextRestartAt ≤ host.later

/-- `_maintain_tunnel` -/
def maintainTunnel (host : Host) (s : Server) : Result Unit :=
  let noticed := noticeExit host s
  if noticed.restartDue host then
    match startSsh host noticed with
    | (started, .ok _) => (started, .ok ())
    | (failed, .error e) =>
      if e.isRuntimeError then
        ({ failed with
          nextRestartAt := host.last + failed.restartDelay
          restartDelay := min 20 (failed.restartDelay * 2) }, .ok ())
      else (failed, .error e)
  else (noticed, .ok ())

/-- The idle test of `serve`. -/
def idle (host : Host) (idleSeconds : ℚ) (s : Server) : Bool :=
  s.leases = [] && idleSeconds ≤ host.now - s.lastRelease

/-! ### Control requests -/

/-- `int(value or 0)` -/
def intOf (host : Host) (value : Json) : Except Raised ℤ :=
  if !truthy value then .ok 0
  else match value with
    | .int n => .ok n
    | .bool b => .ok b.toNat
    | .float (.finite q) => .ok (Int.tdiv q.num q.den)
    | .float .nan => .error .valueError
    | .float _ => .error .overflowError
    | .str s => match host.intOfText s with
      | some n => .ok n
      | none => .error .valueError
    | _ => .error .typeError

/-- `str(value or "")` -/
def textOf (py : Py) (value : Json) : Str := py.str (pyOrs [value])

/-- `self.leases[lease_id] = lease` -/
def setLease : List (Str × Lease) → Str → Lease → List (Str × Lease)
  | [], id, lease => [(id, lease)]
  | (k, old) :: leases, id, lease =>
    if k = id then (k, lease) :: leases else (k, old) :: setLease leases id lease

/-- The fields of an `acquire` request. -/
structure Request where
  leaseId : Str
  ownerPid : ℤ
  spec : TunnelSpec
deriving DecidableEq

/-- The fields of an `acquire` request, in the order in which they are converted. -/
def acquireFields (py : Py) (host : Host) (d : Dict) : Except Raised Request :=
  match intOf host (get d (lit "ownerPid")) with
  | .error e => .error e
  | .ok ownerPid =>
    match intOf host (get d (lit "forwardPort")) with
    | .error e => .error e
    | .ok forwardPort => .ok ⟨textOf py (get d (lit "leaseId")), ownerPid,
        ⟨strip (textOf py (get d (lit "sshHost"))), strip (textOf py (get d (lit "forwardHost"))),
          forwardPort⟩⟩

/-- The checks of an `acquire` request. -/
def acquireChecks (host : Host) (s : Server) (r : Request) : Except Raised Unit :=
  if !host.isUuid r.leaseId then .error (.runtimeError (lit "invalid tunnel lease identifier"))
  else match pidAlive host r.ownerPid with
    | .error e => .error e
    | .ok false => .error (.runtimeError (lit "tunnel lease owner is not running"))
    | .ok true =>
      if r.spec.sshHost = [] ∨ r.spec.forwardHost = [] ∨ r.spec.forwardPort < 1 ∨
          65535 < r.spec.forwardPort then
        .error (.runtimeError (lit "invalid tunnel specification"))
      else if s.spec.isSome ∧ some r.spec ≠ s.spec ∧ s.leases ≠ [] then
        .error (.runtimeError (lit "active tunnel leases use a different remote endpoint"))
      else .ok ()

/-- The tunnel of an `acquire` request: the old one is stopped if it leads elsewhere. -/
def acquireTunnel (host : Host) (s : Server) (spec : TunnelSpec) : Result Unit :=
  if some spec ≠ s.spec then
    match stopSsh host s with
    | (stopped, .error e) => (stopped, .error e)
    | (stopped, .ok _) => ensureSsh host { stopped with spec := some spec }
  else ensureSsh host s

/-- A number, or `None`. -/
def numberOrNull (n : Option ℕ) : Json := (n.map fun n => Json.int n).getD .null

/-- `acquire` -/
def acquire (py : Py) (host : Host) (s : Server) (d : Dict) : Result Dict :=
  match acquireFields py host d with
  | .error e => (s, .error e)
  | .ok r =>
    match acquireChecks host s r with
    | .error e => (s, .error e)
    | .ok _ =>
      match acquireTunnel host s r.spec with
      | (failed, .error e) => (failed, .error e)
      | (tunnel, .ok _) =>
        ({ tunnel with leases := setLease tunnel.leases r.leaseId ⟨r.ownerPid, host.time⟩ },
          .ok [(lit "ok", .bool true), (lit "leaseId", .str r.leaseId),
            (lit "publicPort", numberOrNull (tunnel.relay.map Relay.publicPort)),
            (lit "generation", .int tunnel.generation)])

/-- `release` -/
def release (py : Py) (host : Host) (s : Server) (d : Dict) : Result Dict :=
  let kept := s.leases.filter fun entry => entry.1 ≠ textOf py (get d (lit "leaseId"))
  ({ s with leases := kept, lastRelease := if kept = [] then host.now else s.lastRelease },
    .ok [(lit "ok", .bool true), (lit "leases", .int kept.length)])

/-- `status` -/
def status (host : Host) (s : Server) : Dict :=
  [(lit "ok", .bool true), (lit "running", .bool true), (lit "pid", .int host.pid),
    (lit "publicPort", numberOrNull (s.relay.map Relay.publicPort)),
    (lit "sshPid", numberOrNull ((s.ssh.filter fun child => !child.exited).map Child.pid)),
    (lit "generation", .int s.generation),
    (lit "lastReconnectMilliseconds", (s.lastReconnectMilliseconds.map Json.int).getD .null),
    (lit "leases", .int s.leases.length),
    (lit "lastApiFailure", (s.lastApiFailure.map Json.obj).getD .null)]

/-- `_response` -/
def response (py : Py) (host : Host) (s : Server) (d : Dict) : Result Dict :=
  let command := get d (lit "command")
  if command = .str (lit "ping") then
    (s, .ok [(lit "ok", .bool true), (lit "pid", .int host.pid)])
  else if command = .str (lit "status") then (s, .ok (status host s))
  else if command = .str (lit "acquire") then acquire py host s d
  else if command = .str (lit "release") then release py host s d
  else if command = .str (lit "shutdown") then
    if s.leases ≠ [] then
      (s, .error (.runtimeError
        (lit "cannot stop the tunnel broker while leases are active")))
    else ({ s with stopRequested := true }, .ok [(lit "ok", .bool true)])
  else (s, .error (.runtimeError (lit "unsupported tunnel broker command")))

/-! ### Connections -/

/-- `MAX_CONTROL_BYTES` -/
def maxControlBytes : ℕ := 64 * 1024

/-- The loop that reads a request from what `recv` returns; `none` is an `OSError`, and nothing comes
after the last chunk. -/
def receive : Bytes → List (Option Bytes) → Except Raised Bytes
  | raw, [] => .ok raw
  | raw, none :: _ => if maxControlBytes < raw.length then .ok raw else .error .osError
  | raw, some chunk :: rest =>
    if maxControlBytes < raw.length ∨ chunk = [] then .ok raw
    else if 10 ∈ chunk then .ok (raw ++ chunk)
    else receive (raw ++ chunk) rest

/-- The object of a request. -/
def decodeRequest (py : Py) (raw : Bytes) : Except Raised Dict :=
  if maxControlBytes < raw.length then
    .error (.runtimeError (lit "tunnel broker request is too large"))
  else match py.loads raw with
    | .raised e => .error (ofDecoder e)
    | .jsonError | .unicodeError => .error .valueError
    | .value (.obj d) => .ok d
    | .value _ => .error (.runtimeError (lit "tunnel broker request must be an object"))

/-- The body of the `try` block of `_serve_connection`. -/
def answer (py : Py) (host : Host) (s : Server) (chunks : List (Option Bytes)) : Result Dict :=
  match receive [] chunks with
  | .error e => (s, .error e)
  | .ok raw =>
    match decodeRequest py raw with
    | .error e => (s, .error e)
    | .ok d => response py host s d

/-- `_serve_connection`: the document it sends, which the other side may or may not receive. -/
def serveConnection (py : Py) (host : Host) (s : Server) (chunks : List (Option Bytes)) :
    Result Dict :=
  match answer py host s chunks with
  | (s', .ok document) => (s', .ok document)
  | (s', .error e) =>
    if e.isCaught then
      let text := match e with
        | .runtimeError message => message
        | e => host.message e
      (s', .ok [(lit "ok", .bool false), (lit "error", .str text)])
    else (s', .error e)

end Cloudx.Local.Broker

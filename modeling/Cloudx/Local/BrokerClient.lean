import Cloudx.Lib.Reports
import Cloudx.Local.BrokerRuns
import Cloudx.Local.ShellModes

/-! # Modes of a shell and the tunnel broker

`codexx cloud` asks the broker for a lease of its tunnel, in the name of the shell that called it, and
tells the shell what the lease and the port are. The next command of the shell that changes the mode
releases the lease.

`BrokerClient` sends each request on a connection of its own. The broker answers the calls one after the
other, when it comes to them; a client that waits no longer does not know whether its request has been
or will be served. A shell runs one command at a time and evaluates what it prints.

The identifier that `uuid.uuid4` gives to a request is a function of the number of its call, and the pid
of a shell one of its number; neither is given twice. The state file, the lock of the start and the log
are left out. -/

namespace Cloudx.Local.BrokerClient

open Cloudx.Lib.Fault Cloudx.Lib.Threads Cloudx.Lib.Threads.Thread Cloudx.Lib.Reports Cloudx.Lib.Shell
open Cloudx.Python.Text Cloudx.Python.Value
open Cloudx.Local.Broker Cloudx.Local.ShellModes

/-! ### The machine -/

/-- What has come of a call. A call that is lost or answered stays so. -/
inductive Reply where
  | waiting
  | answered (document : Dict)
  | lost
deriving DecidableEq

/-- A connection to the control socket: the document that was sent, and what has come of it. -/
structure Call where
  request : Dict
  reply : Reply
deriving DecidableEq

/-- What comes of a call. -/
def Call.become (reply : Reply) (c : Call) : Call := { c with reply }

/-- A call that was waiting is lost. -/
def Call.abort (c : Call) : Call := if c.reply = .waiting then c.become .lost else c

/-- A shell with its exported variables. -/
structure Shell where
  env : Variables
  isOpen : Bool

/-- A change of the variables. -/
def Shell.change (f : Variables → Variables) (x : Shell) : Shell := { x with env := f x.env }

/-- The shell is gone. -/
def Shell.close (x : Shell) : Shell := { x with isOpen := false }

/-- The broker, if one is listening, the calls so far, and the shells so far. -/
structure Machine where
  server : Option Server
  calls : List Call
  shells : List Shell

/-- The identifiers that the system gives. -/
structure Identifiers where
  /-- `str(uuid.uuid4())` for a call -/
  uuid4 : ℕ → Str
  /-- `$$` of a shell -/
  pid : ℕ → ℤ
  uuid4_injective : Function.Injective uuid4
  uuid4_plain : ∀ k, strip (uuid4 k) = uuid4 k ∧ uuid4 k ≠ []
  pid_injective : Function.Injective pid

/-- What is reported of the shells and of the broker. -/
inductive Event where
  | opened (shell : ℕ)
  /-- A command starts, with this lease in its environment. -/
  | began (shell : ℕ) (lease : Str)
  | asked (shell call : ℕ)
  | granted (call : ℕ) (document : Dict)
  | refused (call : ℕ)
  | releasing (lease : Str) (call : ℕ)
  | released (lease : Str)
  /-- A client does not know whether the lease was granted, or released. -/
  | gaveUp (lease : Str)
  /-- The shell evaluates what the command prints, and has this lease in its variables. -/
  | evaluated (shell : ℕ) (lease : Str)
  | failed (shell : ℕ)
  | closed (shell : ℕ)
  /-- The broker comes to a call. -/
  | served (call : ℕ) (request : Dict)
  | ended
deriving DecidableEq

/-- A process, or a shell with the processes that it runs. -/
abbrev Program := Thread Machine Event Raised

/-! ### Requests -/

/-- What is reported of a request: that it was or was not sent, and the document that came back, if one
did. -/
structure Notes where
  sent : ℕ → Option Event
  unsent : Option Event
  back : ℕ → Option Dict → Option Event

/-- `value.get("ok")` -/
def accepted (d : Dict) : Bool := truthy (get d (lit "ok"))

/-- The document that has come back. -/
def answerOf (s : Machine) (call : ℕ) : Option Dict :=
  match s.calls[call]?.map Call.reply with
  | some (.answered d) => some d
  | _ => none

/-- The end of `request`: a document that is not `ok` is an error, and so are a connection that ends
without a document and one that the client waits for no longer. -/
def outcomeOf (py : Py) (s : Machine) (call : ℕ) : Except Raised Dict :=
  match s.calls[call]?.map Call.reply with
  | some (.answered d) =>
    if accepted d then .ok d
    else .error (.runtimeError
      (py.str (pyOrs [get d (lit "error"), .str (lit "tunnel broker request failed")])))
  | some .lost => .error .valueError
  | _ => .error .osError

/-- `client.connect(...)` and `client.sendall(...)` -/
def connect (document : ℕ → Dict) (notes : Notes) : Program ℕ :=
  atomically (fun s _ => if s.server.isSome then notes.sent s.calls.length else notes.unsent) fun s =>
    if s.server.isSome then
      (.ok s.calls.length, { s with calls := s.calls ++ [⟨document s.calls.length, .waiting⟩] })
    else (.error .osError, s)

/-- `request` -/
def request (py : Py) (document : ℕ → Dict) (notes : Notes) : Program Dict := do
  let call ← connect document notes
  look (fun s => notes.back call (answerOf s call)) fun s => outcomeOf py s call

/-- The document of a `ping`. -/
def pingDocument : Dict := [(lit "command", .str (lit "ping"))]

/-- The document of an `acquire`. -/
def acquireDocument (lease : Str) (ownerPid : ℤ) (spec : TunnelSpec) : Dict :=
  [(lit "command", .str (lit "acquire")), (lit "leaseId", .str lease), (lit "ownerPid", .int ownerPid),
    (lit "sshHost", .str spec.sshHost), (lit "forwardHost", .str spec.forwardHost),
    (lit "forwardPort", .int spec.forwardPort)]

/-- The document of a `release`. -/
def releaseDocument (lease : Str) : Dict :=
  [(lit "command", .str (lit "release")), (lit "leaseId", .str lease)]

/-- `except (OSError, ValueError, RuntimeError)` -/
def except {α : Type} (handler : Program α) (r : Except Raised α) : Program α :=
  match r with
  | .ok a => return a
  | .error e => if e.isCaught then handler else lift (.error e)

/-- What is reported of a `ping`: only that it fails. -/
def pingNotes (failing : Option Event) : Notes where
  sent _ := none
  unsent := failing
  back _ d := if d.any accepted then none else failing

/-- `_ping` -/
def ping (py : Py) (failing : Option Event) : Program Bool := do
  let r ← attempt do
    let _ ← request py (fun _ => pingDocument) (pingNotes failing)
    return true
  except (return false) r

/-! ### The broker -/

/-- What the broker answers to the document of a request, as in `_serve_connection`; an exception that is
not caught ends the broker. -/
def serveRequest (py : Py) (host : Host) (s : Server) (d : Dict) : Result Dict :=
  match response py host s d with
  | (s', .ok document) => (s', .ok document)
  | (s', .error e) =>
    if e.isCaught then
      let text := match e with
        | .runtimeError message => message
        | e => host.message e
      (s', .ok [(lit "ok", .bool false), (lit "error", .str text)])
    else (s', .error e)

/-- A request whose bytes arrive and are those of a document is served as this document. -/
theorem serveConnection_document {py : Py} {host : Host} {s : Server} {chunks : List (Option Bytes)}
    {raw : Bytes} {d : Dict} (hraw : receive [] chunks = .ok raw) (hd : decodeRequest py raw = .ok d) :
    serveConnection py host s chunks = serveRequest py host s d := by
  unfold serveConnection serveRequest answer
  rw [hraw]
  dsimp only
  generalize decodeRequest py raw = r at hd ⊢
  subst hd
  rfl

/-! ### The client -/

/-- How starting a broker goes: what taking the lock and spawning the process raise, and at each turn of
the loop whether the process has exited. -/
structure Start where
  locked : Except Raised Unit
  spawned : Except Raised Unit
  polls : List Bool

/-- The loop of `ensure_started`. -/
def awaitBroker (py : Py) : List Bool → Program Unit
  | [] => lift (.error (.runtimeError (lit "Cloudx tunnel broker did not start within 20 seconds")))
  | exited :: polls => do
    if ← ping py none then return ()
    else if exited then
      lift (.error (.runtimeError (lit "Cloudx tunnel broker exited during startup")))
    else awaitBroker py polls

/-- `ensure_started` -/
def ensureStarted (py : Py) (start : Start) : Program Unit := do
  if ← ping py none then return ()
  else do
    lift start.locked
    if ← ping py none then return ()
    else do
      lift start.spawned
      awaitBroker py start.polls

/-- `str(response.get("leaseId") or "")` -/
def leaseText (py : Py) (response : Dict) : Str := textOf py (get response (lit "leaseId"))

/-- `int(response.get("publicPort") or 0)` -/
def portOf (host : Host) (response : Dict) : Except Raised ℤ :=
  intOf host (get response (lit "publicPort"))

/-- What is reported of an `acquire`. -/
def acquireNotes (ids : Identifiers) (shell : ℕ) : Notes where
  sent call := some (.asked shell call)
  unsent := none
  back call d := some (match d with
    | some d => if accepted d then .granted call d else .refused call
    | none => .gaveUp (ids.uuid4 call))

/-- `acquire_for_owner`, for a shell. -/
def acquireForOwner (ids : Identifiers) (py : Py) (host : Host) (spec : TunnelSpec) (shell : ℕ)
    (start : Start) : Program Dict := do
  ensureStarted py start
  let response ← request py (fun call => acquireDocument (ids.uuid4 call) (ids.pid shell) spec)
    (acquireNotes ids shell)
  let port ← lift (portOf host response)
  if 1 ≤ port ∧ port ≤ 65535 then return response
  else lift (.error (.runtimeError (lit "tunnel broker returned an invalid local port")))

/-- What is reported of a `release`. -/
def releaseNotes (lease : Str) : Notes where
  sent call := some (.releasing lease call)
  unsent := some (.gaveUp lease)
  back _ d := some (if d.any accepted then .released lease else .gaveUp lease)

/-- `release` -/
def release (py : Py) (lease : Str) : Program Unit :=
  if lease = [] then return ()
  else do
    if ← ping py (some (.gaveUp lease)) then do
      let _ ← request py (fun _ => releaseDocument lease) (releaseNotes lease)
      return ()
    else return ()

/-! ### The modes -/

/-- `os.environ.get("CLOUDX_MODE_LEASE_ID", "").strip()` -/
def leaseOf (env : Variables) : Str := strip ((env (lit "CLOUDX_MODE_LEASE_ID")).getD [])

/-- `_release_cloud_lease` -/
def releaseCloudLease (py : Py) (lease : Str) : Program Unit :=
  if lease = [] then return ()
  else do
    let r ← attempt (release py lease)
    except (return ()) r

/-- What the steps of `select_cloud` outside the broker give: the endpoint of `resolve_endpoint`, the
start of a broker, the status of `probe_endpoint`, and the home of `prepare_cloud_mode`, both for a
port. -/
structure CloudSteps where
  endpoint : Except Raised TunnelSpec
  start : Start
  probe : ℤ → Except Raised (Option ℤ)
  prepare : ℤ → Except Raised Str

/-- The body of the `try` block of `select_cloud`. -/
def CloudSteps.home (steps : CloudSteps) (port : ℤ) : Except Raised Str := do
  let status ← steps.probe port
  if status.any fun code => 200 ≤ code && code < 300 then steps.prepare port
  else .error (.runtimeError (lit "cloud mode gateway check failed"))

/-- A command that changes the mode: `select_account` with the home that `shell_select` finds for the name,
`select_cloud`, and `exit_mode`. -/
inductive ModeCommand where
  | account (name : Str) (codexHome : Except Raised Str)
  | cloud (steps : CloudSteps)
  | exit

section

variable (ids : Identifiers) (py : Py) (host : Host) (home : Str)

/-- `select_account` -/
def selectAccount (lease name : Str) (codexHome : Except Raised Str) : Program Str := do
  releaseCloudLease py lease
  let codexHome ← lift codexHome
  return selectAccountText home codexHome name

/-- `select_cloud` -/
def selectCloud (shell : ℕ) (lease : Str) (steps : CloudSteps) : Program Str :=
  if ids.pid shell ≤ 1 then lift (.error (.runtimeError (lit "cloud mode requires a live shell PID")))
  else do
    releaseCloudLease py lease
    let endpoint ← lift steps.endpoint
    let response ← acquireForOwner ids py host endpoint shell steps.start
    let port ← lift (portOf host response)
    match steps.home port with
    | .ok codexHome => return selectCloudText home codexHome (leaseText py response) port.toNat
    | .error e => do
      release py (leaseText py response)
      lift (.error e)

/-- `exit_mode` -/
def exitMode (lease : Str) : Program Str := do
  releaseCloudLease py lease
  return exitModeText home

/-! ### Shells -/

/-- The variables of a shell after it has evaluated a text. -/
def Machine.evaluate (s : Machine) (shell : ℕ) (text : Str) : Machine :=
  { s with shells := s.shells.modify shell (Shell.change fun env => (evalScript text env).getD env) }

/-- The lease in the variables of a shell. -/
def Machine.leaseAt (s : Machine) (shell : ℕ) : Str :=
  (s.shells[shell]?.map fun x => leaseOf x.env).getD []

/-- The lease that evaluating a text puts into the variables. -/
def leaseSet (text : Str) : Str := ((evalScript text fun _ => none).map leaseOf).getD []

/-- The end of a command: the shell evaluates what it has printed, unless it failed. -/
def conclude (shell : ℕ) : Except Raised Str → Program Unit
  | .ok text => atomically (fun _ _ => some (.evaluated shell (leaseSet text))) fun s =>
      (.ok (), s.evaluate shell text)
  | .error _ => atomically (fun _ _ => some (.failed shell)) fun s => (.ok (), s)

/-- What a command prints. -/
def printed (shell : ℕ) (lease : Str) : ModeCommand → Program Str
  | .account name codexHome => selectAccount py home lease name codexHome
  | .cloud steps => selectCloud ids py host home shell lease steps
  | .exit => exitMode py home lease

/-- `__cloudx_apply_mode` -/
def applyMode (shell : ℕ) (command : ModeCommand) : Program Unit := do
  let lease ← look (fun s => some (.began shell (s.leaseAt shell))) fun s => .ok (s.leaseAt shell)
  let r ← attempt (printed ids py host home shell lease command)
  conclude shell r

/-- A new shell, with the variables of the shell it is started from, if there is one. -/
def openShell (parent : Option ℕ) (env : Variables) : Program ℕ :=
  atomically (fun s _ => some (.opened s.shells.length)) fun s =>
    (.ok s.shells.length, { s with shells := s.shells ++
      [⟨((parent.bind (s.shells[·]?)).map Shell.env).getD env, true⟩] })

/-- The shell exits. -/
def closeShell (shell : ℕ) : Program Unit :=
  atomically (fun _ _ => some (.closed shell)) fun s =>
    (.ok (), { s with shells := s.shells.modify shell Shell.close })

/-- A shell from its start to its end. -/
def session (parent : Option ℕ) (env : Variables) (commands : List ModeCommand) : Program Unit := do
  let shell ← openShell parent env
  let _ ← each (applyMode ids py host home shell) commands
  closeShell shell

end

end Cloudx.Local.BrokerClient

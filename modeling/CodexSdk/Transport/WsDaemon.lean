import CodexSdk.Interleave.Machine
import CodexSdk.Transport.WsTarget

/-!
# Starting app-servers

The startup half of `transport/ws_daemon.rs`, as programs over the operations by which it touches
what it shares with other calls and with the machine it runs on: a probe of a URL, the startup lock
of a target, the start of a process and a look at one, and the clock.

The readiness loop has no bound, so a program goes once around it; `Call.resume` is what a call
goes on with, and the machine restarts it with that.  The machine `daemons` puts any number of calls
of one process beside the servers they start.  In it a probe finds a server exactly when one is up,
and a server that has come up stays up.
-/

set_option autoImplicit false

namespace CodexSdk
namespace WsDaemon

open Interleave

/-! ## Operations -/

/-- `PROBE_INTERVAL`, in nanoseconds. -/
def probeInterval : Nat := 150000000

/-- `STARTUP_TIMEOUT`. -/
def startupTimeout : Nat := 10000000000

inductive ProbeState
  | reachable
  | unavailable

inductive WsStartMode
  | daemon
  | blocking

/-- The operations of a starting call.  A child is its process id, an I/O error its text, and an
instant a number of nanoseconds. -/
inductive Op
  | probe (url : String) (authToken : Option String)
  /-- `startup_lock(..)` and the lock on what it returns. -/
  | lock (key : LockKey)
  | unlock (key : LockKey)
  | spawnDaemon (target : WsStartTarget) (env : List (String × String))
  | spawnOwnedProcess (target : WsStartTarget) (env : List (String × String))
  | tryWait (child : Nat)
  /-- `Instant::now() + timeout`. -/
  | instantIn (timeout : Nat)
  /-- `Instant::now() >= deadline`. -/
  | reached (deadline : Int)
  | sleep (duration : Nat)
  /-- What happens to a server; no call performs it. -/
  | serverStep

abbrev Op.Ans : Op → Type
  | probe _ _ => Except String ProbeState
  | spawnDaemon _ _ => Except String Unit
  | spawnOwnedProcess _ _ => Except String Nat
  | tryWait _ => Except String (Option String)
  | instantIn _ => Int
  | reached _ => Bool
  | _ => Unit

abbrev DaemonM := Prog Op Op.Ans

abbrev perform (o : Op) : DaemonM o.Ans := Prog.perform o

/-! ## Handles -/

structure WsServerHandle where
  listenUrl : String
  connectUrl : String
  mode : WsStartMode
  reusedExisting : Bool
  logPath : Option String
  processGroupId : Option Nat
  child : Option Nat

namespace WsServerHandle

def startedNewProcess (handle : WsServerHandle) : Bool := !handle.reusedExisting

def fromReusedExisting (listenUrl connectUrl : String) (mode : WsStartMode)
    (logPath : Option String) : WsServerHandle where
  listenUrl := listenUrl
  connectUrl := connectUrl
  mode := mode
  reusedExisting := true
  logPath := logPath
  processGroupId := none
  child := none

def daemonStarted (listenUrl connectUrl logPath : String) : WsServerHandle where
  listenUrl := listenUrl
  connectUrl := connectUrl
  mode := .daemon
  reusedExisting := false
  logPath := some logPath
  processGroupId := none
  child := none

def blockingStarted (listenUrl connectUrl : String) (child : Nat) : WsServerHandle where
  listenUrl := listenUrl
  connectUrl := connectUrl
  mode := .blocking
  reusedExisting := false
  logPath := none
  processGroupId := some child
  child := some child

end WsServerHandle

/-! ## The startup -/

def existingServerHandle (target : WsStartTarget) (reuseExisting : Bool) (mode : WsStartMode)
    (authToken : Option String) : DaemonM (Except ClientError (Option WsServerHandle)) := do
  match ← perform (.probe target.connectUrl authToken) with
  | .ok .reachable =>
    return if reuseExisting then
        .ok (some (.fromReusedExisting target.listenUrl target.connectUrl mode
          (some target.logPath)))
      else
        .error (.startup
          s!"websocket app-server already running at `{target.connectUrl}` and reuse_existing is disabled"
          (some target.logPath))
  | .ok .unavailable => return .ok none
  | .error probeFailure =>
    return .error (.startup
      s!"websocket startup conflict at `{target.connectUrl}`: {probeFailure}" (some target.logPath))

/-- The locals of the readiness loop.  Only a server started in blocking mode has a child. -/
structure Waiting where
  target : WsStartTarget
  child : Option Nat
  authToken : Option String
  deadline : Int

/-- The handle to the server that was waited for. -/
def Waiting.handle (wait : Waiting) : WsServerHandle :=
  match wait.child with
  | none => .daemonStarted wait.target.listenUrl wait.target.connectUrl wait.target.logPath
  | some child => .blockingStarted wait.target.listenUrl wait.target.connectUrl child

/-- The child has not exited. -/
def Waiting.checkChild (wait : Waiting) : DaemonM (Except ClientError Unit) :=
  match wait.child with
  | none => return .ok ()
  | some child => do
    match ← perform (.tryWait child) with
    | .error err => return .error (.io err)
    | .ok (some status) =>
      return .error (.startup
        s!"websocket app-server for `{wait.target.connectUrl}` exited before becoming ready with status {status}"
        none)
    | .ok none => return .ok ()

/-- Once around the loop of `wait_for_ready`; `none` is another round. -/
def Waiting.round (wait : Waiting) : DaemonM (Option (Except ClientError Unit)) := do
  match ← wait.checkChild with
  | .error err => return some (.error err)
  | .ok _ =>
    match ← perform (.probe wait.target.connectUrl wait.authToken) with
    | .ok .reachable => return some (.ok ())
    | .ok .unavailable =>
      let late : Bool ← perform (.reached wait.deadline)
      if late then
        return some (.error (.startup
          s!"timed out waiting for websocket app-server at `{wait.target.connectUrl}`"
          (some wait.target.logPath)))
      else
        perform (.sleep probeInterval)
        return none
    | .error probeFailure =>
      return some (.error (.startup
        s!"websocket app-server readiness probe failed for `{wait.target.connectUrl}`: {probeFailure}"
        (some wait.target.logPath)))

/-- How far a startup has come. -/
inductive Startup
  | done (outcome : Except ClientError WsServerHandle)
  | waiting (wait : Waiting)

/-- The guard is dropped on every way out. -/
def release (target : WsStartTarget) (outcome : Except ClientError WsServerHandle) :
    DaemonM Startup := do
  perform (.unlock target.listen.lockKey)
  return .done outcome

/-- `wait_for_ready`, and what follows it. -/
def waitForReady (wait : Waiting) : DaemonM Startup := do
  match ← wait.round with
  | none => return .waiting wait
  | some ready => release wait.target ((fun _ => wait.handle) <$> ready)

/-- The server is started, and waited for. -/
def startServer (target : WsStartTarget) (env : List (String × String)) (mode : WsStartMode)
    (authToken : Option String) : DaemonM Startup :=
  match mode with
  | .daemon => do
    match ← perform (.spawnDaemon target env) with
    | .error detail => release target (.error (.startup
        s!"failed to start websocket app-server daemon for `{target.connectUrl}`: {detail}"
        (some target.logPath)))
    | .ok _ =>
      let deadline ← perform (.instantIn startupTimeout)
      waitForReady ⟨target, none, authToken, deadline⟩
  | .blocking => do
    match ← perform (.spawnOwnedProcess target env) with
    | .error err => release target (.error (.io err))
    | .ok child =>
      let deadline ← perform (.instantIn startupTimeout)
      waitForReady ⟨target, some child, authToken, deadline⟩

/-- What is done under the startup lock. -/
def startLocked (target : WsStartTarget) (env : List (String × String)) (reuseExisting : Bool)
    (mode : WsStartMode) (authToken : Option String) : DaemonM Startup := do
  match ← existingServerHandle target reuseExisting mode authToken with
  | .error err => release target (.error err)
  | .ok (some handle) => release target (.ok handle)
  | .ok none => startServer target env mode authToken

def startWsServerInternal (target : WsStartTarget) (env : List (String × String))
    (reuseExisting : Bool) (mode : WsStartMode) (authToken : Option String) : DaemonM Startup := do
  match ← existingServerHandle target reuseExisting mode authToken with
  | .error err => return .done (.error err)
  | .ok (some handle) => return .done (.ok handle)
  | .ok none =>
    perform (.lock target.listen.lockKey)
    startLocked target env reuseExisting mode authToken

/-! ## The public calls -/

inductive Call
  | startWsServer (config : WsStartConfig) (mode : WsStartMode)
  | ensureLocalWsAppServer (url : String) (env : List (String × String)) (authToken : Option String)

/-- What a call returns. -/
inductive Returned
  | handle (handle : WsServerHandle)
  | unit

/-- A call that has returned, or that goes around the readiness loop again; or the machine. -/
inductive Result
  | returned (call : Call) (outcome : Except ClientError Returned)
  | waiting (call : Call) (wait : Waiting)
  | host

namespace Call

/-- `ensure_local_ws_app_server` is not asked, and always reuses a server. -/
def reuseExisting : Call → Bool
  | startWsServer config _ => config.reuseExisting
  | ensureLocalWsAppServer _ _ _ => true

/-- The endpoint a call starts a server for, if it is one that is managed. -/
def target (site : Surroundings) : Call → Except ClientError (Option WsStartTarget)
  | startWsServer config _ => some <$> buildStartTarget site config
  | ensureLocalWsAppServer url _ _ => parseManagedWsTarget site url

/-- The startup of a call. -/
def startup (target : WsStartTarget) : Call → DaemonM Startup
  | startWsServer config mode =>
    startWsServerInternal target config.env config.reuseExisting mode none
  | ensureLocalWsAppServer _ env authToken =>
    startWsServerInternal target env true .daemon authToken

/-- What a call makes of the handle. -/
def keep : Call → WsServerHandle → Returned
  | startWsServer _ _, handle => .handle handle
  | ensureLocalWsAppServer _ _ _, _ => .unit

def conclude (call : Call) : Startup → Result
  | .done outcome => .returned call (call.keep <$> outcome)
  | .waiting wait => .waiting call wait

/-- `start_ws_server` and `ensure_local_ws_app_server`. -/
def body (site : Surroundings) (call : Call) : DaemonM Result :=
  match call.target site with
  | .error err => return .returned call (.error err)
  | .ok none => return .returned call (.ok .unit)
  | .ok (some target) => do
    let startup ← call.startup target
    return call.conclude startup

/-- Another round of the readiness loop. -/
def resume (call : Call) (wait : Waiting) : DaemonM Result := do
  let startup ← waitForReady wait
  return call.conclude startup

end Call

/-! ## The machine -/

/-- The calls, and the machine they run on. -/
inductive Tid
  | caller (n : Nat)
  | host
  deriving DecidableEq

/-- A server process: its id, where it listens, and the call that has started it. -/
structure Process where
  pid : Nat
  key : LockKey
  parent : Tid

structure Servers where
  /-- `STARTUP_LOCKS`: who holds the lock of a target. -/
  locks : LockKey → Option Tid
  spawned : List Process
  /-- The processes that accept connections. -/
  up : Nat → Bool
  /-- Where a server accepts connections that no call has started. -/
  foreign : LockKey → Bool

namespace Servers

/-- No lock is held, and some servers may be running. -/
def start (running : LockKey → Bool) : Servers where
  locks := fun _ => none
  spawned := []
  up := fun _ => false
  foreign := running

/-- A server accepts connections there. -/
def accepting (s : Servers) (key : LockKey) : Bool :=
  s.foreign key || s.spawned.any fun p => decide (p.key = key) && s.up p.pid

def probeState (s : Servers) (key : LockKey) : ProbeState :=
  if s.accepting key then .reachable else .unavailable

def spawn (s : Servers) (t : Tid) (target : WsStartTarget) : Servers :=
  { s with spawned := s.spawned ++ [⟨s.spawned.length, target.listen.lockKey, t⟩] }

end Servers

/-- What is not up to the calls: whether a process can be started or has exited, the clock, and what
happens to the servers.  Those that were running may stop. -/
inductive Choice
  | proceed
  | refuse (err : String)
  | exited (status : String)
  | clock (now : Int)
  | comesUp (pid : Nat)
  | stops (key : LockKey)

/-- The effect of an operation; `endpoint` is where a URL leads. -/
def exec (endpoint : String → LockKey) (t : Tid) :
    (o : Op) → Choice → Servers → Option (o.Ans × Servers)
  | .probe url _, _, s => some (.ok (s.probeState (endpoint url)), s)
  | .lock key, _, s => match s.locks key with
    | none => some ((), { s with locks := Function.update s.locks key (some t) })
    | some _ => none
  | .unlock key, _, s => some ((), { s with locks := Function.update s.locks key none })
  | .spawnDaemon _ _, .refuse err, s => some (.error err, s)
  | .spawnDaemon target _, .proceed, s => some (.ok (), s.spawn t target)
  | .spawnDaemon _ _, _, _ => none
  | .spawnOwnedProcess _ _, .refuse err, s => some (.error err, s)
  | .spawnOwnedProcess target _, .proceed, s => some (.ok s.spawned.length, s.spawn t target)
  | .spawnOwnedProcess _ _, _, _ => none
  | .tryWait _, .proceed, s => some (.ok none, s)
  | .tryWait _, .refuse err, s => some (.error err, s)
  | .tryWait _, .exited status, s => some (.ok (some status), s)
  | .tryWait _, _, _ => none
  | .instantIn timeout, .clock now, s => some (now + timeout, s)
  | .instantIn _, _, _ => none
  | .reached deadline, .clock now, s => some (decide (deadline ≤ now), s)
  | .reached _, _, _ => none
  | .sleep _, _, s => some ((), s)
  | .serverStep, .comesUp pid, s =>
    if pid < s.spawned.length then some ((), { s with up := Function.update s.up pid true })
    else none
  | .serverStep, .stops key, s =>
    some ((), { s with foreign := Function.update s.foreign key false })
  | .serverStep, _, _ => none

/-- The operations behind an `.await`. -/
def Op.awaits : Op → Bool
  | probe _ _ | lock _ | spawnDaemon _ _ | sleep _ => true
  | _ => false

/-- Dropping a call drops the guard it may hold. -/
def cancel (t : Tid) (s : Servers) : Servers :=
  { s with locks := fun key => if s.locks key = some t then none else s.locks key }

def hostRound : DaemonM Result := do
  perform .serverStep
  return .host

/-- Any number of calls of one process, and the machine. -/
def daemons (site : Surroundings) (endpoint : String → LockKey) :
    Machine Tid Call Op Choice Servers Result Op.Ans where
  body := Call.body site
  exec := exec endpoint
  restart
    | _, .waiting call wait => some (call.resume wait)
    | .host, .host => some hostRound
    | _, _ => none
  awaits := Op.awaits
  cancel := cancel

abbrev DaemonWorld := World Tid Call Op Servers Op.Ans

abbrev DaemonConfig := Config Tid Call Op Servers Result Op.Ans

abbrev DaemonEvent := Event Tid Call Op Op.Ans

/-- No call has been made. -/
def DaemonConfig.start (running : LockKey → Bool) : DaemonConfig where
  world := ⟨.start running, []⟩
  tasks
    | .host => .live hostRound
    | .caller _ => .absent

end WsDaemon
end CodexSdk

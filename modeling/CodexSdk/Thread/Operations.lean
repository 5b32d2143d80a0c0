import CodexSdk.Interleave.Sequential
import CodexSdk.Thread.Params
import CodexSdk.Turn.Stream

/-!
# A thread and its operations

`Thread` of `api.rs`: a handle that starts or resumes a thread of the server on first use and then
works on that one.  Every operation goes through `ensureThreadStartedOrResumed` and sends at most
one frame of its own.

The operations are methods over the requests a thread makes (`Rpc`); what a request is answered
with, or how it fails, is up to the environment.
-/

set_option autoImplicit false

namespace CodexSdk

open Json Interleave

/-! ## Requests -/

structure ThreadResult where
  thread : ThreadSummary

structure ThreadListResult where
  data : List ThreadSummary
  nextCursor : Option String

structure TurnResult where
  turn : Turn

/-- The requests a thread makes, each with the params of its frame. -/
inductive Rpc
  /-- The handshake of the client, which a thread sees done or failed. -/
  | ensureInitialized
  | threadList (params : Map)
  | threadStart (params : Map)
  | threadResume (params : Map)
  | turnStart (params : Map)
  /-- A request whose result goes to the caller as it comes. -/
  | operation (method : String) (params : Map)

abbrev Rpc.Result : Rpc → Type
  | ensureInitialized => Unit
  | threadList _ => ThreadListResult
  | threadStart _ => ThreadResult
  | threadResume _ => ThreadResult
  | turnStart _ => TurnResult
  | operation _ _ => Value

/-- A request with its outcome. -/
abbrev RpcExchange := Exchange Rpc fun o => Except ClientError o.Result

/-! ## The handle -/

inductive ResumeThread
  | latest
  | byId (threadId : String)

structure Thread where
  id : Option String
  pendingResume : Option ResumeThread
  lastTurnId : Option String
  options : ThreadOptions

/-- A method of a thread. -/
abbrev ThreadM := Method Rpc Rpc.Result ClientError Thread

/-- One request. -/
def rpc (o : Rpc) : ThreadM o.Result := Method.call o

def startThread (options : ThreadOptions) : Thread := ⟨none, none, none, options⟩

def resumeThread (target : ResumeThread) (options : ThreadOptions) : Thread :=
  let id := match target with
    | .latest => none
    | .byId threadId => some threadId
  ⟨id, some target, none, options⟩

/-! ## The latest thread -/

def threadListPageLimit : UInt32 := 100

def maxThreadListPages : Nat := 100

/-- `str::parse::<i64>`: a sign and digits, in range. -/
def parseI64 (raw : String) : Option Int64 :=
  let (negative, digits) := match raw.toList with
    | '-' :: digits => (true, digits)
    | '+' :: digits => (false, digits)
    | digits => (false, digits)
  if digits.isEmpty || !digits.all Char.isDigit then none
  else
    let n : Int := digits.foldl (fun n c => 10 * n + (c.toNat - '0'.toNat)) 0
    let n := if negative then -n else n
    if Int64.minValue.toInt ≤ n ∧ n ≤ Int64.maxValue.toInt then some (.ofInt n) else none

def parseTimestamp : Option Value → Option Int64
  | some (.number number) => number.asI64
  | some (.string raw) => parseI64 raw
  | _ => none

def threadRecencyScore (thread : ThreadSummary) : Option Int64 :=
  (parseTimestamp (thread.extra.get "updatedAt")).or (parseTimestamp (thread.extra.get "createdAt"))

def threadMatchesWorkingDirectory (thread : ThreadSummary) : Option String → Bool
  | some workingDirectory => optStr thread.extra "cwd" == some workingDirectory
  | none => true

/-- Whether a thread listed later replaces the one selected so far: only a known recency can beat
another one. -/
def isNewer : Option Int64 → Option Int64 → Bool
  | some best, some score => best < score
  | _, _ => false

def selectLatestThreadId (threads : List ThreadSummary) (workingDirectory : Option String) :
    Option String :=
  let selected := threads.foldl (fun selected thread =>
    if threadMatchesWorkingDirectory thread workingDirectory then
      match selected with
      | none => some thread
      | some best =>
        if isNewer (threadRecencyScore best) (threadRecencyScore thread) then some thread
        else selected
    else selected) none
  selected.map ThreadSummary.id

def threadListParams (cursor : Option String) : Map :=
  .ofFields [("limit", some (.number (.posInt threadListPageLimit.toUInt64))),
    ("cursor", cursor.map .string)]

/-- The pages from `cursor` on, of which at most `pages` are read. -/
def collectThreads : Nat → Option String → ThreadM (List ThreadSummary)
  | 0, _ => .fail (.transportSend
      s!"could not resolve latest thread after scanning {maxThreadListPages} pages")
  | pages + 1, cursor => do
    let result ← rpc (.threadList (threadListParams cursor))
    match result.nextCursor with
    | some next => do
      let rest ← collectThreads pages (some next)
      return result.data ++ rest
    | none => return result.data

def resolveLatestThreadId : ThreadM String := do
  let threads ← collectThreads maxThreadListPages none
  let self ← Method.get
  match selectLatestThreadId threads self.options.workingDirectory with
  | some threadId => return threadId
  | none => match self.options.workingDirectory with
    | some workingDirectory => .fail (.transportSend
        s!"no recorded thread found for working directory `{workingDirectory}`")
    | none => .fail (.transportSend "no recorded thread found")

def ResumeThread.resolve : ResumeThread → ThreadM String
  | .byId threadId => return threadId
  | .latest => resolveLatestThreadId

/-- Starts or resumes the thread, if that is still to be done, and returns the id to announce when
this call started it. -/
def startOrResume : ThreadM (Option String) := do
  let self ← Method.get
  match self.pendingResume with
  | some pendingResume => do
    let threadId ← pendingResume.resolve
    let resumed ← rpc (.threadResume (buildThreadResumeParams threadId self.options).toJson)
    Method.set { self with id := some resumed.thread.id, pendingResume := none, lastTurnId := none }
    return none
  | none => match self.id with
    | some _ => return none
    | none => do
      let started ← rpc (.threadStart (buildThreadStartParams self.options).toJson)
      Method.set { self with id := some started.thread.id, lastTurnId := none }
      return some started.thread.id

def ensureThreadStartedOrResumed : ThreadM (String × Option String) := do
  rpc .ensureInitialized
  let emitThreadStarted ← startOrResume
  let self ← Method.get
  match self.id with
  | some threadId => return (threadId, emitThreadStarted)
  | none => .fail (.transportSend "thread id unavailable after start/resume")

/-! ## The operations -/

def threadIdParams (threadId : String) (fields : Fields) : Map :=
  .ofFields (("threadId", some (.string threadId)) :: fields)

/-- An operation that makes one request about the thread and hands its result on. -/
def onThread (method : String) (fields : Fields) : ThreadM Value := do
  let (threadId, _) ← ensureThreadStartedOrResumed
  rpc (.operation method (threadIdParams threadId fields))

def setName (name : String) : ThreadM Value :=
  onThread "thread/name/set" [("name", some (.string name))]

def read (includeTurns : Option Bool) : ThreadM Value :=
  onThread "thread/read" [("includeTurns", includeTurns.map .bool)]

def archive : ThreadM Value := onThread "thread/archive" []

def unarchive : ThreadM Value := onThread "thread/unarchive" []

def rollback (count : UInt32) : ThreadM Value :=
  onThread "thread/rollback" [("count", some (.number (.posInt count.toUInt64)))]

def compactStart : ThreadM Value := onThread "thread/compact/start" []

def interrupt (turnId : String) : ThreadM Value :=
  onThread "turn/interrupt" [("turnId", some (.string turnId))]

def steerFields (input : Input) (expectedTurnId : String) : Fields :=
  [("input", some (.array ((normalizeInput input).map TurnInputItem.toJson))),
    ("expectedTurnId", some (.string expectedTurnId))]

/-- The turn is the one asked for, or else the last one this handle started. -/
def steer (input : Input) (expectedTurnId : Option String) : ThreadM Value := do
  let (threadId, _) ← ensureThreadStartedOrResumed
  let self ← Method.get
  match expectedTurnId.or self.lastTurnId with
  | some expectedTurnId =>
    rpc (.operation "turn/steer" (threadIdParams threadId (steerFields input expectedTurnId)))
  | none => .fail (.transportSend
      "turn/steer requires expected_turn_id or a previously started turn")

/-- A stream of `CodexSdk.Turn.Stream`, before anything has been read from it. -/
structure StreamedTurn where
  threadId : String
  turnId : String
  threadStarted : Option String

def runStreamed (input : Input) (turnOptions : TurnOptions) : ThreadM StreamedTurn := do
  let (threadId, emitThreadStarted) ← ensureThreadStartedOrResumed
  let self ← Method.get
  let turnResponse ← rpc <| .turnStart
    (buildTurnStartParams threadId input self.options turnOptions).toJson
  let turnId := turnResponse.turn.id
  Method.set { self with lastTurnId := some turnId }
  return ⟨threadId, turnId, emitThreadStarted⟩

/-! ## Running a turn -/

inductive ThreadRunError
  | client (error : ClientError)
  | turnFailed (message : String)

/-- `Turn` of `api.rs`: what is left of a turn when it is over. -/
structure FinishedTurn where
  items : List ThreadItem
  finalResponse : String
  usage : Option Usage

def AgentMessageItem.isFinalAnswer (item : AgentMessageItem) : Bool :=
  item.phase = some .finalAnswer

/-- The texts that may become the final response: the last final answer, and the last agent message
that is none. -/
structure FinalResponse where
  finalAnswer : Option String
  fallbackResponse : Option String

def FinalResponse.update (r : FinalResponse) : ThreadItem → FinalResponse
  | .agentMessage item =>
    if item.isFinalAnswer then { r with finalAnswer := some item.text }
    else { r with fallbackResponse := some item.text }
  | _ => r

/-- The loop of `run` over what the stream delivers, up to its end. -/
def collectTurn (items : List ThreadItem) (response : FinalResponse) :
    List StreamItem → Except ThreadRunError FinishedTurn
  | [] => .error (.client .transportClosed)
  | .error err :: _ => .error (.client err)
  | .ok event :: rest => match event with
    | .itemCompleted item => collectTurn (items ++ [item]) (response.update item) rest
    | .turnCompleted usage => .ok
        ⟨items, (response.finalAnswer.or response.fallbackResponse).getD "", usage⟩
    | .turnFailed error => .error (.turnFailed error.message)
    | .error message => .error (.turnFailed message)
    | .threadStarted _ | .turnStarted | .itemStarted _ | .itemUpdated _ =>
      collectTurn items response rest

/-- `run` on a stream that delivers these items and is then closed. -/
def runOn (items : List StreamItem) : Except ThreadRunError FinishedTurn :=
  collectTurn [] ⟨none, none⟩ items

/-! ## Histories -/

/-- A call of an operation.  For `run` it says what the stream of its turn will deliver. -/
inductive Operation
  | setName (name : String)
  | read (includeTurns : Option Bool)
  | archive
  | unarchive
  | rollback (count : UInt32)
  | compactStart
  | steer (input : Input) (expectedTurnId : Option String)
  | interrupt (turnId : String)
  | runStreamed (input : Input) (turnOptions : TurnOptions)
  | run (input : Input) (turnOptions : TurnOptions) (delivers : StreamedTurn → List StreamItem)

/-- What an operation returns when no request of it failed.  `run` has a stream too, which it reads
to its end. -/
inductive Returned
  | done
  | value (result : Value)
  | streamed (stream : StreamedTurn)
  | ran (stream : StreamedTurn) (result : Except ThreadRunError FinishedTurn)

def Operation.body : Operation → ThreadM Returned
  | .setName name => do return .value (← CodexSdk.setName name)
  | .read includeTurns => do return .value (← CodexSdk.read includeTurns)
  | .archive => do return .value (← CodexSdk.archive)
  | .unarchive => do return .value (← CodexSdk.unarchive)
  | .rollback count => do return .value (← CodexSdk.rollback count)
  | .compactStart => do return .value (← CodexSdk.compactStart)
  | .steer input expectedTurnId => do return .value (← CodexSdk.steer input expectedTurnId)
  | .interrupt turnId => do
    let _ ← CodexSdk.interrupt turnId
    return .done
  | .runStreamed input turnOptions => do return .streamed (← CodexSdk.runStreamed input turnOptions)
  | .run input turnOptions delivers => do
    let stream ← CodexSdk.runStreamed input turnOptions
    return .ran stream (runOn (delivers stream))

/-- An operation that has been performed. -/
structure Performed where
  operation : Operation
  exchanges : List RpcExchange
  result : Except ClientError Returned

/-- The histories of a handle: its operations one after another, every request answered in any
way. -/
inductive ThreadRun (origin : Thread) : List Performed → Thread → Prop
  | init : ThreadRun origin [] origin
  | step {history : List Performed} {self self' : Thread} {operation : Operation}
      {exchanges : List RpcExchange} {result : Except ClientError Returned}
      (h : ThreadRun origin history self) (hop : Does operation.body self exchanges result self') :
      ThreadRun origin (history ++ [⟨operation, exchanges, result⟩]) self'

end CodexSdk

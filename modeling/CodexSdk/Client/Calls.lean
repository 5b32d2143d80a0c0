import CodexSdk.Client.State

/-!
# The calls of a client

The bodies of the public calls and of the inbound loop, from `client/mod.rs` and
`client/server_requests.rs`, as programs over the operations of `CodexSdk.Client.State`, and the
machine they make together: any number of callers on clones of one client, and its inbound loop.

`andThen` is the `?` of the source.  The inbound loop is a program for one frame, `loopRound`,
which the machine restarts until it exits.
-/

set_option autoImplicit false

namespace CodexSdk

open Json Interleave

/-- A piece of client code. -/
abbrev ClientM := Prog Op Op.Ans

/-- One operation. -/
abbrev perform (o : Op) : ClientM o.Ans := Prog.perform o

/-- The `?` operator. -/
def andThen {α β : Type} (x : ClientM (Except ClientError α))
    (f : α → ClientM (Except ClientError β)) : ClientM (Except ClientError β) :=
  x >>= fun
    | .ok a => f a
    | .error e => return .error e

/-- What the code takes from its surroundings. -/
structure Env where
  defaultTimeout : Duration
  texts : Texts

/-- `ClientOptions::default`, with nothing to say about foreign errors. -/
def defaultEnv : Env := ⟨⟨30 * 10 ^ 9⟩, ⟨fun _ => "", fun _ => ""⟩⟩

/-! ## Frames -/

def requestFrame (id : RequestId) (method : String) (params : Value) : Value :=
  .object [("id", id.toJson), ("method", .string method), ("params", params)]

def notificationFrame (method : String) (params : Value) : Value :=
  .object [("method", .string method), ("params", params)]

def resultFrame (id : RequestId) (result : Value) : Value :=
  .object [("id", id.toJson), ("result", result)]

def errorFrame (id : RequestId) (error : Value) : Value :=
  .object [("error", error), ("id", id.toJson)]

/-- A result is read as what it was written as. -/
theorem classifyIncoming_result (id : RequestId) (result : Value) :
    classifyIncoming (resultFrame id result) = .ok (.response id (.ok result)) := by
  simp [classifyIncoming, resultFrame, Value.asObject, decodeWith, RequestId.decode_toJson,
    Except.mapError]
  rfl

/-! ## Sending -/

def sendMessage (value : Value) : ClientM (Except ClientError Unit) := do
  let sent ← perform (.outboundSend value)
  return if sent then .ok ()
    else .error (.transportSend "failed to send outbound frame: channel closed")

/-- The state has reached `READY`. -/
def notificationGate (method : String) (requiresReady : Bool) :
    ClientM (Except ClientError Unit) :=
  if requiresReady then do
    let state : Nat ← perform .handshakeLoad
    return if state < handshakeReady then .error (.notReady method) else .ok ()
  else return .ok ()

def sendNotification (method : String) (params : Value) (requiresReady : Bool) :
    ClientM (Except ClientError Unit) :=
  andThen (notificationGate method requiresReady) fun _ =>
    sendMessage (notificationFrame method params)

/-! ## Requests -/

/-- The two checks a request starts with; only one of them reads the state. -/
def requestGate (method : String) (requiresReady : Bool) : ClientM (Except ClientError Unit) := do
  let state : Nat ← perform .handshakeLoad
  return if requiresReady then
      if state < handshakeReady then .error (.notReady method) else .ok ()
    else if handshakeInitialized ≤ state then .error .alreadyInitialized else .ok ()

/-- Waits for the reply of a request that has been sent. -/
def awaitReply (method : String) (timeout : Duration) (id : RequestId) (rx : Nat) :
    ClientM Outcome := do
  match ← perform (.timeoutRecv rx timeout) with
  | .value (.ok value) => return .ok value
  | .value (.error error) => return .error (.rpc error)
  | .closed => return .error .transportClosed
  | .elapsed =>
    perform (.pendingRemove id)
    return .error (.timeout method timeout.asMillisU64)

/-- Registers, sends and awaits a request that passed the gate. -/
def roundTrip (method : String) (params : Value) (timeout : Duration) : ClientM Outcome := do
  let idNum ← perform .nextIdFetchAdd
  let id := RequestId.integer idNum
  let tx ← perform .oneshotChannel
  perform (.pendingInsert id tx)
  match ← sendMessage (requestFrame id method params) with
  | .error err =>
    perform (.pendingRemove id)
    return .error err
  | .ok _ => awaitReply method timeout id tx

def requestValueInternal (env : Env) (method : String) (params : Value)
    (timeout : Option Duration) (requiresReady : Bool) : ClientM Outcome :=
  andThen (requestGate method requiresReady) fun _ =>
    roundTrip method params (timeout.getD env.defaultTimeout)

/-- The result has to decode; it is passed on as it came. -/
def requestTypedInternal (env : Env) (method : String) (params : Value)
    (timeout : Option Duration) (requiresReady : Bool)
    (decode : Value → Except DecodeError Unit) : ClientM Outcome :=
  andThen (requestValueInternal env method params timeout requiresReady) fun raw =>
    return match decode raw with
      | .ok _ => .ok raw
      | .error source => .error (.unexpectedResult method source)

/-! ## Handshake -/

/-- The decoder of the result of `initialize`. -/
def decodesInitialize (raw : Value) : Except DecodeError Unit :=
  (fun _ => ()) <$> InitializeResult.decode raw

/-- `CodexClient::initialize`. -/
def explicitInitialize (env : Env) (params : Value) : ClientM Outcome :=
  andThen (requestTypedInternal env methodInitialize params none false decodesInitialize)
    fun result => do
      perform (.handshakeFetchMax handshakeInitialized)
      return .ok result

/-- `EmptyObject::default()`. -/
def emptyObject : Value := .object []

/-- `CodexClient::initialized`. -/
def explicitInitialized : ClientM Outcome := do
  let state : Nat ← perform .handshakeLoad
  if state < handshakeInitialized then
    return .error (.notInitialized methodInitialized)
  else
    andThen (sendNotification methodInitialized emptyObject false) fun _ => do
      perform (.handshakeFetchMax handshakeReady)
      return .ok .null

/-- The first half of the handshake, by the holder of the lock. -/
def ensureInitialized (env : Env) (params : Value) : ClientM (Except ClientError Unit) := do
  let state : Nat ← perform .handshakeLoad
  if state < handshakeInitialized then
    perform (.handshakeStore handshakeInitializing)
    match ← requestTypedInternal env methodInitialize params none false decodesInitialize with
    | .ok _ =>
      perform (.handshakeStore handshakeInitialized)
      return .ok ()
    | .error err =>
      perform (.handshakeStore handshakeNew)
      return .error err
  else return .ok ()

/-- The second half. -/
def announceReady : ClientM (Except ClientError Unit) :=
  andThen (sendNotification methodInitialized emptyObject false) fun _ => do
    perform (.handshakeStore handshakeReady)
    return .ok ()

/-- Both halves, after the second look at the state. -/
def handshake (env : Env) (params : Value) : ClientM (Except ClientError Unit) := do
  let state : Nat ← perform .handshakeLoad
  if state = handshakeReady then return .ok ()
  else andThen (ensureInitialized env params) fun _ => announceReady

/-- `ensure_ready` is this with the default params. -/
def ensureReadyWith (env : Env) (params : Value) : ClientM Outcome := do
  let state : Nat ← perform .handshakeLoad
  if state = handshakeReady then return .ok .null
  else
    perform .handshakeLock
    let result ← handshake env params
    -- the guard is dropped on every way out
    perform .handshakeUnlock
    return (fun _ => Value.null) <$> result

/-! ## The public calls -/

def unitOutcome (x : ClientM (Except ClientError Unit)) : ClientM Outcome :=
  andThen x fun _ => return .ok .null

def Call.body (env : Env) : Call → ClientM Outcome
  | .explicitInitialize params => CodexSdk.explicitInitialize env params
  | .explicitInitialized => CodexSdk.explicitInitialized
  | .ensureReady params => ensureReadyWith env params
  | .typed method params decode => requestTypedInternal env method params none true decode
  | .sendRawRequest method params timeout =>
    requestValueInternal env method params timeout (method != methodInitialize)
  | .sendRawNotification method params =>
    unitOutcome (sendNotification method params (method != methodInitialized))
  | .respondServerRequest id result => unitOutcome (sendMessage (resultFrame id result))
  | .respondServerRequestError id error => unitOutcome (sendMessage (errorFrame id error.toJson))
  | .setHandler kind handler => do
    perform (.handlerWrite kind (some handler))
    return .ok .null
  | .clearHandler kind => do
    perform (.handlerWrite kind none)
    return .ok .null

/-! ## Server requests -/

def Script.run (env : Env) : Script → ClientM Outcome
  | .done result => return result
  | .call c next => do
    let outcome ← c.body env
    (next outcome).run env

/-- What a handler's result is answered with. -/
def handlerPayload (env : Env) (id : RequestId) (context : String) : Outcome → Value
  | .ok result => resultFrame id result
  | .error err => errorFrame id (.object
      [("code", .number (.ofI64 rpcErrorCodeHandlerFailed)),
        ("message", .string s!"{context} handler failed: {err.display env.texts}")])

def sendServerRequestHandlerResult (env : Env) (id : RequestId) (response : Outcome)
    (context : String) : ClientM Unit := do
  let sent ← perform (.outboundSend (handlerPayload env id context response))
  if sent then return ()
  else
    perform (.eventSend .transportClosed)
    return ()

/-- Whether a handler was registered, and so has run. -/
def tryAutoHandleServerRequest (env : Env) : ServerRequestEvent → ClientM Bool
  | .request kind id params => do
    match ← perform (.handlerRead kind) with
    | none => return false
    | some handler =>
      let response ← (handler params).run env
      sendServerRequestHandlerResult env id response kind.context
      return true
  | .unknown _ _ _ => return false

/-! ## The inbound loop -/

def processIncomingValue (env : Env) (value : Value) : ClientM (Except ClientError Unit) :=
  match classifyIncoming value with
  | .error err => return .error err
  | .ok (.response id result) => do
    let _ ← perform (.pendingDispatch id result)
    return .ok ()
  | .ok (.notification method params _) => do
    perform (.eventSend (.notification (notificationEvent method params)))
    return .ok ()
  | .ok (.serverRequest id method params _) => do
    let parsed := serverRequestEvent id method params
    let handled ← tryAutoHandleServerRequest env parsed
    if handled then return .ok ()
    else
      perform (.eventSend (.serverRequest parsed))
      return .ok ()

/-- The error all pending requests are completed with when the connection fails. -/
def transportFailure (message : String) : RpcError :=
  ⟨rpcErrorCodeTransportFailure, message, none⟩

/-- Completes each of the entries with the same error. -/
def failEntries (error : RpcError) : List (RequestId × Nat) → ClientM Unit
  | [] => return ()
  | (_, tx) :: entries => do
    perform (.oneshotSend tx (.error error))
    failEntries error entries

def failAllPending (message : String) : ClientM Unit := do
  let entries ← perform .pendingTake
  failEntries (transportFailure message) entries

/-- What the loop does before it breaks. -/
def closeDown (message : String) : ClientM Unit := do
  failAllPending message
  perform (.eventSend .transportClosed)
  return ()

/-- What a task comes to: a caller to its outcome, a round of the loop to the next one or to the
end of the loop. -/
inductive Result
  | outcome (outcome : Outcome)
  | again
  | exited

/-- One round of the inbound loop. -/
def loopRound (env : Env) : ClientM Result := do
  match ← perform .inboundRecv with
  | none => return .exited
  | some (.ok value) =>
    match ← processIncomingValue env value with
    | .ok _ => return .again
    | .error err =>
      closeDown s!"processing inbound frame failed: {err.display env.texts}"
      return .exited
  | some (.error err) =>
    closeDown s!"transport error: {err.display env.texts}"
    return .exited

/-! ## The machine -/

/-- Any number of callers, and the inbound loop. -/
def client (env : Env) : Machine Tid Call Op Choice Inner Result Op.Ans where
  body call := call.body env >>= fun outcome => return .outcome outcome
  exec := exec
  restart
    | .inboundLoop, .again => some (loopRound env)
    | _, _ => none
  awaits := Op.awaits
  cancel := cancel

abbrev ClientWorld := World Tid Call Op Inner Op.Ans

abbrev ClientConfig := Config Tid Call Op Inner Result Op.Ans

abbrev ClientEvent := Event Tid Call Op Op.Ans

/-- A fresh client: no call has been made, and the inbound loop waits for its first frame. -/
def ClientConfig.start (env : Env) : ClientConfig where
  world := ⟨.start, []⟩
  tasks
    | .inboundLoop => .live (loopRound env)
    | .caller _ => .absent

end CodexSdk

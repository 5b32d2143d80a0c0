import CodexSdk.Json

/-!
# Errors, request ids, and the classification of an inbound frame

`protocol/shared.rs` and `error.rs`.  Every frame the transport delivers is a JSON value, and
`classifyIncoming` is the one place that decides what it is: a frame with an id and a method is a
request of the server, one with a method alone a notification, and one with an id alone the
response to a request of ours.

The texts of foreign error values (a decoder's error, the debug form of an RPC error) are not
computed here: `Texts` carries them.
-/

set_option autoImplicit false

namespace CodexSdk

open Json

/-! ## Request ids -/

/-- `RequestId`: untagged, so the JSON type of the id decides which of the two it is. -/
inductive RequestId
  | string (s : String)
  | integer (n : Int64)
  deriving DecidableEq

/-- The untagged decoder tries the variants in order. -/
def RequestId.decode : Decode RequestId
  | .string s => .ok (.string s)
  | v => match v.asI64 with
    | some n => .ok (.integer n)
    | none => .error .noVariant

def RequestId.toJson : RequestId → Value
  | .string s => .string s
  | .integer n => .number (.ofI64 n)

theorem RequestId.decode_toJson (id : RequestId) : RequestId.decode id.toJson = .ok id := by
  cases id with
  | string s => rfl
  | integer n => simp [RequestId.toJson, RequestId.decode, Value.asI64, Number.asI64_ofI64]

/-! ## Errors -/

/-- `RPC_ERROR_CODE_HANDLER_FAILED`: sent to the server when a registered handler fails. -/
def rpcErrorCodeHandlerFailed : Int64 := -32001

/-- `RPC_ERROR_CODE_TRANSPORT_FAILURE`: injected into all pending requests when the transport
fails or an inbound frame cannot be processed. -/
def rpcErrorCodeTransportFailure : Int64 := -32098

structure RpcError where
  code : Int64
  message : String
  data : Option Value

/-- The derived decoder takes the struct as an object or as an array of its fields. -/
def RpcError.decode : Decode RpcError
  | .object m => do
    let code ← Map.required m "code" Decode.i64
    let message ← Map.required m "message" Decode.string
    let data ← Map.optional m "data" Decode.value
    return ⟨code, message, data⟩
  | .array [code, message] => do
    return ⟨← Decode.i64 code, ← Decode.string message, none⟩
  | .array [code, message, data] => do
    return ⟨← Decode.i64 code, ← Decode.string message, ← Decode.option Decode.value data⟩
  | .array _ => .error .invalidLength
  | _ => .error (.invalidType "struct RpcError")

/-- `skip_serializing_if` leaves an absent `data` out. -/
def RpcError.toJson (e : RpcError) : Value :=
  .object <| [("code", .number (.ofI64 e.code))]
    ++ (match e.data with | some d => [("data", d)] | none => [])
    ++ [("message", .string e.message)]

/-- `ClientError`.  An I/O error is its text. -/
inductive ClientError
  | notInitialized (method : String)
  | notReady (method : String)
  | alreadyInitialized
  | timeout (method : String) (timeoutMs : Nat)
  | config (message : String)
  | startup (message : String) (logPath : Option String)
  | transportSend (message : String)
  | transportClosed
  | invalidMessage (message : String)
  | serialization (source : DecodeError)
  | io (source : String)
  | rpc (error : RpcError)
  | unexpectedResult (method : String) (source : DecodeError)

/-- The texts the error messages take from types of other crates. -/
structure Texts where
  /-- The display of a `serde_json::Error`. -/
  serde : DecodeError → String
  /-- The debug form of an `RpcError`, which nests that of a JSON value. -/
  rpcDebug : RpcError → String

/-- The `#[error(..)]` texts. -/
def ClientError.display (texts : Texts) : ClientError → String
  | .notInitialized method => s!"not initialized: call initialize() before invoking {method}"
  | .notReady method => s!"connection not ready: call initialized() before invoking {method}"
  | .alreadyInitialized => "connection is already initialized"
  | .timeout method timeoutMs => s!"request timed out after {timeoutMs}ms for method {method}"
  | .config message => s!"invalid configuration: {message}"
  | .startup message none => s!"app-server startup failed: {message}"
  | .startup message (some path) => s!"app-server startup failed: {message}; logs: {path}"
  | .transportSend message => s!"transport send failed: {message}"
  | .transportClosed => "transport closed"
  | .invalidMessage message => s!"invalid message from server: {message}"
  | .serialization source => "serialization error: " ++ texts.serde source
  | .io source => s!"io error: {source}"
  | .rpc error => "rpc error " ++ texts.rpcDebug error
  | .unexpectedResult method source =>
    s!"unexpected result shape for method {method}: " ++ texts.serde source

/-! ## Inbound frames -/

inductive IncomingClassified
  | response (id : RequestId) (result : Except RpcError Value)
  | notification (method : String) (params raw : Value)
  | serverRequest (id : RequestId) (method : String) (params raw : Value)

/-- A decoder's error as the client reports it. -/
def decodeWith {α : Type} (d : Decode α) (v : Value) : Except ClientError α :=
  (d v).mapError .serialization

@[simp] theorem decodeWith_eq_ok {α : Type} {d : Decode α} {v : Value} {a : α} :
    decodeWith d v = .ok a ↔ d v = .ok a := by
  cases h : d v <;> simp [decodeWith, h, Except.mapError]

/-- The `(Some(id), None)` arm: `result` wins over `error`. -/
def classifyResponse (obj : Map) (id : RequestId) : Except ClientError IncomingClassified :=
  match obj.get "result", obj.get "error" with
  | some result, _ => .ok (.response id (.ok result))
  | none, some error => do
    let parsed ← decodeWith RpcError.decode error
    return .response id (.error parsed)
  | none, none => .error (.invalidMessage "response missing both result and error")

def classifyIncoming (value : Value) : Except ClientError IncomingClassified := do
  let obj ← match value.asObject with
    | some obj => pure obj
    | none => throw (.invalidMessage "expected JSON object")
  let id ← match obj.get "id" with
    | some v => some <$> decodeWith RequestId.decode v
    | none => pure none
  let method := (obj.get "method").bind Value.asStr
  let params := (obj.get "params").getD .null
  match id, method with
  | some id, some method => return .serverRequest id method params value
  | none, some method => return .notification method params value
  | some id, none => classifyResponse obj id
  | none, none => throw (.invalidMessage "message missing method and id")

/-- A frame without an id that names a method is a notification. -/
theorem classifyIncoming_notification {obj : Map} {method : String} (hid : obj.get "id" = none)
    (hm : obj.get "method" = some (.string method)) :
    classifyIncoming (.object obj)
      = .ok (.notification method ((obj.get "params").getD .null) (.object obj)) := by
  simp [classifyIncoming, hid, hm]
  rfl

end CodexSdk

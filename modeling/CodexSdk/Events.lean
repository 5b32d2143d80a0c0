import CodexSdk.Protocol

/-!
# Server events

`events/mod.rs`: the two tables that turn a method and its params into a typed event, and the
event a frame becomes once it has been classified.  A notification whose payload does not decode is
not an error: it is published as `ServerNotification.unknown`, with its params untouched
(`notificationEvent`), and so is a server request (`serverRequestEvent`).
-/

set_option autoImplicit false

namespace CodexSdk

open Json

/-! ## Notifications -/

/-- `ServerNotification`, one constructor for each row of `notification_table!`. -/
inductive ServerNotification
  | error (payload : ErrorNotification)
  | threadStarted (payload : ThreadStartedNotification)
  | threadArchived (payload : ThreadLifecycleNotification)
  | threadUnarchived (payload : ThreadLifecycleNotification)
  | threadClosed (payload : ThreadLifecycleNotification)
  | threadNameUpdated (payload : ThreadNameUpdatedNotification)
  | threadStatusChanged (payload : ThreadStatusChangedNotification)
  | threadTokenUsageUpdated (payload : ThreadTokenUsageUpdatedNotification)
  | turnStarted (payload : TurnNotification)
  | turnCompleted (payload : TurnNotification)
  | turnDiffUpdated (payload : TurnDiffUpdatedNotification)
  | turnPlanUpdated (payload : TurnPlanUpdatedNotification)
  | itemStarted (payload : ItemLifecycleNotification)
  | itemCompleted (payload : ItemLifecycleNotification)
  | rawResponseItemCompleted (payload : OpaquePayload)
  | itemAgentMessageDelta (payload : DeltaNotification)
  | itemPlanDelta (payload : DeltaNotification)
  | itemCommandExecutionOutputDelta (payload : DeltaNotification)
  | itemCommandExecutionTerminalInteraction (payload : DeltaNotification)
  | itemFileChangeOutputDelta (payload : DeltaNotification)
  | itemMcpToolCallProgress (payload : DeltaNotification)
  | itemReasoningSummaryTextDelta (payload : DeltaNotification)
  | itemReasoningSummaryPartAdded (payload : DeltaNotification)
  | itemReasoningTextDelta (payload : DeltaNotification)
  | mcpServerOauthLoginCompleted (payload : OpaquePayload)
  | accountUpdated (payload : OpaquePayload)
  | accountRateLimitsUpdated (payload : OpaquePayload)
  | appListUpdated (payload : OpaquePayload)
  | contextCompacted (payload : DeltaNotification)
  | deprecationNotice (payload : OpaquePayload)
  | configWarning (payload : OpaquePayload)
  | windowsWorldWritableWarning (payload : OpaquePayload)
  | windowsSandboxSetupCompleted (payload : OpaquePayload)
  | accountLoginCompleted (payload : OpaquePayload)
  | authStatusChange (payload : OpaquePayload)
  | loginChatGptComplete (payload : OpaquePayload)
  | sessionConfigured (payload : OpaquePayload)
  | fuzzyFileSearchSessionUpdated (payload : OpaquePayload)
  | fuzzyFileSearchSessionCompleted (payload : OpaquePayload)
  | serverRequestResolved (payload : ServerRequestResolvedNotification)
  | unknown (method : String) (params : Value)

/-- One row of the table. -/
private def row {α : Type} (d : Decode α) (variant : α → ServerNotification) (params : Value) :
    Except ClientError ServerNotification :=
  variant <$> decodeWith d params

private theorem row_eq_ok {α : Type} {d : Decode α} {variant : α → ServerNotification}
    {params : Value} {n : ServerNotification} :
    row d variant params = .ok n ↔ ∃ payload, d params = .ok payload ∧ variant payload = n := by
  simp [row, map_eq_ok]

def parseNotification (method : String) (params : Value) :
    Except ClientError ServerNotification :=
  match method with
  | "error" => row ErrorNotification.decode .error params
  | "thread/started" => row ThreadStartedNotification.decode .threadStarted params
  | "thread/archived" => row ThreadLifecycleNotification.decode .threadArchived params
  | "thread/unarchived" => row ThreadLifecycleNotification.decode .threadUnarchived params
  | "thread/closed" => row ThreadLifecycleNotification.decode .threadClosed params
  | "thread/name/updated" => row ThreadNameUpdatedNotification.decode .threadNameUpdated params
  | "thread/status/changed" =>
    row ThreadStatusChangedNotification.decode .threadStatusChanged params
  | "thread/tokenUsage/updated" =>
    row ThreadTokenUsageUpdatedNotification.decode .threadTokenUsageUpdated params
  | "turn/started" => row TurnNotification.decode .turnStarted params
  | "turn/completed" => row TurnNotification.decode .turnCompleted params
  | "turn/diff/updated" => row TurnDiffUpdatedNotification.decode .turnDiffUpdated params
  | "turn/plan/updated" => row TurnPlanUpdatedNotification.decode .turnPlanUpdated params
  | "item/started" => row ItemLifecycleNotification.decode .itemStarted params
  | "item/completed" => row ItemLifecycleNotification.decode .itemCompleted params
  | "rawResponseItem/completed" => row OpaquePayload.decode .rawResponseItemCompleted params
  | "item/agentMessage/delta" => row DeltaNotification.decode .itemAgentMessageDelta params
  | "item/plan/delta" => row DeltaNotification.decode .itemPlanDelta params
  | "item/commandExecution/outputDelta" =>
    row DeltaNotification.decode .itemCommandExecutionOutputDelta params
  | "item/commandExecution/terminalInteraction" =>
    row DeltaNotification.decode .itemCommandExecutionTerminalInteraction params
  | "item/fileChange/outputDelta" =>
    row DeltaNotification.decode .itemFileChangeOutputDelta params
  | "item/mcpToolCall/progress" => row DeltaNotification.decode .itemMcpToolCallProgress params
  | "item/reasoning/summaryTextDelta" =>
    row DeltaNotification.decode .itemReasoningSummaryTextDelta params
  | "item/reasoning/summaryPartAdded" =>
    row DeltaNotification.decode .itemReasoningSummaryPartAdded params
  | "item/reasoning/textDelta" => row DeltaNotification.decode .itemReasoningTextDelta params
  | "mcpServer/oauthLogin/completed" =>
    row OpaquePayload.decode .mcpServerOauthLoginCompleted params
  | "account/updated" => row OpaquePayload.decode .accountUpdated params
  | "account/rateLimits/updated" => row OpaquePayload.decode .accountRateLimitsUpdated params
  | "app/list/updated" => row OpaquePayload.decode .appListUpdated params
  | "thread/compacted" => row DeltaNotification.decode .contextCompacted params
  | "deprecationNotice" => row OpaquePayload.decode .deprecationNotice params
  | "configWarning" => row OpaquePayload.decode .configWarning params
  | "windows/worldWritableWarning" =>
    row OpaquePayload.decode .windowsWorldWritableWarning params
  | "windowsSandbox/setupCompleted" =>
    row OpaquePayload.decode .windowsSandboxSetupCompleted params
  | "account/login/completed" => row OpaquePayload.decode .accountLoginCompleted params
  | "authStatusChange" => row OpaquePayload.decode .authStatusChange params
  | "loginChatGptComplete" => row OpaquePayload.decode .loginChatGptComplete params
  | "sessionConfigured" => row OpaquePayload.decode .sessionConfigured params
  | "fuzzyFileSearch/sessionUpdated" =>
    row OpaquePayload.decode .fuzzyFileSearchSessionUpdated params
  | "fuzzyFileSearch/sessionCompleted" =>
    row OpaquePayload.decode .fuzzyFileSearchSessionCompleted params
  | "serverRequest/resolved" =>
    row ServerRequestResolvedNotification.decode .serverRequestResolved params
  | _ => .ok (.unknown method params)

/-- Wherever a typed notification comes from, its payload is what the row's decoder makes of the
params. -/
theorem parseNotification_decode {method : String} {params : Value} {n : ServerNotification}
    (h : parseNotification method params = .ok n) : match n with
      | .itemStarted payload | .itemCompleted payload =>
        ItemLifecycleNotification.decode params = .ok payload
      | .itemAgentMessageDelta payload | .itemPlanDelta payload
      | .itemReasoningSummaryTextDelta payload | .itemReasoningTextDelta payload =>
        DeltaNotification.decode params = .ok payload
      | .turnCompleted payload =>
        method = "turn/completed" ∧ TurnNotification.decode params = .ok payload
      | .threadTokenUsageUpdated payload =>
        ThreadTokenUsageUpdatedNotification.decode params = .ok payload
      | .error payload => ErrorNotification.decode params = .ok payload
      | _ => True := by
  unfold parseNotification at h
  split at h
  all_goals first
    | (obtain ⟨payload, hd, rfl⟩ := row_eq_ok.1 h; simp [hd])
    | (cases h; trivial)

/-- What `process_incoming_value` publishes for a notification: its parse, or the notification
itself when the payload does not decode. -/
def notificationEvent (method : String) (params : Value) : ServerNotification :=
  match parseNotification method params with
  | .ok parsed => parsed
  | .error _ => .unknown method params

theorem notificationEvent_turnCompleted (params : Value) :
    notificationEvent "turn/completed" params = match TurnNotification.decode params with
      | .ok payload => .turnCompleted payload
      | .error _ => .unknown "turn/completed" params := by
  have hrow : parseNotification "turn/completed" params
      = row TurnNotification.decode .turnCompleted params := rfl
  cases h : TurnNotification.decode params <;>
    simp [notificationEvent, hrow, row, decodeWith, h, Functor.map, Except.map, Except.mapError]

/-! ## Server requests -/

/-- The rows of `server_request_table!`. -/
inductive ServerRequestKind
  | chatgptAuthTokensRefresh
  | applyPatchApproval
  | execCommandApproval
  | commandExecutionRequestApproval
  | fileChangeRequestApproval
  | toolRequestUserInput
  | dynamicToolCall
  deriving DecidableEq

namespace ServerRequestKind

/-- The wire method of a row. -/
def method : ServerRequestKind → String
  | chatgptAuthTokensRefresh => "account/chatgptAuthTokens/refresh"
  | applyPatchApproval => "applyPatchApproval"
  | execCommandApproval => "execCommandApproval"
  | commandExecutionRequestApproval => "item/commandExecution/requestApproval"
  | fileChangeRequestApproval => "item/fileChange/requestApproval"
  | toolRequestUserInput => "item/tool/requestUserInput"
  | dynamicToolCall => "item/tool/call"

/-- The context a row's handler errors are reported with. -/
def context : ServerRequestKind → String
  | chatgptAuthTokensRefresh => "chatgptAuthTokens refresh"
  | applyPatchApproval => "applyPatchApproval"
  | execCommandApproval => "execCommandApproval"
  | commandExecutionRequestApproval => "item/commandExecution/requestApproval"
  | fileChangeRequestApproval => "item/fileChange/requestApproval"
  | toolRequestUserInput => "item/tool/requestUserInput"
  | dynamicToolCall => "item/tool/call"

/-- The row a method belongs to. -/
def ofMethod : String → Option ServerRequestKind
  | "account/chatgptAuthTokens/refresh" => some chatgptAuthTokensRefresh
  | "applyPatchApproval" => some applyPatchApproval
  | "execCommandApproval" => some execCommandApproval
  | "item/commandExecution/requestApproval" => some commandExecutionRequestApproval
  | "item/fileChange/requestApproval" => some fileChangeRequestApproval
  | "item/tool/requestUserInput" => some toolRequestUserInput
  | "item/tool/call" => some dynamicToolCall
  | _ => none

/-- The params of a row.  A handler sees the object the params decode from: six of the seven are
opaque, and `ChatgptAuthTokensRefreshParams` only names two of its members. -/
def decodeParams : ServerRequestKind → Decode Map
  | chatgptAuthTokensRefresh => fun v => do
    let m ← Decode.object v
    let _ ← Map.required m "reason" Decode.string
    let _ ← Map.optional m "previousAccountId" Decode.string
    return m
  | _ => Decode.object

end ServerRequestKind

/-- `ServerRequestEvent`: a row of the table, or a request no row decodes. -/
inductive ServerRequestEvent
  | request (kind : ServerRequestKind) (id : RequestId) (params : Map)
  | unknown (id : RequestId) (method : String) (params : Value)

def parseServerRequest (id : RequestId) (method : String) (params : Value) :
    Except ClientError ServerRequestEvent :=
  match ServerRequestKind.ofMethod method with
  | some kind => do
    let params ← decodeWith kind.decodeParams params
    return .request kind id params
  | none => .ok (.unknown id method params)

/-- What `process_incoming_value` makes of a server request, whether or not it decodes. -/
def serverRequestEvent (id : RequestId) (method : String) (params : Value) : ServerRequestEvent :=
  match parseServerRequest id method params with
  | .ok parsed => parsed
  | .error _ => .unknown id method params

/-! ## Events -/

inductive ServerEvent
  | notification (notification : ServerNotification)
  | serverRequest (request : ServerRequestEvent)
  | transportClosed

end CodexSdk

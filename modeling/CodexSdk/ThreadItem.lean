import CodexSdk.Json

/-!
# Thread items

`ThreadItem` and `parse_thread_item` of `api.rs`.  The parser is total and forgiving: a member that
is absent or of the wrong type reads as the empty value of its field, and an item of no known type
is kept whole as `ThreadItem.unknown`.
-/

set_option autoImplicit false

namespace CodexSdk

open Json

/-! ## The items -/

inductive AgentMessagePhase
  | commentary
  | finalAnswer
  | unknown
  deriving DecidableEq

structure AgentMessageItem where
  id : String
  text : String
  phase : Option AgentMessagePhase

inductive UserMessageContentItem
  | text (text : String)
  | image (url : String)
  | localImage (path : String)
  | unknown (value : Value)

structure UserMessageItem where
  id : String
  content : List UserMessageContentItem

structure PlanItem where
  id : String
  text : String

structure ReasoningItem where
  id : String
  text : String

inductive CommandExecutionStatus
  | inProgress
  | completed
  | failed
  | declined
  | unknown
  deriving DecidableEq

structure CommandExecutionItem where
  id : String
  command : String
  aggregatedOutput : String
  exitCode : Option Int32
  status : CommandExecutionStatus

inductive PatchChangeKind
  | add
  | delete
  | update
  | unknown
  deriving DecidableEq

structure FileUpdateChange where
  path : String
  kind : PatchChangeKind

inductive PatchApplyStatus
  | inProgress
  | completed
  | failed
  | declined
  | unknown
  deriving DecidableEq

structure FileChangeItem where
  id : String
  changes : List FileUpdateChange
  status : PatchApplyStatus

inductive McpToolCallStatus
  | inProgress
  | completed
  | failed
  | unknown
  deriving DecidableEq

structure ThreadError where
  message : String

structure McpToolCallItem where
  id : String
  server : String
  tool : String
  arguments : Value
  result : Option Value
  error : Option ThreadError
  status : McpToolCallStatus

structure DynamicToolCallItem where
  id : String
  tool : String
  arguments : Value
  status : String
  contentItems : List Value
  success : Option Bool
  durationMs : Option UInt64

structure CollabToolCallItem where
  id : String
  tool : String
  status : String
  senderThreadId : String
  receiverThreadId : Option String
  newThreadId : Option String
  prompt : Option String
  agentStatus : Option String

structure WebSearchItem where
  id : String
  query : String

structure ImageViewItem where
  id : String
  path : String

structure ReviewModeItem where
  id : String
  review : String

structure ContextCompactionItem where
  id : String

structure TodoItem where
  text : String
  completed : Bool

structure TodoListItem where
  id : String
  items : List TodoItem

structure ErrorItem where
  id : String
  message : String

structure UnknownItem where
  id : Option String
  itemType : Option String
  raw : Value

inductive ThreadItem
  | agentMessage (item : AgentMessageItem)
  | userMessage (item : UserMessageItem)
  | plan (item : PlanItem)
  | reasoning (item : ReasoningItem)
  | commandExecution (item : CommandExecutionItem)
  | fileChange (item : FileChangeItem)
  | mcpToolCall (item : McpToolCallItem)
  | dynamicToolCall (item : DynamicToolCallItem)
  | collabToolCall (item : CollabToolCallItem)
  | webSearch (item : WebSearchItem)
  | imageView (item : ImageViewItem)
  | enteredReviewMode (item : ReviewModeItem)
  | exitedReviewMode (item : ReviewModeItem)
  | contextCompaction (item : ContextCompactionItem)
  | todoList (item : TodoListItem)
  | error (item : ErrorItem)
  | unknown (item : UnknownItem)

/-! ## Reading members -/

/-- `object.get(key).and_then(Value::as_str).map(str::to_string)`. -/
def optStr (object : Map) (key : String) : Option String := (object.get key).bind Value.asStr

/-- `object.get(key).and_then(Value::as_str).unwrap_or_default()`. -/
def strOrDefault (object : Map) (key : String) : String := (optStr object key).getD ""

/-- `object.get(key).and_then(Value::as_array)`. -/
def optArray (object : Map) (key : String) : Option (List Value) :=
  (object.get key).bind Value.asArray

/-! ## The parsers of the parts -/

def parseAgentMessagePhase : String → AgentMessagePhase
  | "commentary" => .commentary
  | "final_answer" => .finalAnswer
  | _ => .unknown

def parseUserMessageContentItem (value : Value) : UserMessageContentItem :=
  match value.asObject with
  | none => .unknown value
  | some object => match optStr object "type" with
    | some "text" => .text (strOrDefault object "text")
    | some "image" => .image (strOrDefault object "url")
    | some "localImage" => .localImage (strOrDefault object "path")
    | _ => .unknown value

/-- The string entries of an array member, joined by newlines. -/
def joinedLines (object : Map) (key : String) : String :=
  match optArray object key with
  | some entries => "\n".intercalate (entries.filterMap Value.asStr)
  | none => ""

def parseReasoningText (object : Map) : String :=
  match optStr object "text" with
  | some text => text
  | none =>
    let summary := joinedLines object "summary"
    let content := joinedLines object "content"
    if summary.isEmpty then content
    else if content.isEmpty then summary
    else summary ++ "\n" ++ content

def parseCommandExecutionStatus : String → CommandExecutionStatus
  | "inProgress" | "in_progress" => .inProgress
  | "completed" => .completed
  | "failed" => .failed
  | "declined" => .declined
  | _ => .unknown

def parsePatchChangeKind : String → PatchChangeKind
  | "add" => .add
  | "delete" => .delete
  | "update" => .update
  | _ => .unknown

def parsePatchApplyStatus : String → PatchApplyStatus
  | "inProgress" | "in_progress" => .inProgress
  | "completed" => .completed
  | "failed" => .failed
  | "declined" => .declined
  | _ => .unknown

def parseMcpToolCallStatus : String → McpToolCallStatus
  | "inProgress" | "in_progress" => .inProgress
  | "completed" => .completed
  | "failed" => .failed
  | _ => .unknown

/-- The kind of a change is a string, or an object with a `type`. -/
def parseFileUpdateChange (change : Value) : Option FileUpdateChange := do
  let object ← change.asObject
  let kind := match object.get "kind" with
    | some (.string kind) => parsePatchChangeKind kind
    | some (.object kindObject) => match optStr kindObject "type" with
      | some kind => parsePatchChangeKind kind
      | none => .unknown
    | _ => .unknown
  return ⟨strOrDefault object "path", kind⟩

def parseTodoItem (value : Value) : Option TodoItem := do
  let object ← value.asObject
  return ⟨strOrDefault object "text", ((object.get "completed").bind Value.asBool).getD false⟩

/-! ## The parser -/

/-- The item of a known type; `none` is the fallback arm. -/
def parseKnownItem (object : Map) (id : String) : String → Option ThreadItem
  | "agentMessage" => some <| .agentMessage
      ⟨id, strOrDefault object "text", (optStr object "phase").map parseAgentMessagePhase⟩
  | "userMessage" => some <| .userMessage
      ⟨id, ((optArray object "content").getD []).map parseUserMessageContentItem⟩
  | "plan" => some <| .plan ⟨id, strOrDefault object "text"⟩
  | "reasoning" => some <| .reasoning ⟨id, parseReasoningText object⟩
  | "commandExecution" => some <| .commandExecution
      ⟨id, strOrDefault object "command", strOrDefault object "aggregatedOutput",
        ((object.get "exitCode").bind Value.asI64).map Int64.toInt32,
        parseCommandExecutionStatus (strOrDefault object "status")⟩
  | "fileChange" => some <| .fileChange
      ⟨id, ((optArray object "changes").getD []).filterMap parseFileUpdateChange,
        parsePatchApplyStatus (strOrDefault object "status")⟩
  | "mcpToolCall" => some <| .mcpToolCall
      ⟨id, strOrDefault object "server", strOrDefault object "tool",
        (object.get "arguments").getD .null, object.get "result",
        (((object.get "error").bind Value.asObject).bind (optStr · "message")).map ThreadError.mk,
        parseMcpToolCallStatus (strOrDefault object "status")⟩
  | "dynamicToolCall" => some <| .dynamicToolCall
      ⟨id, strOrDefault object "tool", (object.get "arguments").getD .null,
        strOrDefault object "status", (optArray object "contentItems").getD [],
        (object.get "success").bind Value.asBool, (object.get "durationMs").bind Value.asU64⟩
  | "collabToolCall" => some <| .collabToolCall
      ⟨id, strOrDefault object "tool", strOrDefault object "status",
        strOrDefault object "senderThreadId", optStr object "receiverThreadId",
        optStr object "newThreadId", optStr object "prompt", optStr object "agentStatus"⟩
  | "webSearch" => some <| .webSearch ⟨id, strOrDefault object "query"⟩
  | "imageView" => some <| .imageView ⟨id, strOrDefault object "path"⟩
  | "enteredReviewMode" => some <| .enteredReviewMode ⟨id, strOrDefault object "review"⟩
  | "exitedReviewMode" => some <| .exitedReviewMode ⟨id, strOrDefault object "review"⟩
  | "contextCompaction" => some <| .contextCompaction ⟨id⟩
  | "todoList" => some <| .todoList
      ⟨id, ((optArray object "items").getD []).filterMap parseTodoItem⟩
  | "error" => some <| .error ⟨id, strOrDefault object "message"⟩
  | _ => none

def parseThreadItem (item : Value) : ThreadItem :=
  match item.asObject with
  | none => .unknown ⟨none, none, item⟩
  | some object =>
    let itemType := optStr object "type"
    let id := optStr object "id"
    match itemType.bind (parseKnownItem object (id.getD "")) with
    | some parsed => parsed
    | none => .unknown ⟨id, itemType, item⟩

end CodexSdk

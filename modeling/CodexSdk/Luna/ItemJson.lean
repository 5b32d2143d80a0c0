import CodexSdk.Turn.Pump

/-!
# Thread items in the JSON output

`thread_item_to_json` of `output/json.rs`: how `luna --json` writes an item.  It is written by hand,
apart from `parse_thread_item`, which reads items of the server; `parse_threadItemToJson` says what
the parser makes of an item that it has read itself and that has then been written.

Two kinds of item are not written the way they are read.  An item of no known type is wrapped, and
the error of a tool call is written as its text alone, where the parser asks for an object; and a
tool call without a result is written with a `null` one, which the parser takes for a result.
-/

set_option autoImplicit false

namespace CodexSdk

open Json

/-! ## Spellings -/

def AgentMessagePhase.asStr : AgentMessagePhase → String
  | commentary => "commentary"
  | finalAnswer => "final_answer"
  | unknown => "unknown"

def CommandExecutionStatus.asStr : CommandExecutionStatus → String
  | inProgress => "inProgress"
  | completed => "completed"
  | failed => "failed"
  | declined => "declined"
  | unknown => "unknown"

def PatchChangeKind.asStr : PatchChangeKind → String
  | add => "add"
  | delete => "delete"
  | update => "update"
  | unknown => "unknown"

def PatchApplyStatus.asStr : PatchApplyStatus → String
  | inProgress => "inProgress"
  | completed => "completed"
  | failed => "failed"
  | declined => "declined"
  | unknown => "unknown"

def McpToolCallStatus.asStr : McpToolCallStatus → String
  | inProgress => "inProgress"
  | completed => "completed"
  | failed => "failed"
  | unknown => "unknown"

theorem parseAgentMessagePhase_asStr (phase : AgentMessagePhase) :
    parseAgentMessagePhase phase.asStr = phase := by
  cases phase <;> rfl

theorem parseCommandExecutionStatus_asStr (status : CommandExecutionStatus) :
    parseCommandExecutionStatus status.asStr = status := by
  cases status <;> rfl

theorem parsePatchChangeKind_asStr (kind : PatchChangeKind) :
    parsePatchChangeKind kind.asStr = kind := by
  cases kind <;> rfl

theorem parsePatchApplyStatus_asStr (status : PatchApplyStatus) :
    parsePatchApplyStatus status.asStr = status := by
  cases status <;> rfl

theorem parseMcpToolCallStatus_asStr (status : McpToolCallStatus) :
    parseMcpToolCallStatus status.asStr = status := by
  cases status <;> rfl

end CodexSdk

namespace CodexSdk.Luna

open Json

/-! ## Writing -/

/-- A `json!` member that may be absent: it is written all the same, as `null`. -/
def orNull {α : Type} (write : α → Value) (a : Option α) : Value := (a.map write).getD .null

def userMessageContentItemToJson : UserMessageContentItem → Value
  | .text text => .object [("type", .string "text"), ("text", .string text)]
  | .image url => .object [("type", .string "image"), ("url", .string url)]
  | .localImage path => .object [("type", .string "localImage"), ("path", .string path)]
  | .unknown raw => raw

def fileUpdateChangeToJson (change : FileUpdateChange) : Value :=
  .object [("path", .string change.path), ("kind", .string change.kind.asStr)]

def todoItemToJson (item : TodoItem) : Value :=
  .object [("text", .string item.text), ("completed", .bool item.completed)]

def threadItemToJson : ThreadItem → Value
  | .agentMessage msg => .object <|
    [("type", .string "agentMessage"), ("id", .string msg.id), ("text", .string msg.text)] ++
      (msg.phase.map fun phase => ("phase", .string phase.asStr)).toList
  | .userMessage msg => .object
    [("type", .string "userMessage"), ("id", .string msg.id),
      ("content", .array (msg.content.map userMessageContentItemToJson))]
  | .plan plan => .object
    [("type", .string "plan"), ("id", .string plan.id), ("text", .string plan.text)]
  | .reasoning reasoning => .object
    [("type", .string "reasoning"), ("id", .string reasoning.id), ("text", .string reasoning.text)]
  | .commandExecution command => .object
    [("type", .string "commandExecution"), ("id", .string command.id),
      ("command", .string command.command), ("aggregatedOutput", .string command.aggregatedOutput),
      ("exitCode", orNull (fun code => .number (.ofI64 code.toInt64)) command.exitCode),
      ("status", .string command.status.asStr)]
  | .fileChange fileChange => .object
    [("type", .string "fileChange"), ("id", .string fileChange.id),
      ("changes", .array (fileChange.changes.map fileUpdateChangeToJson)),
      ("status", .string fileChange.status.asStr)]
  | .mcpToolCall tool => .object
    [("type", .string "mcpToolCall"), ("id", .string tool.id), ("server", .string tool.server),
      ("tool", .string tool.tool), ("arguments", tool.arguments),
      ("result", tool.result.getD .null),
      ("error", orNull (fun error => .string error.message) tool.error),
      ("status", .string tool.status.asStr)]
  | .dynamicToolCall tool => .object
    [("type", .string "dynamicToolCall"), ("id", .string tool.id), ("tool", .string tool.tool),
      ("arguments", tool.arguments), ("status", .string tool.status),
      ("contentItems", .array tool.contentItems), ("success", orNull .bool tool.success),
      ("durationMs", orNull (fun ms => .number (.posInt ms)) tool.durationMs)]
  | .collabToolCall tool => .object
    [("type", .string "collabToolCall"), ("id", .string tool.id), ("tool", .string tool.tool),
      ("status", .string tool.status), ("senderThreadId", .string tool.senderThreadId),
      ("receiverThreadId", orNull .string tool.receiverThreadId),
      ("newThreadId", orNull .string tool.newThreadId), ("prompt", orNull .string tool.prompt),
      ("agentStatus", orNull .string tool.agentStatus)]
  | .webSearch search => .object
    [("type", .string "webSearch"), ("id", .string search.id), ("query", .string search.query)]
  | .imageView image => .object
    [("type", .string "imageView"), ("id", .string image.id), ("path", .string image.path)]
  | .enteredReviewMode review => .object
    [("type", .string "enteredReviewMode"), ("id", .string review.id),
      ("review", .string review.review)]
  | .exitedReviewMode review => .object
    [("type", .string "exitedReviewMode"), ("id", .string review.id),
      ("review", .string review.review)]
  | .contextCompaction item => .object
    [("type", .string "contextCompaction"), ("id", .string item.id)]
  | .todoList todo => .object
    [("type", .string "todoList"), ("id", .string todo.id),
      ("items", .array (todo.items.map todoItemToJson))]
  | .error error => .object
    [("type", .string "error"), ("id", .string error.id), ("message", .string error.message)]
  | .unknown unknown => .object
    [("type", .string "unknown"), ("id", orNull .string unknown.id),
      ("itemType", orNull .string unknown.itemType), ("raw", unknown.raw)]

def threadEventToJson : ThreadEvent → Value
  | .threadStarted threadId => .object
    [("type", .string "thread.started"), ("threadId", .string threadId)]
  | .turnStarted => .object [("type", .string "turn.started")]
  | .turnCompleted usage => .object <| [("type", .string "turn.completed")] ++
    (usage.map fun usage => ("usage", .object
      [("inputTokens", .number (.ofI64 usage.inputTokens)),
        ("cachedInputTokens", .number (.ofI64 usage.cachedInputTokens)),
        ("outputTokens", .number (.ofI64 usage.outputTokens))])).toList
  | .turnFailed error => .object
    [("type", .string "turn.failed"), ("error", .object [("message", .string error.message)])]
  | .itemStarted item => .object
    [("type", .string "item.started"), ("item", threadItemToJson item)]
  | .itemUpdated item => .object
    [("type", .string "item.updated"), ("item", threadItemToJson item)]
  | .itemCompleted item => .object
    [("type", .string "item.completed"), ("item", threadItemToJson item)]
  | .error message => .object [("type", .string "error"), ("message", .string message)]

/-! ## Reading the parts back -/

theorem asStr_orNull (text : Option String) : (orNull .string text).asStr = text := by
  cases text <;> rfl

theorem asBool_orNull (b : Option Bool) : (orNull .bool b).asBool = b := by
  cases b <;> rfl

theorem asU64_orNull (n : Option UInt64) :
    (orNull (fun n => .number (.posInt n)) n).asU64 = n := by
  cases n <;> rfl

theorem asI64_orNull (code : Option Int32) :
    (orNull (fun code => .number (.ofI64 code.toInt64)) code).asI64.map Int64.toInt32 = code := by
  cases code with
  | none => rfl
  | some code =>
    show ((Number.ofI64 code.toInt64).asI64).map Int64.toInt32 = some code
    rw [Number.asI64_ofI64, Option.map_some, Int32.toInt32_toInt64]

/-- A content item that has been read is read the same again, also when it is of no known type: it
is then still the payload it was. -/
theorem parse_userMessageContentItemToJson (value : Value) :
    parseUserMessageContentItem
        (userMessageContentItemToJson (parseUserMessageContentItem value)) =
      parseUserMessageContentItem value := by
  generalize hitem : parseUserMessageContentItem value = item
  cases item with
  | text text => rfl
  | image url => rfl
  | localImage path => rfl
  | unknown raw =>
    have hraw : raw = value := by
      rw [parseUserMessageContentItem] at hitem
      split at hitem
      · cases hitem; rfl
      · split at hitem <;> cases hitem
        rfl
    rw [userMessageContentItemToJson, hraw, hitem, hraw]

theorem parse_fileUpdateChangeToJson (change : FileUpdateChange) :
    parseFileUpdateChange (fileUpdateChangeToJson change) = some change := by
  show some (FileUpdateChange.mk change.path (parsePatchChangeKind change.kind.asStr)) = some change
  rw [parsePatchChangeKind_asStr]

theorem parse_todoItemToJson (item : TodoItem) : parseTodoItem (todoItemToJson item) = some item :=
  rfl

/-- Entries that are read back one by one are read back as a list. -/
theorem filterMap_map {α : Type} {read : Value → Option α} {write : α → Value}
    (h : ∀ a, read (write a) = some a) (as : List α) : (as.map write).filterMap read = as := by
  rw [List.filterMap_map]
  exact (List.filterMap_congr fun a _ => h a).trans List.filterMap_some

/-! ## Reading an item back -/

/-- An item as the parser makes them: what is unknown to it in a user message is a payload that it
does not know. -/
def IsRead : ThreadItem → Prop
  | .userMessage msg => ∀ entry ∈ msg.content, ∃ value, entry = parseUserMessageContentItem value
  | _ => True

theorem isRead_parseThreadItem (raw : Value) : IsRead (parseThreadItem raw) := by
  rw [parseThreadItem]
  split
  · trivial
  · rename_i object _
    dsimp only
    split
    · rename_i parsed hparsed
      obtain ⟨itemType, -, hknown⟩ := Option.bind_eq_some_iff.1 hparsed
      unfold parseKnownItem at hknown
      split at hknown <;> cases hknown
      case h_2 =>
        intro entry hentry
        obtain ⟨value, -, rfl⟩ := List.mem_map.1 hentry
        exact ⟨value, rfl⟩
      all_goals trivial
    · trivial

/-- What the parser reads where an item has been written. -/
def reread : ThreadItem → ThreadItem
  | .mcpToolCall tool => .mcpToolCall
    { tool with result := some (tool.result.getD .null), error := none }
  | .unknown item => .unknown ⟨item.id, some "unknown", threadItemToJson (.unknown item)⟩
  | item => item

/-- **Reading an item back**, kind by kind. -/
theorem parse_threadItemToJson {item : ThreadItem} (h : IsRead item) :
    parseThreadItem (threadItemToJson item) = reread item := by
  cases item with
  | agentMessage msg =>
    obtain ⟨id, text, _ | phase⟩ := msg
    · rfl
    · show ThreadItem.agentMessage ⟨id, text, some (parseAgentMessagePhase phase.asStr)⟩ = _
      rw [parseAgentMessagePhase_asStr]
      rfl
  | userMessage msg =>
    show ThreadItem.userMessage ⟨msg.id,
      (msg.content.map userMessageContentItemToJson).map parseUserMessageContentItem⟩ = _
    have hcontent : (msg.content.map userMessageContentItemToJson).map
        parseUserMessageContentItem = msg.content := by
      rw [List.map_map]
      refine (List.map_congr_left fun entry hentry => ?_).trans (List.map_id _)
      obtain ⟨value, rfl⟩ := h entry hentry
      exact parse_userMessageContentItemToJson value
    rw [hcontent]
    rfl
  | commandExecution command =>
    show ThreadItem.commandExecution ⟨command.id, command.command, command.aggregatedOutput,
      ((orNull _ command.exitCode).asI64).map Int64.toInt32,
      parseCommandExecutionStatus command.status.asStr⟩ = _
    rw [asI64_orNull, parseCommandExecutionStatus_asStr]
    rfl
  | fileChange fileChange =>
    show ThreadItem.fileChange ⟨fileChange.id,
      (fileChange.changes.map fileUpdateChangeToJson).filterMap parseFileUpdateChange,
      parsePatchApplyStatus fileChange.status.asStr⟩ = _
    rw [filterMap_map parse_fileUpdateChangeToJson, parsePatchApplyStatus_asStr]
    rfl
  | mcpToolCall tool =>
    have herror : ((orNull (fun error : ThreadError => .string error.message)
        tool.error).asObject).bind (optStr · "message") = none := by
      cases tool.error <;> rfl
    show ThreadItem.mcpToolCall ⟨tool.id, tool.server, tool.tool, tool.arguments,
      some (tool.result.getD .null), (((orNull _ tool.error).asObject).bind _).map _,
      parseMcpToolCallStatus tool.status.asStr⟩ = _
    rw [herror, parseMcpToolCallStatus_asStr]
    rfl
  | dynamicToolCall tool =>
    show ThreadItem.dynamicToolCall ⟨tool.id, tool.tool, tool.arguments, tool.status,
      tool.contentItems, (orNull _ tool.success).asBool, (orNull _ tool.durationMs).asU64⟩ = _
    rw [asBool_orNull, asU64_orNull]
    rfl
  | collabToolCall tool =>
    show ThreadItem.collabToolCall ⟨tool.id, tool.tool, tool.status, tool.senderThreadId,
      (orNull _ tool.receiverThreadId).asStr, (orNull _ tool.newThreadId).asStr,
      (orNull _ tool.prompt).asStr, (orNull _ tool.agentStatus).asStr⟩ = _
    rw [asStr_orNull, asStr_orNull, asStr_orNull, asStr_orNull]
    rfl
  | todoList todo =>
    show ThreadItem.todoList ⟨todo.id, (todo.items.map todoItemToJson).filterMap parseTodoItem⟩ = _
    rw [filterMap_map parse_todoItemToJson]
    rfl
  | unknown item =>
    show ThreadItem.unknown ⟨(orNull _ item.id).asStr, some "unknown", _⟩ = _
    rw [asStr_orNull]
    rfl
  | plan | reasoning | webSearch | imageView | enteredReviewMode | exitedReviewMode
  | contextCompaction | error => rfl

/-- A wrapped payload is larger than the payload. -/
theorem threadItemToJson_unknown_ne (item : UnknownItem) :
    threadItemToJson (.unknown item) ≠ item.raw := by
  intro h
  have hsize := congrArg sizeOf h
  simp [threadItemToJson] at hsize
  omega

theorem reread_eq_iff (item : ThreadItem) :
    reread item = item ↔ (∀ unknown, item ≠ .unknown unknown) ∧
      ∀ tool, item = .mcpToolCall tool → tool.result.isSome ∧ tool.error = none := by
  cases item with
  | mcpToolCall tool =>
    obtain ⟨id, server, name, arguments, result, error, status⟩ := tool
    cases result <;> cases error <;> simp [reread]
  | unknown item =>
    constructor
    · intro h
      have hraw := congrArg UnknownItem.raw (ThreadItem.unknown.inj h)
      exact absurd hraw (threadItemToJson_unknown_ne item)
    · exact fun h => absurd rfl (h.1 item)
  | _ => exact ⟨fun _ => ⟨nofun, nofun⟩, fun _ => rfl⟩

/-- **The round trip of an item.**  Read, written and read again, an item is the same just when it
is of a known type and, being a tool call, has a result and no error.  A tool call that is not comes
back with a result and without the error, and an item of no known type as the wrapper around it. -/
theorem item_round_trip (raw : Value) :
    (parseThreadItem (threadItemToJson (parseThreadItem raw)) = parseThreadItem raw ↔
      (∀ unknown, parseThreadItem raw ≠ .unknown unknown) ∧
        ∀ tool, parseThreadItem raw = .mcpToolCall tool →
          tool.result.isSome ∧ tool.error = none) ∧
    (∀ tool, parseThreadItem raw = .mcpToolCall tool →
      parseThreadItem (threadItemToJson (.mcpToolCall tool)) = .mcpToolCall
        { tool with result := some (tool.result.getD .null), error := none }) ∧
    ∀ item, parseThreadItem raw = .unknown item →
      parseThreadItem (threadItemToJson (.unknown item)) =
        .unknown ⟨item.id, some "unknown", threadItemToJson (.unknown item)⟩ := by
  refine ⟨?_, fun tool _ => parse_threadItemToJson trivial,
    fun item _ => parse_threadItemToJson trivial⟩
  rw [parse_threadItemToJson (isRead_parseThreadItem raw)]
  exact reread_eq_iff _

/-- A tool call that is still in progress has no result, and comes back with one. -/
theorem item_round_trip_in_progress : ¬ ∀ raw : Value,
    parseThreadItem (threadItemToJson (parseThreadItem raw)) = parseThreadItem raw := by
  intro h
  have hitem := h (.object [("type", .string "mcpToolCall"), ("id", .string "call_1"),
    ("server", .string "docs"), ("tool", .string "search"), ("status", .string "inProgress")])
  have hresult := congrArg McpToolCallItem.result (ThreadItem.mcpToolCall.inj hitem)
  cases hresult

end CodexSdk.Luna

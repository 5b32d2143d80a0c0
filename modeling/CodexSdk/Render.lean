import Mathlib.Data.Finset.Erase
import Mathlib.Data.Finset.Insert
import CodexSdk.Text
import CodexSdk.Turn.Pump

/-!
# Rendering thread items

`events/render.rs`.  `renderThreadItem` turns a complete item into markdown.  The
`ThreadEventRenderer` renders events one after another: the deltas of an item as they come in, and
its completed snapshot only if no delta was shown.  What ties the two together is a set of kinds
and item ids, filled by the deltas and emptied by the snapshots.

A `TextItem` is an item whose text is streamed, with its events and the fragments a reader should
see of it.
-/

set_option autoImplicit false

namespace CodexSdk

open Json Text

/-! ## Items -/

inductive RenderedItemKind
  | agentMessage
  | userMessage
  | reasoning
  | plan
  | toolCall
  | commandExecution
  | fileChange
  | status
  | error
  | unknown
  deriving DecidableEq

structure RenderedItem where
  kind : RenderedItemKind
  itemId : Option String
  markdown : String
  /-- Whether this fragment continues a previously streamed item. -/
  continuation : Bool
  deriving DecidableEq

def RenderedItem.new (kind : RenderedItemKind) (itemId : Option String) (markdown : String) :
    RenderedItem :=
  ⟨kind, itemId, markdown, false⟩

def quoteBlock (label text : String) : String :=
  if trim text.toList = [] then ""
  else s!"> **{label}**\n> " ++ "\n> ".intercalate ((lines text.toList).map String.ofList)

def oneLine (value : String) : String :=
  value.map fun c => if c = '\r' ∨ c = '\n' then ' ' else c

def displayOrUnknown (value : String) : String := if value = "" then "unknown" else value

/-- Every line after the first is moved to the right. -/
def indented (value : String) : String :=
  String.ofList (value.toList.flatMap fun c => if c = '\n' then "\n    ".toList else [c])

def commandStatus : CommandExecutionStatus → String
  | .inProgress => "running"
  | .completed => "completed"
  | .failed => "failed"
  | .declined => "declined"
  | .unknown => "unknown status"

def patchStatus : PatchApplyStatus → String
  | .inProgress => "applying"
  | .completed => "applied"
  | .failed => "failed"
  | .declined => "declined"
  | .unknown => "unknown status"

def patchChangeKind : PatchChangeKind → String
  | .add => "added"
  | .delete => "deleted"
  | .update => "updated"
  | .unknown => "changed"

def mcpStatus : McpToolCallStatus → String
  | .inProgress => "running"
  | .completed => "completed"
  | .failed => "failed"
  | .unknown => "unknown status"

section

-- The compact text of a JSON value.
variable (compactJson : Value → String)

def renderUserContent : UserMessageContentItem → String
  | .text text => text
  | .image url => s!"[image]({url})"
  | .localImage path => s!"local image: {path}"
  | .unknown value => "unknown content: " ++ compactJson value

def renderCommand (item : CommandExecutionItem) : String :=
  s!"**Command** {oneLine item.command} — {commandStatus item.status}"
    ++ (match item.exitCode with
      | some exitCode => s!" (exit {exitCode})"
      | none => "")
    ++ (if item.aggregatedOutput = "" then "" else "\n\n    " ++ indented item.aggregatedOutput)

def renderFileChange (item : FileChangeItem) : String :=
  let changes := if item.changes.isEmpty then "no paths reported"
    else "\n".intercalate <| item.changes.map fun change =>
      s!"- {patchChangeKind change.kind} {oneLine change.path}"
  s!"**File changes** — {patchStatus item.status}\n\n" ++ changes

def renderMcpToolCall (item : McpToolCallItem) : String :=
  s!"**Tool** {oneLine item.server}.{oneLine item.tool} — {mcpStatus item.status}\n\nArguments: "
    ++ compactJson item.arguments
    ++ (match item.result with
      | some result => "\n\nResult: " ++ compactJson result
      | none => "")
    ++ (match item.error with
      | some error => s!"\n\nError: {error.message}"
      | none => "")

def renderDynamicToolCall (item : DynamicToolCallItem) : String :=
  let details := [s!"status: {displayOrUnknown item.status}"]
    ++ (item.success.map fun success => s!"success: {success}").toList
    ++ (item.durationMs.map fun durationMs => s!"{durationMs} ms").toList
  s!"**Tool** {oneLine item.tool} — " ++ ", ".intercalate details ++ "\n\nArguments: "
    ++ compactJson item.arguments
    ++ (if item.contentItems.isEmpty then ""
      else "\n\nResult: " ++ compactJson (.array item.contentItems))

def renderCollabToolCall (item : CollabToolCallItem) : String :=
  let details := [s!"status: {displayOrUnknown item.status}"]
    ++ (item.agentStatus.map fun agentStatus => s!"agent: {agentStatus}").toList
  s!"**Collaboration** {oneLine item.tool} — " ++ ", ".intercalate details
    ++ (match item.prompt with
      | some prompt => s!"\n\nPrompt: {prompt}"
      | none => "")
    ++ (match item.newThreadId.or item.receiverThreadId with
      | some threadId => s!"\n\nThread: {oneLine threadId}"
      | none => "")

def renderTodoList (item : TodoListItem) : String :=
  let items := if item.items.isEmpty then "- (empty)"
    else "\n".intercalate <| item.items.map fun todo =>
      (if todo.completed then "- [x] " else "- [ ] ") ++ todo.text
  "**Todo list**\n\n" ++ items

/-- `render_thread_item`. -/
def renderThreadItem : ThreadItem → RenderedItem
  | .agentMessage item => .new .agentMessage (some item.id) item.text
  | .userMessage item => .new .userMessage (some item.id)
      ("**User**\n\n" ++ "\n".intercalate (item.content.map (renderUserContent compactJson)))
  | .plan item => .new .plan (some item.id) ("**Plan**\n\n" ++ item.text)
  | .reasoning item => .new .reasoning (some item.id) (quoteBlock "Reasoning" item.text)
  | .commandExecution item => .new .commandExecution (some item.id) (renderCommand item)
  | .fileChange item => .new .fileChange (some item.id) (renderFileChange item)
  | .mcpToolCall item => .new .toolCall (some item.id) (renderMcpToolCall compactJson item)
  | .dynamicToolCall item => .new .toolCall (some item.id) (renderDynamicToolCall compactJson item)
  | .collabToolCall item => .new .toolCall (some item.id) (renderCollabToolCall item)
  | .webSearch item => .new .toolCall (some item.id) s!"**Web search** — {oneLine item.query}"
  | .imageView item => .new .toolCall (some item.id) s!"**Viewed image** — {oneLine item.path}"
  | .enteredReviewMode item => .new .status (some item.id)
      s!"**Entered review mode** — {displayOrUnknown item.review}"
  | .exitedReviewMode item => .new .status (some item.id)
      s!"**Exited review mode** — {displayOrUnknown item.review}"
  | .contextCompaction item => .new .status (some item.id) "**Context compacted**"
  | .todoList item => .new .plan (some item.id) (renderTodoList item)
  | .error item => .new .error (some item.id) s!"**Error:** {displayOrUnknown item.message}"
  | .unknown item =>
    let label := item.itemType.getD "unknown"
    .new .unknown item.id (s!"**Unknown item** {oneLine label} — " ++ compactJson item.raw)

/-! ## The renderer -/

/-- What the renderer remembers of an item. -/
abbrev ItemKey := RenderedItemKind × String

/-- The state of a `ThreadEventRenderer`. -/
structure ThreadEventRenderer where
  streamedItems : Finset ItemKey

namespace ThreadEventRenderer

def new : ThreadEventRenderer := ⟨∅⟩

/-- Whether a fragment with this key was streamed; one without a key never was. -/
def remembers (s : ThreadEventRenderer) : Option ItemKey → Bool
  | some key => key ∈ s.streamedItems
  | none => false

def remember (s : ThreadEventRenderer) : Option ItemKey → ThreadEventRenderer
  | some key => ⟨insert key s.streamedItems⟩
  | none => s

def forget (s : ThreadEventRenderer) : Option ItemKey → ThreadEventRenderer
  | some key => ⟨s.streamedItems.erase key⟩
  | none => s

@[simp] theorem remembers_some (s : ThreadEventRenderer) (key : ItemKey) :
    s.remembers (some key) = decide (key ∈ s.streamedItems) := rfl

@[simp] theorem mem_remember {s : ThreadEventRenderer} {key : ItemKey} {k : Option ItemKey} :
    key ∈ (s.remember k).streamedItems ↔ k = some key ∨ key ∈ s.streamedItems := by
  cases k with
  | none => simp [remember]
  | some other => simp [remember, eq_comm]

@[simp] theorem mem_forget {s : ThreadEventRenderer} {key : ItemKey} {k : Option ItemKey} :
    key ∈ (s.forget k).streamedItems ↔ k ≠ some key ∧ key ∈ s.streamedItems := by
  cases k with
  | none => simp [forget]
  | some other => simp [forget, eq_comm]

end ThreadEventRenderer

/-- The fragment of a delta: the bare text of an item that is streamed as text. -/
def renderUpdated : ThreadItem → RenderedItem
  | .agentMessage item => .new .agentMessage (some item.id) item.text
  | .reasoning item => .new .reasoning (some item.id) item.text
  | .plan item => .new .plan (some item.id) item.text
  | item => renderThreadItem compactJson item

/-- The key a fragment is remembered by, when it names an item. -/
def RenderedItem.key (r : RenderedItem) : Option ItemKey := r.itemId.map fun id => (r.kind, id)

def ThreadEventRenderer.render (s : ThreadEventRenderer) :
    ThreadEvent → Option RenderedItem × ThreadEventRenderer
  | .itemUpdated item =>
    let rendered := renderUpdated compactJson item
    if rendered.markdown = "" then (none, s)
    else (some { rendered with continuation := true }, s.remember rendered.key)
  | .itemCompleted item =>
    let rendered := renderThreadItem compactJson item
    let wasStreamed := s.remembers rendered.key
    (if wasStreamed = false ∧ rendered.markdown ≠ "" then some rendered else none,
      s.forget rendered.key)
  | .error message => (some (.new .error none s!"**Error:** {displayOrUnknown message}"), s)
  | .turnFailed error =>
    (some (.new .error none s!"**Turn failed:** {displayOrUnknown error.message}"), s)
  | .threadStarted _ | .turnStarted | .turnCompleted _ | .itemStarted _ => (none, s)

theorem renderUpdated_key (item : ThreadItem) :
    (renderUpdated compactJson item).key = (renderThreadItem compactJson item).key := by
  cases item <;> rfl

end

/-! ## Items whose text is streamed -/

/-- The items whose text is streamed. -/
inductive TextKind
  | agentMessage
  | reasoning
  | plan
  deriving DecidableEq

def TextKind.rendered : TextKind → RenderedItemKind
  | agentMessage => .agentMessage
  | reasoning => .reasoning
  | plan => .plan

/-- The text of a delta or of a completed item; only agent messages have a phase. -/
structure TextPart where
  text : String
  phase : Option AgentMessagePhase

def TextKind.item (kind : TextKind) (id : String) (part : TextPart) : ThreadItem :=
  match kind with
  | agentMessage => .agentMessage ⟨id, part.text, part.phase⟩
  | reasoning => .reasoning ⟨id, part.text⟩
  | plan => .plan ⟨id, part.text⟩

/-- A text item as it is streamed: its text in pieces, or no piece at all, and then the whole. -/
structure TextItem where
  kind : TextKind
  id : String
  deltas : List TextPart
  final : TextPart
  pieces : deltas = [] ∨ String.join (deltas.map TextPart.text) = final.text

namespace TextItem

def updates (i : TextItem) : List ThreadEvent :=
  i.deltas.map fun part => .itemUpdated (i.kind.item i.id part)

def completed (i : TextItem) : ThreadItem := i.kind.item i.id i.final

def events (i : TextItem) : List ThreadEvent := i.updates ++ [.itemCompleted i.completed]

/-- The fragments of the deltas that have a text. -/
def streamed (i : TextItem) : List RenderedItem :=
  (i.deltas.filter fun part => part.text ≠ "").map fun part =>
    ⟨i.kind.rendered, some i.id, part.text, true⟩

/-- What a reader should see of the item: its deltas, or else the item as a whole. -/
def fragments (compactJson : Value → String) (i : TextItem) : List RenderedItem :=
  let rendered := renderThreadItem compactJson i.completed
  if i.streamed ≠ [] then i.streamed
  else if rendered.markdown = "" then [] else [rendered]

end TextItem

section

variable {compactJson : Value → String}

theorem key_item (kind : TextKind) (id : String) (part : TextPart) :
    (renderThreadItem compactJson (kind.item id part)).key = some (kind.rendered, id) := by
  cases kind <;> rfl

theorem renderUpdated_item (kind : TextKind) (id : String) (part : TextPart) :
    renderUpdated compactJson (kind.item id part) = ⟨kind.rendered, some id, part.text, false⟩ := by
  cases kind <;> rfl

end

end CodexSdk

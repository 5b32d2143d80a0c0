import CodexSdk.Luna.Exec
import CodexSdk.Snapshots

/-!
# The output of `agx`

`main` of `agx` runs one turn and prints it in one of two modes: the last response alone, which is
`Thread::ask`, or the events one after another in a loop of its own.  `modes_agree_iff` says for
which streams the two exit alike.

In the streaming mode the loop remembers which agent messages it has shown as they came in, in a set
of ids and a mark for the messages without one, where the renderer of the SDK has one set of kinds
and ids.  `agent_messages_shown_alike` relates the two.
-/

set_option autoImplicit false

namespace CodexSdk.Agx

open Luna (settles completes_iff)

/-! ## What is printed -/

inductive Color
  | red
  | green
  | yellow
  | blue
  | magenta
  | cyan
  | brightWhite
  deriving DecidableEq

structure Ink where
  color : Option Color := none
  bold : Bool := false
  dimmed : Bool := false
  italic : Bool := false
  deriving DecidableEq

/-- A piece of text in the ink it gets where the terminal supports colors. -/
structure Span where
  ink : Ink
  text : String
  deriving DecidableEq

def plain (text : String) : Span := ⟨{}, text⟩

/-- One call that prints.  Writing does not fail here. -/
inductive Printed
  | stdout (spans : List Span)
  | stderr (spans : List Span)
  deriving DecidableEq

def printUsage (usage : Usage) : Printed :=
  .stdout [plain "\n\n", ⟨{ dimmed := true }, s!"---\nUsage:\n- Input tokens: {usage.inputTokens}\n"
    ++ s!"- Cached input tokens: {usage.cachedInputTokens}\nOutput tokens: {usage.outputTokens}"⟩,
    plain "\n"]

def printReasoningText (text : String) : Printed :=
  if text = "" then .stdout [⟨{ dimmed := true, italic := true }, "Thinking..."⟩, plain "\n\n"]
  else .stdout [⟨{ dimmed := true, italic := true }, "Thinking..."⟩, plain "\n\t",
    ⟨{ dimmed := true }, text⟩, plain "\n\n"]

def printAgentMessageText (text : String) : Printed :=
  .stdout [⟨{ bold := true, color := some .brightWhite }, text⟩]

/-- What is printed, and whether the output ends with a newline then. -/
def ensureStdoutNewline (printedAny endedWithNewline : Bool) : List Printed × Bool :=
  if printedAny && !endedWithNewline then ([.stdout [plain "\n"]], true) else ([], endedWithNewline)

def endsWithNewline (text : String) : Bool := text.toList.getLast? == some '\n'

/-! ## What the loop remembers -/

structure StreamRenderState where
  streamedAgentMessageIds : Finset String
  streamedAgentMessageWithoutId : Bool
  agentMessageEndedWithNewline : Bool

namespace StreamRenderState

def noteAgentMessageDelta (s : StreamRenderState) (message : AgentMessageItem) :
    StreamRenderState :=
  let s := if message.id = "" then { s with streamedAgentMessageWithoutId := true }
    else { s with streamedAgentMessageIds := insert message.id s.streamedAgentMessageIds }
  { s with agentMessageEndedWithNewline := endsWithNewline message.text }

def takeAgentMessageWasStreamed (s : StreamRenderState) (message : AgentMessageItem) :
    Bool × StreamRenderState :=
  if message.id = "" then
    (s.streamedAgentMessageWithoutId, { s with streamedAgentMessageWithoutId := false })
  else (message.id ∈ s.streamedAgentMessageIds,
    { s with streamedAgentMessageIds := s.streamedAgentMessageIds.erase message.id })

end StreamRenderState

/-- The local variables of the streaming loop. -/
structure StreamLoop where
  printedReasoningItems : Finset String
  reasoningTextById : String → Option String
  renderState : StreamRenderState

def StreamLoop.new : StreamLoop := ⟨∅, fun _ => none, ⟨∅, false, false⟩⟩

def appendReasoningDelta (reasoningTextById : String → Option String) (reasoning : ReasoningItem) :
    String → Option String :=
  if reasoning.text = "" then reasoningTextById
  else Function.update reasoningTextById reasoning.id
    (some ((reasoningTextById reasoning.id).getD "" ++ reasoning.text))

def completedReasoningText (reasoning : ReasoningItem)
    (reasoningTextById : String → Option String) : String :=
  if reasoning.text = "" then (reasoningTextById reasoning.id).getD "" else reasoning.text

/-! ## The streaming loop -/

/-- What is printed of a completed item that is neither an agent message nor a reasoning item. -/
def printItem : ThreadItem → List Printed
  | .webSearch search => [.stdout [⟨{ color := some .cyan }, "⊙ Searching:"⟩, plain " ",
      ⟨{ color := some .cyan }, search.query⟩, plain "\n\n"]]
  | .plan plan => [.stdout [⟨{ color := some .yellow, bold := true }, "Plan:"⟩, plain " ",
      ⟨{ color := some .yellow }, plan.text⟩, plain "\n\n"]]
  | .commandExecution cmd =>
    let failed := cmd.status = .failed ∨ ∃ code ∈ cmd.exitCode, code ≠ 0
    let ink := { color := some (if failed then .red else .green) }
    [.stdout [⟨ink, ">"⟩, plain " ", ⟨ink, cmd.command⟩, plain "\n"]]
      ++ (if cmd.aggregatedOutput = "" then []
        else [.stdout [⟨{ dimmed := true }, cmd.aggregatedOutput⟩, plain "\n"]])
      ++ (match cmd.exitCode with
        | some code => if code = 0 then []
          else [.stdout [⟨{ color := some .red }, s!"exit code: {code}"⟩, plain "\n"]]
        | none => [])
  | .fileChange fc =>
    fc.changes.map (fun change =>
      let (sign, color) := match change.kind with
        | .add => ("+", Color.green)
        | .delete => ("-", .red)
        | .update | .unknown => ("~", .magenta)
      .stdout [plain "\t", ⟨{ color := some color }, sign⟩, plain " ",
        ⟨{ color := some color }, change.path⟩, plain "\n"])
      ++ (if fc.status = .failed then
        [.stdout [plain "\t", ⟨{ color := some .red, bold := true }, "patch failed"⟩, plain "\n"]]
        else [])
  | .mcpToolCall mcp =>
    [.stdout [⟨{ color := some .blue, bold := true }, "MCP:"⟩, plain " ",
        ⟨{ color := some .blue }, s!"{mcp.server}::{mcp.tool}"⟩],
      match mcp.error with
      | some err => .stdout [plain " ", ⟨{ color := some .red }, s!"error: {err.message}"⟩,
          plain "\n"]
      | none => .stdout [plain "\n"]]
  | .dynamicToolCall dtc => [.stdout [⟨{ color := some .blue, bold := true }, "Tool:"⟩, plain " ",
      ⟨{ color := some .blue }, dtc.tool⟩, plain " (", ⟨{ dimmed := true }, dtc.status⟩,
      plain ")\n"]]
  | .collabToolCall collab => [.stdout [⟨{ color := some .blue, bold := true }, "Collab:"⟩,
      plain " ", ⟨{ color := some .blue }, collab.tool⟩, plain " (",
      ⟨{ dimmed := true }, collab.status⟩, plain ")\n"]]
  | .todoList todo => todo.items.map fun item =>
      if item.completed then .stdout [plain "\t", ⟨{ color := some .green }, "✓"⟩, plain " ",
        ⟨{ dimmed := true }, item.text⟩, plain "\n"]
      else .stdout [plain "\t", ⟨{ dimmed := true }, "○"⟩, plain " ", plain item.text,
        plain "\n"]
  | .error err => [.stderr [⟨{ color := some .red, bold := true }, s!"error: {err.message}"⟩,
      plain "\n"]]
  | .imageView img => [.stdout [plain "\t", ⟨{ dimmed := true }, s!"Image: {img.path}"⟩,
      plain "\n"]]
  | .enteredReviewMode review => [.stdout [⟨{ color := some .yellow, italic := true },
      s!"Entered review mode: {review.review}"⟩, plain "\n"]]
  | .exitedReviewMode _ => [.stdout [⟨{ color := some .yellow, italic := true },
      "Exited review mode"⟩, plain "\n"]]
  | .contextCompaction _ => [.stdout [⟨{ dimmed := true }, "Context compacted"⟩, plain "\n"]]
  | .userMessage _ => []
  | .unknown unk => match unk.itemType with
    | some ty => [.stdout [⟨{ dimmed := true }, s!"Unknown item: {ty}"⟩, plain "\n"]]
    | none => []
  | .agentMessage _ | .reasoning _ => []

namespace StreamLoop

/-- The arm of the loop for an agent message that is complete. -/
def agentMessageCompleted (s : StreamLoop) (message : AgentMessageItem) :
    List Printed × StreamLoop :=
  let (wasStreamed, renderState) := s.renderState.takeAgentMessageWasStreamed message
  if wasStreamed then
    let (newline, ended) := ensureStdoutNewline true renderState.agentMessageEndedWithNewline
    (newline, { s with renderState := { renderState with agentMessageEndedWithNewline := ended } })
  else if message.text = "" then ([], { s with renderState })
  else
    let (newline, ended) := ensureStdoutNewline true (endsWithNewline message.text)
    (printAgentMessageText message.text :: newline,
      { s with renderState := { renderState with agentMessageEndedWithNewline := ended } })

/-- The body of the loop: what is printed for an event, and what is remembered. -/
def handle (verbose : Bool) (s : StreamLoop) : ThreadEvent → List Printed × StreamLoop
  | .turnCompleted usage => ((if verbose then usage.toList.map printUsage else []), s)
  | .turnFailed error => ([.stderr [⟨{ color := some .red, bold := true },
      s!"streamed turn failed: {error.message}"⟩, plain "\n"]], s)
  | .threadStarted threadId =>
    ((if verbose then [.stdout [⟨{ dimmed := true }, s!"Thread ID: {threadId}\n---"⟩, plain "\n"]]
      else []), s)
  | .error message => ([.stderr [⟨{ color := some .red, bold := true }, s!"error: {message}"⟩,
      plain "\n"]], s)
  | .turnStarted | .itemStarted _ => ([], s)
  | .itemUpdated (.agentMessage message) =>
    if message.text = "" then ([], s)
    else ([printAgentMessageText message.text],
      { s with renderState := s.renderState.noteAgentMessageDelta message })
  | .itemUpdated (.reasoning reasoning) =>
    let s := { s with reasoningTextById := appendReasoningDelta s.reasoningTextById reasoning }
    if reasoning.text = "" then ([], s)
    else ([printReasoningText reasoning.text],
      { s with printedReasoningItems := insert reasoning.id s.printedReasoningItems })
  | .itemUpdated _ => ([], s)
  | .itemCompleted (.agentMessage message) => s.agentMessageCompleted message
  | .itemCompleted (.reasoning reasoning) =>
    if reasoning.id ∈ s.printedReasoningItems then ([], s)
    else ([printReasoningText (completedReasoningText reasoning s.reasoningTextById)],
      { s with printedReasoningItems := insert reasoning.id s.printedReasoningItems })
  | .itemCompleted item => (printItem item, s)

end StreamLoop

/-- The events after which the loop breaks. -/
def breaks : ThreadEvent → Bool
  | .turnCompleted _ | .turnFailed _ => true
  | .threadStarted _ | .turnStarted | .itemStarted _ | .itemUpdated _ | .itemCompleted _
  | .error _ => false

/-- The loop over what the stream delivers, up to its end. -/
def streamingLoop (verbose : Bool) (s : StreamLoop) :
    List StreamItem → List Printed × Except ClientError Unit
  | [] => ([], .ok ())
  | .error err :: _ => ([], .error err)
  | .ok event :: rest =>
    let (printed, s') := s.handle verbose event
    if breaks event then (printed, .ok ())
    else
      let (more, result) := streamingLoop verbose s' rest
      (printed ++ more, result)

/-- `main` in the streaming mode, once the turn is started. -/
def streaming (verbose : Bool) (items : List StreamItem) :
    List Printed × Except ClientError Unit :=
  streamingLoop verbose .new items

/-- `main` with the last response only, once the turn is started. -/
def lastResponseOnly (items : List StreamItem) : List Printed × Except ThreadRunError Unit :=
  match runOn items with
  | .error error => ([], .error error)
  | .ok turn =>
    let response := turn.finalResponse
    let printed := if response = "" then [] else [printAgentMessageText response]
    (printed ++ (ensureStdoutNewline (response ≠ "") (endsWithNewline response)).1, .ok ())

/-! ## Success -/

/-- An item after which the loop reads no more: an error is returned, an event breaks. -/
def endsLoop : StreamItem → Bool
  | .error _ => true
  | .ok event => breaks event

/-- The result of the loop, by the item that ends it. -/
def resultOf : StreamItem → Except ClientError Unit
  | .error err => .error err
  | .ok _ => .ok ()

theorem streamingLoop_result (verbose : Bool) (s : StreamLoop) (items : List StreamItem) :
    (streamingLoop verbose s items).2 = ((items.find? endsLoop).map resultOf).getD (.ok ()) := by
  refine Rounds.reader_eq (f := fun s items => (streamingLoop verbose s items).2) (fun _ => rfl)
    (fun s item rest h => ?_) (fun s item rest h => ?_) s items
  · rcases item with err | event
    · rfl
    · rw [endsLoop] at h
      rw [streamingLoop, h]
      rfl
  · rcases item with err | event
    · rw [endsLoop] at h
      exact Bool.noConfusion h
    · rw [endsLoop] at h
      refine ⟨(s.handle verbose event).2, ?_⟩
      rw [streamingLoop, h]
      rfl

/-- The streaming mode fails with an error of the stream only. -/
theorem streaming_eq_ok (verbose : Bool) (items : List StreamItem) :
    (streaming verbose items).2 = .ok () ↔
      ∀ err, items.find? endsLoop ≠ some (.error err) := by
  rw [streaming, streamingLoop_result]
  rcases items.find? endsLoop with _ | err | event
  · simp
  · simp [resultOf]
  · simp [resultOf]

theorem lastResponseOnly_eq_ok (items : List StreamItem) :
    (lastResponseOnly items).2 = .ok () ↔ Luna.Completes items := by
  have hexit : (lastResponseOnly items).2 = .ok () ↔ Luna.exitOfRun (runOn items) = none := by
    rw [lastResponseOnly]
    rcases runOn items with error | turn
    · simp [Luna.exitOfRun]
    · simp [Luna.exitOfRun]
  rw [hexit, Luna.exitOfRun_runOn, completes_iff]
  rcases items.find? settles with _ | err | event
  · simp [Luna.Mode.closed]
  · simp [Luna.Mode.settled]
  · simp [Luna.Mode.settled_eq_none]

theorem endsLoop_of_settles {item : StreamItem} (h : settles item = false) :
    endsLoop item = false := by
  rcases item with err | event
  · exact h
  · cases event <;> first | rfl | exact h

/-- A turn that completes is a success in the streaming mode too. -/
theorem streaming_of_completes {verbose : Bool} {items : List StreamItem}
    (h : Luna.Completes items) : (streaming verbose items).2 = .ok () := by
  obtain ⟨before, usage, after, rfl, hbefore⟩ := h
  rw [streaming_eq_ok]
  intro err hfind
  rw [List.find?_append, List.find?_eq_none.2 (fun item hitem => by
    rw [endsLoop_of_settles (hbefore item hitem)]; exact Bool.false_ne_true)] at hfind
  cases hfind

/-- The two modes exit alike, and successfully exactly if the turn completes before anything else
settles it. -/
structure ModesAgree (verbose : Bool) (items : List StreamItem) : Prop where
  alike : (streaming verbose items).2 = .ok () ↔ (lastResponseOnly items).2 = .ok ()
  succeeds : (lastResponseOnly items).2 = .ok () ↔ Luna.Completes items

/-- An error of the stream comes before the turn completes or fails. -/
def ErrsFirst (items : List StreamItem) : Prop :=
  ∃ before err after, items = before ++ .error err :: after ∧
    ∀ item ∈ before, endsLoop item = false

theorem errsFirst_iff {items : List StreamItem} :
    ErrsFirst items ↔ ∃ err, items.find? endsLoop = some (.error err) := by
  constructor
  · rintro ⟨before, err, after, rfl, hbefore⟩
    exact ⟨err, List.find?_eq_some_iff_append.2 ⟨rfl, before, after, rfl,
      fun item hitem => by rw [hbefore item hitem]; rfl⟩⟩
  · rintro ⟨err, hfind⟩
    obtain ⟨-, before, after, rfl, hbefore⟩ := List.find?_eq_some_iff_append.1 hfind
    exact ⟨before, err, after, rfl, fun item hitem => by simpa using hbefore item hitem⟩

/-- **When the two modes exit alike**: the turn completes before anything else settles it, or the
stream errs before the turn completes or fails. -/
theorem modes_agree_iff (verbose : Bool) (items : List StreamItem) :
    ModesAgree verbose items ↔ Luna.Completes items ∨ ErrsFirst items := by
  constructor
  · intro h
    by_cases hok : (streaming verbose items).2 = .ok ()
    · exact .inl (h.succeeds.1 (h.alike.1 hok))
    · rw [streaming_eq_ok, not_forall] at hok
      obtain ⟨err, herr⟩ := hok
      exact .inr (errsFirst_iff.2 ⟨err, not_not.1 herr⟩)
  · rintro (hcompletes | herrs)
    · have hlast := (lastResponseOnly_eq_ok items).2 hcompletes
      exact ⟨iff_of_true (streaming_of_completes hcompletes) hlast, lastResponseOnly_eq_ok items⟩
    · obtain ⟨err, hfind⟩ := errsFirst_iff.1 herrs
      have hfails : (streaming verbose items).2 ≠ .ok () :=
        fun hok => (streaming_eq_ok verbose items).1 hok err hfind
      refine ⟨iff_of_false hfails fun hlast => ?_, lastResponseOnly_eq_ok items⟩
      exact hfails (streaming_of_completes ((lastResponseOnly_eq_ok items).1 hlast))

/-- A turn that fails is a success in the streaming mode. -/
theorem failedTurn_disagrees :
    ¬ ModesAgree false [.ok .turnStarted, .ok (.turnFailed ⟨"out of credits"⟩)] := by
  intro h
  have hstreaming : (streaming false
      [.ok .turnStarted, .ok (.turnFailed ⟨"out of credits"⟩)]).2 = .ok () := rfl
  cases h.alike.1 hstreaming

/-! ## Agent messages -/

/-- The state of the loop after a list of events, none of which it breaks after. -/
def StreamLoop.after (verbose : Bool) (s : StreamLoop) (events : List ThreadEvent) : StreamLoop :=
  events.foldl (fun s event => (s.handle verbose event).2) s

theorem streamingLoop_append (verbose : Bool) (rest : List StreamItem)
    {before : List ThreadEvent} (h : ∀ event ∈ before, breaks event = false) (s : StreamLoop) :
    (streamingLoop verbose s (before.map .ok ++ rest)).1 =
      (streamingLoop verbose s (before.map .ok)).1 ++
        (streamingLoop verbose (s.after verbose before) rest).1 := by
  induction before generalizing s with
  | nil => rfl
  | cons event before ih =>
    have hrest := ih (fun e he => h e (List.mem_cons_of_mem _ he)) (s.handle verbose event).2
    rw [List.map_cons, List.cons_append, streamingLoop, streamingLoop, h event List.mem_cons_self]
    simp only [Bool.false_eq_true, if_false, List.append_assoc, hrest]
    rfl

namespace StreamRenderState

/-- Whether a piece of the message was printed that is not completed yet. -/
def streamed (s : StreamRenderState) (id : String) : Bool :=
  if id = "" then s.streamedAgentMessageWithoutId else id ∈ s.streamedAgentMessageIds

@[simp] theorem streamed_note {s : StreamRenderState} {message : AgentMessageItem} {id : String} :
    (s.noteAgentMessageDelta message).streamed id = true ↔
      message.id = id ∨ s.streamed id = true := by
  rw [noteAgentMessageDelta, streamed, streamed]
  by_cases hid : id = "" <;> by_cases hmessage : message.id = "" <;> grind

@[simp] theorem take_fst (s : StreamRenderState) (message : AgentMessageItem) :
    (s.takeAgentMessageWasStreamed message).1 = s.streamed message.id := by
  rw [takeAgentMessageWasStreamed, streamed]
  split <;> rfl

@[simp] theorem streamed_take {s : StreamRenderState} {message : AgentMessageItem} {id : String} :
    (s.takeAgentMessageWasStreamed message).2.streamed id = true ↔
      message.id ≠ id ∧ s.streamed id = true := by
  rw [takeAgentMessageWasStreamed, streamed, streamed]
  by_cases hid : id = "" <;> by_cases hmessage : message.id = "" <;> grind

end StreamRenderState

section

open Past

variable {verbose : Bool} {compactJson : Json.Value → String}

/-- A completed agent message is forgotten, whether it is printed or not. -/
theorem streamed_agentMessageCompleted (s : StreamLoop) (message : AgentMessageItem)
    (id : String) : (s.agentMessageCompleted message).2.renderState.streamed id =
      (s.renderState.takeAgentMessageWasStreamed message).2.streamed id := by
  rw [StreamLoop.agentMessageCompleted]
  rcases s.renderState.takeAgentMessageWasStreamed message with ⟨wasStreamed, renderState⟩
  by_cases hempty : message.text = ""
  · cases wasStreamed <;> simp [hempty, StreamRenderState.streamed]
  · cases wasStreamed <;> simp [hempty, StreamRenderState.streamed]

theorem key_ne_agentMessage {item : ThreadItem} (h : ∀ message, item ≠ .agentMessage message)
    (id : String) : (renderThreadItem compactJson item).key ≠ some (.agentMessage, id) := by
  intro hkey
  have hrendered : (renderThreadItem compactJson item).key =
    some (TextKind.agentMessage.rendered, id) := hkey
  rcases eq_item_of_key hrendered with ⟨part, rfl⟩ | ⟨hkind, -⟩
  · exact h _ rfl
  · cases hkind

/-- An update or a completion of another item leaves what is remembered of the messages alone. -/
theorem handle_renderState {item : ThreadItem} (h : ∀ message, item ≠ .agentMessage message)
    (s : StreamLoop) : (s.handle verbose (.itemUpdated item)).2.renderState = s.renderState ∧
      (s.handle verbose (.itemCompleted item)).2.renderState = s.renderState := by
  cases item with
  | agentMessage message => exact absurd rfl (h message)
  | reasoning reasoning =>
    constructor
    · by_cases hempty : reasoning.text = "" <;> simp [StreamLoop.handle, hempty]
    · by_cases hprinted : reasoning.id ∈ s.printedReasoningItems <;>
        simp [StreamLoop.handle, hprinted]
  | _ => exact ⟨rfl, rfl⟩

/-- The loop remembers an agent message as the renderer does. -/
theorem StreamLoop.streamed_handle (s : StreamLoop) (event : ThreadEvent) (id : String) :
    (s.handle verbose event).2.renderState.streamed id = true ↔
      event.Streams compactJson (.agentMessage, id) ∨
        ¬ event.Closes compactJson (.agentMessage, id) ∧ s.renderState.streamed id = true := by
  rcases event with _ | _ | _ | _ | _ | item | item | _
  case itemUpdated =>
    by_cases hitem : ∃ message, item = .agentMessage message
    · obtain ⟨message, rfl⟩ := hitem
      by_cases hempty : message.text = ""
      · simp [handle, hempty, ThreadEvent.Streams, ThreadEvent.Closes, renderUpdated,
          RenderedItem.new]
      · simp [handle, hempty, ThreadEvent.Streams, ThreadEvent.Closes, renderUpdated,
          RenderedItem.new, RenderedItem.key, renderThreadItem]
    · rw [not_exists] at hitem
      rw [(handle_renderState hitem s).1]
      simp [ThreadEvent.Streams, ThreadEvent.Closes, key_ne_agentMessage hitem]
  case itemCompleted =>
    by_cases hitem : ∃ message, item = .agentMessage message
    · obtain ⟨message, rfl⟩ := hitem
      rw [handle, streamed_agentMessageCompleted, StreamRenderState.streamed_take]
      simp [ThreadEvent.Streams, ThreadEvent.Closes, RenderedItem.new, RenderedItem.key,
        renderThreadItem]
    · rw [not_exists] at hitem
      rw [(handle_renderState hitem s).2]
      simp [ThreadEvent.Streams, ThreadEvent.Closes, key_ne_agentMessage hitem]
  all_goals simp [handle, ThreadEvent.Streams, ThreadEvent.Closes]

/-- The set and the mark stand for the messages of which a piece was shown and that were not
completed since. -/
theorem StreamLoop.streamed_after (events : List ThreadEvent) (id : String) :
    (StreamLoop.new.after verbose events).renderState.streamed id = true ↔
      Since (ThreadEvent.Closes compactJson (.agentMessage, id))
        (ThreadEvent.Streams compactJson (.agentMessage, id)) events :=
  holds_foldl_iff (fun s : StreamLoop => s.renderState.streamed id = true)
    (fun s event => s.streamed_handle event id) (by simp [new, StreamRenderState.streamed]) events

variable (verbose compactJson) in
/-- **The two renderers remember the same agent messages**, after any events. -/
theorem streamed_after_iff_mem_after (events : List ThreadEvent) (id : String) :
    (StreamLoop.new.after verbose events).renderState.streamed id = true ↔
      (.agentMessage, id) ∈ (ThreadEventRenderer.after compactJson events).streamedItems :=
  (StreamLoop.streamed_after events id).trans (ThreadEventRenderer.mem_after events).symm

theorem printAgentMessageText_notMem_newline (text : String) (printedAny ended : Bool) :
    printAgentMessageText text ∉ (ensureStdoutNewline printedAny ended).1 := by
  rw [ensureStdoutNewline]
  split
  · simp [printAgentMessageText, plain]
  · exact List.not_mem_nil

/-- The text of an update is printed if there is one, and then the renderer shows it. -/
theorem shown_updated (s : StreamLoop) (r : ThreadEventRenderer) (message : AgentMessageItem) :
    printAgentMessageText message.text ∈
        (s.handle verbose (.itemUpdated (.agentMessage message))).1 ↔
      (r.render compactJson (.itemUpdated (.agentMessage message))).1.isSome := by
  rw [StreamLoop.handle, ThreadEventRenderer.render]
  by_cases hempty : message.text = ""
  · simp [hempty, renderUpdated, RenderedItem.new]
  · simp [hempty, renderUpdated, RenderedItem.new]

theorem mem_agentMessageCompleted {s : StreamLoop} {message : AgentMessageItem} :
    printAgentMessageText message.text ∈ (s.agentMessageCompleted message).1 ↔
      s.renderState.streamed message.id = false ∧ message.text ≠ "" := by
  rw [StreamLoop.agentMessageCompleted, ← StreamRenderState.take_fst]
  rcases s.renderState.takeAgentMessageWasStreamed message with ⟨wasStreamed, renderState⟩
  cases wasStreamed with
  | true => simp [printAgentMessageText_notMem_newline]
  | false =>
    by_cases hempty : message.text = ""
    · simp [hempty]
    · simp [hempty]

/-- The text of a completed message is printed, and the renderer shows it, if no piece of it was. -/
theorem shown_completed {s : StreamLoop} {r : ThreadEventRenderer} {message : AgentMessageItem}
    (h : s.renderState.streamed message.id = true ↔
      (.agentMessage, message.id) ∈ r.streamedItems) :
    printAgentMessageText message.text ∈
        (s.handle verbose (.itemCompleted (.agentMessage message))).1 ↔
      (r.render compactJson (.itemCompleted (.agentMessage message))).1.isSome := by
  have hkey : (renderThreadItem compactJson (.agentMessage message)).key =
    some (.agentMessage, message.id) := rfl
  have hmarkdown : (renderThreadItem compactJson (.agentMessage message)).markdown =
    message.text := rfl
  have hremembers : r.remembers (some (.agentMessage, message.id)) =
      s.renderState.streamed message.id := by
    rw [ThreadEventRenderer.remembers_some, Bool.eq_iff_iff, decide_eq_true_iff, h]
  rw [StreamLoop.handle, mem_agentMessageCompleted, ThreadEventRenderer.render, hkey, hmarkdown,
    hremembers]
  by_cases hshow : s.renderState.streamed message.id = false ∧ message.text ≠ ""
  · rw [if_pos hshow]
    exact iff_of_true hshow rfl
  · rw [if_neg hshow]
    exact iff_of_false hshow Bool.false_ne_true

end

/-- An event of an agent message. -/
inductive AgentEvent
  | updated (message : AgentMessageItem)
  | completed (message : AgentMessageItem)

def AgentEvent.message : AgentEvent → AgentMessageItem
  | updated message | completed message => message

def AgentEvent.event : AgentEvent → ThreadEvent
  | updated message => .itemUpdated (.agentMessage message)
  | completed message => .itemCompleted (.agentMessage message)

/-- A fragment of an agent message is its text. -/
theorem AgentEvent.markdown_of_mem_render {compactJson : Json.Value → String}
    {r : ThreadEventRenderer} {event : AgentEvent} {fragment : RenderedItem}
    (h : fragment ∈ (r.render compactJson event.event).1) :
    fragment.markdown = event.message.text := by
  cases event with
  | updated message =>
    rw [AgentEvent.event, ThreadEventRenderer.render] at h
    split at h
    · cases h
    · cases h
      rfl
  | completed message =>
    rw [AgentEvent.event, ThreadEventRenderer.render] at h
    split at h
    · cases h
      rfl
    · cases h

/-- The text is printed as agent messages are, bold and white.  The ink tells it from the newline
that ends a message. -/
def PrintsMessage (text : String) (printed : List Printed) : Prop :=
  ∃ spans, .stdout spans ∈ printed ∧ ⟨{ bold := true, color := some .brightWhite }, text⟩ ∈ spans

/-- Besides the text at most a newline is printed. -/
def OnlyMessage (text : String) (printed : List Printed) : Prop :=
  ∀ p ∈ printed, p = .stdout [⟨{ bold := true, color := some .brightWhite }, text⟩] ∨
    p = .stdout [plain "\n"]

theorem onlyMessage_newline (text : String) (printedAny ended : Bool) :
    OnlyMessage text (ensureStdoutNewline printedAny ended).1 := by
  rw [ensureStdoutNewline]
  split
  · exact fun p hp => .inr (List.mem_singleton.1 hp)
  · exact fun p hp => absurd hp List.not_mem_nil

theorem onlyMessage_cons {text : String} {printed : List Printed} (h : OnlyMessage text printed) :
    OnlyMessage text (printAgentMessageText text :: printed) :=
  List.forall_mem_cons.2 ⟨.inl rfl, h⟩

theorem onlyMessage_handle (verbose : Bool) (s : StreamLoop) (event : AgentEvent) :
    OnlyMessage event.message.text (s.handle verbose event.event).1 := by
  have hnothing : OnlyMessage event.message.text [] := fun p hp => absurd hp List.not_mem_nil
  cases event with
  | updated message =>
    rw [AgentEvent.event, StreamLoop.handle]
    split
    · exact hnothing
    · exact onlyMessage_cons hnothing
  | completed message =>
    rw [AgentEvent.event, StreamLoop.handle, StreamLoop.agentMessageCompleted]
    dsimp only
    split
    · exact onlyMessage_newline _ _ _
    · split
      · exact hnothing
      · exact onlyMessage_cons (onlyMessage_newline _ _ _)

theorem OnlyMessage.prints_iff {text : String} {printed : List Printed}
    (h : OnlyMessage text printed) :
    PrintsMessage text printed ↔ printAgentMessageText text ∈ printed := by
  constructor
  · rintro ⟨spans, hspans, hspan⟩
    rcases h _ hspans with heq | heq
    · rwa [heq] at hspans
    · obtain rfl := Printed.stdout.inj heq
      simp [plain] at hspan
  · exact fun hmem => ⟨_, hmem, List.mem_singleton_self _⟩

/-- **Agent messages are shown alike** by the streaming loop and by the renderer.  After any updates
and completions, one more makes the loop print the text of its message exactly if the renderer
returns a fragment for it, which is that text; and besides it at most a newline. -/
theorem agent_messages_shown_alike (verbose : Bool) (compactJson : Json.Value → String)
    (before : List AgentEvent) (event : AgentEvent) :
    let fragment := ((ThreadEventRenderer.after compactJson
      (before.map AgentEvent.event)).render compactJson event.event).1
    ∃ printed,
      (streaming verbose ((before ++ [event]).map fun e => .ok e.event)).1 =
        (streaming verbose (before.map fun e => .ok e.event)).1 ++ printed ∧
      (PrintsMessage event.message.text printed ↔ fragment.isSome) ∧
      OnlyMessage event.message.text printed ∧
      ∀ shown ∈ fragment, shown.markdown = event.message.text := by
  have hgoes : ∀ event : AgentEvent, breaks event.event = false := by
    intro event
    cases event <;> rfl
  have hbefore : ∀ e ∈ before.map AgentEvent.event, breaks e = false := by
    intro e he
    obtain ⟨event, -, rfl⟩ := List.mem_map.1 he
    exact hgoes event
  have hstreamed := streamed_after_iff_mem_after verbose compactJson
    (before.map AgentEvent.event) event.message.id
  have hprinted := streamingLoop_append verbose [.ok event.event] hbefore .new
  refine ⟨((StreamLoop.new.after verbose (before.map AgentEvent.event)).handle verbose
    event.event).1, ?_, ?_, onlyMessage_handle verbose _ event,
    fun shown hshown => AgentEvent.markdown_of_mem_render hshown⟩
  · rw [List.map_map] at hprinted
    rw [List.map_append]
    refine hprinted.trans (congrArg _ ?_)
    rw [streamingLoop, hgoes]
    exact List.append_nil _
  · rw [(onlyMessage_handle verbose _ event).prints_iff]
    cases event with
    | updated message => exact shown_updated _ _ message
    | completed message => exact shown_completed hstreamed

end CodexSdk.Agx

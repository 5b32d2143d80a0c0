import CodexSdk.Luna.Exec
import CodexSdk.Luna.ItemJson

/-!
# `luna chat`

The transcript of the chat, as far as `ChatApp` of `commands/chat.rs` writes it: a block for what
the user says, and blocks for what the events of a turn show.  Which those are depends on the mode:
every event as JSON, the final response alone, or fragments of the renderer, a streamed one being
added to the block it continues.

In the mode for the final response the chat has to decide while the events come in, where
`Thread::run` decides at the end.  `added_eq` says what is added to the transcript in a turn, and
`final_response_iff` when that is what `run` returns.
-/

set_option autoImplicit false

namespace CodexSdk.Luna

open Json

/-! ## The transcript -/

inductive TranscriptKind
  | user
  | agent
  | reasoning
  | tool
  | status
  | error
  | raw
  deriving DecidableEq

def TranscriptKind.ofRendered : RenderedItemKind → TranscriptKind
  | .userMessage => user
  | .agentMessage => agent
  | .reasoning | .plan => reasoning
  | .toolCall | .commandExecution | .fileChange => tool
  | .error => error
  | .status | .unknown => status

structure TranscriptBlock where
  kind : TranscriptKind
  itemId : Option String
  text : String

/-- A `ChatApp`, without what is for input and drawing. -/
structure ChatApp where
  transcript : List TranscriptBlock
  status : String
  busy : Bool
  turnRunning : Bool
  followTail : Bool
  renderer : ThreadEventRenderer
  finalResponseOnly : Bool
  jsonOutput : Bool
  fallbackFinalResponse : Option String
  emittedFinalResponse : Bool

/-- `Iterator::rposition`: the index of the last element that satisfies `p`. -/
def rposition {α : Type} (p : α → Bool) : List α → Option Nat
  | [] => none
  | a :: l => match rposition p l with
    | some i => some (i + 1)
    | none => if p a then some 0 else none

namespace ChatApp

def new (finalResponseOnly jsonOutput : Bool) : ChatApp :=
  ⟨[], "starting", false, false, true, .new, finalResponseOnly, jsonOutput, none, false⟩

def submitUserMessage (app : ChatApp) (prompt : String) : ChatApp :=
  { app with
    transcript := app.transcript ++ [⟨.user, none, prompt⟩]
    renderer := .new
    fallbackFinalResponse := none
    emittedFinalResponse := false
    busy := true
    turnRunning := true
    status := "thinking"
    followTail := true }

/-- The block a fragment is added to: the last one of its kind and item.  There is none for a
fragment that does not continue its item. -/
def blockOf (app : ChatApp) (fragment : RenderedItem) : Option Nat :=
  if fragment.continuation then
    rposition (fun block => block.kind = .ofRendered fragment.kind && block.itemId.isSome &&
      block.itemId = fragment.itemId) app.transcript
  else none

def pushFragment (app : ChatApp) (fragment : RenderedItem) : ChatApp :=
  let transcript := match app.blockOf fragment with
    | some index => app.transcript.modify index fun block =>
      { block with text := block.text ++ fragment.markdown }
    | none => app.transcript ++ [⟨.ofRendered fragment.kind, fragment.itemId, fragment.markdown⟩]
  { app with transcript, followTail := true }

def pushFinalResponse (app : ChatApp) (response : String) : ChatApp :=
  { app with
    emittedFinalResponse := true
    transcript := app.transcript ++ [⟨.agent, none, response⟩] }

/-- What the mode for the final response does with the message of an event: it shows a final answer
at once and keeps any other one. -/
def takeMessage (app : ChatApp) : ThreadEvent → ChatApp
  | .itemCompleted (.agentMessage message) =>
    if message.isFinalAnswer then app.pushFinalResponse message.text
    else { app with fallbackFinalResponse := some message.text }
  | _ => app

/-- At the end of a turn without a final answer it shows the message it has kept. -/
def showFallback (app : ChatApp) : ChatApp :=
  match app.emittedFinalResponse, app.fallbackFinalResponse with
  | false, some response => { app with fallbackFinalResponse := none }.pushFinalResponse response
  | _, _ => app

def consumeFinalResponse (app : ChatApp) (event : ThreadEvent) : ChatApp :=
  let app := app.takeMessage event
  match event with
  | .turnCompleted _ => app.showFallback
  | _ => app

/-- `consume_thread_event`.  Its only error is that of writing a JSON value, which does not
occur. -/
def consumeThreadEvent (compactJson : Value → String) (app : ChatApp) (event : ThreadEvent) :
    ChatApp :=
  if app.jsonOutput then
    { app with
      transcript := app.transcript ++ [⟨.raw, none, compactJson (threadEventToJson event)⟩] }
  else if app.finalResponseOnly then app.consumeFinalResponse event
  else
    let (fragment, renderer) := app.renderer.render compactJson event
    let app := { app with renderer }
    match fragment with
    | some fragment => if fragment.kind = .userMessage then app else app.pushFragment fragment
    | none => app

def finishTurn (app : ChatApp) : ChatApp :=
  { app with busy := false, turnRunning := false, status := "ready" }

def appendStatus (app : ChatApp) (message : String) : ChatApp :=
  { app with transcript := app.transcript ++ [⟨.status, none, message⟩], followTail := true }

def appendError (app : ChatApp) (message : String) : ChatApp :=
  { app with transcript := app.transcript ++ [⟨.error, none, message⟩], followTail := true }

def finishTurnWithError (app : ChatApp) (message : String) : ChatApp :=
  (app.appendError message).finishTurn

def clearTranscript (app : ChatApp) : ChatApp := { app with transcript := [], followTail := true }

/-- The events of a turn, one after another. -/
def consumeAll (compactJson : Value → String) (app : ChatApp) (events : List ThreadEvent) :
    ChatApp :=
  events.foldl (consumeThreadEvent compactJson) app

end ChatApp

/-! ## The messages of a turn -/

/-- The agent message an event completes. -/
def completedMessage : ThreadEvent → Option AgentMessageItem
  | .itemCompleted (.agentMessage message) => some message
  | _ => none

/-- The agent messages that are completed, in order. -/
def completedMessages (events : List ThreadEvent) : List AgentMessageItem :=
  events.filterMap completedMessage

def finalAnswers (events : List ThreadEvent) : List AgentMessageItem :=
  (completedMessages events).filter AgentMessageItem.isFinalAnswer

def otherMessages (events : List ThreadEvent) : List AgentMessageItem :=
  (completedMessages events).filter fun message => !message.isFinalAnswer

/-- The text of the last of the messages. -/
def lastText (messages : List AgentMessageItem) : Option String :=
  messages.getLast?.map AgentMessageItem.text

theorem lastText_append (messages messages' : List AgentMessageItem) :
    lastText (messages ++ messages') = (lastText messages').or (lastText messages) := by
  rw [lastText, List.getLast?_append, Option.map_or]
  rfl

theorem completedMessages_append (events events' : List ThreadEvent) :
    completedMessages (events ++ events') = completedMessages events ++ completedMessages events' :=
  List.filterMap_append

theorem finalAnswers_append (events events' : List ThreadEvent) :
    finalAnswers (events ++ events') = finalAnswers events ++ finalAnswers events' := by
  rw [finalAnswers, completedMessages_append, List.filter_append]
  rfl

theorem otherMessages_append (events events' : List ThreadEvent) :
    otherMessages (events ++ events') = otherMessages events ++ otherMessages events' := by
  rw [otherMessages, completedMessages_append, List.filter_append]
  rfl

theorem messages_of_none {event : ThreadEvent} (h : completedMessage event = none) :
    finalAnswers [event] = [] ∧ otherMessages [event] = [] := by
  rw [finalAnswers, otherMessages, completedMessages, List.filterMap_cons_none h]
  exact ⟨rfl, rfl⟩

theorem messages_of_message (message : AgentMessageItem) :
    finalAnswers [.itemCompleted (.agentMessage message)] =
        (if message.isFinalAnswer then [message] else []) ∧
      otherMessages [.itemCompleted (.agentMessage message)] =
        if message.isFinalAnswer then [] else [message] := by
  show [message].filter _ = _ ∧ [message].filter _ = _
  rw [List.filter_singleton, List.filter_singleton]
  cases message.isFinalAnswer <;> exact ⟨rfl, rfl⟩

/-! ## What `run` returns -/

/-- What the texts kept by `run` become with these events. -/
def FinalResponse.after (response : FinalResponse) (events : List ThreadEvent) : FinalResponse :=
  ⟨(lastText (finalAnswers events)).or response.finalAnswer,
    (lastText (otherMessages events)).or response.fallbackResponse⟩

theorem after_append (response : FinalResponse) (events events' : List ThreadEvent) :
    FinalResponse.after response (events ++ events') =
      FinalResponse.after (FinalResponse.after response events) events' := by
  rw [FinalResponse.after, finalAnswers_append, otherMessages_append, lastText_append,
    lastText_append, Option.or_assoc, Option.or_assoc]
  rfl

/-- An event that does not settle the turn is passed over, but for the message it completes. -/
theorem collectTurn_cons {event : ThreadEvent} (h : settles (.ok event) = false)
    (items : List ThreadItem) (response : FinalResponse) (rest : List StreamItem) :
    ∃ items', collectTurn items response (.ok event :: rest) =
      collectTurn items' (FinalResponse.after response [event]) rest := by
  cases event with
  | itemCompleted item =>
    refine ⟨items ++ [item], congrArg (collectTurn _ · rest) ?_⟩
    cases item with
    | agentMessage message =>
      rw [FinalResponse.update, FinalResponse.after, (messages_of_message message).1,
        (messages_of_message message).2]
      cases message.isFinalAnswer <;> rfl
    | _ => rfl
  | turnCompleted usage => cases h
  | turnFailed error => cases h
  | error message => cases h
  | _ => exact ⟨items, rfl⟩

/-- **What `run` makes of a turn** that completes: it has kept the last final answer and the last
other message. -/
theorem collectTurn_eq (usage : Option Usage) {events : List ThreadEvent}
    (h : ∀ event ∈ events, settles (.ok event) = false) :
    ∀ (items : List ThreadItem) (response : FinalResponse), ∃ items',
      collectTurn items response ((events ++ [ThreadEvent.turnCompleted usage]).map .ok) =
        collectTurn items' (FinalResponse.after response events) [.ok (.turnCompleted usage)] := by
  induction events with
  | nil => exact fun items response => ⟨items, rfl⟩
  | cons event events ih =>
    intro items response
    obtain ⟨hevent, hevents⟩ := List.forall_mem_cons.1 h
    obtain ⟨items₁, hfirst⟩ := collectTurn_cons hevent items response
      ((events ++ [ThreadEvent.turnCompleted usage]).map .ok)
    obtain ⟨items', hrest⟩ := ih hevents items₁ (FinalResponse.after response [event])
    exact ⟨items', by rw [List.cons_append, List.map_cons, hfirst, hrest, ← after_append]; rfl⟩

/-- The final response of the messages of a turn. -/
def responseText (events : List ThreadEvent) : String :=
  ((lastText (finalAnswers events)).or (lastText (otherMessages events))).getD ""

theorem runOn_eq (usage : Option Usage) {events : List ThreadEvent}
    (h : ∀ event ∈ events, settles (.ok event) = false) :
    ∃ items, runOn ((events ++ [ThreadEvent.turnCompleted usage]).map .ok) =
      .ok ⟨items, responseText events, usage⟩ := by
  obtain ⟨items, heq⟩ := collectTurn_eq usage h [] ⟨none, none⟩
  refine ⟨items, heq.trans ?_⟩
  rw [collectTurn, FinalResponse.after, Option.or_none, Option.or_none]
  rfl

/-! ## What the chat adds -/

section

variable {compactJson : Value → String}

def answerBlock (text : String) : TranscriptBlock := ⟨.agent, none, text⟩

/-- The chat shows the final response of a turn and nothing else. -/
structure FinalOnly (app : ChatApp) : Prop where
  finalResponseOnly : app.finalResponseOnly = true
  jsonOutput : app.jsonOutput = false

/-- The blocks of final answers. -/
def answerBlocks (events : List ThreadEvent) : List TranscriptBlock :=
  (finalAnswers events).map fun message => answerBlock message.text

/-- How far the chat is after some events of a turn that were not its end. -/
structure Consumed (app : ChatApp) (events : List ThreadEvent) (app' : ChatApp) : Prop where
  finalOnly : FinalOnly app'
  transcript : app'.transcript = app.transcript ++ answerBlocks events
  fallback : app'.fallbackFinalResponse =
    (lastText (otherMessages events)).or app.fallbackFinalResponse
  emitted : app'.emittedFinalResponse =
    (app.emittedFinalResponse || !(finalAnswers events).isEmpty)

theorem Consumed.append {app app₁ app₂ : ChatApp} {events events' : List ThreadEvent}
    (h : Consumed app events app₁) (h' : Consumed app₁ events' app₂) :
    Consumed app (events ++ events') app₂ := by
  refine ⟨h'.finalOnly, ?_, ?_, ?_⟩
  · rw [h'.transcript, h.transcript, answerBlocks, answerBlocks, answerBlocks, finalAnswers_append,
      List.map_append, List.append_assoc]
  · rw [h'.fallback, h.fallback, otherMessages_append, lastText_append, Option.or_assoc]
  · rw [h'.emitted, h.emitted, finalAnswers_append, Bool.or_assoc]
    cases finalAnswers events <;> rfl

theorem consume_eq {app : ChatApp} (h : FinalOnly app) (event : ThreadEvent) :
    app.consumeThreadEvent compactJson event = app.consumeFinalResponse event := by
  rw [ChatApp.consumeThreadEvent, h.jsonOutput, h.finalResponseOnly]
  rfl

theorem consumed_of_none {app : ChatApp} {event : ThreadEvent} (h : FinalOnly app)
    (hmessage : completedMessage event = none) : Consumed app [event] app := by
  obtain ⟨hfinal, hother⟩ := messages_of_none hmessage
  refine ⟨h, ?_, ?_, ?_⟩
  · rw [answerBlocks, hfinal, List.map_nil, List.append_nil]
  · rw [hother]
    rfl
  · rw [hfinal, List.isEmpty_nil, Bool.not_true, Bool.or_false]

theorem consumed_of_message {app : ChatApp} (h : FinalOnly app) (message : AgentMessageItem) :
    Consumed app [.itemCompleted (.agentMessage message)]
      (app.takeMessage (.itemCompleted (.agentMessage message))) := by
  obtain ⟨hfinal, hother⟩ := messages_of_message message
  rw [ChatApp.takeMessage]
  split at hfinal
  · rename_i hmessage
    rw [if_pos hmessage] at hother ⊢
    refine ⟨⟨h.1, h.2⟩, ?_, ?_, ?_⟩
    · rw [answerBlocks, hfinal]
      rfl
    · rw [hother]
      rfl
    · rw [hfinal]
      exact (Bool.or_true _).symm
  · rename_i hmessage
    rw [if_neg hmessage] at hother ⊢
    refine ⟨⟨h.1, h.2⟩, ?_, ?_, ?_⟩
    · rw [answerBlocks, hfinal, List.map_nil, List.append_nil]
    · rw [hother]
      rfl
    · rw [hfinal]
      exact (Bool.or_false _).symm

theorem consume_consumed {app : ChatApp} {event : ThreadEvent} (h : FinalOnly app)
    (hevent : settles (.ok event) = false) :
    Consumed app [event] (app.consumeThreadEvent compactJson event) := by
  rw [consume_eq h]
  cases event with
  | itemCompleted item =>
    cases item with
    | agentMessage message => exact consumed_of_message h message
    | _ => exact consumed_of_none h rfl
  | turnCompleted usage => cases hevent
  | _ => exact consumed_of_none h rfl

/-- **The chat in the middle of a turn.** -/
theorem consumeAll_consumed {events : List ThreadEvent}
    (hevents : ∀ event ∈ events, settles (.ok event) = false) :
    ∀ {app : ChatApp}, FinalOnly app → Consumed app events (app.consumeAll compactJson events) := by
  induction events with
  | nil => exact fun h => ⟨h, (List.append_nil _).symm, rfl, (Bool.or_false _).symm⟩
  | cons event events ih =>
    intro app h
    obtain ⟨hevent, hrest⟩ := List.forall_mem_cons.1 hevents
    have hfirst : Consumed app [event] (app.consumeThreadEvent compactJson event) :=
      consume_consumed h hevent
    exact hfirst.append (ih hrest hfirst.finalOnly)

/-- What a turn adds after the block of the user: the final answers, or else the last message. -/
def addedBlocks (events : List ThreadEvent) : List TranscriptBlock :=
  if finalAnswers events = [] then ((lastText (otherMessages events)).map answerBlock).toList
  else answerBlocks events

theorem showFallback_transcript (app : ChatApp) :
    app.showFallback.transcript = app.transcript ++
      if app.emittedFinalResponse then []
      else (app.fallbackFinalResponse.map answerBlock).toList := by
  rw [ChatApp.showFallback]
  cases app.emittedFinalResponse <;> cases app.fallbackFinalResponse <;>
    simp [ChatApp.pushFinalResponse, answerBlock]

/-- **What the chat adds in a turn** that completes. -/
theorem added_eq (compactJson : Value → String) {app : ChatApp} (h : FinalOnly app)
    (prompt : String) (usage : Option Usage) {events : List ThreadEvent}
    (hevents : ∀ event ∈ events, settles (.ok event) = false) :
    ((app.submitUserMessage prompt).consumeAll compactJson
        (events ++ [.turnCompleted usage])).transcript =
      app.transcript ++ ⟨.user, none, prompt⟩ :: addedBlocks events := by
  have hsubmitted : FinalOnly (app.submitUserMessage prompt) := ⟨h.1, h.2⟩
  have hconsumed : Consumed _ events (ChatApp.consumeAll compactJson _ events) :=
    consumeAll_consumed hevents hsubmitted
  rw [ChatApp.consumeAll, List.foldl_concat, ← ChatApp.consumeAll, consume_eq hconsumed.finalOnly]
  refine (showFallback_transcript _).trans ?_
  show ChatApp.transcript (ChatApp.consumeAll compactJson _ events) ++
    (if ChatApp.emittedFinalResponse (ChatApp.consumeAll compactJson _ events) then []
      else ((ChatApp.consumeAll compactJson _ events).fallbackFinalResponse.map answerBlock).toList)
    = _
  rw [hconsumed.transcript, hconsumed.fallback, hconsumed.emitted, List.append_assoc]
  show (app.transcript ++ [_]) ++ (answerBlocks events ++ _) = _
  rw [List.append_assoc, addedBlocks]
  refine congrArg (app.transcript ++ _ :: ·) ?_
  rw [answerBlocks]
  cases hfinal : finalAnswers events with
  | nil =>
    rw [if_pos rfl]
    show [] ++ ((Option.or (lastText (otherMessages events)) none).map answerBlock).toList = _
    rw [Option.or_none, List.nil_append]
  | cons message rest =>
    rw [if_neg (List.cons_ne_nil _ _)]
    exact List.append_nil _

theorem otherMessages_eq {events : List ThreadEvent} (h : finalAnswers events = []) :
    otherMessages events = completedMessages events := by
  rw [otherMessages, List.filter_eq_self]
  intro message hmessage
  rw [Bool.not_eq_true', Bool.eq_false_iff]
  exact List.filter_eq_nil_iff.1 h message hmessage

theorem finalAnswers_ne_nil {events : List ThreadEvent} (h : finalAnswers events ≠ []) :
    completedMessages events ≠ [] := by
  intro hnil
  rw [finalAnswers, hnil] at h
  exact h rfl

/-- What `run` returns is what is added, as long as there are not two final answers. -/
theorem addedBlocks_eq_iff (events : List ThreadEvent) :
    addedBlocks events = (if completedMessages events = [] then []
        else [answerBlock (responseText events)]) ↔
      (finalAnswers events).length ≤ 1 := by
  rw [addedBlocks, responseText]
  by_cases hfinal : finalAnswers events = []
  · rw [if_pos hfinal, otherMessages_eq hfinal, hfinal]
    refine iff_of_true ?_ (Nat.zero_le 1)
    by_cases hnone : completedMessages events = []
    · rw [if_pos hnone, hnone]
      rfl
    · obtain ⟨message, hlast⟩ := Option.ne_none_iff_exists'.1 (mt List.getLast?_eq_none_iff.1 hnone)
      rw [if_neg hnone, lastText, hlast]
      rfl
  · rw [if_neg hfinal, if_neg (finalAnswers_ne_nil hfinal)]
    constructor
    · intro heq
      have hlength := congrArg List.length heq
      rw [answerBlocks, List.length_map, List.length_singleton] at hlength
      omega
    · intro hle
      obtain ⟨message, heq⟩ := List.length_eq_one_iff.1
        (Nat.le_antisymm hle (List.length_pos_iff.2 hfinal))
      rw [answerBlocks, heq]
      rfl

/-- **The final response in the chat.**  In a turn that completes without an error, what the chat
adds after the message of the user is the final response that `run` returns, and nothing where no
message was completed, just when at most one final answer was. -/
theorem final_response_iff (compactJson : Value → String) {app : ChatApp} (h : FinalOnly app)
    (prompt : String) (usage : Option Usage) {events : List ThreadEvent}
    (hevents : ∀ event ∈ events, settles (.ok event) = false) :
    ∃ turn, runOn ((events ++ [ThreadEvent.turnCompleted usage]).map .ok) = .ok turn ∧
      (((app.submitUserMessage prompt).consumeAll compactJson
          (events ++ [.turnCompleted usage])).transcript =
        app.transcript ++ ⟨.user, none, prompt⟩ ::
          (if completedMessages events = [] then [] else [⟨.agent, none, turn.finalResponse⟩]) ↔
        (finalAnswers events).length ≤ 1) := by
  obtain ⟨items, hrun⟩ := runOn_eq usage hevents
  refine ⟨_, hrun, ?_⟩
  rw [added_eq compactJson h prompt usage hevents, List.append_cancel_left_eq, List.cons.injEq,
    and_iff_right rfl]
  exact addedBlocks_eq_iff events

/-- A commentary, two final answers, and the end of the turn. -/
def twoAnswers : List ThreadEvent :=
  [.itemCompleted (.agentMessage ⟨"msg_1", "working", some .commentary⟩),
    .itemCompleted (.agentMessage ⟨"msg_2", "first", some .finalAnswer⟩),
    .itemCompleted (.agentMessage ⟨"msg_3", "second", some .finalAnswer⟩)]

/-- With two final answers the chat shows both. -/
theorem final_response_twice : ¬ ∀ (compactJson : Value → String) (app : ChatApp), FinalOnly app →
    ∀ (prompt : String) (usage : Option Usage) (events : List ThreadEvent),
      (∀ event ∈ events, settles (.ok event) = false) →
      ∀ turn, runOn ((events ++ [ThreadEvent.turnCompleted usage]).map .ok) = .ok turn →
        ((app.submitUserMessage prompt).consumeAll compactJson
            (events ++ [.turnCompleted usage])).transcript =
          app.transcript ++ ⟨.user, none, prompt⟩ ::
            (if completedMessages events = [] then []
              else [⟨.agent, none, turn.finalResponse⟩]) := by
  intro h
  have hshown := h (fun _ => "") (.new true false) ⟨rfl, rfl⟩ "hi" none twoAnswers (by decide) _ rfl
  have hlength := congrArg List.length hshown
  revert hlength
  decide

theorem final_response_once : ∃ turn,
    runOn ((twoAnswers.take 2 ++ [ThreadEvent.turnCompleted none]).map .ok) = .ok turn ∧
      ((((ChatApp.new true false).submitUserMessage "hi").consumeAll (fun _ => "")
          (twoAnswers.take 2 ++ [.turnCompleted none])).transcript =
        (ChatApp.new true false).transcript ++ ⟨.user, none, "hi"⟩ ::
          (if completedMessages (twoAnswers.take 2) = [] then []
            else [⟨.agent, none, turn.finalResponse⟩]) ↔
        (finalAnswers (twoAnswers.take 2)).length ≤ 1) :=
  final_response_iff (fun _ => "") ⟨rfl, rfl⟩ "hi" none (by decide)

end

end CodexSdk.Luna

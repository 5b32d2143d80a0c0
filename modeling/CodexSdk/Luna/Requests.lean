import Mathlib.Data.List.DropRight
import CodexSdk.Luna.History
import CodexSdk.Luna.Transcript
import CodexSdk.Since

/-!
# What the chat asks for

A session of the chat sends three requests to the app server: to start a turn, to interrupt it, and
to compact the thread.  An `Occurrence` is one of them with its answer, or something else that
matters to what the session does next, and `Happens` lists what has occurred in a session.

Two things are said of every session.  `requests_in_turn`: a turn is started, and the thread
compacted, only while no turn is running, and only a running turn is interrupted, once.
`requests_replayed`: apart from that, the requests are those of the lines in the history, each with
the effort that was set before it, and what the transcript shows of the user are the prompts.
-/

set_option autoImplicit false

namespace CodexSdk.Luna.Composer

open Json Text Past

/-! ## Requests -/

inductive Request
  | start (prompt : String) (effort : ModelReasoningEffort)
  | interrupt
  | compact

/-- What occurs in a session: a request and its answer, the end of a turn's stream, and the
transcript being cleared. -/
inductive Occurrence
  | asked (request : Request) (answer : Except String Unit)
  | over
  | cleared

/-- The request an input leads to, with the effort that is set. -/
def requestOf (effort : ModelReasoningEffort) : ParsedInput → Option Request
  | .prompt prompt => if trim prompt.toList = [] then none else some (.start prompt effort)
  | .command .compact => some .compact
  | .empty | .command _ => none

def effortAfter (effort : ModelReasoningEffort) : ParsedInput → ModelReasoningEffort
  | .command (.setEffort effort) => effort
  | _ => effort

namespace Session

/-- What occurs when an input is submitted. -/
def submitted (effort : ModelReasoningEffort) (answer : Except String Unit) :
    ParsedInput → Option Occurrence
  | .command .clear => some .cleared
  | input => (requestOf effort input).map (.asked · answer)

/-- What occurs in a step.  The stream of a turn is over with the item that settles it, and where it
ends without one. -/
def occurs (s : Session) : Input → Option Occurrence
  | .terminal (.key key) answer =>
    if acceptsKey key then
      match s.phase with
      | .idle =>
        if isCtrl key 'l' then some .cleared
        else match s.app.handleIdleKey key with
          | some (.submit input, app) => submitted app.effort answer (parseInput input)
          | _ => none
      | .running interruptRequested =>
        if isCtrl key 'c' && !interruptRequested then some (.asked .interrupt answer) else none
      | .ended => none
    else none
  | .stream next =>
    match s.phase with
    | .running _ => if next.all settles then some .over else none
    | .idle | .ended => none
  | .draw _ | .terminal (.paste _) _ | .terminal .other _ => none

end Session

/-- The prompt of the command line as an input. -/
def initialInput : Option (String × Except String Unit) → ParsedInput
  | none => .empty
  | some (prompt, _) => .prompt prompt

/-- What occurs when a session starts. -/
def initialOccurrence (effort : ModelReasoningEffort) :
    Option (String × Except String Unit) → Option Occurrence
  | none => none
  | some (prompt, answer) => Session.submitted effort answer (.prompt prompt)

section

variable (symbols : String → List Symbol) (compactJson : Value → String)

/-- The sessions that come of an app, with what has occurred in them. -/
inductive Happens (app : ChatApp) (initialPrompt : Option (String × Except String Unit)) :
    List Occurrence → Session → Prop
  | start : Happens app initialPrompt (initialOccurrence app.effort initialPrompt).toList
      (.start app initialPrompt)
  | step {log : List Occurrence} {s s' : Session} {input : Input}
      (h : Happens app initialPrompt log s) (hstep : s.step symbols compactJson input = some s') :
      Happens app initialPrompt (log ++ (s.occurs input).toList) s'

end

/-! ## What a step leaves alone -/

/-- What the transcript shows of the user. -/
def said (transcript : List TranscriptBlock) : List String :=
  (transcript.filter fun block => block.kind = .user).map TranscriptBlock.text

theorem said_append (transcript transcript' : List TranscriptBlock) :
    said (transcript ++ transcript') = said transcript ++ said transcript' := by
  rw [said, List.filter_append, List.map_append]
  rfl

/-- A block of another kind says nothing of the user. -/
theorem said_concat {block : TranscriptBlock} (h : block.kind ≠ .user)
    (transcript : List TranscriptBlock) : said (transcript ++ [block]) = said transcript := by
  simp [said, List.filter_append, h]

theorem said_user (transcript : List TranscriptBlock) (prompt : String) :
    said (transcript ++ [⟨.user, none, prompt⟩]) = said transcript ++ [prompt] := by
  rw [said_append]
  rfl

/-- Nothing that has to do with the requests changes. -/
structure Undisturbed (app app' : ChatApp) : Prop where
  busy_eq : app'.busy = app.busy
  turnRunning_eq : app'.turnRunning = app.turnRunning
  effort_eq : app'.effort = app.effort
  history_eq : app'.history = app.history
  said_eq : said app'.transcript = said app.transcript

theorem Undisturbed.refl (app : ChatApp) : Undisturbed app app := ⟨rfl, rfl, rfl, rfl, rfl⟩

theorem Undisturbed.trans {app app' app'' : ChatApp} (h : Undisturbed app app')
    (h' : Undisturbed app' app'') : Undisturbed app app'' :=
  ⟨h'.busy_eq.trans h.busy_eq, h'.turnRunning_eq.trans h.turnRunning_eq,
    h'.effort_eq.trans h.effort_eq, h'.history_eq.trans h.history_eq,
    h'.said_eq.trans h.said_eq⟩

/-- Only the composer and what is drawn change. -/
theorem Undisturbed.composer (app : ChatApp) (input : InputBuffer) (historyCursor : Option Nat)
    (historyDraft : String) (dismissed : Bool) (selected scroll maxScroll page : Nat)
    (followTail : Bool) (status : String) :
    Undisturbed app { app with
      input := input
      historyCursor := historyCursor
      historyDraft := historyDraft
      suggestionsDismissed := dismissed
      selectedSuggestion := selected
      scroll := scroll
      maxScroll := maxScroll
      transcriptPage := page
      followTail := followTail
      status := status } :=
  ⟨rfl, rfl, rfl, rfl, rfl⟩

section

variable {app app' : ChatApp} {action : IdleAction}

/-- A key that takes no input and clears nothing. -/
structure Idles (app : ChatApp) (action : IdleAction) (app' : ChatApp) : Prop
    extends Undisturbed app app' where
  takes_none (input : String) : action ≠ .submit input

theorem Idles.none (h : Undisturbed app app') : Idles app .none app' := by
  refine ⟨h, fun input => ?_⟩
  simp

theorem Idles.quit : Idles app .quit app := by
  refine ⟨.refl app, fun input => ?_⟩
  simp

/-- Either way only the input changes. -/
theorem Idles.input {input : Option InputBuffer}
    (h : app.edit input = some (action, app') ∨ app.move input = some (action, app')) :
    Idles app action app' := by
  rcases h with h | h
  · obtain ⟨input, -, hsame⟩ := Option.map_eq_some_iff.1 h
    obtain ⟨rfl, rfl⟩ := Prod.mk.inj hsame
    exact .none (.composer app ..)
  · obtain ⟨input, -, hsame⟩ := Option.map_eq_some_iff.1 h
    obtain ⟨rfl, rfl⟩ := Prod.mk.inj hsame
    exact .none (.composer app ..)

theorem acceptSuggestion_undisturbed : Undisturbed app app.acceptSuggestion := by
  rw [ChatApp.acceptSuggestion]
  split
  · exact .composer app ..
  · exact .refl app

theorem selectPreviousSuggestion_undisturbed : Undisturbed app app.selectPreviousSuggestion := by
  simp only [ChatApp.selectPreviousSuggestion]
  split
  · exact .composer app ..
  · exact .refl app

theorem selectNextSuggestion_undisturbed : Undisturbed app app.selectNextSuggestion := by
  simp only [ChatApp.selectNextSuggestion]
  split
  · exact .composer app ..
  · exact .refl app

theorem navigateHistoryUp_undisturbed (h : app.navigateHistoryUp = some app') :
    Undisturbed app app' := by
  rw [ChatApp.navigateHistoryUp] at h
  split at h
  · obtain rfl := Option.some.inj h
    exact .refl app
  · obtain ⟨text, -, hsome⟩ := Option.bind_eq_some_iff.1 h
    obtain rfl := Option.some.inj hsome
    exact .composer app ..

theorem navigateHistoryDown_undisturbed (h : app.navigateHistoryDown = some app') :
    Undisturbed app app' := by
  rw [ChatApp.navigateHistoryDown] at h
  split at h
  · obtain rfl := Option.some.inj h
    exact .refl app
  · split at h
    · obtain ⟨text, -, hsome⟩ := Option.bind_eq_some_iff.1 h
      obtain rfl := Option.some.inj hsome
      exact .composer app ..
    · obtain rfl := Option.some.inj h
      exact .composer app ..

/-- An arrow chooses a suggestion or browses, and neither takes the input. -/
theorem Idles.choice {suggested : Bool} {browsed : Option ChatApp} {selected : ChatApp}
    (hbrowsed : ∀ app', browsed = some app' → Undisturbed app app')
    (hselected : Undisturbed app selected)
    (h : (if suggested then browsed.map (IdleAction.none, ·) else some (.none, selected)) =
      some (action, app')) : Idles app action app' := by
  split at h
  · obtain ⟨app'', hbrowse, hsame⟩ := Option.map_eq_some_iff.1 h
    obtain ⟨rfl, rfl⟩ := Prod.mk.inj hsame
    exact .none (hbrowsed app'' hbrowse)
  · obtain ⟨rfl, rfl⟩ := Prod.mk.inj (Option.some.inj h)
    exact .none hselected

/-- A key that does one thing to the composer. -/
theorem Idles.some {app'' : ChatApp} (hundisturbed : Undisturbed app app'')
    (h : Option.some (IdleAction.none, app'') = Option.some (action, app')) :
    Idles app action app' := by
  obtain ⟨rfl, rfl⟩ := Prod.mk.inj (Option.some.inj h)
  exact .none hundisturbed

/-- `Ctrl` with one character is not with another. -/
theorem isCtrl_eq_false {key : KeyEvent} {c d : Char} (h : isCtrl key c = true) (hne : c ≠ d) :
    isCtrl key d = false := by
  rcases key with ⟨code, modifiers, kind⟩
  rcases code
  case char character =>
    simp only [isCtrl, Bool.and_eq_true, beq_iff_eq] at h
    simp [isCtrl, h.1, hne]
  all_goals simp [isCtrl] at h

theorem handleIdleKey_clear {key : KeyEvent} (h : isCtrl key 'l' = true) :
    app.handleIdleKey key = Option.some (.none, app.clearTranscript) := by
  rw [ChatApp.handleIdleKey, isCtrl_eq_false h (by decide : 'l' ≠ 'd'),
    isCtrl_eq_false h (by decide : 'l' ≠ 'c'), h]
  simp

/-- **What a key does** that does not clear the transcript: it submits the input, or leaves all that
has to do with requests. -/
theorem handleIdleKey_cases {key : KeyEvent} (hclear : isCtrl key 'l' = false)
    (h : app.handleIdleKey key = Option.some (action, app')) :
    action = .submit app.input.text ∧ app' = app.submitInput ∨ Idles app action app' := by
  rw [ChatApp.handleIdleKey, hclear] at h
  split at h
  · obtain ⟨rfl, rfl⟩ := Prod.mk.inj (Option.some.inj h)
    exact .inr .quit
  split at h
  · split at h
    · obtain ⟨rfl, rfl⟩ := Prod.mk.inj (Option.some.inj h)
      exact .inr .quit
    · exact .inr (.input (.inl h))
  rw [if_neg Bool.false_ne_true] at h
  split at h
  · exact .inr (.input (.inl h))
  split at h
  · obtain ⟨rfl, rfl⟩ := Prod.mk.inj (Option.some.inj h)
    exact .inl ⟨rfl, rfl⟩
  · split at h
    · exact .inr (.some (.refl app) h)
    · exact .inr (.input (.inl h))
  · exact .inr (.input (.inl h))
  · exact .inr (.input (.inl h))
  · exact .inr (.input (.inr h))
  · exact .inr (.input (.inr h))
  · exact .inr (.input (.inr h))
  · exact .inr (.input (.inr h))
  · exact .inr (.some acceptSuggestion_undisturbed h)
  · exact .inr (.some selectPreviousSuggestion_undisturbed h)
  · exact .inr (.some (.composer app ..) h)
  · exact .inr (.choice (fun _ => navigateHistoryUp_undisturbed)
      selectPreviousSuggestion_undisturbed h)
  · exact .inr (.choice (fun _ => navigateHistoryDown_undisturbed)
      selectNextSuggestion_undisturbed h)
  · exact .inr (.some (.composer app ..) h)
  · exact .inr (.some (.composer app ..) h)
  · exact .inr (.some (.refl app) h)

end

/-! ## Steps -/

/-- What submitting an input comes to. -/
inductive Submits (app : ChatApp) : ParsedInput → Option Occurrence → Session → Prop
  | quiet {input : ParsedInput} {app' : ChatApp} {phase : Phase}
      (h : Undisturbed { app with effort := effortAfter app.effort input } app')
      (hrequest : requestOf app.effort input = none) (hphase : ∀ r, phase ≠ .running r) :
      Submits app input none ⟨app', phase⟩
  | cleared : Submits app (.command .clear) (some .cleared) ⟨app.clearTranscript, .idle⟩
  | compacted {app' : ChatApp} (answer : Except String Unit) (h : Undisturbed app app') :
      Submits app (.command .compact) (some (.asked .compact answer)) ⟨app', .idle⟩
  | started {prompt : String} (hprompt : trim prompt.toList ≠ []) :
      Submits app (.prompt prompt) (some (.asked (.start prompt app.effort) (.ok ())))
        ⟨{ app with toChatApp := app.toChatApp.submitUserMessage prompt }, .running false⟩
  | failed {prompt : String} (hprompt : trim prompt.toList ≠ []) (error message : String) :
      Submits app (.prompt prompt) (some (.asked (.start prompt app.effort) (.error error)))
        ⟨{ app with toChatApp := app.toChatApp.submitUserMessage prompt }.finishTurnWithError
          message, .idle⟩

/-- A block that is not the user's is added. -/
theorem Undisturbed.push {app app' : ChatApp} (h : Undisturbed app app') {block : TranscriptBlock}
    (hkind : block.kind ≠ .user) (followTail : Bool) :
    Undisturbed app { app' with
      transcript := app'.transcript ++ [block]
      followTail := followTail } :=
  ⟨h.busy_eq, h.turnRunning_eq, h.effort_eq, h.history_eq,
    (said_concat hkind app'.transcript).trans h.said_eq⟩

theorem Undisturbed.status {app app' : ChatApp} (h : Undisturbed app app') (message : String) :
    Undisturbed app (app'.appendStatus message) := by
  have hkind : TranscriptBlock.kind ⟨.status, none, message⟩ ≠ .user := by simp
  exact h.push hkind true

theorem Undisturbed.error {app app' : ChatApp} (h : Undisturbed app app') (message : String) :
    Undisturbed app (app'.appendError message) := by
  have hkind : TranscriptBlock.kind ⟨.error, none, message⟩ ≠ .user := by simp
  exact h.push hkind true

theorem startTurn_cases (app : ChatApp) (prompt : String) (answer : Except String Unit) :
    Submits app (.prompt prompt) (Session.submitted app.effort answer (.prompt prompt))
      (Session.startTurn app prompt answer) := by
  rw [Session.submitted, Session.startTurn]
  · rw [requestOf]
    split
    · rename_i hblank
      exact .quiet (.refl app) (if_pos hblank) (by simp)
    · rename_i hprompt
      rcases answer with error | _
      · exact .failed hprompt error _
      · exact .started hprompt
  · simp

/-- A command that neither asks for anything nor clears the transcript. -/
theorem executeCommand_quiet (app : ChatApp) (answer : Except String Unit) {command : ChatCommand}
    (hclear : command ≠ .clear) (hcompact : command ≠ .compact) :
    Undisturbed { app with effort := effortAfter app.effort (.command command) }
      (app.executeCommand answer command).1 := by
  rcases command with _ | _ | _ | effort | _ | skill | _ | _ | command
  · exact (Undisturbed.refl app).status _
  · exact absurd rfl hcompact
  · exact (Undisturbed.refl app).status _
  · exact Undisturbed.status (.refl _) _
  · exact (Undisturbed.refl app).status _
  · rw [ChatApp.executeCommand]
    split
    · exact (Undisturbed.refl app).error _
    · refine Undisturbed.status ?_ _
      exact .composer app ..
  · exact absurd rfl hclear
  · exact .refl app
  · exact (Undisturbed.refl app).error _

theorem submit_cases (app : ChatApp) (input : String) (answer : Except String Unit) :
    Submits app (parseInput input) (Session.submitted app.effort answer (parseInput input))
      (Session.submit app input answer) := by
  rw [Session.submit]
  generalize parseInput input = parsed
  rcases parsed with _ | prompt | command
  · exact .quiet (.refl app) rfl (by simp)
  · exact startTurn_cases app prompt answer
  · by_cases hclear : command = .clear
    · obtain rfl := hclear
      exact .cleared
    by_cases hcompact : command = .compact
    · obtain rfl := hcompact
      refine .compacted answer ?_
      rcases answer with error | _
      · exact ((Undisturbed.refl app).error _).trans (.composer ..)
      · exact ((Undisturbed.refl app).status _).trans (.composer ..)
    have hquiet := executeCommand_quiet app answer hclear hcompact
    have hrequest : requestOf app.effort (.command command) = none := by
      rw [requestOf]
      · exact hcompact
    rw [Session.submitted, hrequest]
    · have hphase : ∀ quit r : Bool, (if quit then Phase.ended else .idle) ≠ .running r := by
        simp
      exact .quiet hquiet hrequest (hphase _)
    · simpa using hclear

section

variable {chat : Luna.ChatApp} (compactJson : Value → String)

/-- What an event of a turn leaves alone. -/
structure Heard (chat chat' : Luna.ChatApp) : Prop where
  busy_eq : chat'.busy = chat.busy
  turnRunning_eq : chat'.turnRunning = chat.turnRunning
  said_eq : said chat'.transcript = said chat.transcript

theorem Heard.undisturbed {app : ChatApp} {chat' : Luna.ChatApp} (h : Heard app.toChatApp chat') :
    Undisturbed app { app with toChatApp := chat' } :=
  ⟨h.busy_eq, h.turnRunning_eq, rfl, rfl, h.said_eq⟩

theorem Heard.pushFinalResponse {chat' : Luna.ChatApp} (h : Heard chat chat') (response : String) :
    Heard chat (chat'.pushFinalResponse response) := by
  have hkind : TranscriptBlock.kind ⟨.agent, none, response⟩ ≠ .user := by simp
  exact ⟨h.busy_eq, h.turnRunning_eq, (said_concat hkind _).trans h.said_eq⟩

theorem takeMessage_heard (event : ThreadEvent) : Heard chat (chat.takeMessage event) := by
  have hrefl : Heard chat chat := ⟨rfl, rfl, rfl⟩
  unfold Luna.ChatApp.takeMessage
  split
  · split
    · exact hrefl.pushFinalResponse _
    · exact ⟨rfl, rfl, rfl⟩
  · exact hrefl

theorem Heard.showFallback {chat' : Luna.ChatApp} (h : Heard chat chat') :
    Heard chat chat'.showFallback := by
  unfold Luna.ChatApp.showFallback
  split
  · refine Heard.pushFinalResponse ?_ _
    exact ⟨h.busy_eq, h.turnRunning_eq, h.said_eq⟩
  · exact h

theorem consumeFinalResponse_heard (event : ThreadEvent) :
    Heard chat (chat.consumeFinalResponse event) := by
  unfold Luna.ChatApp.consumeFinalResponse
  split
  · exact (takeMessage_heard _).showFallback
  · exact takeMessage_heard event

/-- Only text of a block that is not the user's grows. -/
theorem pushFragment_heard {fragment : RenderedItem} (hkind : fragment.kind ≠ .userMessage) :
    Heard chat (chat.pushFragment fragment) := by
  refine ⟨rfl, rfl, ?_⟩
  have huser := ofRendered_ne_user hkind
  rw [Luna.ChatApp.pushFragment]
  rcases hblock : chat.blockOf fragment with _ | index
  · exact said_concat huser _
  · rw [Luna.ChatApp.blockOf] at hblock
    split at hblock
    · obtain ⟨before, block, after, htranscript, rfl, hof, -⟩ := rposition_eq_some hblock
      simp only [Bool.and_eq_true, decide_eq_true_eq] at hof
      have hother : block.kind ≠ .user := by
        rw [hof.1.1]
        exact huser
      show said (chat.transcript.modify before.length _) = said chat.transcript
      rw [htranscript, modify_append_cons]
      simp [said, List.filter_append, hother]
    · simp at hblock

theorem consumeThreadEvent_heard (event : ThreadEvent) :
    Heard chat (chat.consumeThreadEvent compactJson event) := by
  unfold Luna.ChatApp.consumeThreadEvent
  split
  · exact ⟨rfl, rfl, said_concat (by simp) _⟩
  split
  · exact consumeFinalResponse_heard event
  rcases chat.renderer.render compactJson event with ⟨_ | fragment, renderer⟩
  · exact ⟨rfl, rfl, rfl⟩
  · show Heard chat (if fragment.kind = .userMessage then _ else _)
    split
    · exact ⟨rfl, rfl, rfl⟩
    · rename_i hkind
      obtain ⟨hbusy, hturn, hsaid⟩ := @pushFragment_heard { chat with renderer } fragment hkind
      exact ⟨hbusy, hturn, hsaid⟩

end

/-- What a step comes to. -/
inductive Moves (s : Session) : Option Occurrence → Session → Prop
  | quiet {app : ChatApp} {phase : Phase} (h : Undisturbed s.app app)
      (hphase : phase = s.phase ∨ s.phase = .idle ∧ phase = .ended) : Moves s none ⟨app, phase⟩
  | cleared (hidle : s.phase = .idle) : Moves s (some .cleared) ⟨s.app.clearTranscript, .idle⟩
  | submitted {occurrence : Option Occurrence} {s' : Session} (hidle : s.phase = .idle)
      (h : Submits s.app.submitInput (parseInput s.app.input.text) occurrence s') :
      Moves s occurrence s'
  | refused {app : ChatApp} (error : String) (hrunning : s.phase = .running false)
      (h : Undisturbed s.app app) :
      Moves s (some (.asked .interrupt (.error error))) ⟨app, .running false⟩
  | interrupted {app : ChatApp} (hrunning : s.phase = .running false)
      (h : Undisturbed s.app app) :
      Moves s (some (.asked .interrupt (.ok ()))) ⟨app, .running true⟩
  | finished {app : ChatApp} {interruptRequested : Bool}
      (hrunning : s.phase = .running interruptRequested) (h : Undisturbed s.app app) :
      Moves s (some .over) ⟨{ app with toChatApp := app.toChatApp.finishTurn }, .idle⟩
  | failed {interruptRequested : Bool} (hrunning : s.phase = .running interruptRequested) :
      Moves s (some .over) ⟨s.app, .ended⟩

section

variable {s s' : Session}

theorem handleScrollingKey_undisturbed (app : ChatApp) (key : KeyEvent) :
    Undisturbed app (app.handleScrollingKey key) := by
  unfold ChatApp.handleScrollingKey
  split
  · exact .composer app ..
  · exact .composer app ..
  · exact .composer app ..
  · exact .composer app ..
  · split
    · exact .composer app ..
    · exact .refl app
  · split
    · exact .composer app ..
    · exact .refl app
  · exact .refl app

theorem runningEvent_moves {interruptRequested : Bool}
    (hrunning : s.phase = .running interruptRequested) (event : Event)
    (answer : Except String Unit) : Moves s (s.occurs (.terminal event answer))
      (Session.runningEvent s.app interruptRequested answer event) := by
  rcases event with key | text | _
  · rw [Session.occurs, hrunning]
    simp only [Session.runningEvent]
    rcases haccepts : acceptsKey key with _ | _
    · exact .quiet (.refl _) (.inl hrunning.symm)
    rcases hctrl : isCtrl key 'c' with _ | _
    · exact .quiet (handleScrollingKey_undisturbed _ _) (.inl hrunning.symm)
    rcases interruptRequested with _ | _
    · rcases answer with error | _
      · exact .refused error hrunning ((Undisturbed.refl _).error _)
      · exact .interrupted hrunning (.composer ..)
    · exact .quiet (.composer ..) (.inl hrunning.symm)
  · exact .quiet (.refl _) (.inl hrunning.symm)
  · exact .quiet (.refl _) (.inl hrunning.symm)

theorem streamed_moves (compactJson : Value → String) {interruptRequested : Bool}
    (hrunning : s.phase = .running interruptRequested) (next : Option StreamItem) :
    Moves s (s.occurs (.stream next))
      (Session.streamed compactJson s.app interruptRequested next) := by
  rw [Session.occurs, hrunning]
  rcases next with _ | error | event
  · exact .finished hrunning ((Undisturbed.refl _).error _)
  · exact .failed hrunning
  · have hheard : Undisturbed s.app _ := (consumeThreadEvent_heard compactJson event).undisturbed
    rcases event
    case turnCompleted usage => exact .finished hrunning hheard
    case turnFailed error => exact .finished hrunning (hheard.error _)
    case error message => exact .finished hrunning (hheard.error _)
    all_goals exact .quiet hheard (.inl hrunning.symm)

theorem idleEvent_moves (hidle : s.phase = .idle) {event : Event} {answer : Except String Unit}
    (hstep : Session.idleEvent s.app answer event = some s') :
    Moves s (s.occurs (.terminal event answer)) s' := by
  rcases event with key | text | _
  · rw [Session.idleEvent] at hstep
    rw [Session.occurs, hidle]
    rcases haccepts : acceptsKey key with _ | _
    · rw [haccepts] at hstep
      obtain rfl := Option.some.inj hstep
      exact .quiet (.refl _) (.inl hidle.symm)
    rw [haccepts, if_pos rfl] at hstep
    obtain ⟨⟨action, app⟩, hkey, hsame⟩ := Option.map_eq_some_iff.1 hstep
    rcases hclear : isCtrl key 'l' with _ | _
    · simp only [hkey]
      rcases handleIdleKey_cases hclear hkey with ⟨rfl, rfl⟩ | hidles
      · obtain rfl := hsame
        exact .submitted hidle (submit_cases _ _ answer)
      · rcases action with _ | _ | input
        · obtain rfl := hsame
          exact .quiet hidles.toUndisturbed (.inl hidle.symm)
        · obtain rfl := hsame
          exact .quiet hidles.toUndisturbed (.inr ⟨hidle, rfl⟩)
        · exact absurd rfl (hidles.takes_none input)
    · rw [handleIdleKey_clear hclear] at hkey
      obtain ⟨rfl, rfl⟩ := Prod.mk.inj (Option.some.inj hkey)
      obtain rfl := hsame
      exact .cleared hidle
  · obtain ⟨input, -, hsame⟩ := Option.map_eq_some_iff.1 hstep
    obtain rfl := hsame
    exact .quiet (.composer ..) (.inl hidle.symm)
  · obtain rfl := Option.some.inj hstep
    exact .quiet (.refl _) (.inl hidle.symm)

theorem render_undisturbed {symbols : String → List Symbol} {app app' : ChatApp} {areas : Areas}
    {drawn : Drawn} (h : app.render symbols areas = some (app', drawn)) : Undisturbed app app' := by
  have hclamp : Undisturbed app app.clampSelection := by
    rw [ChatApp.clampSelection]
    split
    · exact .composer app ..
    · exact .refl app
  have hdraw : Undisturbed app.clampSelection
      (app.clampSelection.renderTranscript symbols areas.width areas.height).1 := by
    rw [ChatApp.renderTranscript]
    split
    · exact .composer ..
    · exact .composer ..
  obtain ⟨input, -, hsame⟩ := Option.map_eq_some_iff.1 h
  obtain ⟨rfl, -⟩ := Prod.mk.inj hsame
  exact hclamp.trans hdraw

/-- **Every step does one of these things.** -/
theorem step_moves {symbols : String → List Symbol} {compactJson : Value → String} {input : Input}
    (hstep : s.step symbols compactJson input = some s') : Moves s (s.occurs input) s' := by
  rcases input with areas | ⟨event, answer⟩ | next
  · obtain ⟨⟨app, drawn⟩, hdraw, hsame⟩ := Option.map_eq_some_iff.1 hstep
    obtain rfl := hsame
    exact .quiet (render_undisturbed hdraw) (.inl rfl)
  · rw [Session.step] at hstep
    split at hstep
    · rename_i hidle
      exact idleEvent_moves hidle hstep
    · rename_i interruptRequested hrunning
      obtain rfl := Option.some.inj hstep
      exact runningEvent_moves hrunning event answer
    · rename_i hended
      obtain rfl := Option.some.inj hstep
      rcases event with key | _ | _
      · rw [Session.occurs, hended]
        split
        · exact .quiet (.refl _) (.inl rfl)
        · exact .quiet (.refl _) (.inl rfl)
      · exact .quiet (.refl _) (.inl rfl)
      · exact .quiet (.refl _) (.inl rfl)
  · rw [Session.step] at hstep
    split at hstep
    · rename_i interruptRequested hrunning
      obtain rfl := Option.some.inj hstep
      exact streamed_moves compactJson hrunning next
    · rename_i hidle
      obtain rfl := Option.some.inj hstep
      rw [Session.occurs, hidle]
      exact .quiet (.refl _) (.inl rfl)
    · rename_i hended
      obtain rfl := Option.some.inj hstep
      rw [Session.occurs, hended]
      exact .quiet (.refl _) (.inl rfl)

end

/-! ## Turns -/

/-- A turn is started, and not refused. -/
def Started : Occurrence → Prop
  | .asked (.start _ _) (.ok ()) => True
  | _ => False

def Interrupted : Occurrence → Prop
  | .asked .interrupt (.ok ()) => True
  | _ => False

/-- A turn has been started and its stream is not over. -/
def TurnRuns (log : List Occurrence) : Prop := Since (· = .over) Started log

/-- The turn that runs has been interrupted. -/
def Interrupting (log : List Occurrence) : Prop := Since (· = .over) Interrupted log

/-- What may occur next. -/
def Allowed (log : List Occurrence) : Occurrence → Prop
  | .asked .interrupt _ => TurnRuns log ∧ ¬ Interrupting log
  | .over => TurnRuns log
  | .asked (.start _ _) _ | .asked .compact _ | .cleared => ¬ TurnRuns log

theorem turnRuns_concat {log : List Occurrence} {x : Occurrence} :
    TurnRuns (log ++ [x]) ↔ Started x ∨ x ≠ .over ∧ TurnRuns log :=
  since_concat

theorem interrupting_concat {log : List Occurrence} {x : Occurrence} :
    Interrupting (log ++ [x]) ↔ Interrupted x ∨ x ≠ .over ∧ Interrupting log :=
  since_concat

/-- The session knows whether a turn is running and whether it was interrupted, and everything that
has occurred was allowed. -/
structure InTurn (log : List Occurrence) (s : Session) : Prop where
  allowed (before : List Occurrence) (x : Occurrence) (after : List Occurrence)
    (h : log = before ++ x :: after) : Allowed before x
  running (interruptRequested : Bool) (h : s.phase = .running interruptRequested) :
    TurnRuns log ∧ (Interrupting log ↔ interruptRequested = true) ∧
      s.app.busy = true ∧ s.app.turnRunning = true
  resting (h : ∀ interruptRequested, s.phase ≠ .running interruptRequested) :
    ¬ TurnRuns log ∧ ¬ Interrupting log
  idle (h : s.phase = .idle) : s.app.busy = false ∧ s.app.turnRunning = false

section

variable {log : List Occurrence} {s s' : Session}

theorem InTurn.allowed_concat (h : InTurn log s) {x : Occurrence} (hx : Allowed log x)
    (before : List Occurrence) (y : Occurrence) (after : List Occurrence)
    (hlog : log ++ [x] = before ++ y :: after) : Allowed before y := by
  rcases List.eq_nil_or_concat after with rfl | ⟨after, z, rfl⟩
  · obtain ⟨rfl, hsame⟩ := List.append_inj' hlog rfl
    rw [List.singleton_inj] at hsame
    exact hsame ▸ hx
  · rw [List.concat_eq_append, ← List.cons_append, ← List.append_assoc] at hlog
    exact h.allowed before y after (List.append_inj' hlog rfl).1

/-- A session at rest that something occurs in, and that is at rest after it. -/
theorem InTurn.rest (h : InTurn log s) {x : Occurrence} (hx : Allowed log x)
    (hphase : ∀ r, s'.phase ≠ .running r) (hruns : ¬ TurnRuns (log ++ [x]))
    (hinterrupting : ¬ Interrupting (log ++ [x]))
    (hidle : s'.phase = .idle → s'.app.busy = false ∧ s'.app.turnRunning = false) :
    InTurn (log ++ [x]) s' :=
  ⟨h.allowed_concat hx, fun r hr => absurd hr (hphase r), fun _ => ⟨hruns, hinterrupting⟩, hidle⟩

theorem InTurn.quiet (h : InTurn log s) {app : ChatApp} {phase : Phase}
    (happ : Undisturbed s.app app) (hphase : phase = s.phase ∨ s.phase = .idle ∧ phase = .ended) :
    InTurn log ⟨app, phase⟩ := by
  rcases hphase with rfl | ⟨hidle, rfl⟩
  · refine ⟨h.allowed, fun r hr => ?_, h.resting, fun hidle => ?_⟩
    · obtain ⟨hruns, hinterrupting, hbusy, hturn⟩ := h.running r hr
      exact ⟨hruns, hinterrupting, happ.busy_eq.trans hbusy, happ.turnRunning_eq.trans hturn⟩
    · obtain ⟨hbusy, hturn⟩ := h.idle hidle
      exact ⟨happ.busy_eq.trans hbusy, happ.turnRunning_eq.trans hturn⟩
  · exact ⟨h.allowed, by simp, fun _ => h.resting (by simp [hidle]), by simp⟩

/-- What is submitted is submitted between two turns. -/
theorem InTurn.submitted (h : InTurn log s) (hidle : s.phase = .idle) {app : ChatApp}
    (hbusy : app.busy = false ∧ app.turnRunning = false) {input : ParsedInput}
    {occurrence : Option Occurrence} (hs : Submits app input occurrence s') :
    InTurn (log ++ occurrence.toList) s' := by
  obtain ⟨hruns, hinterrupting⟩ := h.resting (by simp [hidle])
  rcases hs with ⟨happ, -, hphase⟩ | _ | ⟨answer, happ⟩ | hprompt | ⟨hprompt, error, message⟩
  · rw [Option.toList_none, List.append_nil]
    refine ⟨h.allowed, fun r hr => absurd hr (hphase r), fun _ => ⟨hruns, hinterrupting⟩, ?_⟩
    exact fun _ => ⟨happ.busy_eq.trans hbusy.1, happ.turnRunning_eq.trans hbusy.2⟩
  · refine h.rest hruns (by simp) ?_ ?_ fun _ => hbusy
    · simp [turnRuns_concat, Started, hruns]
    · simp [interrupting_concat, Interrupted, hinterrupting]
  · refine h.rest hruns (by simp) ?_ ?_ fun _ => ?_
    · simp [turnRuns_concat, Started, hruns]
    · simp [interrupting_concat, Interrupted, hinterrupting]
    · exact ⟨happ.busy_eq.trans hbusy.1, happ.turnRunning_eq.trans hbusy.2⟩
  · refine ⟨h.allowed_concat hruns, fun r hr => ?_, fun hrest => absurd rfl (hrest false), by simp⟩
    obtain rfl : false = r := by simpa using hr
    refine ⟨turnRuns_concat.2 (.inl trivial), ?_, rfl, rfl⟩
    simp [interrupting_concat, Interrupted, hinterrupting]
  · refine h.rest hruns (by simp) ?_ ?_ fun _ => ⟨rfl, rfl⟩
    · simp [turnRuns_concat, Started, hruns]
    · simp [interrupting_concat, Interrupted, hinterrupting]

/-- The stream of the turn that runs is over. -/
theorem InTurn.ends (h : InTurn log s) {interruptRequested : Bool}
    (hrunning : s.phase = .running interruptRequested) (hphase : ∀ r, s'.phase ≠ .running r)
    (hidle : s'.phase = .idle → s'.app.busy = false ∧ s'.app.turnRunning = false) :
    InTurn (log ++ [.over]) s' := by
  refine h.rest (h.running _ hrunning).1 hphase ?_ ?_ hidle
  · simp [turnRuns_concat, Started]
  · simp [interrupting_concat, Interrupted]

theorem InTurn.step (h : InTurn log s) {occurrence : Option Occurrence}
    (hstep : Moves s occurrence s') : InTurn (log ++ occurrence.toList) s' := by
  rcases hstep with ⟨happ, hphase⟩ | hidle | ⟨hidle, hs⟩ | ⟨error, hrunning, happ⟩ |
    ⟨hrunning, happ⟩ | ⟨hrunning, happ⟩ | hrunning
  · rw [Option.toList_none, List.append_nil]
    exact h.quiet happ hphase
  · exact h.submitted hidle (h.idle hidle) .cleared
  · have hbusy : s.app.submitInput.busy = false ∧ s.app.submitInput.turnRunning = false :=
      h.idle hidle
    exact h.submitted hidle hbusy hs
  · obtain ⟨hruns, hinterrupting, hbusy, hturn⟩ := h.running _ hrunning
    have hnot : ¬ Interrupting log := by simp [hinterrupting]
    refine ⟨h.allowed_concat ⟨hruns, hnot⟩, fun r hr => ?_, fun hrest => absurd rfl (hrest false),
      by simp⟩
    obtain rfl : false = r := by simpa using hr
    refine ⟨turnRuns_concat.2 (.inr ⟨by simp, hruns⟩), ?_, happ.busy_eq.trans hbusy,
      happ.turnRunning_eq.trans hturn⟩
    simp [interrupting_concat, Interrupted, hnot]
  · obtain ⟨hruns, hinterrupting, hbusy, hturn⟩ := h.running _ hrunning
    have hnot : ¬ Interrupting log := by simp [hinterrupting]
    refine ⟨h.allowed_concat ⟨hruns, hnot⟩, fun r hr => ?_, fun hrest => absurd rfl (hrest true),
      by simp⟩
    obtain rfl : true = r := by simpa using hr
    refine ⟨turnRuns_concat.2 (.inr ⟨by simp, hruns⟩), ?_, happ.busy_eq.trans hbusy,
      happ.turnRunning_eq.trans hturn⟩
    simp [interrupting_concat, Interrupted]
  · exact h.ends hrunning (by simp) fun _ => ⟨rfl, rfl⟩
  · exact h.ends hrunning (by simp) (by simp)

end

section

variable {symbols : String → List Symbol} {compactJson : Value → String}

/-- The session starts with the prompt of the command line as if it had been submitted. -/
theorem start_submits (app : ChatApp) (initialPrompt : Option (String × Except String Unit)) :
    Submits app (initialInput initialPrompt) (initialOccurrence app.effort initialPrompt)
      (.start app initialPrompt) := by
  rcases initialPrompt with _ | ⟨prompt, answer⟩
  · exact .quiet (.refl app) rfl (by simp)
  · exact startTurn_cases app prompt answer

/-- **Requests are made in turn.**  Whatever happens in a session, a turn is started, and the thread
compacted, only while no turn is running; only the turn that is running is interrupted, and not
again once it was; and the app is busy just while a turn is running. -/
theorem requests_in_turn (skills : List String) (effort : ModelReasoningEffort)
    (finalResponseOnly jsonOutput : Bool) (initialPrompt : Option (String × Except String Unit))
    {log : List Occurrence} {s : Session}
    (h : Happens symbols compactJson (.new skills effort finalResponseOnly jsonOutput)
      initialPrompt log s) : InTurn log s := by
  induction h with
  | start =>
    have hempty : InTurn [] ⟨.new skills effort finalResponseOnly jsonOutput, .idle⟩ :=
      ⟨by simp, by simp, fun _ => ⟨not_since_nil, not_since_nil⟩, fun _ => ⟨rfl, rfl⟩⟩
    exact hempty.submitted rfl ⟨rfl, rfl⟩ (start_submits _ initialPrompt)
  | step _ hstep ih => exact ih.step (step_moves hstep)

end

/-! ## The history as a script -/

/-- The effort that is set after these lines. -/
def lastEffort (effort : ModelReasoningEffort) (lines : List String) : ModelReasoningEffort :=
  lines.foldl (fun effort line => effortAfter effort (parseInput line)) effort

/-- The requests these lines lead to, one after another. -/
def replay (effort : ModelReasoningEffort) : List String → List Request
  | [] => []
  | line :: lines =>
    (requestOf effort (parseInput line)).toList ++
      replay (effortAfter effort (parseInput line)) lines

/-- The request of an occurrence, unless it is to interrupt. -/
def scripted : Occurrence → Option Request
  | .asked .interrupt _ => none
  | .asked request _ => some request
  | .over | .cleared => none

def promptOf : Occurrence → Option String
  | .asked (.start prompt _) _ => some prompt
  | _ => none

def isCleared : Occurrence → Bool
  | .cleared => true
  | _ => false

/-- The prompts since the transcript was last cleared. -/
def shownPrompts (log : List Occurrence) : List String :=
  (log.rtakeWhile (!isCleared ·)).filterMap promptOf

theorem lastEffort_concat (effort : ModelReasoningEffort) (lines : List String) (line : String) :
    lastEffort effort (lines ++ [line]) =
      effortAfter (lastEffort effort lines) (parseInput line) := by
  rw [lastEffort, List.foldl_append]
  rfl

theorem replay_concat (effort : ModelReasoningEffort) (lines : List String) (line : String) :
    replay effort (lines ++ [line]) =
      replay effort lines ++ (requestOf (lastEffort effort lines) (parseInput line)).toList := by
  induction lines generalizing effort with
  | nil =>
    simp [replay, lastEffort]
  | cons first lines ih =>
    rw [List.cons_append, replay, replay, ih, List.append_assoc]
    rfl

theorem shownPrompts_concat (log : List Occurrence) (x : Occurrence) :
    shownPrompts (log ++ [x]) =
      if isCleared x then [] else shownPrompts log ++ (promptOf x).toList := by
  rw [shownPrompts, List.rtakeWhile_concat]
  rcases isCleared x with _ | _
  · simp only [Bool.not_false, if_true, Bool.false_eq_true, if_false, List.filterMap_append,
      shownPrompts]
    rcases hprompt : promptOf x with _ | prompt
    · simp [hprompt]
    · simp [hprompt]
  · simp

/-- The requests but for interrupts are those of the lines, the effort is the one that the lines
set, and the transcript shows the prompts. -/
structure Replays (effort : ModelReasoningEffort)
    (initialPrompt : Option (String × Except String Unit)) (log : List Occurrence) (s : Session) :
    Prop where
  requests_eq : log.filterMap scripted =
    (requestOf effort (initialInput initialPrompt)).toList ++ replay effort s.app.history
  effort_eq : s.app.effort = lastEffort effort s.app.history
  said_eq : said s.app.transcript = shownPrompts log

section

variable {log : List Occurrence} {s s' : Session} {app : ChatApp} {effort : ModelReasoningEffort}
  {initialPrompt : Option (String × Except String Unit)}

/-- Submitting an input makes its request, sets its effort and shows its prompt. -/
theorem Submits.replays {input : ParsedInput} {occurrence : Option Occurrence}
    (hs : Submits app input occurrence s') (hsaid : said app.transcript = shownPrompts log) :
    occurrence.toList.filterMap scripted = (requestOf app.effort input).toList ∧
      s'.app.history = app.history ∧ s'.app.effort = effortAfter app.effort input ∧
      said s'.app.transcript = shownPrompts (log ++ occurrence.toList) := by
  rcases hs with ⟨happ, hrequest, -⟩ | _ | ⟨answer, happ⟩ | hprompt | ⟨hprompt, error, message⟩
  · rw [hrequest, Option.toList_none, List.append_nil, ← hsaid]
    exact ⟨rfl, happ.history_eq, happ.effort_eq, happ.said_eq⟩
  · refine ⟨rfl, rfl, rfl, ?_⟩
    rw [Option.toList_some, shownPrompts_concat]
    rfl
  · refine ⟨rfl, happ.history_eq, happ.effort_eq, ?_⟩
    rw [Option.toList_some, shownPrompts_concat, happ.said_eq, hsaid]
    simp [isCleared, promptOf]
  · refine ⟨?_, rfl, rfl, ?_⟩
    · rw [requestOf, if_neg hprompt]
      rfl
    · rw [Option.toList_some, shownPrompts_concat, ← hsaid]
      exact said_user _ _
  · refine ⟨?_, rfl, rfl, ?_⟩
    · rw [requestOf, if_neg hprompt]
      rfl
    · rw [Option.toList_some, shownPrompts_concat, ← hsaid]
      exact (said_concat (by simp) _).trans (said_user _ _)

/-- The input that is taken is the line that goes to the history; a blank one is no line. -/
theorem submitInput_replays (app : ChatApp) (effort : ModelReasoningEffort) :
    replay effort app.submitInput.history = replay effort app.history ++
        (requestOf (lastEffort effort app.history) (parseInput app.input.text)).toList ∧
      lastEffort effort app.submitInput.history =
        effortAfter (lastEffort effort app.history) (parseInput app.input.text) := by
  show replay effort (if trim app.input.text.toList = [] then app.history
      else app.history ++ [app.input.text]) = _ ∧
    lastEffort effort (if trim app.input.text.toList = [] then app.history
      else app.history ++ [app.input.text]) = _
  split
  · rename_i hblank
    rw [parseInput, hblank]
    exact ⟨(List.append_nil _).symm, rfl⟩
  · exact ⟨replay_concat .., lastEffort_concat ..⟩

/-- Nothing is asked for but an interrupt, and nothing is said or cleared. -/
theorem Replays.other (h : Replays effort initialPrompt log s) {x : Occurrence}
    (hscripted : scripted x = none) (hprompt : promptOf x = none) (hcleared : isCleared x = false)
    (heffort : s'.app.effort = s.app.effort) (hhistory : s'.app.history = s.app.history)
    (hsaid : said s'.app.transcript = said s.app.transcript) :
    Replays effort initialPrompt (log ++ [x]) s' := by
  refine ⟨?_, ?_, ?_⟩
  · rw [List.filterMap_append, h.requests_eq, hhistory]
    simp [hscripted]
  · rw [heffort, hhistory, h.effort_eq]
  · rw [hsaid, h.said_eq, shownPrompts_concat, hcleared, hprompt]
    simp

theorem Replays.step (h : Replays effort initialPrompt log s) {occurrence : Option Occurrence}
    (hstep : Moves s occurrence s') :
    Replays effort initialPrompt (log ++ occurrence.toList) s' := by
  rcases hstep with ⟨happ, -⟩ | hidle | ⟨hidle, hs⟩ | ⟨error, hrunning, happ⟩ |
    ⟨hrunning, happ⟩ | ⟨hrunning, happ⟩ | hrunning
  · rw [Option.toList_none, List.append_nil]
    exact ⟨happ.history_eq ▸ h.requests_eq, by rw [happ.effort_eq, happ.history_eq, h.effort_eq],
      happ.said_eq.trans h.said_eq⟩
  · refine ⟨?_, h.effort_eq, ?_⟩
    · rw [List.filterMap_append]
      exact (List.append_nil _).trans h.requests_eq
    · rw [Option.toList_some, shownPrompts_concat]
      rfl
  · obtain ⟨hrequests, hhistory, heffort, hsaid⟩ := hs.replays h.said_eq
    obtain ⟨hreplay, hlast⟩ := submitInput_replays s.app effort
    have hset : s.app.submitInput.effort = lastEffort effort s.app.history := h.effort_eq
    refine ⟨?_, ?_, hsaid⟩
    · rw [List.filterMap_append, h.requests_eq, hrequests, hhistory, hreplay, hset,
        List.append_assoc]
    · rw [heffort, hhistory, hlast, hset]
  · exact h.other rfl rfl rfl happ.effort_eq happ.history_eq happ.said_eq
  · exact h.other rfl rfl rfl happ.effort_eq happ.history_eq happ.said_eq
  · exact h.other rfl rfl rfl happ.effort_eq happ.history_eq happ.said_eq
  · exact h.other rfl rfl rfl rfl rfl rfl

/-- The prompt of the command line is the first request. -/
theorem start_replays (skills : List String) (effort : ModelReasoningEffort)
    (finalResponseOnly jsonOutput : Bool)
    (initialPrompt : Option (String × Except String Unit)) :
    Replays effort initialPrompt (initialOccurrence effort initialPrompt).toList
      (.start (.new skills effort finalResponseOnly jsonOutput) initialPrompt) := by
  obtain ⟨hrequests, hhistory, heffort, hsaid⟩ := Submits.replays
    (start_submits (.new skills effort finalResponseOnly jsonOutput) initialPrompt)
    (show said [] = shownPrompts [] from rfl)
  have hset : effortAfter effort (initialInput initialPrompt) = effort := by
    rcases initialPrompt with _ | ⟨prompt, answer⟩ <;> rfl
  refine ⟨?_, ?_, hsaid⟩
  · rw [hhistory]
    exact hrequests.trans (List.append_nil _).symm
  · rw [hhistory]
    exact heffort.trans hset

/-- **The history replays the session.**  Whatever happens in a session, the turns started and the
compactions asked for are, in that order, the prompt of the command line and what the lines of the
history say, each turn with the effort that was set when its line was submitted; and the transcript
shows the prompts since it was last cleared. -/
theorem requests_replayed {symbols : String → List Symbol} {compactJson : Value → String}
    (skills : List String) (effort : ModelReasoningEffort) (finalResponseOnly jsonOutput : Bool)
    (initialPrompt : Option (String × Except String Unit)) {log : List Occurrence} {s : Session}
    (h : Happens symbols compactJson (.new skills effort finalResponseOnly jsonOutput)
      initialPrompt log s) : Replays effort initialPrompt log s := by
  induction h with
  | start => exact start_replays skills effort finalResponseOnly jsonOutput initialPrompt
  | step _ hstep ih => exact ih.step (step_moves hstep)

end

/-! ## A session -/

/-- What occurs with these inputs, and the session they lead to. -/
def Session.runLog (symbols : String → List Symbol) (compactJson : Value → String) (s : Session) :
    List Input → Option (List Occurrence × Session)
  | [] => some ([], s)
  | input :: inputs => do
    let s' ← s.step symbols compactJson input
    let (log, last) ← s'.runLog symbols compactJson inputs
    return ((s.occurs input).toList ++ log, last)

theorem happens_runLog {symbols : String → List Symbol} {compactJson : Value → String}
    {app : ChatApp} {initialPrompt : Option (String × Except String Unit)} {inputs : List Input}
    {log log' : List Occurrence} {s s' : Session}
    (h : Happens symbols compactJson app initialPrompt log s)
    (hrun : s.runLog symbols compactJson inputs = some (log', s')) :
    Happens symbols compactJson app initialPrompt (log ++ log') s' := by
  induction inputs generalizing log log' s with
  | nil =>
    obtain ⟨rfl, rfl⟩ := Prod.mk.inj (Option.some.inj hrun)
    rwa [List.append_nil]
  | cons input inputs ih =>
    obtain ⟨s₁, hstep, hrest⟩ := Option.bind_eq_some_iff.1 hrun
    obtain ⟨⟨log₁, last⟩, hlast, hsame⟩ := Option.bind_eq_some_iff.1 hrest
    obtain ⟨rfl, rfl⟩ := Prod.mk.inj (Option.some.inj hsame)
    rw [← List.append_assoc]
    exact ih (h.step hstep) hlast

/-- An effort is typed, and then a prompt whose turn is interrupted twice. -/
def interruptedTurn : List Input :=
  [.terminal (.paste "/effort low") (.ok ()), pressed .enter, .terminal (.paste "hi") (.ok ()),
    pressed .enter, .terminal (.key ⟨.char 'c', 2, .press⟩) (.ok ()),
    .terminal (.key ⟨.char 'c', 2, .press⟩) (.ok ())]

/-- The turn is running, and it was interrupted once. -/
theorem requests_in_turn_interrupted : ∃ (log : List Occurrence) (s : Session),
    Happens (fun _ => []) (fun _ => "") (.new [] .max false false) none log s ∧
      log.length = 2 ∧ TurnRuns log ∧ Interrupting log := by
  obtain ⟨log, s, hrun, hphase, hlength⟩ : ∃ log s,
      (Session.start (.new [] .max false false) none).runLog (fun _ => []) (fun _ => "")
        interruptedTurn = some (log, s) ∧ s.phase = .running true ∧ log.length = 2 :=
    ⟨_, _, rfl, rfl, rfl⟩
  have h := happens_runLog .start hrun
  obtain ⟨hruns, hinterrupting, -⟩ :=
    (requests_in_turn [] .max false false none h).running true hphase
  exact ⟨_, s, h, hlength, hruns, hinterrupting.2 rfl⟩

/-- One turn was started, with the effort that was set. -/
theorem requests_replayed_interrupted : ∃ (log : List Occurrence) (s : Session),
    Happens (fun _ => []) (fun _ => "") (.new [] .max false false) none log s ∧
      s.app.history = ["/effort low", "hi"] ∧ log.filterMap scripted = [.start "hi" .low] := by
  obtain ⟨log, s, hrun, hhistory⟩ : ∃ log s,
      (Session.start (.new [] .max false false) none).runLog (fun _ => []) (fun _ => "")
        interruptedTurn = some (log, s) ∧ s.app.history = ["/effort low", "hi"] :=
    ⟨_, _, rfl, by decide⟩
  have h := happens_runLog .start hrun
  have hrequests := (requests_replayed [] .max false false none h).requests_eq
  rw [hhistory] at hrequests
  exact ⟨_, s, h, hhistory, hrequests⟩

end CodexSdk.Luna.Composer

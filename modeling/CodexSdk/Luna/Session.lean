import CodexSdk.Luna.Draw

/-!
# A session of the chat

The loops of `commands/chat.rs`: what a key or a paste leads to while the chat is idle, commands
among them, and what goes on during a turn.

`composer_refines` says that no operation of the composer panics, whatever is done to it, and that
its input is edited like a zipper of characters.
-/

set_option autoImplicit false

namespace CodexSdk.Luna.Composer

open Json Text

/-! ## Commands -/

inductive ChatCommand
  | help
  | compact
  | showEffort
  | setEffort (effort : ModelReasoningEffort)
  | skills
  | insertSkill (skill : String)
  | clear
  | quit
  | unknown (command : String)

inductive ParsedInput
  | empty
  | prompt (prompt : String)
  | command (command : ChatCommand)

/-- `ModelReasoningEffort::from_str`. -/
def effortOf (raw : String) : Option ModelReasoningEffort :=
  match raw with
  | "none" => some .none
  | "minimal" => some .minimal
  | "low" => some .low
  | "medium" => some .medium
  | "high" => some .high
  | "xhigh" => some .xHigh
  | "max" => some .max
  | "ultra" => some .ultra
  | _ => none

def parseCommand (input : List Char) : ChatCommand :=
  let (command, argument) := match splitOnceWhitespace input with
    | none => (input, [])
    | some (command, argument) => (command, trim argument)
  match String.ofList (toAsciiLowercase command) with
  | "/help" => .help
  | "/compact" => .compact
  | "/effort" =>
    if argument = [] then .showEffort
    else match effortOf (String.ofList argument) with
      | some effort => .setEffort effort
      | none => .unknown (String.ofList input)
  | "/skills" => .skills
  | "/skill" =>
    if argument = [] then .unknown (String.ofList input) else .insertSkill (String.ofList argument)
  | "/clear" => .clear
  | "/quit" | "/exit" => .quit
  | _ => .unknown (String.ofList input)

def parseInput (raw : String) : ParsedInput :=
  match trim raw.toList with
  | [] => .empty
  | '/' :: '/' :: literal => .prompt ("/" ++ String.ofList literal)
  | '/' :: input => .command (parseCommand ('/' :: input))
  | input => .prompt (String.ofList input)

def helpText : String :=
  "/compact          compact conversation context\n" ++
  "/effort [level]    show or set effort\n" ++
  "/skills            list enabled skills\n" ++
  "/skill <name>      insert $name into the composer\n" ++
  "/clear             clear the visible transcript\n" ++
  "/quit              leave chat\n\n" ++
  "Tab accepts the ghost suggestion. Up/Down selects suggestions or history. " ++
  "PgUp/PgDn scrolls. Ctrl-C clears input or interrupts a running turn. " ++
  "Ctrl-D exits from an empty composer. Prefix a prompt with // to send a literal leading /."

namespace ChatApp

def appendStatus (app : ChatApp) (message : String) : ChatApp :=
  { app with toChatApp := app.toChatApp.appendStatus message }

def appendError (app : ChatApp) (message : String) : ChatApp :=
  { app with toChatApp := app.toChatApp.appendError message }

def finishTurnWithError (app : ChatApp) (message : String) : ChatApp :=
  { app with toChatApp := app.toChatApp.finishTurnWithError message }

/-- The app after a command, and whether the chat is left.  `answer` is what the app server makes of
a request to compact. -/
def executeCommand (app : ChatApp) (answer : Except String Unit) : ChatCommand → ChatApp × Bool
  | .help => (app.appendStatus helpText, false)
  | .compact =>
    let app := match answer with
      | .ok () => app.appendStatus "Compaction requested."
      | .error error => app.appendError s!"Compaction failed: {error}"
    ({ app with status := "ready" }, false)
  | .showEffort =>
    let available := ", ".intercalate efforts
    (app.appendStatus
      s!"Current reasoning effort: {app.effort.asStr}\nAvailable: {available}", false)
  | .setEffort effort =>
    ({ app with effort := effort }.appendStatus
      s!"Reasoning effort set to {effort.asStr} for subsequent turns.", false)
  | .skills =>
    (app.appendStatus (if app.skills.isEmpty then
        "No enabled skills were reported for this working directory."
      else "Enabled skills (type `$` or `/skill ` to complete):\n" ++
        "\n".intercalate app.skills), false)
  | .insertSkill skill =>
    if !app.skills.isEmpty && !app.skills.contains skill then
      (app.appendError s!"Unknown skill: {skill}", false)
    else
      ({ app with input := .set s!"${skill} " }.appendStatus
        s!"Inserted skill mention `${skill}`.", false)
  | .clear => (app.clearTranscript, false)
  | .quit => (app, true)
  | .unknown command =>
    (app.appendError <| s!"Unknown chat command `{command}`. Type `/help` for available commands; " ++
      "use `//` to send a prompt beginning with `/`.", false)

/-- What keys do during a turn. -/
def handleScrollingKey (app : ChatApp) (key : KeyEvent) : ChatApp :=
  match key.code with
  | .pageUp | .up => app.scrollUp app.pageStep
  | .pageDown | .down => app.scrollDown app.pageStep
  | .home => if key.control then { app with followTail := false, scroll := 0 } else app
  | .end => if key.control then { app with followTail := true } else app
  | _ => app

end ChatApp

/-! ## Sessions -/

inductive Phase
  | idle
  | running (interruptRequested : Bool)
  | ended
  deriving DecidableEq

structure Session where
  app : ChatApp
  phase : Phase

/-- An event of the terminal; `other` is a resize, a focus or the mouse. -/
inductive Event
  | key (key : KeyEvent)
  | paste (text : String)
  | other

/-- What happens to a session.  With an event comes what the app server answers to the request the
event leads to, if it leads to one. -/
inductive Input
  | draw (areas : Areas)
  | terminal (event : Event) (answer : Except String Unit)
  | stream (next : Option StreamItem)

/-- `str::split_whitespace`, joined by blanks. -/
def singleLine (input : String) : String :=
  " ".intercalate (((input.toList.splitOnP isWhitespace).filter (· ≠ [])).map String.ofList)

namespace Session

/-- The first half of `run_prompt`; a blank prompt is dropped. -/
def startTurn (app : ChatApp) (prompt : String) (answer : Except String Unit) : Session :=
  if trim prompt.toList = [] then ⟨app, .idle⟩
  else
    let app := { app with toChatApp := app.toChatApp.submitUserMessage prompt }
    match answer with
    | .ok () => ⟨app, .running false⟩
    | .error error => ⟨app.finishTurnWithError s!"could not start turn: {error}", .idle⟩

/-- A session with a new app, and the turn for the prompt of the command line if there is one. -/
def start (app : ChatApp) (initialPrompt : Option (String × Except String Unit)) : Session :=
  match initialPrompt with
  | none => ⟨app, .idle⟩
  | some (prompt, answer) => startTurn app prompt answer

def submit (app : ChatApp) (input : String) (answer : Except String Unit) : Session :=
  match parseInput input with
  | .empty => ⟨app, .idle⟩
  | .prompt prompt => startTurn app prompt answer
  | .command command =>
    let (app, quit) := app.executeCommand answer command
    ⟨app, if quit then .ended else .idle⟩

def idleEvent (app : ChatApp) (answer : Except String Unit) : Event → Option Session
  | .key key =>
    if acceptsKey key then
      (app.handleIdleKey key).map fun (action, app) =>
        match action with
        | .none => ⟨app, .idle⟩
        | .quit => ⟨app, .ended⟩
        | .submit input => submit app input answer
    else some ⟨app, .idle⟩
  | .paste text => (app.input.insertStr (singleLine text)).map fun input => ⟨{ app with input }, .idle⟩
  | .other => some ⟨app, .idle⟩

def runningEvent (app : ChatApp) (interruptRequested : Bool) (answer : Except String Unit) :
    Event → Session
  | .key key =>
    if acceptsKey key && isCtrl key 'c' then
      if interruptRequested then
        ⟨{ app with status := "interrupt already requested" }, .running true⟩
      else match answer with
        | .ok () => ⟨{ app with status := "interrupt requested" }, .running true⟩
        | .error error =>
          ⟨app.appendError s!"could not interrupt turn: {error}", .running false⟩
    else if acceptsKey key then ⟨app.handleScrollingKey key, .running interruptRequested⟩
    else ⟨app, .running interruptRequested⟩
  | .paste _ | .other => ⟨app, .running interruptRequested⟩

section

variable (symbols : String → List Symbol) (compactJson : Value → String)

/-- An error in the stream ends the chat. -/
def streamed (app : ChatApp) (interruptRequested : Bool) : Option StreamItem → Session
  | none => ⟨app.finishTurnWithError "stream closed before turn completion", .idle⟩
  | some (.error _) => ⟨app, .ended⟩
  | some (.ok event) =>
    let app := { app with toChatApp := app.toChatApp.consumeThreadEvent compactJson event }
    match event with
    | .turnCompleted _ => ⟨{ app with toChatApp := app.toChatApp.finishTurn }, .idle⟩
    | .turnFailed error => ⟨app.finishTurnWithError s!"turn failed: {error.message}", .idle⟩
    | .error message => ⟨app.finishTurnWithError s!"stream error: {message}", .idle⟩
    | _ => ⟨app, .running interruptRequested⟩

def step (s : Session) : Input → Option Session
  | .draw areas => (s.app.render symbols areas).map fun (app, _) => ⟨app, s.phase⟩
  | .terminal event answer =>
    match s.phase with
    | .idle => idleEvent s.app answer event
    | .running interruptRequested => some (runningEvent s.app interruptRequested answer event)
    | .ended => some s
  | .stream next =>
    match s.phase with
    | .running interruptRequested => some (streamed compactJson s.app interruptRequested next)
    | .idle | .ended => some s

def run (s : Session) (inputs : List Input) : Option Session :=
  inputs.foldlM (step symbols compactJson) s

end

end Session

/-! ## The composer as a zipper -/

/-- What can be done to the composer, by the user or by a command, and drawing it. -/
inductive Action
  | key (key : KeyEvent)
  | paste (text : String)
  | insertSkill (skill : String)
  | clearTranscript
  | draw (areas : Areas)

def ChatApp.act (symbols : String → List Symbol) (app : ChatApp) : Action → Option ChatApp
  | .key key => (app.handleIdleKey key).map Prod.snd
  | .paste text => (app.input.insertStr (singleLine text)).map fun input => { app with input }
  | .insertSkill skill => some { app with input := .set s!"${skill} " }
  | .clearTranscript => some app.clearTranscript
  | .draw areas => (app.render symbols areas).map Prod.fst

/-- The operations of a buffer are those of the zipper of its characters. -/
structure EditsLike (b : InputBuffer) (z : Zipper Char) : Prop where
  eq_ofZipper : b = .ofZipper z
  insert (c : Char) : b.insert c = some (.ofZipper (z.insert c))
  insertStr (text : String) : b.insertStr text = some (.ofZipper (z.insertList text.toList))
  backspace : b.backspace = some (.ofZipper z.backspace)
  delete : b.delete = some (.ofZipper z.delete)
  moveLeft : b.moveLeft = some (.ofZipper z.moveLeft)
  moveRight : b.moveRight = some (.ofZipper z.moveRight)

theorem editsLike_ofZipper (z : Zipper Char) : EditsLike (.ofZipper z) z :=
  ⟨rfl, InputBuffer.insert_ofZipper z, InputBuffer.insertStr_ofZipper z,
    InputBuffer.backspace_ofZipper z, InputBuffer.delete_ofZipper z,
    InputBuffer.moveLeft_ofZipper z, InputBuffer.moveRight_ofZipper z⟩

/-- A paste goes in at the place of the zipper. -/
theorem Sound.paste {app : ChatApp} (h : Sound app) (text : String) :
    ∃ input, app.input.insertStr text = some input ∧ Sound { app with input } := by
  obtain ⟨z, hz⟩ := h.input_eq
  rw [hz, InputBuffer.insertStr_ofZipper]
  exact ⟨_, rfl, ⟨_, rfl⟩, h.historyCursor_lt⟩

theorem Sound.act {app : ChatApp} (h : Sound app) (symbols : String → List Symbol)
    (action : Action) : ∃ app', app.act symbols action = some app' ∧ Sound app' := by
  rcases action with key | text | skill | _ | areas
  · obtain ⟨_, app', hkey, hstep⟩ := ChatApp.handleIdleKey_step h key
    exact ⟨app', by rw [ChatApp.act, hkey]; rfl, h.step hstep⟩
  · obtain ⟨input, hinput, hsound⟩ := h.paste (singleLine text)
    exact ⟨_, by rw [ChatApp.act, hinput]; rfl, hsound⟩
  · exact ⟨_, rfl, ⟨_, InputBuffer.set_eq _⟩, h.historyCursor_lt⟩
  · exact ⟨_, rfl, h.kept (.rest ..)⟩
  · obtain ⟨app', drawn, hdraw, hkept⟩ := render_step symbols h areas
    exact ⟨app', by rw [ChatApp.act, hdraw]; rfl, h.kept hkept⟩

theorem Sound.acts {app : ChatApp} (h : Sound app) (symbols : String → List Symbol)
    (actions : List Action) :
    ∃ app', actions.foldlM (ChatApp.act symbols) app = some app' ∧ Sound app' := by
  induction actions generalizing app with
  | nil => exact ⟨app, rfl, h⟩
  | cons action actions ih =>
    obtain ⟨app', hact, hsound⟩ := h.act symbols action
    rw [List.foldlM_cons, hact, Option.bind_eq_bind, Option.bind_some]
    exact ih hsound

/-- **The composer never panics**, and its input is a zipper of characters: whatever is done to a
new app, the cursor is on a character boundary of the text and the entry of the history that is
shown exists, anything can be done next, and the input is edited as the zipper is. -/
theorem composer_refines (symbols : String → List Symbol) (skills : List String)
    (effort : ModelReasoningEffort) (finalResponseOnly jsonOutput : Bool) (actions : List Action) :
    ∃ app, actions.foldlM (ChatApp.act symbols)
        (.new skills effort finalResponseOnly jsonOutput) = some app ∧
      app.input.cursor ≤ app.input.text.utf8ByteSize ∧
      String.Pos.Raw.IsValid app.input.text ⟨app.input.cursor⟩ ∧
      (∀ index ∈ app.historyCursor, index < app.history.length) ∧
      (∀ action, ∃ app', app.act symbols action = some app') ∧
      ∃ z, EditsLike app.input z := by
  obtain ⟨app, hrun, hsound⟩ :=
    (sound_new skills effort finalResponseOnly jsonOutput).acts symbols actions
  have hvalid := (InputBuffer.exists_zipper_iff app.input).1 hsound.input_eq
  refine ⟨app, hrun, hvalid.le_utf8ByteSize, hvalid, hsound.historyCursor_lt, fun action => ?_, ?_⟩
  · obtain ⟨app', hact, -⟩ := hsound.act symbols action
    exact ⟨app', hact⟩
  · obtain ⟨z, hz⟩ := hsound.input_eq
    exact ⟨z, hz ▸ editsLike_ofZipper z⟩

end CodexSdk.Luna.Composer

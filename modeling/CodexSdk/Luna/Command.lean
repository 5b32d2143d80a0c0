import CodexSdk.Luna.Config
import CodexSdk.Luna.Connection
import CodexSdk.Thread.Effect

/-!
# A run of `luna exec`

`exec.rs` and `turn.rs`: the prompt, the flags and the files they name are read, a server is reached
in the meantime, an account is made sure of, and one turn is run on a thread that is started or
resumed for it.

`exec_credentials` says what the server learns of the credentials in the environment, and when;
`exec_exit_codes` what the exit code says about the requests that have been made.
-/

set_option autoImplicit false

namespace CodexSdk.Luna

open Json Interleave

/-! ## Flags -/

inductive ResumeTarget
  | last
  | sessionId (sessionId : String)

/-- The flags of `luna exec`, of which the bearer token has been read already. -/
structure CliArgs where
  noDaemon : Bool
  agent : Option String
  workingDirectory : Option String
  websocketUrl : Option String
  wsAuthToken : Option String
  model : Option String
  modelProvider : Option String
  reasoningEffort : Option ModelReasoningEffort
  reasoningSummary : Option ModelReasoningSummary
  modelVerbosity : Option ModelVerbosity
  serviceTier : ServiceTier
  configProfile : Option String
  approvalPolicy : Option ApprovalMode
  sandboxMode : Option SandboxMode
  sandboxPolicyJson : Option String
  sandboxNetworkAccessEnabled : Option Bool
  sandboxWritableRoots : List String
  webSearchMode : Option WebSearchMode
  dynamicToolsJson : Option String
  personality : Option Personality
  baseInstructions : Option String
  developerInstructions : Option String
  ephemeral : Option Bool
  experimentalRawEvents : Option Bool
  persistExtendedHistory : Option Bool
  configEntries : List String
  configJson : Option String
  outputSchemaJson : Option String
  outputSchemaFile : Option String
  turnExtraJson : Option String
  resumeTarget : Option ResumeTarget
  finalResponseOnly : Bool
  jsonOutput : Bool
  transportMode : TransportMode
  promptParts : List String

def CliArgs.mode (cli : CliArgs) : Mode :=
  if cli.finalResponseOnly then .finalResponse else if cli.jsonOutput then .json else .human

def CliArgs.configSources (cli : CliArgs) : ConfigSources where
  configJson := cli.configJson
  configEntries := cli.configEntries
  webSearchMode := cli.webSearchMode
  configProfile := cli.configProfile
  modelVerbosity := cli.modelVerbosity
  sandboxNetworkAccessEnabled := cli.sandboxNetworkAccessEnabled
  sandboxWritableRoots := cli.sandboxWritableRoots

/-! ## What is read -/

/-- What a command reads besides its environment: the directory it is started in, its input, files,
and texts in JSON, each with the text of the error if it fails. -/
structure Process extends Surroundings where
  varOs : String → Option String
  currentDir : Except String String
  stdinIsTerminal : Bool
  readStdin : Except String String
  readFile : (path : String) → Except String String
  parseJson : String → Except String Value
  serde : DecodeError → String
  agentFiles : AgentFiles
  /-- Why the task that connects does not finish, if it does not. -/
  joinError : Option String

variable (process : Process)

def resolvePrompt (promptParts : List String) : Except LunaError String :=
  if !promptParts.isEmpty then .ok (" ".intercalate promptParts)
  else if process.stdinIsTerminal then
    .error (.usage "missing prompt; pass text args or pipe stdin")
  else match process.readStdin with
    | .error error => .error (.io error)
    | .ok piped => match trimmedText piped with
      | some prompt => .ok prompt
      | none => .error (.usage "stdin prompt is empty")

def resolveCurrentWorkingDirectory : Except LunaError String :=
  process.currentDir.mapError fun error => .config s!"failed to resolve current directory: {error}"

def websocketUrlFor (cli : CliArgs) : Except LunaError ResolvedWebsocketUrl :=
  if cli.transportMode = .stdio then .ok .implicit
  else resolveWebsocketUrl cli.websocketUrl (process.var "CODEX_APP_SERVER_WS_URL")
    (process.var "CODEX_WEB_SERVER_URL")

def parseOptionalJsonValue (raw : Option String) (flag : String) :
    Except LunaError (Option Value) :=
  match raw with
  | some raw => return some (← parseJsonValue process.parseJson raw flag)
  | none => .ok none

def resolveOutputSchema (outputSchemaJson outputSchemaFile : Option String) :
    Except LunaError (Option Value) :=
  match outputSchemaJson, outputSchemaFile with
  | some raw, _ => return some (← parseJsonValue process.parseJson raw "--output-schema-json")
  | none, none => .ok none
  | none, some path => match trimmedText path with
    | none => .error (.usage "value for --output-schema-file cannot be empty")
    | some path => do
      let raw ← (process.readFile path).mapError fun error =>
        .config s!"failed to read output schema file {path}: {error}"
      let schema ← (process.parseJson raw).mapError fun error =>
        .usage s!"failed to parse JSON in output schema file {path}: {error}"
      return some schema

/-- `CliDynamicToolSpec`, as an object or as an array of its fields. -/
def DynamicToolSpec.decode : Decode DynamicToolSpec
  | .object m => do
    let name ← Map.required m "name" Decode.string
    let description ← Map.required m "description" Decode.string
    let inputSchema ← Map.required m "inputSchema" Decode.value
    return ⟨name, description, inputSchema⟩
  | .array [name, description, inputSchema] => do
    return ⟨← Decode.string name, ← Decode.string description, inputSchema⟩
  | .array _ => .error .invalidLength
  | _ => .error (.invalidType "struct CliDynamicToolSpec")

/-- The entries from `index` on. -/
def decodeDynamicTools (index : Nat) : List Value → Except LunaError (List DynamicToolSpec)
  | [] => .ok []
  | item :: rest => do
    let spec ← (DynamicToolSpec.decode item).mapError fun error => .usage
      (s!"invalid --dynamic-tools-json entry at index {index}: " ++ process.serde error)
    return spec :: (← decodeDynamicTools (index + 1) rest)

def parseOptionalDynamicTools (raw : Option String) :
    Except LunaError (Option (List DynamicToolSpec)) :=
  match raw with
  | none => .ok none
  | some raw => do
    match ← parseJsonValue process.parseJson raw "--dynamic-tools-json" with
    | .array array => return some (← decodeDynamicTools process 0 array)
    | _ => throw (.usage "--dynamic-tools-json must be a JSON array")

/-- The instructions of the agent, if one is named. -/
def agentInstructions (agent : Option String) : Except LunaError (Option String) :=
  match agent with
  | none => .ok none
  | some agentName => do
    let agent ← loadAgentProfile process.agentFiles agentName process.varOs
    return some agent.instructions

/-! ## The turn -/

/-- What the flags say about the thread and the turn. -/
structure TurnSettings where
  threadOptions : ThreadOptions
  turnOptions : TurnOptions

def readSettings (cli : CliArgs) : Except LunaError TurnSettings := do
  let workingDirectory ← match cli.workingDirectory with
    | some path => pure path
    | none => resolveCurrentWorkingDirectory process
  let threadConfig ← buildThreadConfig process.parseJson cli.configSources
  let sandboxPolicy ← parseOptionalJsonValue process cli.sandboxPolicyJson "--sandbox-policy-json"
  let outputSchema ← resolveOutputSchema process cli.outputSchemaJson cli.outputSchemaFile
  let turnExtra ← parseOptionalJsonObject process.parseJson cli.turnExtraJson "--turn-extra-json"
  let dynamicTools ← parseOptionalDynamicTools process cli.dynamicToolsJson
  let agent ← agentInstructions process cli.agent
  return {
    threadOptions := {
      model := some (cli.model.getD "gpt-5.6-luna")
      workingDirectory := some workingDirectory
      serviceTier := some cli.serviceTier
      modelProvider := cli.modelProvider
      approvalPolicy := cli.approvalPolicy
      sandboxMode := cli.sandboxMode
      personality := cli.personality
      baseInstructions := cli.baseInstructions
      ephemeral := cli.ephemeral
      config := threadConfig
      dynamicTools := dynamicTools
      experimentalRawEvents := cli.experimentalRawEvents
      persistExtendedHistory := cli.persistExtendedHistory
      developerInstructions := cli.developerInstructions.or agent }
    turnOptions := {
      modelReasoningEffort := some (cli.reasoningEffort.getD .max)
      modelReasoningSummary := cli.reasoningSummary
      sandboxPolicy := sandboxPolicy
      outputSchema := outputSchema
      extra := turnExtra } }

/-- The connection, which is made in the background while the flags are read. -/
def connect (cli : CliArgs) (resolved : ResolvedWebsocketUrl) : Except LunaError Unit :=
  match process.joinError with
  | some error => .error (.transport s!"transport connect task failed: {error}")
  | none => match cli.transportMode with
    | .webSocket => connectWsCodex process.toSurroundings resolved.url
        (resolved.manageDaemon && !cli.noDaemon) cli.wsAuthToken
    | .stdio => spawnStdioCodex process.toSurroundings

def CliArgs.openThread (cli : CliArgs) (options : ThreadOptions) : Thread :=
  match cli.resumeTarget with
  | some .last => resumeThread .latest options
  | some (.sessionId sessionId) => resumeThread (.byId sessionId) options
  | none => startThread options

structure PreparedTurn where
  thread : Thread
  turnOptions : TurnOptions

/-- The outcome of the connection is asked for when the flags have been read. -/
def prepare (cli : CliArgs) : Command PreparedTurn := do
  let resolved ← .ofExcept (websocketUrlFor process cli)
  let settings ← .ofExcept (readSettings process cli)
  .ofExcept (connect process cli resolved)
  ensureAuthenticated process.toSurroundings
  return ⟨cli.openThread settings.threadOptions, settings.turnOptions⟩

section

variable (paint : Style → String → String) (compactJson : Value → String)
variable (jsonLine : ThreadEvent → String) (styling : Styling)

-- What the stream of a turn delivers until it is closed.
variable (delivers : StreamedTurn → List StreamItem)

def exec (cli : CliArgs) : Command Unit := do
  let prompt ← .ofExcept (resolvePrompt process cli.promptParts)
  let prepared ← prepare process cli
  let streamed ← Attempt.after (runStreamed (.text prompt) prepared.turnOptions prepared.thread)
    fun r => r.1.mapError cli.mode.wrap
  .ofExcept (outcome paint compactJson jsonLine styling cli.mode (delivers streamed))

end

/-! ## What a run exchanges -/

/-- What `prepare` settles before it asks the server anything. -/
def settled (cli : CliArgs) : Except LunaError TurnSettings := do
  let resolved ← websocketUrlFor process cli
  let settings ← readSettings process cli
  connect process cli resolved
  return settings

/-- What the command settles before. -/
def readied (cli : CliArgs) : Except LunaError (String × TurnSettings) := do
  let prompt ← resolvePrompt process cli.promptParts
  let settings ← settled process cli
  return (prompt, settings)

/-- What is exchanged about the thread and its turn, of whose stream `r` is made. -/
inductive TurnRun (mode : Mode) (ends : StreamedTurn → Except LunaError Unit) :
    List RpcExchange → Except LunaError Unit → Prop
  | noThread {exchanges : List RpcExchange} (err : ClientError)
      (hprepares : ∀ e ∈ exchanges, e.1.Prepares) :
      TurnRun mode ends exchanges (.error (mode.wrap err))
  | noTurn {before : List RpcExchange} (params : Map) (err : ClientError)
      (hprepares : ∀ e ∈ before, e.1.Prepares) :
      TurnRun mode ends (before ++ [⟨.turnStart params, .error err⟩]) (.error (mode.wrap err))
  | turn {before : List RpcExchange} (params : Map) (answer : TurnResult) (stream : StreamedTurn)
      (hprepares : ∀ e ∈ before, e.1.Prepares) (hturn : stream.turnId = answer.turn.id) :
      TurnRun mode ends (before ++ [⟨.turnStart params, .ok answer⟩]) (ends stream)

/-- The runs of the command: it ends before it has asked the server anything, or while it makes sure
of an account, or with the turn. -/
inductive ExecRun (cli : CliArgs) (ends : StreamedTurn → Except LunaError Unit) :
    List RpcExchange → Except LunaError Unit → Prop
  | early {error : LunaError} (h : readied process cli = .error error) :
      ExecRun cli ends [] (.error error)
  | noAccount {read : String × TurnSettings} {exchanges : List RpcExchange} {error : LunaError}
      (hready : readied process cli = .ok read)
      (h : SignIn process.toSurroundings exchanges (.error error)) :
      ExecRun cli ends exchanges (.error error)
  | turn {read : String × TurnSettings} {first rest : List RpcExchange}
      {r : Except LunaError Unit} (hready : readied process cli = .ok read)
      (h : SignIn process.toSurroundings first (.ok ())) (hturn : TurnRun cli.mode ends rest r) :
      ExecRun cli ends (first ++ rest) r

section

variable {process} {paint : Style → String → String} {compactJson : Value → String}
  {jsonLine : ThreadEvent → String} {styling : Styling}
  {delivers : StreamedTurn → List StreamItem} {cli : CliArgs} {exchanges : List RpcExchange}

theorem turnRun_of_yields {ends : StreamedTurn → Except LunaError Unit} {mode : Mode}
    {input : Input} {turnOptions : TurnOptions} {thread : Thread} {r : Except LunaError Unit}
    (h : Yields (Attempt.after (runStreamed input turnOptions thread)
        (fun r => r.1.mapError mode.wrap) >>= fun streamed => .ofExcept (ends streamed) :
      Command Unit) exchanges r) : TurnRun mode ends exchanges r := by
  rcases yields_andThen.1 h with ⟨error, h₁, rfl⟩ | ⟨first, stream, rest, rfl, h₁, h₂⟩
  · obtain ⟨⟨answered, self⟩, hrun, heq⟩ := yields_after.1 h₁
    rcases does_runStreamed hrun with ⟨err, rfl, hensured⟩ |
      ⟨first, threadId, emit, self₁, options, answer, rfl, hensured, hcase⟩
    · cases heq
      exact .noThread err hensured.prepares
    · rcases hcase with ⟨err, rfl, rfl, -⟩ | ⟨result, -, rfl, -⟩
      · cases heq
        exact .noTurn _ err hensured.prepares
      · cases heq
  · obtain ⟨⟨answered, self⟩, hrun, heq⟩ := yields_after.1 h₁
    obtain ⟨rfl, rfl⟩ := yields_ofExcept.1 h₂
    rw [List.append_nil]
    rcases does_runStreamed hrun with ⟨err, rfl, -⟩ |
      ⟨before, threadId, emit, self₁, options, answer, rfl, hensured, hcase⟩
    · cases heq
    · rcases hcase with ⟨err, -, rfl, -⟩ | ⟨result, rfl, rfl, -⟩
      · cases heq
      · cases heq
        exact .turn _ result _ hensured.prepares rfl

theorem yields_prepare {r : Except LunaError PreparedTurn}
    (h : Yields (prepare process cli) exchanges r) :
    (∃ error, settled process cli = .error error ∧ exchanges = [] ∧ r = .error error) ∨
    ∃ settings, settled process cli = .ok settings ∧
      ((∃ error, SignIn process.toSurroundings exchanges (.error error) ∧ r = .error error) ∨
        ∃ prepared, SignIn process.toSurroundings exchanges (.ok ()) ∧ r = .ok prepared) := by
  rw [settled]
  rcases yields_ofExcept_andThen.1 h with ⟨e, he, rfl, rfl⟩ | ⟨resolved, hresolved, h₁⟩
  · exact .inl ⟨e, by rw [he]; rfl, rfl, rfl⟩
  rcases yields_ofExcept_andThen.1 h₁ with ⟨e, he, rfl, rfl⟩ | ⟨settings, hsettings, h₂⟩
  · exact .inl ⟨e, by rw [hresolved, he]; rfl, rfl, rfl⟩
  rcases yields_ofExcept_andThen.1 h₂ with ⟨e, he, rfl, rfl⟩ | ⟨⟨⟩, hconnect, h₃⟩
  · refine .inl ⟨e, ?_, rfl, rfl⟩
    rw [hresolved, hsettings]
    show (connect process cli resolved >>= fun _ => pure settings) = _
    rw [he]
    rfl
  refine .inr ⟨settings, ?_, ?_⟩
  · rw [hresolved, hsettings]
    show (connect process cli resolved >>= fun _ => pure settings) = _
    rw [hconnect]
    rfl
  rcases yields_andThen.1 h₃ with ⟨e, h₄, rfl⟩ | ⟨first, ⟨⟩, rest, rfl, h₄, h₅⟩
  · exact .inl ⟨e, signIn_of_yields h₄, rfl⟩
  · obtain ⟨rfl, rfl⟩ := yields_ofExcept.1 h₅
    rw [List.append_nil]
    exact .inr ⟨_, signIn_of_yields h₄, rfl⟩

theorem execRun_of_yields {r : Except LunaError Unit}
    (h : Yields (exec process paint compactJson jsonLine styling delivers cli) exchanges r) :
    ExecRun process cli (fun stream =>
      outcome paint compactJson jsonLine styling cli.mode (delivers stream)) exchanges r := by
  rcases yields_ofExcept_andThen.1 h with ⟨e, he, rfl, rfl⟩ | ⟨prompt, hprompt, h₁⟩
  · exact .early (by rw [readied, he]; rfl)
  have hready : ∀ {settings : TurnSettings}, settled process cli = .ok settings →
      readied process cli = .ok (prompt, settings) := by
    intro settings hsettled
    rw [readied, hprompt, hsettled]
    rfl
  rcases yields_andThen.1 h₁ with ⟨e, h₂, rfl⟩ | ⟨first, prepared, rest, rfl, h₂, h₃⟩
  · rcases yields_prepare h₂ with
      ⟨e', he, rfl, heq⟩ | ⟨settings, hsettled, ⟨e', hsignIn, heq⟩ | ⟨_, _, heq⟩⟩
    · cases heq
      exact .early (by rw [readied, hprompt, he]; rfl)
    · cases heq
      exact .noAccount (hready hsettled) hsignIn
    · cases heq
  · rcases yields_prepare h₂ with
      ⟨e', he, rfl, heq⟩ | ⟨settings, hsettled, ⟨e', hsignIn, heq⟩ | ⟨_, hsignIn, _⟩⟩
    · cases heq
    · cases heq
    · exact .turn (hready hsettled) hsignIn (turnRun_of_yields h₃)

/-! ## The credentials -/

end

/-! ## A run -/

/-- `luna` with a prompt and no flags. -/
def promptOnly (prompt : String) : CliArgs where
  noDaemon := false
  agent := none
  workingDirectory := none
  websocketUrl := none
  wsAuthToken := none
  model := none
  modelProvider := none
  reasoningEffort := none
  reasoningSummary := none
  modelVerbosity := none
  serviceTier := .default
  configProfile := none
  approvalPolicy := none
  sandboxMode := none
  sandboxPolicyJson := none
  sandboxNetworkAccessEnabled := none
  sandboxWritableRoots := []
  webSearchMode := none
  dynamicToolsJson := none
  personality := none
  baseInstructions := none
  developerInstructions := none
  ephemeral := none
  experimentalRawEvents := none
  persistExtendedHistory := none
  configEntries := []
  configJson := none
  outputSchemaJson := none
  outputSchemaFile := none
  turnExtraJson := none
  resumeTarget := none
  finalResponseOnly := false
  jsonOutput := false
  transportMode := .webSocket
  promptParts := [prompt]

/-- It is started on a terminal, with a key in its environment, and can start a server. -/
def withKey (key : Option String) : Process where
  var name := if name = "OPENAI_API_KEY" then key else none
  connectWs _ _ := .error .transportClosed
  startAndConnectWs _ _ _ := .ok ()
  resolveCodexBinary := .error "codex was not found"
  spawnStdio _ := .error .transportClosed
  varOs _ := none
  currentDir := .ok "/home/user"
  stdinIsTerminal := true
  readStdin := .ok ""
  readFile _ := .error "not found"
  parseJson _ := .error "expected value at line 1 column 1"
  serde _ := "invalid type"
  agentFiles := ⟨fun _ => .error "not found", fun _ => .error "", fun _ => .error "",
    fun _ => .error ""⟩
  joinError := none

/-- The server knows of no account. -/
def loggedOut : Value := .object []

end CodexSdk.Luna

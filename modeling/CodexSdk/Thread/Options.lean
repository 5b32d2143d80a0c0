import CodexSdk.Encode

/-!
# Thread and turn options

The options of `api.rs`: the enumerations with their wire spellings, `ThreadOptions` and
`TurnOptions`, every field of which is optional, and `ResolvedOptions`, the fifteen options the
three requests share.
-/

set_option autoImplicit false

namespace CodexSdk

open Json

/-! ## Wire enumerations -/

inductive ApprovalMode
  | never
  | onRequest
  | onFailure
  | untrusted

def ApprovalMode.asStr : ApprovalMode → String
  | never => "never"
  | onRequest => "on-request"
  | onFailure => "on-failure"
  | untrusted => "untrusted"

inductive SandboxMode
  | readOnly
  | workspaceWrite
  | dangerFullAccess

def SandboxMode.asStr : SandboxMode → String
  | readOnly => "read-only"
  | workspaceWrite => "workspace-write"
  | dangerFullAccess => "danger-full-access"

inductive ModelReasoningEffort
  | none
  | minimal
  | low
  | medium
  | high
  | xHigh
  | max
  | ultra

def ModelReasoningEffort.asStr : ModelReasoningEffort → String
  | none => "none"
  | minimal => "minimal"
  | low => "low"
  | medium => "medium"
  | high => "high"
  | xHigh => "xhigh"
  | max => "max"
  | ultra => "ultra"

inductive ModelReasoningSummary
  | none
  | auto
  | concise
  | detailed

def ModelReasoningSummary.asStr : ModelReasoningSummary → String
  | none => "none"
  | auto => "auto"
  | concise => "concise"
  | detailed => "detailed"

inductive ModelVerbosity
  | low
  | medium
  | high

def ModelVerbosity.asStr : ModelVerbosity → String
  | low => "low"
  | medium => "medium"
  | high => "high"

inductive ServiceTier
  | default
  | fast

def ServiceTier.asStr : ServiceTier → String
  | default => "default"
  | fast => "fast"

inductive Personality
  | none
  | friendly
  | pragmatic

def Personality.asStr : Personality → String
  | none => "none"
  | friendly => "friendly"
  | pragmatic => "pragmatic"

inductive WebSearchMode
  | disabled
  | cached
  | live

def WebSearchMode.asStr : WebSearchMode → String
  | disabled => "disabled"
  | cached => "cached"
  | live => "live"

inductive CollaborationModeKind
  | plan
  | default

def CollaborationModeKind.asStr : CollaborationModeKind → String
  | plan => "plan"
  | default => "default"

/-! ## Structured options -/

structure CollaborationModeSettings where
  model : String
  reasoningEffort : Option ModelReasoningEffort
  developerInstructions : Option String

structure CollaborationMode where
  mode : CollaborationModeKind
  settings : CollaborationModeSettings

def CollaborationMode.asValue (m : CollaborationMode) : Value :=
  let settings : Map := (Map.insert [] "model" (.string m.settings.model)
    ).insertSome "reasoning_effort" (m.settings.reasoningEffort.map fun e => .string e.asStr)
    |>.insertSome "developer_instructions" (m.settings.developerInstructions.map .string)
  .object <| (Map.insert [] "mode" (.string m.mode.asStr)).insert "settings" (.object settings)

structure DynamicToolSpec where
  name : String
  description : String
  inputSchema : Value

def DynamicToolSpec.asValue (tool : DynamicToolSpec) : Value :=
  .object <| (Map.insert [] "name" (.string tool.name)).insert "description"
    (.string tool.description) |>.insert "inputSchema" tool.inputSchema

/-! ## The options -/

structure ThreadOptions where
  model : Option String := none
  modelProvider : Option String := none
  sandboxMode : Option SandboxMode := none
  sandboxPolicy : Option Value := none
  workingDirectory : Option String := none
  skipGitRepoCheck : Option Bool := none
  modelReasoningEffort : Option ModelReasoningEffort := none
  modelReasoningSummary : Option ModelReasoningSummary := none
  serviceTier : Option ServiceTier := none
  networkAccessEnabled : Option Bool := none
  webSearchMode : Option WebSearchMode := none
  webSearchEnabled : Option Bool := none
  approvalPolicy : Option ApprovalMode := none
  additionalDirectories : Option (List String) := none
  personality : Option Personality := none
  baseInstructions : Option String := none
  developerInstructions : Option String := none
  ephemeral : Option Bool := none
  collaborationMode : Option CollaborationMode := none
  config : Option Map := none
  dynamicTools : Option (List DynamicToolSpec) := none
  experimentalRawEvents : Option Bool := none
  persistExtendedHistory : Option Bool := none

structure TurnOptions where
  outputSchema : Option Value := none
  workingDirectory : Option String := none
  model : Option String := none
  modelProvider : Option String := none
  modelReasoningEffort : Option ModelReasoningEffort := none
  modelReasoningSummary : Option ModelReasoningSummary := none
  serviceTier : Option ServiceTier := none
  personality : Option Personality := none
  approvalPolicy : Option ApprovalMode := none
  sandboxPolicy : Option Value := none
  collaborationMode : Option CollaborationMode := none
  skipGitRepoCheck : Option Bool := none
  webSearchMode : Option WebSearchMode := none
  webSearchEnabled : Option Bool := none
  networkAccessEnabled : Option Bool := none
  additionalDirectories : Option (List String) := none
  extra : Option Map := none

/-- The options shared by `thread/start`, `thread/resume` and `turn/start`. -/
structure ResolvedOptions where
  model : Option String
  modelProvider : Option String
  workingDirectory : Option String
  modelReasoningEffort : Option ModelReasoningEffort
  modelReasoningSummary : Option ModelReasoningSummary
  serviceTier : Option ServiceTier
  personality : Option Personality
  approvalPolicy : Option ApprovalMode
  sandboxPolicy : Option Value
  skipGitRepoCheck : Option Bool
  webSearchMode : Option WebSearchMode
  webSearchEnabled : Option Bool
  networkAccessEnabled : Option Bool
  additionalDirectories : Option (List String)
  collaborationMode : Option CollaborationMode

def ResolvedOptions.fromThread (options : ThreadOptions) : ResolvedOptions where
  model := options.model
  modelProvider := options.modelProvider
  workingDirectory := options.workingDirectory
  modelReasoningEffort := options.modelReasoningEffort
  modelReasoningSummary := options.modelReasoningSummary
  serviceTier := options.serviceTier
  personality := options.personality
  approvalPolicy := options.approvalPolicy
  sandboxPolicy := options.sandboxPolicy
  skipGitRepoCheck := options.skipGitRepoCheck
  webSearchMode := options.webSearchMode
  webSearchEnabled := options.webSearchEnabled
  networkAccessEnabled := options.networkAccessEnabled
  additionalDirectories := options.additionalDirectories
  collaborationMode := options.collaborationMode

/-- Any field set on the turn wins; otherwise the thread-level value applies. -/
def ResolvedOptions.merge (options : ThreadOptions) (turnOptions : TurnOptions) :
    ResolvedOptions where
  model := turnOptions.model.or options.model
  modelProvider := turnOptions.modelProvider.or options.modelProvider
  workingDirectory := turnOptions.workingDirectory.or options.workingDirectory
  modelReasoningEffort := turnOptions.modelReasoningEffort.or options.modelReasoningEffort
  modelReasoningSummary := turnOptions.modelReasoningSummary.or options.modelReasoningSummary
  serviceTier := turnOptions.serviceTier.or options.serviceTier
  personality := turnOptions.personality.or options.personality
  approvalPolicy := turnOptions.approvalPolicy.or options.approvalPolicy
  sandboxPolicy := turnOptions.sandboxPolicy.or options.sandboxPolicy
  skipGitRepoCheck := turnOptions.skipGitRepoCheck.or options.skipGitRepoCheck
  webSearchMode := turnOptions.webSearchMode.or options.webSearchMode
  webSearchEnabled := turnOptions.webSearchEnabled.or options.webSearchEnabled
  networkAccessEnabled := turnOptions.networkAccessEnabled.or options.networkAccessEnabled
  additionalDirectories := turnOptions.additionalDirectories.or options.additionalDirectories
  collaborationMode := turnOptions.collaborationMode.or options.collaborationMode

end CodexSdk

import CodexSdk.Thread.Options

/-!
# The params of the thread requests

`build_thread_start_params`, `build_thread_resume_params` and `build_turn_start_params` of `api.rs`,
with the request types of `protocol/requests.rs` they fill.  An option travels as a declared field
in one request and as a member of the flattened `extra` map in another.

`sharedOptions` lists the fifteen options a turn shares with its thread, each with the key it has on
the wire.  `encoders_agree` compares the three requests, and `turn_overlays_thread` says which of
its three sources every key of a `turn/start` comes from.
-/

set_option autoImplicit false

namespace CodexSdk

open Json

/-! ## Request types -/

structure ThreadStartParams where
  model : Option String
  modelProvider : Option String
  cwd : Option String
  approvalPolicy : Option String
  sandbox : Option String
  sandboxPolicy : Option Value
  effort : Option String
  summary : Option String
  personality : Option String
  ephemeral : Option Bool
  baseInstructions : Option String
  developerInstructions : Option String
  extra : Map

def ThreadStartParams.fields (p : ThreadStartParams) : Fields :=
  [("model", p.model.map .string),
    ("modelProvider", p.modelProvider.map .string),
    ("cwd", p.cwd.map .string),
    ("approvalPolicy", p.approvalPolicy.map .string),
    ("sandbox", p.sandbox.map .string),
    ("sandboxPolicy", p.sandboxPolicy),
    ("effort", p.effort.map .string),
    ("summary", p.summary.map .string),
    ("personality", p.personality.map .string),
    ("ephemeral", p.ephemeral.map .bool),
    ("baseInstructions", p.baseInstructions.map .string),
    ("developerInstructions", p.developerInstructions.map .string)]

def ThreadStartParams.toJson (p : ThreadStartParams) : Map := (Map.ofFields p.fields).extend p.extra

structure ThreadResumeParams where
  threadId : String
  history : Option (List Value)
  path : Option String
  model : Option String
  modelProvider : Option String
  cwd : Option String
  approvalPolicy : Option String
  sandbox : Option String
  config : Option Map
  baseInstructions : Option String
  developerInstructions : Option String
  personality : Option String
  persistExtendedHistory : Option Bool
  extra : Map

def ThreadResumeParams.fields (p : ThreadResumeParams) : Fields :=
  [("threadId", some (.string p.threadId)),
    ("history", p.history.map .array),
    ("path", p.path.map .string),
    ("model", p.model.map .string),
    ("modelProvider", p.modelProvider.map .string),
    ("cwd", p.cwd.map .string),
    ("approvalPolicy", p.approvalPolicy.map .string),
    ("sandbox", p.sandbox.map .string),
    ("config", p.config.map .object),
    ("baseInstructions", p.baseInstructions.map .string),
    ("developerInstructions", p.developerInstructions.map .string),
    ("personality", p.personality.map .string),
    ("persistExtendedHistory", p.persistExtendedHistory.map .bool)]

def ThreadResumeParams.toJson (p : ThreadResumeParams) : Map :=
  (Map.ofFields p.fields).extend p.extra

inductive TurnInputItem
  | text (text : String)
  | image (url : String)
  | localImage (path : String)
  | skill (name path : String)
  | unknown

/-- The variant is a member beside its fields. -/
def TurnInputItem.toJson : TurnInputItem → Value
  | .text s => .object [("type", .string "text"), ("text", .string s)]
  | .image url => .object [("type", .string "image"), ("url", .string url)]
  | .localImage path => .object [("type", .string "localImage"), ("path", .string path)]
  | .skill name path =>
    .object [("type", .string "skill"), ("name", .string name), ("path", .string path)]
  | .unknown => .object [("type", .string "unknown")]

structure TurnStartParams where
  threadId : String
  input : List TurnInputItem
  cwd : Option String
  model : Option String
  modelProvider : Option String
  effort : Option String
  summary : Option String
  personality : Option String
  outputSchema : Option Value
  approvalPolicy : Option String
  sandboxPolicy : Option Value
  extra : Map

def TurnStartParams.fields (p : TurnStartParams) : Fields :=
  [("threadId", some (.string p.threadId)),
    ("input", some (.array (p.input.map TurnInputItem.toJson))),
    ("cwd", p.cwd.map .string),
    ("model", p.model.map .string),
    ("modelProvider", p.modelProvider.map .string),
    ("effort", p.effort.map .string),
    ("summary", p.summary.map .string),
    ("personality", p.personality.map .string),
    ("outputSchema", p.outputSchema),
    ("approvalPolicy", p.approvalPolicy.map .string),
    ("sandboxPolicy", p.sandboxPolicy)]

def TurnStartParams.toJson (p : TurnStartParams) : Map := (Map.ofFields p.fields).extend p.extra

/-! ## The builders -/

/-- The extra keys common to the three requests. -/
def insertCommonExtras (extra : Map) (resolved : ResolvedOptions) : Map :=
  extra
  |>.insertSome "serviceTier" (resolved.serviceTier.map fun tier => .string tier.asStr)
  |>.insertSome "skipGitRepoCheck" (resolved.skipGitRepoCheck.map .bool)
  |>.insertSome "webSearchMode" (resolved.webSearchMode.map fun mode => .string mode.asStr)
  |>.insertSome "webSearchEnabled" (resolved.webSearchEnabled.map .bool)
  |>.insertSome "networkAccessEnabled" (resolved.networkAccessEnabled.map .bool)
  |>.insertSome "additionalDirectories"
    (resolved.additionalDirectories.map fun entries => .array (entries.map .string))
  |>.insertSome "collaborationMode" (resolved.collaborationMode.map CollaborationMode.asValue)

def dynamicToolsValue (dynamicTools : List DynamicToolSpec) : Value :=
  .array (dynamicTools.map DynamicToolSpec.asValue)

def buildThreadStartParams (options : ThreadOptions) : ThreadStartParams where
  model := options.model
  modelProvider := options.modelProvider
  cwd := options.workingDirectory
  approvalPolicy := options.approvalPolicy.map ApprovalMode.asStr
  sandbox := options.sandboxMode.map SandboxMode.asStr
  sandboxPolicy := options.sandboxPolicy
  effort := options.modelReasoningEffort.map ModelReasoningEffort.asStr
  summary := options.modelReasoningSummary.map ModelReasoningSummary.asStr
  personality := options.personality.map Personality.asStr
  ephemeral := options.ephemeral
  baseInstructions := options.baseInstructions
  developerInstructions := options.developerInstructions
  extra := insertCommonExtras [] (.fromThread options)
    |>.insertSome "config" (options.config.map .object)
    |>.insertSome "dynamicTools" (options.dynamicTools.map dynamicToolsValue)
    |>.insertSome "experimentalRawEvents" (options.experimentalRawEvents.map .bool)
    |>.insertSome "persistExtendedHistory" (options.persistExtendedHistory.map .bool)

def buildThreadResumeParams (threadId : String) (options : ThreadOptions) :
    ThreadResumeParams where
  threadId := threadId
  history := none
  path := none
  model := options.model
  modelProvider := options.modelProvider
  cwd := options.workingDirectory
  approvalPolicy := options.approvalPolicy.map ApprovalMode.asStr
  sandbox := options.sandboxMode.map SandboxMode.asStr
  config := options.config
  baseInstructions := options.baseInstructions
  developerInstructions := options.developerInstructions
  personality := options.personality.map Personality.asStr
  persistExtendedHistory := options.persistExtendedHistory
  extra := insertCommonExtras [] (.fromThread options)
    |>.insertSome "sandboxPolicy" options.sandboxPolicy
    |>.insertSome "effort" (options.modelReasoningEffort.map fun effort => .string effort.asStr)
    |>.insertSome "summary" (options.modelReasoningSummary.map fun summary => .string summary.asStr)
    |>.insertSome "ephemeral" (options.ephemeral.map .bool)
    |>.insertSome "dynamicTools" (options.dynamicTools.map dynamicToolsValue)
    |>.insertSome "experimentalRawEvents" (options.experimentalRawEvents.map .bool)

inductive UserInput
  | text (text : String)
  | localImage (path : String)

inductive Input
  | text (text : String)
  | items (items : List UserInput)

def UserInput.textPart : UserInput → Option String
  | .text s => some s
  | .localImage _ => none

def UserInput.imagePart : UserInput → Option TurnInputItem
  | .text _ => none
  | .localImage path => some (.localImage path)

/-- The texts come first, as one item. -/
def normalizeInput : Input → List TurnInputItem
  | .text text => [.text text]
  | .items items =>
    let textParts := items.filterMap UserInput.textPart
    let normalized := items.filterMap UserInput.imagePart
    if textParts.isEmpty then normalized
    else .text ("\n\n".intercalate textParts) :: normalized

def buildTurnStartParams (threadId : String) (input : Input) (options : ThreadOptions)
    (turnOptions : TurnOptions) : TurnStartParams :=
  let resolved := ResolvedOptions.merge options turnOptions
  let extra := insertCommonExtras [] resolved
  { threadId := threadId
    input := normalizeInput input
    cwd := resolved.workingDirectory
    model := resolved.model
    modelProvider := resolved.modelProvider
    effort := resolved.modelReasoningEffort.map ModelReasoningEffort.asStr
    summary := resolved.modelReasoningSummary.map ModelReasoningSummary.asStr
    personality := resolved.personality.map Personality.asStr
    outputSchema := turnOptions.outputSchema
    approvalPolicy := resolved.approvalPolicy.map ApprovalMode.asStr
    sandboxPolicy := resolved.sandboxPolicy
    extra := extra.extend (turnOptions.extra.getD []) }

/-! ## The objects as tables -/

/-- The common extras, the last one first. -/
def commonExtras (resolved : ResolvedOptions) : Fields :=
  [("collaborationMode", resolved.collaborationMode.map CollaborationMode.asValue),
    ("additionalDirectories",
      resolved.additionalDirectories.map fun entries => .array (entries.map .string)),
    ("networkAccessEnabled", resolved.networkAccessEnabled.map .bool),
    ("webSearchEnabled", resolved.webSearchEnabled.map .bool),
    ("webSearchMode", resolved.webSearchMode.map fun mode => .string mode.asStr),
    ("skipGitRepoCheck", resolved.skipGitRepoCheck.map .bool),
    ("serviceTier", resolved.serviceTier.map fun tier => .string tier.asStr)]

/-- The extras of `thread/start`. -/
def startExtras (options : ThreadOptions) : Fields :=
  [("persistExtendedHistory", options.persistExtendedHistory.map .bool),
    ("experimentalRawEvents", options.experimentalRawEvents.map .bool),
    ("dynamicTools", options.dynamicTools.map dynamicToolsValue),
    ("config", options.config.map .object)] ++ commonExtras (.fromThread options)

/-- The extras of `thread/resume`. -/
def resumeExtras (options : ThreadOptions) : Fields :=
  [("experimentalRawEvents", options.experimentalRawEvents.map .bool),
    ("dynamicTools", options.dynamicTools.map dynamicToolsValue),
    ("ephemeral", options.ephemeral.map .bool),
    ("summary", options.modelReasoningSummary.map fun summary => .string summary.asStr),
    ("effort", options.modelReasoningEffort.map fun effort => .string effort.asStr),
    ("sandboxPolicy", options.sandboxPolicy)] ++ commonExtras (.fromThread options)

theorem get_start (options : ThreadOptions) (key : String) :
    (buildThreadStartParams options).toJson.get key =
      ((startExtras options).get key).or ((buildThreadStartParams options).fields.get key) := by
  have hextra : (buildThreadStartParams options).extra = Map.ofFields (startExtras options) := rfl
  have hextras : ((startExtras options).map Prod.fst).Nodup := by
    show ((startExtras {}).map Prod.fst).Nodup
    decide
  have hfields : ((buildThreadStartParams options).fields.map Prod.fst).Nodup := by
    show ((buildThreadStartParams {}).fields.map Prod.fst).Nodup
    decide
  rw [ThreadStartParams.toJson, Map.get_extend, hextra, Map.get_ofFields hextras,
    Map.get_ofFields hfields]

theorem get_resume (threadId : String) (options : ThreadOptions) (key : String) :
    (buildThreadResumeParams threadId options).toJson.get key =
      ((resumeExtras options).get key).or
        ((buildThreadResumeParams threadId options).fields.get key) := by
  have hextra : (buildThreadResumeParams threadId options).extra =
    Map.ofFields (resumeExtras options) := rfl
  have hextras : ((resumeExtras options).map Prod.fst).Nodup := by
    show ((resumeExtras {}).map Prod.fst).Nodup
    decide
  have hfields : ((buildThreadResumeParams threadId options).fields.map Prod.fst).Nodup := by
    show ((buildThreadResumeParams "" {}).fields.map Prod.fst).Nodup
    decide
  rw [ThreadResumeParams.toJson, Map.get_extend, hextra, Map.get_ofFields hextras,
    Map.get_ofFields hfields]

theorem get_turn (threadId : String) (input : Input) (options : ThreadOptions)
    (turnOptions : TurnOptions) (key : String) :
    (buildTurnStartParams threadId input options turnOptions).toJson.get key =
      (Map.get (turnOptions.extra.getD []) key).or
        (((commonExtras (.merge options turnOptions)).get key).or
          ((buildTurnStartParams threadId input options turnOptions).fields.get key)) := by
  have hextra : (buildTurnStartParams threadId input options turnOptions).extra =
    (Map.ofFields (commonExtras (.merge options turnOptions))).extend
      (turnOptions.extra.getD []) := rfl
  have hextras : ((commonExtras (.merge options turnOptions)).map Prod.fst).Nodup := by
    show ((commonExtras (.fromThread {})).map Prod.fst).Nodup
    decide
  have hfields : ((buildTurnStartParams threadId input options turnOptions).fields.map
      Prod.fst).Nodup := by
    show ((buildTurnStartParams "" (.items []) {} {}).fields.map Prod.fst).Nodup
    decide
  rw [TurnStartParams.toJson, Map.get_extend, hextra, Map.get_extend, Map.get_ofFields hextras,
    Map.get_ofFields hfields, Option.or_assoc]

/-! ## The shared options -/

/-- An option a turn shares with its thread: its key on the wire and its encodings. -/
structure SharedOption where
  key : String
  ofTurn (options : TurnOptions) : Option Value
  ofThread (options : ThreadOptions) : Option Value

def sharedOptions : List SharedOption :=
  [⟨"model", fun t => t.model.map .string, fun o => o.model.map .string⟩,
    ⟨"modelProvider", fun t => t.modelProvider.map .string, fun o => o.modelProvider.map .string⟩,
    ⟨"cwd", fun t => t.workingDirectory.map .string, fun o => o.workingDirectory.map .string⟩,
    ⟨"approvalPolicy", fun t => t.approvalPolicy.map fun mode => .string mode.asStr,
      fun o => o.approvalPolicy.map fun mode => .string mode.asStr⟩,
    ⟨"sandboxPolicy", TurnOptions.sandboxPolicy, ThreadOptions.sandboxPolicy⟩,
    ⟨"effort", fun t => t.modelReasoningEffort.map fun effort => .string effort.asStr,
      fun o => o.modelReasoningEffort.map fun effort => .string effort.asStr⟩,
    ⟨"summary", fun t => t.modelReasoningSummary.map fun summary => .string summary.asStr,
      fun o => o.modelReasoningSummary.map fun summary => .string summary.asStr⟩,
    ⟨"personality", fun t => t.personality.map fun value => .string value.asStr,
      fun o => o.personality.map fun value => .string value.asStr⟩,
    ⟨"serviceTier", fun t => t.serviceTier.map fun tier => .string tier.asStr,
      fun o => o.serviceTier.map fun tier => .string tier.asStr⟩,
    ⟨"skipGitRepoCheck", fun t => t.skipGitRepoCheck.map .bool,
      fun o => o.skipGitRepoCheck.map .bool⟩,
    ⟨"webSearchMode", fun t => t.webSearchMode.map fun mode => .string mode.asStr,
      fun o => o.webSearchMode.map fun mode => .string mode.asStr⟩,
    ⟨"webSearchEnabled", fun t => t.webSearchEnabled.map .bool,
      fun o => o.webSearchEnabled.map .bool⟩,
    ⟨"networkAccessEnabled", fun t => t.networkAccessEnabled.map .bool,
      fun o => o.networkAccessEnabled.map .bool⟩,
    ⟨"additionalDirectories",
      fun t => t.additionalDirectories.map fun entries => .array (entries.map .string),
      fun o => o.additionalDirectories.map fun entries => .array (entries.map .string)⟩,
    ⟨"collaborationMode", fun t => t.collaborationMode.map CollaborationMode.asValue,
      fun o => o.collaborationMode.map CollaborationMode.asValue⟩]

/-! An overlaid option is encoded as the overlay of the encodings, in each of the three places an
option can stand: a declared field, a declared field that takes the spelling, a common extra. -/

theorem declared_or {α : Type} (f : α → Value) (a b : Option α) :
    (none : Option Value).or ((a.or b).map f) = (a.map f).or (b.map f) := by
  cases a <;> rfl

theorem spelled_or {α : Type} (spell : α → String) (a b : Option α) :
    (none : Option Value).or (((a.or b).map spell).map .string) =
      (a.map fun x => .string (spell x)).or (b.map fun x => .string (spell x)) := by
  cases a with
  | none => cases b <;> rfl
  | some x => rfl

theorem extra_or {α : Type} (f : α → Value) (a b : Option α) :
    ((a.or b).map f).or none = (a.map f).or (b.map f) := by
  rw [Option.or_none, Option.map_or]

/-- What the declared fields and the common extras of a `turn/start` hold for a shared option. -/
theorem get_shared (threadId : String) (input : Input) (options : ThreadOptions)
    (turnOptions : TurnOptions) : ∀ row ∈ sharedOptions,
      ((commonExtras (.merge options turnOptions)).get row.key).or
        ((buildTurnStartParams threadId input options turnOptions).fields.get row.key) =
      (row.ofTurn turnOptions).or (row.ofThread options) := by
  intro row hrow
  simp only [sharedOptions, List.mem_cons, List.not_mem_nil, or_false] at hrow
  rcases hrow with rfl | rfl | rfl | rfl | rfl | rfl | rfl | rfl | rfl | rfl | rfl | rfl | rfl |
    rfl | rfl
  · exact declared_or _ _ _
  · exact declared_or _ _ _
  · exact declared_or _ _ _
  · exact spelled_or _ _ _
  · rfl
  · exact spelled_or _ _ _
  · exact spelled_or _ _ _
  · exact spelled_or _ _ _
  · exact extra_or _ _ _
  · exact extra_or _ _ _
  · exact extra_or _ _ _
  · exact extra_or _ _ _
  · exact extra_or _ _ _
  · exact extra_or _ _ _
  · exact extra_or _ _ _

/-- **Turn options overlay thread options.**  Under every shared key a `turn/start` has what the
user's own extra map says, else what the turn says, else what the thread says, and otherwise
nothing; every entry of the extra map is there; and there are no other members than these, the
thread id, the input and the output schema. -/
theorem turn_overlays_thread (threadId : String) (input : Input) (options : ThreadOptions)
    (turnOptions : TurnOptions) :
    let object := (buildTurnStartParams threadId input options turnOptions).toJson
    let extra : Map := turnOptions.extra.getD []
    (∀ row ∈ sharedOptions, object.get row.key =
      (extra.get row.key).or ((row.ofTurn turnOptions).or (row.ofThread options))) ∧
    (∀ key v, extra.get key = some v → object.get key = some v) ∧
    ∀ key, object.get key ≠ none → key ∈ sharedOptions.map SharedOption.key ∨
      key ∈ ["threadId", "input", "outputSchema"] ∨ extra.get key ≠ none := by
  refine ⟨fun row hrow => ?_, fun key v hv => ?_, fun key hkey => ?_⟩
  · rw [get_turn, get_shared threadId input options turnOptions row hrow]
  · rw [get_turn, hv, Option.some_or]
  · by_contra hnot
    rw [not_or, not_or, not_not] at hnot
    obtain ⟨hshared, hown, hextra⟩ := hnot
    have hcommon : key ∉ (commonExtras (.merge options turnOptions)).map Prod.fst := fun h =>
      hshared ((show (commonExtras (.fromThread {})).map Prod.fst ⊆
        sharedOptions.map SharedOption.key by decide) h)
    have hfields : key ∉ (buildTurnStartParams threadId input options turnOptions).fields.map
        Prod.fst := fun h =>
      (List.mem_append.1 ((show (buildTurnStartParams "" (.items []) {} {}).fields.map Prod.fst ⊆
        sharedOptions.map SharedOption.key ++ ["threadId", "input", "outputSchema"] by decide)
          h)).elim hshared hown
    rw [get_turn, hextra, Fields.get_eq_none hcommon, Fields.get_eq_none hfields] at hkey
    exact hkey rfl

/-! ## The three encoders -/

/-- The keys a `thread/resume` can have. -/
def resumeKeys : List String :=
  (resumeExtras {}).map Prod.fst ++ (buildThreadResumeParams "" {}).fields.map Prod.fst

theorem spelled_extra {α : Type} (spell : α → String) (a : Option α) :
    (a.map fun x => Value.string (spell x)).or none = none.or ((a.map spell).map .string) := by
  cases a <;> rfl

theorem get_resume_eq (threadId : String) (options : ThreadOptions) (key : String) :
    (buildThreadResumeParams threadId options).toJson.get key =
      if key = "threadId" then some (.string threadId)
      else (buildThreadStartParams options).toJson.get key := by
  rw [get_resume, get_start]
  by_cases hkey : key ∈ resumeKeys
  · have hkeys : resumeKeys = ["experimentalRawEvents", "dynamicTools", "ephemeral", "summary",
      "effort", "sandboxPolicy", "collaborationMode", "additionalDirectories",
      "networkAccessEnabled", "webSearchEnabled", "webSearchMode", "skipGitRepoCheck",
      "serviceTier", "threadId", "history", "path", "model", "modelProvider", "cwd",
      "approvalPolicy", "sandbox", "config", "baseInstructions", "developerInstructions",
      "personality", "persistExtendedHistory"] := rfl
    simp only [hkeys, List.mem_cons, List.not_mem_nil, or_false] at hkey
    rcases hkey with rfl | rfl | rfl | rfl | rfl | rfl | rfl | rfl | rfl | rfl | rfl | rfl | rfl |
      rfl | rfl | rfl | rfl | rfl | rfl | rfl | rfl | rfl | rfl | rfl | rfl | rfl
    · rfl
    · rfl
    · exact Option.or_none
    · exact spelled_extra _ _
    · exact spelled_extra _ _
    · exact Option.or_none
    · rfl
    · rfl
    · rfl
    · rfl
    · rfl
    · rfl
    · rfl
    · rfl
    · rfl
    · rfl
    · rfl
    · rfl
    · rfl
    · rfl
    · rfl
    · exact Option.or_none.symm
    · rfl
    · rfl
    · rfl
    · exact Option.or_none.symm
  · have hne : key ≠ "threadId" := by
      rintro rfl
      exact hkey (by decide)
    have hstart : (startExtras {}).map Prod.fst ++ (buildThreadStartParams {}).fields.map Prod.fst ⊆
        resumeKeys := by decide
    have hextras : key ∉ (startExtras options).map Prod.fst := fun h =>
      hkey (hstart (List.mem_append_left _ h))
    have hfields : key ∉ (buildThreadStartParams options).fields.map Prod.fst := fun h =>
      hkey (hstart (List.mem_append_right _ h))
    have hextras' : key ∉ (resumeExtras options).map Prod.fst := fun h =>
      hkey (List.mem_append_left _ h)
    have hfields' : key ∉ (buildThreadResumeParams threadId options).fields.map Prod.fst :=
      fun h => hkey (List.mem_append_right _ h)
    rw [if_neg hne, Fields.get_eq_none hextras, Fields.get_eq_none hfields,
      Fields.get_eq_none hextras', Fields.get_eq_none hfields']

/-- Under a shared key, `thread/start` has the encoding of the option. -/
theorem get_start_shared (options : ThreadOptions) : ∀ row ∈ sharedOptions,
    (buildThreadStartParams options).toJson.get row.key = row.ofThread options := by
  intro row hrow
  rw [get_start]
  simp only [sharedOptions, List.mem_cons, List.not_mem_nil, or_false] at hrow
  rcases hrow with rfl | rfl | rfl | rfl | rfl | rfl | rfl | rfl | rfl | rfl | rfl | rfl | rfl |
    rfl | rfl
  · rfl
  · rfl
  · rfl
  · exact Option.map_map _ _ _
  · rfl
  · exact Option.map_map _ _ _
  · exact Option.map_map _ _ _
  · exact Option.map_map _ _ _
  · exact Option.or_none
  · exact Option.or_none
  · exact Option.or_none
  · exact Option.or_none
  · exact Option.or_none
  · exact Option.or_none
  · exact Option.or_none

/-- **The three encoders agree.**  Resuming a thread says the same as starting it, and names the
thread; and a turn without options of its own says under every shared key what the start of the
thread said. -/
theorem encoders_agree (threadId : String) (options : ThreadOptions) :
    (∀ key, (buildThreadResumeParams threadId options).toJson.get key =
      if key = "threadId" then some (.string threadId)
      else (buildThreadStartParams options).toJson.get key) ∧
    ∀ input, ∀ row ∈ sharedOptions,
      (buildTurnStartParams threadId input options {}).toJson.get row.key =
        (buildThreadStartParams options).toJson.get row.key := by
  refine ⟨get_resume_eq threadId options, fun input row hrow => ?_⟩
  have hnothing : row.ofTurn {} = none := by
    simp only [sharedOptions, List.mem_cons, List.not_mem_nil, or_false] at hrow
    rcases hrow with rfl | rfl | rfl | rfl | rfl | rfl | rfl | rfl | rfl | rfl | rfl | rfl | rfl |
      rfl | rfl <;> rfl
  rw [get_turn, get_shared threadId input options {} row hrow, get_start_shared options row hrow,
    hnothing, Option.none_or, Option.getD_none, Map.get_nil, Option.none_or]

end CodexSdk

import CodexSdk.Broadcast
import CodexSdk.Events
import CodexSdk.Rounds
import CodexSdk.ThreadItem

/-!
# The pump of a streamed turn

`pump_turn_events` of `api.rs`: the loop that reads the server events of a connection and sends on
those that belong to one turn of one thread.  It is a loop in the sense of `CodexSdk.Rounds`, with
the latest token usage as its state: `pumpRound` is the body of the loop and `pumpTurnEvents` what
it sends in all.

A round is decided by the arm the notification falls into.  Every arm has its own guard, and what
the guard consults differs: the members a lifecycle, delta, usage or error notification carries
beside its fields, but the members *of the nested turn* for a finished turn.
-/

set_option autoImplicit false

namespace CodexSdk

open Json Rounds

/-! ## Events of a turn -/

structure Usage where
  inputTokens : Int64
  cachedInputTokens : Int64
  outputTokens : Int64
  deriving DecidableEq

inductive ThreadEvent
  | threadStarted (threadId : String)
  | turnStarted
  | turnCompleted (usage : Option Usage)
  | turnFailed (error : ThreadError)
  | itemStarted (item : ThreadItem)
  | itemUpdated (item : ThreadItem)
  | itemCompleted (item : ThreadItem)
  | error (message : String)

/-! ## Token usage -/

/-- The part of `parse_usage_from_value` for an object without a `last`. -/
def ownUsage (object : Map) : Option Usage := do
  let inputTokens ← (object.get "inputTokens").bind Value.asI64
  let cachedInputTokens := ((object.get "cachedInputTokens").bind Value.asI64).getD 0
  let outputTokens ← (object.get "outputTokens").bind Value.asI64
  return ⟨inputTokens, cachedInputTokens, outputTokens⟩

/-- The usage an object states itself, or the one its `last` member does. -/
def parseUsageFromValue : Value → Option Usage
  | .object object =>
    match _h : Map.get object "last" with
    | some last => parseUsageFromValue last
    | none => ownUsage object
  | _ => none
termination_by v => v
decreasing_by
  have := Map.sizeOf_get _h
  simp; omega

theorem parseUsageFromValue_object (object : Map) :
    parseUsageFromValue (.object object) = match object.get "last" with
      | some last => parseUsageFromValue last
      | none => ownUsage object := by
  rw [parseUsageFromValue]
  split <;> simp_all

def parseUsageFromTurnExtra (extra : Map) : Option Usage :=
  ((extra.get "usage").bind parseUsageFromValue).or
    ((extra.get "tokenUsage").bind parseUsageFromValue)

/-- The usage a `thread/tokenUsage/updated` leaves behind, which may be none. -/
def updatedUsage (payload : ThreadTokenUsageUpdatedNotification) : Option Usage :=
  (payload.usage.bind parseUsageFromValue).or
    ((payload.extra.get "tokenUsage").bind parseUsageFromValue)

/-! ## Guards -/

/-- A marker names the target when it is absent, or not a string, or the target. -/
def markerMatches (extra : Map) (key target : String) : Bool :=
  ((optStr extra key).map (· == target)).getD true

def matchesTargetFromExtra (extra : Map) (threadId : String) (turnId : Option String) : Bool :=
  let threadMatches := markerMatches extra "threadId" threadId
  let turnMatches := match turnId with
    | some targetTurnId => markerMatches extra "turnId" targetTurnId
    | none => true
  threadMatches && turnMatches

theorem markerMatches_iff {extra : Map} {key target : String} :
    markerMatches extra key target = true ↔ ∀ s, extra.get key = some (.string s) → s = target := by
  rw [markerMatches, optStr]
  cases h : extra.get key with
  | none => simp
  | some v => cases v <;> simp [Value.asStr]

theorem matchesTargetFromExtra_iff {extra : Map} {threadId turnId : String} :
    matchesTargetFromExtra extra threadId (some turnId) = true ↔
      (∀ s, extra.get "threadId" = some (.string s) → s = threadId) ∧
      ∀ s, extra.get "turnId" = some (.string s) → s = turnId := by
  rw [matchesTargetFromExtra, Bool.and_eq_true, markerMatches_iff, markerMatches_iff]

/-! ## The arms -/

/-- The text of a delta: `delta`, or else `text`. -/
def DeltaNotification.payloadText (delta : DeltaNotification) : String :=
  (delta.delta.or delta.text).getD ""

def deltaItemUpdated (delta : DeltaNotification) (buildItem : String → String → ThreadItem) :
    Option ThreadEvent :=
  let text := delta.payloadText
  if text = "" then none
  else some (.itemUpdated (buildItem (delta.itemId.getD "") text))

def agentMessageOfDelta (id text : String) : ThreadItem := .agentMessage ⟨id, text, none⟩

def planOfDelta (id text : String) : ThreadItem := .plan ⟨id, text⟩

def reasoningOfDelta (id text : String) : ThreadItem := .reasoning ⟨id, text⟩

/-- What the pump sends on. -/
abbrev StreamItem := Except ClientError ThreadEvent

/-- The arms that send the event they are given, if there is one, when their guard holds. -/
def sendWhen (guard : Bool) (event : Option ThreadEvent) (latestUsage : Option Usage) :
    Round (Option Usage) StreamItem :=
  match guard, event with
  | true, some event => .emit (.ok event)
  | _, _ => .quiet latestUsage

/-- The status of a turn that failed, in any case. -/
def Turn.failed (turn : Turn) : Bool := (turn.status.getD "").toLower == "failed"

/-- What the pump sends when the turn is over. -/
def turnCompletedEvent (latestUsage : Option Usage) (turn : Turn) : ThreadEvent :=
  if turn.failed then
    .turnFailed ⟨(turn.error.map TurnError.message).getD "turn failed"⟩
  else
    .turnCompleted ((parseUsageFromTurnExtra turn.extra).or latestUsage)

/-- The round a notification causes. -/
def pumpNotification (threadId turnId : String) (latestUsage : Option Usage) :
    ServerNotification → Round (Option Usage) StreamItem
  | .itemStarted payload =>
    sendWhen (matchesTargetFromExtra payload.extra threadId (some turnId))
      (some (.itemStarted (parseThreadItem payload.item))) latestUsage
  | .itemCompleted payload =>
    sendWhen (matchesTargetFromExtra payload.extra threadId (some turnId))
      (some (.itemCompleted (parseThreadItem payload.item))) latestUsage
  | .itemAgentMessageDelta delta =>
    sendWhen (matchesTargetFromExtra delta.extra threadId (some turnId))
      (deltaItemUpdated delta agentMessageOfDelta) latestUsage
  | .itemPlanDelta delta =>
    sendWhen (matchesTargetFromExtra delta.extra threadId (some turnId))
      (deltaItemUpdated delta planOfDelta) latestUsage
  | .itemReasoningSummaryTextDelta delta =>
    sendWhen (matchesTargetFromExtra delta.extra threadId (some turnId))
      (deltaItemUpdated delta reasoningOfDelta) latestUsage
  | .itemReasoningTextDelta delta =>
    sendWhen (matchesTargetFromExtra delta.extra threadId (some turnId))
      (deltaItemUpdated delta reasoningOfDelta) latestUsage
  | .turnCompleted payload =>
    -- the markers of the nested turn, not those beside it
    if payload.turn.id == turnId
        && matchesTargetFromExtra payload.turn.extra threadId (some turnId) then
      .finish (.ok (turnCompletedEvent latestUsage payload.turn))
    else .quiet latestUsage
  | .threadTokenUsageUpdated payload =>
    if payload.threadId.all (· == threadId) then
      if matchesTargetFromExtra payload.extra threadId (some turnId) then
        -- overwritten even when the payload states no usage
        .quiet (updatedUsage payload)
      else .quiet latestUsage
    else .quiet latestUsage
  | .error payload =>
    sendWhen (matchesTargetFromExtra payload.extra threadId (some turnId))
      (some (.error payload.error.message)) latestUsage
  | _ => .quiet latestUsage

/-! ## The loop -/

/-- What `recv` answers on the channel of the server events. -/
abbrev Received := Broadcast.Answer ServerEvent

/-- The body of the loop. -/
def pumpRound (threadId turnId : String) (latestUsage : Option Usage) :
    Received → Round (Option Usage) StreamItem
  | .closed => .finish (.error .transportClosed)
  | .lagged _ => .quiet latestUsage
  | .item (.notification notification) =>
    pumpNotification threadId turnId latestUsage notification
  | .item .transportClosed => .finish (.error .transportClosed)
  | .item (.serverRequest _) => .quiet latestUsage

/-- What the pump sends, to a consumer that keeps reading. -/
def pumpTurnEvents (threadId turnId : String) (received : List Received) : List StreamItem :=
  emitted (pumpRound threadId turnId) none received

end CodexSdk

import CodexSdk.Error

/-!
# The payloads of responses and notifications

`protocol/responses.rs` and `protocol/notifications.rs`, as far as a decoded payload is looked at
anywhere.  Every struct there has a flattened `extra` map, so every decoder takes an object, reads
the fields by their camel-case names and leaves the remaining members to `extra`.

A `#[serde(default)]` covers an absent member and nothing else.  `Turn.decode_isOk` spells out what
that means for the payload of a finished turn: which shapes of `items`, `status` and `error` are
tolerated, and which make the whole payload undecodable.
-/

set_option autoImplicit false

namespace CodexSdk

open Json

/-! ## Responses -/

structure InitializeResult where
  userAgent : Option String
  extra : Map

def InitializeResult.decode : Decode InitializeResult := fun v => do
  let m ← Decode.object v
  let userAgent ← Map.optional m "userAgent" Decode.string
  return ⟨userAgent, Map.extra ["userAgent"] m⟩

structure ThreadSummary where
  id : String
  model : Option String
  title : Option String
  sourceKind : Option String
  archived : Option Bool
  extra : Map

def ThreadSummary.decode : Decode ThreadSummary := fun v => do
  let m ← Decode.object v
  let id ← Map.required m "id" Decode.string
  let model ← Map.optional m "model" Decode.string
  let title ← Map.optional m "title" Decode.string
  let sourceKind ← Map.optional m "sourceKind" Decode.string
  let archived ← Map.optional m "archived" Decode.bool
  return ⟨id, model, title, sourceKind, archived,
    Map.extra ["id", "model", "title", "sourceKind", "archived"] m⟩

structure TurnError where
  message : String
  codexErrorInfo : Option Value
  additionalDetails : Option Value
  extra : Map

def TurnError.decode : Decode TurnError := fun v => do
  let m ← Decode.object v
  let message ← Map.required m "message" Decode.string
  let codexErrorInfo ← Map.optional m "codexErrorInfo" Decode.value
  let additionalDetails ← Map.optional m "additionalDetails" Decode.value
  return ⟨message, codexErrorInfo, additionalDetails,
    Map.extra ["message", "codexErrorInfo", "additionalDetails"] m⟩

/-- The two uninterpreted members never stand in the way: an error decodes when it is an object
with a message. -/
theorem TurnError.decode_isOk {v : Value} :
    (∃ e, TurnError.decode v = .ok e) ↔
      ∃ m : Map, v = .object m ∧ ∃ s, m.get "message" = some (.string s) := by
  simp only [TurnError.decode, bind_eq_ok, pure_eq_ok, Decode.object_eq_ok, Map.required_eq_ok,
    Decode.string_eq_ok]
  constructor
  · rintro ⟨_, m, rfl, s, ⟨_, hs, rfl⟩, -⟩
    exact ⟨m, rfl, s, hs⟩
  · rintro ⟨m, rfl, s, hs⟩
    obtain ⟨info, hinfo⟩ : ∃ a, m.optional "codexErrorInfo" Decode.value = .ok a :=
      Map.defaulted_isOk.2 fun v _ => Decode.option_value_isOk v
    obtain ⟨details, hdetails⟩ : ∃ a, m.optional "additionalDetails" Decode.value = .ok a :=
      Map.defaulted_isOk.2 fun v _ => Decode.option_value_isOk v
    exact ⟨_, m, rfl, s, ⟨_, hs, rfl⟩, info, hinfo, details, hdetails, rfl⟩

structure Turn where
  id : String
  status : Option String
  items : List Value
  error : Option TurnError
  extra : Map

/-- The fields of `Turn`; everything else is `extra`. -/
def Turn.fields : List String := ["id", "status", "items", "error"]

def Turn.decode : Decode Turn := fun v => do
  let m ← Decode.object v
  let id ← Map.required m "id" Decode.string
  let status ← Map.optional m "status" Decode.string
  let items ← Map.defaulted m "items" (Decode.vec Decode.value) []
  let error ← Map.optional m "error" TurnError.decode
  return ⟨id, status, items, error, Map.extra Turn.fields m⟩

theorem Turn.decode_eq_ok {v : Value} {turn : Turn} :
    Turn.decode v = .ok turn ↔ ∃ m : Map, v = .object m ∧
      m.get "id" = some (.string turn.id) ∧
      m.optional "status" Decode.string = .ok turn.status ∧
      m.defaulted "items" (Decode.vec Decode.value) [] = .ok turn.items ∧
      m.optional "error" TurnError.decode = .ok turn.error ∧
      turn.extra = m.extra Turn.fields := by
  obtain ⟨id, status, items, error, extra⟩ := turn
  simp only [Turn.decode, bind_eq_ok, pure_eq_ok, Decode.object_eq_ok, Map.required_eq_ok,
    Decode.string_eq_ok, Turn.mk.injEq]
  constructor
  · rintro ⟨m, rfl, _, ⟨_, hid, rfl⟩, _, hs, _, hi, _, he, rfl, rfl, rfl, rfl, rfl⟩
    exact ⟨m, rfl, hid, hs, hi, he, rfl⟩
  · rintro ⟨m, rfl, hid, hs, hi, he, rfl⟩
    exact ⟨m, rfl, id, ⟨_, hid, rfl⟩, status, hs, items, hi, error, he, rfl, rfl, rfl, rfl, rfl⟩

/-- The shapes of `items`, `status` and `error` that the decoder of a turn takes. -/
structure Turn.Tolerated (m : Map) : Prop where
  items : ∀ v, m.get "items" = some v → ∃ xs, v = .array xs
  status : ∀ v, m.get "status" = some v → v = .null ∨ ∃ s, v = .string s
  error : ∀ v, m.get "error" = some v →
    v = .null ∨ ∃ e : Map, v = .object e ∧ ∃ s, e.get "message" = some (.string s)

/-- **Exactly the tolerated shapes decode.** -/
theorem Turn.decode_isOk {m : Map} {id : String} (hid : m.get "id" = some (.string id)) :
    (∃ turn, Turn.decode (.object m) = .ok turn) ↔ Turn.Tolerated m := by
  have hs : (∃ a, m.optional "status" Decode.string = .ok a) ↔
      ∀ v, m.get "status" = some v → v = .null ∨ ∃ s, v = .string s := by
    simp only [Map.optional_isOk, Decode.string_isOk]
  have hi : (∃ a, m.defaulted "items" (Decode.vec Decode.value) [] = .ok a) ↔
      ∀ v, m.get "items" = some v → ∃ xs, v = .array xs := by
    simp only [Map.defaulted_isOk, Decode.vec_value_isOk]
  have he : (∃ a, m.optional "error" TurnError.decode = .ok a) ↔ ∀ v, m.get "error" = some v →
      v = .null ∨ ∃ e : Map, v = .object e ∧ ∃ s, e.get "message" = some (.string s) := by
    simp only [Map.optional_isOk, TurnError.decode_isOk]
  constructor
  · rintro ⟨turn, h⟩
    obtain ⟨_, hm, -, hstatus, hitems, herror, -⟩ := Turn.decode_eq_ok.1 h
    cases hm
    exact ⟨hi.1 ⟨_, hitems⟩, hs.1 ⟨_, hstatus⟩, he.1 ⟨_, herror⟩⟩
  · rintro ⟨hitems, hstatus, herror⟩
    obtain ⟨items, hitems⟩ := hi.2 hitems
    obtain ⟨status, hstatus⟩ := hs.2 hstatus
    obtain ⟨error, herror⟩ := he.2 herror
    exact ⟨⟨id, status, items, error, m.extra Turn.fields⟩,
      Turn.decode_eq_ok.2 ⟨m, rfl, hid, hstatus, hitems, herror, rfl⟩⟩

/-! ## Notifications -/

structure ErrorNotification where
  error : TurnError
  extra : Map

def ErrorNotification.decode : Decode ErrorNotification := fun v => do
  let m ← Decode.object v
  let error ← Map.required m "error" TurnError.decode
  return ⟨error, Map.extra ["error"] m⟩

structure ThreadStartedNotification where
  thread : ThreadSummary
  extra : Map

def ThreadStartedNotification.decode : Decode ThreadStartedNotification := fun v => do
  let m ← Decode.object v
  let thread ← Map.required m "thread" ThreadSummary.decode
  return ⟨thread, Map.extra ["thread"] m⟩

structure ThreadNameUpdatedNotification where
  threadId : String
  name : String
  extra : Map

def ThreadNameUpdatedNotification.decode : Decode ThreadNameUpdatedNotification := fun v => do
  let m ← Decode.object v
  let threadId ← Map.required m "threadId" Decode.string
  let name ← Map.required m "name" Decode.string
  return ⟨threadId, name, Map.extra ["threadId", "name"] m⟩

structure ThreadLifecycleNotification where
  threadId : String
  extra : Map

def ThreadLifecycleNotification.decode : Decode ThreadLifecycleNotification := fun v => do
  let m ← Decode.object v
  let threadId ← Map.required m "threadId" Decode.string
  return ⟨threadId, Map.extra ["threadId"] m⟩

structure ThreadStatusValue where
  statusType : Option String
  activeFlags : List String
  extra : Map

/-- `status_type` travels as `type`. -/
def ThreadStatusValue.decode : Decode ThreadStatusValue := fun v => do
  let m ← Decode.object v
  let statusType ← Map.optional m "type" Decode.string
  let activeFlags ← Map.defaulted m "activeFlags" (Decode.vec Decode.string) []
  return ⟨statusType, activeFlags, Map.extra ["type", "activeFlags"] m⟩

structure ThreadStatusChangedNotification where
  threadId : String
  status : Option ThreadStatusValue
  extra : Map

def ThreadStatusChangedNotification.decode : Decode ThreadStatusChangedNotification := fun v => do
  let m ← Decode.object v
  let threadId ← Map.required m "threadId" Decode.string
  let status ← Map.optional m "status" ThreadStatusValue.decode
  return ⟨threadId, status, Map.extra ["threadId", "status"] m⟩

structure ThreadTokenUsageUpdatedNotification where
  threadId : Option String
  usage : Option Value
  extra : Map

/-- The fields of `ThreadTokenUsageUpdatedNotification`. -/
def ThreadTokenUsageUpdatedNotification.fields : List String := ["threadId", "usage"]

def ThreadTokenUsageUpdatedNotification.decode :
    Decode ThreadTokenUsageUpdatedNotification := fun v => do
  let m ← Decode.object v
  let threadId ← Map.optional m "threadId" Decode.string
  let usage ← Map.optional m "usage" Decode.value
  return ⟨threadId, usage, Map.extra ThreadTokenUsageUpdatedNotification.fields m⟩

/-- `TurnStartedNotification` and `TurnCompletedNotification` have the same fields. -/
structure TurnNotification where
  turn : Turn
  extra : Map

def TurnNotification.decode : Decode TurnNotification := fun v => do
  let m ← Decode.object v
  let turn ← Map.required m "turn" Turn.decode
  return ⟨turn, Map.extra ["turn"] m⟩

theorem TurnNotification.decode_eq_ok {v : Value} {payload : TurnNotification} :
    TurnNotification.decode v = .ok payload ↔ ∃ (m : Map) (t : Value),
      v = .object m ∧ m.get "turn" = some t ∧ Turn.decode t = .ok payload.turn ∧
        payload.extra = m.extra ["turn"] := by
  obtain ⟨turn, extra⟩ := payload
  simp only [TurnNotification.decode, bind_eq_ok, pure_eq_ok, Decode.object_eq_ok,
    Map.required_eq_ok, TurnNotification.mk.injEq]
  constructor
  · rintro ⟨m, rfl, _, ⟨t, ht, hd⟩, rfl, rfl⟩
    exact ⟨m, t, rfl, ht, hd, rfl⟩
  · rintro ⟨m, t, rfl, ht, hd, rfl⟩
    exact ⟨m, rfl, turn, ⟨t, ht, hd⟩, rfl, rfl⟩

structure TurnDiffUpdatedNotification where
  threadId : String
  turnId : String
  diff : Option String
  extra : Map

def TurnDiffUpdatedNotification.decode : Decode TurnDiffUpdatedNotification := fun v => do
  let m ← Decode.object v
  let threadId ← Map.required m "threadId" Decode.string
  let turnId ← Map.required m "turnId" Decode.string
  let diff ← Map.optional m "diff" Decode.string
  return ⟨threadId, turnId, diff, Map.extra ["threadId", "turnId", "diff"] m⟩

structure PlanStep where
  step : String
  status : String
  extra : Map

def PlanStep.decode : Decode PlanStep := fun v => do
  let m ← Decode.object v
  let step ← Map.required m "step" Decode.string
  let status ← Map.required m "status" Decode.string
  return ⟨step, status, Map.extra ["step", "status"] m⟩

structure TurnPlanUpdatedNotification where
  turnId : String
  explanation : Option String
  plan : List PlanStep
  extra : Map

def TurnPlanUpdatedNotification.decode : Decode TurnPlanUpdatedNotification := fun v => do
  let m ← Decode.object v
  let turnId ← Map.required m "turnId" Decode.string
  let explanation ← Map.optional m "explanation" Decode.string
  let plan ← Map.defaulted m "plan" (Decode.vec PlanStep.decode) []
  return ⟨turnId, explanation, plan, Map.extra ["turnId", "explanation", "plan"] m⟩

structure ItemLifecycleNotification where
  item : Value
  extra : Map

def ItemLifecycleNotification.decode : Decode ItemLifecycleNotification := fun v => do
  let m ← Decode.object v
  let item ← Map.defaulted m "item" Decode.value .null
  return ⟨item, Map.extra ["item"] m⟩

structure DeltaNotification where
  itemId : Option String
  delta : Option String
  text : Option String
  summaryIndex : Option UInt64
  extra : Map

/-- The fields of `DeltaNotification`. -/
def DeltaNotification.fields : List String := ["itemId", "delta", "text", "summaryIndex"]

def DeltaNotification.decode : Decode DeltaNotification := fun v => do
  let m ← Decode.object v
  let itemId ← Map.optional m "itemId" Decode.string
  let delta ← Map.optional m "delta" Decode.string
  let text ← Map.optional m "text" Decode.string
  let summaryIndex ← Map.optional m "summaryIndex" Decode.u64
  return ⟨itemId, delta, text, summaryIndex, Map.extra DeltaNotification.fields m⟩

structure ServerRequestResolvedNotification where
  threadId : Option String
  requestId : RequestId
  extra : Map

def ServerRequestResolvedNotification.decode :
    Decode ServerRequestResolvedNotification := fun v => do
  let m ← Decode.object v
  let threadId ← Map.optional m "threadId" Decode.string
  let requestId ← Map.required m "requestId" RequestId.decode
  return ⟨threadId, requestId, Map.extra ["threadId", "requestId"] m⟩

/-- An `opaque_struct!`: nothing but the flattened map. -/
structure OpaquePayload where
  extra : Map

def OpaquePayload.decode : Decode OpaquePayload := fun v => do
  let m ← Decode.object v
  return ⟨m⟩

end CodexSdk

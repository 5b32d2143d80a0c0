import Mathlib.Data.List.Induction
import CodexSdk.Turn.Shape

/-!
# The usage a turn is reported with

A turn that completes is reported with the usage it states itself, or else with the one its updates
left behind.  What they leave behind is what the last of them states, even if that is nothing:
`known_usage_iff` says when this is the usage that was stated last.
-/

set_option autoImplicit false

namespace CodexSdk

open Json Rounds

section

variable (threadId turnId : String)

/-- The token-usage update an input is, if it is addressed to the turn. -/
def addressedUpdate : Received → Option ThreadTokenUsageUpdatedNotification
  | .item (.notification (.threadTokenUsageUpdated payload)) =>
    if payload.threadId.all (· == threadId)
        && matchesTargetFromExtra payload.extra threadId (some turnId) then
      some payload
    else none
  | _ => none

/-- What a turn goes through that completes: the inputs while it runs, none of which ends the
stream, the notification that it is over, and whatever comes then. -/
structure CompletedTurn where
  before : List Received
  payload : TurnNotification
  after : List Received
  running : ∀ r ∈ before, endsStream threadId turnId r = false
  ended : finishes threadId turnId payload = true
  notFailed : payload.turn.failed = false

end

/-- The usage stated last by some updates, if one of them states any. -/
def StatedLast (updates : List ThreadTokenUsageUpdatedNotification) : Option Usage → Prop
  | some usage => ∃ earlier payload later, updates = earlier ++ payload :: later ∧
      updatedUsage payload = some usage ∧ ∀ p ∈ later, updatedUsage p = none
  | none => ∀ p ∈ updates, updatedUsage p = none

namespace CompletedTurn

variable {threadId turnId : String} (t : CompletedTurn threadId turnId)

def received : List Received :=
  t.before ++ .item (.notification (.turnCompleted t.payload)) :: t.after

/-- The updates of the turn. -/
def updates : List ThreadTokenUsageUpdatedNotification :=
  t.before.filterMap (addressedUpdate threadId turnId)

/-- The usage the turn states itself: `usage`, or else `tokenUsage`. -/
def ownUsage : Option Usage := parseUsageFromTurnExtra t.payload.turn.extra

/-- The turn is reported with its own usage, or else with the usage stated last before it. -/
def ReportsKnownUsage : Prop :=
  ∃ sent usage, pumpTurnEvents threadId turnId t.received =
      sent ++ [.ok (.turnCompleted usage)] ∧
    (usage = t.ownUsage ∧ t.ownUsage ≠ none ∨ t.ownUsage = none ∧ StatedLast t.updates usage)

/-- No usage is forgotten: the turn states its own, or the last update states one, or none does. -/
def Keeps : Prop :=
  t.ownUsage ≠ none ∨ (∃ payload ∈ t.updates.getLast?, updatedUsage payload ≠ none) ∨
    ∀ payload ∈ t.updates, updatedUsage payload = none

end CompletedTurn

/-! ## What the updates leave behind -/

section

variable {threadId turnId : String}

theorem usageStep_eq (usage : Option Usage) (r : Received) :
    usageStep threadId turnId usage r = match addressedUpdate threadId turnId r with
      | some payload => updatedUsage payload
      | none => usage := by
  unfold usageStep
  split
  · rw [addressedUpdate]
    split <;> rfl
  · rename_i hother
    rw [addressedUpdate]
    exact hother

/-- **What is left behind** is what the last update states. -/
theorem usageAfter_eq (received : List Received) :
    usageAfter threadId turnId received =
      (received.filterMap (addressedUpdate threadId turnId)).getLast?.bind updatedUsage := by
  induction received using List.reverseRecOn with
  | nil => rfl
  | append_singleton received r ih =>
    rw [usageAfter] at ih ⊢
    rw [List.foldl_append, List.foldl_cons, List.foldl_nil, ih, usageStep_eq,
      List.filterMap_append]
    cases haddressed : addressedUpdate threadId turnId r with
    | none => simp [haddressed]
    | some payload => simp [haddressed]

/-- The last update states what is stated last, unless it states nothing and another does. -/
theorem statedLast_getLast_iff (updates : List ThreadTokenUsageUpdatedNotification) :
    StatedLast updates (updates.getLast?.bind updatedUsage) ↔
      (∃ payload ∈ updates.getLast?, updatedUsage payload ≠ none) ∨
        ∀ payload ∈ updates, updatedUsage payload = none := by
  rcases List.eq_nil_or_concat updates with rfl | ⟨earlier, payload, rfl⟩
  · simp [StatedLast]
  · rw [List.concat_eq_append, List.getLast?_concat, Option.bind_some]
    cases hpayload : updatedUsage payload with
    | none => simp [StatedLast, hpayload]
    | some usage =>
      refine iff_of_true ⟨earlier, payload, [], rfl, hpayload, by simp⟩ (.inl ⟨payload, rfl, ?_⟩)
      rw [hpayload]
      exact Option.some_ne_none usage

end

namespace CompletedTurn

variable {threadId turnId : String} (t : CompletedTurn threadId turnId)

theorem pumpTurnEvents_received :
    pumpTurnEvents threadId turnId t.received =
      t.before.filterMap (progress threadId turnId) ++
        [.ok (.turnCompleted (t.ownUsage.or (t.updates.getLast?.bind updatedUsage)))] := by
  have hsent := pumpRound_separates.emitted_of_ends t.running
    (i := .item (.notification (.turnCompleted t.payload))) t.ended t.after none
  rw [pumpTurnEvents, received, hsent, terminalItem, turnCompletedEvent, t.notFailed,
    if_neg Bool.false_ne_true, updates, ← usageAfter_eq]
  rfl

/-- **When the usage is the known one.** -/
theorem known_usage_iff : t.ReportsKnownUsage ↔ t.Keeps := by
  rw [ReportsKnownUsage, Keeps, ← statedLast_getLast_iff, pumpTurnEvents_received]
  rcases hown : t.ownUsage with _ | own
  · constructor
    · rintro ⟨sent, usage, hsent, ⟨-, habsurd⟩ | ⟨-, hstated⟩⟩
      · exact absurd rfl habsurd
      · obtain ⟨-, hlast⟩ := List.append_inj' hsent rfl
        rw [Option.none_or] at hlast
        obtain rfl : t.updates.getLast?.bind updatedUsage = usage := by simpa using hlast
        exact .inr hstated
    · rintro (habsurd | hstated)
      · exact absurd rfl habsurd
      · exact ⟨_, _, rfl, .inr ⟨rfl, hstated⟩⟩
  · have hne : some own ≠ none := Option.some_ne_none own
    exact iff_of_true ⟨_, _, rfl, .inl ⟨rfl, hne⟩⟩ (.inl hne)

end CompletedTurn

theorem not_failed_of_completed {turn : Turn} (h : turn.status = some "completed") :
    turn.failed = false := by
  rw [Turn.failed, h, beq_eq_false_iff_ne]
  intro hlower
  have hmap : "completed".toLower = "completed".map Char.toLower := rfl
  have hchars := congrArg String.toList hlower
  rw [Option.getD_some, hmap, String.toList_map] at hchars
  exact absurd hchars (by decide)

/-- An update that states this usage. -/
def usageUpdate (usage : Option Value) : Received :=
  .item (.notification (.threadTokenUsageUpdated ⟨some "thread", usage, []⟩))

/-- A turn with two updates, of which the second states no usage. -/
def emptyUpdateLast : CompletedTurn "thread" "turn" where
  before := [usageUpdate (some (.object
    [("inputTokens", .number (.posInt 10)), ("outputTokens", .number (.posInt 7))])),
    usageUpdate none]
  payload := ⟨⟨"turn", some "completed", [], none, []⟩, []⟩
  after := []
  running := by
    intro r hr
    simp only [List.mem_cons, List.not_mem_nil, or_false] at hr
    rcases hr with rfl | rfl <;> rfl
  ended := rfl
  notFailed := not_failed_of_completed rfl

/-- The ten tokens in and seven out are not reported. -/
theorem emptyUpdateLast_forgets : ¬ emptyUpdateLast.ReportsKnownUsage := by
  have hleft : emptyUpdateLast.updates.getLast?.bind updatedUsage = none := rfl
  rw [CompletedTurn.ReportsKnownUsage, CompletedTurn.pumpTurnEvents_received, hleft]
  rintro ⟨sent, usage, hsent, ⟨-, habsurd⟩ | ⟨-, hstated⟩⟩
  · exact habsurd rfl
  · obtain ⟨-, hlast⟩ := List.append_inj' hsent rfl
    have hown : emptyUpdateLast.ownUsage = none := rfl
    obtain rfl : none = usage := by simpa [hown] using hlast
    have hfirst := hstated ⟨some "thread", _, []⟩ List.mem_cons_self
    rw [updatedUsage, Option.bind_some, parseUsageFromValue_object] at hfirst
    cases hfirst

end CodexSdk

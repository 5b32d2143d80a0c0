import CodexSdk.Turn.Pump

/-!
# The shape of a turn's stream

What `pumpTurnEvents` sends, said without the loop.  `progress` is what a single input shows of the
turn, `Terminal` relates an input that ends the stream to the last element sent, and
`pumpTurnEvents_shape` says that the stream is the progress of the inputs before the first terminal
one, followed by exactly one terminal element.

The state of the loop enters at one place only: a turn that completes without usage of its own is
reported with the usage its updates left behind (`usageAfter`).
-/

set_option autoImplicit false

namespace CodexSdk

open Json Rounds

/-! ## The reference -/

/-- The id of the item a delta continues, and the piece of text it adds: its `delta`, or else its
`text`, and nothing if that is missing or empty. -/
def DeltaNotification.piece (delta : DeltaNotification) : Option (String × String) :=
  match delta.delta, delta.text with
  | some text, _ | none, some text =>
    if text = "" then none else some (delta.itemId.getD "", text)
  | none, none => none

/-- What a notification shows of a turn it belongs to. -/
def ServerNotification.shown : ServerNotification → Option ThreadEvent
  | .itemStarted payload => some (.itemStarted (parseThreadItem payload.item))
  | .itemCompleted payload => some (.itemCompleted (parseThreadItem payload.item))
  | .itemAgentMessageDelta delta =>
    delta.piece.map fun (id, text) => .itemUpdated (.agentMessage ⟨id, text, none⟩)
  | .itemPlanDelta delta => delta.piece.map fun (id, text) => .itemUpdated (.plan ⟨id, text⟩)
  | .itemReasoningSummaryTextDelta delta | .itemReasoningTextDelta delta =>
    delta.piece.map fun (id, text) => .itemUpdated (.reasoning ⟨id, text⟩)
  | .error payload => some (.error payload.error.message)
  | _ => none

/-- Where a notification carries the ids of the thread and the turn it belongs to. -/
def ServerNotification.markers : ServerNotification → Map
  | .itemStarted payload | .itemCompleted payload => payload.extra
  | .itemAgentMessageDelta delta | .itemPlanDelta delta | .itemReasoningSummaryTextDelta delta
  | .itemReasoningTextDelta delta => delta.extra
  | .turnCompleted payload => payload.turn.extra
  | .threadTokenUsageUpdated payload => payload.extra
  | .error payload => payload.extra
  | _ => []

/-- The notification belongs to the turn, as far as its markers tell. -/
def ServerNotification.concerns (notification : ServerNotification) (threadId turnId : String) :
    Bool :=
  matchesTargetFromExtra notification.markers threadId (some turnId)

variable (threadId turnId : String)

/-- What an input that does not end the stream contributes to it. -/
def progress : Received → Option StreamItem
  | .item (.notification notification) =>
    if notification.concerns threadId turnId then notification.shown.map .ok else none
  | _ => none

/-- The finished turn is the one that is streamed. -/
def finishes (payload : TurnNotification) : Bool :=
  payload.turn.id == turnId && matchesTargetFromExtra payload.turn.extra threadId (some turnId)

/-- `Terminal usage r e`: the input `r` ends the stream, and `e` is its last element if `usage` is
the usage known so far. -/
inductive Terminal (usage : Option Usage) : Received → StreamItem → Prop
  | failed {payload : TurnNotification} {status : String}
      (h : finishes threadId turnId payload = true) (hs : payload.turn.status = some status)
      (hf : status.toLower = "failed") :
      Terminal usage (.item (.notification (.turnCompleted payload)))
        (.ok (.turnFailed ⟨(payload.turn.error.map TurnError.message).getD "turn failed"⟩))
  | completed {payload : TurnNotification} (h : finishes threadId turnId payload = true)
      (hf : ∀ status, payload.turn.status = some status → status.toLower ≠ "failed") :
      Terminal usage (.item (.notification (.turnCompleted payload)))
        (.ok (.turnCompleted ((parseUsageFromTurnExtra payload.turn.extra).or usage)))
  | transportClosed : Terminal usage (.item .transportClosed) (.error .transportClosed)
  | closed : Terminal usage .closed (.error .transportClosed)

/-- An input ends the stream. -/
def endsStream : Received → Bool
  | .item (.notification (.turnCompleted payload)) => finishes threadId turnId payload
  | .item .transportClosed | .closed => true
  | _ => false

/-- The usage a single input leaves behind. -/
def usageStep (usage : Option Usage) : Received → Option Usage
  | .item (.notification (.threadTokenUsageUpdated payload)) =>
    if payload.threadId.all (· == threadId)
        && matchesTargetFromExtra payload.extra threadId (some turnId) then
      updatedUsage payload
    else usage
  | _ => usage

/-- The usage known after some inputs. -/
def usageAfter (received : List Received) : Option Usage :=
  received.foldl (usageStep threadId turnId) none

/-- The last element of the stream. -/
def terminalItem (usage : Option Usage) : Received → StreamItem
  | .item (.notification (.turnCompleted payload)) => .ok (turnCompletedEvent usage payload.turn)
  | _ => .error .transportClosed

/-! ## The loop and the reference agree -/

theorem Turn.failed_iff {turn : Turn} :
    turn.failed = true ↔ ∃ status, turn.status = some status ∧ status.toLower = "failed" := by
  rw [Turn.failed, beq_iff_eq]
  cases turn.status with
  | none =>
    have hempty : "".toLower = "" := String.map_eq_empty.2 rfl
    simp [hempty]
  | some status => simp

variable {threadId turnId}

/-- An input that ends the stream is related to the element that ends it. -/
theorem terminal_terminalItem {r : Received} (h : endsStream threadId turnId r = true)
    (usage : Option Usage) : Terminal threadId turnId usage r (terminalItem usage r) := by
  unfold endsStream at h
  split at h
  · rename_i payload
    rw [terminalItem, turnCompletedEvent]
    split
    · rename_i hf
      obtain ⟨status, hs, hl⟩ := Turn.failed_iff.1 hf
      exact .failed h hs hl
    · rename_i hf
      refine .completed h fun status hs hl => hf (Turn.failed_iff.2 ⟨status, hs, hl⟩)
  · exact .transportClosed
  · exact .closed
  · cases h

/-- A terminal input does end the stream. -/
theorem Terminal.endsStream {usage : Option Usage} {r : Received} {e : StreamItem}
    (h : Terminal threadId turnId usage r e) : endsStream threadId turnId r = true := by
  cases h with
  | failed h => exact h
  | completed h => exact h
  | transportClosed => rfl
  | closed => rfl

theorem sendWhen_eq (guard : Bool) (shown : Option ThreadEvent) (usage : Option Usage) :
    sendWhen guard shown usage
      = match (if guard then shown.map .ok else none : Option StreamItem) with
        | some e => .emit e
        | none => .quiet usage := by
  cases guard <;> cases shown <;> rfl

/-- A delta is sent on as the piece it adds. -/
theorem deltaItemUpdated_eq (delta : DeltaNotification) (build : String → String → ThreadItem) :
    deltaItemUpdated delta build =
      delta.piece.map fun (id, text) => .itemUpdated (build id text) := by
  have hpiece : ∀ text : String,
      (if text = "" then none else
        some (ThreadEvent.itemUpdated (build (delta.itemId.getD "") text))) =
      (if text = "" then none else some (delta.itemId.getD "", text)).map
        fun (id, text) => .itemUpdated (build id text) := by
    intro text
    split <;> rfl
  rw [deltaItemUpdated, DeltaNotification.payloadText, DeltaNotification.piece]
  cases delta.delta with
  | some text => exact hpiece text
  | none => cases delta.text with
    | some text => exact hpiece text
    | none => rfl

/-- A round that does not end the stream sends the progress, or changes the usage. -/
theorem pumpRound_of_not_ends {r : Received} (h : endsStream threadId turnId r = false)
    (usage : Option Usage) :
    pumpRound threadId turnId usage r = match progress threadId turnId r with
      | some e => .emit e
      | none => .quiet (usageStep threadId turnId usage r) := by
  cases r with
  | closed => cases h
  | lagged skipped => rfl
  | item event =>
    cases event with
    | transportClosed => cases h
    | serverRequest request => rfl
    | notification n =>
      cases n with
      | itemStarted | itemCompleted | error => exact sendWhen_eq _ _ _
      | itemAgentMessageDelta delta | itemPlanDelta delta | itemReasoningSummaryTextDelta delta
      | itemReasoningTextDelta delta =>
        rw [pumpRound, pumpNotification, deltaItemUpdated_eq]
        exact sendWhen_eq _ _ _
      | turnCompleted payload =>
        have hp :
            progress threadId turnId (.item (.notification (.turnCompleted payload))) = none :=
          ite_self _
        rw [hp]
        exact if_neg (Bool.eq_false_iff.1 h)
      | threadTokenUsageUpdated payload =>
        have hp : progress threadId turnId
            (.item (.notification (.threadTokenUsageUpdated payload))) = none := ite_self _
        rw [hp, pumpRound, pumpNotification, usageStep]
        cases payload.threadId.all (· == threadId) <;>
          cases matchesTargetFromExtra payload.extra threadId (some turnId) <;> rfl
      | _ => simp [pumpRound, pumpNotification, progress, ServerNotification.shown, usageStep]

/-- An input that shows something does not change the usage. -/
theorem usageStep_of_progress {r : Received} {e : StreamItem}
    (h : progress threadId turnId r = some e) (usage : Option Usage) :
    usageStep threadId turnId usage r = usage := by
  unfold usageStep
  split
  · simp [progress, ServerNotification.shown] at h
  · rfl

/-- **The rounds of the pump separate.** -/
theorem pumpRound_separates :
    Separates (pumpRound threadId turnId) (endsStream threadId turnId) terminalItem
      (progress threadId turnId) (usageStep threadId turnId) where
  finish := by
    intro usage r h
    unfold endsStream at h
    split at h
    · exact if_pos h
    · rfl
    · rfl
    · cases h
  emit := by
    intro usage r e he hp
    refine ⟨?_, usageStep_of_progress hp usage⟩
    rw [pumpRound_of_not_ends he, hp]
  quiet := by
    intro usage r he hp
    rw [pumpRound_of_not_ends he, hp]

variable (threadId turnId)

/-- **The shape of the stream.**  Either no input is terminal and the stream is the progress of
all of them, or it is the progress of the inputs before the first terminal one, and then the one
element that input ends it with. -/
theorem pumpTurnEvents_shape (received : List Received) :
    ((∀ r ∈ received, ∀ usage e, ¬ Terminal threadId turnId usage r e) ∧
      pumpTurnEvents threadId turnId received
        = received.filterMap (progress threadId turnId)) ∨
    ∃ pre r post e, received = pre ++ r :: post ∧
      (∀ r' ∈ pre, ∀ usage e, ¬ Terminal threadId turnId usage r' e) ∧
      Terminal threadId turnId (usageAfter threadId turnId pre) r e ∧
      pumpTurnEvents threadId turnId received
        = pre.filterMap (progress threadId turnId) ++ [e] := by
  have hnot : ∀ l : List Received, (∀ r ∈ l, endsStream threadId turnId r = false) →
      ∀ r ∈ l, ∀ usage e, ¬ Terminal threadId turnId usage r e := by
    intro l hl r hr usage e ht
    exact absurd ht.endsStream (by simp [hl r hr])
  rcases pumpRound_separates.emitted_cases none received with
    ⟨hno, heq⟩ | ⟨pre, r, post, hsplit, hpre, hr, heq⟩
  · exact .inl ⟨hnot _ hno, heq⟩
  · exact .inr ⟨pre, r, post, _, hsplit, hnot _ hpre, terminal_terminalItem hr _, heq⟩

end CodexSdk

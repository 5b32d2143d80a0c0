import CodexSdk.Thread.Operations
import CodexSdk.Turn.Shape

/-!
# What a turn comes to

`Thread::run` starts a turn and reads its stream to the end.  The stream is what the pump makes of
the events of the server, so between what the server says and what `run` returns are two loops.
`RunOutcome` is the answer without them: the first event that decides the turn says whether it is a
result or an error, and a result has the items the turn completed before, the text of its last final
answer or else of its last message, and the usage stated last.

`run_outcome` says that `run` returns just that.
-/

set_option autoImplicit false

namespace CodexSdk

open Json Rounds

/-! ## The reference -/

section

variable (threadId turnId : String)

/-- The item an event completes, if it is one of the turn. -/
def completedItem : Received → Option ThreadItem
  | .item (.notification (.itemCompleted payload)) =>
    if matchesTargetFromExtra payload.extra threadId (some turnId) then
      some (parseThreadItem payload.item)
    else none
  | _ => none

/-- The message of an error of the turn. -/
def turnError : Received → Option String
  | .item (.notification (.error payload)) =>
    if matchesTargetFromExtra payload.extra threadId (some turnId) then some payload.error.message
    else none
  | _ => none

/-- The event decides what the turn comes to. -/
def decides (r : Received) : Bool :=
  endsStream threadId turnId r || (turnError threadId turnId r).isSome

end

/-- The text of the last message of a kind among the items. -/
def lastMessage (kind : AgentMessageItem → Bool) (items : List ThreadItem) : Option String :=
  (items.filterMap fun item => match item with
    | .agentMessage message => if kind message then some message.text else none
    | _ => none).getLast?

/-- The text of the last final answer, or else of the last message. -/
def responseOf (items : List ThreadItem) : String :=
  ((lastMessage AgentMessageItem.isFinalAnswer items).or
    (lastMessage (fun message => !message.isFinalAnswer) items)).getD ""

/-- What a turn comes to by the events of the server. -/
inductive RunOutcome (threadId turnId : String) (received : List Received) :
    Except ThreadRunError FinishedTurn → Prop
  | completed {pre post : List Received} {payload : TurnNotification}
      (hsplit : received = pre ++ .item (.notification (.turnCompleted payload)) :: post)
      (hpre : ∀ r ∈ pre, decides threadId turnId r = false)
      (hfinishes : finishes threadId turnId payload = true)
      (hstatus : ∀ status, payload.turn.status = some status → status.toLower ≠ "failed") :
      RunOutcome threadId turnId received (.ok
        ⟨pre.filterMap (completedItem threadId turnId),
          responseOf (pre.filterMap (completedItem threadId turnId)),
          (parseUsageFromTurnExtra payload.turn.extra).or (usageAfter threadId turnId pre)⟩)
  | failed {pre post : List Received} {payload : TurnNotification} {status : String}
      (hsplit : received = pre ++ .item (.notification (.turnCompleted payload)) :: post)
      (hpre : ∀ r ∈ pre, decides threadId turnId r = false)
      (hfinishes : finishes threadId turnId payload = true)
      (hstatus : payload.turn.status = some status) (hfailed : status.toLower = "failed") :
      RunOutcome threadId turnId received (.error
        (.turnFailed ((payload.turn.error.map TurnError.message).getD "turn failed")))
  | error {pre post : List Received} {r : Received} {message : String}
      (hsplit : received = pre ++ r :: post) (hpre : ∀ r ∈ pre, decides threadId turnId r = false)
      (herror : turnError threadId turnId r = some message) :
      RunOutcome threadId turnId received (.error (.turnFailed message))
  | closed {pre post : List Received} {r : Received} (hsplit : received = pre ++ r :: post)
      (hpre : ∀ r ∈ pre, decides threadId turnId r = false)
      (hclosed : r = .closed ∨ r = .item .transportClosed) :
      RunOutcome threadId turnId received (.error (.client .transportClosed))
  | undecided (hno : ∀ r ∈ received, decides threadId turnId r = false) :
      RunOutcome threadId turnId received (.error (.client .transportClosed))

/-! ## The two loops -/

/-- The texts `run` has kept after some items. -/
def FinalResponse.of (items : List ThreadItem) : FinalResponse :=
  ⟨lastMessage AgentMessageItem.isFinalAnswer items,
    lastMessage (fun message => !message.isFinalAnswer) items⟩

theorem lastMessage_concat (kind : AgentMessageItem → Bool) (items : List ThreadItem)
    (item : ThreadItem) :
    lastMessage kind (items ++ [item]) = match item with
      | .agentMessage message =>
        if kind message then some message.text else lastMessage kind items
      | _ => lastMessage kind items := by
  rw [lastMessage, List.filterMap_append]
  cases item with
  | agentMessage message => cases h : kind message <;> simp [h, lastMessage]
  | _ => simp [lastMessage]

/-- **One item**: what is kept after it is updated as `run` does. -/
theorem FinalResponse.of_concat (items : List ThreadItem) (item : ThreadItem) :
    (FinalResponse.of items).update item = FinalResponse.of (items ++ [item]) := by
  rw [FinalResponse.of, FinalResponse.of, lastMessage_concat, lastMessage_concat]
  cases item with
  | agentMessage message =>
    cases h : message.isFinalAnswer <;> simp [FinalResponse.update, h]
  | _ => rfl

variable {threadId turnId : String}

theorem decides_eq_false {r : Received} :
    decides threadId turnId r = false ↔
      endsStream threadId turnId r = false ∧ turnError threadId turnId r = none := by
  simp [decides]

/-- `run` passes over the event. -/
def ThreadEvent.Passed : ThreadEvent → Prop
  | .threadStarted _ | .turnStarted | .itemStarted _ | .itemUpdated _ => True
  | .itemCompleted _ | .turnCompleted _ | .turnFailed _ | .error _ => False

theorem collectTurn_passed {event : Option ThreadEvent} (guard : Bool)
    (h : ∀ e, event = some e → e.Passed) (items : List ThreadItem) (response : FinalResponse)
    (rest : List StreamItem) :
    collectTurn items response
        ((if guard then event.map .ok else none : Option StreamItem).toList ++ rest) =
      collectTurn items response rest := by
  cases guard with
  | false => rfl
  | true =>
    cases event with
    | none => rfl
    | some e =>
      have he := h e rfl
      cases e with
      | itemCompleted | turnCompleted | turnFailed | error => exact he.elim
      | _ => rfl

theorem piece_passed {delta : DeltaNotification} {build : String × String → ThreadItem}
    {e : ThreadEvent} (h : delta.piece.map (fun piece => .itemUpdated (build piece)) = some e) :
    e.Passed := by
  obtain ⟨piece, -, rfl⟩ := Option.map_eq_some_iff.1 h
  trivial

/-- What an event that decides nothing shows does not stop `run`, which keeps the item it
completes. -/
theorem collectTurn_progress {r : Received} (h : turnError threadId turnId r = none)
    (items : List ThreadItem) (rest : List StreamItem) :
    collectTurn items (.of items) ((progress threadId turnId r).toList ++ rest) =
      collectTurn (items ++ (completedItem threadId turnId r).toList)
        (.of (items ++ (completedItem threadId turnId r).toList)) rest := by
  have hpassed : ∀ (shown : Option ThreadEvent) (extra : Map),
      progress threadId turnId r = (if matchesTargetFromExtra extra threadId (some turnId) then
        shown.map .ok else none) → (∀ e, shown = some e → e.Passed) →
      completedItem threadId turnId r = none →
      collectTurn items (.of items) ((progress threadId turnId r).toList ++ rest) =
        collectTurn (items ++ (completedItem threadId turnId r).toList)
          (.of (items ++ (completedItem threadId turnId r).toList)) rest := by
    intro shown extra hprogress hshown hnone
    rw [hprogress, hnone, collectTurn_passed _ hshown, Option.toList_none, List.append_nil]
  have hquiet : progress threadId turnId r = none → completedItem threadId turnId r = none →
      collectTurn items (.of items) ((progress threadId turnId r).toList ++ rest) =
        collectTurn (items ++ (completedItem threadId turnId r).toList)
          (.of (items ++ (completedItem threadId turnId r).toList)) rest := by
    intro hprogress hnone
    simp [hprogress, hnone]
  cases r with
  | closed | lagged skipped => exact hquiet rfl rfl
  | item event =>
    cases event with
    | transportClosed | serverRequest request => exact hquiet rfl rfl
    | notification n =>
      cases n with
      | itemStarted payload => exact hpassed _ payload.extra rfl (by rintro e ⟨⟩; trivial) rfl
      | itemAgentMessageDelta delta | itemPlanDelta delta | itemReasoningSummaryTextDelta delta
      | itemReasoningTextDelta delta =>
        exact hpassed _ delta.extra rfl (fun e he => piece_passed he) rfl
      | itemCompleted payload =>
        rw [progress, completedItem, ServerNotification.concerns, ServerNotification.markers]
        cases matchesTargetFromExtra payload.extra threadId (some turnId) with
        | false => simp
        | true => simp [ServerNotification.shown, collectTurn, FinalResponse.of_concat]
      | error payload =>
        refine hquiet ?_ rfl
        rw [turnError] at h
        rw [progress, ServerNotification.concerns, ServerNotification.markers]
        cases hm : matchesTargetFromExtra payload.extra threadId (some turnId) with
        | false => rfl
        | true => simp [hm] at h
      | _ => exact hquiet (by simp [progress, ServerNotification.shown]) rfl

/-- **A stretch of events that decide nothing**, before whatever comes next. -/
theorem collectTurn_pre {pre : List Received} (hpre : ∀ r ∈ pre, decides threadId turnId r = false)
    (items : List ThreadItem) (rest : List StreamItem) :
    collectTurn items (.of items) (pre.filterMap (progress threadId turnId) ++ rest) =
      collectTurn (items ++ pre.filterMap (completedItem threadId turnId))
        (.of (items ++ pre.filterMap (completedItem threadId turnId))) rest := by
  induction pre generalizing items with
  | nil => simp
  | cons r pre ih =>
    obtain ⟨hr, hpre⟩ := List.forall_mem_cons.1 hpre
    rw [filterMap_cons_toList, filterMap_cons_toList, List.append_assoc,
      collectTurn_progress (decides_eq_false.1 hr).2, ih hpre, List.append_assoc]

/-- `run` on a stream that starts with events that decide nothing. -/
theorem runOn_pre (threadStarted : Option String) {pre : List Received}
    (hpre : ∀ r ∈ pre, decides threadId turnId r = false) (rest : List StreamItem) :
    runOn (preamble threadStarted ++ (pre.filterMap (progress threadId turnId) ++ rest)) =
      collectTurn (pre.filterMap (completedItem threadId turnId))
        (.of (pre.filterMap (completedItem threadId turnId))) rest := by
  have hpreamble : ∀ stream, runOn (preamble threadStarted ++ stream) =
      collectTurn [] (.of []) stream := by
    intro stream
    cases threadStarted <;> rfl
  rw [hpreamble, collectTurn_pre hpre, List.nil_append]

/-- An error of the turn is shown. -/
theorem progress_of_turnError {r : Received} {message : String}
    (h : turnError threadId turnId r = some message) :
    progress threadId turnId r = some (.ok (.error message)) := by
  unfold turnError at h
  split at h
  · rename_i payload
    split at h
    · rename_i hm
      obtain rfl := Option.some.inj h
      exact if_pos hm
    · cases h
  · cases h

/-- The event that decides the turn: what the pump makes of it is the last thing `run` reads. -/
theorem outcome_of_decides {received pre post : List Received} {r : Received}
    (hsplit : received = pre ++ r :: post) (hpre : ∀ r ∈ pre, decides threadId turnId r = false)
    (hr : decides threadId turnId r = true) :
    RunOutcome threadId turnId received
      (collectTurn (pre.filterMap (completedItem threadId turnId))
        (.of (pre.filterMap (completedItem threadId turnId)))
        (emitted (pumpRound threadId turnId) (usageAfter threadId turnId pre) (r :: post))) := by
  cases hends : endsStream threadId turnId r with
  | true =>
    rw [emitted, pumpRound_separates.finish _ r hends]
    have hterminal := terminal_terminalItem hends (usageAfter threadId turnId pre)
    generalize terminalItem (usageAfter threadId turnId pre) r = last at hterminal ⊢
    cases hterminal with
    | failed h hs hf => exact .failed hsplit hpre h hs hf
    | completed h hf => exact .completed hsplit hpre h hf
    | transportClosed => exact .closed hsplit hpre (.inr rfl)
    | closed => exact .closed hsplit hpre (.inl rfl)
  | false =>
    rw [decides, hends, Bool.false_or, Option.isSome_iff_exists] at hr
    obtain ⟨message, herror⟩ := hr
    rw [pumpRound_separates.emitted_cons hends, progress_of_turnError herror]
    exact .error hsplit hpre herror

/-- **What `run` returns is what the turn comes to.** -/
theorem run_outcome (threadId turnId : String) (threadStarted : Option String)
    (received : List Received) :
    RunOutcome threadId turnId received
      (runOn (preamble threadStarted ++ pumpTurnEvents threadId turnId received)) := by
  cases hfind : received.find? (decides threadId turnId) with
  | none =>
    have hno : ∀ r ∈ received, decides threadId turnId r = false := by simpa using hfind
    have hstream := pumpRound_separates.emitted_of_not_ends
      (fun r hr => (decides_eq_false.1 (hno r hr)).1) none
    have hrun := runOn_pre threadStarted hno []
    rw [List.append_nil] at hrun
    rw [pumpTurnEvents, hstream, hrun]
    exact .undecided hno
  | some r =>
    obtain ⟨hr, pre, post, hsplit, hpre⟩ := List.find?_eq_some_iff_append.1 hfind
    replace hpre : ∀ r ∈ pre, decides threadId turnId r = false := by simpa using hpre
    have hends : ∀ r ∈ pre, endsStream threadId turnId r = false :=
      fun r hr => (decides_eq_false.1 (hpre r hr)).1
    rw [pumpTurnEvents, hsplit, pumpRound_separates.emitted_pre hends, runOn_pre _ hpre]
    exact outcome_of_decides rfl hpre hr

end CodexSdk

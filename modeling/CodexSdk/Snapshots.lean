import CodexSdk.Render
import CodexSdk.Since

/-!
# Completed snapshots that are not shown

`ThreadEventRenderer::render` suppresses a completed item when a fragment of it was streamed.  What
it remembers is a display kind and an id, and every update that renders to something is remembered,
not only those of agent messages, reasoning and plans.  `render_completed_eq_none_iff` says of a
list of events what the set then stands for, and `suppression_sound_iff` for which lists only the
snapshots of text items are suppressed, and only after a piece of the same text.
-/

set_option autoImplicit false

namespace CodexSdk

open Json Past

section

variable (compactJson : Value → String)

/-- The state a new renderer is in after a list of events. -/
def ThreadEventRenderer.after (events : List ThreadEvent) : ThreadEventRenderer :=
  events.foldl (fun s event => (s.render compactJson event).2) .new

/-- The event is an update that renders to something, under this key. -/
def ThreadEvent.Streams (key : ItemKey) : ThreadEvent → Prop
  | .itemUpdated item => (renderUpdated compactJson item).markdown ≠ "" ∧
      (renderThreadItem compactJson item).key = some key
  | _ => False

/-- The event completes an item with this key. -/
def ThreadEvent.Closes (key : ItemKey) : ThreadEvent → Prop
  | .itemCompleted item => (renderThreadItem compactJson item).key = some key
  | _ => False

/-- The event is an update of this text item with a piece of text. -/
def ThreadEvent.UpdatesText (kind : TextKind) (id : String) (event : ThreadEvent) : Prop :=
  ∃ part : TextPart, part.text ≠ "" ∧ event = .itemUpdated (kind.item id part)

/-- The event completes this text item. -/
def ThreadEvent.CompletesText (kind : TextKind) (id : String) (event : ThreadEvent) : Prop :=
  ∃ part : TextPart, event = .itemCompleted (kind.item id part)

/-- The event is an update of a todo list with this id. -/
def ThreadEvent.UpdatesTodoList (id : String) (event : ThreadEvent) : Prop :=
  ∃ item : TodoListItem, item.id = id ∧ event = .itemUpdated (.todoList item)

/-- The event completes a todo list with this id. -/
def ThreadEvent.CompletesTodoList (id : String) (event : ThreadEvent) : Prop :=
  ∃ item : TodoListItem, item.id = id ∧ event = .itemCompleted (.todoList item)

/-- An agent message, a reasoning item or a plan. -/
def ThreadItem.IsText (item : ThreadItem) : Prop :=
  ∃ kind id part, item = TextKind.item kind id part

/-- Of the completed items that render to something only text items are suppressed, and those only
if a piece of the text was shown since an item of the variant and id was last completed. -/
def SuppressionSound (events : List ThreadEvent) : Prop :=
  ∀ before item rest, events = before ++ .itemCompleted item :: rest →
    (renderThreadItem compactJson item).markdown ≠ "" →
    ((ThreadEventRenderer.after compactJson before).render compactJson (.itemCompleted item)).1
      = none →
    ∃ kind id part, item = TextKind.item kind id part ∧
      Since (ThreadEvent.CompletesText kind id) (ThreadEvent.UpdatesText kind id) before

/-- No update is taken for a piece of another item's text.  The items other than text items are
completed without an update under their display kind and id since that was last completed.  A plan
shares its display kind with the todo lists: it is completed after the update of a todo list with
its id only if there was a piece of the plan too. -/
structure UpdatesApart (events : List ThreadEvent) : Prop where
  snapshot : ∀ before item rest, events = before ++ .itemCompleted item :: rest → ¬ item.IsText →
    ∀ key, (renderThreadItem compactJson item).key = some key →
      ¬ Since (ThreadEvent.Closes compactJson key) (ThreadEvent.Streams compactJson key) before
  plan : ∀ before item rest, events = before ++ .itemCompleted (.plan item) :: rest →
    Since (ThreadEvent.Closes compactJson (.plan, item.id))
      (ThreadEvent.UpdatesTodoList item.id) before →
    Since (ThreadEvent.CompletesText .plan item.id) (ThreadEvent.UpdatesText .plan item.id) before

/-! ## What the renderer remembers -/

variable {compactJson}

theorem ThreadEventRenderer.mem_render {key : ItemKey} (s : ThreadEventRenderer)
    (event : ThreadEvent) :
    key ∈ (s.render compactJson event).2.streamedItems ↔
      event.Streams compactJson key ∨ ¬ event.Closes compactJson key ∧ key ∈ s.streamedItems := by
  cases event with
  | itemUpdated item =>
    simp only [render, ThreadEvent.Streams, ThreadEvent.Closes, ← renderUpdated_key]
    split
    case isTrue h => simp [h]
    case isFalse h => simp [h]
  | itemCompleted item => simp [render, ThreadEvent.Streams, ThreadEvent.Closes]
  | error message => simp [render, ThreadEvent.Streams, ThreadEvent.Closes]
  | turnFailed error => simp [render, ThreadEvent.Streams, ThreadEvent.Closes]
  | threadStarted threadId => simp [render, ThreadEvent.Streams, ThreadEvent.Closes]
  | turnStarted => simp [render, ThreadEvent.Streams, ThreadEvent.Closes]
  | turnCompleted usage => simp [render, ThreadEvent.Streams, ThreadEvent.Closes]
  | itemStarted item => simp [render, ThreadEvent.Streams, ThreadEvent.Closes]

/-- The set stands for the keys that were streamed and not completed since. -/
theorem ThreadEventRenderer.mem_after {key : ItemKey} (events : List ThreadEvent) :
    key ∈ (after compactJson events).streamedItems ↔
      Since (ThreadEvent.Closes compactJson key) (ThreadEvent.Streams compactJson key) events :=
  holds_foldl_iff (fun s : ThreadEventRenderer => key ∈ s.streamedItems)
    (fun s event => s.mem_render event) (Finset.notMem_empty key) events

/-- **When a completed item is not shown.** -/
theorem ThreadEventRenderer.render_completed_eq_none_iff (events : List ThreadEvent)
    (item : ThreadItem) :
    ((after compactJson events).render compactJson (.itemCompleted item)).1 = none ↔
      (renderThreadItem compactJson item).markdown = "" ∨
        ∃ key, (renderThreadItem compactJson item).key = some key ∧
          Since (ThreadEvent.Closes compactJson key) (ThreadEvent.Streams compactJson key)
            events := by
  rw [render]
  generalize hkey : (renderThreadItem compactJson item).key = key
  rcases key with _ | key
  · simp [remembers]
  · rw [remembers_some, ite_eq_right_iff, decide_eq_false_iff_not, mem_after]
    simp only [Option.some.injEq, exists_eq_left', reduceCtorEq, imp_false]
    rw [not_and_or, not_not, ne_eq, not_not, or_comm]

/-! ## Which items share a key -/

theorem append_ne_empty {text : String} (h : text ≠ "") (rest : String) : text ++ rest ≠ "" :=
  fun happend => h (String.append_eq_empty_iff.1 happend).1

/-- The markdown of an item that is not a text item starts with a label. -/
theorem renderThreadItem_markdown_ne {item : ThreadItem} (h : ¬ item.IsText) :
    (renderThreadItem compactJson item).markdown ≠ "" := by
  cases item with
  | agentMessage item => exact absurd ⟨.agentMessage, item.id, ⟨item.text, item.phase⟩, rfl⟩ h
  | reasoning item => exact absurd ⟨.reasoning, item.id, ⟨item.text, none⟩, rfl⟩ h
  | plan item => exact absurd ⟨.plan, item.id, ⟨item.text, none⟩, rfl⟩ h
  | contextCompaction item =>
    have hlabel : "**Context compacted**" ≠ "" := by decide
    exact hlabel
  | _ item =>
    repeat refine append_ne_empty ?_ _
    decide

theorem renderThreadItem_plan_ne (item : PlanItem) :
    (renderThreadItem compactJson (.plan item)).markdown ≠ "" :=
  append_ne_empty (by decide) item.text

/-- What has the key of a text item is this text item, or a todo list that has the id of a plan. -/
theorem eq_item_of_key {kind : TextKind} {id : String} {item : ThreadItem}
    (h : (renderThreadItem compactJson item).key = some (kind.rendered, id)) :
    (∃ part, item = kind.item id part) ∨
      kind = .plan ∧ ∃ list : TodoListItem, list.id = id ∧ item = .todoList list := by
  cases item with
  | agentMessage item =>
    cases kind <;> simp [renderThreadItem, RenderedItem.new, RenderedItem.key,
      TextKind.rendered] at h
    exact .inl ⟨⟨item.text, item.phase⟩, by rw [TextKind.item, ← h]⟩
  | reasoning item =>
    cases kind <;> simp [renderThreadItem, RenderedItem.new, RenderedItem.key,
      TextKind.rendered] at h
    exact .inl ⟨⟨item.text, none⟩, by rw [TextKind.item, ← h]⟩
  | plan item =>
    cases kind <;> simp [renderThreadItem, RenderedItem.new, RenderedItem.key,
      TextKind.rendered] at h
    exact .inl ⟨⟨item.text, none⟩, by rw [TextKind.item, ← h]⟩
  | todoList item =>
    cases kind <;> simp [renderThreadItem, RenderedItem.new, RenderedItem.key,
      TextKind.rendered] at h
    exact .inr ⟨rfl, item, h, rfl⟩
  | _ item =>
    cases kind <;> simp [renderThreadItem, RenderedItem.new, RenderedItem.key,
      TextKind.rendered] at h

theorem streams_text {kind : TextKind} {id : String} {event : ThreadEvent}
    (h : event.Streams compactJson (kind.rendered, id)) :
    event.UpdatesText kind id ∨ kind = .plan ∧ event.UpdatesTodoList id := by
  cases event with
  | itemUpdated item =>
    obtain ⟨hmarkdown, hkey⟩ := h
    obtain ⟨part, rfl⟩ | ⟨hplan, list, hid, rfl⟩ := eq_item_of_key hkey
    · rw [renderUpdated_item] at hmarkdown
      exact .inl ⟨part, hmarkdown, rfl⟩
    · exact .inr ⟨hplan, list, hid, rfl⟩
  | _ => exact h.elim

theorem streams_item (kind : TextKind) (id : String) {part : TextPart} (h : part.text ≠ "") :
    ThreadEvent.Streams compactJson (kind.rendered, id) (.itemUpdated (kind.item id part)) := by
  refine ⟨?_, key_item kind id part⟩
  rwa [renderUpdated_item]

/-- What closes the key of a text item completes it, or else a todo list. -/
theorem closes_text {kind : TextKind} {id : String} {event : ThreadEvent}
    (h : event.Closes compactJson (kind.rendered, id)) :
    event.CompletesText kind id ∨ kind = .plan ∧ event.CompletesTodoList id := by
  cases event with
  | itemCompleted item =>
    obtain ⟨part, rfl⟩ | ⟨hplan, list, hid, rfl⟩ := eq_item_of_key h
    · exact .inl ⟨part, rfl⟩
    · exact .inr ⟨hplan, list, hid, rfl⟩
  | _ => exact h.elim

theorem closes_of_completesText {kind : TextKind} {id : String} {event : ThreadEvent}
    (h : event.CompletesText kind id) : event.Closes compactJson (kind.rendered, id) := by
  obtain ⟨part, rfl⟩ := h
  exact key_item kind id part

theorem streams_of_updatesTodoList {id : String} {event : ThreadEvent}
    (h : event.UpdatesTodoList id) : event.Streams compactJson (.plan, id) := by
  obtain ⟨item, rfl, rfl⟩ := h
  have htext : ¬ (ThreadItem.todoList item).IsText := by
    rintro ⟨kind, id, part, h⟩
    cases kind <;> cases h
  exact ⟨renderThreadItem_markdown_ne htext, rfl⟩

/-- What is streamed under the key of a text item is a piece of it, or else a todo list. -/
theorem since_updatesText {kind : TextKind} {id : String} {events : List ThreadEvent}
    (h : Since (ThreadEvent.Closes compactJson (kind.rendered, id))
      (ThreadEvent.Streams compactJson (kind.rendered, id)) events) :
    Since (ThreadEvent.CompletesText kind id) (ThreadEvent.UpdatesText kind id) events ∨
      kind = .plan ∧ Since (ThreadEvent.Closes compactJson (.plan, id))
        (ThreadEvent.UpdatesTodoList id) events := by
  rcases since_or (h.mono (fun _ => streams_text) fun _ hstop => hstop) with htext | htodo
  · exact .inl (htext.mono (fun _ he => he) fun _ => closes_of_completesText)
  · have hplan : kind = .plan := by
      obtain ⟨-, event, -, -, ⟨hplan, -⟩, -⟩ := htodo
      exact hplan
    subst hplan
    exact .inr ⟨rfl, htodo.mono (fun _ he => he.2) fun _ hstop => hstop⟩

/-! ## When suppression is sound -/

variable (compactJson) in
/-- **Suppression is sound for exactly the lists that keep the updates apart.** -/
theorem suppression_sound_iff (events : List ThreadEvent) :
    SuppressionSound compactJson events ↔ UpdatesApart compactJson events := by
  constructor
  · intro hsound
    constructor
    · intro before item rest hevents htext key hkey hsince
      obtain ⟨kind, id, part, hitem, -⟩ := hsound before item rest hevents
        (renderThreadItem_markdown_ne htext)
        ((ThreadEventRenderer.render_completed_eq_none_iff before item).2
          (.inr ⟨key, hkey, hsince⟩))
      exact htext ⟨kind, id, part, hitem⟩
    · intro before item rest hevents hsince
      have hstreamed := hsince.mono (q := ThreadEvent.Streams compactJson (.plan, item.id))
        (fun _ => streams_of_updatesTodoList) fun _ hstop => hstop
      obtain ⟨kind, id, part, hitem, hpiece⟩ := hsound before (.plan item) rest hevents
        (renderThreadItem_plan_ne item)
        ((ThreadEventRenderer.render_completed_eq_none_iff before (.plan item)).2
          (.inr ⟨(.plan, item.id), rfl, hstreamed⟩))
      cases kind with
      | plan =>
        rw [TextKind.item, ThreadItem.plan.injEq] at hitem
        rwa [hitem]
      | agentMessage => cases hitem
      | reasoning => cases hitem
  · intro hapart before item rest hevents hmarkdown hnone
    rcases (ThreadEventRenderer.render_completed_eq_none_iff before item).1 hnone with
      hempty | ⟨key, hkey, hsince⟩
    · exact absurd hempty hmarkdown
    · by_cases htext : item.IsText
      · obtain ⟨kind, id, part, rfl⟩ := htext
        rw [key_item, Option.some.injEq] at hkey
        subst hkey
        refine ⟨kind, id, part, rfl, ?_⟩
        rcases since_updatesText hsince with hpiece | ⟨rfl, htodo⟩
        · exact hpiece
        · exact hapart.plan before ⟨id, part.text⟩ rest hevents htodo
      · exact absurd hsince (hapart.snapshot before item rest hevents htext key hkey)

end

theorem commandExecution_not_text (item : CommandExecutionItem) :
    ¬ (ThreadItem.commandExecution item).IsText := by
  rintro ⟨kind, id, part, h⟩
  cases kind <;> cases h

/-- A command while it runs, and when it has failed. -/
def runningCommand : CommandExecutionItem := ⟨"c", "make", "", none, .inProgress⟩

def failedCommand : CommandExecutionItem := ⟨"c", "make", "", some 2, .failed⟩

/-- The exit code of the command is not shown. -/
theorem failedCommand_suppressed : ¬ SuppressionSound (fun _ => "null")
    [.itemUpdated (.commandExecution runningCommand),
      .itemCompleted (.commandExecution failedCommand)] := by
  intro hsound
  have hnone : ((ThreadEventRenderer.after (fun _ => "null")
      [.itemUpdated (.commandExecution runningCommand)]).render (fun _ => "null")
        (.itemCompleted (.commandExecution failedCommand))).1 = none :=
    (ThreadEventRenderer.render_completed_eq_none_iff _ _).2 (.inr ⟨(.commandExecution, "c"), rfl,
      [], _, [], rfl, ⟨renderThreadItem_markdown_ne (commandExecution_not_text _), rfl⟩, by simp⟩)
  obtain ⟨kind, id, part, hitem, -⟩ := hsound _ _ [] rfl
    (renderThreadItem_markdown_ne (commandExecution_not_text _)) hnone
  exact commandExecution_not_text _ ⟨kind, id, part, hitem⟩

end CodexSdk

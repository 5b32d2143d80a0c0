import CodexSdk.Snapshots

/-!
# Text items that are shown once

Each text item of an interleaved list of events should be rendered once: its deltas as they come, or
else its completed snapshot.  The renderer goes by the display kind of an item and its id, and a todo
list is displayed as a plan, so a todo list can take the place of a plan that has its id.

`shown_once_iff` says for which lists every text item is shown once, whatever else they contain: for
those in which no todo list does.
-/

set_option autoImplicit false

namespace CodexSdk

open Json Past

/-! ## Items and their events -/

/-- What a text item is told from others by: its variant and its id. -/
abbrev TextOwner := TextKind × String

def ThreadItem.owner : ThreadItem → Option TextOwner
  | .agentMessage item => some (.agentMessage, item.id)
  | .reasoning item => some (.reasoning, item.id)
  | .plan item => some (.plan, item.id)
  | _ => none

/-- The text item that an event updates or completes. -/
def ThreadEvent.owner : ThreadEvent → Option TextOwner
  | .itemUpdated item | .itemCompleted item => item.owner
  | _ => none

def TextItem.owner (i : TextItem) : TextOwner := (i.kind, i.id)

/-- The list is an interleaving of the events of the items with events that update and complete none
of them. -/
structure Interleaving (items : List TextItem) (events : List ThreadEvent) : Prop where
  distinct : (items.map TextItem.owner).Nodup
  own : ∀ i ∈ items, events.filter (fun e => e.owner = some i.owner) = i.events

/-- The fragments that the events of one item are rendered to. -/
def ThreadEventRenderer.fragmentsOf (compactJson : Value → String) (owner : TextOwner)
    (s : ThreadEventRenderer) : List ThreadEvent → List RenderedItem
  | [] => []
  | event :: events =>
    (if event.owner = some owner then (s.render compactJson event).1.toList else []) ++
      (s.render compactJson event).2.fragmentsOf compactJson owner events

/-- Of each item the fragments are its own, so that they do not depend on the interleaving. -/
def ShownOnce (compactJson : Value → String) (items : List TextItem) (events : List ThreadEvent) :
    Prop :=
  ∀ i ∈ items, ThreadEventRenderer.new.fragmentsOf compactJson i.owner events =
    i.fragments compactJson

/-- No todo list takes the place of a plan: when the plan is completed, a piece of it or a todo list
with its id has been updated, and no such list completed since, exactly if the plan has a piece. -/
def PlansApart (items : List TextItem) (events : List ThreadEvent) : Prop :=
  ∀ i ∈ items, i.kind = .plan → ∀ before rest,
    events = before ++ .itemCompleted i.completed :: rest →
      (Since (ThreadEvent.CompletesTodoList i.id)
          (fun e => e.UpdatesText .plan i.id ∨ e.UpdatesTodoList i.id) before ↔
        ∃ part ∈ i.deltas, part.text ≠ "")

/-! ## The events of one item -/

theorem owner_item (kind : TextKind) (id : String) (part : TextPart) :
    (kind.item id part).owner = some (kind, id) := by cases kind <;> rfl

theorem TextItem.notMem_updates (i : TextItem) (item : ThreadItem) :
    .itemCompleted item ∉ i.updates := by
  simp [TextItem.updates]

variable {compactJson : Value → String} {items : List TextItem}
  {events before rest : List ThreadEvent} {i : TextItem}

/-- An item is completed once, after its updates. -/
theorem Interleaving.split (h : Interleaving items events) (hi : i ∈ items)
    (hevents : events = before ++ .itemCompleted i.completed :: rest) :
    before.filter (fun e => e.owner = some i.owner) = i.updates ∧
      rest.filter (fun e => e.owner = some i.owner) = [] := by
  have hown := h.own i hi
  have hcompleted : ThreadEvent.owner (.itemCompleted i.completed) = some i.owner :=
    owner_item i.kind i.id i.final
  rw [hevents, List.filter_append, List.filter_cons_of_pos (by simpa using hcompleted),
    TextItem.events] at hown
  have hsplit := (List.append_cons_inj_of_notMem (i.notMem_updates i.completed)
    List.not_mem_nil).1 hown.symm
  exact ⟨hsplit.1.symm, hsplit.2.2.symm⟩

theorem Interleaving.exists_split (h : Interleaving items events) (hi : i ∈ items) :
    ∃ before rest, events = before ++ .itemCompleted i.completed :: rest := by
  have hmem : ThreadEvent.itemCompleted i.completed ∈ events := by
    refine (List.mem_filter.1 (?_ : _ ∈ events.filter fun e => e.owner = some i.owner)).1
    rw [h.own i hi, TextItem.events]
    exact List.mem_append_right _ (List.mem_singleton_self _)
  exact List.append_of_mem hmem

theorem Interleaving.mem_updates (h : Interleaving items events) (hi : i ∈ items)
    (hevents : events = before ++ .itemCompleted i.completed :: rest) {e : ThreadEvent}
    (he : e ∈ before) (howner : e.owner = some i.owner) : e ∈ i.updates := by
  rw [← (h.split hi hevents).1]
  exact List.mem_filter.2 ⟨he, decide_eq_true howner⟩

/-! ## The fragments of one item -/

theorem ThreadEventRenderer.fragmentsOf_append (owner : TextOwner) (s : ThreadEventRenderer)
    (before rest : List ThreadEvent) :
    s.fragmentsOf compactJson owner (before ++ rest) =
      s.fragmentsOf compactJson owner before ++
        (before.foldl (fun s event => (s.render compactJson event).2) s).fragmentsOf compactJson
          owner rest := by
  induction before generalizing s with
  | nil => rfl
  | cons event before ih =>
    rw [List.cons_append, fragmentsOf, fragmentsOf, ih, List.append_assoc, List.foldl_cons]

/-- The deltas of a text item are rendered as they come, whatever is remembered. -/
theorem render_update (kind : TextKind) (id : String) (part : TextPart) (s : ThreadEventRenderer) :
    (s.render compactJson (.itemUpdated (kind.item id part))).1 =
      if part.text = "" then none else some ⟨kind.rendered, some id, part.text, true⟩ := by
  rw [ThreadEventRenderer.render, renderUpdated_item]
  split <;> rfl

/-- Events of which those of the item are its deltas. -/
theorem ThreadEventRenderer.fragmentsOf_updates (kind : TextKind) (id : String)
    (deltas : List TextPart) (s : ThreadEventRenderer)
    (h : events.filter (fun e => e.owner = some (kind, id)) =
      deltas.map fun part => .itemUpdated (kind.item id part)) :
    s.fragmentsOf compactJson (kind, id) events =
      (deltas.filter fun part => part.text ≠ "").map fun part =>
        ⟨kind.rendered, some id, part.text, true⟩ := by
  induction events generalizing s deltas with
  | nil =>
    rw [List.filter_nil] at h
    rw [List.map_eq_nil_iff.1 h.symm]
    rfl
  | cons event events ih =>
    rw [fragmentsOf]
    by_cases howner : event.owner = some (kind, id)
    · rw [List.filter_cons_of_pos (by simpa using howner)] at h
      obtain ⟨part, deltas, rfl, rfl, hrest⟩ := List.map_eq_cons_iff.1 h.symm
      rw [if_pos howner, ih deltas _ hrest.symm, render_update]
      by_cases hpart : part.text = ""
      · rw [if_pos hpart, List.filter_cons_of_neg (by simpa using hpart)]
        rfl
      · rw [if_neg hpart, List.filter_cons_of_pos (by simpa using hpart)]
        rfl
    · rw [List.filter_cons_of_neg (by simpa using howner)] at h
      rw [if_neg howner, ih deltas _ h]
      rfl

/-- What is rendered of an item is its deltas, and then what its completion is rendered to. -/
theorem Interleaving.fragmentsOf_eq (h : Interleaving items events) (hi : i ∈ items)
    (hevents : events = before ++ .itemCompleted i.completed :: rest) :
    ThreadEventRenderer.new.fragmentsOf compactJson i.owner events = i.streamed ++
      ((ThreadEventRenderer.after compactJson before).render compactJson
        (.itemCompleted i.completed)).1.toList := by
  obtain ⟨hbefore, hrest⟩ := h.split hi hevents
  have hcompleted : ThreadEvent.owner (.itemCompleted i.completed) = some i.owner :=
    owner_item i.kind i.id i.final
  rw [hevents, ThreadEventRenderer.fragmentsOf_append]
  refine congrArg₂ _ (ThreadEventRenderer.fragmentsOf_updates i.kind i.id i.deltas .new hbefore) ?_
  rw [ThreadEventRenderer.fragmentsOf, if_pos hcompleted]
  have hnone : (((ThreadEventRenderer.after compactJson before).render compactJson
      (.itemCompleted i.completed)).2).fragmentsOf compactJson i.owner rest = [] :=
    ThreadEventRenderer.fragmentsOf_updates i.kind i.id [] _ (hrest.trans rfl)
  exact (congrArg _ hnone).trans (List.append_nil _)

/-! ## When a completion is not shown -/

theorem TextItem.streamed_ne_nil_iff (i : TextItem) :
    i.streamed ≠ [] ↔ ∃ part ∈ i.deltas, part.text ≠ "" := by
  rw [TextItem.streamed, ne_eq, List.map_eq_nil_iff, List.filter_eq_nil_iff]
  push Not
  simp

theorem render_completed_eq (s : ThreadEventRenderer) (item : ThreadItem) :
    (s.render compactJson (.itemCompleted item)).1 = none ∨
      (s.render compactJson (.itemCompleted item)).1 = some (renderThreadItem compactJson item) ∧
        (renderThreadItem compactJson item).markdown ≠ "" := by
  rw [ThreadEventRenderer.render]
  split
  case isTrue h => exact .inr ⟨rfl, h.2⟩
  case isFalse h => exact .inl rfl

/-- The completion has to show the item if no piece of it was shown, and nothing otherwise. -/
theorem TextItem.fragments_eq_iff (i : TextItem) (s : ThreadEventRenderer) :
    i.streamed ++ (s.render compactJson (.itemCompleted i.completed)).1.toList =
        i.fragments compactJson ↔
      ((s.render compactJson (.itemCompleted i.completed)).1 = none ↔
        (renderThreadItem compactJson i.completed).markdown = "" ∨ i.streamed ≠ []) := by
  rw [TextItem.fragments]
  by_cases hstreamed : i.streamed = []
  · rw [if_neg (not_not.2 hstreamed), hstreamed, List.nil_append]
    rcases @render_completed_eq compactJson s i.completed with hr | ⟨hr, hmarkdown⟩
    · by_cases hempty : (renderThreadItem compactJson i.completed).markdown = ""
      · simp [hr, hempty]
      · simp [hr, hempty]
    · simp [hr, hmarkdown]
  · rw [if_pos hstreamed, List.append_right_eq_self]
    simp [hstreamed]

/-- The completion of an item stands before none of its events, so that only the completion of a
todo list can have come since an update. -/
theorem Interleaving.since_iff (h : Interleaving items events) (hi : i ∈ items)
    (hevents : events = before ++ .itemCompleted i.completed :: rest) :
    Since (ThreadEvent.Closes compactJson (i.kind.rendered, i.id))
        (ThreadEvent.Streams compactJson (i.kind.rendered, i.id)) before ↔
      Since (fun e => i.kind = .plan ∧ e.CompletesTodoList i.id)
        (fun e => e.UpdatesText i.kind i.id ∨ i.kind = .plan ∧ e.UpdatesTodoList i.id) before := by
  have hnone : ∀ e ∈ before, ¬ e.CompletesText i.kind i.id := by
    rintro e he ⟨part, rfl⟩
    exact i.notMem_updates _ (h.mem_updates hi hevents he (owner_item i.kind i.id part))
  constructor
  · intro hsince
    refine hsince.imp_of_mem (fun e _ => streams_text) fun e _ => ?_
    rintro ⟨hplan, item, hid, rfl⟩
    rw [hplan, ← hid]
    rfl
  · intro hsince
    refine hsince.imp_of_mem (fun e _ he => ?_) fun e he hcloses => ?_
    · rcases he with ⟨part, hpart, rfl⟩ | ⟨hplan, htodo⟩
      · exact streams_item i.kind i.id hpart
      · rw [hplan]
        exact streams_of_updatesTodoList htodo
    · rcases closes_text hcloses with htext | htodo
      · exact absurd htext (hnone e he)
      · exact htodo

/-- The pieces of an item that come before its completion are its own. -/
theorem Interleaving.exists_updatesText (h : Interleaving items events) (hi : i ∈ items)
    (hevents : events = before ++ .itemCompleted i.completed :: rest) :
    (∃ e ∈ before, e.UpdatesText i.kind i.id) ↔ ∃ part ∈ i.deltas, part.text ≠ "" := by
  constructor
  · rintro ⟨e, he, part, hpart, rfl⟩
    obtain ⟨own, hown, heq⟩ := List.mem_map.1
      (h.mem_updates hi hevents he (owner_item i.kind i.id part))
    have htext := congrArg RenderedItem.markdown
      (congrArg (renderUpdated fun _ => "") (ThreadEvent.itemUpdated.inj heq))
    rw [renderUpdated_item, renderUpdated_item] at htext
    exact ⟨own, hown, fun hempty => hpart (htext.symm.trans hempty)⟩
  · rintro ⟨part, hmem, hpart⟩
    have hupdate : .itemUpdated (i.kind.item i.id part) ∈ i.updates := List.mem_map_of_mem hmem
    rw [← (h.split hi hevents).1] at hupdate
    exact ⟨_, (List.mem_filter.1 hupdate).1, part, hpart, rfl⟩

/-- Of an item the fragments are its own if the renderer takes no event for a piece of it but the
pieces, and no event for its completion. -/
theorem Interleaving.fragmentsOf_eq_fragments_iff (h : Interleaving items events) (hi : i ∈ items)
    (hevents : events = before ++ .itemCompleted i.completed :: rest) :
    ThreadEventRenderer.new.fragmentsOf compactJson i.owner events = i.fragments compactJson ↔
      ((renderThreadItem compactJson i.completed).markdown = "" ∨
          Since (fun e => i.kind = .plan ∧ e.CompletesTodoList i.id)
            (fun e => e.UpdatesText i.kind i.id ∨ i.kind = .plan ∧ e.UpdatesTodoList i.id) before ↔
        (renderThreadItem compactJson i.completed).markdown = "" ∨
          ∃ part ∈ i.deltas, part.text ≠ "") := by
  rw [h.fragmentsOf_eq hi hevents, i.fragments_eq_iff, i.streamed_ne_nil_iff,
    ThreadEventRenderer.render_completed_eq_none_iff, TextItem.completed, key_item]
  simp only [Option.some.injEq, exists_eq_left']
  rw [h.since_iff hi hevents]

variable (compactJson) in
/-- **Each text item is shown once for exactly the lists that keep plans and todo lists apart**,
however the events of the items are interleaved with others. -/
theorem shown_once_iff (h : Interleaving items events) :
    ShownOnce compactJson items events ↔ PlansApart items events := by
  constructor
  · intro hshown i hi hplan before rest hevents
    have hi' := (h.fragmentsOf_eq_fragments_iff hi hevents).1 (hshown i hi)
    have hmarkdown : (renderThreadItem compactJson i.completed).markdown ≠ "" := by
      rw [TextItem.completed, hplan]
      exact renderThreadItem_plan_ne ⟨i.id, i.final.text⟩
    simpa only [hmarkdown, hplan, false_or, true_and] using hi'
  · intro hapart i hi
    obtain ⟨before, rest, hevents⟩ := h.exists_split hi
    rw [h.fragmentsOf_eq_fragments_iff hi hevents]
    refine or_congr_right ?_
    by_cases hplan : i.kind = .plan
    · simpa only [hplan, true_and] using hapart i hi hplan before rest hevents
    · -- No other item shares the key of an agent message or of a reasoning item.
      simp only [hplan, false_and, or_false]
      rw [since_iff_exists fun e _ => id, h.exists_updatesText hi hevents]

/-- An answer in two pieces, with an empty delta between them. -/
def answerItem : TextItem :=
  ⟨.agentMessage, "same", [⟨"hel", none⟩, ⟨"", none⟩, ⟨"lo", none⟩], ⟨"hello", some .finalAnswer⟩,
    .inr (by decide)⟩

/-- A reasoning item and a plan with the same id, of which only the plan is streamed. -/
def reasoningItem : TextItem := ⟨.reasoning, "same", [], ⟨"because", none⟩, .inl rfl⟩

def planItem : TextItem := ⟨.plan, "same", [⟨"step one", none⟩], ⟨"step one", none⟩, .inr (by decide)⟩

/-- The three, interleaved with a todo list and with events of no item. -/
def mixedEvents : List ThreadEvent :=
  [.turnStarted, .itemUpdated (.agentMessage ⟨"same", "hel", none⟩),
    .itemUpdated (.todoList ⟨"same", []⟩), .itemUpdated (.agentMessage ⟨"same", "", none⟩),
    .itemCompleted (.reasoning ⟨"same", "because"⟩), .itemCompleted (.todoList ⟨"same", []⟩),
    .error "late", .itemUpdated (.plan ⟨"same", "step one"⟩),
    .itemUpdated (.agentMessage ⟨"same", "lo", none⟩), .itemCompleted (.plan ⟨"same", "step one"⟩),
    .itemCompleted (.agentMessage ⟨"same", "hello", some .finalAnswer⟩), .turnCompleted none]

theorem mixedEvents_interleaving :
    Interleaving [answerItem, reasoningItem, planItem] mixedEvents where
  distinct := by decide
  own := by
    intro i hi
    simp only [List.mem_cons, List.not_mem_nil, or_false] at hi
    rcases hi with rfl | rfl | rfl <;> rfl

theorem mixedEvents_plansApart : PlansApart [answerItem, reasoningItem, planItem] mixedEvents := by
  intro i hi hplan before rest hevents
  simp only [List.mem_cons, List.not_mem_nil, or_false] at hi
  rcases hi with rfl | rfl | rfl
  · cases hplan
  · cases hplan
  · have hsplit : mixedEvents = mixedEvents.take 9 ++
        .itemCompleted planItem.completed :: mixedEvents.drop 10 := rfl
    have hbefore := ((List.append_cons_inj_of_notMem (by simp [mixedEvents, planItem,
      TextItem.completed, TextKind.item]) (by simp [mixedEvents, planItem,
      TextItem.completed, TextKind.item])).1 (hsplit.symm.trans hevents)).1
    rw [← hbefore]
    refine iff_of_true ⟨mixedEvents.take 7, _, [mixedEvents[8]], rfl,
      .inl ⟨⟨"step one", none⟩, by decide, rfl⟩, ?_⟩ ⟨⟨"step one", none⟩, by simp [planItem],
        by decide⟩
    rintro e he ⟨item, -, rfl⟩
    simp [mixedEvents] at he

theorem shown_once_mixedEvents :
    ShownOnce (fun _ => "null") [answerItem, reasoningItem, planItem] mixedEvents :=
  (shown_once_iff _ mixedEvents_interleaving).2 mixedEvents_plansApart

/-- A plan that is not streamed, after an update of a todo list with its id. -/
def droppedPlan : TextItem := ⟨.plan, "p", [], ⟨"step one", none⟩, .inl rfl⟩

def droppedPlanEvents : List ThreadEvent :=
  [.itemUpdated (.todoList ⟨"p", []⟩), .itemCompleted (.plan ⟨"p", "step one"⟩)]

/-- The plan is not shown at all. -/
theorem droppedPlan_not_shown :
    Interleaving [droppedPlan] droppedPlanEvents ∧
      ThreadEventRenderer.new.fragmentsOf (fun _ => "null") droppedPlan.owner droppedPlanEvents =
        [] ∧
      ¬ ShownOnce (fun _ => "null") [droppedPlan] droppedPlanEvents := by
  have hnone : ThreadEventRenderer.new.fragmentsOf (fun _ => "null") droppedPlan.owner
      droppedPlanEvents = [] := by decide
  refine ⟨⟨by decide, fun i hi => ?_⟩, hnone, fun hshown => ?_⟩
  · rw [List.mem_singleton.1 hi]
    rfl
  · have hfragments := hshown droppedPlan (List.mem_singleton_self _)
    rw [hnone] at hfragments
    exact absurd hfragments (by decide)

end CodexSdk

import CodexSdk.Luna.Chat

/-!
# Where the chat puts a fragment

A fragment that continues an item is added to the last block of its kind and item id, wherever in
the transcript that is.  Whether it belongs there is a matter of the whole conversation: the ids of
an earlier turn may come again, and several kinds of item become one kind of block.

A `Conversation` is a chat that remembers of which variants of items a block holds text.  `Fits` is
what the transcript has to be like for a streamed item, and `placed_iff_fits` says that its text is
placed well just then.
-/

set_option autoImplicit false

namespace CodexSdk.Luna

open Json

/-! ## The last one -/

section

variable {α β : Type} {p : α → Bool}

theorem rposition_eq_none {l : List α} : rposition p l = none ↔ ∀ a ∈ l, p a = false := by
  induction l with
  | nil => simp [rposition]
  | cons a l ih =>
    rw [rposition, List.forall_mem_cons, ← ih]
    cases rposition p l <;> cases p a <;> simp

/-- The last element that satisfies `p`, with what is before and after it. -/
theorem rposition_eq_some {l : List α} {i : Nat} (h : rposition p l = some i) :
    ∃ before a after, l = before ++ a :: after ∧ before.length = i ∧ p a = true ∧
      ∀ b ∈ after, p b = false := by
  induction l generalizing i with
  | nil => cases h
  | cons a l ih =>
    rw [rposition] at h
    split at h
    · rename_i j hj
      cases h
      obtain ⟨before, b, after, rfl, rfl, hb, hafter⟩ := ih hj
      exact ⟨a :: before, b, after, rfl, rfl, hb, hafter⟩
    · rename_i hnone
      split at h
      · rename_i ha
        cases h
        exact ⟨[], a, l, rfl, rfl, ha, rposition_eq_none.1 hnone⟩
      · cases h

theorem rposition_map {q : β → Bool} (f : α → β) (l : List α) :
    rposition q (l.map f) = rposition (fun a => q (f a)) l := by
  induction l with
  | nil => rfl
  | cons a l ih => rw [List.map_cons, rposition, rposition, ih]

theorem modify_append_cons (f : α → α) (before : List α) (a : α) (after : List α) :
    (before ++ a :: after).modify before.length f = before ++ f a :: after := by
  induction before with
  | nil => rfl
  | cons b before ih =>
    rw [List.cons_append, List.length_cons, List.modify_succ_cons, ih, List.cons_append]

theorem map_modify {f : α → α} {g : β → β} {h : α → β} (hfg : ∀ a, h (f a) = g (h a)) (l : List α)
    (i : Nat) : (l.modify i f).map h = (l.map h).modify i g := by
  induction l generalizing i with
  | nil => rw [List.modify_nil, List.map_nil, List.modify_nil]
  | cons a l ih =>
    cases i with
    | zero => rw [List.modify_zero_cons, List.map_cons, List.map_cons, List.modify_zero_cons, hfg]
    | succ i =>
      rw [List.modify_succ_cons, List.map_cons, List.map_cons, List.modify_succ_cons, ih]

/-- There is one last element of a kind. -/
theorem last_unique {P : α → Prop} {before before' after after' : List α} {a a' : α}
    (h : before ++ a :: after = before' ++ a' :: after') (ha : P a) (hafter : ∀ b ∈ after, ¬ P b)
    (ha' : P a') (hafter' : ∀ b ∈ after', ¬ P b) : a = a' ∧ after = after' := by
  rcases List.append_eq_append_iff.1 h with ⟨l, -, hl⟩ | ⟨l, -, hl⟩
  · cases l with
    | nil => exact List.cons.inj hl
    | cons b l =>
      have hmem : a' ∈ after := by
        rw [(List.cons.inj hl).2]
        exact List.mem_append_right _ List.mem_cons_self
      exact absurd ha' (hafter a' hmem)
  · cases l with
    | nil => exact (List.cons.inj hl).imp Eq.symm Eq.symm
    | cons b l =>
      have hmem : a ∈ after' := by
        rw [(List.cons.inj hl).2]
        exact List.mem_append_right _ List.mem_cons_self
      exact absurd ha (hafter' a hmem)

/-- Two lists that differ in one place only are the same in any other. -/
theorem getElem?_middle {before after : List α} {a b : α} {i : Nat} (h : i ≠ before.length) :
    (before ++ a :: after)[i]? = (before ++ b :: after)[i]? := by
  rw [List.getElem?_append, List.getElem?_append]
  split
  · rfl
  · have hpos : i - before.length ≠ 0 := by omega
    obtain ⟨j, hj⟩ := Nat.exists_eq_succ_of_ne_zero hpos
    rw [hj, List.getElem?_cons_succ, List.getElem?_cons_succ]

end

/-! ## Variants -/

/-- The variants of `ThreadItem`. -/
inductive ItemVariant
  | agentMessage
  | userMessage
  | plan
  | reasoning
  | commandExecution
  | fileChange
  | mcpToolCall
  | dynamicToolCall
  | collabToolCall
  | webSearch
  | imageView
  | enteredReviewMode
  | exitedReviewMode
  | contextCompaction
  | todoList
  | error
  | unknown
  deriving DecidableEq

def variantOf : ThreadItem → ItemVariant
  | .agentMessage _ => .agentMessage
  | .userMessage _ => .userMessage
  | .plan _ => .plan
  | .reasoning _ => .reasoning
  | .commandExecution _ => .commandExecution
  | .fileChange _ => .fileChange
  | .mcpToolCall _ => .mcpToolCall
  | .dynamicToolCall _ => .dynamicToolCall
  | .collabToolCall _ => .collabToolCall
  | .webSearch _ => .webSearch
  | .imageView _ => .imageView
  | .enteredReviewMode _ => .enteredReviewMode
  | .exitedReviewMode _ => .exitedReviewMode
  | .contextCompaction _ => .contextCompaction
  | .todoList _ => .todoList
  | .error _ => .error
  | .unknown _ => .unknown

/-- The variant of the item an event is about, if it is about one. -/
def eventVariants : ThreadEvent → List ItemVariant
  | .itemStarted item | .itemUpdated item | .itemCompleted item => [variantOf item]
  | _ => []

/-! ## Conversations -/

/-- A block with the variants of the items whose text it holds. -/
structure Shown where
  block : TranscriptBlock
  variants : List ItemVariant

def Shown.extend (s : Shown) (text : String) (variants : List ItemVariant) : Shown :=
  ⟨{ s.block with text := s.block.text ++ text }, s.variants ++ variants⟩

/-- A chat in its default mode, with what is known of its blocks. -/
structure Conversation where
  app : ChatApp
  shown : List Shown
  shown_eq : shown.map Shown.block = app.transcript
  finalResponseOnly : app.finalResponseOnly = false
  jsonOutput : app.jsonOutput = false

section

variable (compactJson : Value → String)

/-- What is to be shown of an event. -/
def fragmentOf (app : ChatApp) (event : ThreadEvent) : Option RenderedItem :=
  (app.renderer.render compactJson event).1.filter fun fragment => fragment.kind ≠ .userMessage

/-- In the default mode an event is shown by its fragment. -/
theorem consumeThreadEvent_default {app : ChatApp} (hfinal : app.finalResponseOnly = false)
    (hjson : app.jsonOutput = false) (event : ThreadEvent) :
    let app' := app.consumeThreadEvent compactJson event
    app'.transcript = (match fragmentOf compactJson app event with
      | some fragment => (app.pushFragment fragment).transcript
      | none => app.transcript) ∧
    app'.finalResponseOnly = false ∧ app'.jsonOutput = false := by
  rw [ChatApp.consumeThreadEvent, hfinal, hjson, fragmentOf]
  rcases app.renderer.render compactJson event with ⟨_ | fragment, renderer⟩
  · exact ⟨rfl, rfl, rfl⟩
  · by_cases hkind : fragment.kind = .userMessage
    · simp [Option.filter, hkind]
    · rw [Option.filter_some, if_pos (decide_eq_true hkind)]
      simp [hkind, ChatApp.pushFragment, ChatApp.blockOf]

end

namespace Conversation

def new : Conversation := ⟨.new false false, [], rfl, rfl, rfl⟩

/-- Blocks at the end that hold no text of an item. -/
def write (c : Conversation) (app : ChatApp) (blocks : List TranscriptBlock)
    (htranscript : app.transcript = c.app.transcript ++ blocks)
    (hfinal : app.finalResponseOnly = c.app.finalResponseOnly)
    (hjson : app.jsonOutput = c.app.jsonOutput) : Conversation where
  app := app
  shown := c.shown ++ blocks.map (⟨·, []⟩)
  shown_eq := by
    rw [List.map_append, c.shown_eq, htranscript, List.map_map]
    exact congrArg _ (List.map_id _)
  finalResponseOnly := hfinal.trans c.finalResponseOnly
  jsonOutput := hjson.trans c.jsonOutput

/-- The blocks once a fragment is shown that holds text of these variants. -/
def place (c : Conversation) (fragment : RenderedItem) (variants : List ItemVariant) :
    List Shown :=
  match c.app.blockOf fragment with
  | some index => c.shown.modify index (·.extend fragment.markdown variants)
  | none =>
    c.shown ++ [⟨⟨.ofRendered fragment.kind, fragment.itemId, fragment.markdown⟩, variants⟩]

theorem place_eq (c : Conversation) (fragment : RenderedItem) (variants : List ItemVariant) :
    (c.place fragment variants).map Shown.block = (c.app.pushFragment fragment).transcript := by
  rw [place, ChatApp.pushFragment]
  cases c.app.blockOf fragment with
  | none => rw [List.map_append, c.shown_eq]; rfl
  | some index =>
    have hmodify : (c.shown.modify index (·.extend fragment.markdown variants)).map Shown.block =
        (c.shown.map Shown.block).modify index fun block =>
          { block with text := block.text ++ fragment.markdown } := by
      refine map_modify ?_ _ _
      exact fun _ => rfl
    rw [c.shown_eq] at hmodify
    exact hmodify

section

variable (compactJson : Value → String)

def consume (c : Conversation) (event : ThreadEvent) : Conversation where
  app := c.app.consumeThreadEvent compactJson event
  shown := match fragmentOf compactJson c.app event with
    | some fragment => c.place fragment (eventVariants event)
    | none => c.shown
  shown_eq := by
    rw [(consumeThreadEvent_default compactJson c.finalResponseOnly c.jsonOutput event).1]
    cases fragmentOf compactJson c.app event with
    | none => exact c.shown_eq
    | some fragment => exact c.place_eq fragment _
  finalResponseOnly :=
    (consumeThreadEvent_default compactJson c.finalResponseOnly c.jsonOutput event).2.1
  jsonOutput := (consumeThreadEvent_default compactJson c.finalResponseOnly c.jsonOutput event).2.2

end

end Conversation

/-- What happens in a chat: turns, from what the user submits to their end, and what the commands
between them write. -/
inductive ChatAction
  | submit (prompt : String)
  | consume (event : ThreadEvent)
  | finish
  | finishWithError (message : String)
  | appendStatus (message : String)
  | appendError (message : String)
  | clear

def Conversation.step (compactJson : Value → String) (c : Conversation) :
    ChatAction → Conversation
  | .submit prompt => c.write (c.app.submitUserMessage prompt) [⟨.user, none, prompt⟩] rfl rfl rfl
  | .consume event => c.consume compactJson event
  | .finish => c.write c.app.finishTurn [] (List.append_nil _).symm rfl rfl
  | .finishWithError message =>
    c.write (c.app.finishTurnWithError message) [⟨.error, none, message⟩] rfl rfl rfl
  | .appendStatus message =>
    c.write (c.app.appendStatus message) [⟨.status, none, message⟩] rfl rfl rfl
  | .appendError message =>
    c.write (c.app.appendError message) [⟨.error, none, message⟩] rfl rfl rfl
  | .clear => ⟨c.app.clearTranscript, [], rfl, c.finalResponseOnly, c.jsonOutput⟩

/-! ## Placing well -/

/-- Blocks before and after an event whose text was placed well: in a new block, or in one after the
last message of the user. -/
inductive Placed : List Shown → List Shown → Prop
  | unchanged (shown : List Shown) : Placed shown shown
  | appended (shown : List Shown) (s : Shown) : Placed shown (shown ++ [s])
  | extended (before : List Shown) (s : Shown) (after : List Shown) (text : String)
      (variants : List ItemVariant) (h : ∀ t ∈ s :: after, t.block.kind ≠ .user) :
      Placed (before ++ s :: after) (before ++ s.extend text variants :: after)

/-- All text of the block is of items of one variant. -/
def Shown.Uniform (s : Shown) : Prop := ∀ v ∈ s.variants, ∀ w ∈ s.variants, v = w

/-- The block is of the kind and of the item of a fragment. -/
def Shown.IsBlockOf (s : Shown) (rendered : RenderedItem) : Prop :=
  s.block.kind = .ofRendered rendered.kind ∧ s.block.itemId.isSome ∧
    s.block.itemId = rendered.itemId

section

variable (compactJson : Value → String)

/-- The event is placed well, and leaves every block with text of one variant. -/
def PlacedWell (c : Conversation) (event : ThreadEvent) : Prop :=
  Placed c.shown (c.consume compactJson event).shown ∧
    ∀ s ∈ (c.consume compactJson event).shown, s.Uniform

/-- What the conversation has to be like for an event.  If it streams text of an item, the last
block of that kind and item id, should there be one, is of this turn and of items like it. -/
def Fits (c : Conversation) (event : ThreadEvent) : Prop :=
  ∀ item, event = .itemUpdated item → (renderUpdated compactJson item).markdown ≠ "" →
    (renderUpdated compactJson item).kind ≠ .userMessage →
    ∀ before s after, c.shown = before ++ s :: after →
      s.IsBlockOf (renderUpdated compactJson item) →
      (∀ t ∈ after, ¬ t.IsBlockOf (renderUpdated compactJson item)) →
      (∀ t ∈ after, t.block.kind ≠ .user) ∧ ∀ v ∈ s.variants, v = variantOf item

variable {compactJson}

/-- Only a streamed fragment continues an item. -/
theorem continuation_iff {app : ChatApp} {event : ThreadEvent} {fragment : RenderedItem}
    (h : fragmentOf compactJson app event = some fragment) (hcont : fragment.continuation = true) :
    ∃ item, event = .itemUpdated item ∧ (renderUpdated compactJson item).markdown ≠ "" ∧
      (renderUpdated compactJson item).kind ≠ .userMessage ∧
      fragment = { renderUpdated compactJson item with continuation := true } := by
  rw [fragmentOf, Option.filter_eq_some_iff] at h
  obtain ⟨hrender, hkind⟩ := h
  cases event with
  | itemUpdated item =>
    rw [ThreadEventRenderer.render] at hrender
    split at hrender
    · cases hrender
    · rename_i hempty
      cases hrender
      exact ⟨item, rfl, hempty, of_decide_eq_true hkind, rfl⟩
  | itemCompleted item =>
    rw [ThreadEventRenderer.render] at hrender
    split at hrender
    · cases hrender
      have hnew : (renderThreadItem compactJson item).continuation = false := by cases item <;> rfl
      rw [hnew] at hcont
      cases hcont
    · cases hrender
  | error message => cases hrender; cases hcont
  | turnFailed error => cases hrender; cases hcont
  | _ => cases hrender

/-- A streamed item with something to show has a fragment. -/
theorem fragmentOf_itemUpdated {app : ChatApp} {item : ThreadItem}
    (hempty : (renderUpdated compactJson item).markdown ≠ "")
    (hkind : (renderUpdated compactJson item).kind ≠ .userMessage) :
    fragmentOf compactJson app (.itemUpdated item) =
      some { renderUpdated compactJson item with continuation := true } := by
  rw [fragmentOf, ThreadEventRenderer.render, if_neg hempty, Option.filter_some,
    if_pos (decide_eq_true hkind)]

/-- The block a continued fragment goes to, in terms of what is shown. -/
theorem blockOf_eq (c : Conversation) {rendered : RenderedItem} :
    c.app.blockOf { rendered with continuation := true } =
      rposition (fun s => s.block.kind = .ofRendered rendered.kind && s.block.itemId.isSome &&
        s.block.itemId = rendered.itemId) c.shown := by
  rw [ChatApp.blockOf, if_pos rfl, ← c.shown_eq, rposition_map]

theorem isBlockOf_iff {s : Shown} {rendered : RenderedItem} :
    (s.block.kind = .ofRendered rendered.kind && s.block.itemId.isSome &&
      s.block.itemId = rendered.itemId) = true ↔ s.IsBlockOf rendered := by
  rw [Shown.IsBlockOf, Bool.and_eq_true, Bool.and_eq_true, decide_eq_true_eq, decide_eq_true_eq,
    and_assoc]

theorem uniform_eventVariants (block : TranscriptBlock) (event : ThreadEvent) :
    Shown.Uniform ⟨block, eventVariants event⟩ := by
  intro v hv w hw
  cases event <;> simp only [eventVariants, List.mem_singleton, List.not_mem_nil] at hv hw <;>
    exact hv.trans hw.symm

theorem consume_shown_none {c : Conversation} {event : ThreadEvent}
    (h : fragmentOf compactJson c.app event = none) :
    (c.consume compactJson event).shown = c.shown := by
  show (match fragmentOf compactJson c.app event with
    | some fragment => c.place fragment (eventVariants event)
    | none => c.shown) = _
  rw [h]

theorem consume_shown_some {c : Conversation} {event : ThreadEvent} {fragment : RenderedItem}
    (h : fragmentOf compactJson c.app event = some fragment) :
    (c.consume compactJson event).shown = c.place fragment (eventVariants event) := by
  show (match fragmentOf compactJson c.app event with
    | some fragment => c.place fragment (eventVariants event)
    | none => c.shown) = _
  rw [h]

/-- An event that is not shown in a block that is there fits. -/
theorem fits_of_no_block {c : Conversation} {event : ThreadEvent}
    (h : ∀ item, event = .itemUpdated item → (renderUpdated compactJson item).markdown ≠ "" →
      (renderUpdated compactJson item).kind ≠ .userMessage →
      ∀ s ∈ c.shown, ¬ s.IsBlockOf (renderUpdated compactJson item)) :
    Fits compactJson c event := by
  intro item hevent hempty hkind before s after hshown hblock
  refine absurd hblock (h item hevent hempty hkind s ?_)
  rw [hshown]
  exact List.mem_append_right _ List.mem_cons_self

/-- **Where an event is shown**: nowhere, in a new block, or, if it streams an item, in the last
block of that item. -/
theorem consume_cases (c : Conversation) (event : ThreadEvent) :
    (Fits compactJson c event ∧ ((c.consume compactJson event).shown = c.shown ∨
      ∃ s : Shown, s.Uniform ∧ (c.consume compactJson event).shown = c.shown ++ [s])) ∨
    ∃ item before s after, event = .itemUpdated item ∧
      (renderUpdated compactJson item).markdown ≠ "" ∧
      (renderUpdated compactJson item).kind ≠ .userMessage ∧ c.shown = before ++ s :: after ∧
      s.IsBlockOf (renderUpdated compactJson item) ∧
      (∀ t ∈ after, ¬ t.IsBlockOf (renderUpdated compactJson item)) ∧
      (c.consume compactJson event).shown =
        before ++ s.extend (renderUpdated compactJson item).markdown [variantOf item] :: after := by
  cases hfragment : fragmentOf compactJson c.app event with
  | none =>
    refine .inl ⟨fits_of_no_block fun item hevent hempty hkind => ?_,
      .inl (consume_shown_none hfragment)⟩
    rw [hevent, fragmentOf_itemUpdated hempty hkind] at hfragment
    cases hfragment
  | some fragment =>
    rw [consume_shown_some hfragment, Conversation.place]
    cases hblock : c.app.blockOf fragment with
    | none =>
      refine .inl ⟨fits_of_no_block fun item hevent hempty hkind s hs hof => ?_,
        .inr ⟨_, uniform_eventVariants _ event, rfl⟩⟩
      rw [hevent, fragmentOf_itemUpdated hempty hkind] at hfragment
      cases hfragment
      rw [blockOf_eq, rposition_eq_none] at hblock
      rw [← isBlockOf_iff, hblock s hs] at hof
      cases hof
    | some index =>
      have hcont : fragment.continuation = true := by
        by_contra hcont
        rw [ChatApp.blockOf, if_neg hcont] at hblock
        cases hblock
      obtain ⟨item, hevent, hempty, hkind, rfl⟩ := continuation_iff hfragment hcont
      rw [blockOf_eq] at hblock
      obtain ⟨before, s, after, hshown, rfl, hs, hafter⟩ := rposition_eq_some hblock
      refine .inr ⟨item, before, s, after, hevent, hempty, hkind, hshown, isBlockOf_iff.1 hs,
        fun t ht hof => ?_, ?_⟩
      · rw [← isBlockOf_iff, hafter t ht] at hof
        cases hof
      · rw [hevent, hshown]
        exact modify_append_cons _ before s after

/-- A place that changed is after the last message of the user, if the blocks were placed well. -/
theorem Placed.after_user {shown shown' before after : List Shown} {s s' : Shown}
    (h : Placed shown shown') (heq : shown = before ++ s :: after)
    (heq' : shown' = before ++ s' :: after) (hne : s ≠ s') :
    ∀ t ∈ s :: after, t.block.kind ≠ .user := by
  cases h with
  | unchanged =>
    rw [heq, List.append_cancel_left_eq, List.cons.injEq] at heq'
    exact absurd heq'.1 hne
  | appended _ new =>
    have hlength := congrArg List.length heq'
    rw [heq, List.length_append, List.length_append, List.length_append] at hlength
    simp at hlength
  | extended before₁ s₁ after₁ text variants huser =>
    have hat : before.length = before₁.length := by
      by_contra hdiff
      have hsame := @getElem?_middle _ before₁ after₁ s₁ (s₁.extend text variants) _ hdiff
      rw [heq, heq', List.getElem?_append_right (Nat.le_refl _),
        List.getElem?_append_right (Nat.le_refl _), Nat.sub_self] at hsame
      exact hne (Option.some.inj hsame)
    obtain ⟨-, htail⟩ := List.append_inj heq hat.symm
    rwa [htail] at huser

theorem extend_ne (s : Shown) (text : String) (v : ItemVariant) : s ≠ s.extend text [v] := by
  intro h
  have hlength := congrArg (List.length ∘ Shown.variants) h
  simp [Shown.extend] at hlength

theorem ofRendered_ne_user {kind : RenderedItemKind} (h : kind ≠ .userMessage) :
    TranscriptKind.ofRendered kind ≠ .user := by
  revert h
  cases kind <;> decide

theorem uniform_extend {s : Shown} {text : String} {v : ItemVariant}
    (h : ∀ w ∈ s.variants, w = v) : (s.extend text [v]).Uniform := by
  have hall : ∀ w ∈ s.variants ++ [v], w = v := by
    intro w hw
    rcases List.mem_append.1 hw with hw | hw
    · exact h w hw
    · exact List.mem_singleton.1 hw
  exact fun w hw w' hw' => (hall w hw).trans (hall w' hw').symm

/-- **An event is placed well just when it fits.** -/
theorem placed_iff_fits {c : Conversation} (huniform : ∀ s ∈ c.shown, s.Uniform)
    (event : ThreadEvent) : PlacedWell compactJson c event ↔ Fits compactJson c event := by
  rcases consume_cases c event with
    ⟨hfits, heq | ⟨s, hs, heq⟩⟩ |
      ⟨item, before, s, after, rfl, hempty, hkind, hshown, hof, hlast, heq⟩
  · rw [PlacedWell, heq]
    exact iff_of_true ⟨.unchanged _, huniform⟩ hfits
  · rw [PlacedWell, heq]
    refine iff_of_true ⟨.appended _ _, fun t ht => ?_⟩ hfits
    rcases List.mem_append.1 ht with ht | ht
    · exact huniform t ht
    · rw [List.mem_singleton.1 ht]
      exact hs
  · constructor
    · rintro ⟨hplaced, hafter⟩ item' hevent' - - before' s' after' hshown' hof' hlast'
      cases hevent'
      obtain ⟨rfl, rfl⟩ := last_unique (hshown.symm.trans hshown') hof hlast hof' hlast'
      have huser := hplaced.after_user hshown heq (extend_ne s _ _)
      refine ⟨fun t ht => huser t (List.mem_cons_of_mem _ ht), fun v hv => ?_⟩
      refine hafter (s.extend (renderUpdated compactJson item).markdown [variantOf item]) ?_ v
        (List.mem_append_left _ hv) _
        (List.mem_append_right _ List.mem_cons_self)
      rw [heq]
      exact List.mem_append_right _ List.mem_cons_self
    · intro hfits
      obtain ⟨huser, hvariants⟩ := hfits item rfl hempty hkind before s after hshown hof hlast
      have hs : s.block.kind ≠ .user := by
        rw [hof.1]
        exact ofRendered_ne_user hkind
      rw [PlacedWell, heq]
      constructor
      · rw [hshown]
        exact .extended before s after _ _ (List.forall_mem_cons.2 ⟨hs, huser⟩)
      · intro t ht
        rw [List.mem_append, List.mem_cons] at ht
        rcases ht with ht | rfl | ht
        · exact huniform t (hshown ▸ List.mem_append_left _ ht)
        · exact uniform_extend hvariants
        · exact huniform t (hshown ▸ List.mem_append_right _ (List.mem_cons_of_mem _ ht))

/-! ## Whole conversations -/

/-- The property holds of every event, in the conversation it comes into. -/
def Along (compactJson : Value → String) (P : Conversation → ThreadEvent → Prop) :
    Conversation → List ChatAction → Prop
  | _, [] => True
  | c, action :: actions => (∀ event, action = .consume event → P c event) ∧
    Along compactJson P (c.step compactJson action) actions

theorem uniform_write {shown : List Shown} (h : ∀ s ∈ shown, s.Uniform)
    (blocks : List TranscriptBlock) : ∀ s ∈ shown ++ blocks.map (⟨·, []⟩), s.Uniform := by
  intro s hs
  rcases List.mem_append.1 hs with hs | hs
  · exact h s hs
  · obtain ⟨block, -, rfl⟩ := List.mem_map.1 hs
    exact nofun

/-- An event that is placed well, and whatever else happens, leaves text of one variant in each
block. -/
theorem uniform_step {c : Conversation} (h : ∀ s ∈ c.shown, s.Uniform) {action : ChatAction}
    (hplaced : ∀ event, action = .consume event → PlacedWell compactJson c event) :
    ∀ s ∈ (c.step compactJson action).shown, s.Uniform := by
  cases action with
  | consume event => exact (hplaced event rfl).2
  | clear => exact nofun
  | _ => exact uniform_write h _

theorem along_iff {c : Conversation} (h : ∀ s ∈ c.shown, s.Uniform) (actions : List ChatAction) :
    Along compactJson (PlacedWell compactJson) c actions ↔
      Along compactJson (Fits compactJson) c actions := by
  induction actions generalizing c with
  | nil => exact Iff.rfl
  | cons action actions ih =>
    have hhead : (∀ event, action = .consume event → PlacedWell compactJson c event) ↔
        ∀ event, action = .consume event → Fits compactJson c event :=
      forall₂_congr fun event _ => placed_iff_fits h event
    rw [Along, Along, hhead, and_congr_right_iff]
    exact fun hfits => ih (uniform_step h (hhead.2 hfits))

/-- **The placement of fragments.**  Over a whole conversation every event is placed well, after the
last message of the user and with text of one variant in each block, just when every one fits. -/
theorem placement_iff (compactJson : Value → String) (actions : List ChatAction) :
    Along compactJson (PlacedWell compactJson) .new actions ↔
      Along compactJson (Fits compactJson) .new actions :=
  along_iff (fun _ hs => absurd hs List.not_mem_nil) actions

/-- Two turns whose answers are streamed without an item id. -/
def repeatedId : List ChatAction :=
  [.submit "one", .consume (.itemUpdated (.agentMessage ⟨"", "first", none⟩)), .finish,
    .submit "two", .consume (.itemUpdated (.agentMessage ⟨"", "second", none⟩)), .finish]

/-- The block of the first answer. -/
def firstAnswer : Shown := ⟨⟨.agent, some "", "first"⟩, [.agentMessage]⟩

/-- The answer of the second turn is added to that of the first. -/
theorem placement_repeatedId : ¬ ∀ (compactJson : Value → String) (actions : List ChatAction),
    Along compactJson (PlacedWell compactJson) .new actions := by
  intro h
  obtain ⟨-, -, -, -, hsecond, -⟩ := h (fun _ => "") repeatedId
  have hplaced : Placed
      ([⟨⟨.user, none, "one"⟩, []⟩] ++ firstAnswer :: [⟨⟨.user, none, "two"⟩, []⟩])
      ([⟨⟨.user, none, "one"⟩, []⟩] ++ firstAnswer.extend "second" [.agentMessage] ::
        [⟨⟨.user, none, "two"⟩, []⟩]) := (hsecond _ rfl).1
  exact hplaced.after_user rfl rfl (extend_ne _ _ _) ⟨⟨.user, none, "two"⟩, []⟩ (by simp) rfl

end

end CodexSdk.Luna

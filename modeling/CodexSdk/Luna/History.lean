import CodexSdk.Luna.Session

/-!
# Browsing the history

`Up` and `Down` show entries of the history in place of the input, and every key that edits the input
ends that.  A paste edits it too and does not: the loop puts it in and leaves the app at the entry.
`historyKept_iff` says that nothing else takes the input away from the entry it is said to be, and
that the draft comes back whatever is browsed.
-/

set_option autoImplicit false

namespace CodexSdk.Luna.Composer

open Json Text

/-! ## What a step can do -/

/-- The input is a zipper's, and no entry of the history is shown. -/
structure Unbrowsed (app : ChatApp) : Prop where
  input_eq : ∃ z, app.input = .ofZipper z
  historyCursor_eq : app.historyCursor = none

inductive SessionStep (s : Session) : Input → Session → Prop
  | kept (input : Input) (app : ChatApp) (phase : Phase) (h : Kept s.app app) :
      SessionStep s input ⟨app, phase⟩
  | key (input : Input) (action : IdleAction) (app : ChatApp) (phase : Phase)
      (h : KeyStep s.app action app) : SessionStep s input ⟨app, phase⟩
  | submitted (input : Input) (app : ChatApp) (phase : Phase) (h : Unbrowsed app) :
      SessionStep s input ⟨app, phase⟩
  | pasted (text : String) (answer : Except String Unit) (z : Zipper Char) (hidle : s.phase = .idle)
      (hz : s.app.input = .ofZipper z) :
      SessionStep s (.terminal (.paste text) answer)
        ⟨{ s.app with input := .ofZipper (z.insertList (singleLine text).toList) }, .idle⟩

section

variable {app : ChatApp}

theorem Unbrowsed.executeCommand (h : Unbrowsed app) (answer : Except String Unit)
    (command : ChatCommand) : Unbrowsed (app.executeCommand answer command).1 := by
  rcases command with _ | _ | _ | effort | _ | skill | _ | _ | command
  · exact ⟨h.input_eq, h.historyCursor_eq⟩
  · rcases answer with error | _
    · exact ⟨h.input_eq, h.historyCursor_eq⟩
    · exact ⟨h.input_eq, h.historyCursor_eq⟩
  · exact ⟨h.input_eq, h.historyCursor_eq⟩
  · exact ⟨h.input_eq, h.historyCursor_eq⟩
  · exact ⟨h.input_eq, h.historyCursor_eq⟩
  · rw [ChatApp.executeCommand]
    split
    · exact ⟨h.input_eq, h.historyCursor_eq⟩
    · exact ⟨⟨_, InputBuffer.set_eq _⟩, h.historyCursor_eq⟩
  · exact ⟨h.input_eq, h.historyCursor_eq⟩
  · exact h
  · exact ⟨h.input_eq, h.historyCursor_eq⟩

theorem startTurn_kept (prompt : String) (answer : Except String Unit) :
    Kept app (Session.startTurn app prompt answer).app := by
  rw [Session.startTurn]
  split
  · exact .refl app
  · rcases answer with error | _
    · exact .rest ..
    · exact .rest ..

theorem Unbrowsed.kept {app' : ChatApp} (h : Unbrowsed app) (hkept : Kept app app') :
    Unbrowsed app' :=
  ⟨hkept.input_eq ▸ h.input_eq, hkept.historyCursor_eq.trans h.historyCursor_eq⟩

theorem Unbrowsed.submit (h : Unbrowsed app) (input : String) (answer : Except String Unit) :
    Unbrowsed (Session.submit app input answer).app := by
  rw [Session.submit]
  split
  · exact h
  · exact h.kept (startTurn_kept _ answer)
  · exact h.executeCommand answer _

theorem unbrowsed_submitInput : Unbrowsed app.submitInput := ⟨⟨_, InputBuffer.empty_eq⟩, rfl⟩

theorem handleScrollingKey_kept (key : KeyEvent) : Kept app (app.handleScrollingKey key) := by
  rw [ChatApp.handleScrollingKey]
  split
  · exact .rest ..
  · exact .rest ..
  · exact .rest ..
  · exact .rest ..
  · split
    · exact .rest ..
    · exact .refl app
  · split
    · exact .rest ..
    · exact .refl app
  · exact .refl app

theorem runningEvent_kept (interruptRequested : Bool) (answer : Except String Unit)
    (event : Event) : Kept app (Session.runningEvent app interruptRequested answer event).app := by
  rcases event with key | text | _
  · simp only [Session.runningEvent]
    split
    · split
      · exact .rest ..
      · rcases answer with error | _
        · exact .rest ..
        · exact .rest ..
    split
    · exact handleScrollingKey_kept key
    · exact .refl app
  · exact .refl app
  · exact .refl app

theorem streamed_kept (compactJson : Value → String) (interruptRequested : Bool)
    (next : Option StreamItem) :
    Kept app (Session.streamed compactJson app interruptRequested next).app := by
  rcases next with _ | error | event
  · exact .rest ..
  · exact .refl app
  · rcases event
    all_goals exact .rest ..

end

section

variable (symbols : String → List Symbol) (compactJson : Value → String)

theorem idleEvent_step {s : Session} (h : Sound s.app) (hidle : s.phase = .idle)
    (answer : Except String Unit) (event : Event) :
    ∃ s', Session.idleEvent s.app answer event = some s' ∧
      SessionStep s (.terminal event answer) s' := by
  rcases event with key | text | _
  · rw [Session.idleEvent]
    split
    · obtain ⟨action, app, hkey, hstep⟩ := ChatApp.handleIdleKey_step h key
      rw [hkey]
      rcases action with _ | _ | input
      · exact ⟨_, rfl, .key _ _ _ _ hstep⟩
      · exact ⟨_, rfl, .key _ _ _ _ hstep⟩
      · rcases hstep with _ | _ | _ | _
        exact ⟨_, rfl, .submitted _ _ _ (unbrowsed_submitInput.submit _ answer)⟩
    · exact ⟨_, rfl, .kept _ _ _ (.refl _)⟩
  · obtain ⟨z, hz⟩ := h.input_eq
    rw [Session.idleEvent, hz, InputBuffer.insertStr_ofZipper]
    exact ⟨_, rfl, .pasted text answer z hidle hz⟩
  · exact ⟨_, rfl, .kept _ _ _ (.refl _)⟩

/-- **Every step does one of these things** to the composer, and none panics. -/
theorem step_step {s : Session} (h : Sound s.app) (input : Input) :
    ∃ s', s.step symbols compactJson input = some s' ∧ SessionStep s input s' := by
  rcases input with areas | ⟨event, answer⟩ | next
  · obtain ⟨app, drawn, hdraw, hkept⟩ := render_step symbols h areas
    rw [Session.step, hdraw]
    exact ⟨_, rfl, .kept _ _ _ hkept⟩
  · rw [Session.step]
    split
    · rename_i hidle
      exact idleEvent_step h hidle answer event
    · exact ⟨_, rfl, .kept _ _ _ (runningEvent_kept _ answer event)⟩
    · exact ⟨s, rfl, .kept _ _ _ (.refl _)⟩
  · rw [Session.step]
    split
    · exact ⟨_, rfl, .kept _ _ _ (streamed_kept compactJson _ next)⟩
    · exact ⟨s, rfl, .kept _ _ _ (.refl _)⟩
    · exact ⟨s, rfl, .kept _ _ _ (.refl _)⟩

end

/-! ## What holds of every state -/

/-- While an entry of the history is shown there are no suggestions. -/
structure Steady (app : ChatApp) : Prop extends Sound app where
  dismissed (h : app.historyCursor ≠ none) : app.suggestionsDismissed = true

/-- The input is the entry that is shown. -/
def ShowsEntry (app : ChatApp) : Prop :=
  ∀ index, app.historyCursor = some index → app.history[index]? = some app.input.text

section

variable {app app' : ChatApp}

theorem showsEntry_of_none (h : app.historyCursor = none) : ShowsEntry app := by
  intro index hindex
  rw [h] at hindex
  cases hindex

theorem Unbrowsed.steady (h : Unbrowsed app) : Steady app := by
  refine ⟨⟨h.input_eq, ?_⟩, fun hne => absurd h.historyCursor_eq hne⟩
  rw [h.historyCursor_eq]
  exact nofun

/-- Where a suggestion can be accepted no entry is shown. -/
theorem Steady.historyCursor_eq_none (h : Steady app) {suggestion : Suggestion}
    (hmem : suggestion ∈ app.suggestions) : app.historyCursor = none := by
  by_contra hne
  rw [ChatApp.suggestions, h.dismissed hne, Bool.true_or, if_pos rfl] at hmem
  exact absurd hmem List.not_mem_nil

theorem Steady.kept (h : Steady app) (hkept : Kept app app') : Steady app' := by
  refine ⟨h.toSound.kept hkept, fun hne => hkept.dismissed (h.dismissed ?_)⟩
  rwa [← hkept.historyCursor_eq]

theorem Steady.key {action : IdleAction} (h : Steady app) (hstep : KeyStep app action app') :
    Steady app' := by
  refine ⟨h.toSound.step hstep, ?_⟩
  rcases hstep with _ | z | ⟨z, -⟩ | _ | ⟨suggestion, hmem⟩ | _ | _ | ⟨_, hkept⟩
  · exact h.dismissed
  · exact fun hne => absurd rfl hne
  · exact h.dismissed
  · exact fun hne => absurd rfl hne
  · exact fun hne => absurd (h.historyCursor_eq_none hmem) hne
  · exact fun _ => rfl
  · exact fun _ => rfl
  · exact (h.kept hkept).dismissed

theorem ShowsEntry.kept (h : ShowsEntry app) (hkept : Kept app app') : ShowsEntry app' := by
  intro index hindex
  rw [hkept.history_eq, hkept.input_eq]
  exact h index (hkept.historyCursor_eq ▸ hindex)

theorem ShowsEntry.key {action : IdleAction} (h : ShowsEntry app) (hsteady : Steady app)
    (hstep : KeyStep app action app') : ShowsEntry app' := by
  rcases hstep with _ | z | ⟨z, htext⟩ | _ | ⟨suggestion, hmem⟩ | ⟨index, draft, text, htext⟩ | _ |
    ⟨_, hkept⟩
  · exact h
  · exact showsEntry_of_none rfl
  · intro index hindex
    rw [InputBuffer.text_ofZipper, htext]
    exact h index hindex
  · exact showsEntry_of_none rfl
  · exact showsEntry_of_none (hsteady.historyCursor_eq_none hmem)
  · intro shown hshown
    obtain rfl := Option.some.inj hshown
    exact htext
  · exact showsEntry_of_none rfl
  · exact h.kept hkept

end

/-- What is pasted goes into an entry of the history. -/
def PastesIntoEntry (s : Session) : Input → Prop
  | .terminal (.paste text) _ =>
    s.phase = .idle ∧ s.app.historyCursor ≠ none ∧ singleLine text ≠ ""
  | _ => False

section

variable {s s' : Session} {input : Input}

theorem Steady.step (h : Steady s.app) (hstep : SessionStep s input s') : Steady s'.app := by
  rcases hstep with ⟨_, app, phase, hkept⟩ | ⟨_, action, app, phase, hkey⟩ |
    ⟨_, app, phase, hunbrowsed⟩ | ⟨text, answer, z, -, -⟩
  · exact h.kept hkept
  · exact h.key hkey
  · exact hunbrowsed.steady
  · exact ⟨⟨⟨_, rfl⟩, h.historyCursor_lt⟩, h.dismissed⟩

theorem ShowsEntry.step (h : ShowsEntry s.app) (hsteady : Steady s.app)
    (hstep : SessionStep s input s') (hpaste : ¬ PastesIntoEntry s input) :
    ShowsEntry s'.app := by
  rcases hstep with ⟨_, app, phase, hkept⟩ | ⟨_, action, app, phase, hkey⟩ |
    ⟨_, app, phase, hunbrowsed⟩ | ⟨text, answer, z, hidle, hz⟩
  · exact h.kept hkept
  · exact h.key hsteady hkey
  · exact showsEntry_of_none hunbrowsed.historyCursor_eq
  · intro index hindex
    have hblank : singleLine text = "" := by
      by_contra hne
      refine hpaste ⟨hidle, ?_, hne⟩
      rw [show s.app.historyCursor = some index from hindex]
      exact Option.some_ne_none index
    have hentry := h index hindex
    rw [hz] at hentry
    rw [hblank]
    exact hentry

end

section

variable (symbols : String → List Symbol) (compactJson : Value → String)

/-- A paste is put in and nothing else happens. -/
theorem step_paste {s : Session} {z : Zipper Char} (hidle : s.phase = .idle)
    (hz : s.app.input = .ofZipper z) (text : String) (answer : Except String Unit) :
    s.step symbols compactJson (.terminal (.paste text) answer) =
      some ⟨{ s.app with input := .ofZipper (z.insertList (singleLine text).toList) }, .idle⟩ := by
  rw [Session.step, hidle]
  show Option.map _ (s.app.input.insertStr _) = _
  rw [hz, InputBuffer.insertStr_ofZipper]
  rfl

/-- **A paste into an entry** leaves a text that is not the entry. -/
theorem not_showsEntry_of_paste {s : Session} {input : Input} (hsound : Sound s.app)
    (hshows : ShowsEntry s.app) (hpaste : PastesIntoEntry s input) :
    ∃ s', s.step symbols compactJson input = some s' ∧ ¬ ShowsEntry s'.app := by
  rcases input with _ | ⟨_ | text | _, answer⟩ | _
  · exact hpaste.elim
  · exact hpaste.elim
  · obtain ⟨hidle, hcursor, hne⟩ := hpaste
    obtain ⟨z, hz⟩ := hsound.input_eq
    obtain ⟨index, hindex⟩ := Option.ne_none_iff_exists'.1 hcursor
    refine ⟨_, step_paste symbols compactJson hidle hz text answer, fun hshows' => hne ?_⟩
    have hentry := hshows index hindex
    rw [hz] at hentry
    have hsame : String.ofList z.toList =
        String.ofList (z.insertList (singleLine text).toList).toList :=
      Option.some.inj (hentry.symm.trans (hshows' index hindex))
    have hlength := congrArg List.length (String.ofList_injective hsame)
    rw [Zipper.length_insertList] at hlength
    have hzero : (singleLine text).toList.length = 0 := by omega
    exact String.toList_eq_nil_iff.1 (List.eq_nil_of_length_eq_zero hzero)
  · exact hpaste.elim
  · exact hpaste.elim

end

/-! ## Browsing -/

/-- `Up` or `Down`, whatever else is pressed with it.  The screen is drawn in between. -/
def IsArrow : Input → Prop
  | .draw _ => True
  | .terminal (.key key) _ => key.code = .up ∨ key.code = .down
  | _ => False

/-- The draft is the input, or it is kept for when the browsing ends. -/
def KeepsDraft (draft : String) (app : ChatApp) : Prop :=
  match app.historyCursor with
  | none => app.input.text = draft
  | some _ => app.historyDraft = draft

section

variable {draft : String} {app app' : ChatApp}

theorem KeepsDraft.kept (h : KeepsDraft draft app) (hkept : Kept app app') :
    KeepsDraft draft app' := by
  rw [KeepsDraft, hkept.historyCursor_eq, hkept.input_eq, hkept.historyDraft_eq]
  exact h

theorem KeepsDraft.olderEntry (h : KeepsDraft draft app) : app.olderEntry.2 = draft := by
  rw [KeepsDraft] at h
  rw [ChatApp.olderEntry]
  split at h
  · rename_i hnone
    rw [hnone]
    exact h
  · rename_i index hindex
    rw [hindex]
    exact h

theorem KeepsDraft.up (h : KeepsDraft draft app) (hup : app.navigateHistoryUp = some app') :
    KeepsDraft draft app' := by
  rw [ChatApp.navigateHistoryUp] at hup
  split at hup
  · obtain rfl := Option.some.inj hup
    exact h
  · obtain ⟨text, -, hsome⟩ := Option.bind_eq_some_iff.1 hup
    obtain rfl := Option.some.inj hsome
    exact h.olderEntry

theorem KeepsDraft.down (h : KeepsDraft draft app) (hdown : app.navigateHistoryDown = some app') :
    KeepsDraft draft app' := by
  rw [ChatApp.navigateHistoryDown] at hdown
  split at hdown
  · obtain rfl := Option.some.inj hdown
    exact h
  · rename_i index hindex
    rw [KeepsDraft, hindex] at h
    split at hdown
    · obtain ⟨text, -, hsome⟩ := Option.bind_eq_some_iff.1 hdown
      obtain rfl := Option.some.inj hsome
      exact h
    · obtain rfl := Option.some.inj hdown
      exact h

theorem ChatApp.handleIdleKey_up {key : KeyEvent} (h : key.code = .up) :
    app.handleIdleKey key = if app.suggestions.isEmpty then
      app.navigateHistoryUp.map (IdleAction.none, ·)
    else some (.none, app.selectPreviousSuggestion) := by
  rcases key with ⟨code, modifiers, kind⟩
  obtain rfl : code = .up := h
  rfl

theorem ChatApp.handleIdleKey_down {key : KeyEvent} (h : key.code = .down) :
    app.handleIdleKey key = if app.suggestions.isEmpty then
      app.navigateHistoryDown.map (IdleAction.none, ·)
    else some (.none, app.selectNextSuggestion) := by
  rcases key with ⟨code, modifiers, kind⟩
  obtain rfl : code = .down := h
  rfl

/-- Either way no action follows. -/
theorem KeepsDraft.choice {suggested : Bool} {browsed : Option ChatApp} {selected : ChatApp}
    {action : IdleAction} (hbrowsed : ∀ app', browsed = some app' → KeepsDraft draft app')
    (hselected : KeepsDraft draft selected)
    (h : (if suggested then browsed.map (IdleAction.none, ·) else some (.none, selected)) =
      some (action, app')) : action = .none ∧ KeepsDraft draft app' := by
  split at h
  · obtain ⟨app'', hbrowse, hsame⟩ := Option.map_eq_some_iff.1 h
    obtain ⟨rfl, rfl⟩ := Prod.mk.inj hsame
    exact ⟨rfl, hbrowsed app'' hbrowse⟩
  · obtain ⟨rfl, rfl⟩ := Prod.mk.inj (Option.some.inj h)
    exact ⟨rfl, hselected⟩

/-- An arrow chooses a suggestion or browses. -/
theorem KeepsDraft.arrow (h : KeepsDraft draft app) {key : KeyEvent} {action : IdleAction}
    (hcode : key.code = .up ∨ key.code = .down)
    (hkey : app.handleIdleKey key = some (action, app')) :
    action = .none ∧ KeepsDraft draft app' := by
  rcases hcode with hup | hdown
  · rw [ChatApp.handleIdleKey_up hup] at hkey
    exact choice (fun _ hbrowse => h.up hbrowse) (h.kept ChatApp.selectPreviousSuggestion_kept) hkey
  · rw [ChatApp.handleIdleKey_down hdown] at hkey
    exact choice (fun _ hbrowse => h.down hbrowse) (h.kept ChatApp.selectNextSuggestion_kept) hkey

/-- `Down` at the newest entry brings the draft back. -/
theorem KeepsDraft.leave (h : KeepsDraft draft app) (hsteady : Steady app) {index : Nat}
    (hindex : app.historyCursor = some index) (hnewest : index + 1 = app.history.length)
    {key : KeyEvent} (hcode : key.code = .down) :
    ∃ app', app.handleIdleKey key = some (.none, app') ∧ app'.historyCursor = none ∧
      app'.input.text = draft := by
  have hsuggestions : app.suggestions = [] := by
    have hdismissed := hsteady.dismissed (by rw [hindex]; exact Option.some_ne_none index)
    rw [ChatApp.suggestions, hdismissed, Bool.true_or, if_pos rfl]
  have hkey : app.handleIdleKey key = app.navigateHistoryDown.map (IdleAction.none, ·) := by
    rw [ChatApp.handleIdleKey_down hcode, hsuggestions]
    rfl
  rw [KeepsDraft, hindex] at h
  rw [hkey, ChatApp.navigateHistoryDown, hindex]
  show ∃ app', Option.map _ (if index + 1 < app.history.length then _ else _) = _ ∧ _
  rw [if_neg (by omega)]
  exact ⟨_, rfl, rfl, h⟩

end

/-! ## Runs -/

section

variable (symbols : String → List Symbol) (compactJson : Value → String)

/-- A session the inputs lead to, when all or some of them have come in. -/
def Session.Reaches (start : Session) (inputs : List Input) (s : Session) : Prop :=
  ∃ done rest, inputs = done ++ rest ∧ start.run symbols compactJson done = some s

/-- One of the inputs comes in at a session. -/
def Session.Handles (start : Session) (inputs : List Input) (s : Session) (input : Input) : Prop :=
  ∃ done rest, inputs = done ++ input :: rest ∧ start.run symbols compactJson done = some s

/-- Whatever is browsed from a session, its input is there again when no entry is shown, and `Down`
at the newest entry brings it back. -/
def RestoresDraft (s : Session) : Prop :=
  ∀ arrows s', (∀ input ∈ arrows, IsArrow input) → s.run symbols compactJson arrows = some s' →
    (s'.app.historyCursor = none → s'.app.input.text = s.app.input.text) ∧
    ∀ index, s'.app.historyCursor = some index → index + 1 = s'.app.history.length →
      ∀ key answer, key.code = .down → acceptsKey key = true →
        ∃ s'', s'.step symbols compactJson (.terminal (.key key) answer) = some s'' ∧
          s''.app.historyCursor = none ∧ s''.app.input.text = s.app.input.text

/-- Browsing the history loses nothing: an entry that is shown is the input, so that the next one
takes nothing else away, and the draft that was left comes back. -/
structure HistoryKept (start : Session) (inputs : List Input) : Prop where
  shows (s : Session) (h : start.Reaches symbols compactJson inputs s) : ShowsEntry s.app
  restores (s : Session) (h : start.Reaches symbols compactJson inputs s) (hidle : s.phase = .idle)
    (hnone : s.app.historyCursor = none) : RestoresDraft symbols compactJson s

section

variable {symbols compactJson} {start s s' : Session} {inputs : List Input} {input : Input}

theorem run_concat (hrun : start.run symbols compactJson inputs = some s) (input : Input) :
    start.run symbols compactJson (inputs ++ [input]) = s.step symbols compactJson input := by
  rw [Session.run, List.foldlM_append]
  rw [Session.run] at hrun
  rw [hrun, Option.bind_eq_bind, Option.bind_some, List.foldlM_cons]
  exact bind_pure _

theorem exists_of_run_concat
    (hrun : start.run symbols compactJson (inputs ++ [input]) = some s') :
    ∃ s, start.run symbols compactJson inputs = some s ∧
      s.step symbols compactJson input = some s' := by
  rw [Session.run, List.foldlM_append] at hrun
  obtain ⟨s, hs, hlast⟩ := Option.bind_eq_some_iff.1 hrun
  rw [List.foldlM_cons] at hlast
  obtain ⟨s'', hstep, hsame⟩ := Option.bind_eq_some_iff.1 hlast
  obtain rfl := Option.some.inj hsame
  exact ⟨s, hs, hstep⟩

theorem SessionStep.of_step (h : Sound s.app) (hstep : s.step symbols compactJson input = some s') :
    SessionStep s input s' := by
  obtain ⟨s'', hsome, hs⟩ := step_step symbols compactJson h input
  obtain rfl := Option.some.inj (hsome.symm.trans hstep)
  exact hs

theorem Steady.run (h : Steady start.app)
    (hrun : start.run symbols compactJson inputs = some s) : Steady s.app := by
  induction inputs using List.reverseRecOn generalizing s with
  | nil =>
    obtain rfl := Option.some.inj hrun
    exact h
  | append_singleton inputs input ih =>
    obtain ⟨s', hs', hstep⟩ := exists_of_run_concat hrun
    exact (ih hs').step (.of_step (ih hs').toSound hstep)

theorem ShowsEntry.run (h : ShowsEntry start.app) (hsteady : Steady start.app)
    (hrun : start.run symbols compactJson inputs = some s)
    (hpaste : ∀ s input, start.Handles symbols compactJson inputs s input →
      ¬ PastesIntoEntry s input) : ShowsEntry s.app := by
  induction inputs using List.reverseRecOn generalizing s with
  | nil =>
    obtain rfl := Option.some.inj hrun
    exact h
  | append_singleton inputs input ih =>
    obtain ⟨s', hs', hstep⟩ := exists_of_run_concat hrun
    have hsteady' := hsteady.run hs'
    refine ShowsEntry.step (ih hs' fun t i => ?_) hsteady' (.of_step hsteady'.toSound hstep)
      (hpaste s' input ⟨inputs, [], rfl, hs'⟩)
    rintro ⟨done, rest, rfl, hdone⟩
    exact hpaste t i ⟨done, rest ++ [input], by simp, hdone⟩

/-- While there are only arrows, the chat is idle and the draft is kept. -/
theorem KeepsDraft.step {draft : String} (h : KeepsDraft draft s.app) (hsound : Sound s.app)
    (hidle : s.phase = .idle) (harrow : IsArrow input)
    (hstep : s.step symbols compactJson input = some s') :
    KeepsDraft draft s'.app ∧ s'.phase = .idle := by
  rcases input with areas | ⟨key | _ | _, answer⟩ | _
  · obtain ⟨app, drawn, hdraw, hkept⟩ := render_step symbols hsound areas
    rw [Session.step, hdraw] at hstep
    obtain rfl := Option.some.inj hstep
    exact ⟨h.kept hkept, hidle⟩
  · rw [Session.step, hidle] at hstep
    change (if acceptsKey key then _ else _) = _ at hstep
    split at hstep
    · obtain ⟨⟨action, app⟩, hkey, hsame⟩ := Option.map_eq_some_iff.1 hstep
      obtain ⟨rfl, hdraft⟩ := h.arrow harrow hkey
      obtain rfl := hsame
      exact ⟨hdraft, rfl⟩
    · obtain rfl := Option.some.inj hstep
      exact ⟨h, rfl⟩
  · exact harrow.elim
  · exact harrow.elim
  · exact harrow.elim

theorem KeepsDraft.run {draft : String} (h : KeepsDraft draft start.app)
    (hsteady : Steady start.app) (hidle : start.phase = .idle)
    (harrows : ∀ input ∈ inputs, IsArrow input)
    (hrun : start.run symbols compactJson inputs = some s) :
    KeepsDraft draft s.app ∧ s.phase = .idle := by
  induction inputs using List.reverseRecOn generalizing s with
  | nil =>
    obtain rfl := Option.some.inj hrun
    exact ⟨h, hidle⟩
  | append_singleton inputs input ih =>
    obtain ⟨s', hs', hstep⟩ := exists_of_run_concat hrun
    obtain ⟨hdraft, hphase⟩ := ih (fun i hi => harrows i (List.mem_append_left _ hi)) hs'
    exact hdraft.step (hsteady.run hs').toSound hphase
      (harrows input (List.mem_append_right _ (List.mem_singleton_self input))) hstep

/-- **The draft comes back** from wherever it was left. -/
theorem restoresDraft (hsteady : Steady s.app) (hidle : s.phase = .idle)
    (hnone : s.app.historyCursor = none) : RestoresDraft symbols compactJson s := by
  have hstart : KeepsDraft s.app.input.text s.app := by rw [KeepsDraft, hnone]
  intro arrows s' harrows hrun
  obtain ⟨hdraft, hphase⟩ := hstart.run hsteady hidle harrows hrun
  refine ⟨fun hcursor => ?_, fun index hindex hnewest key answer hcode haccepts => ?_⟩
  · rw [KeepsDraft, hcursor] at hdraft
    exact hdraft
  · obtain ⟨app, hkey, hleft, htext⟩ :=
      hdraft.leave (hsteady.run hrun) hindex hnewest hcode
    refine ⟨⟨app, .idle⟩, ?_, hleft, htext⟩
    rw [Session.step, hphase]
    show (if acceptsKey key then _ else _) = _
    rw [if_pos haccepts, hkey]
    rfl

end

/-- No entry is shown when a session starts. -/
theorem unbrowsed_start (skills : List String) (effort : ModelReasoningEffort)
    (finalResponseOnly jsonOutput : Bool)
    (initialPrompt : Option (String × Except String Unit)) :
    Unbrowsed (Session.start (.new skills effort finalResponseOnly jsonOutput) initialPrompt).app := by
  have hnew : Unbrowsed (.new skills effort finalResponseOnly jsonOutput) :=
    ⟨⟨_, InputBuffer.empty_eq⟩, rfl⟩
  rcases initialPrompt with _ | ⟨prompt, answer⟩
  · exact hnew
  · exact hnew.kept (startTurn_kept prompt answer)

/-- **Browsing loses nothing** in exactly those sessions in which nothing is pasted into an entry of
the history. -/
theorem historyKept_iff (skills : List String) (effort : ModelReasoningEffort)
    (finalResponseOnly jsonOutput : Bool)
    (initialPrompt : Option (String × Except String Unit)) (inputs : List Input) :
    let start := Session.start (.new skills effort finalResponseOnly jsonOutput) initialPrompt
    HistoryKept symbols compactJson start inputs ↔
      ∀ s input, start.Handles symbols compactJson inputs s input → ¬ PastesIntoEntry s input := by
  intro start
  have hstart := unbrowsed_start skills effort finalResponseOnly jsonOutput initialPrompt
  have hsteady : Steady start.app := hstart.steady
  constructor
  · rintro hkept s input ⟨done, rest, hinputs, hdone⟩ hpaste
    have hshows := hkept.shows s ⟨done, input :: rest, hinputs, hdone⟩
    obtain ⟨s', hstep, hnot⟩ := not_showsEntry_of_paste symbols compactJson
      (hsteady.run hdone).toSound hshows hpaste
    refine hnot (hkept.shows s' ⟨done ++ [input], rest, by simp [hinputs], ?_⟩)
    rw [run_concat hdone, hstep]
  · intro hpaste
    refine ⟨fun s ⟨done, rest, hinputs, hdone⟩ => ?_, fun s ⟨done, rest, _, hdone⟩ => ?_⟩
    · refine (showsEntry_of_none hstart.historyCursor_eq).run hsteady hdone fun t input => ?_
      rintro ⟨before, after, rfl, hbefore⟩
      exact hpaste t input ⟨before, after ++ rest, by simp [hinputs], hbefore⟩
    · exact restoresDraft (hsteady.run hdone)

end

/-- A key that is pressed alone. -/
def pressed (code : KeyCode) : Input := .terminal (.key ⟨code, 0, .press⟩) (.ok ())

/-- A prompt and its turn, `Up` to the prompt, and a paste. -/
def pastedInto : List Input :=
  [pressed (.char 'a'), pressed .enter, .stream (some (.ok (.turnCompleted none))), pressed .up,
    .terminal (.paste "b") (.ok ())]

/-- **A paste is lost**: it goes into the entry that is shown, and `Down` takes it away. -/
theorem paste_lost :
    let start := Session.start (.new [] .max false false) none
    let run := start.run (fun _ => []) (fun _ => "")
    (run pastedInto).map (fun s => (s.app.historyCursor, s.app.history, s.app.input.text)) =
        some (some 0, ["a"], "ab") ∧
      (run (pastedInto ++ [pressed .down])).map (fun s => (s.app.input.text, s.app.history)) =
        some ("", ["a"]) ∧
      ¬ HistoryKept (fun _ => []) (fun _ => "") start pastedInto := by
  have hpasted : ((Session.start (.new [] .max false false) none).run (fun _ => []) (fun _ => "")
      pastedInto).map (fun s => (s.app.historyCursor, s.app.history, s.app.input.text)) =
        some (some 0, ["a"], "ab") := by decide
  refine ⟨hpasted, by decide, fun hkept => ?_⟩
  obtain ⟨s, hrun, hs⟩ := Option.map_eq_some_iff.1 hpasted
  obtain ⟨hcursor, hhistory, htext⟩ :
      s.app.historyCursor = some 0 ∧ s.app.history = ["a"] ∧ s.app.input.text = "ab" := by
    simpa using hs
  have hentry := hkept.shows s ⟨pastedInto, [], rfl, hrun⟩ 0 hcursor
  rw [hhistory, htext] at hentry
  exact absurd hentry (by decide)

end CodexSdk.Luna.Composer

import CodexSdk.Luna.Chat
import CodexSdk.Luna.InputBuffer
import CodexSdk.Thread.Options

/-!
# The composer of the chat

What a `ChatApp` of `commands/chat.rs` does with a key while it is idle: editing the input, choosing
a suggestion, browsing the history, scrolling.  An operation that would panic is `none`.

`KeyStep` lists what a key can do, and `handleIdleKey_step` says that from a sound state every key
does one of these things.  What is proved of runs is proved from that list.
-/

set_option autoImplicit false

namespace CodexSdk.Luna.Composer

open Text

/-! ## Suggestions -/

def efforts : List String := ["none", "minimal", "low", "medium", "high", "xhigh", "max", "ultra"]

def commands : List (String × String) :=
  [("/help", "show chat commands and keys"),
    ("/compact", "compact this conversation's context"),
    ("/effort", "show or set reasoning effort"),
    ("/skills", "list available Codex skills"),
    ("/skill", "insert a skill mention"),
    ("/clear", "clear the visible transcript"),
    ("/quit", "leave Luna chat")]

structure Suggestion where
  replacement : String
  display : String
  description : String

/-- `str::split_once(char::is_whitespace)`. -/
def splitOnceWhitespace (s : List Char) : Option (List Char × List Char) :=
  match s.dropWhile (!isWhitespace ·) with
  | [] => none
  | _ :: after => some (s.takeWhile (!isWhitespace ·), after)

/-- The skills whose lowered name starts with the lowered text. -/
def matchingSkills (typed : List Char) (skills : List String) : List String :=
  skills.filter fun skill =>
    (toAsciiLowercase typed).isPrefixOf (toAsciiLowercase skill.toList)

def suggestionsFor (input : String) (skills : List String) : List Suggestion :=
  match input.toList with
  | '$' :: typed =>
    if typed.any isWhitespace then []
    else (matchingSkills typed skills).map fun skill =>
      ⟨"$" ++ skill ++ " ", "$" ++ skill, "mention skill"⟩
  | '/' :: _ =>
    match splitOnceWhitespace input.toList with
    | none =>
      (commands.filter fun (name, _) => (toAsciiLowercase input.toList).isPrefixOf name.toList).map
        fun (name, description) =>
          ⟨if name = "/effort" ∨ name = "/skill" then name ++ " " else name, name, description⟩
    | some (command, argument) =>
      let argument := argument.dropWhile isWhitespace
      match String.ofList (toAsciiLowercase command) with
      | "/effort" =>
        (efforts.filter fun effort => (toAsciiLowercase argument).isPrefixOf effort.toList).map
          fun effort => ⟨"/effort " ++ effort, effort, "reasoning effort"⟩
      | "/skill" => (matchingSkills argument skills).map fun skill =>
          ⟨"/skill " ++ skill, skill, "insert skill mention"⟩
      | _ => []
  | _ => []

/-! ## The app -/

/-- A `ChatApp` with what is for input and drawing. -/
structure ChatApp extends Luna.ChatApp where
  input : InputBuffer
  history : List String
  historyCursor : Option Nat
  historyDraft : String
  suggestionsDismissed : Bool
  selectedSuggestion : Nat
  skills : List String
  effort : ModelReasoningEffort
  scroll : Nat
  maxScroll : Nat
  transcriptPage : Nat

inductive IdleAction
  | none
  | quit
  | submit (input : String)

/-! ## Keys -/

/-- `other` is every key that is not asked for. -/
inductive KeyCode
  | enter
  | char (character : Char)
  | backspace
  | delete
  | left
  | right
  | home
  | «end»
  | tab
  | backTab
  | esc
  | up
  | down
  | pageUp
  | pageDown
  | other

inductive KeyEventKind
  | press
  | repeat
  | release
  deriving DecidableEq

/-- The modifiers are bit flags. -/
structure KeyEvent where
  code : KeyCode
  modifiers : UInt8
  kind : KeyEventKind

/-- `modifiers.contains(KeyModifiers::CONTROL)`. -/
def KeyEvent.control (key : KeyEvent) : Bool := key.modifiers &&& 0b10 == 0b10

def acceptsKey (key : KeyEvent) : Bool := key.kind == .press || key.kind == .repeat

def isCtrl (key : KeyEvent) (character : Char) : Bool :=
  match key.code with
  | .char c => c == character && key.control
  | _ => false

namespace ChatApp

/-- A new app, with the skills and the effort it is given before the loop starts. -/
def new (skills : List String) (effort : ModelReasoningEffort)
    (finalResponseOnly jsonOutput : Bool) : ChatApp :=
  { Luna.ChatApp.new finalResponseOnly jsonOutput with
    input := .empty
    history := []
    historyCursor := none
    historyDraft := ""
    suggestionsDismissed := false
    selectedSuggestion := 0
    skills := skills
    effort := effort
    scroll := 0
    maxScroll := 0
    transcriptPage := 1 }

def suggestions (app : ChatApp) : List Suggestion :=
  if app.suggestionsDismissed || app.busy then []
  else suggestionsFor app.input.text app.skills

def clearTranscript (app : ChatApp) : ChatApp :=
  { app with
    toChatApp := app.toChatApp.clearTranscript
    scroll := 0
    maxScroll := 0 }

def afterInputEdit (app : ChatApp) : ChatApp :=
  { app with suggestionsDismissed := false, selectedSuggestion := 0, historyCursor := none }

def acceptSuggestion (app : ChatApp) : ChatApp :=
  match app.suggestions[app.selectedSuggestion]? with
  | some suggestion =>
    { app with
      input := .set suggestion.replacement
      suggestionsDismissed := false
      selectedSuggestion := 0 }
  | none => app

def selectPreviousSuggestion (app : ChatApp) : ChatApp :=
  let count := app.suggestions.length
  if 0 < count then
    { app with
      selectedSuggestion :=
        if app.selectedSuggestion = 0 then count - 1 else app.selectedSuggestion - 1 }
  else app

def selectNextSuggestion (app : ChatApp) : ChatApp :=
  let count := app.suggestions.length
  if 0 < count then { app with selectedSuggestion := (app.selectedSuggestion + 1) % count }
  else app

/-- The entry above the one that is shown, and the draft. -/
def olderEntry (app : ChatApp) : Nat × String :=
  match app.historyCursor with
  | some index => (index - 1, app.historyDraft)
  | none => (app.history.length - 1, app.input.text)

def navigateHistoryUp (app : ChatApp) : Option ChatApp :=
  if app.history = [] then some app
  else do
    let (index, draft) := app.olderEntry
    let text ← app.history[index]?
    return { app with
      historyDraft := draft
      historyCursor := some index
      input := .set text
      suggestionsDismissed := true }

def navigateHistoryDown (app : ChatApp) : Option ChatApp :=
  match app.historyCursor with
  | none => some app
  | some index =>
    if index + 1 < app.history.length then do
      let text ← app.history[index + 1]?
      return { app with
        historyCursor := some (index + 1)
        input := .set text
        suggestionsDismissed := true }
    else some { app with
      historyCursor := none
      input := .set app.historyDraft
      historyDraft := ""
      suggestionsDismissed := true }

def scrollUp (app : ChatApp) (amount : Nat) : ChatApp :=
  { app with followTail := false, scroll := app.scroll - amount }

def scrollDown (app : ChatApp) (amount : Nat) : ChatApp :=
  let scroll := min (app.scroll + amount) app.maxScroll
  { app with scroll, followTail := app.followTail || scroll == app.maxScroll }

/-- What `PageUp` and `PageDown` scroll by. -/
def pageStep (app : ChatApp) : Nat := max (app.transcriptPage - 1) 1

/-- The input is taken, and goes to the history unless it is blank. -/
def submitInput (app : ChatApp) : ChatApp :=
  { app with
    input := .empty
    history :=
      if trim app.input.text.toList = [] then app.history else app.history ++ [app.input.text]
    historyDraft := "" }.afterInputEdit

/-- An edit of the input. -/
def edit (app : ChatApp) (input : Option InputBuffer) : Option (IdleAction × ChatApp) :=
  input.map fun input => (.none, { app with input }.afterInputEdit)

/-- A move of the cursor. -/
def move (app : ChatApp) (input : Option InputBuffer) : Option (IdleAction × ChatApp) :=
  input.map fun input => (.none, { app with input })

def handleIdleKey (app : ChatApp) (key : KeyEvent) : Option (IdleAction × ChatApp) :=
  if isCtrl key 'd' && app.input.text == "" then some (.quit, app)
  else if isCtrl key 'c' then
    if app.input.text = "" then some (.quit, app) else app.edit (some .empty)
  else if isCtrl key 'l' then some (.none, app.clearTranscript)
  else if isCtrl key 'u' then app.edit (some .empty)
  else match key.code with
    | .enter => some (.submit app.input.text, app.submitInput)
    | .char character =>
      if key.control then some (.none, app) else app.edit (app.input.insert character)
    | .backspace => app.edit app.input.backspace
    | .delete => app.edit app.input.delete
    | .left => app.move app.input.moveLeft
    | .right => app.move app.input.moveRight
    | .home => app.move (some app.input.moveHome)
    | .end => app.move (some app.input.moveEnd)
    | .tab => some (.none, app.acceptSuggestion)
    | .backTab => some (.none, app.selectPreviousSuggestion)
    | .esc => some (.none, { app with suggestionsDismissed := true, selectedSuggestion := 0 })
    | .up =>
      if app.suggestions.isEmpty then app.navigateHistoryUp.map (.none, ·)
      else some (.none, app.selectPreviousSuggestion)
    | .down =>
      if app.suggestions.isEmpty then app.navigateHistoryDown.map (.none, ·)
      else some (.none, app.selectNextSuggestion)
    | .pageUp => some (.none, app.scrollUp app.pageStep)
    | .pageDown => some (.none, app.scrollDown app.pageStep)
    | .other => some (.none, app)

end ChatApp

/-! ## What a key can do -/

/-- The composer is left alone; suggestions that were dismissed stay so. -/
structure Kept (app app' : ChatApp) : Prop where
  input_eq : app'.input = app.input
  history_eq : app'.history = app.history
  historyCursor_eq : app'.historyCursor = app.historyCursor
  historyDraft_eq : app'.historyDraft = app.historyDraft
  dismissed (h : app.suggestionsDismissed = true) : app'.suggestionsDismissed = true

theorem Kept.refl (app : ChatApp) : Kept app app := ⟨rfl, rfl, rfl, rfl, id⟩

/-- Everything else may change. -/
theorem Kept.rest (app : ChatApp) (chat : Luna.ChatApp) (selected : Nat) (skills : List String)
    (effort : ModelReasoningEffort) (scroll maxScroll page : Nat) :
    Kept app { app with
      toChatApp := chat
      selectedSuggestion := selected
      skills := skills
      effort := effort
      scroll := scroll
      maxScroll := maxScroll
      transcriptPage := page } :=
  ⟨rfl, rfl, rfl, rfl, id⟩

theorem Kept.trans {app app' app'' : ChatApp} (h : Kept app app') (h' : Kept app' app'') :
    Kept app app'' :=
  ⟨h'.input_eq.trans h.input_eq, h'.history_eq.trans h.history_eq,
    h'.historyCursor_eq.trans h.historyCursor_eq, h'.historyDraft_eq.trans h.historyDraft_eq,
    fun hdismissed => h'.dismissed (h.dismissed hdismissed)⟩

inductive KeyStep (app : ChatApp) : IdleAction → ChatApp → Prop
  | quit : KeyStep app .quit app
  | edited (z : Zipper Char) :
      KeyStep app .none { app with input := .ofZipper z }.afterInputEdit
  | moved (z : Zipper Char) (htext : String.ofList z.toList = app.input.text) :
      KeyStep app .none { app with input := .ofZipper z }
  | submitted : KeyStep app (.submit app.input.text) app.submitInput
  | accepted (suggestion : Suggestion) (hmem : suggestion ∈ app.suggestions) :
      KeyStep app .none { app with
        input := .set suggestion.replacement
        suggestionsDismissed := false
        selectedSuggestion := 0 }
  | browsed (index : Nat) (draft text : String) (htext : app.history[index]? = some text) :
      KeyStep app .none { app with
        historyDraft := draft
        historyCursor := some index
        input := .set text
        suggestionsDismissed := true }
  | returned : KeyStep app .none { app with
      historyCursor := none
      input := .set app.historyDraft
      historyDraft := ""
      suggestionsDismissed := true }
  | kept (app' : ChatApp) (h : Kept app app') : KeyStep app .none app'

/-- The cursor is on a character boundary, and the entry that is shown exists. -/
structure Sound (app : ChatApp) : Prop where
  input_eq : ∃ z, app.input = .ofZipper z
  historyCursor_lt : ∀ index ∈ app.historyCursor, index < app.history.length

theorem sound_new (skills : List String) (effort : ModelReasoningEffort)
    (finalResponseOnly jsonOutput : Bool) :
    Sound (.new skills effort finalResponseOnly jsonOutput) :=
  ⟨⟨_, InputBuffer.empty_eq⟩, nofun⟩

theorem Sound.kept {app app' : ChatApp} (h : Sound app) (hkept : Kept app app') : Sound app' := by
  refine ⟨?_, ?_⟩
  · rw [hkept.input_eq]
    exact h.input_eq
  · rw [hkept.historyCursor_eq, hkept.history_eq]
    exact h.historyCursor_lt

theorem Sound.step {app app' : ChatApp} {action : IdleAction} (h : Sound app)
    (hstep : KeyStep app action app') : Sound app' := by
  rcases hstep with _ | z | ⟨z, -⟩ | _ | ⟨suggestion, -⟩ | ⟨index, draft, text, htext⟩ | _ |
    ⟨_, hkept⟩
  · exact h
  · exact ⟨⟨z, rfl⟩, nofun⟩
  · exact ⟨⟨z, rfl⟩, h.historyCursor_lt⟩
  · exact ⟨⟨_, InputBuffer.empty_eq⟩, nofun⟩
  · exact ⟨⟨_, InputBuffer.set_eq _⟩, h.historyCursor_lt⟩
  · refine ⟨⟨_, InputBuffer.set_eq _⟩, fun i hi => ?_⟩
    obtain rfl := Option.some.inj hi
    exact (List.getElem?_eq_some_iff.1 htext).1
  · exact ⟨⟨_, InputBuffer.set_eq _⟩, nofun⟩
  · exact h.kept hkept

namespace ChatApp

variable {app : ChatApp}

theorem edit_step (z : Zipper Char) :
    ∃ action app', app.edit (some (.ofZipper z)) = some (action, app') ∧
      KeyStep app action app' :=
  ⟨_, _, rfl, .edited z⟩

theorem move_step {z : Zipper Char} (htext : String.ofList z.toList = app.input.text) :
    ∃ action app', app.move (some (.ofZipper z)) = some (action, app') ∧
      KeyStep app action app' :=
  ⟨_, _, rfl, .moved z htext⟩

theorem kept_step {app' : ChatApp} (h : Kept app app') :
    ∃ action app'', some (IdleAction.none, app') = some (action, app'') ∧
      KeyStep app action app'' :=
  ⟨_, _, rfl, .kept app' h⟩

theorem acceptSuggestion_step :
    ∃ action app', some (IdleAction.none, app.acceptSuggestion) = some (action, app') ∧
      KeyStep app action app' := by
  refine ⟨_, _, rfl, ?_⟩
  rw [acceptSuggestion]
  split
  · rename_i suggestion hsuggestion
    exact .accepted suggestion (List.mem_of_getElem? hsuggestion)
  · exact .kept app (.refl app)

theorem selectPreviousSuggestion_kept : Kept app app.selectPreviousSuggestion := by
  simp only [selectPreviousSuggestion]
  split
  · exact .rest ..
  · exact .refl app

theorem selectNextSuggestion_kept : Kept app app.selectNextSuggestion := by
  simp only [selectNextSuggestion]
  split
  · exact .rest ..
  · exact .refl app

theorem navigateHistoryUp_step (h : Sound app) :
    ∃ action app', app.navigateHistoryUp.map (IdleAction.none, ·) = some (action, app') ∧
      KeyStep app action app' := by
  rw [navigateHistoryUp]
  split
  · exact kept_step (.refl app)
  · rename_i hne
    have hlt : app.olderEntry.1 < app.history.length := by
      have hpos := List.length_pos_of_ne_nil hne
      have hcursor := h.historyCursor_lt
      rw [olderEntry]
      split
      · rename_i index heq
        have hindex := hcursor index heq
        exact Nat.lt_of_le_of_lt (Nat.sub_le index 1) hindex
      · exact Nat.sub_lt hpos Nat.one_pos
    have htext := List.getElem?_eq_getElem hlt
    simp only [htext]
    exact ⟨_, _, rfl, .browsed _ _ _ htext⟩

theorem navigateHistoryDown_step :
    ∃ action app', app.navigateHistoryDown.map (IdleAction.none, ·) = some (action, app') ∧
      KeyStep app action app' := by
  rw [navigateHistoryDown]
  split
  · exact kept_step (.refl app)
  · rename_i index _
    split
    · rename_i hlt
      have htext := List.getElem?_eq_getElem hlt
      rw [htext]
      exact ⟨_, _, rfl, .browsed _ app.historyDraft _ htext⟩
    · exact ⟨_, _, rfl, .returned⟩

/-- **Every key does one of these things**; none panics. -/
theorem handleIdleKey_step (h : Sound app) (key : KeyEvent) :
    ∃ action app', app.handleIdleKey key = some (action, app') ∧ KeyStep app action app' := by
  obtain ⟨z, hz⟩ := h.input_eq
  have htext : String.ofList z.toList = app.input.text := by rw [hz]; rfl
  rw [handleIdleKey]
  split
  · exact ⟨_, _, rfl, .quit⟩
  split
  · split
    · exact ⟨_, _, rfl, .quit⟩
    · exact edit_step (.atEnd [])
  split
  · exact kept_step (.rest ..)
  split
  · exact edit_step (.atEnd [])
  split
  · exact ⟨_, _, rfl, .submitted⟩
  · split
    · exact kept_step (.refl app)
    · rw [hz, InputBuffer.insert_ofZipper]
      exact edit_step _
  · rw [hz, InputBuffer.backspace_ofZipper]
    exact edit_step _
  · rw [hz, InputBuffer.delete_ofZipper]
    exact edit_step _
  · rw [hz, InputBuffer.moveLeft_ofZipper]
    exact move_step (by rw [z.toList_moveLeft, htext])
  · rw [hz, InputBuffer.moveRight_ofZipper]
    exact move_step (by rw [z.toList_moveRight, htext])
  · rw [hz, InputBuffer.moveHome_ofZipper]
    exact move_step (by rw [Zipper.toList_atStart, htext])
  · rw [hz, InputBuffer.moveEnd_ofZipper]
    exact move_step (by rw [Zipper.toList_atEnd, htext])
  · exact acceptSuggestion_step
  · exact kept_step selectPreviousSuggestion_kept
  · exact kept_step ⟨rfl, rfl, rfl, rfl, fun _ => rfl⟩
  · split
    · exact navigateHistoryUp_step h
    · exact kept_step selectPreviousSuggestion_kept
  · split
    · exact navigateHistoryDown_step
    · exact kept_step selectNextSuggestion_kept
  · exact kept_step (.rest ..)
  · exact kept_step (.rest ..)
  · exact kept_step (.refl app)

end ChatApp

end CodexSdk.Luna.Composer

import CodexSdk.Luna.Composer
import CodexSdk.Wrap

/-!
# Drawing the chat

What `ChatApp::render` of `commands/chat.rs` makes of the app, and what it changes in it: the
transcript from a row on, and the input with its cursor.  Where things are on the screen is up to
the layout, which is given by the sizes of two areas.

The transcript is wrapped at words, and `wrapped_height` counts columns.  `TailShown` is what the app
wants of the count: that it is no less than the rows there are, so that the last of them is on the
page when the tail is followed.  `tailShown_iff` says when that is so.

Two things are assumed of what the widget does.  The rows are those of greedy wrapping
(`Wrap.wrap`), where `WordWrapper` of `Wrap { trim: false }` places some runs of blanks differently.
And the width of a string is the sum of the widths of the `symbols` it is divided into.
-/

set_option autoImplicit false

namespace CodexSdk.Luna.Composer

open Text

/-- A piece of a line that is not divided, and the columns it takes up. -/
structure Symbol where
  width : Nat
  blank : Bool

/-! ## The transcript -/

def transcriptLabel : TranscriptKind → String
  | .user => "YOU"
  | .agent => "LUNA"
  | .reasoning => "THOUGHT"
  | .tool => "ACTIVITY"
  | .status => "LUNAR LOG"
  | .error => "ERROR"
  | .raw => "JSON"

def transcriptText (transcript : List TranscriptBlock) : List String :=
  transcript.flatMap fun block =>
    transcriptLabel block.kind ::
      ((if block.text = "" then [""] else (lines block.text.toList).map String.ofList) ++ [""])

section

-- A division of a string into pieces whose widths add up to its own; graphemes where no two of them
-- are drawn as one.
variable (symbols : String → List Symbol)

/-- The width of a string, which is that of its pieces together. -/
def strWidth (s : String) : Nat := Offset.total Symbol.width (symbols s)

def wrappedHeight (text : List String) (width : Nat) : Nat :=
  let wrapWidth := max width 1
  max (text.map fun line => Wrap.divCeil (max (strWidth symbols line) 1) wrapWidth).sum 1

/-- The app, and the row the transcript is drawn from; without a transcript there is a splash. -/
def ChatApp.renderTranscript (app : ChatApp) (width height : Nat) : ChatApp × Option Nat :=
  if app.transcript.isEmpty then ({ app with maxScroll := 0, scroll := 0 }, none)
  else
    let wrapped := wrappedHeight symbols (transcriptText app.transcript) (max width 1)
    let transcriptPage := max height 1
    let maxScroll := wrapped - transcriptPage
    let scroll := if app.followTail then maxScroll else min app.scroll maxScroll
    ({ app with transcriptPage, maxScroll, scroll }, some (min scroll 65535))

/-! ## The input -/

structure DrawnInput where
  text : String
  /-- What is left of the selected suggestion. -/
  ghost : String
  scroll : Nat
  cursor : Option Nat

def ChatApp.ghost (app : ChatApp) (suggestions : List Suggestion) : String :=
  match suggestions[app.selectedSuggestion]? with
  | some suggestion =>
    if app.input.cursor = app.input.text.utf8ByteSize ∧
        app.input.text.toList.isPrefixOf suggestion.replacement.toList then
      String.ofList (suggestion.replacement.toList.drop app.input.text.toList.length)
    else ""
  | none => ""

def ChatApp.renderInput (app : ChatApp) (suggestions : List Suggestion) (width : Nat) :
    Option DrawnInput := do
  let before ← Utf8.sliceTo app.input.text app.input.cursor
  let cursorWidth := strWidth symbols before
  let visibleWidth := max width 1
  let horizontalScroll := cursorWidth - (visibleWidth - 1)
  return {
    text := app.input.text
    ghost := app.ghost suggestions
    scroll := min horizontalScroll 65535
    cursor := if app.busy then none else some (cursorWidth - horizontalScroll) }

/-- The insides of the areas for the transcript and for the input. -/
structure Areas where
  width : Nat
  height : Nat
  inputWidth : Nat

structure Drawn where
  top : Option Nat
  input : DrawnInput

/-- The first suggestion is selected where there are fewer than before. -/
def ChatApp.clampSelection (app : ChatApp) : ChatApp :=
  if app.suggestions.length ≤ app.selectedSuggestion then { app with selectedSuggestion := 0 }
  else app

def ChatApp.render (app : ChatApp) (areas : Areas) : Option (ChatApp × Drawn) :=
  let suggestions := app.suggestions
  let drawn := app.clampSelection.renderTranscript symbols areas.width areas.height
  (drawn.1.renderInput symbols suggestions areas.inputWidth).map fun input =>
    (drawn.1, ⟨drawn.2, input⟩)

theorem clampSelection_kept (app : ChatApp) : Kept app app.clampSelection := by
  rw [ChatApp.clampSelection]
  split
  · exact .rest ..
  · exact .refl app

theorem renderTranscript_kept (app : ChatApp) (width height : Nat) :
    Kept app (app.renderTranscript symbols width height).1 := by
  rw [ChatApp.renderTranscript]
  split
  · exact .rest ..
  · exact .rest ..

/-- The slice up to the cursor is there. -/
theorem exists_drawnInput {app : ChatApp} (h : Sound app) (suggestions : List Suggestion)
    (width : Nat) : ∃ input, app.renderInput symbols suggestions width = some input := by
  obtain ⟨z, hz⟩ := h.input_eq
  rw [ChatApp.renderInput, hz, InputBuffer.sliceTo_ofZipper]
  exact ⟨_, rfl⟩

theorem render_step {app : ChatApp} (h : Sound app) (areas : Areas) :
    ∃ app' drawn, app.render symbols areas = some (app', drawn) ∧ Kept app app' := by
  have hkept := (clampSelection_kept app).trans
    (renderTranscript_kept symbols app.clampSelection areas.width areas.height)
  obtain ⟨input, hinput⟩ :=
    exists_drawnInput symbols (h.kept hkept) app.suggestions areas.inputWidth
  simp only [ChatApp.render]
  rw [hinput]
  exact ⟨_, _, rfl, hkept⟩

/-! ## The tail -/

/-- The rows of a text that is wrapped greedily, line by line. -/
def rowCount (text : List String) (width : Nat) : Nat :=
  (text.map fun line =>
    (Wrap.wrap Symbol.width Symbol.blank width (symbols line)).length).sum

/-- The rows that are lost where words are not broken. -/
def lostRows (text : List String) (width : Nat) : Int :=
  (text.map fun line => Wrap.lostRows Symbol.width Symbol.blank width (symbols line)).sum

/-- The count bounds the rows, and a transcript that is longer than the page is drawn with its last
row on it. -/
structure TailShown (app : ChatApp) (width height : Nat) : Prop where
  rows_le : rowCount symbols (transcriptText app.transcript) width ≤
    wrappedHeight symbols (transcriptText app.transcript) width
  last_shown (top : Nat) (htop : (app.renderTranscript symbols width height).2 = some top)
    (hlong : height < rowCount symbols (transcriptText app.transcript) width) :
    top < rowCount symbols (transcriptText app.transcript) width ∧
      rowCount symbols (transcriptText app.transcript) width ≤ top + height

/-- What is lost is made up for by what is dropped, and that is less than a page; and the last page
is not beyond the rows that a `u16` can count. -/
def TailFits (text : List String) (width height : Nat) : Prop :=
  lostRows symbols text width ≤ 0 ∧ (height < rowCount symbols text width →
    (-lostRows symbols text width < height ∨ 65535 < rowCount symbols text width) ∧
      rowCount symbols text width ≤ 65535 + height)

variable {symbols}

theorem rowCount_eq {width : Nat} (hwidth : 0 < width) (text : List String) :
    (rowCount symbols text width : Int) =
      (text.map fun line => Wrap.divCeil (max (strWidth symbols line) 1) width).sum +
        lostRows symbols text width := by
  induction text with
  | nil => rfl
  | cons line text ih =>
    have hline : ((Wrap.wrap Symbol.width Symbol.blank width (symbols line)).length : Int) = _ :=
      Wrap.length_wrap Symbol.blank hwidth (symbols line)
    rw [rowCount, lostRows] at ih
    rw [rowCount, lostRows, List.map_cons, List.map_cons, List.map_cons, List.sum_cons,
      List.sum_cons, List.sum_cons]
    rw [strWidth]
    omega

/-- A text that has lines is counted as its rows less those that are lost. -/
theorem wrappedHeight_eq {width : Nat} (hwidth : 0 < width) {text : List String}
    (htext : text ≠ []) : (wrappedHeight symbols text width : Int) =
      rowCount symbols text width - lostRows symbols text width := by
  have hrows := @rowCount_eq symbols width hwidth text
  have hpos : 1 ≤ (text.map fun line =>
      Wrap.divCeil (max (strWidth symbols line) 1) width).sum := by
    obtain ⟨line, rest, rfl⟩ := List.exists_cons_of_ne_nil htext
    have hline : 1 ≤ Wrap.divCeil (max (strWidth symbols line) 1) width := by
      rw [Wrap.divCeil, Nat.one_le_div_iff hwidth]
      omega
    rw [List.map_cons, List.sum_cons]
    omega
  rw [wrappedHeight, Nat.max_eq_left (show 1 ≤ width from hwidth), Nat.max_eq_left hpos]
  omega

theorem transcriptText_ne_nil {transcript : List TranscriptBlock} (h : transcript ≠ []) :
    transcriptText transcript ≠ [] := by
  obtain ⟨block, rest, rfl⟩ := List.exists_cons_of_ne_nil h
  rw [transcriptText, List.flatMap_cons, List.cons_append]
  exact List.cons_ne_nil _ _

/-- **The tail is shown** exactly where the rows that are lost are made up for. -/
theorem tailShown_iff {app : ChatApp} (hfollow : app.followTail = true) {width height : Nat}
    (hwidth : 0 < width) (hheight : 0 < height) :
    TailShown symbols app width height ↔
      TailFits symbols (transcriptText app.transcript) width height := by
  rcases hempty : app.transcript with _ | ⟨block, transcript⟩
  · refine iff_of_true ⟨by rw [hempty]; exact Nat.zero_le _, fun top htop => ?_⟩
      ⟨Int.le_refl 0, fun hlong => absurd hlong (Nat.not_lt_zero height)⟩
    rw [ChatApp.renderTranscript, if_pos (by rw [hempty]; rfl)] at htop
    cases htop
  · have hne : app.transcript ≠ [] := by
      rw [hempty]
      exact List.cons_ne_nil _ _
    have hcount := @wrappedHeight_eq symbols width hwidth _ (transcriptText_ne_nil hne)
    have htop : (app.renderTranscript symbols width height).2 = some (min
        (wrappedHeight symbols (transcriptText app.transcript) width - height) 65535) := by
      rw [ChatApp.renderTranscript, if_neg (by rwa [List.isEmpty_iff]), hfollow,
        Nat.max_eq_left (show 1 ≤ width from hwidth), Nat.max_eq_left (show 1 ≤ height from hheight)]
      rfl
    rw [← hempty]
    constructor
    · rintro ⟨hrows, hlast⟩
      refine ⟨by omega, fun hlong => ?_⟩
      have hshown := hlast _ htop hlong
      omega
    · rintro ⟨hlost, hlast⟩
      refine ⟨by omega, fun top htop' hlong => ?_⟩
      rw [htop] at htop'
      obtain rfl := Option.some.inj htop'
      have hfits := hlast hlong
      omega

end

/-- One column for each character. -/
def asciiSymbols (line : String) : List Symbol := line.toList.map fun c => ⟨1, c == ' '⟩

/-- A chat with one answer in it. -/
def answered (text : String) : ChatApp :=
  { ChatApp.new [] .max false false with transcript := [⟨.agent, none, text⟩] }

/-- Words that fill their rows are counted right. -/
theorem tailShown_full : TailShown asciiSymbols (answered "aaaaa bbbbbccccc") 5 2 :=
  (tailShown_iff rfl (by decide) (by decide)).2 ⟨by decide, fun _ => ⟨by decide, by decide⟩⟩

/-- **The last rows are not drawn**: of ten rows eight are counted, and the page of three rows ends
with the eighth. -/
theorem tail_hidden :
    let app := answered "aaa bbb ccc ddd\naaa bbb ccc ddd"
    rowCount asciiSymbols (transcriptText app.transcript) 5 = 10 ∧
      wrappedHeight asciiSymbols (transcriptText app.transcript) 5 = 8 ∧
      (app.renderTranscript asciiSymbols 5 3).2 = some 5 ∧
      ¬ TailShown asciiSymbols app 5 3 := by
  have hrows : rowCount asciiSymbols
    (transcriptText (answered "aaa bbb ccc ddd\naaa bbb ccc ddd").transcript) 5 = 10 := by decide
  have hheight : wrappedHeight asciiSymbols
    (transcriptText (answered "aaa bbb ccc ddd\naaa bbb ccc ddd").transcript) 5 = 8 := by decide
  refine ⟨hrows, hheight, by decide, fun hshown => ?_⟩
  have hle := hshown.rows_le
  rw [hrows, hheight] at hle
  omega

end CodexSdk.Luna.Composer

import CodexSdk.Render
import CodexSdk.Thread.Operations

/-!
# `luna exec`

The three output modes of `luna exec` over what the stream of a turn delivers: `stream_human_events`
of `output/mod.rs`, `stream_json_events` of `output/json.rs`, and `Thread::ask`, with the errors of
`error.rs` that decide the exit code.

Each mode reads the stream up to the first item that settles the turn (`settles`), and differs from
the others in what it makes of it.  `same_outcome_iff` says when that makes no difference.
-/

set_option autoImplicit false

namespace CodexSdk.Luna

open Json Rounds

/-! ## Errors -/

/-- `LunaError`.  An I/O or TOML error is its text. -/
inductive LunaError
  | usage (message : String)
  | dependency (message : String)
  | config (message : String)
  | authentication (message : String)
  | transport (message : String)
  | protocol (message : String)
  | turn (message : String)
  | io (source : String)
  | client (error : ClientError)
  | threadRun (error : ThreadRunError)
  | toml (path source : String)

def LunaError.code : LunaError → String
  | usage _ => "luna.usage"
  | dependency _ => "luna.dependency"
  | config _ | toml _ _ => "luna.configuration"
  | authentication _ => "luna.authentication"
  | transport _ => "luna.transport"
  | protocol _ => "luna.protocol"
  | turn _ => "luna.turn"
  | io _ => "luna.io"
  | client error => match error with
    | .timeout .. | .config _ | .startup .. | .transportSend _ | .transportClosed | .io _ =>
      "luna.transport"
    | .invalidMessage _ | .serialization _ | .rpc _ | .unexpectedResult .. | .notInitialized _
    | .notReady _ | .alreadyInitialized => "luna.protocol"
  | threadRun _ => "luna.turn"

def LunaError.exitCode (error : LunaError) : UInt8 :=
  match error.code with
  | "luna.usage" => 2
  | "luna.dependency" => 3
  | "luna.configuration" => 4
  | "luna.authentication" => 5
  | "luna.transport" => 6
  | "luna.protocol" => 7
  | "luna.turn" => 8
  | _ => 1

/-! ## The human output -/

inductive Color
  | green
  | magenta
  | cyan
  | red
  | yellow
  | blue

structure Style where
  color : Option Color := none
  bold : Bool := false
  dimmed : Bool := false
  italic : Bool := false

def styleOf : RenderedItemKind → Style
  | .agentMessage => { color := some .green }
  | .reasoning => { dimmed := true, italic := true }
  | .plan => { color := some .magenta }
  | .toolCall | .commandExecution | .fileChange => { color := some .cyan, bold := true }
  | .error => { color := some .red, bold := true }
  | .status | .unknown => { color := some .yellow }
  | .userMessage => { color := some .blue }

structure Styling where
  enabled : Bool

/-- What has been written, and what the next fragment depends on.  Writing does not fail here. -/
structure HumanOutput where
  writer : String
  currentItem : Option (RenderedItemKind × Option String)
  printedAny : Bool
  endedWithNewline : Bool

namespace HumanOutput

def new : HumanOutput := ⟨"", none, false, false⟩

def separateBlocks (o : HumanOutput) : HumanOutput :=
  if o.printedAny then
    { o with
      writer := o.writer ++ (if o.endedWithNewline then "" else "\n") ++ "\n"
      endedWithNewline := true }
  else o

def finish (o : HumanOutput) : HumanOutput :=
  if o.printedAny && !o.endedWithNewline then
    { o with writer := o.writer ++ "\n", endedWithNewline := true }
  else o

/-- What introduces a streamed item that is taken up again. -/
def label : RenderedItemKind → String
  | .reasoning => "Reasoning: "
  | .plan => "Plan: "
  | _ => ""

end HumanOutput

section

-- The escape codes of a terminal, the compact text of a JSON value, and the line of an event.
variable (paint : Style → String → String) (compactJson : Value → String)
variable (jsonLine : ThreadEvent → String) (styling : Styling)

def Styling.render (kind : RenderedItemKind) (text : String) : String :=
  if styling.enabled then paint (styleOf kind) text else text

def HumanOutput.writeFragment (o : HumanOutput) (fragment : RenderedItem) : HumanOutput :=
  if fragment.kind = .userMessage then o
  else
    let identity := (fragment.kind, fragment.itemId)
    let sameStreamedItem := fragment.continuation && o.currentItem == some identity
    let o := if sameStreamedItem then o else o.separateBlocks
    let markdown := if fragment.continuation && !sameStreamedItem then
        label fragment.kind ++ fragment.markdown
      else fragment.markdown
    { writer := o.writer ++ styling.render paint fragment.kind markdown
      currentItem := some identity
      printedAny := true
      endedWithNewline := markdown.toList.getLast? == some '\n' }

/-- The loop of `stream_human_events`. -/
def humanLoop (renderer : ThreadEventRenderer) (output : HumanOutput) :
    List StreamItem → Except LunaError Unit × HumanOutput
  | [] => (.error (.turn "stream closed before receiving turn completion"), output)
  | .error err :: _ => (.error (.client err), output)
  | .ok event :: rest =>
    let (fragment, renderer) := renderer.render compactJson event
    let output := match fragment with
      | some fragment => output.writeFragment paint styling fragment
      | none => output
    match event with
    | .turnCompleted _ => (.ok (), output.finish)
    | .turnFailed error => (.error (.turn s!"turn failed: {error.message}"), output.finish)
    | .error message => (.error (.turn s!"stream error: {message}"), output.finish)
    | .threadStarted _ | .turnStarted | .itemStarted _ | .itemUpdated _ | .itemCompleted _ =>
      humanLoop renderer output rest

def streamHumanEvents (items : List StreamItem) : Except LunaError Unit × HumanOutput :=
  humanLoop paint compactJson styling .new .new items

/-! ## The other two modes -/

/-- The loop of `stream_json_events`, with the lines written so far. -/
def jsonLoop (stdout : List String) : List StreamItem → Except LunaError Unit × List String
  | [] => (.ok (), stdout)
  | .error err :: _ => (.error (.client err), stdout)
  | .ok event :: rest =>
    let stdout := stdout ++ [jsonLine event]
    match event with
    | .turnCompleted _ => (.ok (), stdout)
    | .turnFailed error => (.error (.turn s!"turn failed: {error.message}"), stdout)
    | .error message => (.error (.turn s!"stream error: {message}"), stdout)
    | _ => jsonLoop stdout rest

def streamJsonEvents (items : List StreamItem) : Except LunaError Unit × List String :=
  jsonLoop jsonLine [] items

def printFinalResponse (response : String) : String :=
  if response = "" then ""
  else if response.toList.getLast? = some '\n' then response
  else response ++ "\n"

/-- What is left of a run when only its final response is shown. -/
def finalResponseOf : Except ThreadRunError FinishedTurn → Except LunaError Unit × String
  | .ok turn => (.ok (), printFinalResponse turn.finalResponse)
  | .error error => (.error (.threadRun error), "")

inductive Mode
  | human
  | json
  | finalResponse

/-- The outcome of `luna exec` when the stream delivers `items` and is then closed. -/
def outcome (mode : Mode) (items : List StreamItem) : Except LunaError Unit :=
  match mode with
  | .human => (streamHumanEvents paint compactJson styling items).1
  | .json => (streamJsonEvents jsonLine items).1
  | .finalResponse => (finalResponseOf (runOn items)).1

end

/-! ## What settles a turn -/

/-- An error, or an event after which nothing more is read. -/
def settles : StreamItem → Bool
  | .error _ => true
  | .ok event => match event with
    | .turnCompleted _ | .turnFailed _ | .error _ => true
    | .threadStarted _ | .turnStarted | .itemStarted _ | .itemUpdated _ | .itemCompleted _ => false

/-- The exit code of an outcome; `none` is a success. -/
def exitCodeOf : Except LunaError Unit → Option UInt8
  | .ok () => none
  | .error error => some error.exitCode

/-- The exit code a run of a turn leads to. -/
def exitOfRun : Except ThreadRunError FinishedTurn → Option UInt8
  | .ok _ => none
  | .error error => some (LunaError.threadRun error).exitCode

/-- What the modes make of a client error in the stream. -/
def Mode.wrap : Mode → ClientError → LunaError
  | .human, err | .json, err => .client err
  | .finalResponse, err => .threadRun (.client err)

/-- The exit code of a mode, by the item that settles the turn. -/
def Mode.settled (mode : Mode) : StreamItem → Option UInt8
  | .error err => some (mode.wrap err).exitCode
  | .ok (.turnCompleted _) => none
  | .ok _ => some 8

/-- The exit code of a mode when nothing does. -/
def Mode.closed : Mode → Option UInt8
  | .human | .finalResponse => some 8
  | .json => none

/-- A reader that settles like the mode has the exit codes of the mode. -/
theorem reader_exit {σ : Type} {f : σ → List StreamItem → Option UInt8} (mode : Mode)
    (hclosed : ∀ s, f s [] = mode.closed)
    (herr : ∀ s err rest, f s (.error err :: rest) = some (mode.wrap err).exitCode)
    (hcompleted : ∀ s usage rest, f s (.ok (.turnCompleted usage) :: rest) = none)
    (hfailed : ∀ s error rest, f s (.ok (.turnFailed error) :: rest) = some 8)
    (herror : ∀ s message rest, f s (.ok (.error message) :: rest) = some 8)
    (hskipped : ∀ s event rest, settles (.ok event) = false →
      ∃ s', f s (.ok event :: rest) = f s' rest) (s : σ) (items : List StreamItem) :
    f s items = ((items.find? settles).map mode.settled).getD mode.closed := by
  refine reader_eq hclosed (fun s item rest h => ?_) (fun s item rest h => ?_) s items
  · cases item with
    | error err => exact herr s err rest
    | ok event => cases event with
      | turnCompleted usage => exact hcompleted s usage rest
      | turnFailed error => exact hfailed s error rest
      | error message => exact herror s message rest
      | _ => cases h
  · cases item with
    | error err => cases h
    | ok event => exact hskipped s event rest h

theorem exitOfRun_runOn (items : List StreamItem) :
    exitOfRun (runOn items) = ((items.find? settles).map Mode.finalResponse.settled).getD
      Mode.finalResponse.closed := by
  refine reader_exit (f := fun (s : List ThreadItem × FinalResponse) items =>
    exitOfRun (collectTurn s.1 s.2 items)) .finalResponse (fun _ => rfl) (fun _ _ _ => rfl)
    (fun _ _ _ => rfl) (fun _ _ _ => rfl) (fun _ _ _ => rfl) (fun s event rest h => ?_)
    ([], ⟨none, none⟩) items
  cases event with
  | turnCompleted | turnFailed | error => cases h
  | _ => exact ⟨(_, _), rfl⟩

section

variable (paint : Style → String → String) (compactJson : Value → String)
variable (jsonLine : ThreadEvent → String) (styling : Styling)

theorem outcome_exit (mode : Mode) (items : List StreamItem) :
    exitCodeOf (outcome paint compactJson jsonLine styling mode items) =
      ((items.find? settles).map mode.settled).getD mode.closed := by
  cases mode with
  | human =>
    refine reader_exit (f := fun (s : ThreadEventRenderer × HumanOutput) items =>
      exitCodeOf (humanLoop paint compactJson styling s.1 s.2 items).1) .human (fun _ => rfl)
      (fun _ _ _ => rfl) (fun _ _ _ => rfl) (fun _ _ _ => rfl) (fun _ _ _ => rfl)
      (fun s event rest h => ?_) (.new, .new) items
    cases event with
    | turnCompleted | turnFailed | error => cases h
    | _ => exact ⟨(_, _), rfl⟩
  | json =>
    refine reader_exit (f := fun stdout items => exitCodeOf (jsonLoop jsonLine stdout items).1)
      .json (fun _ => rfl) (fun _ _ _ => rfl) (fun _ _ _ => rfl) (fun _ _ _ => rfl)
      (fun _ _ _ => rfl) (fun s event rest h => ?_) [] items
    cases event with
    | turnCompleted | turnFailed | error => cases h
    | _ => exact ⟨_, rfl⟩
  | finalResponse =>
    have hexit : ∀ run, exitCodeOf (finalResponseOf run).1 = exitOfRun run := by
      intro run
      cases run <;> rfl
    exact (hexit _).trans (exitOfRun_runOn items)

/-! ## The same outcome -/

/-- The turn completes before anything else settles it. -/
def Completes (items : List StreamItem) : Prop :=
  ∃ before usage after, items = before ++ .ok (.turnCompleted usage) :: after ∧
    ∀ item ∈ before, settles item = false

/-- All modes report the same outcome, and the exit code that is documented for it. -/
structure SameOutcome (items : List StreamItem) : Prop where
  succeeds : ∀ mode,
    outcome paint compactJson jsonLine styling mode items = .ok () ↔ Completes items
  fails : ∀ mode mode' error error',
    outcome paint compactJson jsonLine styling mode items = .error error →
      outcome paint compactJson jsonLine styling mode' items = .error error' →
        error.exitCode = error'.exitCode
  transportFailure : ∀ mode error err, items.find? settles = some (.error err) →
    (LunaError.client err).code = "luna.transport" →
      outcome paint compactJson jsonLine styling mode items = .error error → error.exitCode = 6
  turnFailure : ∀ mode error failure, items.find? settles = some (.ok (.turnFailed failure)) →
    outcome paint compactJson jsonLine styling mode items = .error error → error.exitCode = 8

theorem exitCodeOf_eq_none {r : Except LunaError Unit} : exitCodeOf r = none ↔ r = .ok () := by
  cases r with
  | ok => exact iff_of_true rfl rfl
  | error error => simp [exitCodeOf]

theorem completes_iff {items : List StreamItem} :
    Completes items ↔ ∃ usage, items.find? settles = some (.ok (.turnCompleted usage)) := by
  constructor
  · rintro ⟨before, usage, after, rfl, hbefore⟩
    refine ⟨usage, List.find?_eq_some_iff_append.2 ⟨rfl, before, after, rfl, fun item hitem => ?_⟩⟩
    rw [hbefore item hitem]
    rfl
  · rintro ⟨usage, hfind⟩
    obtain ⟨-, before, after, rfl, hbefore⟩ := List.find?_eq_some_iff_append.1 hfind
    refine ⟨before, usage, after, rfl, fun item hitem => ?_⟩
    simpa using hbefore item hitem

theorem Mode.settled_ok (mode mode' : Mode) (event : ThreadEvent) :
    mode.settled (.ok event) = mode'.settled (.ok event) := by cases event <;> rfl

theorem Mode.settled_eq_none {mode : Mode} {event : ThreadEvent} :
    mode.settled (.ok event) = none ↔ ∃ usage, event = .turnCompleted usage := by
  cases event with
  | turnCompleted usage => exact iff_of_true rfl ⟨usage, rfl⟩
  | _ => simp [Mode.settled]

/-- A client error has an exit code of its own. -/
theorem client_exitCode_ne (err : ClientError) : (LunaError.client err).exitCode ≠ 8 := by
  cases err with
  | timeout | config | startup | transportSend | transportClosed | io =>
    show (6 : UInt8) ≠ 8
    decide
  | _ =>
    show (7 : UInt8) ≠ 8
    decide

/-- A mode that fails, fails with its exit code. -/
theorem error_of_exit {mode : Mode} {items : List StreamItem} {code : UInt8}
    (h : ((items.find? settles).map mode.settled).getD mode.closed = some code) :
    ∃ error, outcome paint compactJson jsonLine styling mode items = .error error ∧
      error.exitCode = code := by
  rw [← outcome_exit paint compactJson jsonLine styling mode items] at h
  cases hout : outcome paint compactJson jsonLine styling mode items with
  | ok =>
    rw [hout] at h
    cases h
  | error error =>
    rw [hout] at h
    exact ⟨error, rfl, Option.some.inj h⟩

variable {paint compactJson jsonLine styling}

theorem exit_of_error {mode : Mode} {items : List StreamItem} {error : LunaError}
    (h : outcome paint compactJson jsonLine styling mode items = .error error) :
    ((items.find? settles).map mode.settled).getD mode.closed = some error.exitCode := by
  rw [← outcome_exit paint compactJson jsonLine styling mode items, h]
  rfl

/-- Where the modes report the same outcome, an event settles the turn. -/
theorem SameOutcome.find?_eq {items : List StreamItem}
    (h : SameOutcome paint compactJson jsonLine styling items) :
    ∃ event, items.find? settles = some (.ok event) := by
  cases hfind : items.find? settles with
  | none =>
    -- the JSON mode takes the end of the stream for the end of the turn
    have hok : outcome paint compactJson jsonLine styling .json items = .ok () := by
      rw [← exitCodeOf_eq_none, outcome_exit, hfind]
      rfl
    obtain ⟨usage, hcompleted⟩ := completes_iff.1 ((h.succeeds .json).1 hok)
    rw [hfind] at hcompleted
    cases hcompleted
  | some item => cases item with
    | ok event => exact ⟨event, rfl⟩
    | error err =>
      -- the final-response mode reports every client error as a failed turn
      have hhuman : ((items.find? settles).map Mode.human.settled).getD Mode.human.closed =
          some (LunaError.client err).exitCode := by rw [hfind]; rfl
      have hfinal : ((items.find? settles).map Mode.finalResponse.settled).getD
          Mode.finalResponse.closed = some 8 := by rw [hfind]; rfl
      obtain ⟨error, herror, hcode⟩ := error_of_exit paint compactJson jsonLine styling hhuman
      obtain ⟨error', herror', hcode'⟩ := error_of_exit paint compactJson jsonLine styling hfinal
      have hsame := h.fails _ _ _ _ herror herror'
      rw [hcode, hcode'] at hsame
      exact absurd hsame (client_exitCode_ne err)

/-- Where an event settles the turn, the modes report the same outcome. -/
theorem SameOutcome.of_find? {items : List StreamItem} {event : ThreadEvent}
    (hfind : items.find? settles = some (.ok event)) :
    SameOutcome paint compactJson jsonLine styling items := by
  have hexit : ∀ mode : Mode, ((items.find? settles).map mode.settled).getD mode.closed =
      mode.settled (.ok event) := by
    intro mode
    rw [hfind]
    rfl
  refine ⟨fun mode => ?_, ?_, ?_, ?_⟩
  · rw [← exitCodeOf_eq_none, outcome_exit, hexit, Mode.settled_eq_none, completes_iff, hfind]
    simp
  · intro mode mode' error error' herror herror'
    have hcode := exit_of_error herror
    have hcode' := exit_of_error herror'
    rw [hexit, Mode.settled_ok mode mode'] at hcode
    rw [hexit, hcode] at hcode'
    exact Option.some.inj hcode'
  · intro mode error err herr
    rw [hfind] at herr
    cases herr
  · intro mode error failure hfailure herror
    rw [hfind] at hfailure
    obtain rfl : event = .turnFailed failure := by simpa using hfailure
    have hcode := exit_of_error herror
    rw [hexit] at hcode
    exact (Option.some.inj hcode).symm

variable (paint compactJson jsonLine styling)

/-- **When the modes report the same outcome**: exactly when an event settles the turn, before any
error and before the stream is closed. -/
theorem same_outcome_iff (items : List StreamItem) :
    SameOutcome paint compactJson jsonLine styling items ↔
      ∃ before event after, items = before ++ .ok event :: after ∧ settles (.ok event) = true ∧
        ∀ item ∈ before, settles item = false := by
  constructor
  · intro h
    obtain ⟨event, hfind⟩ := h.find?_eq
    obtain ⟨hsettles, before, after, rfl, hbefore⟩ := List.find?_eq_some_iff_append.1 hfind
    exact ⟨before, event, after, rfl, hsettles, fun item hitem => by simpa using hbefore item hitem⟩
  · rintro ⟨before, event, after, rfl, hsettles, hbefore⟩
    refine .of_find? (List.find?_eq_some_iff_append.2 ⟨hsettles, before, after, rfl, ?_⟩)
    intro item hitem
    rw [hbefore item hitem]
    rfl

/-- The connection is lost during the turn. -/
def lostConnection : List StreamItem := [.ok .turnStarted, .error .transportClosed]

end

/-- The human mode exits with 6 then, the final-response mode with 8. -/
theorem outcomes_differ :
    ¬ ∀ (paint : Style → String → String) (compactJson : Value → String)
      (jsonLine : ThreadEvent → String) (styling : Styling) (items : List StreamItem),
      SameOutcome paint compactJson jsonLine styling items := by
  intro h
  obtain ⟨event, hfind⟩ := (h (fun _ text => text) (fun _ => "") (fun _ => "") ⟨false⟩
    lostConnection).find?_eq
  cases hfind

end CodexSdk.Luna

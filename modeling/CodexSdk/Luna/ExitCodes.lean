import CodexSdk.Luna.Command

/-!
# Exit codes of `luna exec`

Every error has a category and an exit code of its own (`LunaError.exitCode`).  What a code says
about a run is up to where the error comes from: before the first request there are those of the
flags, of the files and of the connection (`FailsEarly`), then those about the account, and then
those of the turn.

`exec_exit_codes` puts this together: a code below 5 is given before the server has been asked
anything, 5 when it knows of no account and there are no credentials to log in with, and 8, where
the turn is streamed, when one has been started.
-/

set_option autoImplicit false

namespace CodexSdk.Luna

open Json Interleave

/-! ## Errors before the first request -/

/-- The error is not about an account, and not about a turn. -/
def LunaError.IsEarly : LunaError → Prop
  | .usage _ | .dependency _ | .config _ | .transport _ | .io _ | .client _ | .toml _ _ => True
  | .authentication _ | .protocol _ | .turn _ | .threadRun _ => False

structure FailsEarly {α : Type} (x : Except LunaError α) : Prop where
  isEarly : ∀ error, x = .error error → error.IsEarly

section

variable {α β ε : Type} {x : Except LunaError α}

theorem failsEarly_ok (a : α) : FailsEarly (.ok a) := by
  refine ⟨fun error h => ?_⟩
  cases h

theorem failsEarly_error {error : LunaError} (h : error.IsEarly) :
    FailsEarly (.error error : Except LunaError α) := by
  refine ⟨fun error' heq => ?_⟩
  obtain rfl := Except.error.inj heq
  exact h

theorem failsEarly_mapError {r : Except ε α} {f : ε → LunaError} (h : ∀ e, (f e).IsEarly) :
    FailsEarly (r.mapError f) := by
  cases r with
  | ok a => exact failsEarly_ok a
  | error e => exact failsEarly_error (h e)

theorem FailsEarly.bind {f : α → Except LunaError β} (hx : FailsEarly x)
    (hf : ∀ a, FailsEarly (f a)) : FailsEarly (x >>= f) := by
  cases x with
  | ok a => exact hf a
  | error e => exact failsEarly_error (hx.isEarly e rfl)

theorem failsEarly_foldlM {f : β → α → Except LunaError β} (h : ∀ b a, FailsEarly (f b a))
    (entries : List α) (b : β) : FailsEarly (entries.foldlM f b) := by
  induction entries generalizing b with
  | nil => exact failsEarly_ok b
  | cons a entries ih => exact (h b a).bind ih

end

/-! ## The configuration -/

section

variable (parse : String → Except String Value)

theorem insertThreadConfig_failsEarly (config : Map) (key : String) (value : Value)
    (source : String) : FailsEarly (insertThreadConfig config key value source) := by
  rw [insertThreadConfig]
  split
  · split
    · exact failsEarly_ok _
    · exact failsEarly_error trivial
  · exact failsEarly_ok _

theorem insertFlag_failsEarly (config : Map) (key : String) (value : Option Value)
    (source : String) : FailsEarly (insertFlag config key value source) := by
  cases value with
  | none => exact failsEarly_ok config
  | some value => exact insertThreadConfig_failsEarly config key value source

theorem parseJsonValue_failsEarly (raw flag : String) :
    FailsEarly (parseJsonValue parse raw flag) := by
  rw [parseJsonValue]
  split
  · exact failsEarly_ok _
  · exact failsEarly_error trivial

theorem parseOptionalJsonObject_failsEarly (raw : Option String) (flag : String) :
    FailsEarly (parseOptionalJsonObject parse raw flag) := by
  cases raw with
  | none => exact failsEarly_ok none
  | some raw =>
    refine (parseJsonValue_failsEarly parse raw flag).bind fun value => ?_
    cases value with
    | object m => exact failsEarly_ok (some m)
    | _ => exact failsEarly_error trivial

theorem parseConfigEntry_failsEarly (entry : String) :
    FailsEarly (parseConfigEntry parse entry) := by
  rw [parseConfigEntry]
  split
  · exact failsEarly_error trivial
  · dsimp only
    split
    · exact failsEarly_error trivial
    · split
      · exact failsEarly_error trivial
      · exact failsEarly_ok _

theorem insertConfigEntry_failsEarly (config : Map) (entry : String) :
    FailsEarly (insertConfigEntry parse config entry) :=
  (parseConfigEntry_failsEarly parse entry).bind fun _ => insertThreadConfig_failsEarly ..

theorem buildThreadConfig_failsEarly (sources : ConfigSources) :
    FailsEarly (buildThreadConfig parse sources) := by
  refine (parseOptionalJsonObject_failsEarly parse _ _).bind fun config => ?_
  refine (failsEarly_foldlM (insertConfigEntry_failsEarly parse) _ _).bind fun config => ?_
  refine FailsEarly.bind ?_ fun config => failsEarly_ok _
  refine (insertFlag_failsEarly ..).bind fun config => ?_
  refine (insertFlag_failsEarly ..).bind fun config => ?_
  refine (insertFlag_failsEarly ..).bind fun config => ?_
  exact (insertFlag_failsEarly ..).bind fun config => insertFlag_failsEarly ..

end

/-! ## The agent -/

section

variable (files : AgentFiles) (agentName : String)

theorem resolveAgentInstructions_failsEarly (role : AgentRoleConfig) (roleConfig : AgentConfigLayer)
    (path : Unix.PathBuf) :
    FailsEarly (resolveAgentInstructions files agentName role roleConfig path) := by
  rw [resolveAgentInstructions]
  split
  · exact failsEarly_ok _
  · dsimp only
    split
    · exact failsEarly_error trivial
    · split
      · exact failsEarly_ok _
      · exact failsEarly_error trivial
  · split
    · exact failsEarly_ok _
    · exact failsEarly_error trivial

theorem instructionsOf_failsEarly (role : AgentRoleConfig) (path : Unix.PathBuf) :
    FailsEarly (instructionsOf files agentName role path) := by
  rw [instructionsOf]
  split
  · refine FailsEarly.bind (failsEarly_mapError fun _ => trivial) fun raw => ?_
    refine FailsEarly.bind (failsEarly_mapError fun _ => trivial) fun layer => ?_
    exact resolveAgentInstructions_failsEarly ..
  · exact failsEarly_ok _
  · exact failsEarly_error trivial

theorem loadAgentProfile_failsEarly (varOs : String → Option String) :
    FailsEarly (loadAgentProfile files agentName varOs) := by
  rw [loadAgentProfile]
  split
  · refine FailsEarly.bind (failsEarly_mapError fun _ => trivial) fun raw => ?_
    refine FailsEarly.bind (failsEarly_mapError fun _ => trivial) fun agents => ?_
    split
    · exact failsEarly_error trivial
    · refine FailsEarly.bind (failsEarly_mapError fun _ => trivial) fun role => ?_
      exact (instructionsOf_failsEarly ..).bind fun _ => failsEarly_ok _
  · exact failsEarly_error trivial

end

/-! ## The flags and the connection -/

section

variable (process : Process)

theorem resolvePrompt_failsEarly (promptParts : List String) :
    FailsEarly (resolvePrompt process promptParts) := by
  rw [resolvePrompt]
  split
  · exact failsEarly_ok _
  · split
    · exact failsEarly_error trivial
    · split
      · exact failsEarly_error trivial
      · split
        · exact failsEarly_ok _
        · exact failsEarly_error trivial

theorem normalizeWebsocketUrl_failsEarly (raw source : String) :
    FailsEarly (normalizeWebsocketUrl raw source) := by
  rw [normalizeWebsocketUrl]
  split
  · exact failsEarly_ok _
  · exact failsEarly_error trivial

theorem websocketUrlFor_failsEarly (cli : CliArgs) :
    FailsEarly (websocketUrlFor process cli) := by
  rw [websocketUrlFor]
  split
  · exact failsEarly_ok _
  · rw [resolveWebsocketUrl.eq_def]
    split
    · exact (normalizeWebsocketUrl_failsEarly ..).bind fun _ => failsEarly_ok _
    · exact (normalizeWebsocketUrl_failsEarly ..).bind fun _ => failsEarly_ok _
    · exact (normalizeWebsocketUrl_failsEarly ..).bind fun _ => failsEarly_ok _
    · exact failsEarly_ok _

theorem parseOptionalJsonValue_failsEarly (raw : Option String) (flag : String) :
    FailsEarly (parseOptionalJsonValue process raw flag) := by
  cases raw with
  | none => exact failsEarly_ok none
  | some raw => exact (parseJsonValue_failsEarly ..).bind fun _ => failsEarly_ok _

theorem resolveOutputSchema_failsEarly (outputSchemaJson outputSchemaFile : Option String) :
    FailsEarly (resolveOutputSchema process outputSchemaJson outputSchemaFile) := by
  rw [resolveOutputSchema.eq_def]
  split
  · exact (parseJsonValue_failsEarly ..).bind fun _ => failsEarly_ok _
  · exact failsEarly_ok _
  · split
    · exact failsEarly_error trivial
    · refine FailsEarly.bind (failsEarly_mapError fun _ => trivial) fun raw => ?_
      exact FailsEarly.bind (failsEarly_mapError fun _ => trivial) fun schema => failsEarly_ok _

theorem decodeDynamicTools_failsEarly (index : Nat) (entries : List Value) :
    FailsEarly (decodeDynamicTools process index entries) := by
  induction entries generalizing index with
  | nil => exact failsEarly_ok []
  | cons entry entries ih =>
    refine FailsEarly.bind (failsEarly_mapError fun _ => trivial) fun spec => ?_
    exact (ih (index + 1)).bind fun _ => failsEarly_ok _

theorem parseOptionalDynamicTools_failsEarly (raw : Option String) :
    FailsEarly (parseOptionalDynamicTools process raw) := by
  cases raw with
  | none => exact failsEarly_ok none
  | some raw =>
    refine (parseJsonValue_failsEarly ..).bind fun value => ?_
    cases value with
    | array entries =>
      exact (decodeDynamicTools_failsEarly process 0 entries).bind fun _ => failsEarly_ok _
    | _ => exact failsEarly_error trivial

theorem agentInstructions_failsEarly (agent : Option String) :
    FailsEarly (agentInstructions process agent) := by
  cases agent with
  | none => exact failsEarly_ok none
  | some agent => exact (loadAgentProfile_failsEarly ..).bind fun _ => failsEarly_ok _

theorem readSettings_failsEarly (cli : CliArgs) : FailsEarly (readSettings process cli) := by
  rw [readSettings]
  split <;> refine FailsEarly.bind ?_ fun directory => ?_
  case h_1.refine_1 path _ => exact failsEarly_ok path
  case h_2.refine_1 => exact failsEarly_mapError fun _ => trivial
  all_goals
    refine (buildThreadConfig_failsEarly ..).bind fun config => ?_
    refine (parseOptionalJsonValue_failsEarly ..).bind fun policy => ?_
    refine (resolveOutputSchema_failsEarly ..).bind fun schema => ?_
    refine (parseOptionalJsonObject_failsEarly ..).bind fun extra => ?_
    refine (parseOptionalDynamicTools_failsEarly ..).bind fun tools => ?_
    exact (agentInstructions_failsEarly ..).bind fun agent => failsEarly_ok _

theorem connect_failsEarly (cli : CliArgs) (resolved : ResolvedWebsocketUrl) :
    FailsEarly (connect process cli resolved) := by
  rw [connect]
  split
  · exact failsEarly_error trivial
  split
  · rw [connectWsCodex]
    split
    · refine FailsEarly.bind ?_ fun _ => ?_
      · rw [ensureWsAuthAllowed]
        split
        · exact failsEarly_ok ()
        · exact failsEarly_error trivial
      · exact failsEarly_mapError fun _ => trivial
    · exact failsEarly_mapError fun _ => trivial
  · refine FailsEarly.bind (failsEarly_mapError fun _ => trivial) fun binary => ?_
    exact failsEarly_mapError fun _ => trivial

/-- **Nothing that is settled before the first request fails for want of an account**, or with an
error of a turn. -/
theorem readied_failsEarly (cli : CliArgs) : FailsEarly (readied process cli) := by
  refine (resolvePrompt_failsEarly ..).bind fun prompt => ?_
  refine FailsEarly.bind ?_ fun settings => failsEarly_ok (prompt, settings)
  refine (websocketUrlFor_failsEarly ..).bind fun resolved => ?_
  refine (readSettings_failsEarly ..).bind fun settings => ?_
  exact (connect_failsEarly ..).bind fun _ => failsEarly_ok settings

end

/-! ## Codes -/

theorem client_exitCode (err : ClientError) :
    (LunaError.client err).exitCode = 6 ∨ (LunaError.client err).exitCode = 7 := by
  cases err with
  | timeout | config | startup | transportSend | transportClosed | io => exact .inl rfl
  | _ => exact .inr rfl

theorem LunaError.IsEarly.exitCode_ne {error : LunaError} (h : error.IsEarly) :
    error.exitCode ≠ 5 ∧ error.exitCode ≠ 8 := by
  cases error with
  | client err => rcases client_exitCode err with hcode | hcode <;> simp [hcode]
  | usage | dependency | config | transport | io | toml => simp [LunaError.exitCode, LunaError.code]
  | _ => exact h.elim

/-- What a mode makes of a client error has the code of the transport or of the protocol; only when
the final response is asked for it is that of a turn. -/
theorem Mode.wrap_exitCode (mode : Mode) (err : ClientError) :
    (mode.wrap err).exitCode = 6 ∨ (mode.wrap err).exitCode = 7 ∨
      mode = .finalResponse ∧ (mode.wrap err).exitCode = 8 := by
  cases mode with
  | finalResponse => exact .inr (.inr ⟨rfl, rfl⟩)
  | human | json => exact (client_exitCode err).imp id .inl

section

variable (paint : Style → String → String) (compactJson : Value → String)
variable (jsonLine : ThreadEvent → String) (styling : Styling)

/-- A turn that does not succeed ends with one of the last three codes. -/
theorem outcome_exitCode {mode : Mode} {items : List StreamItem} {error : LunaError}
    (h : outcome paint compactJson jsonLine styling mode items = .error error) :
    error.exitCode = 6 ∨ error.exitCode = 7 ∨ error.exitCode = 8 := by
  have hcode := exit_of_error h
  cases hfind : items.find? settles with
  | none =>
    rw [hfind] at hcode
    cases mode with
    | json => cases hcode
    | human | finalResponse => exact .inr (.inr (Option.some.inj hcode).symm)
  | some item =>
    rw [hfind] at hcode
    cases item with
    | error err =>
      rw [← Option.some.inj hcode]
      exact (mode.wrap_exitCode err).imp id fun h => h.imp id And.right
    | ok event =>
      cases event with
      | turnCompleted => cases hcode
      | _ => exact .inr (.inr (Option.some.inj hcode).symm)

end

/-! ## The account and the turn -/

section

variable {around : Surroundings} {exchanges first rest : List RpcExchange}
  {s r : Except LunaError Unit} {error : LunaError}

theorem SignIn.ne_nil (h : SignIn around exchanges s) : exchanges ≠ [] := by
  cases h <;> simp [accountAsked]

/-- Without an account, it is for the credentials or because the connection fails. -/
theorem SignIn.error_cases (h : SignIn around exchanges (.error error)) :
    (∃ err, error = .client err) ∨ ∃ account message, ¬ Authenticated account ∧
      credentials around = none ∧ exchanges = accountAsked account ∧
        error = .authentication message := by
  cases h with
  | notReady err | unread err | interrupted err | refused err => exact .inl ⟨err, rfl⟩
  | noCredentials message hauth hcredentials =>
    exact .inr ⟨_, message, hauth, hcredentials, rfl, rfl⟩

/-- Where nothing follows the answer that there is no account, that is the error. -/
theorem SignIn.noCredentials_of_asked (h : SignIn around first s) {account : Value}
    (heq : first ++ rest = accountAsked account) (hauth : ¬ Authenticated account) :
    ∃ message, s = .error (.authentication message) := by
  cases h with
  | notReady | unread | interrupted | refused | loggedIn => simp [accountAsked] at heq
  | @authenticated account' hauth' =>
    obtain ⟨-, hanswers⟩ := List.cons.inj heq
    obtain ⟨hanswer, -⟩ := List.cons.inj hanswers
    cases hanswer
    exact absurd hauth' hauth
  | noCredentials message => exact ⟨message, rfl⟩

/-- The server has started the turn of the stream, and nothing is asked of it after that. -/
def TurnAccepted (exchanges : List RpcExchange) (stream : StreamedTurn) : Prop :=
  ∃ before params answer, exchanges = before ++ [⟨.turnStart params, .ok answer⟩] ∧
    stream.turnId = answer.turn.id

theorem TurnAccepted.mem {stream : StreamedTurn} (h : TurnAccepted exchanges stream) :
    ∃ params answer, ⟨.turnStart params, .ok answer⟩ ∈ exchanges := by
  obtain ⟨before, params, answer, rfl, -⟩ := h
  exact ⟨params, answer, by simp⟩

theorem SignIn.not_accepted (h : SignIn around exchanges s) (stream : StreamedTurn) :
    ¬ TurnAccepted exchanges stream := by
  intro haccepted
  obtain ⟨params, answer, hmem⟩ := haccepted.mem
  exact h.not_needsAccount _ hmem trivial

/-- A turn is accepted and read to its end, or an error keeps it from being accepted. -/
theorem TurnRun.accepted {mode : Mode} {ends : StreamedTurn → Except LunaError Unit}
    (h : TurnRun mode ends rest r) (hfirst : ∀ e ∈ first, ¬ NeedsAccount e.1) :
    (∃ stream, TurnAccepted (first ++ rest) stream ∧ r = ends stream) ∨
      (∀ stream, ¬ TurnAccepted (first ++ rest) stream) ∧ ∃ err, r = .error (mode.wrap err) := by
  cases h with
  | noThread err hprepares =>
    refine .inr ⟨fun stream haccepted => ?_, err, rfl⟩
    obtain ⟨params, answer, hmem⟩ := haccepted.mem
    rcases List.mem_append.1 hmem with hmem | hmem
    · exact hfirst _ hmem trivial
    · exact hprepares _ hmem
  | noTurn params err hprepares =>
    refine .inr ⟨fun stream haccepted => ?_, err, rfl⟩
    obtain ⟨before, params', answer, heq, -⟩ := haccepted
    rw [← List.append_assoc] at heq
    obtain ⟨-, hlast⟩ := List.append_inj' heq rfl
    cases hlast
  | turn params answer stream hprepares hturn =>
    exact .inl ⟨stream, ⟨_, params, answer, (List.append_assoc ..).symm, hturn⟩, rfl⟩

end

/-! ## The codes of a run -/

section

variable {process : Process} {paint : Style → String → String} {compactJson : Value → String}
  {jsonLine : ThreadEvent → String} {styling : Styling}
  {delivers : StreamedTurn → List StreamItem} {cli : CliArgs} {exchanges : List RpcExchange}
  {r : Except LunaError Unit}

/-- What the exit code says about a run. -/
structure ExitSays (process : Process) (cli : CliArgs)
    (ends : StreamedTurn → Except LunaError Unit) (exchanges : List RpcExchange)
    (r : Except LunaError Unit) : Prop where
  /-- The server is asked nothing exactly when something fails before. -/
  early (error : LunaError) :
    readied process cli = .error error ↔ exchanges = [] ∧ r = .error error
  /-- The codes up to 4 are given only then. -/
  low (code : UInt8) (h : exitCodeOf r = some code) (hlow : code < 5) : exchanges = []
  /-- With 5 the server knows of no account and there are no credentials, and only then. -/
  account : exitCodeOf r = some 5 ↔ ∃ account, ¬ Authenticated account ∧
    credentials process.toSurroundings = none ∧ exchanges = accountAsked account
  /-- A turn is accepted and its stream says how the run ends, or none is and the run fails; a turn
  that is streamed does not fail with 8 then. -/
  turn : (∃ stream, TurnAccepted exchanges stream ∧ r = ends stream) ∨
    (∀ stream, ¬ TurnAccepted exchanges stream) ∧
      ∃ error, r = .error error ∧ (cli.mode ≠ .finalResponse → error.exitCode ≠ 8)

/-- Once the server has been asked, the run ends with an error about the account, with one of a mode
or with that of the stream. -/
theorem ExecRun.exitCode {ends : StreamedTurn → Except LunaError Unit}
    (h : ExecRun process cli ends exchanges r) (hne : exchanges ≠ [])
    (hends : ∀ stream error, ends stream = .error error →
      error.exitCode = 6 ∨ error.exitCode = 7 ∨ error.exitCode = 8) {code : UInt8}
    (hcode : exitCodeOf r = some code) :
    code = 5 ∧ (∃ account, ¬ Authenticated account ∧
      credentials process.toSurroundings = none ∧ exchanges = accountAsked account) ∨
    code = 6 ∨ code = 7 ∨ code = 8 := by
  cases h with
  | early => exact absurd rfl hne
  | noAccount hready hsignIn =>
    obtain rfl := Option.some.inj hcode
    rcases hsignIn.error_cases with
      ⟨err, rfl⟩ | ⟨account, message, hauth, hcredentials, rfl, rfl⟩
    · exact .inr ((client_exitCode err).imp id .inl)
    · exact .inl ⟨rfl, account, hauth, hcredentials, rfl⟩
  | turn hready hsignIn hturn =>
    rcases hturn.accepted hsignIn.not_needsAccount with ⟨stream, -, rfl⟩ | ⟨-, err, rfl⟩
    · cases hend : ends stream with
      | ok => rw [hend] at hcode; cases hcode
      | error error =>
        rw [hend] at hcode
        obtain rfl := Option.some.inj hcode
        exact .inr (hends stream error hend)
    · obtain rfl := Option.some.inj hcode
      exact .inr ((cli.mode.wrap_exitCode err).imp id fun h => h.imp id And.right)

/-- **What the exit code of a run says.** -/
theorem exec_exit_codes
    (h : Yields (exec process paint compactJson jsonLine styling delivers cli) exchanges r) :
    ExitSays process cli (fun stream =>
      outcome paint compactJson jsonLine styling cli.mode (delivers stream)) exchanges r := by
  have hrun := execRun_of_yields h
  have hends : ∀ (stream : StreamedTurn) (error : LunaError),
      outcome paint compactJson jsonLine styling cli.mode (delivers stream) = .error error →
        error.exitCode = 6 ∨ error.exitCode = 7 ∨ error.exitCode = 8 :=
    fun stream error herror => outcome_exitCode paint compactJson jsonLine styling herror
  constructor
  case early =>
    intro error
    cases hrun with
    | early herror => simp [herror]
    | noAccount hready hsignIn => simp [hready, hsignIn.ne_nil]
    | turn hready hsignIn hturn => simp [hready, hsignIn.ne_nil]
  case low =>
    intro code hcode hlow
    by_contra hne
    rcases hrun.exitCode hne hends hcode with ⟨rfl, -⟩ | rfl | rfl | rfl <;>
      exact absurd hlow (by decide)
  case account =>
    constructor
    · intro hcode
      by_cases hne : exchanges = []
      · cases hrun with
        | early herror =>
          exact absurd (Option.some.inj hcode)
            ((readied_failsEarly process cli).isEarly _ herror).exitCode_ne.1
        | noAccount hready hsignIn => exact absurd hne hsignIn.ne_nil
        | turn hready hsignIn hturn => exact absurd (List.append_eq_nil_iff.1 hne).1 hsignIn.ne_nil
      · rcases hrun.exitCode hne hends hcode with ⟨-, h⟩ | h | h | h
        · exact h
        all_goals exact absurd h (by decide)
    · rintro ⟨account, hauth, -, heq⟩
      cases hrun with
      | early => cases heq
      | noAccount hready hsignIn =>
        obtain ⟨message, hr⟩ :=
          hsignIn.noCredentials_of_asked (by rw [List.append_nil, heq]) hauth
        rw [hr]
        rfl
      | turn hready hsignIn hturn =>
        obtain ⟨message, hr⟩ := hsignIn.noCredentials_of_asked heq hauth
        cases hr
  case turn =>
    cases hrun with
    | early herror =>
      refine .inr ⟨fun stream haccepted => ?_, _, rfl, fun _ =>
        ((readied_failsEarly process cli).isEarly _ herror).exitCode_ne.2⟩
      obtain ⟨params, answer, hmem⟩ := haccepted.mem
      cases hmem
    | noAccount hready hsignIn =>
      refine .inr ⟨hsignIn.not_accepted, _, rfl, fun _ => ?_⟩
      rcases hsignIn.error_cases with ⟨err, rfl⟩ | ⟨account, message, -, -, -, rfl⟩
      · exact client_exitCode_ne err
      · simp [LunaError.exitCode, LunaError.code]
    | turn hready hsignIn hturn =>
      refine (hturn.accepted hsignIn.not_needsAccount).imp id
        fun ⟨hnone, err, hr⟩ => ⟨hnone, _, hr, fun hmode => ?_⟩
      intro hcode
      rcases cli.mode.wrap_exitCode err with h6 | h7 | ⟨hfinal, -⟩
      · exact absurd (h6.symm.trans hcode) (by decide)
      · exact absurd (h7.symm.trans hcode) (by decide)
      · exact hmode hfinal

end

/-! ## A run -/

theorem noKey_yields :
    Yields (exec (withKey none) (fun _ text => text) (fun _ => "") (fun _ => "") ⟨false⟩
      (fun _ => []) (promptOnly "go on")) (accountAsked loggedOut)
      (.error (.authentication
        "Codex is not authenticated; run `codex login`, then rerun `luna doctor --live`")) := by
  refine Yields.answered (by rfl) _ ?_
  refine Yields.answered (by rfl) _ ?_
  exact .ret _

/-- Without a key there is no login, and the code is 5. -/
theorem exec_exit_codes_noKey : ∃ account, ¬ Authenticated account ∧
    credentials (withKey none).toSurroundings = none ∧
      accountAsked loggedOut = accountAsked account :=
  (exec_exit_codes noKey_yields).account.1 rfl

end CodexSdk.Luna

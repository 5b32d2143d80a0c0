import CodexSdk.Interleave.Attempt
import CodexSdk.Luna.Profile
import CodexSdk.Transport.Ws

/-!
# Reaching an app server

`websocket.rs` and `connection.rs` of `luna`: which URL a command connects to, whether it may start
a server there, and how it makes sure of an account.

`ensure_authenticated` asks for the account first and logs in only if there is none, with the
credentials of the environment.  `SignIn` is all it can exchange with the server.
-/

set_option autoImplicit false

namespace CodexSdk.Luna

open Json Interleave

/-! ## The URL -/

inductive WebsocketUrlSource
  | flag
  | environment
  | legacyEnvironment
  | default
  deriving DecidableEq

structure ResolvedWebsocketUrl where
  url : String
  source : WebsocketUrlSource

/-- Only the URL that nobody has asked for has a server that `luna` starts. -/
def ResolvedWebsocketUrl.manageDaemon (resolved : ResolvedWebsocketUrl) : Bool :=
  resolved.source == .default

def ResolvedWebsocketUrl.implicit : ResolvedWebsocketUrl := ⟨"ws://127.0.0.1:4222", .default⟩

def normalizeWebsocketUrl (raw source : String) : Except LunaError String :=
  match trimmedText raw with
  | some url => .ok url
  | none => .error (.usage s!"value for {source} cannot be empty")

def resolveWebsocketUrl (explicit envWebsocketUrl legacyEnvWebsocketUrl : Option String) :
    Except LunaError ResolvedWebsocketUrl :=
  match explicit, envWebsocketUrl, legacyEnvWebsocketUrl with
  | some url, _, _ => do return ⟨← normalizeWebsocketUrl url "--ws-url", .flag⟩
  | none, some url, _ => do
    return ⟨← normalizeWebsocketUrl url "CODEX_APP_SERVER_WS_URL", .environment⟩
  | none, none, some url => do
    return ⟨← normalizeWebsocketUrl url "CODEX_WEB_SERVER_URL", .legacyEnvironment⟩
  | none, none, none => .ok .implicit

def ensureWsAuthAllowed (url : String) : Except LunaError Unit :=
  if websocketUrlAllowsAuthToken url then .ok ()
  else .error (.usage "websocket auth tokens require `wss://` or a loopback `ws://` URL")

/-! ## The connection -/

/-- The environment of the process, and how the attempts to reach a server come out: on a URL, there
with a server that is started if need be, and on a child process. -/
structure Surroundings where
  var : String → Option String
  connectWs : (url : String) → (authToken : Option String) → Except ClientError Unit
  startAndConnectWs : (url : String) → (authToken : Option String) →
    (serverEnv : List (String × String)) → Except ClientError Unit
  resolveCodexBinary : Except String String
  spawnStdio : (codexBinary : String) → Except ClientError Unit

inductive TransportMode
  | webSocket
  | stdio
  deriving DecidableEq

def forwardedEnvVars : List String :=
  ["OPENAI_API_KEY", "CODEX_API_KEY", "CODEX_ID_TOKEN", "CODEX_ACCESS_TOKEN"]

variable (around : Surroundings)

def daemonEnv : List (String × String) :=
  forwardedEnvVars.filterMap fun name => (around.var name).map fun value => (name, value)

def connectWsCodex (url : String) (manageDaemon : Bool) (authToken : Option String) :
    Except LunaError Unit := do
  if authToken.isSome then ensureWsAuthAllowed url
  (if manageDaemon then around.startAndConnectWs url authToken (daemonEnv around)
    else around.connectWs url authToken).mapError .client

def spawnStdioCodex : Except LunaError Unit := do
  let codexBinary ← around.resolveCodexBinary.mapError .dependency
  (around.spawnStdio codexBinary).mapError .client

/-! ## The account -/

/-- What a command does with a server it is connected to. -/
abbrev Command := Attempt Rpc (fun o => Except ClientError o.Result) LunaError

/-- One request; its failure is the command's. -/
def Command.ask (o : Rpc) : Command o.Result :=
  Attempt.after (Prog.perform o) (Except.mapError .client)

def accountIsAuthenticated (account : Map) : Bool :=
  account.get "isLoggedIn" == some (.bool true)
    || (account.get "account").any (fun value => !(value == .null))
    || account.get "requiresOpenaiAuth" == some (.bool false)

structure LoginAccountParams where
  loginType : String
  apiKey : Option String
  idToken : Option String
  accessToken : Option String

namespace LoginAccountParams

def ofApiKey (key : String) : LoginAccountParams := ⟨"apiKey", some key, none, none⟩

def chatgpt (idToken accessToken : String) : LoginAccountParams :=
  ⟨"chatgpt", none, some idToken, some accessToken⟩

def toJson (p : LoginAccountParams) : Map :=
  .ofFields [("type", some (.string p.loginType)), ("apiKey", p.apiKey.map .string),
    ("idToken", p.idToken.map .string), ("accessToken", p.accessToken.map .string)]

end LoginAccountParams

/-- The credentials of the environment: the tokens of ChatGPT before a key. -/
def credentials : Option LoginAccountParams :=
  match around.var "CODEX_ID_TOKEN", around.var "CODEX_ACCESS_TOKEN" with
  | some idToken, some accessToken => some (.chatgpt idToken accessToken)
  | _, _ => (around.var "OPENAI_API_KEY").map .ofApiKey

def accountRead : Rpc := .operation "account/read" []

def accountLoginStart (params : LoginAccountParams) : Rpc :=
  .operation "account/login/start" params.toJson

/-- Like all methods of `Codex`, the two make sure of the handshake first. -/
def ensureAuthenticated : Command Unit := do
  Command.ask .ensureInitialized
  -- the answer has been decoded as an object
  let account : Value ← Command.ask accountRead
  if accountIsAuthenticated (account.asObject.getD []) then return ()
  else match credentials around with
    | some params => do
      Command.ask .ensureInitialized
      let _ : Value ← Command.ask (accountLoginStart params)
      return ()
    | none => .ofExcept (.error (.authentication
        "Codex is not authenticated; run `codex login`, then rerun `luna doctor --live`"))

/-! ## What is exchanged about the account -/

/-- The answer says that there is an account, or that none is needed. -/
def Authenticated (account : Value) : Prop :=
  accountIsAuthenticated (account.asObject.getD []) = true

/-- The exchanges up to the answer about the account. -/
def accountAsked (account : Value) : List RpcExchange :=
  [⟨.ensureInitialized, .ok ()⟩, ⟨accountRead, .ok account⟩]

/-- What `ensure_authenticated` exchanges with the server, and how it ends. -/
inductive SignIn : List RpcExchange → Except LunaError Unit → Prop
  | notReady (err : ClientError) :
      SignIn [⟨.ensureInitialized, .error err⟩] (.error (.client err))
  | unread (err : ClientError) :
      SignIn [⟨.ensureInitialized, .ok ()⟩, ⟨accountRead, .error err⟩] (.error (.client err))
  | authenticated {account : Value} (h : Authenticated account) :
      SignIn (accountAsked account) (.ok ())
  | noCredentials {account : Value} (message : String) (h : ¬ Authenticated account)
      (hcredentials : credentials around = none) :
      SignIn (accountAsked account) (.error (.authentication message))
  | interrupted {account : Value} (err : ClientError) (h : ¬ Authenticated account) :
      SignIn (accountAsked account ++ [⟨.ensureInitialized, .error err⟩]) (.error (.client err))
  | refused {account : Value} {params : LoginAccountParams} (err : ClientError)
      (h : ¬ Authenticated account) (hcredentials : credentials around = some params) :
      SignIn (accountAsked account ++
        [⟨.ensureInitialized, .ok ()⟩, ⟨accountLoginStart params, .error err⟩])
        (.error (.client err))
  | loggedIn {account answer : Value} {params : LoginAccountParams} (h : ¬ Authenticated account)
      (hcredentials : credentials around = some params) :
      SignIn (accountAsked account ++
        [⟨.ensureInitialized, .ok ()⟩, ⟨accountLoginStart params, .ok answer⟩]) (.ok ())

variable {around} {exchanges : List RpcExchange}

theorem yields_ask_andThen {α : Type} {o : Rpc} {f : o.Result → Command α}
    {r : Except LunaError α} :
    Yields (Command.ask o >>= f : Command α) exchanges r ↔
      (∃ err, exchanges = [⟨o, .error err⟩] ∧ r = .error (.client err)) ∨
      ∃ a rest, exchanges = ⟨o, .ok a⟩ :: rest ∧ Yields (f a) rest r := by
  have hask : ∀ {exchanges : List RpcExchange} {r : Except LunaError o.Result},
      Yields (Command.ask o) exchanges r ↔
        ∃ a, exchanges = [⟨o, a⟩] ∧ r = a.mapError .client := by
    intro exchanges r
    rw [Command.ask, yields_after]
    refine exists_congr fun a => and_congr_left fun _ => ?_
    rw [Prog.perform, yields_op]
    constructor
    · rintro ⟨a', rest, rfl, hret⟩
      obtain ⟨rfl, rfl⟩ := yields_ret.1 hret
      rfl
    · rintro rfl
      exact ⟨a, [], rfl, .ret a⟩
  rw [yields_andThen]
  constructor
  · rintro (⟨e, h, rfl⟩ | ⟨first, a, rest, rfl, h, hrest⟩)
    · obtain ⟨err | a, rfl, heq⟩ := hask.1 h
      · cases heq
        exact .inl ⟨err, rfl, rfl⟩
      · cases heq
    · obtain ⟨err | a', rfl, heq⟩ := hask.1 h
      · cases heq
      · cases heq
        exact .inr ⟨a, rest, rfl, hrest⟩
  · rintro (⟨err, rfl, rfl⟩ | ⟨a, rest, rfl, h⟩)
    · exact .inl ⟨.client err, hask.2 ⟨_, rfl, rfl⟩, rfl⟩
    · exact .inr ⟨[⟨o, .ok a⟩], a, rest, rfl, hask.2 ⟨_, rfl, rfl⟩, h⟩

theorem signIn_of_yields {r : Except LunaError Unit}
    (h : Yields (ensureAuthenticated around) exchanges r) : SignIn around exchanges r := by
  rcases yields_ask_andThen.1 h with ⟨err, rfl, rfl⟩ | ⟨⟨⟩, rest, rfl, h₁⟩
  · exact .notReady err
  rcases yields_ask_andThen.1 h₁ with ⟨err, rfl, rfl⟩ | ⟨account, rest', rfl, h₂⟩
  · exact .unread err
  split at h₂
  · rename_i hauth
    obtain ⟨rfl, rfl⟩ := yields_ofExcept.1 h₂
    exact .authenticated hauth
  · rename_i hauth
    cases hcredentials : credentials around with
    | none =>
      rw [hcredentials] at h₂
      obtain ⟨rfl, rfl⟩ := yields_ofExcept.1 h₂
      exact .noCredentials _ hauth hcredentials
    | some params =>
      rw [hcredentials] at h₂
      rcases yields_ask_andThen.1 h₂ with ⟨err, rfl, rfl⟩ | ⟨⟨⟩, rest, rfl, h₃⟩
      · exact .interrupted err hauth
      rcases yields_ask_andThen.1 h₃ with ⟨err, rfl, rfl⟩ | ⟨answer, rest, rfl, h₄⟩
      · exact .refused err hauth hcredentials
      · obtain ⟨rfl, rfl⟩ := yields_ofExcept.1 h₄
        exact .loggedIn hauth hcredentials

/-- A request that is made on behalf of an account: any but those that ask for it and log in. -/
def NeedsAccount : Rpc → Prop
  | .threadList _ | .threadStart _ | .threadResume _ | .turnStart _ => True
  | .operation method _ => method ≠ "account/read" ∧ method ≠ "account/login/start"
  | .ensureInitialized => False

/-- The server has said that there is an account, or it has accepted a login. -/
def SignedIn (exchanges : List RpcExchange) : Prop :=
  (∃ account, Authenticated account ∧ ⟨accountRead, .ok account⟩ ∈ exchanges) ∨
    ∃ params answer, ⟨accountLoginStart params, .ok answer⟩ ∈ exchanges

theorem SignedIn.append {before : List RpcExchange} (h : SignedIn before)
    (after : List RpcExchange) : SignedIn (before ++ after) := by
  rcases h with ⟨account, hauth, hmem⟩ | ⟨params, answer, hmem⟩
  · exact .inl ⟨account, hauth, List.mem_append_left _ hmem⟩
  · exact .inr ⟨params, answer, List.mem_append_left _ hmem⟩

theorem SignIn.not_needsAccount {r : Except LunaError Unit} (h : SignIn around exchanges r) :
    ∀ e ∈ exchanges, ¬ NeedsAccount e.1 := by
  cases h <;> simp [accountAsked, accountRead, accountLoginStart, NeedsAccount]

end CodexSdk.Luna

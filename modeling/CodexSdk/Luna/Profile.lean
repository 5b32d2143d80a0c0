import CodexSdk.Luna.Sessions
import CodexSdk.Toml
import CodexSdk.UnixPath

/-!
# The profile of an agent

`load_agent_profile` of `config.rs`: the instructions of the agent that `--agent` names.  They are
looked for in the file its role names, and then in the role itself.

`agx` reads a file of its own for the same purpose (`resolve_developer_instructions` of its
`main.rs`), in which all three texts are members.  `same_instructions_iff` says for which texts the
two programs give an agent the same instructions.
-/

set_option autoImplicit false

namespace CodexSdk

open Unix

/-- A path in a configuration file is relative to the directory of that file. -/
def resolvePathFromFile (filePath : PathBuf) (rawPath : String) : PathBuf :=
  let candidate := PathBuf.parse rawPath
  if candidate.isAbsolute then candidate
  else (filePath.parent.getD (.parse ".")).join candidate

/-- `as_deref().map(str::trim).filter(..)`: a member that is there and not blank. -/
def filledIn (member : Option String) : Option String := member.bind Luna.trimmedText

namespace Luna

structure LoadedAgent where
  instructions : String

structure AgentRoleConfig where
  description : Option String
  configFile : Option String

structure AgentConfigLayer where
  developerInstructions : Option String
  modelInstructionsFile : Option String

/-- The files, and what the crate that reads TOML makes of them: the table of the agents, a role and
a layer, or the text of its error. -/
structure AgentFiles where
  readToString : PathBuf → Except String String
  agents : String → Except String Toml.Table
  role : Toml.Value → Except String AgentRoleConfig
  layer : String → Except String AgentConfigLayer

/-! ## Where the configuration is -/

section

-- `env::var_os`.
variable (varOs : String → Option String)

/-- A variable that is set to something. -/
def nonEmptyVar (name : String) : Option String := (varOs name).filter fun value => value ≠ ""

def resolveHomeDir : Option PathBuf :=
  match nonEmptyVar varOs "HOME", nonEmptyVar varOs "USERPROFILE" with
  | some home, _ => some (.parse home)
  | none, some userprofile => some (.parse userprofile)
  | none, none => match nonEmptyVar varOs "HOMEDRIVE", nonEmptyVar varOs "HOMEPATH" with
    | some drive, some path => some ((PathBuf.parse drive).join (.parse path))
    | _, _ => none

def resolveCodexHomeDir : Option PathBuf :=
  match nonEmptyVar varOs "CODEX_HOME" with
  | some codexHome => some (.parse codexHome)
  | none => (resolveHomeDir varOs).map fun home => home.join (.parse ".codex")

end

/-! ## The instructions -/

variable (files : AgentFiles) (agentName : String)

def resolveAgentInstructions (role : AgentRoleConfig) (roleConfig : AgentConfigLayer)
    (roleConfigPath : PathBuf) : Except LunaError String :=
  match filledIn roleConfig.developerInstructions, filledIn roleConfig.modelInstructionsFile with
  | some instructions, _ => .ok instructions
  | none, some modelInstructionsFile =>
    let instructionsPath := resolvePathFromFile roleConfigPath modelInstructionsFile
    match files.readToString instructionsPath with
    | .error error => .error (.config
        (s!"failed to read model_instructions_file for '{agentName}' at "
          ++ s!"{instructionsPath.display}: {error}"))
    | .ok instructions => match trimmedText instructions with
      | some trimmed => .ok trimmed
      | none => .error (.config
          s!"model_instructions_file for '{agentName}' at {instructionsPath.display} is empty")
  | none, none => match filledIn role.description with
    | some description => .ok description
    | none => .error (.config (s!"agent '{agentName}' config {roleConfigPath.display} must set "
        ++ "`developer_instructions` or `model_instructions_file`"))

/-- The instructions of a role, which is in the configuration at `configPath`. -/
def instructionsOf (role : AgentRoleConfig) (configPath : PathBuf) : Except LunaError String :=
  match filledIn role.configFile, filledIn role.description with
  | some configFile, _ => do
    let roleConfigPath := resolvePathFromFile configPath configFile
    let roleConfigRaw ← (files.readToString roleConfigPath).mapError fun error => .config
      (s!"failed to read agent config file for '{agentName}' at "
        ++ s!"{roleConfigPath.display}: {error}")
    let roleConfig ← (files.layer roleConfigRaw).mapError (.toml roleConfigPath.display)
    resolveAgentInstructions files agentName role roleConfig roleConfigPath
  | none, some description => .ok description
  | none, none => .error (.config
      s!"[agents.{agentName}] in {configPath.display} must set config_file or description")

def loadAgentProfileFromConfig (configPath : PathBuf) : Except LunaError LoadedAgent := do
  let configRaw ← (files.readToString configPath).mapError fun error =>
    .config s!"failed to read Codex config file {configPath.display}: {error}"
  let agents ← (files.agents configRaw).mapError (.toml configPath.display)
  match agents.get agentName with
  | none => .error (.config
      (s!"agent '{agentName}' was not found in {configPath.display} "
        ++ s!"under [agents.{agentName}]"))
  | some roleValue =>
    let role ← (files.role roleValue).mapError fun source =>
      .config s!"invalid [agents.{agentName}] in {configPath.display}: {source}"
    let instructions ← instructionsOf files agentName role configPath
    return ⟨instructions⟩

def loadAgentProfile (varOs : String → Option String) : Except LunaError LoadedAgent :=
  match resolveCodexHomeDir varOs with
  | some codexHome =>
    loadAgentProfileFromConfig files agentName (codexHome.join (.parse "config.toml"))
  | none => .error (.config ("unable to resolve Codex home directory "
      ++ "(expected CODEX_HOME, HOME, USERPROFILE, or HOMEDRIVE+HOMEPATH)"))

end Luna

end CodexSdk

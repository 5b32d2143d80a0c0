import CodexSdk.Agx.Lookup
import CodexSdk.Luna.Profile

/-!
# The instructions of an agent

`resolve_developer_instructions` of `agx`: the inline text of the file of an agent, or else that of
the file it names, or else the description.  `luna` looks at the same three texts in the same order
(`resolve_agent_instructions`), and both go by what is left of a text when it is trimmed.

`same_instructions_iff` says where they part: only at a file of instructions that can be read and is
blank, which `luna` reports and `agx` passes over in favour of the description.
-/

set_option autoImplicit false

namespace CodexSdk.Agx

open Unix

/-- The fields of `AgentConfig` that may hold the instructions. -/
structure AgentTexts where
  description : Option String
  developerInstructions : Option String
  modelInstructionsFile : Option String

variable (readToString : PathBuf → Except String String) (agentName : String) (path : PathBuf)

/-- What is left when neither the file has any instructions nor the file it names. -/
def describe (config : AgentTexts) : Except AnyhowError String :=
  match filledIn config.description with
  | some description => .ok description
  | none => .error [s!"agent '{agentName}' config {path.display} must set `developer_instructions`, "
      ++ "`model_instructions_file`, or `description`"]

def resolveDeveloperInstructions (config : AgentTexts) : Except AnyhowError String :=
  match filledIn config.developerInstructions, filledIn config.modelInstructionsFile with
  | some instructions, _ => .ok instructions
  | none, some modelInstructionsFile =>
    let instructionsPath := resolvePathFromFile path modelInstructionsFile
    match readToString instructionsPath with
    | .error error => .error [s!"failed to read model_instructions_file for '{agentName}' at "
        ++ instructionsPath.display, error]
    | .ok instructions => match Luna.trimmedText instructions with
      | some trimmed => .ok trimmed
      | none => describe agentName path config
  | none, none => describe agentName path config

/-! ## The two programs -/

/-- What `luna` makes of the texts when the description is that of the role. -/
def ofLuna (files : Luna.AgentFiles) (config : AgentTexts) (configFile : Option String) :
    Except Luna.LunaError String :=
  Luna.resolveAgentInstructions files agentName ⟨config.description, configFile⟩
    ⟨config.developerInstructions, config.modelInstructionsFile⟩ path

/-- The texts name a file that can be read and is blank, and have instructions besides, though not
inline. -/
structure BlankFile (config : AgentTexts) : Prop where
  noInline : filledIn config.developerInstructions = none
  blank : ∃ file text, filledIn config.modelInstructionsFile = some file ∧
    readToString (resolvePathFromFile path file) = .ok text ∧ Luna.trimmedText text = none
  described : ∃ description, filledIn config.description = some description

variable {readToString agentName path}

theorem describe_eq_ok {config : AgentTexts} {instructions : String} :
    describe agentName path config = .ok instructions ↔
      filledIn config.description = some instructions := by
  rw [describe]
  cases filledIn config.description <;> simp

theorem alike_iff_not_blankFile (files : Luna.AgentFiles) (config : AgentTexts)
    (configFile : Option String) :
    (∀ instructions, ofLuna agentName path files config configFile = .ok instructions ↔
      resolveDeveloperInstructions files.readToString agentName path config = .ok instructions) ↔
      ¬ BlankFile files.readToString path config := by
  rw [ofLuna, Luna.resolveAgentInstructions, resolveDeveloperInstructions]
  cases hinline : filledIn config.developerInstructions with
  | some inline =>
    refine iff_of_true (fun _ => by simp) fun h => ?_
    rw [h.noInline] at hinline
    cases hinline
  | none =>
    cases hfile : filledIn config.modelInstructionsFile with
    | none =>
      refine iff_of_true (fun _ => ?_) fun h => ?_
      · rw [describe_eq_ok]
        cases filledIn config.description <;> simp
      · obtain ⟨file, text, hfile', -⟩ := h.blank
        rw [hfile] at hfile'
        cases hfile'
    | some file =>
      cases hread : files.readToString (resolvePathFromFile path file) with
      | error error =>
        refine iff_of_true (fun _ => by simp [hread]) fun h => ?_
        obtain ⟨file', text, hfile', htext, -⟩ := h.blank
        obtain rfl : file = file' := Option.some.inj (hfile.symm.trans hfile')
        rw [hread] at htext
        cases htext
      | ok text =>
        cases hblank : Luna.trimmedText text with
        | some trimmed =>
          refine iff_of_true (fun _ => by simp [hread, hblank]) fun h => ?_
          obtain ⟨file', text', hfile', htext, hblank'⟩ := h.blank
          obtain rfl : file = file' := Option.some.inj (hfile.symm.trans hfile')
          obtain rfl : text = text' := Except.ok.inj (hread.symm.trans htext)
          rw [hblank] at hblank'
          cases hblank'
        | none =>
          simp only [hread, hblank, describe_eq_ok, reduceCtorEq, false_iff]
          constructor
          · rintro hno ⟨-, -, description, hdescription⟩
            exact hno description hdescription
          · intro h description hdescription
            exact h ⟨hinline, ⟨file, text, hfile, hread, hblank⟩, description, hdescription⟩

/-- At a blank file the one reports it, and the other takes the description. -/
theorem BlankFile.parts {files : Luna.AgentFiles} {config : AgentTexts}
    (h : BlankFile files.readToString path config) (configFile : Option String) :
    ∃ file instructionsPath description, filledIn config.modelInstructionsFile = some file ∧
      instructionsPath = resolvePathFromFile path file ∧
      filledIn config.description = some description ∧
      ofLuna agentName path files config configFile = .error (.config
        s!"model_instructions_file for '{agentName}' at {instructionsPath.display} is empty") ∧
      resolveDeveloperInstructions files.readToString agentName path config = .ok description := by
  obtain ⟨file, text, hfile, hread, hblank⟩ := h.blank
  obtain ⟨description, hdescription⟩ := h.described
  refine ⟨file, _, description, hfile, rfl, hdescription, ?_, ?_⟩
  · simp [ofLuna, Luna.resolveAgentInstructions, h.noInline, hfile, hread, hblank]
  · simp [resolveDeveloperInstructions, h.noInline, hfile, hread, hblank,
      describe_eq_ok.2 hdescription]

/-- **The same instructions** come of the same texts exactly if there is no blank file in the way of
a description.  There `luna` reports that the file is empty, and `agx` takes the description. -/
theorem same_instructions_iff (files : Luna.AgentFiles) (config : AgentTexts)
    (configFile : Option String) :
    ((∀ instructions, ofLuna agentName path files config configFile = .ok instructions ↔
      resolveDeveloperInstructions files.readToString agentName path config = .ok instructions) ↔
      ¬ BlankFile files.readToString path config) ∧
    (BlankFile files.readToString path config →
      ∃ file instructionsPath description, filledIn config.modelInstructionsFile = some file ∧
        instructionsPath = resolvePathFromFile path file ∧
        filledIn config.description = some description ∧
        ofLuna agentName path files config configFile = .error (.config
          s!"model_instructions_file for '{agentName}' at {instructionsPath.display} is empty") ∧
        resolveDeveloperInstructions files.readToString agentName path config = .ok description) :=
  ⟨alike_iff_not_blankFile files config configFile, fun h => h.parts configFile⟩

/-- Every file is blank. -/
def blankFiles : Luna.AgentFiles where
  readToString _ := .ok " \n"
  agents _ := .ok []
  role _ := .ok ⟨none, none⟩
  layer _ := .ok ⟨none, none⟩

/-- A description, and a file of instructions. -/
def describedTexts : AgentTexts := ⟨some "Writes tests", none, some "notes.md"⟩

theorem same_instructions_iff_described :
    resolveDeveloperInstructions blankFiles.readToString "tester" (.parse "/a/tester.toml")
        describedTexts = .ok "Writes tests" ∧
      ∀ instructions, ofLuna "tester" (.parse "/a/tester.toml") blankFiles describedTexts none ≠
        .ok instructions := by
  have hblank : BlankFile blankFiles.readToString (.parse "/a/tester.toml") describedTexts :=
    ⟨rfl, ⟨"notes.md", " \n", by decide, rfl, by decide⟩, ⟨"Writes tests", by decide⟩⟩
  obtain ⟨file, instructionsPath, description, -, -, hdescription, hluna, hagx⟩ :=
    (same_instructions_iff blankFiles describedTexts none).2 hblank
  have htext : filledIn describedTexts.description = some "Writes tests" := by decide
  rw [htext, Option.some.injEq] at hdescription
  refine ⟨by rw [hagx, hdescription], fun instructions hok => ?_⟩
  rw [hluna] at hok
  cases hok

end CodexSdk.Agx

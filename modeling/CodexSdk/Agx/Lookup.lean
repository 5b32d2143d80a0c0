import CodexSdk.UnixPath

/-!
# Where an agent is configured

`resolve_agent_config_path` of `agx` looks for the file of an agent in the project, from the current
directory upwards, and then in the home directory of the user.

`agent_config_nearest` says which file is taken: in the project scope the nearest one, if neither
the home directory nor the root of a repository comes before it.  `agent_config_contained` says what
follows from that for a name that is one: nothing from outside the repository, from the home
directory or from above it is ever taken for a file of the project.
-/

set_option autoImplicit false

namespace CodexSdk.Agx

open Unix

/-! ## The search -/

inductive AgentScope
  | project
  | user

/-- What the search asks of the file system. -/
structure FileSystem where
  isFile : PathBuf → Bool
  pathExists : PathBuf → Bool

structure ResolvedAgentConfig where
  scope : AgentScope
  path : PathBuf

/-- The messages of an `anyhow::Error`, the outermost first. -/
abbrev AnyhowError := List String

/-- The file of an agent below a directory. -/
def agentConfigIn (agentName : String) (dir : PathBuf) : PathBuf :=
  ((dir.join (.parse ".codex")).join (.parse "agents")).join (.parse (agentName ++ ".toml"))

def formatPaths (paths : List PathBuf) : String :=
  if paths.isEmpty then "(none)" else ", ".intercalate (paths.map PathBuf.display)

variable (fs : FileSystem) (agentName : String) (cwd : PathBuf) (home : Option PathBuf)

def isHome (dir : PathBuf) : Bool := home == some dir

/-- The root of a repository. -/
def hasGit (dir : PathBuf) : Bool := fs.pathExists (dir.join (.parse ".git"))

def hasAgent (dir : PathBuf) : Bool := fs.isFile (agentConfigIn agentName dir)

def projectAgentConfigCandidates : List PathBuf :=
  (PathBuf.climb (isHome home) (hasGit fs) cwd.ancestors).map (agentConfigIn agentName)

def resolveProjectAgentConfigPath : Except AnyhowError ResolvedAgentConfig :=
  let candidates := projectAgentConfigCandidates fs agentName cwd home
  match candidates.find? fs.isFile with
  | some path => .ok ⟨.project, path⟩
  | none => .error [s!"agent '{agentName}' not found in project scope; searched project paths: "
      ++ formatPaths candidates]

def userAgentConfigPath : Except AnyhowError PathBuf :=
  match home with
  | some home => .ok (agentConfigIn agentName home)
  | none => .error ["HOME is not set; cannot locate user agent config"]

def resolveUserAgentConfigPath : Except AnyhowError ResolvedAgentConfig := do
  let path ← userAgentConfigPath agentName home
  if fs.isFile path then return ⟨.user, path⟩
  else throw [s!"agent '{agentName}' not found in user scope at " ++ path.display]

def missingAgentMessage : String :=
  let projectPaths := formatPaths (projectAgentConfigCandidates fs agentName cwd home)
  let searched := s!"agent '{agentName}' not found; searched project scope paths: {projectPaths}; "
  match userAgentConfigPath agentName home with
  | .ok userPath => searched ++ s!"searched user scope path: {userPath.display}"
  | .error error => searched ++ "user scope unavailable: " ++ ": ".intercalate error

def resolveAgentConfigPath (scope : Option AgentScope) : Except AnyhowError ResolvedAgentConfig :=
  match scope with
  | some .project => resolveProjectAgentConfigPath fs agentName cwd home
  | some .user => resolveUserAgentConfigPath fs agentName home
  | none => match resolveProjectAgentConfigPath fs agentName cwd home with
    | .ok resolved => .ok resolved
    | .error _ => (resolveUserAgentConfigPath fs agentName home).mapError fun error =>
        missingAgentMessage fs agentName cwd home :: error

/-! ## The nearest file -/

/-- The directory is the nearest one above the current one that has the file, and the search gets
there. -/
structure Nearest (dir : PathBuf) : Prop where
  above : dir.Above cwd
  not_home : home ≠ some dir
  here : hasAgent fs agentName dir = true
  between : ∀ d, dir.Above d → d.Above cwd → d ≠ dir →
    home ≠ some d ∧ hasGit fs d = false ∧ hasAgent fs agentName d = false

variable {fs agentName cwd home} {dir : PathBuf} {resolved : ResolvedAgentConfig}

theorem isHome_eq_false : isHome home dir = false ↔ home ≠ some dir := by
  rw [isHome, beq_eq_false_iff_ne]

theorem nearest_iff : Nearest fs agentName cwd home dir ↔
    PathBuf.Finds (isHome home) (hasGit fs) (hasAgent fs agentName) cwd dir := by
  constructor
  · rintro ⟨habove, hhome, hhere, hbetween⟩
    exact ⟨habove, isHome_eq_false.2 hhome, hhere, fun d hd hd' hne =>
      (hbetween d hd hd' hne).imp_left isHome_eq_false.2⟩
  · rintro ⟨habove, hhome, hhere, hbetween⟩
    exact ⟨habove, isHome_eq_false.1 hhome, hhere, fun d hd hd' hne =>
      (hbetween d hd hd' hne).imp_left isHome_eq_false.1⟩

theorem project_eq_ok : resolveProjectAgentConfigPath fs agentName cwd home = .ok resolved ↔
    ∃ dir, Nearest fs agentName cwd home dir ∧
      resolved = ⟨.project, agentConfigIn agentName dir⟩ := by
  have hfind : (projectAgentConfigCandidates fs agentName cwd home).find? fs.isFile =
      ((PathBuf.climb (isHome home) (hasGit fs) cwd.ancestors).find? (hasAgent fs agentName)).map
        (agentConfigIn agentName) := List.find?_map ..
  simp only [nearest_iff, ← PathBuf.find_climb]
  rw [resolveProjectAgentConfigPath, hfind]
  cases (PathBuf.climb (isHome home) (hasGit fs) cwd.ancestors).find? (hasAgent fs agentName) with
  | none => simp
  | some dir => simpa using eq_comm

theorem user_eq_ok : resolveUserAgentConfigPath fs agentName home = .ok resolved ↔
    ∃ dir, home = some dir ∧ hasAgent fs agentName dir = true ∧
      resolved = ⟨.user, agentConfigIn agentName dir⟩ := by
  cases home with
  | none =>
    refine iff_of_false (fun h => ?_) (by simp)
    cases h
  | some dir =>
    have hrun : resolveUserAgentConfigPath fs agentName (some dir) =
        if hasAgent fs agentName dir then .ok ⟨.user, agentConfigIn agentName dir⟩
        else .error [s!"agent '{agentName}' not found in user scope at "
          ++ (agentConfigIn agentName dir).display] := rfl
    rw [hrun]
    split
    · rename_i hfile
      constructor
      · rintro ⟨⟩
        exact ⟨dir, rfl, hfile, rfl⟩
      · rintro ⟨_, ⟨⟩, -, rfl⟩
        rfl
    · rename_i hfile
      refine iff_of_false (fun h => ?_) ?_
      · cases h
      · rintro ⟨_, ⟨⟩, hfile', -⟩
        exact hfile hfile'

theorem resolve_eq_ok {scope : Option AgentScope} :
    resolveAgentConfigPath fs agentName cwd home scope = .ok resolved ↔
      (scope ≠ some .user ∧ resolveProjectAgentConfigPath fs agentName cwd home = .ok resolved) ∨
      (scope ≠ some .project ∧
        (scope = none → ∀ dir, ¬ Nearest fs agentName cwd home dir) ∧
        resolveUserAgentConfigPath fs agentName home = .ok resolved) := by
  match scope with
  | some .project => simp [resolveAgentConfigPath]
  | some .user => simp [resolveAgentConfigPath]
  | none =>
    rw [resolveAgentConfigPath]
    cases hproject : resolveProjectAgentConfigPath fs agentName cwd home with
    | ok found =>
      obtain ⟨dir, hdir, -⟩ := project_eq_ok.1 hproject
      refine ⟨fun h => .inl ⟨by simp, h⟩, ?_⟩
      rintro (⟨-, h⟩ | ⟨-, hno, -⟩)
      · exact h
      · exact absurd hdir (hno rfl dir)
    | error error =>
      have hno : ∀ dir, ¬ Nearest fs agentName cwd home dir := by
        intro dir hdir
        cases hproject.symm.trans (project_eq_ok.2 ⟨dir, hdir, rfl⟩)
      cases resolveUserAgentConfigPath fs agentName home <;> simp [Except.mapError, hno]

/-- **The file that is taken** is the nearest one in the project, and the user's if there is none or
the project is not asked for. -/
theorem agent_config_nearest {scope : Option AgentScope} :
    resolveAgentConfigPath fs agentName cwd home scope = .ok resolved ↔
      (scope ≠ some .user ∧ ∃ dir, Nearest fs agentName cwd home dir ∧
        resolved = ⟨.project, agentConfigIn agentName dir⟩) ∨
      (scope ≠ some .project ∧ (scope = none → ∀ dir, ¬ Nearest fs agentName cwd home dir) ∧
        ∃ dir, home = some dir ∧ hasAgent fs agentName dir = true ∧
          resolved = ⟨.user, agentConfigIn agentName dir⟩) := by
  rw [resolve_eq_ok, project_eq_ok, user_eq_ok]

/-! ## What is never taken -/

/-- What ends the search is not below the directory. -/
theorem Nearest.above_of_stop (h : Nearest fs agentName cwd home dir) {d : PathBuf}
    (hd : d.Above cwd) (hstop : home = some d ∨ hasGit fs d = true) : d.Above dir := by
  rcases h.above.total hd with hbelow | habove
  · by_cases hne : d = dir
    · exact hne ▸ PathBuf.above_refl d
    · obtain ⟨hhome, hgit, -⟩ := h.between d hbelow hd hne
      rcases hstop with hstop | hstop
      · exact absurd hstop hhome
      · rw [hgit] at hstop
        cases hstop
  · exact habove

theorem parse_agentFile (h : '/' ∉ agentName.toList) :
    PathBuf.parse (agentName ++ ".toml") = ⟨false, [agentName ++ ".toml"]⟩ := by
  have hlength : (agentName ++ ".toml").length = agentName.length + 5 :=
    String.length_append ..
  have hne : ∀ text : String, text.length < 5 → agentName ++ ".toml" ≠ text := by
    rintro text htext rfl
    omega
  refine PathBuf.parse_name ?_ (hne _ (by decide)) (hne _ (by decide))
  rw [String.toList_append, List.mem_append, not_or]
  exact ⟨h, by decide⟩

/-- The file of an agent whose name is no path. -/
theorem agentConfigIn_eq (h : '/' ∉ agentName.toList) (hrooted : dir.rooted = true) :
    agentConfigIn agentName dir =
      ⟨true, dir.names ++ [".codex", "agents", agentName ++ ".toml"]⟩ := by
  obtain ⟨rooted, names⟩ := dir
  obtain rfl : rooted = true := hrooted
  have hcodex : PathBuf.parse ".codex" = ⟨false, [".codex"]⟩ := rfl
  have hagents : PathBuf.parse "agents" = ⟨false, ["agents"]⟩ := rfl
  rw [agentConfigIn, hcodex, hagents, parse_agentFile h, PathBuf.join_names (by decide),
    PathBuf.join_names (by decide), PathBuf.join_names]
  · simp
  · rw [List.head?_cons, Ne, Option.some_inj]
    intro heq
    have hlength : (agentName ++ ".toml").length = 1 := congrArg String.length heq
    rw [String.length_append, show ".toml".length = 5 from rfl] at hlength
    omega

theorem agentConfigIn_rooted (h : '/' ∉ agentName.toList) :
    (agentConfigIn agentName dir).rooted = dir.rooted := by
  rw [agentConfigIn, PathBuf.join_rooted (by rw [parse_agentFile h]), PathBuf.join_rooted rfl,
    PathBuf.join_rooted rfl]

theorem agentConfigIn_inj (h : '/' ∉ agentName.toList) {d : PathBuf} (hd : d.rooted = true)
    (hrooted : dir.rooted = true) (heq : agentConfigIn agentName d = agentConfigIn agentName dir) :
    d = dir := by
  rw [agentConfigIn_eq h hd, agentConfigIn_eq h hrooted, PathBuf.mk.injEq] at heq
  obtain ⟨rooted, names⟩ := d
  obtain ⟨rooted', names'⟩ := dir
  exact PathBuf.mk.injEq .. ▸ ⟨hd.trans hrooted.symm, List.append_cancel_right heq.2⟩

/-- **What is taken for a file of the project** of an agent whose name is no path is in a directory
above the current one; not above the root of the repository; not the file of the user, nor one from
above the home directory. -/
theorem agent_config_contained {scope : Option AgentScope} {path : PathBuf}
    (hcwd : cwd.rooted = true) (hname : '/' ∉ agentName.toList)
    (h : resolveAgentConfigPath fs agentName cwd home scope = .ok ⟨.project, path⟩) :
    ∃ dir : PathBuf, path = ⟨true, dir.names ++ [".codex", "agents", agentName ++ ".toml"]⟩ ∧
      dir.Above cwd ∧
      (∀ root : PathBuf, root.Above cwd → hasGit fs root = true → root.Above dir) ∧
      ∀ d, home = some d → path ≠ agentConfigIn agentName d ∧ (d.Above cwd → d.Above dir) := by
  have hproject : resolveProjectAgentConfigPath fs agentName cwd home = .ok ⟨.project, path⟩ := by
    rcases resolve_eq_ok.1 h with ⟨-, hproject⟩ | ⟨-, -, huser⟩
    · exact hproject
    · obtain ⟨d, -, -, heq⟩ := user_eq_ok.1 huser
      cases heq
  obtain ⟨dir, hdir, heq⟩ := project_eq_ok.1 hproject
  obtain rfl : path = agentConfigIn agentName dir := congrArg ResolvedAgentConfig.path heq
  have hrooted : dir.rooted = true := hdir.above.1.trans hcwd
  refine ⟨dir, agentConfigIn_eq hname hrooted, hdir.above,
    fun root hroot hgit => hdir.above_of_stop hroot (.inr hgit),
    fun d hd => ⟨fun heq => ?_, fun habove => hdir.above_of_stop habove (.inl hd)⟩⟩
  have hd' : d.rooted = true := by
    rw [← agentConfigIn_rooted hname, ← heq, agentConfigIn_rooted hname, hrooted]
  exact hdir.not_home (hd.trans (congrArg some (agentConfigIn_inj hname hd' hrooted heq.symm)))

/-- The file of the agent is at the root of the repository, above the current directory. -/
def repository : FileSystem where
  isFile path := path == .parse "/home/user/work/.codex/agents/reviewer.toml"
  pathExists path := path == .parse "/home/user/work/.git"

theorem agent_config_contained_repository :
    ∃ dir : PathBuf, PathBuf.parse "/home/user/work/.codex/agents/reviewer.toml" =
        ⟨true, dir.names ++ [".codex", "agents", "reviewer" ++ ".toml"]⟩ ∧
      dir.Above (.parse "/home/user/work/sub") ∧
      (∀ root : PathBuf, root.Above (.parse "/home/user/work/sub") →
        hasGit repository root = true → root.Above dir) ∧
      ∀ d, some (PathBuf.parse "/home/user") = some d →
        PathBuf.parse "/home/user/work/.codex/agents/reviewer.toml" ≠ agentConfigIn "reviewer" d ∧
          (d.Above (.parse "/home/user/work/sub") → d.Above dir) := by
  have h : resolveAgentConfigPath repository "reviewer" (.parse "/home/user/work/sub")
      (some (.parse "/home/user")) none =
      .ok ⟨.project, .parse "/home/user/work/.codex/agents/reviewer.toml"⟩ := rfl
  exact agent_config_contained rfl (by decide) h

end CodexSdk.Agx

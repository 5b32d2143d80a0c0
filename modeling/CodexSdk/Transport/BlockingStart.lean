import CodexSdk.Transport.Shutdown

/-!
# A blocking start that fails

`start_ws_server` in blocking mode owns the process it has started until the handle is made, and the
handle is made at the very end.  A start that fails before that drops the process, which neither
ends it nor waits for it.

What a start sees of its process is the answers to its looks.  How the process really went is a
`Timeline` that agrees with them (`Children.Step`).  `no_orphan_iff` says when the answers leave no
doubt that the process is gone.
-/

set_option autoImplicit false

namespace CodexSdk
namespace WsDaemon

open Interleave

/-! ## Processes -/

inductive ChildState
  | running
  | exited (status : String)

/-- The processes that were started, by their ids. -/
abbrev Children := Nat → Option ChildState

/-- Something that happens while a call runs: an exchange of it, or a process that exits. -/
inductive Moment
  | exchange (x : OwnerExchange)
  | exits (pid : Nat) (status : String)

/-- The exchange says something of a process. -/
def OfProcess : OwnerExchange → Prop
  | ⟨.start (.spawnOwnedProcess _ _), answer⟩ => match answer with
    | .ok _ => True
    | .error _ => False
  | ⟨.start (.tryWait _), answer⟩ => match answer with
    | .ok _ => True
    | .error _ => False
  | _ => False

/-- What can happen to the processes, and what a look at one of them then finds. -/
inductive Children.Step : Children → Moment → Children → Prop
  | spawned {children : Children} {child : Nat} (target : WsStartTarget)
      (env : List (String × String)) (h : children child = none) :
      Children.Step children (.exchange ⟨.start (.spawnOwnedProcess target env), .ok child⟩)
        (Function.update children child (some .running))
  | exits {children : Children} {pid : Nat} (status : String) (h : children pid = some .running) :
      Children.Step children (.exits pid status)
        (Function.update children pid (some (.exited status)))
  | stillRunning {children : Children} {child : Nat} (h : children child = some .running) :
      Children.Step children (.exchange ⟨.start (.tryWait child), .ok none⟩) children
  | hasExited {children : Children} {child : Nat} {status : String}
      (h : children child = some (.exited status)) :
      Children.Step children (.exchange ⟨.start (.tryWait child), .ok (some status)⟩) children
  | other {children : Children} {x : OwnerExchange} (h : ¬ OfProcess x) :
      Children.Step children (.exchange x) children

inductive Timeline : Children → List Moment → Children → Prop
  | nil (children : Children) : Timeline children [] children
  | cons {children children' children'' : Children} {moment : Moment} {moments : List Moment}
      (h : Children.Step children moment children') (rest : Timeline children' moments children'') :
      Timeline children (moment :: moments) children''

/-- The exchanges of a timeline. -/
def exchangesOf (moments : List Moment) : List OwnerExchange :=
  moments.filterMap fun
    | .exchange x => some x
    | .exits _ _ => none

/-- The group of the process was sent a signal, or the process was killed. -/
def Signalled (child : Nat) (moments : List Moment) : Prop :=
  ∃ x ∈ exchangesOf moments, (∃ signal answer, x = ⟨.signalProcessGroup child signal, answer⟩) ∨
    ∃ answer, x = ⟨.killChild child, answer⟩

/-! ## The start -/

/-- An exchange of a starting call, among those of an owner. -/
def ownerExchange (x : Exchange Op Op.Ans) : OwnerExchange := ⟨.start x.1, x.2⟩

/-- The call goes around the readiness loop again. -/
def nextRound : Result → Option (DaemonM Result)
  | .waiting call wait => some (call.resume wait)
  | _ => none

/-- `start_ws_server` in blocking mode, from the call to its return. -/
def BlockingStart (site : Surroundings) (config : WsStartConfig)
    (exchanges : List (Exchange Op Op.Ans)) (outcome : Except ClientError Returned) : Prop :=
  YieldsAll nextRound (Call.body site (.startWsServer config .blocking)) exchanges
    (.returned (.startWsServer config .blocking) outcome)

/-- However the process may have gone, it has exited or was signalled by the time the call returns:
what it must not be is left running. -/
def NoOrphan (exchanges : List (Exchange Op Op.Ans)) (child : Nat) : Prop :=
  ∀ children moments children', Timeline children moments children' →
    exchangesOf moments = exchanges.map ownerExchange →
    (∃ status, children' child = some (.exited status)) ∨ Signalled child moments

/-! ## What a start exchanges -/

/-- Operations that have nothing to do with an owned process. -/
def Neutral : Op → Prop
  | .spawnOwnedProcess _ _ | .tryWait _ => False
  | _ => True

/-- The operations once there is a process. -/
def Watches (child : Nat) (o : Op) : Prop := Neutral o ∨ o = .tryWait child

theorem existingServerHandle_only (target : WsStartTarget) (reuseExisting : Bool)
    (mode : WsStartMode) (authToken : Option String) :
    (existingServerHandle target reuseExisting mode authToken).Only Neutral := by
  refine ⟨trivial, fun answer => ?_⟩
  match answer with
  | .ok .reachable => trivial
  | .ok .unavailable => trivial
  | .error _ => trivial

theorem release_only (target : WsStartTarget) (outcome : Except ClientError WsServerHandle) :
    (release target outcome).Only Neutral :=
  ⟨trivial, fun _ => trivial⟩

theorem checkChild_only {wait : Waiting} {child : Nat} (hchild : wait.child = some child) :
    wait.checkChild.Only (Watches child) := by
  rw [Waiting.checkChild, hchild]
  refine ⟨.inr rfl, fun answer => ?_⟩
  match answer with
  | .ok none => trivial
  | .ok (some _) => trivial
  | .error _ => trivial

theorem round_only {wait : Waiting} {child : Nat} (hchild : wait.child = some child) :
    wait.round.Only (Watches child) := by
  refine Prog.Only.bind (checkChild_only hchild) fun checked => ?_
  match checked with
  | .error _ => trivial
  | .ok _ =>
    refine ⟨.inl trivial, fun answer => ?_⟩
    match answer with
    | .ok .reachable => trivial
    | .ok .unavailable =>
      refine ⟨.inl trivial, fun late => ?_⟩
      cases late with
      | true => trivial
      | false => exact ⟨.inl trivial, fun _ => trivial⟩
    | .error _ => trivial

theorem waitForReady_only {wait : Waiting} {child : Nat} (hchild : wait.child = some child) :
    (waitForReady wait).Only (Watches child) := by
  refine Prog.Only.bind (round_only hchild) fun ready => ?_
  cases ready with
  | none => trivial
  | some ready => exact (release_only _ _).mono fun _ => .inl

/-- Another round waits for the same process. -/
theorem waitForReady_waiting {wait wait' : Waiting} {xs : List (Exchange Op Op.Ans)}
    (h : Yields (waitForReady wait) xs (.waiting wait')) : wait' = wait := by
  obtain ⟨first, ready, rest, rfl, -, hrest⟩ := yields_bind.1 h
  cases ready with
  | none =>
    obtain ⟨-, heq⟩ := yields_ret.1 hrest
    exact Startup.waiting.inj heq
  | some ready =>
    obtain ⟨_, _, -, hreturn⟩ := yields_op.1 hrest
    obtain ⟨-, heq⟩ := yields_ret.1 hreturn
    cases heq

/-- One process is started, and from then on only that one is looked at. -/
def StartsOne (child : Nat) (xs : List (Exchange Op Op.Ans)) : Prop :=
  ∃ before target env after, xs = before ++ ⟨.spawnOwnedProcess target env, .ok child⟩ :: after ∧
    (∀ x ∈ before, Neutral x.1) ∧ ∀ x ∈ after, Watches child x.1

/-- No process was started. -/
def StartsNone (xs : List (Exchange Op Op.Ans)) : Prop :=
  ∀ target env child, (⟨.spawnOwnedProcess target env, .ok child⟩ : Exchange Op Op.Ans) ∉ xs

/-- What a blocking startup has exchanged, and what it waits for if it does. -/
def Shape (xs : List (Exchange Op Op.Ans)) (startup : Startup) : Prop :=
  (StartsNone xs ∧ ∀ wait, startup ≠ .waiting wait) ∨
    ∃ child, StartsOne child xs ∧ ∀ wait, startup = .waiting wait → wait.child = some child

theorem startsNone_of_neutral {xs : List (Exchange Op Op.Ans)} (h : ∀ x ∈ xs, Neutral x.1) :
    StartsNone xs :=
  fun _ _ _ hmem => h _ hmem

theorem Shape.prepend {before xs : List (Exchange Op Op.Ans)} {startup : Startup}
    (hbefore : ∀ x ∈ before, Neutral x.1) (h : Shape xs startup) :
    Shape (before ++ xs) startup := by
  rcases h with ⟨hnone, hwait⟩ | ⟨child, ⟨first, target, env, after, rfl, hfirst, hafter⟩, hwait⟩
  · refine .inl ⟨fun target env child hmem => ?_, hwait⟩
    rcases List.mem_append.1 hmem with hmem | hmem
    · exact hbefore _ hmem
    · exact hnone target env child hmem
  · refine .inr ⟨child,
      ⟨before ++ first, target, env, after, by rw [List.append_assoc], ?_, hafter⟩, hwait⟩
    exact List.forall_mem_append.2 ⟨hbefore, hfirst⟩

theorem shape_release {target : WsStartTarget} {outcome : Except ClientError WsServerHandle}
    {xs : List (Exchange Op Op.Ans)} {startup : Startup}
    (h : Yields (release target outcome) xs startup) : Shape xs startup := by
  refine .inl ⟨startsNone_of_neutral (h.only (release_only target outcome)), ?_⟩
  rintro wait rfl
  obtain ⟨_, _, -, hreturn⟩ := yields_op.1 h
  obtain ⟨-, heq⟩ := yields_ret.1 hreturn
  cases heq

theorem shape_startServer {target : WsStartTarget} {env : List (String × String)}
    {authToken : Option String} {xs : List (Exchange Op Op.Ans)} {startup : Startup}
    (h : Yields (startServer target env .blocking authToken) xs startup) : Shape xs startup := by
  obtain ⟨answer, rest, rfl, hrest⟩ := yields_op.1 h
  match answer with
  | .error err =>
    rcases shape_release hrest with ⟨hnone, hwait⟩ | ⟨child, ⟨before, _, _, after, rfl, -⟩, -⟩
    · refine .inl ⟨fun target' env' child hmem => ?_, hwait⟩
      rcases List.mem_cons.1 hmem with heq | hmem
      · cases heq
      · exact hnone target' env' child hmem
    · have honly := hrest.only (release_only target _) _
        (List.mem_append_right _ List.mem_cons_self)
      exact honly.elim
  | .ok child =>
    obtain ⟨deadline, rest', rfl, hready⟩ := yields_op.1 hrest
    have hwatch : ∀ x ∈ rest', Watches child x.1 := hready.only (waitForReady_only rfl)
    refine .inr ⟨child, ⟨[], target, env, _, rfl, nofun, ?_⟩, ?_⟩
    · exact List.forall_mem_cons.2 ⟨.inl trivial, hwatch⟩
    · rintro wait rfl
      rw [waitForReady_waiting hready]

theorem shape_startLocked {target : WsStartTarget} {env : List (String × String)}
    {reuseExisting : Bool} {authToken : Option String} {xs : List (Exchange Op Op.Ans)}
    {startup : Startup}
    (h : Yields (startLocked target env reuseExisting .blocking authToken) xs startup) :
    Shape xs startup := by
  obtain ⟨first, existing, rest, rfl, hexisting, hrest⟩ := yields_bind.1 h
  refine .prepend (hexisting.only (existingServerHandle_only _ _ _ _)) ?_
  match existing with
  | .error err => exact shape_release hrest
  | .ok (some handle) => exact shape_release hrest
  | .ok none => exact shape_startServer hrest

theorem shape_startup {target : WsStartTarget} {env : List (String × String)}
    {reuseExisting : Bool} {authToken : Option String} {xs : List (Exchange Op Op.Ans)}
    {startup : Startup}
    (h : Yields (startWsServerInternal target env reuseExisting .blocking authToken) xs startup) :
    Shape xs startup := by
  obtain ⟨first, existing, rest, rfl, hexisting, hrest⟩ := yields_bind.1 h
  refine .prepend (hexisting.only (existingServerHandle_only _ _ _ _)) ?_
  match existing with
  | .error err =>
    obtain ⟨rfl, rfl⟩ := yields_ret.1 hrest
    exact .inl ⟨nofun, nofun⟩
  | .ok (some handle) =>
    obtain ⟨rfl, rfl⟩ := yields_ret.1 hrest
    exact .inl ⟨nofun, nofun⟩
  | .ok none =>
    obtain ⟨_, rest', rfl, hlocked⟩ := yields_op.1 hrest
    show Shape ([⟨.lock target.listen.lockKey, _⟩] ++ rest') startup
    exact .prepend (List.forall_mem_singleton.2 trivial) (shape_startLocked hlocked)

/-- Further rounds look at the process that is waited for. -/
theorem resume_watches {call : Call} {xs : List (Exchange Op Op.Ans)} {r : Result} {child : Nat}
    {p : DaemonM Result} (h : YieldsAll nextRound p xs r) :
    ∀ {wait : Waiting}, p = call.resume wait → wait.child = some child →
      ∀ x ∈ xs, Watches child x.1 := by
  induction h with
  | done h hr =>
    rintro wait rfl hchild
    exact h.only (Prog.Only.bind (waitForReady_only hchild) fun _ => trivial)
  | again h hr hrest ih =>
    rintro wait rfl hchild
    refine List.forall_mem_append.2
      ⟨h.only (Prog.Only.bind (waitForReady_only hchild) fun _ => trivial), ?_⟩
    obtain ⟨first, startup, rest, rfl, hready, hreturn⟩ := yields_bind.1 h
    obtain ⟨-, rfl⟩ := yields_ret.1 hreturn
    cases startup with
    | done outcome => cases hr
    | waiting wait' =>
      cases hr
      rw [waitForReady_waiting hready] at ih
      exact ih rfl hchild

theorem shape_body {site : Surroundings} {config : WsStartConfig} {xs : List (Exchange Op Op.Ans)}
    {r : Result} (h : Yields (Call.body site (.startWsServer config .blocking)) xs r) :
    ∃ startup, r = Call.conclude (.startWsServer config .blocking) startup ∧ Shape xs startup := by
  rw [Call.body, Call.target] at h
  match hbuild : buildStartTarget site config with
  | .error err =>
    rw [hbuild] at h
    obtain ⟨rfl, rfl⟩ := yields_ret.1 h
    exact ⟨.done (.error err), rfl, .inl ⟨nofun, nofun⟩⟩
  | .ok target =>
    rw [hbuild] at h
    obtain ⟨first, startup, rest, rfl, hstartup, hreturn⟩ := yields_bind.1 h
    obtain ⟨rfl, rfl⟩ := yields_ret.1 hreturn
    refine ⟨startup, rfl, ?_⟩
    rw [List.append_nil]
    exact shape_startup hstartup

/-- The process that was started is the only one. -/
theorem StartsOne.unique {child child' : Nat} {xs : List (Exchange Op Op.Ans)}
    (h : StartsOne child xs) {target : WsStartTarget} {env : List (String × String)}
    (hspawn : (⟨.spawnOwnedProcess target env, .ok child'⟩ : Exchange Op Op.Ans) ∈ xs) :
    child' = child := by
  obtain ⟨before, target', env', after, rfl, hbefore, hafter⟩ := h
  rcases List.mem_append.1 hspawn with hmem | hmem
  · exact (hbefore _ hmem).elim
  rcases List.mem_cons.1 hmem with heq | hmem
  · cases heq
    rfl
  · rcases hafter _ hmem with hneutral | hlook
    · exact hneutral.elim
    · cases hlook

theorem StartsOne.append {child : Nat} {xs ys : List (Exchange Op Op.Ans)}
    (h : StartsOne child xs) (hys : ∀ x ∈ ys, Watches child x.1) : StartsOne child (xs ++ ys) := by
  obtain ⟨before, target, env, after, rfl, hbefore, hafter⟩ := h
  refine ⟨before, target, env, after ++ ys, ?_, hbefore, List.forall_mem_append.2 ⟨hafter, hys⟩⟩
  rw [List.append_assoc, List.cons_append]

/-- **A blocking start** that starts a process starts no other, and afterwards only looks at it. -/
theorem blockingStart_one {site : Surroundings} {config : WsStartConfig}
    {xs : List (Exchange Op Op.Ans)} {outcome : Except ClientError Returned}
    (h : BlockingStart site config xs outcome) {child : Nat} {target : WsStartTarget}
    {env : List (String × String)}
    (hspawn : (⟨.spawnOwnedProcess target env, .ok child⟩ : Exchange Op Op.Ans) ∈ xs) :
    StartsOne child xs := by
  obtain ⟨child', hone⟩ : ∃ child', StartsOne child' xs := by
    cases h with
    | done h hr =>
      obtain ⟨startup, -, ⟨hnone, -⟩ | ⟨child', hone, -⟩⟩ := shape_body h
      · exact (hnone _ _ _ hspawn).elim
      · exact ⟨child', hone⟩
    | @again _ q first rest r _ h hr hrest =>
      obtain ⟨startup, rfl, hshape⟩ := shape_body h
      match startup with
      | .done _ => exact nomatch hr
      | .waiting wait =>
        rcases hshape with ⟨-, hwait⟩ | ⟨child', hone, hwait⟩
        · exact (hwait wait rfl).elim
        · exact ⟨child', hone.append
            (resume_watches hrest (Option.some.inj hr).symm (hwait wait rfl))⟩
  rwa [hone.unique hspawn]

/-! ## What becomes of a process -/

theorem Timeline.append {children children' children'' : Children} {ms ns : List Moment}
    (h : Timeline children ms children') (h' : Timeline children' ns children'') :
    Timeline children (ms ++ ns) children'' := by
  induction h with
  | nil => exact h'
  | cons hstep rest ih => exact .cons hstep (ih h')

/-- A process that has exited stays so. -/
theorem Children.Step.exited {children children' : Children} {moment : Moment}
    (h : Children.Step children moment children') {child : Nat} {status : String}
    (hexited : children child = some (.exited status)) :
    children' child = some (.exited status) := by
  cases h with
  | spawned target env hnone =>
    rwa [Function.update_of_ne]
    rintro rfl
    rw [hnone] at hexited
    cases hexited
  | exits status' hrunning =>
    rwa [Function.update_of_ne]
    rintro rfl
    rw [hrunning] at hexited
    cases hexited
  | stillRunning | hasExited | other => exact hexited

theorem Timeline.exited {children children' : Children} {moments : List Moment}
    (h : Timeline children moments children') {child : Nat} {status : String}
    (hexited : children child = some (.exited status)) :
    children' child = some (.exited status) := by
  induction h with
  | nil => exact hexited
  | cons hstep rest ih => exact ih (hstep.exited hexited)

/-- A look that finds a process exited is right about it, and will be. -/
theorem Timeline.seen {children children' : Children} {moments : List Moment}
    (h : Timeline children moments children') {child : Nat} {status : String}
    (hseen : (⟨.start (.tryWait child), .ok (some status)⟩ : OwnerExchange) ∈ exchangesOf moments) :
    children' child = some (.exited status) := by
  induction h with
  | nil => exact nomatch hseen
  | @cons children _ _ moment moments hstep rest ih =>
    match moment with
    | .exits _ _ => exact ih hseen
    | .exchange x =>
      rcases List.mem_cons.1 hseen with rfl | hseen
      · refine rest.exited (hstep.exited ?_)
        cases hstep with
        | hasExited hexited => exact hexited
        | other hnot => exact (hnot trivial).elim
      · exact ih hseen

/-- The timeline in which nothing happens besides the exchanges. -/
def uneventful (xs : List (Exchange Op Op.Ans)) : List Moment :=
  xs.map fun x => .exchange (ownerExchange x)

theorem exchangesOf_uneventful (xs : List (Exchange Op Op.Ans)) :
    exchangesOf (uneventful xs) = xs.map ownerExchange := by
  rw [exchangesOf, uneventful, List.filterMap_map]
  exact congrFun List.filterMap_eq_map xs

theorem not_ofProcess {x : Exchange Op Op.Ans} (h : Neutral x.1) :
    ¬ OfProcess (ownerExchange x) := by
  obtain ⟨o, a⟩ := x
  match o with
  | .spawnOwnedProcess _ _ | .tryWait _ => exact h.elim
  | .probe _ _ | .lock _ | .unlock _ | .spawnDaemon _ _ | .instantIn _ | .reached _ | .sleep _
  | .serverStep => exact id

theorem timeline_neutral {xs : List (Exchange Op Op.Ans)} (h : ∀ x ∈ xs, Neutral x.1)
    (children : Children) : Timeline children (uneventful xs) children := by
  induction xs with
  | nil => exact .nil children
  | cons x xs ih =>
    obtain ⟨hx, hxs⟩ := List.forall_mem_cons.1 h
    exact .cons (.other (not_ofProcess hx)) (ih hxs)

/-- A process that no look finds exited may be running all the time. -/
theorem timeline_watches {xs : List (Exchange Op Op.Ans)} {child : Nat}
    (h : ∀ x ∈ xs, Watches child x.1)
    (hunseen : ∀ status, (⟨.tryWait child, .ok (some status)⟩ : Exchange Op Op.Ans) ∉ xs)
    {children : Children} (hrunning : children child = some .running) :
    Timeline children (uneventful xs) children := by
  induction xs with
  | nil => exact .nil children
  | cons x xs ih =>
    obtain ⟨hx, hxs⟩ := List.forall_mem_cons.1 h
    refine .cons ?_ (ih hxs fun status hmem => hunseen status (List.mem_cons_of_mem _ hmem))
    obtain ⟨o, answer⟩ := x
    rcases hx with hneutral | rfl
    · exact .other (not_ofProcess hneutral)
    · match answer with
      | .ok none => exact .stillRunning hrunning
      | .ok (some status) => exact (hunseen status List.mem_cons_self).elim
      | .error _ => exact .other id

theorem StartsOne.timeline {child : Nat} {xs : List (Exchange Op Op.Ans)} (h : StartsOne child xs)
    (hunseen : ∀ status, (⟨.tryWait child, .ok (some status)⟩ : Exchange Op Op.Ans) ∉ xs) :
    Timeline (fun _ => none) (uneventful xs)
      (Function.update (fun _ => none) child (some .running)) := by
  obtain ⟨before, target, env, after, rfl, hbefore, hafter⟩ := h
  rw [uneventful, List.map_append, List.map_cons]
  refine (timeline_neutral hbefore _).append (.cons (.spawned target env rfl) ?_)
  refine timeline_watches hafter (fun status hmem => ?_) (Function.update_self _ _ _)
  exact hunseen status (List.mem_append_right _ (List.mem_cons_of_mem _ hmem))

/-- A start sends no signals. -/
theorem not_signalled {xs : List (Exchange Op Op.Ans)} {child : Nat} {moments : List Moment}
    (h : exchangesOf moments = xs.map ownerExchange) : ¬ Signalled child moments := by
  rintro ⟨x, hx, hsignal⟩
  rw [h] at hx
  obtain ⟨y, -, rfl⟩ := List.mem_map.1 hx
  rcases hsignal with ⟨signal, answer, heq⟩ | ⟨answer, heq⟩
  · exact nomatch congrArg Sigma.fst heq
  · exact nomatch congrArg Sigma.fst heq

/-- **A failed blocking start leaves no process behind** exactly when a look at the process has
found that it had exited.  After the other failures it may be running, and nothing has stopped
it. -/
theorem no_orphan_iff {site : Surroundings} {config : WsStartConfig}
    {xs : List (Exchange Op Op.Ans)} {err : ClientError}
    (h : BlockingStart site config xs (.error err)) {child : Nat} {target : WsStartTarget}
    {env : List (String × String)}
    (hspawn : (⟨.spawnOwnedProcess target env, .ok child⟩ : Exchange Op Op.Ans) ∈ xs) :
    NoOrphan xs child ↔
      ∃ status, (⟨.tryWait child, .ok (some status)⟩ : Exchange Op Op.Ans) ∈ xs := by
  constructor
  · intro hno
    by_contra hunseen
    rw [not_exists] at hunseen
    have htimeline := (blockingStart_one h hspawn).timeline hunseen
    rcases hno _ _ _ htimeline (exchangesOf_uneventful xs) with ⟨status, hexited⟩ | hsignal
    · rw [Function.update_self] at hexited
      cases hexited
    · exact not_signalled (exchangesOf_uneventful xs) hsignal
  · rintro ⟨status, hseen⟩ children moments children' htimeline heq
    refine .inl ⟨status, htimeline.seen ?_⟩
    rw [heq]
    exact List.mem_map_of_mem hseen

/-- A local endpoint. -/
def loopbackSite : Surroundings where
  parseUrl _ := .ok ⟨"ws", some (.ipv4 .localhost), some 4222⟩
  tempDir := "/tmp"

def loopbackConfig : WsStartConfig :=
  ⟨"ws://127.0.0.1:4222", "ws://127.0.0.1:4222", [], true⟩

def loopbackTarget : WsStartTarget :=
  ⟨"ws://127.0.0.1:4222", "ws://127.0.0.1:4222", ⟨.ipv4 .localhost, 4222⟩,
    WsTarget.logPath loopbackSite ⟨.ipv4 .localhost, 4222⟩⟩

/-- No server is found, and one is started. -/
def launch : List (Exchange Op Op.Ans) :=
  [⟨.probe "ws://127.0.0.1:4222" none, .ok .unavailable⟩, ⟨.lock ("127.0.0.1", 4222), ()⟩,
    ⟨.probe "ws://127.0.0.1:4222" none, .ok .unavailable⟩,
    ⟨.spawnOwnedProcess loopbackTarget [], .ok 7⟩, ⟨.instantIn startupTimeout, 0⟩]

/-- The server refuses the handshake of the probe. -/
def refusing : List (Exchange Op Op.Ans) := launch ++
  [⟨.tryWait 7, .ok none⟩, ⟨.probe "ws://127.0.0.1:4222" none, .error "HTTP 426"⟩,
    ⟨.unlock ("127.0.0.1", 4222), ()⟩]

/-- The server exits at once. -/
def exiting : List (Exchange Op Op.Ans) := launch ++
  [⟨.tryWait 7, .ok (some "exit status: 1")⟩, ⟨.unlock ("127.0.0.1", 4222), ()⟩]

theorem refusing_start : ∃ err, BlockingStart loopbackSite loopbackConfig refusing (.error err) :=
  ⟨_, .done (.answered rfl _ <| .answered rfl _ <| .answered rfl _ <| .answered rfl _ <|
    .answered rfl _ <| .answered rfl _ <| .answered rfl _ <| .answered rfl _ <| .ret _) rfl⟩

theorem exiting_start : ∃ err, BlockingStart loopbackSite loopbackConfig exiting (.error err) :=
  ⟨_, .done (.answered rfl _ <| .answered rfl _ <| .answered rfl _ <| .answered rfl _ <|
    .answered rfl _ <| .answered rfl _ <| .answered rfl _ <| .ret _) rfl⟩

/-- The probe of a start fails, and its process goes on running. -/
theorem orphan_after_refusal :
    ¬ ∀ (site : Surroundings) (config : WsStartConfig) (xs : List (Exchange Op Op.Ans))
      (err : ClientError) (child : Nat) (target : WsStartTarget) (env : List (String × String)),
      BlockingStart site config xs (.error err) →
      (⟨.spawnOwnedProcess target env, .ok child⟩ : Exchange Op Op.Ans) ∈ xs →
      NoOrphan xs child := by
  intro h
  obtain ⟨err, hstart⟩ := refusing_start
  have hspawn : (⟨.spawnOwnedProcess loopbackTarget [], .ok 7⟩ : Exchange Op Op.Ans) ∈ refusing :=
    by simp [refusing, launch]
  have htimeline : Timeline _ (uneventful refusing) _ :=
    (blockingStart_one hstart hspawn).timeline fun status => by simp [refusing, launch]
  rcases h _ _ _ _ _ _ _ hstart hspawn _ _ _ htimeline (exchangesOf_uneventful _) with
    ⟨status, hexited⟩ | hsignal
  · rw [Function.update_self] at hexited
    cases hexited
  · exact not_signalled (exchangesOf_uneventful _) hsignal

theorem no_orphan_exiting : NoOrphan exiting 7 ↔
    ∃ status, (⟨.tryWait 7, .ok (some status)⟩ : Exchange Op Op.Ans) ∈ exiting := by
  obtain ⟨err, hstart⟩ := exiting_start
  have hspawn : (⟨.spawnOwnedProcess loopbackTarget [], .ok 7⟩ : Exchange Op Op.Ans) ∈ exiting := by
    simp [exiting, launch]
  exact no_orphan_iff hstart hspawn

end WsDaemon
end CodexSdk

import CodexSdk.Interleave.Solo
import CodexSdk.Transport.Startup

/-!
# Every startup comes to its end

The other half of `CodexSdk.Transport.Startup`: a call that waits for the startup lock waits for a
call that can be brought to its end, once the server it has started has come up.  With that,
`at_most_one_server` is what callers can count on.
-/

set_option autoImplicit false

namespace CodexSdk
namespace WsDaemon

open Interleave

/-! ## The startup locks -/

/-- Taking and releasing locks; the state says which are held. -/
def lockStep (held : LockKey → Bool) : Op → Option (LockKey → Bool)
  | .lock key => if held key then none else some (Function.update held key true)
  | .unlock key => if held key then some (Function.update held key false) else none
  | _ => some held

def noLock : LockKey → Bool := fun _ => false

def onlyLock (key : LockKey) : LockKey → Bool := Function.update noLock key true

/-- The locks `t` holds. -/
def locksOf (t : Tid) (s : Servers) : LockKey → Bool := fun key => decide (s.locks key = some t)

/-- What a startup holds when it comes to this. -/
def Startup.Holds : Startup → (LockKey → Bool) → Prop
  | .done _, held => held = noLock
  | .waiting wait, held => held = onlyLock wait.target.listen.lockKey

/-- What a task holds at the end of its round. -/
def Result.Holds (t : Tid) : Result → (LockKey → Bool) → Prop
  | .returned _ _, held => held = noLock
  | .waiting _ wait, held => held = onlyLock wait.target.listen.lockKey
  | .host, held => t = .host ∧ held = noLock

/-- The operations that leave the locks alone. -/
def Op.LockFree : Op → Prop
  | .lock _ | .unlock _ => False
  | _ => True

section

variable {site : Surroundings} {endpoint : String → LockKey} {t : Tid} {α : Type}

theorem lockStep_of_lockFree {o : Op} (ho : o.LockFree) (held : LockKey → Bool) :
    lockStep held o = some held := by
  cases o <;> first | rfl | exact ho.elim

theorem follows_op {Q : α → (LockKey → Bool) → Prop} {o : Op} {k : o.Ans → DaemonM α}
    {held : LockKey → Bool} (ho : o.LockFree) (hk : ∀ a, (k a).Follows lockStep Q held) :
    (perform o >>= k).Follows lockStep Q held :=
  Prog.Follows.op (lockStep_of_lockFree ho held) hk

theorem follows_release (target : WsStartTarget) (outcome : Except ClientError WsServerHandle) :
    (release target outcome).Follows lockStep Startup.Holds (onlyLock target.listen.lockKey) := by
  have hstep : lockStep (onlyLock target.listen.lockKey) (.unlock target.listen.lockKey) =
      some noLock := by
    rw [lockStep, if_pos (by simp [onlyLock])]
    refine congrArg some (funext fun key => ?_)
    simp [onlyLock, noLock, Function.update_apply]
  exact Prog.Follows.op hstep fun _ => rfl

theorem follows_existing (target : WsStartTarget) (reuse : Bool) (mode : WsStartMode)
    (authToken : Option String) (held : LockKey → Bool) :
    (existingServerHandle target reuse mode authToken).Follows lockStep
      (fun _ held' => held' = held) held := by
  refine follows_op trivial fun a => ?_
  match a with
  | .ok .reachable | .ok .unavailable => rfl
  | .error _ => rfl

theorem follows_checkChild (wait : Waiting) (held : LockKey → Bool) :
    wait.checkChild.Follows lockStep (fun _ held' => held' = held) held := by
  rw [Waiting.checkChild]
  cases wait.child with
  | none => rfl
  | some child =>
    refine follows_op trivial fun a => ?_
    rcases a with _ | (_ | _)
    · rfl
    · rfl
    · rfl

theorem follows_round (wait : Waiting) (held : LockKey → Bool) :
    wait.round.Follows lockStep (fun _ held' => held' = held) held := by
  refine Prog.Follows.bind ((follows_checkChild wait held).mono ?_)
  rintro (err | _) _ rfl
  · rfl
  · refine follows_op trivial fun a => ?_
    match a with
    | .ok .reachable => rfl
    | .error _ => rfl
    | .ok .unavailable =>
      refine follows_op trivial fun late => ?_
      cases late with
      | true => rfl
      | false => exact follows_op trivial fun _ => rfl

theorem follows_waitForReady (wait : Waiting) :
    (waitForReady wait).Follows lockStep Startup.Holds (onlyLock wait.target.listen.lockKey) := by
  refine Prog.Follows.bind ((follows_round wait _).mono ?_)
  rintro (_ | ready) _ rfl
  · rfl
  · exact follows_release _ _

theorem follows_startServer (target : WsStartTarget) (env : List (String × String))
    (mode : WsStartMode) (authToken : Option String) :
    (startServer target env mode authToken).Follows lockStep Startup.Holds
      (onlyLock target.listen.lockKey) := by
  cases mode with
  | daemon =>
    refine follows_op trivial fun a => ?_
    match a with
    | .error _ => exact follows_release _ _
    | .ok _ => exact follows_op trivial fun deadline => follows_waitForReady _
  | blocking =>
    refine follows_op trivial fun a => ?_
    match a with
    | .error _ => exact follows_release _ _
    | .ok _ => exact follows_op trivial fun deadline => follows_waitForReady _

theorem follows_startWsServerInternal (target : WsStartTarget) (env : List (String × String))
    (reuse : Bool) (mode : WsStartMode) (authToken : Option String) :
    (startWsServerInternal target env reuse mode authToken).Follows lockStep Startup.Holds
      noLock := by
  refine Prog.Follows.bind ((follows_existing target reuse mode authToken noLock).mono ?_)
  rintro (err | (_ | handle)) _ rfl
  · rfl
  · have hstep : lockStep noLock (.lock target.listen.lockKey) =
        some (onlyLock target.listen.lockKey) := rfl
    refine Prog.Follows.op hstep fun _ => ?_
    refine Prog.Follows.bind ((follows_existing target reuse mode authToken _).mono ?_)
    rintro (err | (_ | handle)) _ rfl
    · exact follows_release _ _
    · exact follows_startServer _ _ _ _
    · exact follows_release _ _
  · rfl

theorem holds_conclude {call : Call} {startup : Startup} {held : LockKey → Bool}
    (h : startup.Holds held) : (call.conclude startup).Holds t held := by
  cases startup with
  | done outcome => exact h
  | waiting wait => exact h

theorem follows_body (t : Tid) (call : Call) :
    (call.body site).Follows lockStep (Result.Holds t) noLock := by
  rw [Call.body]
  rcases call.target site with err | (_ | target)
  · rfl
  · rfl
  · refine Prog.Follows.bind (Prog.Follows.mono ?_ fun startup held h => holds_conclude h)
    cases call with
    | startWsServer config mode => exact follows_startWsServerInternal _ _ _ _ _
    | ensureLocalWsAppServer url env authToken => exact follows_startWsServerInternal _ _ _ _ _

theorem follows_resume (t : Tid) (call : Call) (wait : Waiting) :
    (call.resume wait).Follows lockStep (Result.Holds t) (onlyLock wait.target.listen.lockKey) :=
  Prog.Follows.bind ((follows_waitForReady wait).mono fun _ _ h => holds_conclude h)

theorem follows_hostRound : hostRound.Follows lockStep (Result.Holds .host) noLock :=
  follows_op trivial fun _ => ⟨rfl, rfl⟩

/-! ## All runs -/

/-- Nothing else touches the locks. -/
theorem exec_locks {o : Op} {ch : Choice} {a : o.Ans} {s s' : Servers} (ho : o.LockFree)
    (h : exec endpoint t o ch s = some (a, s')) : s'.locks = s.locks := by
  cases o with
  | lock | unlock => exact ho.elim
  | spawnDaemon | spawnOwnedProcess | tryWait | instantIn | reached =>
    cases ch <;> cases h <;> rfl
  | serverStep =>
    cases ch with
    | comesUp pid =>
      rw [exec] at h
      split at h <;> cases h
      rfl
    | stops key => cases h; rfl
    | proceed | refuse | exited | clock => cases h
  | _ => cases h; rfl

theorem exec_lock {key : LockKey} {ch : Choice} {a : Unit} {s s' : Servers}
    (h : exec endpoint t (.lock key) ch s = some (a, s')) :
    s.locks key = none ∧ s'.locks = Function.update s.locks key (some t) := by
  rw [exec] at h
  split at h
  · rename_i hfree
    cases h
    exact ⟨hfree, rfl⟩
  · cases h

/-- An operation moves the locks of the task that performs it, and nobody else's. -/
theorem exec_locksOf {o : Op} {ch : Choice} {a : o.Ans} {s s' : Servers} {held : LockKey → Bool}
    (hx : exec endpoint t o ch s = some (a, s')) (hq : lockStep (locksOf t s) o = some held)
    (u : Tid) : locksOf u s' = if u = t then held else locksOf u s := by
  by_cases ho : o.LockFree
  · rw [lockStep_of_lockFree ho] at hq
    cases hq
    have hsame : locksOf u s' = locksOf u s := by
      unfold locksOf
      rw [exec_locks ho hx]
    rw [hsame]
    split
    · rename_i heq
      rw [heq]
    · rfl
  · cases o with
    | lock key =>
      rw [lockStep] at hq
      split at hq <;> cases hq
      obtain ⟨hfree, hlocks⟩ := exec_lock hx
      refine funext fun k => ?_
      rw [locksOf, hlocks]
      by_cases hk : k = key
      · subst hk
        by_cases hu : u = t
        · simp [hu]
        · simp [hu, Ne.symm hu, locksOf, hfree]
      · by_cases hu : u = t
        · simp [hu, Function.update_of_ne hk, locksOf]
        · simp [hu, Function.update_of_ne hk, locksOf]
    | unlock key =>
      rw [lockStep] at hq
      split at hq
      · rename_i hheld
        have hlock : s.locks key = some t := by simpa [locksOf] using hheld
        cases hq
        cases hx
        refine funext fun k => ?_
        by_cases hk : k = key
        · subst hk
          by_cases hu : u = t
          · simp [hu, locksOf]
          · simp [hu, Ne.symm hu, locksOf, hlock]
        · by_cases hu : u = t
          · simp [hu, Function.update_of_ne hk, locksOf]
          · simp [hu, Function.update_of_ne hk, locksOf]
      · cases hq
    | _ => exact absurd trivial ho

theorem cancel_locksOf (t u : Tid) (s : Servers) :
    locksOf u (cancel t s) = if u = t then noLock else locksOf u s := by
  refine funext fun k => ?_
  change decide ((if s.locks k = some t then none else s.locks k) = some u) = _
  by_cases hlock : s.locks k = some t
  · by_cases hu : u = t
    · simp [hlock, hu, noLock]
    · simp [hlock, hu, Ne.symm hu, locksOf]
  · by_cases hu : u = t
    · simp [hlock, hu, noLock]
    · simp [hlock, hu, locksOf]

/-- A task's own operations move its locks, and nobody else's. -/
theorem daemons_disciplined (site : Surroundings) (endpoint : String → LockKey) :
    Disciplined (daemons site endpoint) lockStep locksOf noLock Result.Holds where
  own hx hq := (exec_locksOf hx hq _).trans (if_pos rfl)
  other hu hx hq := (exec_locksOf hx hq _).trans (if_neg hu)
  cancel_own t s := (cancel_locksOf t t s).trans (if_pos rfl)
  cancel_other s hu := (cancel_locksOf _ _ s).trans (if_neg hu)
  body t call := follows_body t call
  restart := by
    intro t r p held hres hheld
    cases r with
    | returned => cases t <;> cases hres
    | waiting call wait =>
      obtain rfl : call.resume wait = p := by cases t <;> exact Option.some.inj hres
      cases hheld
      exact follows_resume t call wait
    | host =>
      obtain ⟨rfl, rfl⟩ := hheld
      obtain rfl : hostRound = p := Option.some.inj hres
      exact follows_hostRound

theorem following_start (running : LockKey → Bool) :
    Following lockStep locksOf noLock Result.Holds (DaemonConfig.start running) where
  live := by
    intro t p ht
    cases t with
    | caller n => cases ht
    | host => cases ht; exact follows_hostRound
  idle _ _ := rfl

/-! ## Bringing a call to its end -/

/-- Nobody else holds a lock. -/
def Unimpeded (t : Tid) (s : Servers) : Prop := ∀ key, s.locks key = none ∨ s.locks key = some t

/-- A task that keeps to its locks and is not kept from one can go on. -/
theorem unimpeded_exec {o : Op} {held : LockKey → Bool} {s : Servers} (hs : Unimpeded t s)
    (hq : lockStep (locksOf t s) o = some held) :
    ∃ ch a s', exec endpoint t o ch s = some (a, s') ∧ Unimpeded t s' ∧ Timely o a := by
  have hquiet : o.LockFree → ∀ ch a s', exec endpoint t o ch s = some (a, s') → Unimpeded t s' := by
    intro ho ch a s' hx
    rw [Unimpeded, exec_locks ho hx]
    exact hs
  cases o with
  | lock key =>
    have hfree : s.locks key = none := by
      refine (hs key).resolve_right fun hheld => ?_
      rw [lockStep, if_pos (by simp [locksOf, hheld])] at hq
      cases hq
    refine ⟨.proceed, (), { s with locks := Function.update s.locks key (some t) }, ?_, ?_, trivial⟩
    · simp [exec, hfree]
    · intro k
      by_cases hk : k = key
      · exact .inr (by simp [hk])
      · simpa [Function.update_of_ne hk] using hs k
  | unlock key =>
    refine ⟨.proceed, (), _, rfl, fun k => ?_, trivial⟩
    by_cases hk : k = key
    · exact .inl (by simp [hk])
    · simpa [Function.update_of_ne hk] using hs k
  | instantIn timeout => exact ⟨.clock 0, _, _, rfl, hquiet trivial (.clock 0) _ _ rfl, trivial⟩
  | reached deadline =>
    have hx : exec endpoint t (.reached deadline) (.clock (deadline - 1)) s = some (false, s) := by
      have hlate : ¬ deadline ≤ deadline - 1 := by omega
      rw [exec, decide_eq_false hlate]
    exact ⟨_, _, _, hx, hquiet trivial _ _ _ hx, rfl⟩
  | tryWait child => exact ⟨.proceed, _, _, rfl, hquiet trivial .proceed _ _ rfl, rfl⟩
  | serverStep =>
    exact ⟨.stops ("", 0), _, _, rfl, hquiet trivial (.stops ("", 0)) _ _ rfl, trivial⟩
  | _ => exact ⟨.proceed, _, _, rfl, hquiet trivial .proceed _ _ rfl, trivial⟩

theorem settle_resume (t : Tid) (call : Call) (wait : Waiting) :
    (daemons site endpoint).settle t (call.resume wait) = call.resume wait := by
  obtain ⟨target, child, authToken, deadline⟩ := wait
  cases child <;> rfl

theorem start_settled (running : LockKey → Bool) :
    ∀ t p, (DaemonConfig.start running).tasks t = .live p →
      ∃ q, p = (daemons site endpoint).settle t q := by
  intro t p ht
  cases t with
  | caller n => cases ht
  | host => cases ht; exact ⟨hostRound, rfl⟩

/-- A call that waits for a server that is up is about to return. -/
theorem performs_waitForReady (site : Surroundings) (t : Tid) (calls : Call → Prop)
    {wait : Waiting} {s : Servers}
    (hacc : s.accepting (endpoint wait.target.connectUrl) = true) :
    ∃ new, Performs (daemons site endpoint) t (.ret (.done (.ok wait.handle)))
      { s with locks := Function.update s.locks wait.target.listen.lockKey none }
      (waitForReady wait) s new ∧ ∀ w, ∀ e ∈ new, made calls w e := by
  obtain ⟨target, child, authToken, deadline⟩ := wait
  have hprobe : (daemons site endpoint).exec t (.probe target.connectUrl authToken) .proceed s =
      some (.ok .reachable, s) := by
    change exec endpoint t (.probe target.connectUrl authToken) .proceed s = _
    rw [exec, Servers.probeState, if_pos hacc]
  have hunlock : (daemons site endpoint).exec t (.unlock target.listen.lockKey) .proceed s =
      some ((), { s with locks := Function.update s.locks target.listen.lockKey none }) := rfl
  cases child with
  | none => exact ⟨_, .op hprobe (.op hunlock .refl), by simp [made, Timely]⟩
  | some child =>
    have hchild : (daemons site endpoint).exec t (.tryWait child) .proceed s =
        some (.ok none, s) := rfl
    exact ⟨_, .op hchild (.op hprobe (.op hunlock .refl)), by simp [made, Timely]⟩

variable {calls : Call → Prop} {running : LockKey → Bool} {key : LockKey} {c : DaemonConfig}
  {p : DaemonM Result}

/-- The machine is always there. -/
theorem host_live (hr : (daemons site endpoint).Run (made calls) (DaemonConfig.start running) c) :
    c.tasks .host = .live hostRound := by
  induction hr with
  | init => rfl
  | @step c c' e _ hs hl ih =>
    by_cases he : .host = e.tid
    · cases hs with
      | @spawn t call habs =>
        obtain rfl : .host = t := he
        rw [ih] at habs
        cases habs
      | @op t o k ch a s ht hx =>
        obtain rfl : .host = t := he
        rw [ih] at ht
        cases ht
        simp only [Function.update_self]
        rfl
      | drop => exact hl.elim
    · exact (hs.tasks_ne he).trans ih

theorem live_settled (hr : (daemons site endpoint).Run (made calls) (DaemonConfig.start running) c)
    (ht : c.tasks t = .live p) : (daemons site endpoint).settle t p = p := by
  obtain ⟨q, rfl⟩ := hr.settled (start_settled running) t p ht
  refine Machine.settle_settle (fun t r p hres => ?_) t q
  cases r with
  | returned => cases t <;> cases hres
  | waiting call wait =>
    obtain rfl : call.resume wait = p := by cases t <;> exact Option.some.inj hres
    exact settle_resume t call wait
  | host =>
    cases t with
    | caller n => cases hres
    | host =>
      obtain rfl : hostRound = p := Option.some.inj hres
      rfl

variable (hfor : ∀ call, calls call → call.For site endpoint key)

include hfor in
/-- Whoever is not kept from a lock can be brought to the end of its round. -/
theorem finish_round
    (hr : (daemons site endpoint).Run (made calls) (DaemonConfig.start running) c)
    (ht : c.tasks t = .live p) (hs : Unimpeded t c.world.shared) :
    ∃ c' r, (daemons site endpoint).Run (made calls) c c' ∧
      c'.tasks t = .live ((daemons site endpoint).settle t (.ret r)) ∧
      startupPost endpoint calls running key t r c'.world ∧
      r.Holds t (locksOf t c'.world.shared) ∧ Unimpeded t c'.world.shared ∧
      ∀ u, u ≠ t → c'.tasks u = c.tasks u := by
  have hproved := (oneServer_outline hfor).run oneServer_start hr
  have hfollowing := (daemons_disciplined site endpoint).run (following_start running) hr
  have hlaw : ∀ w o a, Timely o a → made calls w (.op t o a) := fun _ _ _ ha => ha
  obtain ⟨c', r, new, hrun, hperf, htrace, ht', hheld, hfree, hnew, hothers⟩ :=
    (daemons_disciplined site endpoint).finish_run unimpeded_exec hlaw hfollowing ht
      (live_settled hr ht) hs
  have hmade : ∀ w, ∀ e ∈ new, made calls w e := by
    intro w e he
    obtain ⟨o, a, rfl, ha⟩ := hnew e he
    exact ha
  have hpost := (hperf.safe hmade rfl (hproved.live t _ ht) hproved.inv).1
  rw [← htrace] at hpost
  exact ⟨c', r, hrun, ht', hpost, hheld, hfree, hothers⟩

/-- What a server does some time after it has been started. -/
theorem bring_up (hr : (daemons site endpoint).Run (made calls) (DaemonConfig.start running) c)
    {q : Process} (hpid : q.pid < c.world.shared.spawned.length) :
    ∃ c', (daemons site endpoint).Run (made calls) c c' ∧
      c'.world.shared = { c.world.shared with up := Function.update c.world.shared.up q.pid true } ∧
      ∀ u, c'.tasks u = c.tasks u := by
  obtain ⟨s, hs, hx⟩ : ∃ s : Servers,
      s = { c.world.shared with up := Function.update c.world.shared.up q.pid true } ∧
      (daemons site endpoint).exec .host .serverStep (.comesUp q.pid) c.world.shared =
        some ((), s) := ⟨_, rfl, if_pos hpid⟩
  refine ⟨_, .step .init (.op (host_live hr) hx) trivial, hs, fun u => ?_⟩
  by_cases hu : u = .host
  · subst hu
    rw [host_live hr]
    simp only [Function.update_self]
    rfl
  · exact Function.update_of_ne hu _ _

include hfor in
/-- **A call that is not kept from the lock** can be brought to return. -/
theorem bring_back
    (hr : (daemons site endpoint).Run (made calls) (DaemonConfig.start running) c) {n : Nat}
    (ht : c.tasks (.caller n) = .live p) (hs : Unimpeded (.caller n) c.world.shared) :
    ∃ c' call outcome, (daemons site endpoint).Run (made calls) c c' ∧
      c'.tasks (.caller n) = .live (.ret (.returned call outcome)) ∧
      (∀ k, c'.world.shared.locks k = none) ∧
      ∀ m, m ≠ n → c'.tasks (.caller m) = c.tasks (.caller m) := by
  obtain ⟨c₁, r, hrun₁, ht₁, hpost, hheld, hfree, hothers₁⟩ := finish_round hfor hr ht hs
  cases r with
  | host =>
    obtain ⟨hhost, -⟩ := hheld
    cases hhost
  | returned call outcome =>
    refine ⟨c₁, call, outcome, hrun₁, ht₁, fun k => ?_, fun m hm => hothers₁ _ (by simpa using hm)⟩
    refine (hfree k).resolve_right fun hlock => ?_
    have hnone : locksOf (.caller n) c₁.world.shared k = noLock k := congrFun hheld k
    simp [locksOf, noLock, hlock] at hnone
  | waiting call wait =>
    -- the server comes up, and the call goes around the loop once more
    obtain ⟨-, hawaits⟩ := hpost
    have hr₁ := hr.trans hrun₁
    have hsound : Sound running key c₁.world.shared :=
      ((oneServer_outline hfor).run oneServer_start hr₁).inv.1
    obtain ⟨q, hq, -⟩ := hawaits.started
    obtain ⟨c₂, hrun₂, hshared, htasks⟩ := bring_up hr₁ (hsound.pids q hq)
    have hacc : c₂.world.shared.accepting (endpoint wait.target.connectUrl) = true := by
      rw [hshared, hawaits.connects, Servers.accepting, Bool.or_eq_true, List.any_eq_true]
      exact .inr ⟨q, hq, by simp [hsound.keys q hq]⟩
    obtain ⟨new, hwait, hmade⟩ := performs_waitForReady site (.caller n) calls hacc
    have hperf : Performs (daemons site endpoint) (.caller n)
        (.ret (call.conclude (.done (.ok wait.handle)))) _ (call.resume wait) c₂.world.shared new :=
      hwait.bind fun startup => return call.conclude startup
    have ht₂ : c₂.tasks (.caller n) =
        .live ((daemons site endpoint).settle (.caller n) (call.resume wait)) := by
      rw [htasks, ht₁, settle_resume]
      rfl
    obtain ⟨c₃, hrun₃, hw₃, ht₃, hothers₃⟩ := hperf.run hmade ht₂
    refine ⟨c₃, call, _, (hrun₁.trans hrun₂).trans hrun₃, ht₃, fun k => ?_, fun m hm => ?_⟩
    · rw [hw₃, hshared]
      by_cases hk : k = key
      · simp [hk, hawaits.listens]
      · show Function.update c₁.world.shared.locks wait.target.listen.lockKey none k = none
        rw [hawaits.listens, Function.update_of_ne hk]
        exact hsound.locks k hk
    · have hne : Tid.caller m ≠ .caller n := by simpa using hm
      rw [hothers₃ _ hne, htasks, hothers₁ _ hne]

/-- The machine holds no lock. -/
theorem host_lockFree
    (hr : (daemons site endpoint).Run (made calls) (DaemonConfig.start running) c) (k : LockKey) :
    c.world.shared.locks k ≠ some .host := by
  have hfollow := ((daemons_disciplined site endpoint).run (following_start running) hr).live
    .host _ (host_live hr)
  obtain ⟨held, hq, hround⟩ := hfollow
  obtain ⟨-, hheld⟩ := hround ()
  intro hlock
  have hnone : locksOf .host c.world.shared k = noLock k :=
    congrFun ((Option.some.inj hq).trans hheld) k
  simp [locksOf, noLock, hlock] at hnone

include hfor in
/-- **Every call can be brought to return.** -/
theorem call_returns
    (hr : (daemons site endpoint).Run (made calls) (DaemonConfig.start running) c) {n : Nat}
    (ht : c.tasks (.caller n) = .live p) :
    ∃ c' call outcome, (daemons site endpoint).Run (made calls) c c' ∧
      c'.tasks (.caller n) = .live (.ret (.returned call outcome)) := by
  have hsound : Sound running key c.world.shared :=
    ((oneServer_outline hfor).run oneServer_start hr).inv.1
  have hunimpeded : ∀ t, c.world.shared.locks key = none ∨ c.world.shared.locks key = some t →
      Unimpeded t c.world.shared := by
    intro t hlock k
    by_cases hk : k = key
    · rwa [hk]
    · exact .inl (hsound.locks k hk)
  by_cases hother : ∃ m, m ≠ n ∧ c.world.shared.locks key = some (.caller m)
  · -- the holder of the lock first
    obtain ⟨m, hm, hlock⟩ := hother
    obtain ⟨q, hq⟩ : ∃ q, c.tasks (.caller m) = .live q := by
      by_contra hno
      have hidle := ((daemons_disciplined site endpoint).run (following_start running) hr).idle
        (.caller m) (not_exists.1 hno)
      have hnone : locksOf (.caller m) c.world.shared key = noLock key := congrFun hidle key
      simp [locksOf, noLock, hlock] at hnone
    obtain ⟨c₁, -, -, hrun₁, -, hfree, hothers⟩ := bring_back hfor hr hq (hunimpeded _ (.inr hlock))
    have ht₁ : c₁.tasks (.caller n) = .live p := (hothers n hm.symm).trans ht
    obtain ⟨c₂, call, outcome, hrun₂, ht₂, -⟩ :=
      bring_back hfor (hr.trans hrun₁) ht₁ fun k => .inl (hfree k)
    exact ⟨c₂, call, outcome, hrun₁.trans hrun₂, ht₂⟩
  · have hlock : c.world.shared.locks key = none ∨ c.world.shared.locks key = some (.caller n) := by
      cases hl : c.world.shared.locks key with
      | none => exact .inl rfl
      | some u =>
        cases u with
        | host => exact absurd hl (host_lockFree hr key)
        | caller m =>
          by_cases hm : m = n
          · exact .inr (hm ▸ rfl)
          · exact absurd ⟨m, hm, hl⟩ hother
    obtain ⟨c', call, outcome, hrun, hret, -⟩ := bring_back hfor hr ht (hunimpeded _ hlock)
    exact ⟨c', call, outcome, hrun, hret⟩

/-! ## The main result -/

/-- No call is dropped. -/
theorem not_dropped
    (hr : (daemons site endpoint).Run (made calls) (DaemonConfig.start running) c) (t : Tid) :
    c.tasks t ≠ .dropped := by
  induction hr with
  | init => cases t <;> simp [DaemonConfig.start]
  | @step c c' e _ hs hl ih =>
    by_cases hte : t = e.tid
    · subst hte
      cases hs with
      | spawn => simp [Event.tid]
      | op => simp [Event.tid]
      | drop => exact hl.elim
    · rwa [hs.tasks_ne hte]

include hfor in
/-- A process has been started by a call. -/
theorem parent_live
    (hr : (daemons site endpoint).Run (made calls) (DaemonConfig.start running) c) {q : Process}
    (hq : q ∈ c.world.shared.spawned) :
    ∃ n p, q.parent = .caller n ∧ c.tasks (.caller n) = .live p := by
  have hproved := (oneServer_outline hfor).run oneServer_start hr
  obtain ⟨e, he, hparent⟩ := hproved.inv.2 q hq
  cases hcaller : q.parent with
  | host =>
    -- the machine, asked at its next step
    have hsafe := hproved.live .host _ (host_live hr) c.world (Onwards.refl key .host c.world)
      hproved.inv (.stops key) () _ rfl trivial
    exact absurd ⟨q, hq, hcaller⟩ hsafe.2
  | caller n =>
    rw [hcaller] at hparent
    cases ht : c.tasks (.caller n) with
    | absent => exact absurd hparent (hproved.absent _ ht e he)
    | live p => exact ⟨n, p, rfl, ht⟩
    | dropped => exact absurd ht (not_dropped hr _)

/-- The call has returned. -/
def CallReturned (c : DaemonConfig) (n : Nat) (call : Call)
    (outcome : Except ClientError Returned) : Prop :=
  c.tasks (.caller n) = .live (.ret (.returned call outcome))

include hfor in
/-- What is known of a call that has returned. -/
theorem returned_post
    (hr : (daemons site endpoint).Run (made calls) (DaemonConfig.start running) c) {n : Nat}
    {call : Call} {outcome : Except ClientError Returned} (h : CallReturned c n call outcome) :
    calls call ∧ ∃ started, outcome = call.keep <$> started ∧
      Concluded running key (.caller n) call.reuseExisting c.world started :=
  ((oneServer_outline hfor).run oneServer_start hr).returned h

include hfor in
/-- Of two calls that have started a process there is only one. -/
theorem started_unique
    (hr : (daemons site endpoint).Run (made calls) (DaemonConfig.start running) c) {n n' : Nat}
    (h : Started (.caller n) c.world.shared) (h' : Started (.caller n') c.world.shared) :
    n = n' := by
  have hsound : Sound running key c.world.shared :=
    ((oneServer_outline hfor).run oneServer_start hr).inv.1
  obtain ⟨q, hq, hparent⟩ := h
  obtain ⟨q', hq', hparent'⟩ := h'
  rw [hsound.eq hq hq', hparent'] at hparent
  exact (Tid.caller.inj hparent).symm

include hfor in
/-- A call that reuses servers succeeds, unless its process could not be started. -/
theorem reusing_succeeds
    (hr : (daemons site endpoint).Run (made calls) (DaemonConfig.start running) c)
    (hreuse : ∀ call, calls call → call.reuseExisting = true) {n : Nat} {call : Call}
    {outcome : Except ClientError Returned} (h : CallReturned c n call outcome) :
    (∃ returned, outcome = .ok returned) ∨ Refused (.caller n) c.world.trace := by
  obtain ⟨hcall, started, rfl, hdone⟩ := returned_post hfor hr h
  cases started with
  | ok handle => exact .inl ⟨_, rfl⟩
  | error err => exact .inr (hdone.2 (hreuse call hcall))

include hfor in
/-- The handle of a call says whether it has started a process. -/
theorem handle_started
    (hr : (daemons site endpoint).Run (made calls) (DaemonConfig.start running) c) {n : Nat}
    {call : Call} {handle : WsServerHandle}
    (h : CallReturned c n call (.ok (.handle handle))) :
    handle.startedNewProcess = true ↔ Started (.caller n) c.world.shared := by
  obtain ⟨-, started, heq, hdone⟩ := returned_post hfor hr h
  cases started with
  | error err => cases heq
  | ok handle' =>
    obtain rfl : handle = handle' := by
      cases call <;> cases heq
      rfl
    exact hdone.2.1

include hfor in
/-- When no server was running, a success means that some call has started one. -/
theorem some_started
    (hr : (daemons site endpoint).Run (made calls) (DaemonConfig.start running) c)
    (hrunning : running key = false) {n : Nat} {call : Call} {returned : Returned}
    (h : CallReturned c n call (.ok returned)) :
    ∃ m p, c.tasks (.caller m) = .live p ∧ Started (.caller m) c.world.shared := by
  obtain ⟨-, started, heq, hdone⟩ := returned_post hfor hr h
  cases started with
  | error err => cases heq
  | ok handle =>
    obtain ⟨q, hq⟩ := hdone.1.resolve_left (by simp [hrunning])
    obtain ⟨m, p, hparent, hp⟩ := parent_live hfor hr hq
    exact ⟨m, p, hp, q, hq, hparent⟩

include hfor in
/-- A call that does not reuse servers succeeds only by starting one. -/
theorem fresh_started
    (hr : (daemons site endpoint).Run (made calls) (DaemonConfig.start running) c)
    (hfresh : ∀ call, calls call → call.reuseExisting = false) {n : Nat} {call : Call}
    {returned : Returned} (h : CallReturned c n call (.ok returned)) :
    Started (.caller n) c.world.shared := by
  obtain ⟨hcall, started, heq, hdone⟩ := returned_post hfor hr h
  cases started with
  | error err => cases heq
  | ok handle => exact hdone.2.2.resolve_right (by simp [hfresh call hcall])

include hfor in
/-- **At most one server is started for each target.**  Of any calls of one process that start a
server under the same key and connect where it listens, none of them dropped, in every
configuration a timely run reaches:

* at most one process has been started;
* if all of them reuse servers, each that has returned has succeeded, unless the operating system
  refused to start its process; and if no server was running at first and all have succeeded, exactly
  one call has started the process, and its handle, if it returns one, is the only one to a new
  process;
* if none of them reuses servers, at most one has succeeded;
* each of them can be brought to return.

And `localhost` has the key of `127.0.0.1`. -/
theorem at_most_one_server
    (hr : (daemons site endpoint).Run (made calls) (DaemonConfig.start running) c) :
    c.world.shared.spawned.length ≤ 1 ∧
    ((∀ call, calls call → call.reuseExisting = true) →
      (∀ n call outcome, CallReturned c n call outcome →
        (∃ returned, outcome = .ok returned) ∨ Refused (.caller n) c.world.trace) ∧
      (running key = false → (∃ n call outcome, CallReturned c n call outcome) →
        (∀ n p, c.tasks (.caller n) = .live p →
          ∃ call returned, p = .ret (.returned call (.ok returned))) →
        ∃ first call returned, CallReturned c first call (.ok returned) ∧
          (∀ n, Started (.caller n) c.world.shared ↔ n = first) ∧
          ∀ n call handle, CallReturned c n call (.ok (.handle handle)) →
            (handle.startedNewProcess = true ↔ n = first))) ∧
    ((∀ call, calls call → call.reuseExisting = false) →
      ∀ n n' call call' returned returned', CallReturned c n call (.ok returned) →
        CallReturned c n' call' (.ok returned') → n = n') ∧
    (∀ n p, c.tasks (.caller n) = .live p → ∃ c' call outcome,
      (daemons site endpoint).Run (made calls) c c' ∧ CallReturned c' n call outcome) ∧
    ∀ name ascii port, eqIgnoreAsciiCase name "localhost" = true →
      WsTarget.lockKey ⟨.domain name ascii, port⟩ = WsTarget.lockKey ⟨.ipv4 .localhost, port⟩ := by
  refine ⟨((oneServer_outline hfor).run oneServer_start hr).inv.1.one,
    fun hreuse => ⟨fun n call outcome h => reusing_succeeds hfor hr hreuse h, ?_⟩,
    fun hfresh n n' call call' returned returned' h h' => started_unique hfor hr
      (fresh_started hfor hr hfresh h) (fresh_started hfor hr hfresh h'),
    fun n p ht => call_returns hfor hr ht,
    fun name ascii port h => WsTarget.lockKey_localhost port h⟩
  intro hrunning ⟨n, call, outcome, h⟩ hall
  obtain ⟨call', returned, heq⟩ := hall n _ h
  cases heq
  obtain ⟨first, p, hp, hstarted⟩ := some_started hfor hr hrunning h
  obtain ⟨call₀, returned₀, rfl⟩ := hall first p hp
  have honly : ∀ m, Started (.caller m) c.world.shared ↔ m = first := by
    intro m
    constructor
    · exact fun hm => started_unique hfor hr hm hstarted
    · rintro rfl
      exact hstarted
  refine ⟨first, call₀, returned₀, hp, honly, fun m callₘ handle hm => ?_⟩
  rw [handle_started hfor hr hm]
  exact honly m

end

/-- Two spellings of one endpoint. -/
def localSite : Surroundings where
  parseUrl url := .ok ⟨"ws",
    some (if url = "ws://localhost:4222" then .domain "localhost" (by simp)
      else .ipv4 .localhost),
    some 4222⟩
  tempDir := "/tmp"

def localKey : LockKey := ("127.0.0.1", 4222)

def ensureLocalhost : Call := .ensureLocalWsAppServer "ws://localhost:4222" [] none

def startLoopback : Call :=
  .startWsServer ⟨"ws://127.0.0.1:4222", "ws://127.0.0.1:4222", [], true⟩ .blocking

/-- Both calls find no server; the second one starts it, while the first waits for the lock. -/
def racingSchedule : List (Machine.Label Tid Call Choice) :=
  [.spawn (.caller 0) ensureLocalhost, .spawn (.caller 1) startLoopback,
    .run (.caller 0) .proceed, .run (.caller 1) .proceed,
    .run (.caller 1) .proceed, .run (.caller 1) .proceed, .run (.caller 1) .proceed,
    .run (.caller 1) (.clock 0), .run .host (.comesUp 0),
    .run (.caller 1) .proceed, .run (.caller 1) .proceed, .run (.caller 1) .proceed,
    .run (.caller 0) .proceed, .run (.caller 0) .proceed, .run (.caller 0) .proceed]

theorem at_most_one_server_racing : ∃ c : DaemonConfig,
    (daemons localSite fun _ => localKey).runLabels (DaemonConfig.start fun _ => false)
        racingSchedule = some c ∧
      CallReturned c 0 ensureLocalhost (.ok .unit) ∧
      CallReturned c 1 startLoopback (.ok (.handle (.blockingStarted "ws://127.0.0.1:4222"
        "ws://127.0.0.1:4222" 0))) ∧
      c.world.shared.spawned.length ≤ 1 ∧ ∀ n, Started (.caller n) c.world.shared ↔ n = 1 := by
  let calls : Call → Prop := fun call => call = ensureLocalhost ∨ call = startLoopback
  obtain ⟨c, hc, h₀, h₁, hothers, hmade⟩ : ∃ c : DaemonConfig,
      (daemons localSite fun _ => localKey).runLabels (DaemonConfig.start fun _ => false)
        racingSchedule = some c ∧
      CallReturned c 0 ensureLocalhost (.ok .unit) ∧
      CallReturned c 1 startLoopback (.ok (.handle (.blockingStarted "ws://127.0.0.1:4222"
        "ws://127.0.0.1:4222" 0))) ∧
      (∀ n, c.tasks (.caller (n + 2)) = .absent) ∧ ∀ e ∈ c.world.trace, made calls c.world e :=
    ⟨_, rfl, rfl, rfl, fun _ => rfl, by simp [World.push, made, Timely, calls, DaemonConfig.start]⟩
  have hfor : ∀ call, calls call → call.For localSite (fun _ => localKey) localKey := by
    rintro call (rfl | rfl)
    · exact ⟨_, rfl, rfl, rfl⟩
    · exact ⟨_, rfl, rfl, rfl⟩
  have hrun : (daemons localSite fun _ => localKey).Run (made calls)
      (DaemonConfig.start fun _ => false) c :=
    (Machine.runLabels_run hc).restrict hmade fun _ _ _ he => he
  obtain ⟨hone, hreusing, -⟩ := at_most_one_server hfor hrun
  have hreuse : ∀ call, calls call → call.reuseExisting = true := by
    rintro call (rfl | rfl)
    · rfl
    · rfl
  have hall : ∀ n p, c.tasks (.caller n) = .live p →
      ∃ call returned, p = .ret (.returned call (.ok returned)) := by
    intro n p hp
    rcases n with _ | _ | n
    · exact ⟨_, _, Task.live.inj (hp.symm.trans h₀)⟩
    · exact ⟨_, _, Task.live.inj (hp.symm.trans h₁)⟩
    · cases hp.symm.trans (hothers n)
  obtain ⟨first, -, -, -, hstarted, hhandle⟩ := (hreusing hreuse).2 rfl ⟨0, _, _, h₀⟩ hall
  obtain rfl : 1 = first := (hhandle 1 _ _ h₁).1 rfl
  exact ⟨c, hc, h₀, h₁, hone, hstarted⟩

/-- The call starts the server, and waits for it. -/
def aloneSchedule : List (Machine.Label Tid Call Choice) :=
  [.spawn (.caller 0) ensureLocalhost, .run (.caller 0) .proceed, .run (.caller 0) .proceed,
    .run (.caller 0) .proceed, .run (.caller 0) .proceed, .run (.caller 0) (.clock 0),
    .run .host (.comesUp 0), .run (.caller 0) .proceed, .run (.caller 0) .proceed]

/-- No process can be started for the call. -/
def refusedSchedule : List (Machine.Label Tid Call Choice) :=
  [.spawn (.caller 0) startLoopback, .run (.caller 0) .proceed, .run (.caller 0) .proceed,
    .run (.caller 0) .proceed, .run (.caller 0) (.refuse "codex: not found"),
    .run (.caller 0) .proceed]

/-- `ensure_local_ws_app_server` returns no handle to the server it has started, and reusing servers
does not help a call whose process cannot be started. -/
theorem server_without_handle :
    (∃ c : DaemonConfig, (daemons localSite fun _ => localKey).Run (made (· = ensureLocalhost))
        (DaemonConfig.start fun _ => false) c ∧
      ensureLocalhost.For localSite (fun _ => localKey) localKey ∧
      ensureLocalhost.reuseExisting = true ∧
      CallReturned c 0 ensureLocalhost (.ok .unit) ∧
      c.world.shared.spawned.length = 1 ∧
      ∀ n call handle, ¬ CallReturned c n call (.ok (.handle handle))) ∧
    ∃ c : DaemonConfig, (daemons localSite fun _ => localKey).Run (made (· = startLoopback))
        (DaemonConfig.start fun _ => false) c ∧
      startLoopback.For localSite (fun _ => localKey) localKey ∧
      startLoopback.reuseExisting = true ∧
      CallReturned c 0 startLoopback (.error (.io "codex: not found")) := by
  constructor
  · obtain ⟨c, hc, h₀, hone, hothers, hmade⟩ : ∃ c : DaemonConfig,
        (daemons localSite fun _ => localKey).runLabels (DaemonConfig.start fun _ => false)
          aloneSchedule = some c ∧
        CallReturned c 0 ensureLocalhost (.ok .unit) ∧ c.world.shared.spawned.length = 1 ∧
        (∀ n, c.tasks (.caller (n + 1)) = .absent) ∧
        ∀ e ∈ c.world.trace, made (· = ensureLocalhost) c.world e :=
      ⟨_, rfl, rfl, rfl, fun _ => rfl, by simp [World.push, made, Timely, DaemonConfig.start]⟩
    refine ⟨c, (Machine.runLabels_run hc).restrict hmade fun _ _ _ he => he, ⟨_, rfl, rfl, rfl⟩,
      rfl, h₀, hone, fun n call handle h => ?_⟩
    cases n with
    | zero => cases h₀.symm.trans h
    | succ n => cases (hothers n).symm.trans h
  · obtain ⟨c, hc, h₀, hmade⟩ : ∃ c : DaemonConfig,
        (daemons localSite fun _ => localKey).runLabels (DaemonConfig.start fun _ => false)
          refusedSchedule = some c ∧
        CallReturned c 0 startLoopback (.error (.io "codex: not found")) ∧
        ∀ e ∈ c.world.trace, made (· = startLoopback) c.world e :=
      ⟨_, rfl, rfl, by simp [World.push, made, Timely, DaemonConfig.start]⟩
    exact ⟨c, (Machine.runLabels_run hc).restrict hmade fun _ _ _ he => he, ⟨_, rfl, rfl, rfl⟩,
      rfl, h₀⟩

end WsDaemon
end CodexSdk

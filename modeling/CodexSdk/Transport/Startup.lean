import CodexSdk.Interleave.Contract
import CodexSdk.Transport.WsDaemon

/-!
# One server for each target

Calls that start a server for one target look for it before they take the startup lock, and again
while they hold it.  Whoever finds none the second time is the only one that has ever done so:
as long as a server that has been started has not come up, the call that has started it holds the
lock (`Sound.held`).
-/

set_option autoImplicit false

namespace CodexSdk
namespace WsDaemon

open Interleave

/-- The call starts a server under this key, and connects where that server listens. -/
def Call.For (site : Surroundings) (endpoint : String → LockKey) (key : LockKey) (call : Call) :
    Prop :=
  ∃ target, call.target site = .ok (some target) ∧ target.listen.lockKey = key ∧
    endpoint target.connectUrl = key

/-- A server that has been started becomes reachable before the readiness deadline, and stays so:
its process does not exit, and a call that has just probed in vain finds that there is time left. -/
def Timely : (o : Op) → o.Ans → Prop
  | .tryWait _, status => status = .ok none
  | .reached _, late => late = false
  | _, _ => True

/-- The timely runs in which these calls are made, and none of them is dropped. -/
def made (calls : Call → Prop) (_ : DaemonWorld) : DaemonEvent → Prop
  | .spawn _ call => calls call
  | .op _ o a => Timely o a
  | .drop _ => False

/-- The operating system has refused to start a process for `t`. -/
def Refused (t : Tid) (tr : List DaemonEvent) : Prop :=
  (∃ target env err, .op t (.spawnDaemon target env) (.error err) ∈ tr) ∨
    ∃ target env err, .op t (.spawnOwnedProcess target env) (.error err) ∈ tr

/-- `t` has started a process. -/
def Started (t : Tid) (s : Servers) : Prop := ∃ p ∈ s.spawned, p.parent = t

/-! ## The invariant -/

/-- What holds of the servers of a target, and of its lock. -/
structure Sound (running : LockKey → Bool) (key : LockKey) (s : Servers) : Prop where
  locks : ∀ k, k ≠ key → s.locks k = none
  keys : ∀ p ∈ s.spawned, p.key = key
  one : s.spawned.length ≤ 1
  pids : ∀ p ∈ s.spawned, p.pid < s.spawned.length
  /-- Until a server has come up, its parent holds the lock. -/
  held : ∀ p ∈ s.spawned, s.up p.pid = true ∨ s.locks key = some p.parent
  foreign : s.foreign key = true → running key = true

/-- What a task can rely on while the others take their steps. -/
structure Apart (key : LockKey) (t : Tid) (s s' : Servers) : Prop where
  lock : s.locks key = some t ↔ s'.locks key = some t
  grows : ∀ p ∈ s.spawned, p ∈ s'.spawned
  own : ∀ p ∈ s'.spawned, p.parent = t → p ∈ s.spawned
  frozen : s.locks key = some t → s'.spawned = s.spawned
  up : ∀ pid, s.up pid = true → s'.up pid = true
  foreign : s.foreign key = false → s'.foreign key = false

section

variable {running : LockKey → Bool} {key : LockKey} {t u : Tid} {s s' s'' : Servers}

theorem Apart.refl (key : LockKey) (t : Tid) (s : Servers) : Apart key t s s :=
  ⟨.rfl, fun _ => id, fun _ hp _ => hp, fun _ => rfl, fun _ => id, id⟩

theorem Apart.trans (h : Apart key t s s') (h' : Apart key t s' s'') : Apart key t s s'' where
  lock := h.lock.trans h'.lock
  grows p hp := h'.grows p (h.grows p hp)
  own p hp ht := h.own p (h'.own p hp ht) ht
  frozen hlock := (h'.frozen (h.lock.1 hlock)).trans (h.frozen hlock)
  up pid hpid := h'.up pid (h.up pid hpid)
  foreign hf := h'.foreign (h.foreign hf)

theorem Apart.started (h : Apart key t s s') : Started t s ↔ Started t s' :=
  ⟨fun ⟨p, hp, ht⟩ => ⟨p, h.grows p hp, ht⟩, fun ⟨p, hp, ht⟩ => ⟨p, h.own p hp ht, ht⟩⟩

/-- At most one process has been started. -/
theorem Sound.eq (h : Sound running key s) {p q : Process} (hp : p ∈ s.spawned)
    (hq : q ∈ s.spawned) : p = q := by
  obtain ⟨x, hx⟩ : ∃ x, s.spawned = [x] := by
    have hone := h.one
    match hs : s.spawned with
    | [] => simp [hs] at hp
    | [x] => exact ⟨x, rfl⟩
    | _ :: _ :: _ => simp [hs] at hone
  rw [hx] at hp hq
  rw [List.mem_singleton.1 hp, List.mem_singleton.1 hq]

/-- Whom a probe can have found. -/
theorem of_accepting (ha : s.accepting key = true) :
    s.foreign key = true ∨ ∃ p ∈ s.spawned, s.up p.pid = true := by
  rw [Servers.accepting, Bool.or_eq_true, List.any_eq_true] at ha
  refine ha.imp_right fun ⟨p, hp, hup⟩ => ⟨p, hp, ?_⟩
  exact (Bool.and_eq_true_iff.1 hup).2

/-- The holder of the lock that has started nothing, and finds nothing, is the first. -/
theorem Sound.vacant (h : Sound running key s) (hlock : s.locks key = some t)
    (hnot : ¬ Started t s) (ha : s.accepting key = false) :
    s.spawned = [] ∧ s.foreign key = false := by
  rw [Servers.accepting, Bool.or_eq_false_iff, List.any_eq_false] at ha
  refine ⟨List.eq_nil_iff_forall_not_mem.2 fun p hp => ?_, ha.1⟩
  have hdown : s.up p.pid ≠ true := fun hup => ha.2 p hp (by simp [h.keys p hp, hup])
  have hparent : s.locks key = some p.parent := (h.held p hp).resolve_left hdown
  rw [hlock] at hparent
  exact hnot ⟨p, hp, (Option.some.inj hparent).symm⟩

/-! ## What the operations do -/

theorem Sound.lock (h : Sound running key s) (hfree : s.locks key = none) (t : Tid) :
    Sound running key { s with locks := Function.update s.locks key (some t) } where
  locks k hk := (Function.update_of_ne hk _ _).trans (h.locks k hk)
  keys := h.keys
  one := h.one
  pids := h.pids
  held p hp := .inl ((h.held p hp).resolve_right (by simp [hfree]))
  foreign := h.foreign

theorem Apart.of_lock (hfree : s.locks key = none) (hu : u ≠ t) :
    Apart key u s { s with locks := Function.update s.locks key (some t) } := by
  refine ⟨?_, fun _ => id, fun _ hp _ => hp, fun _ => rfl, fun _ => id, id⟩
  simp [hfree, hu.symm]

theorem Sound.unlock (h : Sound running key s) (hlock : s.locks key = some t)
    (hup : ∀ p ∈ s.spawned, p.parent = t → s.up p.pid = true) :
    Sound running key { s with locks := Function.update s.locks key none } where
  locks k hk := (Function.update_of_ne hk _ _).trans (h.locks k hk)
  keys := h.keys
  one := h.one
  pids := h.pids
  held p hp := by
    rcases h.held p hp with hp' | hp'
    · exact .inl hp'
    · rw [hlock] at hp'
      exact .inl (hup p hp (Option.some.inj hp').symm)
  foreign := h.foreign

theorem Apart.of_unlock (hlock : s.locks key = some t) (hu : u ≠ t) :
    Apart key u s { s with locks := Function.update s.locks key none } := by
  refine ⟨?_, fun _ => id, fun _ hp _ => hp, fun _ => rfl, fun _ => id, id⟩
  simp [hlock, hu.symm]

theorem Sound.spawn (h : Sound running key s) {target : WsStartTarget}
    (hkey : target.listen.lockKey = key) (hlock : s.locks key = some t) (hnone : s.spawned = []) :
    Sound running key (s.spawn t target) where
  locks := h.locks
  keys := by simp [Servers.spawn, hnone, hkey]
  one := by simp [Servers.spawn, hnone]
  pids := by simp [Servers.spawn, hnone]
  held := by
    intro p hp
    obtain rfl : p = ⟨0, target.listen.lockKey, t⟩ := by simpa [Servers.spawn, hnone] using hp
    exact .inr hlock
  foreign := h.foreign

theorem Apart.of_spawn {target : WsStartTarget} (hlock : s.locks key = some t) (hu : u ≠ t) :
    Apart key u s (s.spawn t target) where
  lock := .rfl
  grows p hp := List.mem_append_left _ hp
  own p hp hparent := by
    rcases List.mem_append.1 hp with hp | hp
    · exact hp
    · rw [List.mem_singleton.1 hp] at hparent
      exact absurd hparent hu.symm
  frozen hlock' := by
    rw [hlock] at hlock'
    exact absurd (Option.some.inj hlock').symm hu
  up _ := id
  foreign := id

theorem Sound.comesUp (h : Sound running key s) (pid : Nat) :
    Sound running key { s with up := Function.update s.up pid true } where
  locks := h.locks
  keys := h.keys
  one := h.one
  pids := h.pids
  held p hp := by
    refine (h.held p hp).imp_left fun hup => ?_
    show Function.update s.up pid true p.pid = true
    by_cases hpid : p.pid = pid
    · rw [hpid, Function.update_self]
    · rw [Function.update_of_ne hpid, hup]
  foreign := h.foreign

theorem Apart.of_comesUp (key : LockKey) (u : Tid) (s : Servers) (pid : Nat) :
    Apart key u s { s with up := Function.update s.up pid true } := by
  refine ⟨.rfl, fun _ => id, fun _ hp _ => hp, fun _ => rfl, fun pid' hup => ?_, id⟩
  show Function.update s.up pid true pid' = true
  by_cases hpid : pid' = pid
  · rw [hpid, Function.update_self]
  · rw [Function.update_of_ne hpid, hup]

theorem foreign_stops {k : LockKey} (h : Function.update s.foreign k false key = true) :
    s.foreign key = true := by
  by_cases hk : key = k
  · rw [hk, Function.update_self] at h
    cases h
  · rwa [Function.update_of_ne hk] at h

theorem Sound.stops (h : Sound running key s) (k : LockKey) :
    Sound running key { s with foreign := Function.update s.foreign k false } where
  locks := h.locks
  keys := h.keys
  one := h.one
  pids := h.pids
  held := h.held
  foreign hf := h.foreign (foreign_stops hf)

theorem Apart.of_stops (key : LockKey) (u : Tid) (s : Servers) (k : LockKey) :
    Apart key u s { s with foreign := Function.update s.foreign k false } := by
  refine ⟨.rfl, fun _ => id, fun _ hp _ => hp, fun _ => rfl, fun _ => id, fun hf => ?_⟩
  show Function.update s.foreign k false key = false
  rw [Bool.eq_false_iff] at hf ⊢
  exact fun hf' => hf (foreign_stops hf')

end

/-! ## The contract -/

/-- What `t` can rely on from one world to a later one. -/
structure Onwards (key : LockKey) (t : Tid) (w w' : DaemonWorld) : Prop extends
    Apart key t w.shared w'.shared where
  suffix : w.trace <:+ w'.trace

theorem Onwards.refl (key : LockKey) (t : Tid) (w : DaemonWorld) : Onwards key t w w :=
  ⟨Apart.refl key t w.shared, List.suffix_refl _⟩

theorem Onwards.trans {key : LockKey} {t : Tid} {w w' w'' : DaemonWorld} (h : Onwards key t w w')
    (h' : Onwards key t w' w'') : Onwards key t w w'' :=
  ⟨h.toApart.trans h'.toApart, h.suffix.trans h'.suffix⟩

/-- Whoever has started a process has done something. -/
def Parents (w : DaemonWorld) : Prop := ∀ p ∈ w.shared.spawned, ∃ e ∈ w.trace, e.tid = p.parent

/-- The servers are sound, and the calls keep to themselves. -/
def oneServer (calls : Call → Prop) (running : LockKey → Bool) (key : LockKey) :
    Contract Tid Call Op Servers Op.Ans where
  inv w := Sound running key w.shared ∧ Parents w
  rely := Onwards key
  law := made calls
  rely_refl := Onwards.refl key
  rely_trans _ := Onwards.trans

/-- What a call that reuses servers, or not, comes to. -/
def Concluded (running : LockKey → Bool) (key : LockKey) (t : Tid) (reuse : Bool)
    (w : DaemonWorld) : Except ClientError WsServerHandle → Prop
  | .error _ => ¬ Started t w.shared ∧ (reuse = true → Refused t w.trace)
  | .ok handle => (running key = true ∨ ∃ p, p ∈ w.shared.spawned) ∧
      (handle.startedNewProcess = true ↔ Started t w.shared) ∧ (Started t w.shared ∨ reuse = true)

/-- What a call knows while it waits for the server it has started. -/
structure Awaits (endpoint : String → LockKey) (key : LockKey) (t : Tid) (wait : Waiting)
    (w : DaemonWorld) : Prop where
  listens : wait.target.listen.lockKey = key
  connects : endpoint wait.target.connectUrl = key
  lock : w.shared.locks key = some t
  started : Started t w.shared
  foreign : w.shared.foreign key = false

/-- What a startup has come to. -/
def Reached (endpoint : String → LockKey) (running : LockKey → Bool) (key : LockKey) (t : Tid)
    (reuse : Bool) : Startup → DaemonWorld → Prop
  | .done outcome, w => Concluded running key t reuse w outcome
  | .waiting wait, w => Awaits endpoint key t wait w

section

variable {site : Surroundings} {endpoint : String → LockKey} {calls : Call → Prop}
  {running : LockKey → Bool} {key : LockKey} {t : Tid} {reuse : Bool} {w w' : DaemonWorld}
  {outcome : Except ClientError WsServerHandle} {α : Type}

theorem Refused.suffix {tr tr' : List DaemonEvent} (h : Refused t tr) (hs : tr <:+ tr') :
    Refused t tr' :=
  h.imp (fun ⟨target, env, err, hmem⟩ => ⟨target, env, err, hs.subset hmem⟩)
    fun ⟨target, env, err, hmem⟩ => ⟨target, env, err, hs.subset hmem⟩

/-- Only the processes and the history matter. -/
theorem Concluded.congr (h : Concluded running key t reuse w outcome)
    (hstarted : Started t w.shared ↔ Started t w'.shared)
    (hgrows : ∀ p ∈ w.shared.spawned, p ∈ w'.shared.spawned) (hs : w.trace <:+ w'.trace) :
    Concluded running key t reuse w' outcome := by
  cases outcome with
  | error err => exact ⟨fun hs' => h.1 (hstarted.2 hs'), fun hr => (h.2 hr).suffix hs⟩
  | ok handle =>
    obtain ⟨hserved, hnew, hor⟩ := h
    exact ⟨hserved.imp_right fun ⟨p, hp⟩ => ⟨p, hgrows p hp⟩, hnew.trans hstarted,
      hor.imp_left hstarted.1⟩

theorem Concluded.onwards (h : Concluded running key t reuse w outcome) (hr : Onwards key t w w') :
    Concluded running key t reuse w' outcome :=
  h.congr hr.started hr.grows hr.suffix

theorem Awaits.onwards {wait : Waiting} (h : Awaits endpoint key t wait w)
    (hr : Onwards key t w w') : Awaits endpoint key t wait w' where
  listens := h.listens
  connects := h.connects
  lock := hr.lock.1 h.lock
  started := hr.started.1 h.started
  foreign := hr.foreign h.foreign

/-- A process is started by the task that performs the operation. -/
theorem exec_spawned {o : Op} {ch : Choice} {a : o.Ans} {s s' : Servers}
    (h : exec endpoint t o ch s = some (a, s')) {p : Process} (hp : p ∈ s'.spawned) :
    p ∈ s.spawned ∨ p.parent = t := by
  have hspawn : ∀ target, p ∈ (s.spawn t target).spawned → p ∈ s.spawned ∨ p.parent = t :=
    fun target hp => (List.mem_append.1 hp).imp_right fun hp => by rw [List.mem_singleton.1 hp]
  cases o with
  | lock key =>
    rw [exec] at h
    split at h <;> cases h
    exact .inl hp
  | spawnDaemon target env =>
    cases ch with
    | refuse err => cases h; exact .inl hp
    | proceed => cases h; exact hspawn target hp
    | exited | clock | comesUp | stops => cases h
  | spawnOwnedProcess target env =>
    cases ch with
    | refuse err => cases h; exact .inl hp
    | proceed => cases h; exact hspawn target hp
    | exited | clock | comesUp | stops => cases h
  | tryWait | instantIn | reached => cases ch <;> cases h <;> exact .inl hp
  | serverStep =>
    cases ch with
    | comesUp pid =>
      rw [exec] at h
      split at h <;> cases h
      exact .inl hp
    | stops key => cases h; exact .inl hp
    | proceed | refuse | exited | clock => cases h
  | _ => cases h; exact .inl hp

/-- An operation, and what is left to others and to the task after it. -/
theorem safe_op {Q : α → DaemonWorld → Prop} {o : Op} {k : o.Ans → DaemonM α}
    (h : ∀ w', Onwards key t w w' → Sound running key w'.shared → ∀ ch a s,
      exec endpoint t o ch w'.shared = some (a, s) → Timely o a →
        (Sound running key s ∧ ∀ u, u ≠ t → Apart key u w'.shared s) ∧
          Safe (daemons site endpoint) (oneServer calls running key) t Q (k a)
            (w'.push (.op t o a) s)) :
    Safe (daemons site endpoint) (oneServer calls running key) t Q (perform o >>= k) w := by
  intro w' hr hi ch a s hx hl
  obtain ⟨⟨hsound, hapart⟩, hk⟩ := h w' hr hi.1 ch a s hx hl
  refine ⟨⟨⟨hsound, fun p hp => ?_⟩, fun u hu => ⟨hapart u hu, List.suffix_cons _ _⟩⟩, hk⟩
  rcases exec_spawned hx hp with hp | hparent
  · obtain ⟨e, he, ht⟩ := hi.2 p hp
    exact ⟨e, List.mem_cons_of_mem _ he, ht⟩
  · exact ⟨_, List.mem_cons_self, hparent.symm⟩

/-- An operation that only asks. -/
theorem safe_ask {Q : α → DaemonWorld → Prop} {o : Op} {k : o.Ans → DaemonM α}
    (answers : o.Ans → Servers → Prop)
    (hask : ∀ ch s a s', exec endpoint t o ch s = some (a, s') → Timely o a →
      s' = s ∧ answers a s)
    (h : ∀ a w', Onwards key t w w' → Sound running key w'.shared → answers a w'.shared →
      Safe (daemons site endpoint) (oneServer calls running key) t Q (k a) w') :
    Safe (daemons site endpoint) (oneServer calls running key) t Q (perform o >>= k) w := by
  refine safe_op fun w' hr hi ch a s hx hl => ?_
  obtain ⟨rfl, ha⟩ := hask ch w'.shared a s hx hl
  refine ⟨⟨hi, fun u _ => Apart.refl key u _⟩, h a _ ⟨hr.toApart, ?_⟩ hi ha⟩
  exact hr.suffix.trans (List.suffix_cons _ _)

theorem ask_probe {url : String} {authToken : Option String} (ch : Choice) (s : Servers)
    (a : Except String ProbeState) (s' : Servers)
    (h : exec endpoint t (.probe url authToken) ch s = some (a, s'))
    (_ : Timely (.probe url authToken) a) :
    s' = s ∧ a = .ok (s.probeState (endpoint url)) := by
  cases h
  exact ⟨rfl, rfl⟩

/-! ## The walk -/

theorem safe_release {target : WsStartTarget} (hkey : target.listen.lockKey = key)
    (hlock : w.shared.locks key = some t)
    (hup : ∀ p ∈ w.shared.spawned, p.parent = t → w.shared.up p.pid = true)
    (hdone : Concluded running key t reuse w outcome) :
    Safe (daemons site endpoint) (oneServer calls running key) t
      (Reached endpoint running key t reuse) (release target outcome) w := by
  subst hkey
  refine safe_op fun w' hr hi ch a s hx _ => ?_
  cases hx
  have hlock' := hr.lock.1 hlock
  refine ⟨⟨hi.unlock hlock' fun p hp hparent => ?_, fun u => Apart.of_unlock hlock'⟩, ?_⟩
  · exact hr.up p.pid (hup p (hr.own p hp hparent) hparent)
  · exact (hdone.onwards hr).congr .rfl (fun _ => id) (List.suffix_cons _ _)

/-- What the look for a server tells. -/
theorem safe_existing {target : WsStartTarget} {mode : WsStartMode} {authToken : Option String}
    (hconnect : endpoint target.connectUrl = key) :
    Safe (daemons site endpoint) (oneServer calls running key) t
      (fun r w' => Onwards key t w w' ∧ Sound running key w'.shared ∧ match r with
        | .ok (some handle) =>
          w'.shared.accepting key = true ∧ reuse = true ∧ handle.startedNewProcess = false
        | .ok none => w'.shared.accepting key = false
        | .error _ => reuse = false)
      (existingServerHandle target reuse mode authToken) w := by
  subst hconnect
  refine safe_ask _ ask_probe fun a w' hr hi ha => ?_
  subst ha
  by_cases hacc : w'.shared.accepting (endpoint target.connectUrl) = true
  · rw [Servers.probeState, if_pos hacc]
    cases reuse with
    | true => exact ⟨hr, hi, hacc, rfl, rfl⟩
    | false => exact ⟨hr, hi, rfl⟩
  · rw [Servers.probeState, if_neg hacc]
    exact ⟨hr, hi, Bool.eq_false_iff.2 hacc⟩

/-- The child of a call that waits for it is running. -/
theorem safe_checkChild {wait : Waiting} (h : Awaits endpoint key t wait w) :
    Safe (daemons site endpoint) (oneServer calls running key) t
      (fun r w' => r = .ok () ∧ Awaits endpoint key t wait w') wait.checkChild w := by
  rw [Waiting.checkChild]
  cases wait.child with
  | none => exact ⟨rfl, h⟩
  | some child =>
    refine safe_ask (fun a _ => a = .ok none) ?_ fun a w' hr _ ha => ?_
    · rintro ch s a s' hx hl
      cases ch <;> cases hx <;> exact ⟨rfl, hl⟩
    · subst ha
      exact ⟨rfl, h.onwards hr⟩

/-- Once around the loop: whoever finds a server has found its own. -/
theorem safe_round {wait : Waiting} (h : Awaits endpoint key t wait w) :
    Safe (daemons site endpoint) (oneServer calls running key) t
      (fun r w' => Awaits endpoint key t wait w' ∧ match r with
        | none => True
        | some (.ok _) => ∀ p ∈ w'.shared.spawned, w'.shared.up p.pid = true
        | some (.error _) => False) wait.round w := by
  refine Safe.bind ((safe_checkChild h).mono ?_)
  rintro _ w₁ ⟨rfl, h₁⟩
  refine safe_ask _ ask_probe fun a w₂ hr₂ hi₂ ha => ?_
  subst ha
  have h₂ := h₁.onwards hr₂
  rw [h₂.connects]
  by_cases hacc : w₂.shared.accepting key = true
  · rw [Servers.probeState, if_pos hacc]
    refine ⟨h₂, fun p hp => ?_⟩
    rcases of_accepting hacc with hforeign | ⟨q, hq, hup⟩
    · rw [h₂.foreign] at hforeign
      cases hforeign
    · rwa [hi₂.eq hp hq]
  · rw [Servers.probeState, if_neg hacc]
    refine safe_ask (fun late _ => late = false) ?_ fun late w₃ hr₃ _ hlate => ?_
    · rintro ch s a s' hx hl
      cases ch <;> cases hx
      exact ⟨rfl, hl⟩
    · subst hlate
      refine safe_ask (fun _ _ => True) ?_ fun _ w₄ hr₄ _ _ => ?_
      · rintro ch s a s' hx -
        cases hx
        exact ⟨rfl, trivial⟩
      · exact ⟨(h₂.onwards hr₃).onwards hr₄, trivial⟩

theorem handle_startedNewProcess (wait : Waiting) : wait.handle.startedNewProcess = true := by
  rw [Waiting.handle]
  split <;> rfl

/-- **Waiting** ends with the server up, and the lock released. -/
theorem safe_waitForReady {wait : Waiting} (h : Awaits endpoint key t wait w) :
    Safe (daemons site endpoint) (oneServer calls running key) t
      (Reached endpoint running key t reuse) (waitForReady wait) w := by
  refine Safe.bind ((safe_round h).mono ?_)
  rintro (_ | (err | ready)) w₁ ⟨h₁, hround⟩
  · exact h₁
  · exact hround.elim
  · refine safe_release h₁.listens h₁.lock (fun p hp _ => hround p hp) ?_
    obtain ⟨p, hp, hparent⟩ := h₁.started
    exact ⟨.inr ⟨p, hp⟩, iff_of_true (handle_startedNewProcess wait) ⟨p, hp, hparent⟩,
      .inl ⟨p, hp, hparent⟩⟩

/-- What a call knows that has found no server under the lock. -/
structure First (endpoint : String → LockKey) (key : LockKey) (t : Tid) (target : WsStartTarget)
    (w : DaemonWorld) : Prop where
  listens : target.listen.lockKey = key
  connects : endpoint target.connectUrl = key
  lock : w.shared.locks key = some t
  spawned : w.shared.spawned = []
  foreign : w.shared.foreign key = false

theorem First.onwards {target : WsStartTarget} (h : First endpoint key t target w)
    (hr : Onwards key t w w') : First endpoint key t target w' where
  listens := h.listens
  connects := h.connects
  lock := hr.lock.1 h.lock
  spawned := (hr.frozen h.lock).trans h.spawned
  foreign := hr.foreign h.foreign

theorem First.push {target : WsStartTarget} (h : First endpoint key t target w) (e : DaemonEvent) :
    First endpoint key t target (w.push e w.shared) :=
  ⟨h.listens, h.connects, h.lock, h.spawned, h.foreign⟩

/-- No process has been started for it. -/
theorem First.refused {target : WsStartTarget} (h : First endpoint key t target w)
    (href : Refused t w.trace) (err : ClientError) :
    Safe (daemons site endpoint) (oneServer calls running key) t
      (Reached endpoint running key t reuse) (release target (.error err)) w := by
  refine safe_release h.listens h.lock ?_ ⟨?_, fun _ => href⟩
  · simp [h.spawned]
  · simp [Started, h.spawned]

/-- One has been started. -/
theorem First.waits {target : WsStartTarget} (h : First endpoint key t target w)
    (hs : w'.shared = w.shared.spawn t target) (child : Option Nat) (authToken : Option String) :
    Safe (daemons site endpoint) (oneServer calls running key) t
      (Reached endpoint running key t reuse)
      (do
        let deadline : Int ← perform (.instantIn startupTimeout)
        waitForReady ⟨target, child, authToken, deadline⟩) w' := by
  refine safe_ask (fun _ _ => True) ?_ fun deadline w₁ hr _ _ => ?_
  · rintro ch s a s' hx -
    cases ch <;> cases hx
    exact ⟨rfl, trivial⟩
  · refine safe_waitForReady (Awaits.onwards ⟨h.listens, h.connects, ?_, ?_, ?_⟩ hr)
    · rw [hs]
      exact h.lock
    · rw [hs]
      exact ⟨_, List.mem_append_right _ List.mem_cons_self, rfl⟩
    · rw [hs]
      exact h.foreign

theorem First.spawn {target : WsStartTarget} (h : First endpoint key t target w)
    (hi : Sound running key w.shared) : Sound running key (w.shared.spawn t target) ∧
      ∀ u, u ≠ t → Apart key u w.shared (w.shared.spawn t target) :=
  ⟨hi.spawn h.listens h.lock h.spawned, fun _ hu => .of_spawn h.lock hu⟩

theorem safe_startServer {target : WsStartTarget} {env : List (String × String)}
    {mode : WsStartMode} {authToken : Option String} (h : First endpoint key t target w) :
    Safe (daemons site endpoint) (oneServer calls running key) t
      (Reached endpoint running key t reuse) (startServer target env mode authToken) w := by
  cases mode with
  | daemon =>
    refine safe_op fun w₁ hr hi ch a s hx _ => ?_
    have h₁ := h.onwards hr
    cases ch with
    | refuse err =>
      cases hx
      have href : Refused t (_ :: w₁.trace) := .inl ⟨target, env, err, List.mem_cons_self⟩
      exact ⟨⟨hi, fun u _ => .refl key u _⟩, (h₁.push _).refused href _⟩
    | proceed =>
      cases hx
      exact ⟨h₁.spawn hi, h₁.waits rfl none authToken⟩
    | exited | clock | comesUp | stops => cases hx
  | blocking =>
    refine safe_op fun w₁ hr hi ch a s hx _ => ?_
    have h₁ := h.onwards hr
    cases ch with
    | refuse err =>
      cases hx
      have href : Refused t (_ :: w₁.trace) := .inr ⟨target, env, err, List.mem_cons_self⟩
      exact ⟨⟨hi, fun u _ => .refl key u _⟩, (h₁.push _).refused href _⟩
    | proceed =>
      cases hx
      exact ⟨h₁.spawn hi, h₁.waits rfl (some _) authToken⟩
    | exited | clock | comesUp | stops => cases hx

/-- A handle to a server that was there. -/
theorem concluded_reused {handle : WsServerHandle} (hi : Sound running key w.shared)
    (hacc : w.shared.accepting key = true) (hnew : handle.startedNewProcess = false)
    (hnot : ¬ Started t w.shared) (hreuse : reuse = true) :
    Concluded running key t reuse w (.ok handle) := by
  refine ⟨?_, ?_, .inr hreuse⟩
  · exact (of_accepting hacc).imp hi.foreign fun ⟨p, hp, _⟩ => ⟨p, hp⟩
  · rw [hnew]
    exact iff_of_false Bool.false_ne_true hnot

theorem concluded_conflict {err : ClientError} (hnot : ¬ Started t w.shared)
    (hreuse : reuse = false) : Concluded running key t reuse w (.error err) :=
  ⟨hnot, fun hreuse' => absurd (hreuse.symm.trans hreuse') Bool.false_ne_true⟩

theorem safe_startLocked {target : WsStartTarget} {env : List (String × String)}
    {mode : WsStartMode} {authToken : Option String} (hlisten : target.listen.lockKey = key)
    (hconnect : endpoint target.connectUrl = key) (hlock : w.shared.locks key = some t)
    (hnot : ¬ Started t w.shared) :
    Safe (daemons site endpoint) (oneServer calls running key) t
      (Reached endpoint running key t reuse) (startLocked target env reuse mode authToken) w := by
  refine Safe.bind ((safe_existing hconnect).mono ?_)
  rintro (err | (_ | handle)) w₁ ⟨hr, hi, hfound⟩
  all_goals have hlock₁ := hr.lock.1 hlock
  all_goals have hnot₁ : ¬ Started t w₁.shared := fun hs => hnot (hr.started.2 hs)
  · refine safe_release hlisten hlock₁ ?_ (concluded_conflict hnot₁ hfound)
    exact fun p hp hparent => absurd ⟨p, hp, hparent⟩ hnot₁
  · obtain ⟨hspawned, hforeign⟩ := hi.vacant hlock₁ hnot₁ hfound
    exact safe_startServer ⟨hlisten, hconnect, hlock₁, hspawned, hforeign⟩
  · obtain ⟨hacc, hreuse, hnew⟩ := hfound
    refine safe_release hlisten hlock₁ ?_ (concluded_reused hi hacc hnew hnot₁ hreuse)
    exact fun p hp hparent => absurd ⟨p, hp, hparent⟩ hnot₁

/-- **A startup**, of a call that has started nothing so far. -/
theorem safe_startWsServerInternal {target : WsStartTarget} {env : List (String × String)}
    {mode : WsStartMode} {authToken : Option String} (hlisten : target.listen.lockKey = key)
    (hconnect : endpoint target.connectUrl = key) (hnot : ¬ Started t w.shared) :
    Safe (daemons site endpoint) (oneServer calls running key) t
      (Reached endpoint running key t reuse)
      (startWsServerInternal target env reuse mode authToken) w := by
  refine Safe.bind ((safe_existing hconnect).mono ?_)
  rintro (err | (_ | handle)) w₁ ⟨hr, hi, hfound⟩
  all_goals have hnot₁ : ¬ Started t w₁.shared := fun hs => hnot (hr.started.2 hs)
  · show Concluded running key t reuse w₁ (.error err)
    exact concluded_conflict hnot₁ hfound
  · subst hlisten
    refine safe_op fun w₂ hr₂ hi₂ ch a s hx _ => ?_
    have hfree : w₂.shared.locks target.listen.lockKey = none := by
      by_contra hne
      obtain ⟨u, hu⟩ := Option.ne_none_iff_exists'.1 hne
      simp [exec, hu] at hx
    rw [exec, hfree] at hx
    cases hx
    refine ⟨⟨hi₂.lock hfree t, fun u => .of_lock hfree⟩, safe_startLocked rfl hconnect ?_ ?_⟩
    · exact Function.update_self _ _ _
    · exact fun hs => hnot₁ (hr₂.started.2 hs)
  · obtain ⟨hacc, hreuse, hnew⟩ := hfound
    show Concluded running key t reuse w₁ (.ok handle)
    exact concluded_reused hi hacc hnew hnot₁ hreuse

/-! ## All runs -/

/-- What a task promises. -/
def startupPost (endpoint : String → LockKey) (calls : Call → Prop) (running : LockKey → Bool)
    (key : LockKey) (t : Tid) : Result → DaemonWorld → Prop
  | .returned call outcome, w => calls call ∧ ∃ started, outcome = call.keep <$> started ∧
      Concluded running key t call.reuseExisting w started
  | .waiting call wait, w => calls call ∧ Awaits endpoint key t wait w
  | .host, w => ¬ Started t w.shared

theorem startupPost_stable (t : Tid) (r : Result) :
    (oneServer calls running key).Stable t (startupPost endpoint calls running key t r) := by
  intro w w' hr hpost
  cases r with
  | returned call outcome =>
    obtain ⟨hcall, started, heq, hdone⟩ := hpost
    exact ⟨hcall, started, heq, hdone.onwards hr⟩
  | waiting call wait => exact ⟨hpost.1, hpost.2.onwards hr⟩
  | host => exact fun hs => hpost (hr.started.2 hs)

theorem startupPost_conclude {call : Call} (hcall : calls call) {startup : Startup}
    (h : Reached endpoint running key t call.reuseExisting startup w) :
    startupPost endpoint calls running key t (call.conclude startup) w := by
  cases startup with
  | done outcome => exact ⟨hcall, outcome, rfl, h⟩
  | waiting wait => exact ⟨hcall, h⟩

theorem safe_body {call : Call} (hcall : calls call) (hfor : call.For site endpoint key)
    (hnot : ¬ Started t w.shared) :
    Safe (daemons site endpoint) (oneServer calls running key) t
      (startupPost endpoint calls running key t) (call.body site) w := by
  obtain ⟨target, htarget, hlisten, hconnect⟩ := hfor
  rw [Call.body, htarget]
  refine Safe.bind (Safe.mono ?_ fun startup w' h => startupPost_conclude hcall h)
  cases call with
  | startWsServer config mode => exact safe_startWsServerInternal hlisten hconnect hnot
  | ensureLocalWsAppServer url env authToken =>
    exact safe_startWsServerInternal hlisten hconnect hnot

theorem safe_hostRound (hnot : ¬ Started t w.shared) :
    Safe (daemons site endpoint) (oneServer calls running key) t
      (startupPost endpoint calls running key t) hostRound w := by
  refine safe_op fun w' hr hi ch a s hx _ => ?_
  cases ch with
  | comesUp pid =>
    rw [exec] at hx
    split at hx <;> cases hx
    exact ⟨⟨hi.comesUp pid, fun u _ => .of_comesUp key u _ pid⟩, fun hs => hnot (hr.started.2 hs)⟩
  | stops k =>
    cases hx
    exact ⟨⟨hi.stops k, fun u _ => .of_stops key u _ k⟩, fun hs => hnot (hr.started.2 hs)⟩
  | proceed | refuse | exited | clock => cases hx

variable (hfor : ∀ call, calls call → call.For site endpoint key)

include hfor in
theorem oneServer_outline :
    Outline (daemons site endpoint) (oneServer calls running key)
      (startupPost endpoint calls running key) where
  stable := startupPost_stable
  spawn := by
    intro t call w hi hl hfirst
    refine ⟨⟨⟨hi.1, fun p hp => ?_⟩, fun u _ => ⟨.refl key u _, List.suffix_cons _ _⟩⟩, ?_⟩
    · obtain ⟨e, he, ht⟩ := hi.2 p hp
      exact ⟨e, List.mem_cons_of_mem _ he, ht⟩
    · refine safe_body hl (hfor call hl) ?_
      rintro ⟨p, hp, hparent⟩
      obtain ⟨e, he, ht⟩ := hi.2 p hp
      exact hfirst e he (ht.trans hparent)
  restart := by
    intro t r p w hres hpost
    cases r with
    | returned => cases t <;> cases hres
    | waiting call wait =>
      obtain rfl : call.resume wait = p := by cases t <;> exact Option.some.inj hres
      exact Safe.bind ((safe_waitForReady hpost.2).mono fun startup w' h =>
        startupPost_conclude hpost.1 h)
    | host =>
      cases t with
      | caller n => cases hres
      | host =>
        obtain rfl : hostRound = p := Option.some.inj hres
        exact safe_hostRound hpost
  cancel := fun _ _ _ hl => hl.elim

theorem oneServer_start :
    Proved (daemons site endpoint) (oneServer calls running key)
      (startupPost endpoint calls running key) (DaemonConfig.start running) where
  inv := by
    refine ⟨⟨fun _ _ => rfl, ?_, ?_, ?_, ?_, id⟩, ?_⟩
    all_goals simp [DaemonConfig.start, Servers.start, Parents]
  live := by
    intro t p ht
    cases t with
    | caller n => cases ht
    | host =>
      cases ht
      exact safe_hostRound (by simp [Started, DaemonConfig.start, Servers.start])
  absent := by simp [DaemonConfig.start]

end

end WsDaemon
end CodexSdk

import CodexSdk.Client.Rules
import CodexSdk.Interleave.Solo

/-!
# The handshake lock is always released

Every program takes `handshake_lock` only when it does not hold it, releases it only when it does,
and does not return before it has.  A task that waits for the lock therefore waits for a task that
can be brought to its end: nothing it does before it releases the lock needs anybody's consent,
since timers can run out (`free_lock`).
-/

set_option autoImplicit false

namespace CodexSdk

open Json Interleave

/-- Taking and releasing the lock; the state says whether it is held. -/
def lockStep : Bool → Op → Option Bool
  | false, .handshakeLock => some true
  | true, .handshakeLock => none
  | true, .handshakeUnlock => some false
  | false, .handshakeUnlock => none
  | held, _ => some held

/-- `t` holds the lock. -/
def holdsLock (t : Tid) (s : Inner) : Bool := decide (s.handshakeLock = some t)

/-- The operations that do not touch the lock. -/
def Op.LockFree : Op → Prop
  | .handshakeLock | .handshakeUnlock => False
  | _ => True

/-- Programs that start and end without the lock. -/
abbrev Balanced {α : Type} (p : ClientM α) : Prop :=
  p.Follows lockStep (fun _ held => held = false) false

section

variable {env : Env} {α β : Type}

theorem Op.Basic.lockFree (o : Op) (ho : o.Basic) : o.LockFree := by
  cases o <;> trivial

theorem Op.LockFree.lockStep {o : Op} (ho : o.LockFree) (held : Bool) :
    CodexSdk.lockStep held o = some held := by
  cases o <;> cases held <;> first | rfl | exact ho.elim

theorem follows_of_lockFree {p : ClientM α} (hp : p.Only Op.LockFree) (held : Bool) :
    p.Follows lockStep (fun _ held' => held' = held) held :=
  Prog.Follows.of_only hp fun _ ho => ho.lockStep held

theorem Balanced.bind {p : ClientM α} {f : α → ClientM β} (hp : Balanced p)
    (hf : ∀ a, Balanced (f a)) : Balanced (p >>= f) :=
  Prog.Follows.bind (hp.mono fun a _ hq => hq.symm ▸ hf a)

theorem Balanced.op {o : Op} {k : o.Ans → ClientM α} (ho : o.LockFree) (hk : ∀ a, Balanced (k a)) :
    Balanced (perform o >>= k) :=
  Prog.Follows.op (ho.lockStep false) hk

/-! ## The calls -/

theorem ensureReadyWith_balanced (params : Value) : Balanced (ensureReadyWith env params) := by
  refine Balanced.op trivial fun state => ?_
  split
  · rfl
  · refine Prog.Follows.op rfl fun _ => Prog.Follows.bind ?_
    refine (follows_of_lockFree ((handshake_basic params).mono Op.Basic.lockFree) true).mono ?_
    exact fun r held hheld => Prog.Follows.op (hheld ▸ rfl) fun _ => rfl

theorem call_balanced (call : Call) : Balanced (call.body env) := by
  have hbasic : ∀ {p : ClientM Outcome}, p.Only Op.Basic → Balanced p := fun hp =>
    follows_of_lockFree (hp.mono Op.Basic.lockFree) false
  have hunit : ∀ {p : ClientM (Except ClientError Unit)}, p.Only Op.Basic →
      Balanced (unitOutcome p) := fun hp => hbasic (andThen_only hp fun _ => trivial)
  cases call with
  | explicitInitialize params => exact hbasic (explicitInitialize_basic params)
  | explicitInitialized => exact hbasic explicitInitialized_basic
  | ensureReady params => exact ensureReadyWith_balanced params
  | typed method params decode => exact hbasic (requestTypedInternal_basic _ _ _ _ _)
  | sendRawRequest method params timeout => exact hbasic (requestValueInternal_basic _ _ _ _)
  | sendRawNotification method params => exact hunit (sendNotification_basic _ _ _)
  | respondServerRequest id result => exact hunit (sendMessage_basic _)
  | respondServerRequestError id error => exact hunit (sendMessage_basic _)
  | setHandler kind handler => exact Balanced.op trivial fun _ => rfl
  | clearHandler kind => exact Balanced.op trivial fun _ => rfl

theorem script_balanced : ∀ script : Script, Balanced (script.run env)
  | .done _ => by rw [Script.run]; rfl
  | .call c next => by
    rw [Script.run]
    exact (call_balanced c).bind fun outcome => script_balanced (next outcome)

/-! ## The inbound loop -/

theorem CloseOp.lockFree (o : Op) (h : CloseOp o) : o.LockFree := by
  cases h <;> trivial

theorem closeDown_balanced (message : String) : Balanced (closeDown message) :=
  follows_of_lockFree ((closeDown_only message).mono CloseOp.lockFree) false

theorem tryAutoHandle_balanced (request : ServerRequestEvent) :
    Balanced (tryAutoHandleServerRequest env request) := by
  cases request with
  | unknown => rfl
  | request kind id params =>
    refine Balanced.op trivial fun handler => ?_
    cases handler with
    | none => rfl
    | some handler =>
      refine (script_balanced _).bind fun response => Balanced.op trivial fun sent => ?_
      cases sent with
      | true => rfl
      | false => exact Balanced.op trivial fun _ => rfl

theorem loopRound_balanced : Balanced (loopRound env) := by
  refine Balanced.op trivial fun item => ?_
  match item with
  | none => rfl
  | some (.error err) => exact (closeDown_balanced _).bind fun _ => rfl
  | some (.ok value) =>
    refine Balanced.bind ?_ ?_
    · rw [processIncomingValue]
      split
      · rfl
      · exact Balanced.op trivial fun _ => rfl
      · exact Balanced.op trivial fun _ => rfl
      · refine (tryAutoHandle_balanced _).bind fun handled => ?_
        cases handled with
        | true => rfl
        | false => exact Balanced.op trivial fun _ => rfl
    · rintro (err | _)
      · exact (closeDown_balanced _).bind fun _ => rfl
      · rfl

/-! ## All runs -/

/-- An operation moves what the lock shows to the task that performs it, and to nobody else. -/
theorem exec_holdsLock {t : Tid} {o : Op} {ch : Choice} {a : o.Ans} {s s' : Inner} {held : Bool}
    (hx : exec t o ch s = some (a, s')) (hq : lockStep (holdsLock t s) o = some held) (u : Tid) :
    holdsLock u s' = if u = t then held else holdsLock u s := by
  by_cases ho : o.LockFree
  · rw [ho.lockStep] at hq
    cases hq
    rw [holdsLock, exec_handshakeLock hx (by rintro rfl; exact ho) (by rintro rfl; exact ho),
      ← holdsLock]
    split
    · rename_i heq
      rw [heq]
    · rfl
  · cases o with
    | handshakeLock =>
      obtain ⟨hnone, rfl⟩ := exec_lock hx
      obtain rfl : held = true := by simpa [holdsLock, hnone, lockStep] using hq.symm
      simp [holdsLock, hnone, eq_comm]
    | handshakeUnlock =>
      cases hx
      cases hh : holdsLock t s with
      | false => rw [hh] at hq; cases hq
      | true =>
        obtain rfl : held = false := by simpa [hh, lockStep] using hq.symm
        have hlock : s.handshakeLock = some t := by simpa [holdsLock] using hh
        simp +contextual [holdsLock, hlock, eq_comm]
    | _ => exact absurd trivial ho

theorem cancel_holdsLock (t u : Tid) (s : Inner) :
    holdsLock u (cancel t s) = if u = t then false else holdsLock u s := by
  rw [cancel]
  split
  · rename_i hlock
    simp +contextual [holdsLock, hlock, eq_comm]
  · rename_i hlock
    split
    · rename_i heq
      simpa [holdsLock, heq] using hlock
    · rfl

/-- What the lock shows to a task is moved by its own operations only. -/
theorem client_disciplined (env : Env) :
    Disciplined (client env) lockStep holdsLock false fun _ _ held => held = false where
  own hx hq := (exec_holdsLock hx hq _).trans (if_pos rfl)
  other hu hx hq := (exec_holdsLock hx hq _).trans (if_neg hu)
  cancel_own t s := (cancel_holdsLock t t s).trans (if_pos rfl)
  cancel_other s hu := (cancel_holdsLock _ _ s).trans (if_neg hu)
  body t call := (call_balanced call).bind fun _ => rfl
  restart := by
    rintro t r p held hres rfl
    cases t with
    | caller n => cases r <;> cases hres
    | inboundLoop => cases r <;> cases hres; exact loopRound_balanced

theorem following_start (env : Env) :
    Following lockStep holdsLock false (fun _ (_ : Result) held => held = false)
      (ClientConfig.start env) where
  live := by
    intro t p ht
    cases t with
    | caller n => cases ht
    | inboundLoop => cases ht; exact loopRound_balanced
  idle _ _ := rfl

/-! ## Bringing a task to its end -/

/-- Reading only what does not end the loop. -/
def Tolerable : (o : Op) → o.Ans → Prop
  | .inboundRecv, item => ¬ EndsLoop item
  | _, _ => True

/-- Nobody else holds the lock. -/
def Unimpeded (t : Tid) (s : Inner) : Prop := s.handshakeLock = none ∨ s.handshakeLock = some t

/-- A frame the loop can make something of. -/
def quietFrame : Value := notificationFrame "" .null

theorem quietFrame_tolerable : Tolerable .inboundRecv (some (.ok quietFrame)) := by
  rintro ⟨err, herr⟩
  rw [quietFrame, notificationFrame, classifyIncoming_notification rfl rfl] at herr
  cases herr

/-- A task that keeps to the lock and is not kept from it can go on. -/
theorem unimpeded_exec {t : Tid} {o : Op} {held : Bool} {s : Inner} (hs : Unimpeded t s)
    (hq : lockStep (holdsLock t s) o = some held) :
    ∃ ch a s', exec t o ch s = some (a, s') ∧ Unimpeded t s' ∧ Tolerable o a := by
  have hquiet : o.LockFree → ∀ ch a s', exec t o ch s = some (a, s') → Unimpeded t s' :=
    fun ho ch a s' hx => by
      rwa [Unimpeded, exec_handshakeLock hx (by rintro rfl; exact ho) (by rintro rfl; exact ho)]
  cases o with
  | handshakeLock =>
    rcases hs with hs | hs
    · exact ⟨.proceed, (), { s with handshakeLock := some t }, by simp [exec, hs], .inr rfl,
        trivial⟩
    · simp [holdsLock, hs, lockStep] at hq
  | handshakeUnlock => exact ⟨.proceed, (), _, rfl, .inl rfl, trivial⟩
  | timeoutRecv rx timeout =>
    cases hslot : s.oneshots rx with
    | empty =>
      have hx : exec t (.timeoutRecv rx timeout) .refuse s = some (.elapsed, s) := by
        simp [exec, hslot, Oneshot.wait]
      exact ⟨_, _, _, hx, hquiet trivial _ _ _ hx, trivial⟩
    | sent reply =>
      have hx : exec t (.timeoutRecv rx timeout) .proceed s = some (.value reply, s) := by
        simp [exec, hslot, Oneshot.wait]
      exact ⟨_, _, _, hx, hquiet trivial _ _ _ hx, trivial⟩
    | closed =>
      have hx : exec t (.timeoutRecv rx timeout) .proceed s = some (.closed, s) := by
        simp [exec, hslot, Oneshot.wait]
      exact ⟨_, _, _, hx, hquiet trivial _ _ _ hx, trivial⟩
  | inboundRecv => exact ⟨.deliver (some (.ok quietFrame)), _, _, rfl, hs, quietFrame_tolerable⟩
  | _ => exact ⟨.proceed, _, _, rfl, hquiet trivial .proceed _ _ rfl, trivial⟩

/-- What a run can lead to: a free lock, with nothing started and nothing read that would end the
loop. -/
structure Frees (env : Env) (law : ClientWorld → ClientEvent → Prop) (c c' : ClientConfig) :
    Prop where
  run : (client env).Run law c c'
  lock : c'.world.shared.handshakeLock = none
  absent : ∀ u, c.tasks u = .absent → c'.tasks u = .absent
  read : ReadEnd .inboundLoop c'.world → ReadEnd .inboundLoop c.world

variable {law : ClientWorld → ClientEvent → Prop} {c : ClientConfig} {t : Tid} {p : ClientM Result}

theorem start_settled (env : Env) : ∀ t p, (ClientConfig.start env).tasks t = .live p →
    ∃ q, p = (client env).settle t q := by
  intro t p ht
  cases t with
  | caller n => cases ht
  | inboundLoop => cases ht; exact ⟨loopRound env, rfl⟩

theorem live_settled (hr : (client env).Run law (ClientConfig.start env) c)
    (ht : c.tasks t = .live p) : (client env).settle t p = p := by
  obtain ⟨q, rfl⟩ := hr.settled (start_settled env) t p ht
  refine Machine.settle_settle (fun t r p hres => ?_) t q
  cases t <;> cases r <;> cases hres
  rfl

/-- Whoever is not kept from the lock can be brought to its end. -/
theorem finish_task (hr : (client env).Run law (ClientConfig.start env) c)
    (hlaw : ∀ w t o a, law w (.op t o a)) (ht : c.tasks t = .live p)
    (hs : Unimpeded t c.world.shared) :
    ∃ c' r, Frees env law c c' ∧ c'.tasks t = .live ((client env).settle t (.ret r)) ∧
      ∀ u, u ≠ t → c'.tasks u = c.tasks u := by
  have hfollowing := (client_disciplined env).run (following_start env) hr
  obtain ⟨c', r, new, hrun, -, htrace, ht', hheld, hfree, hnew, hothers⟩ :=
    (client_disciplined env).finish_run unimpeded_exec (fun w o a _ => hlaw w t o a) hfollowing
      ht (live_settled hr ht) hs
  refine ⟨c', r, ⟨hrun, ?_, fun u hu => ?_, ?_⟩, ht', hothers⟩
  · have hnot : c'.world.shared.handshakeLock ≠ some t := by simpa [holdsLock] using hheld
    exact hfree.resolve_right hnot
  · rw [hothers u ?_, hu]
    rintro rfl
    rw [hu] at ht
    cases ht
  · rintro ⟨item, hends, hmem⟩
    rw [htrace] at hmem
    rcases List.mem_append.1 hmem with hmem | hmem
    · obtain ⟨o, a, heq, ha⟩ := hnew _ hmem
      cases heq
      exact absurd hends ha
    · exact ⟨item, hends, hmem⟩

/-- Who holds the lock is running. -/
theorem lock_holder_live (hr : (client env).Run law (ClientConfig.start env) c)
    (hlock : c.world.shared.handshakeLock = some t) : ∃ p, c.tasks t = .live p := by
  have hfollowing := (client_disciplined env).run (following_start env) hr
  have hholds : holdsLock t c.world.shared = true := by simp [holdsLock, hlock]
  by_contra hno
  rw [hfollowing.idle t (not_exists.1 hno)] at hholds
  cases hholds

/-- **The lock can always be freed.** -/
theorem free_lock (hr : (client env).Run law (ClientConfig.start env) c)
    (hlaw : ∀ w t o a, law w (.op t o a)) : ∃ c', Frees env law c c' := by
  cases hlock : c.world.shared.handshakeLock with
  | none => exact ⟨c, .init, hlock, fun _ => id, id⟩
  | some t =>
    obtain ⟨p, ht⟩ := lock_holder_live hr hlock
    obtain ⟨c', -, hfrees, -, -⟩ := finish_task hr hlaw ht (.inr hlock)
    exact ⟨c', hfrees⟩

end

end CodexSdk

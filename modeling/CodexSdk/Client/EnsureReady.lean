import CodexSdk.Client.Phases

/-!
# `ensure_ready` keeps to the protocol

When all handshakes are made by `ensure_ready`, the holder of `handshake_lock` is the only one who
moves the phase of `CodexSdk.Client.Phases` or writes the handshake state, and whoever takes the
lock finds the two in agreement (`Settled`): this is what makes the next holder resume from the
right step, wherever the previous one gave up.  In between, the state lags behind the phase, but it
is `READY` only when the notification has been queued, which is what callers that do not take the
lock rely on.
-/

set_option autoImplicit false

namespace CodexSdk

open Json Interleave

/-! ## Runs without explicit handshakes -/

mutual

/-- Neither an explicit handshake call nor a raw one, nor a handler that makes one. -/
def Call.Plain : Call → Prop
  | .explicitInitialize _ | .explicitInitialized => False
  | .typed method _ _ | .sendRawRequest method _ _ => method ≠ methodInitialize
  | .sendRawNotification method _ => method ≠ methodInitialized
  | .setHandler _ handler => ∀ params, (handler params).Plain
  | _ => True

def Script.Plain : Script → Prop
  | .done _ => True
  | .call c next => c.Plain ∧ ∀ outcome, (next outcome).Plain

end

/-- Handshakes are made by `ensure_ready`, whose callers wait for it to return. -/
def ensureReadyOnly (_ : ClientWorld) : ClientEvent → Prop
  | .spawn _ call => call.Plain
  | .drop _ => False
  | .op _ _ _ => True

/-! ## The contract -/

/-- The handshake state a phase is left in when the lock is released. -/
def Settled (state : Nat) : Phase → Prop
  | .idle => state < handshakeInitialized
  | .outstanding _ => False
  | .initialized => state = handshakeInitialized
  | .announced => state = handshakeReady

structure Once (s : Inner) (tr : List ClientEvent) (phase : Phase) : Prop where
  accepted : phaseOf tr = some phase
  busy : ∀ t, phase = .outstanding t → s.handshakeLock = some t
  free : s.handshakeLock = none → Settled s.handshakeState phase
  ready : s.handshakeState = handshakeReady → phase = .announced
  /-- The lock is held by a task that has done something. -/
  owner : ∀ t, s.handshakeLock = some t → ∃ e ∈ tr, e.tid = t
  handlers : ∀ kind handler, s.handlers kind = some handler → ∀ params, (handler params).Plain

/-- What the others leave alone: the handshake, as long as `t` holds the lock, and the
announcement. -/
structure Respects (t : Tid) (w w' : ClientWorld) : Prop where
  elsewhere : Elsewhere t w w'
  locked : w.shared.handshakeLock = some t → w'.shared.handshakeLock = some t ∧
    w'.shared.handshakeState = w.shared.handshakeState ∧ phaseOf w'.trace = phaseOf w.trace
  unlocked : w.shared.handshakeLock ≠ some t → w'.shared.handshakeLock ≠ some t
  announced : phaseOf w.trace = some .announced → phaseOf w'.trace = some .announced

theorem Respects.refl (t : Tid) (w : ClientWorld) : Respects t w w :=
  ⟨.refl t w, fun h => ⟨h, rfl, rfl⟩, id, id⟩

theorem Respects.trans (t : Tid) {w w' w'' : ClientWorld} (h : Respects t w w')
    (h' : Respects t w' w'') : Respects t w w'' where
  elsewhere := h.elsewhere.trans t h'.elsewhere
  locked hl := by
    obtain ⟨hl₁, hs₁, hp₁⟩ := h.locked hl
    obtain ⟨hl₂, hs₂, hp₂⟩ := h'.locked hl₁
    exact ⟨hl₂, hs₂.trans hs₁, hp₂.trans hp₁⟩
  unlocked hl := h'.unlocked (h.unlocked hl)
  announced ha := h'.announced (h.announced ha)

def once : Contract Tid Call Op Inner Op.Ans where
  inv w := ∃ phase, Once w.shared w.trace phase
  rely := Respects
  law := ensureReadyOnly
  rely_refl := Respects.refl
  rely_trans t := Respects.trans t

/-- What the holder of the lock knows of the handshake. -/
structure Knows (t : Tid) (state : Nat) (phase : Phase) (w : ClientWorld) : Prop where
  lock : w.shared.handshakeLock = some t
  state : w.shared.handshakeState = state
  phase : phaseOf w.trace = some phase

/-- The phase in which a success or an error leaves the handshake. -/
def Leaves {α : Type} (t : Tid) (state : Nat) (ok error : Phase) :
    Except ClientError α → ClientWorld → Prop
  | .ok _, w => Knows t state ok w
  | .error _, w => Knows t state error w

/-- A reply to `initialize` counts if it decodes. -/
def Replied (t : Tid) (state : Nat) : Outcome → ClientWorld → Prop
  | .ok raw, w => Knows t state (if (decodesInitialize raw).isOk then .initialized else .idle) w
  | .error _, w => Knows t state .idle w

/-- The handshake belongs to the holder of the lock, who releases it in a settled state. -/
def OncePermitted (t : Tid) (w : ClientWorld) : Op → Prop
  | .handshakeStore v => w.shared.handshakeLock = some t ∧
      (v = handshakeReady → phaseOf w.trace = some .announced)
  | .handshakeFetchMax _ => False
  | .handshakeUnlock => ∃ state phase, Knows t state phase w ∧ Settled state phase
  | .outboundSend frame =>
    (isInitializeRequest frame = true → ∃ state, Knows t state .idle w) ∧
      (isInitializedNotification frame = true → ∃ state, Knows t state .initialized w)
  | .handlerWrite _ (some handler) => ∀ params, (handler params).Plain
  | _ => True

section

variable {t : Tid} {w w' : ClientWorld} {e : ClientEvent} {s : Inner} {phase phase' : Phase}

theorem Phase.announced_next (h : Phase.announced.next e = some phase) : phase = .announced := by
  rcases Phase.next_cases h with ⟨u, hs⟩ | hs | ⟨u, answer, heq, -⟩ | ⟨rfl, -⟩
  · cases (hs.next h).1
  · cases (hs.next h).1
  · cases heq
  · rfl

/-- Only sending and waiting show in the phase. -/
theorem Phase.next_same {o : Op} {a : o.Ans} (hsend : ∀ frame, o ≠ .outboundSend frame)
    (hwait : ∀ rx timeout, o ≠ .timeoutRecv rx timeout) :
    phase.next (.op t o a) = some phase := by
  cases o with
  | outboundSend frame => exact absurd rfl (hsend frame)
  | timeoutRecv rx timeout => exact absurd rfl (hwait rx timeout)
  | _ => cases phase <;> rfl

theorem phaseOf_same {o : Op} {a : o.Ans} {tr : List ClientEvent}
    (hsend : ∀ frame, o ≠ .outboundSend frame) (hwait : ∀ rx timeout, o ≠ .timeoutRecv rx timeout)
    (h : phaseOf tr = some phase) : phaseOf (.op t o a :: tr) = some phase := by
  rw [phaseOf_cons, h]
  exact Phase.next_same hsend hwait

/-- Waiting shows only if it is for the outstanding `initialize`. -/
theorem Phase.next_wait {rx : Nat} {timeout : Duration} {answer : Waited}
    (h : phase ≠ .outstanding t) :
    phase.next (.op t (.timeoutRecv rx timeout) answer) = some phase := by
  cases phase with
  | outstanding u => exact if_neg fun heq : t = u => h (heq ▸ rfl)
  | _ => rfl

theorem Phase.next_answer (rx : Nat) (timeout : Duration) (answer : Waited) :
    (Phase.outstanding t).next (.op t (.timeoutRecv rx timeout) answer)
      = some (if answer.succeeds then .initialized else .idle) := if_pos rfl

/-- Sending any other frame does not show. -/
theorem Phase.next_send {frame : Value} {sent : Bool}
    (h : sent = true →
      isInitializeRequest frame = false ∧ isInitializedNotification frame = false) :
    phase.next (.op t (.outboundSend frame) sent) = some phase := by
  cases sent with
  | false => cases phase <;> rfl
  | true => simp [Phase.next, h rfl]

/-- A step of `t`, as the others see it. -/
theorem Once.admits (h : Once w.shared w.trace phase) (he : e.tid = t)
    (hn : phase.next e = some phase') (h' : Once s (e :: w.trace) phase')
    (hlock : ∀ u, u ≠ t → (s.handshakeLock = some u ↔ w.shared.handshakeLock = some u))
    (hsame : ∀ u, u ≠ t → w.shared.handshakeLock = some u →
      s.handshakeState = w.shared.handshakeState ∧ phase' = phase) :
    once.Admits t w (w.push e s) := by
  have hphase : phaseOf (e :: w.trace) = phase.next e := by rw [phaseOf_cons, h.accepted]; rfl
  refine ⟨⟨phase', h'⟩, fun u hu => ⟨Elsewhere.push hu w he s, fun hl => ?_, fun hl hl' => ?_, ?_⟩⟩
  · obtain ⟨hs, hp⟩ := hsame u hu hl
    refine ⟨(hlock u hu).2 hl, hs, ?_⟩
    change phaseOf (e :: w.trace) = _
    rw [hphase, hn, hp, h.accepted]
  · exact hl ((hlock u hu).1 hl')
  · intro hann
    obtain rfl : phase = .announced := Option.some.inj (h.accepted.symm.trans hann)
    change phaseOf (e :: w.trace) = _
    rw [hphase, hn, Phase.announced_next hn]

/-- The owner of the lock has still done something. -/
theorem owner_cons {tr : List ClientEvent} {u : Tid} (h : ∃ e' ∈ tr, e'.tid = u) :
    ∃ e' ∈ e :: tr, e'.tid = u :=
  h.imp fun _ he => ⟨List.mem_cons_of_mem _ he.1, he.2⟩

theorem Once.phase_cons (h : Once w.shared w.trace phase) (hn : phase.next e = some phase') :
    phaseOf (e :: w.trace) = some phase' := by
  rw [phaseOf_cons, h.accepted]
  exact hn

/-- A step that leaves the phase, the state, the lock and the handlers alone. -/
theorem Once.same (h : Once w.shared w.trace phase) (he : e.tid = t)
    (hn : phase.next e = some phase) (hs : s.handshakeState = w.shared.handshakeState)
    (hl : s.handshakeLock = w.shared.handshakeLock) (hh : s.handlers = w.shared.handlers) :
    once.Admits t w (w.push e s) := by
  refine h.admits he hn ⟨h.phase_cons hn, ?_, ?_, ?_, ?_, ?_⟩ (fun u _ => by rw [hl])
    fun u _ _ => ⟨hs, rfl⟩
  · exact hl ▸ h.busy
  · exact hl ▸ hs ▸ h.free
  · exact hs ▸ h.ready
  · exact fun u hu => owner_cons (h.owner u (hl ▸ hu))
  · exact hh ▸ h.handlers

/-- A step of the holder, which moves the phase and may move the state. -/
theorem Once.held (h : Once w.shared w.trace phase) (he : e.tid = t)
    (hlock : w.shared.handshakeLock = some t) (hn : phase.next e = some phase')
    (hbusy : ∀ u, phase' = .outstanding u → u = t)
    (hready : s.handshakeState = handshakeReady → phase' = .announced)
    (hl : s.handshakeLock = w.shared.handshakeLock) (hh : s.handlers = w.shared.handlers) :
    once.Admits t w (w.push e s) := by
  refine h.admits he hn ⟨h.phase_cons hn, ?_, ?_, hready, ?_, ?_⟩ (fun u _ => by rw [hl]) ?_
  · rintro u hu
    rw [hbusy u hu, hl, hlock]
  · intro hnone
    rw [hl, hlock] at hnone
    cases hnone
  · exact fun u hu => owner_cons (h.owner u (hl ▸ hu))
  · exact hh ▸ h.handlers
  · intro u hu hu'
    rw [hlock] at hu'
    exact absurd (Option.some.inj hu').symm hu

/-- Taking the lock. -/
theorem Once.lock (h : Once w.shared w.trace phase) (hnone : w.shared.handshakeLock = none) :
    once.Admits t w
      (w.push (.op t .handshakeLock ()) { w.shared with handshakeLock := some t }) := by
  have hn : phase.next (.op t .handshakeLock ()) = some phase :=
    Phase.next_same (by simp) (by simp)
  refine h.admits rfl hn ⟨h.phase_cons hn, ?_, by simp, h.ready, ?_, h.handlers⟩ ?_ ?_
  · intro u hu
    rw [h.busy u hu] at hnone
    cases hnone
  · rintro u ⟨⟩
    exact ⟨_, List.mem_cons_self, rfl⟩
  · intro u hu
    rw [hnone]
    simpa using hu.symm
  · intro u _ hu
    rw [hnone] at hu
    cases hu

/-- Releasing it in a settled state. -/
theorem Once.unlock {state : Nat} (h : Once w.shared w.trace phase) (hk : Knows t state phase' w)
    (hset : Settled state phase') :
    once.Admits t w
      (w.push (.op t .handshakeUnlock ()) { w.shared with handshakeLock := none }) := by
  obtain ⟨hlock, rfl, hphase⟩ := hk
  obtain rfl : phase = phase' := Option.some.inj (h.accepted.symm.trans hphase)
  have hn : phase.next (.op t .handshakeUnlock ()) = some phase :=
    Phase.next_same (by simp) (by simp)
  refine h.admits rfl hn ⟨h.phase_cons hn, ?_, fun _ => hset, h.ready, by simp, h.handlers⟩ ?_ ?_
  · rintro u rfl
    exact hset.elim
  · intro u hu
    rw [hlock]
    simpa using hu.symm
  · intro u hu hu'
    exact absurd (Option.some.inj (hlock.symm.trans hu')).symm hu

/-- The end of a wait ends the outstanding `initialize`, if it is the waiting task's. -/
theorem Once.wait {rx : Nat} {timeout : Duration} {answer : Waited}
    (h : Once w.shared w.trace phase) (hs : s.handshakeState = w.shared.handshakeState)
    (hl : s.handshakeLock = w.shared.handshakeLock) (hh : s.handlers = w.shared.handlers) :
    once.Admits t w (w.push (.op t (.timeoutRecv rx timeout) answer) s) := by
  by_cases hout : phase = .outstanding t
  · subst hout
    refine h.held rfl (h.busy t rfl) (Phase.next_answer rx timeout answer) ?_ ?_ hl hh
    · intro u hu
      split at hu <;> cases hu
    · intro hready
      cases h.ready (hs ▸ hready)
  · exact h.same rfl (Phase.next_wait hout) hs hl hh

/-- Sending moves the phase with the two frames of the handshake only. -/
theorem Once.send {frame : Value} {sent : Bool} (h : Once w.shared w.trace phase)
    (hp : OncePermitted t w (.outboundSend frame))
    (hs : s.handshakeState = w.shared.handshakeState)
    (hl : s.handshakeLock = w.shared.handshakeLock) (hh : s.handlers = w.shared.handlers) :
    once.Admits t w (w.push (.op t (.outboundSend frame) sent) s) := by
  obtain ⟨hinit, hann⟩ := hp
  by_cases hframe : sent = true → isInitializeRequest frame = false ∧
      isInitializedNotification frame = false
  · exact h.same rfl (Phase.next_send hframe) hs hl hh
  · obtain ⟨rfl, hframe⟩ := Classical.not_imp.1 hframe
    cases hi : isInitializeRequest frame with
    | true =>
      obtain ⟨state, hlock, hstate, hphase⟩ := hinit hi
      obtain rfl : phase = .idle := Option.some.inj (h.accepted.symm.trans hphase)
      have hsent : Phase.idle.next (.op t (.outboundSend frame) true) = some (.outstanding t) := by
        simp [Phase.next, hi]
      refine h.held rfl hlock hsent ?_ ?_ hl hh
      · rintro u ⟨⟩
        rfl
      · intro hready
        cases h.ready (hs ▸ hready)
    | false =>
      have hn : isInitializedNotification frame = true := by simpa [hi] using hframe
      obtain ⟨state, hlock, hstate, hphase⟩ := hann hn
      obtain rfl : phase = .initialized := Option.some.inj (h.accepted.symm.trans hphase)
      have hsent : Phase.initialized.next (.op t (.outboundSend frame) true) = some .announced := by
        simp [Phase.next, hi, hn]
      exact h.held rfl hlock hsent (by rintro u ⟨⟩) (fun _ => rfl) hl hh

/-- Registering a handler that asks for nothing of the handshake, or none. -/
theorem Once.setHandler {kind : ServerRequestKind} {handler : Option Handler}
    (h : Once w.shared w.trace phase) (hp : OncePermitted t w (.handlerWrite kind handler)) :
    once.Admits t w (w.push (.op t (.handlerWrite kind handler) ())
      { w.shared with handlers := Function.update w.shared.handlers kind handler }) := by
  have hn : phase.next (.op t (.handlerWrite kind handler) ()) = some phase :=
    Phase.next_same (by simp) (by simp)
  refine h.admits rfl hn ⟨h.phase_cons hn, h.busy, h.free, h.ready,
    fun u hu => owner_cons (h.owner u hu), ?_⟩ (fun _ _ => Iff.rfl) fun _ _ _ => ⟨rfl, rfl⟩
  intro kind' handler' hh
  by_cases hkind : kind' = kind
  · subst hkind
    obtain rfl : handler = some handler' := by simpa using hh
    exact hp
  · exact h.handlers kind' handler' (by simpa [Function.update_of_ne hkind] using hh)

end

theorem once_keeps : Keeps once OncePermitted := by
  rintro t w o ch a s ⟨phase, hinv⟩ hp hx -
  -- most operations show neither in the phase nor in the state
  have hquiet : o.Quiet → (∀ frame, o ≠ .outboundSend frame) →
      (∀ rx timeout, o ≠ .timeoutRecv rx timeout) →
      (∀ kind handler, o ≠ .handlerWrite kind handler) →
      once.Admits t w (w.push (.op t o a) s) := fun ho hsend hwait hwrite =>
    hinv.same rfl (Phase.next_same hsend hwait) (ho.exec hx).1 (ho.exec hx).2
      (exec_handlers hx hwrite)
  cases o with
  | handshakeStore v =>
    cases hx
    obtain ⟨hlock, hready⟩ := hp
    refine hinv.held rfl hlock (Phase.next_same (by simp) (by simp)) ?_ ?_ rfl rfl
    · intro u hu
      exact Option.some.inj ((hinv.busy u hu).symm.trans hlock)
    · exact fun hv => Option.some.inj (hinv.accepted.symm.trans (hready hv))
  | handshakeFetchMax v => exact hp.elim
  | handshakeLock =>
    obtain ⟨hnone, rfl⟩ := exec_lock hx
    exact hinv.lock hnone
  | handshakeUnlock =>
    cases hx
    obtain ⟨state, phase', hk, hset⟩ := hp
    exact hinv.unlock hk hset
  | timeoutRecv rx timeout =>
    obtain ⟨hs, hlk⟩ := Op.Quiet.exec (o := .timeoutRecv rx timeout) trivial hx
    exact hinv.wait hs hlk (exec_handlers hx (by simp))
  | outboundSend frame =>
    obtain ⟨hs, hlk⟩ := Op.Quiet.exec (o := .outboundSend frame) trivial hx
    exact hinv.send hp hs hlk (exec_handlers hx (by simp))
  | handlerWrite kind handler =>
    cases hx
    exact hinv.setHandler hp
  | _ => exact hquiet trivial (by simp) (by simp) (by simp)

/-! ## The holder of the lock -/

section

variable {env : Env} {t : Tid} {α : Type} {w w' : ClientWorld} {Q : α → ClientWorld → Prop}
  {state : Nat} {phase : Phase}

theorem Knows.stable (h : Knows t state phase w) (hr : Respects t w w') :
    Knows t state phase w' := by
  obtain ⟨hlock, hstate, hphase⟩ := hr.locked h.lock
  exact ⟨hlock, hstate.trans h.state, hphase.trans h.phase⟩

theorem Knows.push {e : ClientEvent} {s : Inner} {phase' : Phase} (h : Knows t state phase w)
    (hn : phase.next e = some phase') (hs : s.handshakeState = w.shared.handshakeState)
    (hl : s.handshakeLock = w.shared.handshakeLock) : Knows t state phase' (w.push e s) := by
  refine ⟨hl.trans h.lock, hs.trans h.state, ?_⟩
  rw [World.push_trace, phaseOf_cons, h.phase]
  exact hn

/-- An operation that shows neither in the phase nor in the state. -/
theorem once_hold {o : Op} {k : o.Ans → ClientM α} (ho : o.Quiet)
    (hsend : ∀ frame, o ≠ .outboundSend frame) (hwait : ∀ rx timeout, o ≠ .timeoutRecv rx timeout)
    (hwrite : ∀ kind handler, o ≠ .handlerWrite kind handler) (hw : Knows t state phase w)
    (h : ∀ a w', Knows t state phase w' → Safe (client env) once t Q (k a) w') :
    Safe (client env) once t Q (perform o >>= k) w := by
  refine safe_op once_keeps fun w₁ hr _ => ⟨?_, fun ch a s hx _ _ => h a _ ?_⟩
  · cases o with
    | outboundSend frame => exact absurd rfl (hsend frame)
    | handlerWrite kind handler => exact absurd rfl (hwrite kind handler)
    | _ => trivial
  · exact (hw.stable hr).push (Phase.next_same hsend hwait) (ho.exec hx).1 (ho.exec hx).2

/-- The holder sees the state it knows. -/
theorem once_load {k : Nat → ClientM α} (hw : Knows t state phase w)
    (h : ∀ w', Knows t state phase w' → Safe (client env) once t Q (k state) w') :
    Safe (client env) once t Q (perform .handshakeLoad >>= k) w := by
  refine safe_op once_keeps fun w₁ hr _ => ⟨trivial, fun ch a s hx _ _ => ?_⟩
  cases hx
  have hw₁ := hw.stable hr
  rw [hw₁.state]
  exact h _ (hw₁.push (Phase.next_same (by simp) (by simp)) rfl rfl)

theorem once_store {v : Nat} {k : Unit → ClientM α} (hw : Knows t state phase w)
    (hv : v = handshakeReady → phase = .announced)
    (h : ∀ w', Knows t v phase w' → Safe (client env) once t Q (k ()) w') :
    Safe (client env) once t Q (perform (.handshakeStore v) >>= k) w := by
  refine safe_op once_keeps fun w₁ hr _ => ?_
  have hw₁ := hw.stable hr
  refine ⟨⟨hw₁.lock, fun heq => hv heq ▸ hw₁.phase⟩, fun ch a s hx _ _ => ?_⟩
  cases hx
  exact h _ ⟨hw₁.lock, rfl, phaseOf_same (by simp) (by simp) hw₁.phase⟩

/-- Sending a frame of the handshake moves the phase if it succeeds. -/
theorem once_send {frame : Value} {phase' : Phase} (hw : Knows t state phase w)
    (hinit : isInitializeRequest frame = true → phase = .idle)
    (hann : isInitializedNotification frame = true → phase = .initialized)
    (hn : phase.next (.op t (.outboundSend frame) true) = some phase') :
    Safe (client env) once t (Leaves t state phase' phase) (sendMessage frame) w := by
  refine safe_op once_keeps fun w₁ hr _ => ?_
  have hw₁ := hw.stable hr
  refine ⟨⟨fun h => ⟨state, hinit h ▸ hw₁⟩, fun h => ⟨state, hann h ▸ hw₁⟩⟩,
    fun ch sent s hx _ _ => ?_⟩
  obtain ⟨hs, hl⟩ := Op.Quiet.exec (o := .outboundSend frame) trivial hx
  cases sent with
  | true => exact hw₁.push hn hs hl
  | false => exact hw₁.push (Phase.next_send (by simp)) hs hl

/-- What is known when the wait for the answer to `initialize` is over. -/
theorem once_awaitReply {method : String} {timeout : Duration} {id : RequestId} {rx : Nat}
    (hw : Knows t state (.outstanding t) w) :
    Safe (client env) once t (Replied t state) (awaitReply method timeout id rx) w := by
  refine safe_op once_keeps fun w₁ hr _ => ⟨trivial, fun ch answer s hx _ _ => ?_⟩
  have hw₁ := hw.stable hr
  obtain ⟨hs, hl⟩ := Op.Quiet.exec (o := .timeoutRecv rx timeout) trivial hx
  have hw₂ : Knows t state (if answer.succeeds then .initialized else .idle)
      (w₁.push (.op t (.timeoutRecv rx timeout) answer) s) :=
    hw₁.push (Phase.next_answer rx timeout answer) hs hl
  match answer with
  | .value (.ok raw) => exact hw₂
  | .value (.error error) => exact hw₂
  | .closed => exact hw₂
  | .elapsed =>
    exact once_hold trivial (by simp) (by simp) (by simp) hw₂ fun _ _ hw₃ => hw₃

theorem once_roundTrip {params : Value} {timeout : Duration} (hw : Knows t state .idle w) :
    Safe (client env) once t (Replied t state) (roundTrip methodInitialize params timeout) w := by
  refine once_hold trivial (by simp) (by simp) (by simp) hw fun n w₁ hw₁ => ?_
  refine once_hold trivial (by simp) (by simp) (by simp) hw₁ fun tx w₂ hw₂ => ?_
  refine once_hold trivial (by simp) (by simp) (by simp) hw₂ fun _ w₃ hw₃ => ?_
  refine Safe.bind ((once_send hw₃ (fun _ => rfl) (by simp) rfl).mono ?_)
  rintro (e | _) w₄ hw₄
  · exact once_hold trivial (by simp) (by simp) (by simp) hw₄ fun _ _ hw₅ => hw₅
  · exact once_awaitReply hw₄

theorem once_requestGate {method : String} {requiresReady : Bool} (hw : Knows t state phase w) :
    Safe (client env) once t (fun _ w => Knows t state phase w)
      (requestGate method requiresReady) w :=
  once_load hw fun _ hw₁ => hw₁

/-- The `initialize` request of the holder moves the phase if and only if it succeeds. -/
theorem once_initializeRequest {params : Value} (hw : Knows t state .idle w) :
    Safe (client env) once t (Leaves t state .initialized .idle)
      (requestTypedInternal env methodInitialize params none false decodesInitialize) w := by
  refine safe_andThen (Safe.mono (Q := Replied t state) ?_ ?_)
  · refine safe_andThen ((once_requestGate hw).mono ?_)
    rintro (e | _) w₁ hw₁
    · exact hw₁
    · exact once_roundTrip hw₁
  · rintro (e | raw) w₁ hw₁
    · exact hw₁
    · dsimp only
      change Knows t state (if (decodesInitialize raw).isOk then _ else _) w₁ at hw₁
      cases hd : decodesInitialize raw with
      | ok _ => rw [hd] at hw₁; exact hw₁
      | error source => rw [hd] at hw₁; exact hw₁

/-- What the holder has settled on. -/
def Settles {α : Type} (t : Tid) (r : Except ClientError α) (w : ClientWorld) : Prop :=
  ∃ state phase, Knows t state phase w ∧ Settled state phase ∧ ∀ a, r = .ok a → phase = .announced

/-- The first half, from a settled state that is not `READY`. -/
theorem once_ensureInitialized {params : Value} (hw : Knows t state phase w)
    (hset : Settled state phase) (hstate : state ≠ handshakeReady) :
    Safe (client env) once t (fun r w => match r with
      | .ok _ => Knows t handshakeInitialized .initialized w
      | .error _ => Settles t (r : Except ClientError Unit) w)
      (ensureInitialized env params) w := by
  refine once_load hw fun w₁ hw₁ => ?_
  split
  · rename_i hlt
    obtain rfl : phase = .idle := by
      cases phase with
      | idle => rfl
      | outstanding u => exact hset.elim
      | initialized => exact absurd hset (Nat.ne_of_lt hlt)
      | announced => exact absurd hset hstate
    refine once_store hw₁ (fun h => absurd h (by decide)) fun w₂ hw₂ => ?_
    refine Safe.bind ((once_initializeRequest hw₂).mono ?_)
    rintro (e | _) w₃ hw₃
    · refine once_store hw₃ (fun h => absurd h (by decide)) fun w₄ hw₄ => ?_
      exact ⟨_, _, hw₄, show handshakeNew < _ by decide, by rintro _ ⟨⟩⟩
    · exact once_store hw₃ (fun h => absurd h (by decide)) fun w₄ hw₄ => hw₄
  · rename_i hge
    cases phase with
    | idle => exact absurd hset hge
    | outstanding u => exact hset.elim
    | initialized => cases hset; exact hw₁
    | announced => exact absurd hset hstate

/-- The second half. -/
theorem once_announceReady (hw : Knows t handshakeInitialized .initialized w) :
    Safe (client env) once t (Settles t) announceReady w := by
  refine safe_andThen (Safe.mono (Q := Leaves t handshakeInitialized .announced .initialized) ?_ ?_)
  · exact safe_andThen (once_send hw (by simp) (fun _ => rfl) rfl)
  · rintro (e | _) w₁ hw₁
    · exact ⟨_, _, hw₁, rfl, by rintro _ ⟨⟩⟩
    · exact once_store hw₁ (fun _ => rfl) fun w₂ hw₂ => ⟨_, _, hw₂, rfl, fun _ _ => rfl⟩

theorem once_handshake {params : Value} (hw : Knows t state phase w) (hset : Settled state phase) :
    Safe (client env) once t (Settles t) (handshake env params) w := by
  refine once_load hw fun w₁ hw₁ => ?_
  split
  · rename_i hready
    refine ⟨_, _, hw₁, hset, fun _ _ => ?_⟩
    cases phase with
    | idle =>
      have hlt : state < handshakeInitialized := hset
      rw [hready] at hlt
      exact absurd hlt (by decide)
    | outstanding u => exact hset.elim
    | initialized => exact absurd (hset.symm.trans hready) (by decide)
    | announced => rfl
  · rename_i hne
    refine safe_andThen ((once_ensureInitialized hw₁ hset hne).mono ?_)
    rintro (e | _) w₂ h
    · exact h
    · exact once_announceReady h

/-- What `ensure_ready` promises. -/
def Announced (t : Tid) (r : Outcome) (w : ClientWorld) : Prop :=
  w.shared.handshakeLock ≠ some t ∧ ∀ v, r = .ok v → phaseOf w.trace = some .announced

/-- The handshake and the release of the lock. -/
theorem once_locked {params : Value} (hw : Knows t state phase w) (hset : Settled state phase) :
    Safe (client env) once t (Announced t)
      (do
        let result ← handshake env params
        perform .handshakeUnlock
        return (fun _ => Value.null) <$> result) w := by
  refine Safe.bind ((once_handshake hw hset).mono ?_)
  rintro r w₁ ⟨state₁, phase₁, hw₁, hset₁, hann⟩
  refine safe_op once_keeps fun w₂ hr _ => ?_
  have hw₂ := hw₁.stable hr
  refine ⟨⟨_, _, hw₂, hset₁⟩, fun ch _ s hx _ _ => ?_⟩
  cases hx
  refine ⟨nofun, fun v hv => ?_⟩
  cases r with
  | ok _ => exact hann () rfl ▸ phaseOf_same (by simp) (by simp) hw₂.phase
  | error e => cases hv

/-- **`ensure_ready` returns `Ok` only after the announcement**, and leaves the handshake
settled. -/
theorem once_ensureReadyWith {params : Value} (hw : w.shared.handshakeLock ≠ some t) :
    Safe (client env) once t (Announced t) (ensureReadyWith env params) w := by
  refine safe_op once_keeps fun w₁ hr hinv => ⟨trivial, fun ch a s hx _ _ => ?_⟩
  cases hx
  have hw₁ : w₁.shared.handshakeLock ≠ some t := Respects.unlocked hr hw
  split
  · rename_i hready
    obtain ⟨phase, hinv⟩ := hinv
    obtain rfl := hinv.ready hready
    exact ⟨hw₁, fun _ _ => phaseOf_same (by simp) (by simp) hinv.accepted⟩
  · refine safe_op once_keeps fun w₂ _ hinv => ⟨trivial, fun ch _ s hx _ _ => ?_⟩
    obtain ⟨phase, hinv⟩ := hinv
    rw [exec] at hx
    split at hx
    · rename_i hnone
      cases hx
      have hphase : phaseOf (.op t .handshakeLock () :: w₂.trace) = some phase :=
        phaseOf_same (by simp) (by simp) hinv.accepted
      exact once_locked ⟨rfl, rfl, hphase⟩ (hinv.free hnone)
    · cases hx

/-! ## Everybody else -/

/-- The operations that have nothing to do with the handshake. -/
def Op.Bystander : Op → Prop
  | .handshakeStore _ | .handshakeFetchMax _ | .handshakeLock | .handshakeUnlock
  | .handlerWrite _ _ => False
  | .outboundSend frame =>
    isInitializeRequest frame = false ∧ isInitializedNotification frame = false
  | _ => True

theorem RequestOp.bystander {method : String} {params : Value} (hm : method ≠ methodInitialize)
    (o : Op) (h : RequestOp method params o) : o.Bystander := by
  cases h with
  | send id => exact ⟨by simpa using hm, rfl⟩
  | _ => trivial

theorem NotificationOp.bystander {method : String} {params : Value}
    (hm : method ≠ methodInitialized) (o : Op) (h : NotificationOp method params o) :
    o.Bystander := by
  cases h with
  | gate => trivial
  | send => exact ⟨rfl, by simpa using hm⟩

theorem Op.Bystander.permitted {o : Op} (ho : o.Bystander) : OncePermitted t w o := by
  cases o with
  | outboundSend frame =>
    exact ⟨fun h => absurd h (by simp [ho.1]), fun h => absurd h (by simp [ho.2])⟩
  | handlerWrite kind handler => exact ho.elim
  | _ => trivial

theorem Op.Bystander.quiet {o : Op} (ho : o.Bystander) : o.Quiet := by
  cases o <;> trivial

theorem unlocked_stable : once.Stable t fun w => w.shared.handshakeLock ≠ some t :=
  fun _ _ hr h => Respects.unlocked hr h

theorem once_bystander {p : ClientM α} (hp : p.Only Op.Bystander)
    (hw : w.shared.handshakeLock ≠ some t) :
    Safe (client env) once t (fun _ w => w.shared.handshakeLock ≠ some t) p w := by
  refine Safe.of_only unlocked_stable hp ?_ hw
  intro o w ch a s ho hinv hJ hx hl
  exact ⟨once_keeps t w o ch a s hinv ho.permitted hx hl, (ho.quiet.exec hx).2 ▸ hJ⟩

/-- What a task promises: it does not hold the lock, and an `ensure_ready` that succeeded has seen
the announcement. -/
def CallAnnounced (t : Tid) (call : Call) (r : Outcome) (w : ClientWorld) : Prop :=
  w.shared.handshakeLock ≠ some t ∧ ∀ params v, call = .ensureReady params → r = .ok v →
    phaseOf w.trace = some .announced

/-- **Every plain call** leaves the handshake to `ensure_ready`. -/
theorem once_call {call : Call} (hplain : call.Plain) (hw : w.shared.handshakeLock ≠ some t) :
    Safe (client env) once t (CallAnnounced t call) (call.body env) w := by
  have hother : ∀ {p : ClientM Outcome}, (∀ params, call ≠ .ensureReady params) →
      p.Only Op.Bystander → Safe (client env) once t (CallAnnounced t call) p w := fun hne hp =>
    (once_bystander hp hw).mono fun _ _ h => ⟨h, fun params _ heq _ => absurd heq (hne params)⟩
  have hunit : ∀ {p : ClientM (Except ClientError Unit)}, p.Only Op.Bystander →
      (unitOutcome p).Only Op.Bystander := fun hp => andThen_only hp fun _ => trivial
  cases call with
  | explicitInitialize params => exact hplain.elim
  | explicitInitialized => exact hplain.elim
  | ensureReady params =>
    exact (once_ensureReadyWith hw).mono fun r w h => ⟨h.1, fun _ v _ hv => h.2 v hv⟩
  | typed method params decode =>
    exact hother (by simp) ((requestTypedInternal_only _ _ _ _ _).mono (RequestOp.bystander hplain))
  | sendRawRequest method params timeout =>
    exact hother (by simp) ((requestValueInternal_only _ _ _ _).mono (RequestOp.bystander hplain))
  | sendRawNotification method params =>
    exact hother (by simp)
      (hunit ((sendNotification_only _ _ _).mono (NotificationOp.bystander hplain)))
  | respondServerRequest id result =>
    exact hother (by simp) (hunit ⟨not_handshake_of_none rfl, fun _ => trivial⟩)
  | respondServerRequestError id error =>
    exact hother (by simp) (hunit ⟨not_handshake_of_none rfl, fun _ => trivial⟩)
  | setHandler kind handler =>
    refine safe_op once_keeps fun w₁ hr _ => ⟨hplain, fun ch _ s hx _ _ => ?_⟩
    cases hx
    have hw₁ : w₁.shared.handshakeLock ≠ some t := Respects.unlocked hr hw
    exact ⟨hw₁, by rintro _ _ ⟨⟩⟩
  | clearHandler kind =>
    refine safe_op once_keeps fun w₁ hr _ => ⟨trivial, fun ch _ s hx _ _ => ?_⟩
    cases hx
    have hw₁ : w₁.shared.handshakeLock ≠ some t := Respects.unlocked hr hw
    exact ⟨hw₁, by rintro _ _ ⟨⟩⟩

/-- A handler that makes only plain calls. -/
theorem once_script : ∀ (script : Script), script.Plain → ∀ {w : ClientWorld},
    w.shared.handshakeLock ≠ some t →
      Safe (client env) once t (fun _ w => w.shared.handshakeLock ≠ some t) (script.run env) w
  | .done _, _, _, hw => by rw [Script.run]; exact hw
  | .call c next, ⟨hc, hnext⟩, _, hw => by
    rw [Script.run]
    exact Safe.bind ((once_call hc hw).mono fun outcome w' h =>
      once_script (next outcome) (hnext outcome) h.1)

/-- The loop has nothing to do with the handshake, apart from its handlers. -/
theorem once_loopRules (env : Env) (t : Tid) :
    LoopRules env once t OncePermitted fun w => w.shared.handshakeLock ≠ some t := by
  have hbystander : ∀ o, LoopOp env o → o.Bystander := by
    intro o ho
    cases ho with
    | respond id context outcome => cases outcome <;> exact not_handshake_of_none rfl
    | _ => trivial
  exact ⟨once_keeps, fun o w ho _ => (hbystander o ho).permitted, unlocked_stable,
    fun _ _ hr => Elsewhere.suffix (Respects.elsewhere hr),
    fun o w ch a s ho hw hx => ((hbystander o ho).quiet.exec hx).2 ▸ hw,
    fun w kind handler ⟨_, hinv⟩ hh params w' hw' =>
      once_script _ (hinv.handlers kind handler hh params) hw'⟩

end

/-! ## All runs -/

/-- What a task has come to, when it has returned. -/
structure OncePost (t : Tid) (r : Result) (w : ClientWorld) : Prop where
  unlocked : w.shared.handshakeLock ≠ some t
  announced : ∀ params v, .spawn t (.ensureReady params) ∈ w.trace → r = .outcome (.ok v) →
    phaseOf w.trace = some .announced
  /-- The inbound loop goes on until it reads something that ends it. -/
  loop : (∀ call, .spawn t call ∉ w.trace) → r = .again ∨ ReadEnd t w

theorem OncePost.stable (t : Tid) (r : Result) : once.Stable t (OncePost t r) := by
  intro w w' hr h
  have hr : Respects t w w' := hr
  refine ⟨hr.unlocked h.unlocked, fun params v hmem hv => ?_, fun hno => ?_⟩
  · exact hr.announced (h.announced params v ((hr.elsewhere.mem_iff rfl).1 hmem) hv)
  · refine (h.loop fun call hmem => hno call ((hr.elsewhere.mem_iff rfl).2 hmem)).imp_right ?_
    exact fun ⟨item, hends, hmem⟩ => ⟨item, hends, (hr.elsewhere.mem_iff rfl).2 hmem⟩

theorem once_loopRound {env : Env} {t : Tid} {w : ClientWorld}
    (hw : w.shared.handshakeLock ≠ some t) :
    Safe (client env) once t (OncePost t) (loopRound env) w := by
  refine ((once_loopRules env t).loopRound hw).mono fun r w' h => ?_
  obtain ⟨hlock, rfl | ⟨rfl, hend⟩⟩ := h
  · exact ⟨hlock, by rintro _ _ _ ⟨⟩, fun _ => .inl rfl⟩
  · exact ⟨hlock, by rintro _ _ _ ⟨⟩, fun _ => .inr hend⟩

theorem once_outline (env : Env) : Outline (client env) once OncePost where
  stable := OncePost.stable
  spawn := by
    rintro t call w ⟨phase, hinv⟩ hplain hfirst
    have hlock : w.shared.handshakeLock ≠ some t := by
      intro hlock
      obtain ⟨e, he, het⟩ := hinv.owner t hlock
      exact hfirst e he het
    refine ⟨hinv.same rfl (by cases phase <;> rfl) rfl rfl rfl, ?_⟩
    refine safe_body (fun outcome w' hpost => ?_)
      (safe_spawned (fun _ _ hr => Respects.elsewhere hr) hfirst (once_call hplain hlock))
    obtain ⟨⟨hlock', hann⟩, hmem, honce⟩ := hpost
    refine ⟨hlock', fun params v hmem' hv => ?_, fun hno => absurd hmem (hno call)⟩
    cases hv
    exact hann params v (honce _ hmem').symm rfl
  restart t r p w hres hpost := safe_restart hres (once_loopRound hpost.unlocked)
  cancel t w _ hl := hl.elim

theorem once_start (env : Env) : Proved (client env) once OncePost (ClientConfig.start env) where
  inv := ⟨.idle, rfl, by rintro t ⟨⟩, fun _ => Nat.zero_lt_two, nofun, nofun, nofun⟩
  live t p ht := by
    cases t with
    | caller n => cases ht
    | inboundLoop =>
      cases ht
      exact once_loopRound nofun
  absent := by simp [ClientConfig.start]

end CodexSdk

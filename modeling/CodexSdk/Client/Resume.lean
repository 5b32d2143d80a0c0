import CodexSdk.Client.EnsureReady
import CodexSdk.Client.LockOrder

/-!
# A handshake that was given up can be completed

`ensureReady_waits` runs `ensure_ready` by itself up to the point where it waits for the answer to
`initialize`, and `ensureReady_finishes` to its end, if `initialize` has succeeded before.  The
inbound loop supplies the answer, and the rest follows.

With `free_lock` this gives the second half of `ensureReady_exactly_once`, which collects all that
is known of runs in which `ensure_ready` makes the handshakes.
-/

set_option autoImplicit false

namespace CodexSdk

open Json Interleave

/-! ## On its own -/

section

variable {env : Env} {t : Tid} {α β : Type} {s s' : Inner}

theorem can_send (frame : Value) : Can (client env) t (sendMessage frame) s (.ret (.ok ())) s :=
  Can.op Choice.proceed rfl .refl

/-- The second half of the handshake. -/
theorem can_announceReady : Can (client env) t announceReady s (.ret (.ok ()))
    { s with handshakeState := handshakeReady } := by
  refine ((can_send _).bind _).trans ?_
  exact Can.op Choice.proceed rfl .refl

/-- On its own, `t` comes to a point where it waits for the reply to a request, and when that is
the empty object, to an end in which `Q` holds. -/
def WaitsForEmpty (env : Env) (t : Tid) (p : ClientM α) (s : Inner) (Q : α → Inner → Prop) : Prop :=
  ∃ n tx timeout k s₁, Can (client env) t p s (.op (.timeoutRecv tx timeout) k) s₁ ∧
    s₁.pending.lookup (.integer n) = some tx ∧
    ∀ s₂, ∃ a s₃, Can (client env) t (k (.value (.ok emptyObject))) s₂ (.ret a) s₃ ∧ Q a s₃

/-- What follows the wait. -/
theorem WaitsForEmpty.bind {p : ClientM α} {f : α → ClientM β} {Q : α → Inner → Prop}
    {P : β → Inner → Prop} (h : WaitsForEmpty env t p s Q)
    (hf : ∀ a s, Q a s → ∃ b s', Can (client env) t (f a) s (.ret b) s' ∧ P b s') :
    WaitsForEmpty env t (p >>= f) s P := by
  obtain ⟨n, tx, timeout, k, s₁, hcan, hlookup, hrest⟩ := h
  refine ⟨n, tx, timeout, _, s₁, hcan.bind f, hlookup, fun s₂ => ?_⟩
  obtain ⟨a, s₃, hcan₃, hQ⟩ := hrest s₂
  obtain ⟨b, s₄, hcan₄, hP⟩ := hf a s₃ hQ
  exact ⟨b, s₄, (hcan₃.bind f).trans hcan₄, hP⟩

/-- What comes before it. -/
theorem WaitsForEmpty.after {p p' : ClientM α} {Q : α → Inner → Prop}
    (h : Can (client env) t p s p' s') (h' : WaitsForEmpty env t p' s' Q) :
    WaitsForEmpty env t p s Q := by
  obtain ⟨n, tx, timeout, k, s₁, hcan, hrest⟩ := h'
  exact ⟨n, tx, timeout, k, s₁, h.trans hcan, hrest⟩

theorem WaitsForEmpty.op {o : Op} {k : o.Ans → ClientM α} {Q : α → Inner → Prop} (ch : Choice)
    {a : o.Ans} (hx : exec t o ch s = some (a, s')) (h : WaitsForEmpty env t (k a) s' Q) :
    WaitsForEmpty env t (perform o >>= k) s Q :=
  .after (Can.op ch hx .refl) h

theorem roundTrip_waits (method : String) (params : Value) (timeout : Duration) :
    WaitsForEmpty env t (roundTrip method params timeout) s
      (fun r _ => r = .ok emptyObject) := by
  have hcan : Can (client env) t (roundTrip method params timeout) s
      (awaitReply method timeout (.integer s.nextId) s.channels)
      (Inner.insert { s with nextId := s.nextId + 1, channels := s.channels + 1 }
        (.integer s.nextId) s.channels) := by
    refine Can.op Choice.proceed rfl (Can.op Choice.proceed rfl (Can.op Choice.proceed rfl ?_))
    exact (can_send _).bind _
  exact ⟨s.nextId, s.channels, timeout, _, _, hcan, insert_lookup _ _ _,
    fun s₂ => ⟨_, s₂, .refl, rfl⟩⟩

theorem can_requestGate (method : String) (hs : s.handshakeState < handshakeInitialized) :
    Can (client env) t (requestGate method false) s (.ret (.ok ())) s := by
  refine Can.op Choice.proceed (a := s.handshakeState) rfl ?_
  change Can _ _ (pure (if false = true then _ else if _ then _ else _)) _ _ _
  rw [if_neg (by simp), if_neg (Nat.not_le_of_lt hs)]
  exact .refl

/-- `initialize`, in a state in which the gate lets it pass. -/
theorem initialize_waits (params : Value) (hs : s.handshakeState < handshakeInitialized) :
    WaitsForEmpty env t
      (requestTypedInternal env methodInitialize params none false decodesInitialize) s
      (fun r _ => r = .ok emptyObject) := by
  refine WaitsForEmpty.bind (Q := fun r _ => r = .ok emptyObject) ?_ ?_
  · exact .after ((can_requestGate methodInitialize hs).bind _) (roundTrip_waits _ _ _)
  · rintro _ s' rfl
    exact ⟨_, s', .refl, rfl⟩

/-- A successful `ensure_ready`. -/
abbrev BecomesReady (r : Outcome) (s : Inner) : Prop :=
  r = .ok .null ∧ s.handshakeState = handshakeReady

/-- Getting to the handshake, when it is not made and the lock is free. -/
theorem can_lock (params : Value) (hs : s.handshakeState ≠ handshakeReady)
    (hl : s.handshakeLock = none) :
    Can (client env) t (ensureReadyWith env params) s
      (andThen (ensureInitialized env params) (fun _ => announceReady) >>= fun result => do
        perform .handshakeUnlock
        return (fun _ => Value.null) <$> result)
      { s with handshakeLock := some t } := by
  refine Can.op Choice.proceed (a := s.handshakeState) rfl ?_
  change Can _ _ (if _ then _ else _) _ _ _
  rw [if_neg hs]
  have hx : exec t .handshakeLock .proceed s = some ((), { s with handshakeLock := some t }) := by
    rw [exec, hl]
  refine Can.op Choice.proceed hx (Can.bind _ ?_)
  refine Can.op Choice.proceed (a := s.handshakeState) rfl ?_
  change Can _ _ (if _ then _ else _) _ _ _
  rw [if_neg hs]
  exact .refl

/-- The end of it. -/
theorem can_unlock : ∃ b s', Can (client env) t
    (announceReady >>= fun result => do
      perform .handshakeUnlock
      return (fun _ => Value.null) <$> result) s (.ret b) s' ∧ BecomesReady b s' := by
  refine ⟨.ok .null, _, (can_announceReady.bind _).trans (Can.op Choice.proceed rfl .refl), rfl, ?_⟩
  rfl

/-- If the handshake is made, `ensure_ready` returns. -/
theorem ensureReady_returns (params : Value) (hs : s.handshakeState = handshakeReady) :
    ∃ b s', Can (client env) t (ensureReadyWith env params) s (.ret b) s' ∧ BecomesReady b s' := by
  refine ⟨.ok .null, s, Can.op Choice.proceed (a := s.handshakeState) rfl ?_, rfl, hs⟩
  change Can _ _ (if _ then _ else _) _ _ _
  rw [if_pos hs]
  exact .refl

/-- If `initialize` has succeeded, `ensure_ready` gets to its end. -/
theorem ensureReady_finishes (params : Value) (hs : s.handshakeState = handshakeInitialized)
    (hl : s.handshakeLock = none) :
    ∃ b s', Can (client env) t (ensureReadyWith env params) s (.ret b) s' ∧ BecomesReady b s' := by
  have hdone : Can (client env) t (ensureInitialized env params) { s with handshakeLock := some t }
      (.ret (.ok ())) { s with handshakeLock := some t } := by
    refine Can.op Choice.proceed (a := s.handshakeState) rfl ?_
    change Can _ _ (if _ then _ else _) _ _ _
    rw [if_neg (by rw [hs]; decide)]
    exact .refl
  obtain ⟨b, s', hcan, hb⟩ := can_unlock
  exact ⟨b, s', (can_lock params (by rw [hs]; decide) hl).trans
    (((hdone.bind _).bind _).trans hcan), hb⟩

/-- If not, it gets to the point where it waits for the answer. -/
theorem ensureReady_waits (params : Value) (hs : s.handshakeState < handshakeInitialized)
    (hl : s.handshakeLock = none) :
    WaitsForEmpty env t (ensureReadyWith env params) s BecomesReady := by
  refine .after (can_lock params (by rintro h; rw [h] at hs; exact absurd hs (by decide)) hl) ?_
  refine WaitsForEmpty.bind (Q := fun r s => r = .ok () ∧ s.handshakeState = handshakeReady) ?_ ?_
  · refine WaitsForEmpty.bind (Q := fun r _ => r = .ok ()) ?_ ?_
    · refine .op .proceed (a := s.handshakeState) rfl ?_
      change WaitsForEmpty _ _ (if _ then _ else _) _ _
      rw [if_pos hs]
      refine .op .proceed rfl ((initialize_waits params ?_).bind ?_)
      · exact Nat.lt_succ_self 1
      · rintro _ s' rfl
        exact ⟨_, _, Can.op Choice.proceed rfl .refl, rfl⟩
    · rintro _ s' rfl
      exact ⟨_, _, can_announceReady, rfl, rfl⟩
  · rintro _ s' ⟨rfl, hs'⟩
    exact ⟨_, _, Can.op Choice.proceed rfl .refl, rfl, hs'⟩

end

/-! ## With the others -/

section

variable {env : Env} {law : ClientWorld → ClientEvent → Prop} {c : ClientConfig} {t : Tid}

/-- There is always a caller that has not started. -/
theorem fresh_caller (hr : (client env).Run law (ClientConfig.start env) c) :
    ∃ n, c.tasks (.caller n) = .absent := by
  have hbound : ∃ bound, ∀ n, bound ≤ n → c.tasks (.caller n) = .absent := by
    induction hr with
    | init => exact ⟨0, fun _ _ => rfl⟩
    | @step c c' e _ hs _ ih =>
      obtain ⟨bound, hbound⟩ := ih
      cases he : e.tid with
      | inboundLoop =>
        exact ⟨bound, fun n hn => (hs.tasks_ne (by simp [he])).trans (hbound n hn)⟩
      | caller m =>
        refine ⟨max bound (m + 1), fun n hn => ?_⟩
        rw [hs.tasks_ne (by rw [he]; simp; omega)]
        exact hbound n (by omega)
  obtain ⟨bound, hbound⟩ := hbound
  exact ⟨bound, hbound bound (Nat.le_refl _)⟩

/-- The inbound loop is there all the time, and nobody has spawned it. -/
theorem loop_live (hr : (client env).Run ensureReadyOnly (ClientConfig.start env) c) :
    (∃ p, c.tasks .inboundLoop = .live p) ∧ ∀ call, .spawn .inboundLoop call ∉ c.world.trace := by
  induction hr with
  | init => exact ⟨⟨_, rfl⟩, fun _ => List.not_mem_nil⟩
  | @step c c' e _ hs hl ih =>
    obtain ⟨⟨p, hp⟩, hno⟩ := ih
    by_cases he : e.tid = .inboundLoop
    · cases hs with
      | @spawn t call ht =>
        obtain rfl : t = .inboundLoop := he
        rw [hp] at ht
        cases ht
      | @op t o k ch a s ht hx =>
        obtain rfl : t = .inboundLoop := he
        refine ⟨⟨(client env).settle .inboundLoop (k a), by simp⟩, fun call hmem => ?_⟩
        exact hno call (by simpa using hmem)
      | drop _ _ => exact hl.elim
    · refine ⟨⟨p, (hs.tasks_ne (Ne.symm he)).trans hp⟩, fun call hmem => ?_⟩
      rw [hs.trace_eq] at hmem
      rcases List.mem_cons.1 hmem with rfl | hmem
      · exact he rfl
      · exact hno call hmem

theorem ensureReadyOnly_op (w : ClientWorld) (t : Tid) (o : Op) (a : o.Ans) :
    ensureReadyOnly w (.op t o a) := trivial

/-- While the connection is up, the inbound loop can be brought to wait for a frame. -/
theorem loop_waits (hr : (client env).Run ensureReadyOnly (ClientConfig.start env) c)
    (hup : ¬ ReadEnd .inboundLoop c.world) (hl : c.world.shared.handshakeLock = none) :
    ∃ c', Frees env ensureReadyOnly c c' ∧ c'.tasks .inboundLoop = .live (loopRound env) := by
  obtain ⟨⟨p, hp⟩, -⟩ := loop_live hr
  obtain ⟨c', r, hfrees, ht, -⟩ := finish_task hr ensureReadyOnly_op hp (.inl hl)
  refine ⟨c', hfrees, ?_⟩
  have hr' := hr.trans hfrees.run
  have hpost := fun (hret : c'.tasks .inboundLoop = .live (.ret r)) =>
    (((once_outline env).run (once_start env) hr').returned hret).loop (loop_live hr').2
  cases r with
  | again => exact ht
  | outcome outcome => exact absurd (hfrees.read ((hpost ht).resolve_left (by simp))) hup
  | exited => exact absurd (hfrees.read ((hpost ht).resolve_left (by simp))) hup

/-- The inbound loop, waiting for a frame, can answer a pending request. -/
theorem can_answer (env : Env) {s : Inner} {n : Int64} {tx : Nat}
    (hs : s.pending.lookup (.integer n) = some tx) :
    ∃ s', Can (client env) .inboundLoop (loopRound env) s (.ret .again) s' ∧
      s'.oneshots tx = .sent (.ok emptyObject) := by
  let frame := resultFrame (.integer n) emptyObject
  have hd : s.dispatch (.integer n) (.ok emptyObject) = (some tx,
      { s.complete tx (.ok emptyObject) with
        pending := s.pending.filter fun p => p.1 ≠ .integer n }) := by
    rw [Inner.dispatch, hs]
  have hprocess : processIncomingValue env frame
      = (do
        let _ ← perform (.pendingDispatch (.integer n) (.ok emptyObject))
        return .ok ()) := by
    rw [processIncomingValue, classifyIncoming_result]
  refine ⟨(s.dispatch (.integer n) (.ok emptyObject)).2, ?_, ?_⟩
  · refine Can.op (Choice.deliver (some (.ok frame))) (a := some (.ok frame)) rfl ?_
    change Can _ _ (processIncomingValue env frame >>= _) _ _ _
    rw [hprocess]
    exact Can.op Choice.proceed rfl .refl
  · rw [hd]
    exact Function.update_self _ _ _

/-- A success is never forgotten. -/
theorem done_of_succeeded {tr : List ClientEvent} {phase : Phase} (h : phaseOf tr = some phase)
    (hs : Succeeded tr) : phase.Done := by
  obtain ⟨t, answer, ⟨newer, e, older, rfl, hsent, hfirst⟩, hsucc⟩ := hs
  obtain ⟨phase₁, phase₂, h₁, hn, hnewer⟩ := accepts_split h
  obtain ⟨-, rfl⟩ := hsent.next hn
  exact (after_sent hnewer).2 answer hfirst hsucc

theorem Succeeded.suffix {tr tr' : List ClientEvent} (h : Succeeded tr) (hs : tr <:+ tr') :
    Succeeded tr' := by
  obtain ⟨new, rfl⟩ := hs
  induction new with
  | nil => exact h
  | cons e new ih => exact ih.cons e

/-- What a later `ensure_ready` comes to. -/
structure Completes (env : Env) (n : Nat) (params : Value) (c c' : ClientConfig) : Prop where
  run : (client env).Run ensureReadyOnly c c'
  later : c.tasks (.caller n) = .absent
  spawned : .spawn (.caller n) (.ensureReady params) ∈ c'.world.trace
  returned : c'.tasks (.caller n) = .live (.ret (.outcome (.ok .null)))
  ready : c'.world.shared.handshakeState = handshakeReady

/-- The program of a caller that makes the call `p`. -/
abbrev asTask (p : ClientM Outcome) : ClientM Result :=
  p >>= fun outcome => return Result.outcome outcome

section

variable {n : Nat} {params : Value} {c₁ : ClientConfig} {q : ClientM Outcome}

/-- A call that can come to its end on its own completes the handshake. -/
theorem completes_of_can (hn : c.tasks (.caller n) = .absent)
    (hrun : (client env).Run ensureReadyOnly c c₁)
    (hmem : .spawn (.caller n) (.ensureReady params) ∈ c₁.world.trace)
    (ht : c₁.tasks (.caller n) = .live ((client env).settle (.caller n) (asTask q)))
    (hcan : ∃ b s', Can (client env) (.caller n) q c₁.world.shared (.ret b) s' ∧
      BecomesReady b s') : ∃ c', Completes env n params c c' := by
  obtain ⟨b, s', hcan, rfl, hready⟩ := hcan
  obtain ⟨c₂, hrun₂, hs₂, ht₂, -⟩ := (hcan.bind fun outcome => return Result.outcome outcome).run
    (fun w => ensureReadyOnly_op w (.caller n)) ht
  exact ⟨c₂, hrun.trans hrun₂, hn, hrun₂.trace_suffix.subset hmem, ht₂, by rw [hs₂, hready]⟩

/-- A call that waits for an answer completes the handshake with the help of the inbound loop. -/
theorem completes_of_waits (hn : c.tasks (.caller n) = .absent)
    (hrun : (client env).Run ensureReadyOnly c c₁)
    (hmem : .spawn (.caller n) (.ensureReady params) ∈ c₁.world.trace)
    (ht : c₁.tasks (.caller n) = .live ((client env).settle (.caller n) (asTask q)))
    (hloop : c₁.tasks .inboundLoop = .live (loopRound env))
    (hwaits : WaitsForEmpty env (.caller n) q c₁.world.shared BecomesReady) :
    ∃ c', Completes env n params c c' := by
  obtain ⟨m, tx, timeout, k, s₂, hcan, hlookup, hrest⟩ := hwaits
  obtain ⟨c₂, hrun₂, hs₂, ht₂, hothers₂⟩ := (hcan.bind fun outcome =>
    return Result.outcome outcome).run (fun w => ensureReadyOnly_op w (.caller n)) ht
  have hloop₂ : c₂.tasks .inboundLoop = .live (loopRound env) := (hothers₂ _ (by simp)).trans hloop
  obtain ⟨s₃, hanswer, hsent⟩ := can_answer env hlookup
  rw [← hs₂] at hanswer
  obtain ⟨c₃, hrun₃, hs₃, -, hothers₃⟩ := hanswer.run
    (fun w => ensureReadyOnly_op w .inboundLoop) (q := loopRound env) hloop₂
  refine completes_of_can (q := .op (.timeoutRecv tx timeout) k) hn ((hrun.trans hrun₂).trans hrun₃)
    ((hrun₂.trans hrun₃).trace_suffix.subset hmem) ((hothers₃ _ (by simp)).trans ht₂) ?_
  obtain ⟨b, s₄, hcan₄, hready⟩ := hrest c₃.world.shared
  refine ⟨b, s₄, Can.op Choice.proceed (a := .value (.ok emptyObject)) ?_ hcan₄, hready⟩
  change ((c₃.world.shared.oneshots tx).wait .proceed).map _ = _
  rw [hs₃, hsent]
  rfl

/-- From a free lock, a new caller of `ensure_ready` can complete the handshake. -/
theorem completes_of_free (hr : (client env).Run ensureReadyOnly (ClientConfig.start env) c)
    (hl : c.world.shared.handshakeLock = none) (hn : c.tasks (.caller n) = .absent)
    (hanswer : Succeeded c.world.trace ∨ c.tasks .inboundLoop = .live (loopRound env)) :
    ∃ c', Completes env n params c c' := by
  obtain ⟨phase, hinv⟩ := ((once_outline env).run (once_start env) hr).inv
  have hset := hinv.free hl
  have hspawn : (client env).Step c (.spawn (.caller n) (.ensureReady params)) _ := .spawn hn
  have hrun : (client env).Run ensureReadyOnly c _ := .step .init hspawn trivial
  have ht := Function.update_self (Tid.caller n) (Task.live ((client env).settle (.caller n)
    (asTask (ensureReadyWith env params)))) c.tasks
  cases phase with
  | announced =>
    exact completes_of_can hn hrun List.mem_cons_self ht (ensureReady_returns params hset)
  | initialized =>
    exact completes_of_can hn hrun List.mem_cons_self ht (ensureReady_finishes params hset hl)
  | outstanding u => exact hset.elim
  | idle =>
    have hloop : c.tasks .inboundLoop = .live (loopRound env) := by
      refine hanswer.resolve_left fun hs => ?_
      rcases done_of_succeeded hinv.accepted hs with h | h <;> cases h
    have hne : Tid.inboundLoop ≠ .caller n := by simp
    exact completes_of_waits hn hrun List.mem_cons_self ht
      ((hspawn.tasks_ne hne).trans hloop) (ensureReady_waits params hset hl)

end

/-- **A later `ensure_ready` can complete the handshake**, from anywhere: if `initialize` has
succeeded, or else as long as there is somebody to read the answer to the next one. -/
theorem ensureReady_completes (params : Value)
    (hr : (client env).Run ensureReadyOnly (ClientConfig.start env) c)
    (hanswer : Succeeded c.world.trace ∨ ¬ ReadEnd .inboundLoop c.world) :
    ∃ n c', Completes env n params c c' := by
  obtain ⟨n, hn⟩ := fresh_caller hr
  obtain ⟨c₁, h₁⟩ := free_lock hr ensureReadyOnly_op
  have hr₁ := hr.trans h₁.run
  obtain ⟨c₂, hrun₂, hl₂, hn₂, hanswer₂⟩ : ∃ c₂, (client env).Run ensureReadyOnly c c₂ ∧
      c₂.world.shared.handshakeLock = none ∧ c₂.tasks (.caller n) = .absent ∧
      (Succeeded c₂.world.trace ∨ c₂.tasks .inboundLoop = .live (loopRound env)) := by
    rcases hanswer with hs | hup
    · exact ⟨c₁, h₁.run, h₁.lock, h₁.absent _ hn, .inl (hs.suffix h₁.run.trace_suffix)⟩
    · obtain ⟨c₂, h₂, hloop⟩ := loop_waits hr₁ (hup ∘ h₁.read) h₁.lock
      exact ⟨c₂, h₁.run.trans h₂.run, h₂.lock, h₂.absent _ (h₁.absent _ hn), .inr hloop⟩
  obtain ⟨c', h⟩ := completes_of_free (hr.trans hrun₂) hl₂ hn₂ hanswer₂
  exact ⟨n, c', hrun₂.trans h.run, hn, h.spawned, h.returned, h.ready⟩

/-! ## The main result -/

/-- The handshake state says how far the handshake has come. -/
def Resumable (w : ClientWorld) : Prop :=
  (w.shared.handshakeState < handshakeInitialized ∧ ¬ Succeeded w.trace) ∨
    (w.shared.handshakeState = handshakeInitialized ∧ Succeeded w.trace ∧
      ∀ e ∈ w.trace, ¬ InitializedSent e) ∨
    (w.shared.handshakeState = handshakeReady ∧ ∃ e ∈ w.trace, InitializedSent e)

theorem Once.resumable {w : ClientWorld} {phase : Phase} (h : Once w.shared w.trace phase)
    (hl : w.shared.handshakeLock = none) : Resumable w := by
  have hset := h.free hl
  cases phase with
  | idle =>
    refine .inl ⟨hset, fun hs => ?_⟩
    rcases done_of_succeeded h.accepted hs with h | h <;> cases h
  | outstanding u => exact hset.elim
  | initialized =>
    refine .inr (.inl ⟨hset, (phase_origin h.accepted).2 (.inl rfl), fun e he hs => ?_⟩)
    cases announced_of_sent h.accepted ⟨e, he, hs⟩
  | announced => exact .inr (.inr ⟨hset, sent_of_announced h.accepted⟩)

/-- **`ensure_ready` makes the handshake exactly once**, in every run in which nobody else makes it
and in which its callers wait for it to return:

* at most one `initialize` is outstanding;
* a new `initialize` is sent only after every earlier one has failed;
* an `initialized` notification is queued only after an `initialize` has succeeded, and only if
  none was queued before;
* a caller that returns `Ok` returns after that notification was queued;
* whatever its callers have returned, the handshake state says where to resume when nobody holds
  the lock, and a later call can complete the handshake: on its own if an `initialize` has
  succeeded, and otherwise with the answer of the server, as long as the inbound loop has read
  nothing that ends it. -/
theorem ensureReady_exactly_once
    (hr : (client env).Run ensureReadyOnly (ClientConfig.start env) c) :
    (∀ newer e older t newer' e' older' u, c.world.trace = newer ++ e :: older →
      InitializeSent t e → firstAnswer t newer = none →
      c.world.trace = newer' ++ e' :: older' → InitializeSent u e' → firstAnswer u newer' = none →
        newer = newer') ∧
    (∀ newer e mid e' older t u, c.world.trace = newer ++ e :: (mid ++ e' :: older) →
      InitializeSent t e → InitializeSent u e' →
        ∃ answer, firstAnswer u mid = some answer ∧ answer.succeeds = false) ∧
    (∀ newer e older, c.world.trace = newer ++ e :: older → InitializedSent e →
      Succeeded older ∧ ∀ e' ∈ older, ¬ InitializedSent e') ∧
    (∀ t params v, .spawn t (.ensureReady params) ∈ c.world.trace →
      c.tasks t = .live (.ret (.outcome (.ok v))) → ∃ e ∈ c.world.trace, InitializedSent e) ∧
    (c.world.shared.handshakeLock = none → Resumable c.world) ∧
    (Succeeded c.world.trace ∨ ¬ ReadEnd .inboundLoop c.world →
      ∀ params, ∃ n c', Completes env n params c c') := by
  have hproved := (once_outline env).run (once_start env) hr
  obtain ⟨phase, hinv⟩ := hproved.inv
  refine ⟨?_, ?_, ?_, ?_, hinv.resumable,
    fun hanswer params => ensureReady_completes params hr hanswer⟩
  · intro newer e older t newer' e' older' u htr hs hout htr' hs' hout'
    exact outstanding_unique hinv.accepted htr hs hout htr' hs' hout'
  · intro newer e mid e' older t u htr hs hs'
    exact sent_after_failure (htr ▸ hinv.accepted) hs rfl hs'
  · intro newer e older htr hs
    exact announced_after_success (htr ▸ hinv.accepted) hs
  · intro t params v hspawn ht
    exact sent_of_announced ((hproved.returned ht).announced params v hspawn rfl)

end

/-- Two calls of `ensure_ready`, of which the first times out. -/
def resumedSchedule : List (Machine.Label Tid Call Choice) :=
  [.spawn (.caller 0) (.ensureReady .null), .spawn (.caller 1) (.ensureReady .null)]
    ++ List.replicate 10 (.run (.caller 0) .proceed)
    ++ [.run (.caller 0) .refuse]
    ++ List.replicate 3 (.run (.caller 0) .proceed)

/-- Part of a call of `ensure_ready`, with nothing read. -/
def unanswered : ClientEvent → Bool
  | .spawn _ (.ensureReady _) => true
  | .spawn _ _ | .drop _ | .op _ .inboundRecv _ => false
  | .op _ _ _ => true

/-- The first caller has returned an error, and the handshake can still be completed. -/
theorem ensureReady_exactly_once_resumed : ∃ c : ClientConfig,
    c.tasks (.caller 0) = .live (.ret (.outcome (.error (.timeout methodInitialize 30000)))) ∧
    Resumable c.world ∧ ∃ n c', Completes defaultEnv n .null c c' := by
  obtain ⟨c, hc, ht, hl, hun⟩ : ∃ c : ClientConfig,
      (client defaultEnv).runLabels (ClientConfig.start defaultEnv) resumedSchedule = some c ∧
      c.tasks (.caller 0) = .live (.ret (.outcome (.error (.timeout methodInitialize 30000)))) ∧
      c.world.shared.handshakeLock = none ∧ c.world.trace.all unanswered = true :=
    ⟨_, rfl, rfl, rfl, rfl⟩
  rw [List.all_eq_true] at hun
  have hrun : (client defaultEnv).Run ensureReadyOnly (ClientConfig.start defaultEnv) c := by
    refine (Machine.runLabels_run hc).restrict hun fun w e _ he => ?_
    unfold ensureReadyOnly
    split
    · rename_i call
      cases call <;> trivial
    · cases he
    · trivial
  have hup : ¬ ReadEnd .inboundLoop c.world := by
    rintro ⟨item, -, hmem⟩
    cases hun _ hmem
  obtain ⟨-, -, -, -, hresume, hcan⟩ := ensureReady_exactly_once hrun
  exact ⟨c, ht, hresume hl, hcan (.inr hup) .null⟩

end CodexSdk

import CodexSdk.Client.Rules

/-!
# The handshake gate

Every call looks at the handshake state and sends in two separate steps, and the state is written
in four places, up and down.  What makes the gate hold all the same is that the state only ever
*stands for* something that has happened and cannot unhappen: it is `INITIALIZED` or more only if
an `initialize` request has been answered with a result, and `READY` only if an `initialized`
notification has been queued (`Gate.state`).  Lowering it loses nothing, and a caller that saw
`READY` once may rely on both facts for good.

`gate_holds` is the resulting property of the outbound queue, in every run whatsoever: whatever the
transport, the server, the other callers and the handlers do.
-/

set_option autoImplicit false

namespace CodexSdk

open Json Interleave

/-! ## What has happened -/

/-- `t` sent a request and has been answered with `raw`. -/
def RequestSucceeded (tr : List ClientEvent) (t : Tid) (method : String) (raw : Value) : Prop :=
  ∃ id tx timeout params,
    .op t (.pendingInsert id tx) () ∈ tr ∧
    .op t (.outboundSend (requestFrame id method params)) true ∈ tr ∧
    .op t (.timeoutRecv tx timeout) (.value (.ok raw)) ∈ tr

/-- An `initialize` request has been answered with a result that decodes. -/
def InitializeAnswered (tr : List ClientEvent) : Prop :=
  ∃ t raw result, RequestSucceeded tr t methodInitialize raw ∧
    InitializeResult.decode raw = .ok result

/-- The method of a request or a notification frame. -/
def frameMethod (frame : Value) : Option String := (frame.get "method").bind Value.asStr

/-- An `initialized` notification is on the outbound queue. -/
def InitializedQueued (tr : List ClientEvent) : Prop :=
  ∃ t params, .op t (.outboundSend (notificationFrame methodInitialized params)) true ∈ tr

/-- The handshake has been completed. -/
structure HandshakeDone (tr : List ClientEvent) : Prop where
  answered : InitializeAnswered tr
  queued : InitializedQueued tr

/-- A frame the gate is for. -/
def Gated (frame : Value) : Prop :=
  ∃ method, frameMethod frame = some method ∧ method ≠ methodInitialize ∧
    method ≠ methodInitialized

section

variable {tr tr' : List ClientEvent} {t : Tid}

theorem RequestSucceeded.suffix {method : String} {raw : Value}
    (h : RequestSucceeded tr t method raw) (hs : tr <:+ tr') :
    RequestSucceeded tr' t method raw := by
  obtain ⟨id, tx, timeout, params, h₁, h₂, h₃⟩ := h
  exact ⟨id, tx, timeout, params, hs.subset h₁, hs.subset h₂, hs.subset h₃⟩

theorem InitializeAnswered.suffix (h : InitializeAnswered tr) (hs : tr <:+ tr') :
    InitializeAnswered tr' := by
  obtain ⟨t, raw, result, hr, hd⟩ := h
  exact ⟨t, raw, result, hr.suffix hs, hd⟩

theorem InitializedQueued.suffix (h : InitializedQueued tr) (hs : tr <:+ tr') :
    InitializedQueued tr' := by
  obtain ⟨t, params, h⟩ := h
  exact ⟨t, params, hs.subset h⟩

theorem HandshakeDone.suffix (h : HandshakeDone tr) (hs : tr <:+ tr') : HandshakeDone tr' :=
  ⟨h.answered.suffix hs, h.queued.suffix hs⟩

end

/-! ## Which frames the gate is for -/

@[simp] theorem frameMethod_request (id : RequestId) (method : String) (params : Value) :
    frameMethod (requestFrame id method params) = some method := rfl

@[simp] theorem frameMethod_notification (method : String) (params : Value) :
    frameMethod (notificationFrame method params) = some method := rfl

@[simp] theorem frameMethod_result (id : RequestId) (result : Value) :
    frameMethod (resultFrame id result) = none := rfl

@[simp] theorem frameMethod_error (id : RequestId) (error : Value) :
    frameMethod (errorFrame id error) = none := rfl

theorem not_gated_of_none {frame : Value} (h : frameMethod frame = none) : ¬ Gated frame := by
  rintro ⟨method, hm, -⟩
  rw [h] at hm
  cases hm

theorem not_gated_initialized (params : Value) :
    ¬ Gated (notificationFrame methodInitialized params) := by
  rintro ⟨method, hm, -, hne⟩
  cases hm
  exact hne rfl

theorem not_gated_initialize (id : RequestId) (params : Value) :
    ¬ Gated (requestFrame id methodInitialize params) := by
  rintro ⟨method, hm, hne, -⟩
  cases hm
  exact hne rfl

theorem not_gated_handlerPayload (env : Env) (id : RequestId) (context : String)
    (outcome : Outcome) : ¬ Gated (handlerPayload env id context outcome) := by
  cases outcome <;> exact not_gated_of_none rfl

/-! ## The contract -/

/-- The state stands for what has happened, and no gated frame was queued before it had. -/
structure Gate (s : Inner) (tr : List ClientEvent) : Prop where
  initialized : handshakeInitialized ≤ s.handshakeState → InitializeAnswered tr
  ready : handshakeReady ≤ s.handshakeState → InitializedQueued tr
  frames : ∀ newer older t frame, tr = newer ++ .op t (.outboundSend frame) true :: older →
    Gated frame → HandshakeDone older

/-- A state may be entered when what it stands for has happened, and a gated frame sent when the
handshake is done. -/
def GatePermitted (_ : Tid) (w : ClientWorld) : Op → Prop
  | .handshakeStore v | .handshakeFetchMax v =>
    (handshakeInitialized ≤ v → InitializeAnswered w.trace) ∧
      (handshakeReady ≤ v → InitializedQueued w.trace)
  | .outboundSend frame => Gated frame → HandshakeDone w.trace
  | _ => True

def gate : Contract Tid Call Op Inner Op.Ans where
  inv w := Gate w.shared w.trace
  rely := Elsewhere
  law := Machine.anyStep
  rely_refl := Elsewhere.refl
  rely_trans t := Elsewhere.trans t

/-- A `READY` state means that the handshake is done. -/
theorem Gate.done {s : Inner} {tr : List ClientEvent} (h : Gate s tr)
    (hs : handshakeReady ≤ s.handshakeState) : HandshakeDone tr :=
  ⟨h.initialized (Nat.le_trans (by decide) hs), h.ready hs⟩

/-- One more event: the state is what it was or stands for what has happened, and if the event
queues a gated frame, the handshake is done. -/
theorem Gate.cons {s s' : Inner} {tr : List ClientEvent} (h : Gate s tr) (e : ClientEvent)
    (hstate : (handshakeInitialized ≤ s'.handshakeState →
        handshakeInitialized ≤ s.handshakeState ∨ InitializeAnswered tr) ∧
      (handshakeReady ≤ s'.handshakeState →
        handshakeReady ≤ s.handshakeState ∨ InitializedQueued tr))
    (hframe : ∀ t frame, e = .op t (.outboundSend frame) true → Gated frame → HandshakeDone tr) :
    Gate s' (e :: tr) where
  initialized hs :=
    ((hstate.1 hs).elim h.initialized id).suffix (List.suffix_cons e tr)
  ready hs := ((hstate.2 hs).elim h.ready id).suffix (List.suffix_cons e tr)
  frames := by
    intro newer older t frame heq hg
    cases newer with
    | nil =>
      obtain ⟨rfl, rfl⟩ := List.cons.inj heq
      exact hframe t frame rfl hg
    | cons e' newer =>
      obtain ⟨-, rfl⟩ := List.cons.inj heq
      exact h.frames newer older t frame rfl hg

theorem gate_keeps : Keeps gate GatePermitted := by
  intro t w o ch a s hinv hp hx _
  refine ⟨?_, fun u hu => Elsewhere.push hu w rfl s⟩
  have hsame : s.handshakeState = w.shared.handshakeState →
      (∀ frame, o ≠ .outboundSend frame) → Gate s (.op t o a :: w.trace) := by
    intro hs ho
    refine Gate.cons hinv _ (by rw [hs]; exact ⟨.inl, .inl⟩) ?_
    rintro u frame ⟨⟩
    exact absurd rfl (ho frame)
  cases o with
  | handshakeStore v =>
    cases hx
    exact Gate.cons hinv _ ⟨fun hv => .inr (hp.1 hv), fun hv => .inr (hp.2 hv)⟩ (by rintro _ _ ⟨⟩)
  | handshakeFetchMax v =>
    cases hx
    have hmax : ∀ x, x ≤ max w.shared.handshakeState v → x ≤ w.shared.handshakeState ∨ x ≤ v :=
      fun x hx => by omega
    exact Gate.cons hinv _ ⟨fun hv => (hmax _ hv).imp_right hp.1,
      fun hv => (hmax _ hv).imp_right hp.2⟩ (by rintro _ _ ⟨⟩)
  | outboundSend frame =>
    cases ch <;> cases hx <;> refine Gate.cons hinv _ ⟨.inl, .inl⟩ ?_ <;> rintro _ _ ⟨⟩
    exact hp
  | _ => exact hsame (exec_handshakeState hx (by simp) (by simp)) (by simp)

section

variable {env : Env} {t : Tid} {α : Type} {w : ClientWorld} {Q : α → ClientWorld → Prop}

/-- An operation the gate has nothing to say about. -/
theorem gate_free {o : Op} {k : o.Ans → ClientM α} (ho : ∀ w', GatePermitted t w' o)
    (h : ∀ w' ch a s, w.trace <:+ w'.trace → gate.inv w' → exec t o ch w'.shared = some (a, s) →
      Safe (client env) gate t Q (k a) (w'.push (.op t o a) s)) :
    Safe (client env) gate t Q (perform o >>= k) w :=
  safe_op gate_keeps fun w' hr hi => ⟨ho w', fun ch a s hx _ _ => h w' ch a s hr.suffix hi hx⟩

/-- Looking at the state: what `READY` and `INITIALIZED` stand for has happened. -/
theorem gate_load {k : Nat → ClientM α}
    (h : ∀ state w', w.trace <:+ w'.trace →
      (handshakeInitialized ≤ state → InitializeAnswered w'.trace) →
      (handshakeReady ≤ state → HandshakeDone w'.trace) →
      Safe (client env) gate t Q (k state) w') :
    Safe (client env) gate t Q (perform .handshakeLoad >>= k) w := by
  refine gate_free (fun _ => trivial) fun w' ch state s hs hi hx => ?_
  cases hx
  have hsuf := List.suffix_cons (Event.op t Op.handshakeLoad w'.shared.handshakeState) w'.trace
  exact h _ _ (hs.trans hsuf) (fun hv => (Gate.initialized hi hv).suffix hsuf)
    fun hv => (Gate.done hi hv).suffix hsuf

/-- What has happened once has happened for good. -/
theorem gate_keep {J : List ClientEvent → Prop} {p : ClientM α}
    (hJ : ∀ {tr tr'}, J tr → tr <:+ tr' → J tr') (h : Safe (client env) gate t Q p w)
    (hw : J w.trace) : Safe (client env) gate t (fun a w => Q a w ∧ J w.trace) p w :=
  h.frame (J := fun w => J w.trace) (fun _ _ (hr : Elsewhere t _ _) hJ' => hJ hJ' hr.suffix)
    (fun _ _ _ _ hJ' => hJ hJ' (List.suffix_cons _ _)) hw

/-! ## Sending -/

/-- A frame may be sent if it is not gated, or the handshake is done. -/
theorem gate_sendMessage {frame : Value} (hp : Gated frame → HandshakeDone w.trace) :
    Safe (client env) gate t (fun r w => r = .ok () → .op t (.outboundSend frame) true ∈ w.trace)
      (sendMessage frame) w := by
  refine safe_op gate_keeps fun w' hr _ => ⟨fun hg => (hp hg).suffix hr.suffix, ?_⟩
  intro ch sent s _ _ _
  cases sent with
  | true => exact fun _ => List.mem_cons_self
  | false => rintro ⟨⟩

theorem gate_sendNotification_gated {method : String} {params : Value} :
    Safe (client env) gate t (fun _ _ => True) (sendNotification method params true) w := by
  refine safe_andThen (Safe.mono (Q := fun r w => r = .ok () → HandshakeDone w.trace) ?_ ?_)
  · refine gate_load fun state w' _ _ hready => ?_
    change (if state < handshakeReady then _ else _) = _ → _
    split
    · rintro ⟨⟩
    · exact fun _ => hready (by omega)
  · rintro (e | _) w' h
    · trivial
    · exact (gate_sendMessage fun _ => h rfl).mono fun _ _ _ => trivial

/-- The `initialized` notification is not gated; once it is sent, it is queued. -/
theorem gate_sendInitialized {params : Value} :
    Safe (client env) gate t (fun r w => r = .ok () → InitializedQueued w.trace)
      (sendNotification methodInitialized params false) w := by
  refine safe_andThen ?_
  refine (gate_sendMessage fun hg => absurd hg (not_gated_initialized params)).mono ?_
  exact fun r w' h hr => ⟨t, params, h hr⟩

/-! ## Requests -/

/-- What a request that passed the gate may be: exempt, or after the handshake. -/
theorem gate_awaitReply {method : String} {params : Value} {timeout : Duration} {id : RequestId}
    {tx : Nat} (hreg : .op t (.pendingInsert id tx) () ∈ w.trace)
    (hsent : .op t (.outboundSend (requestFrame id method params)) true ∈ w.trace) :
    Safe (client env) gate t (fun r w => ∀ raw, r = .ok raw → RequestSucceeded w.trace t method raw)
      (awaitReply method timeout id tx) w := by
  refine gate_free (fun _ => trivial) fun w' ch answer s hs _ _ => ?_
  match answer with
  | .value (.ok v) =>
    rintro raw ⟨⟩
    exact ⟨id, tx, timeout, params, List.mem_cons_of_mem _ (hs.subset hreg),
      List.mem_cons_of_mem _ (hs.subset hsent), List.mem_cons_self⟩
  | .value (.error e) => rintro raw ⟨⟩
  | .closed => rintro raw ⟨⟩
  | .elapsed =>
    refine gate_free (fun _ => trivial) fun w' ch answer s hs _ _ => ?_
    rintro raw ⟨⟩

theorem gate_roundTrip {method : String} {params : Value} {timeout : Duration}
    (hp : (∀ id, ¬ Gated (requestFrame id method params)) ∨ HandshakeDone w.trace) :
    Safe (client env) gate t (fun r w => ∀ raw, r = .ok raw → RequestSucceeded w.trace t method raw)
      (roundTrip method params timeout) w := by
  refine gate_free (fun _ => trivial) fun w₁ _ n s₁ hs₁ _ _ => ?_
  refine gate_free (fun _ => trivial) fun w₂ _ tx s₂ hs₂ _ _ => ?_
  refine gate_free (fun _ => trivial) fun w₃ _ _ s₃ hs₃ _ _ => ?_
  have hsuf : w.trace <:+ w₃.trace :=
    hs₁.trans ((List.suffix_cons _ _).trans (hs₂.trans ((List.suffix_cons _ _).trans hs₃)))
  refine Safe.bind ((gate_keep (J := fun tr => .op t (.pendingInsert (.integer n) tx) () ∈ tr)
    (fun hm hs => hs.subset hm) (gate_sendMessage fun hg => ?_) List.mem_cons_self).mono ?_)
  · rcases hp with hp | hp
    · exact absurd hg (hp _)
    · exact hp.suffix (hsuf.trans (List.suffix_cons _ _))
  · rintro (e | _) w₄ ⟨hsent, hreg⟩
    · refine gate_free (fun _ => trivial) fun w₅ _ _ s₅ _ _ _ => ?_
      rintro raw ⟨⟩
    · exact gate_awaitReply hreg (hsent rfl)

theorem gate_requestValueInternal {method : String} {params : Value} {timeout : Option Duration}
    {requiresReady : Bool} (hexempt : requiresReady = false → method = methodInitialize) :
    Safe (client env) gate t (fun r w => ∀ raw, r = .ok raw → RequestSucceeded w.trace t method raw)
      (requestValueInternal env method params timeout requiresReady) w := by
  refine safe_andThen (Safe.mono (Q := fun r w => r = .ok () → requiresReady = true →
    HandshakeDone w.trace) ?_ ?_)
  · refine gate_load fun state w' _ _ hready => ?_
    change (if requiresReady then _ else _) = _ → _
    rintro hr rfl
    rw [if_pos rfl] at hr
    refine hready ?_
    by_contra hlt
    rw [if_pos (by omega)] at hr
    cases hr
  · rintro (e | _) w' h
    · rintro raw ⟨⟩
    · refine gate_roundTrip ?_
      cases requiresReady with
      | true => exact .inr (h rfl rfl)
      | false => exact .inl fun id => hexempt rfl ▸ not_gated_initialize id params

theorem gate_requestTypedInternal {method : String} {params : Value} {timeout : Option Duration}
    {requiresReady : Bool} {decode : Value → Except DecodeError Unit}
    (hexempt : requiresReady = false → method = methodInitialize) :
    Safe (client env) gate t
      (fun r w => ∀ raw, r = .ok raw → RequestSucceeded w.trace t method raw ∧ decode raw = .ok ())
      (requestTypedInternal env method params timeout requiresReady decode) w := by
  refine safe_andThen ((gate_requestValueInternal hexempt).mono ?_)
  rintro (e | raw) w' h
  · rintro raw ⟨⟩
  · refine safe_pure.2 fun raw' hr => ?_
    cases hd : decode raw with
    | ok _ =>
      rw [hd] at hr
      cases hr
      exact ⟨h raw rfl, hd⟩
    | error source => rw [hd] at hr; cases hr

/-- **What a successful `initialize` leaves behind.** -/
theorem gate_initializeRequest {params : Value} :
    Safe (client env) gate t (fun r w => ∀ raw, r = .ok raw → InitializeAnswered w.trace)
      (requestTypedInternal env methodInitialize params none false decodesInitialize) w := by
  refine (gate_requestTypedInternal fun _ => rfl).mono fun r w' h raw hr => ?_
  obtain ⟨hsucc, hd⟩ := h raw hr
  obtain ⟨result, hres, -⟩ := map_eq_ok.1 hd
  exact ⟨t, raw, result, hsucc, hres⟩

/-! ## The handshake calls -/

theorem gate_explicitInitialize {params : Value} :
    Safe (client env) gate t (fun _ _ => True) (explicitInitialize env params) w := by
  refine safe_andThen (gate_initializeRequest.mono ?_)
  rintro (e | raw) w₁ h
  · trivial
  · refine safe_op gate_keeps fun w₂ hr _ => ⟨⟨fun _ => (h raw rfl).suffix hr.suffix, ?_⟩, ?_⟩
    · exact fun hv => absurd hv (by decide)
    · exact fun _ _ _ _ _ _ => trivial

theorem gate_explicitInitialized :
    Safe (client env) gate t (fun _ _ => True) explicitInitialized w := by
  refine gate_load fun state w₁ _ hinit _ => ?_
  split
  · trivial
  · rename_i hstate
    refine safe_andThen
      ((gate_keep .suffix gate_sendInitialized (hinit (by omega))).mono ?_)
    rintro (e | _) w₂ ⟨hq, hans⟩
    · trivial
    · refine safe_op gate_keeps fun w₃ hr _ => ⟨⟨fun _ => hans.suffix hr.suffix,
        fun _ => (hq rfl).suffix hr.suffix⟩, fun _ _ _ _ _ _ => trivial⟩

/-- The first half of the handshake ends well only when `initialize` has been answered. -/
theorem gate_ensureInitialized {params : Value} :
    Safe (client env) gate t (fun r w => r = .ok () → InitializeAnswered w.trace)
      (ensureInitialized env params) w := by
  refine gate_load fun state w₁ _ hinit _ => ?_
  split
  · refine safe_op gate_keeps fun w₂ _ _ => ⟨⟨fun hv => absurd hv (by decide),
      fun hv => absurd hv (by decide)⟩, fun _ _ s _ _ _ => ?_⟩
    refine Safe.bind (gate_initializeRequest.mono ?_)
    rintro (e | raw) w₃ h
    · refine safe_op gate_keeps fun w₄ _ _ => ⟨⟨fun hv => absurd hv (by decide),
        fun hv => absurd hv (by decide)⟩, fun _ _ s _ _ _ => ?_⟩
      rintro ⟨⟩
    · refine safe_op gate_keeps fun w₄ hr _ => ⟨⟨fun _ => (h raw rfl).suffix hr.suffix,
        fun hv => absurd hv (by decide)⟩, fun _ _ s _ _ _ => ?_⟩
      exact fun _ => (h raw rfl).suffix (hr.suffix.trans (List.suffix_cons _ _))
  · rename_i hstate
    exact fun _ => hinit (by omega)

theorem gate_announceReady (hans : InitializeAnswered w.trace) :
    Safe (client env) gate t (fun _ _ => True) announceReady w := by
  refine safe_andThen ((gate_keep .suffix gate_sendInitialized hans).mono ?_)
  rintro (e | _) w₂ ⟨hq, hans⟩
  · trivial
  · exact safe_op gate_keeps fun w₃ hr _ => ⟨⟨fun _ => hans.suffix hr.suffix,
      fun _ => (hq rfl).suffix hr.suffix⟩, fun _ _ _ _ _ _ => trivial⟩

theorem gate_ensureReadyWith {params : Value} :
    Safe (client env) gate t (fun _ _ => True) (ensureReadyWith env params) w := by
  refine gate_load fun state w₁ _ _ _ => ?_
  split
  · trivial
  · refine gate_free (fun _ => trivial) fun w₂ _ _ s₂ _ _ _ => Safe.bind ?_
    refine Safe.mono (Q := fun _ _ => True) ?_ fun r w₃ _ =>
      gate_free (fun _ => trivial) fun _ _ _ _ _ _ _ => trivial
    refine gate_load fun state w₃ _ _ _ => ?_
    split
    · trivial
    · refine safe_andThen (gate_ensureInitialized.mono ?_)
      rintro (e | _) w₄ h
      · trivial
      · exact gate_announceReady (h rfl)

theorem gate_unitOutcome {x : ClientM (Except ClientError Unit)}
    (h : Safe (client env) gate t (fun _ _ => True) x w) :
    Safe (client env) gate t (fun _ _ => True) (unitOutcome x) w := by
  refine safe_andThen (h.mono ?_)
  rintro (e | _) w' _ <;> trivial

/-- **Every call** goes through the gate. -/
theorem gate_call (call : Call) (w : ClientWorld) :
    Safe (client env) gate t (fun _ _ => True) (call.body env) w := by
  cases call with
  | explicitInitialize params => exact gate_explicitInitialize
  | explicitInitialized => exact gate_explicitInitialized
  | ensureReady params => exact gate_ensureReadyWith
  | typed method params decode =>
    exact (gate_requestTypedInternal (by simp)).mono fun _ _ _ => trivial
  | sendRawRequest method params timeout =>
    exact (gate_requestValueInternal (by simp)).mono fun _ _ _ => trivial
  | sendRawNotification method params =>
    refine gate_unitOutcome ?_
    by_cases hm : method = methodInitialized
    · subst hm
      rw [bne_self_eq_false]
      exact gate_sendInitialized.mono fun _ _ _ => trivial
    · rw [bne_iff_ne.2 hm]
      exact gate_sendNotification_gated
  | respondServerRequest id result =>
    exact gate_unitOutcome ((gate_sendMessage fun hg =>
      absurd hg (not_gated_of_none (frameMethod_result id result))).mono fun _ _ _ => trivial)
  | respondServerRequestError id error =>
    exact gate_unitOutcome ((gate_sendMessage fun hg =>
      absurd hg (not_gated_of_none (frameMethod_error id _))).mono fun _ _ _ => trivial)
  | setHandler kind handler => exact gate_free (fun _ => trivial) fun _ _ _ _ _ _ _ => trivial
  | clearHandler kind => exact gate_free (fun _ => trivial) fun _ _ _ _ _ _ _ => trivial

end

/-! ## All runs -/

/-- Nothing the inbound loop does is the gate's business: it answers server requests, which are not
gated. -/
theorem gate_loopOp {env : Env} {t : Tid} {o : Op} (h : LoopOp env o) (w : ClientWorld) :
    GatePermitted t w o := by
  cases h with
  | respond id context outcome =>
    exact fun hg => absurd hg (not_gated_handlerPayload env id context outcome)
  | _ => trivial

theorem gate_outline (env : Env) : Outline (client env) gate fun _ _ _ => True where
  stable _ _ _ _ _ _ := trivial
  spawn t call w hinv _ _ :=
    ⟨⟨Gate.cons hinv _ ⟨.inl, .inl⟩ (by rintro _ _ ⟨⟩), fun u hu => Elsewhere.push hu w rfl _⟩,
      safe_body (fun _ _ _ => trivial) (gate_call call _)⟩
  restart t r p w hres _ :=
    safe_restart hres (safe_anyRound gate_keeps (fun o w ho => gate_loopOp ho w)
      (fun _ _ hr => Elsewhere.suffix hr)
      (fun _ _ _ _ _ => safe_handler gate_call) w)
  cancel t w hinv _ := by
    have hs : (cancel t w.shared).handshakeState = w.shared.handshakeState :=
      cancel_handshakeState t w.shared
    exact ⟨Gate.cons hinv _ ⟨fun h => .inl (hs ▸ h), fun h => .inl (hs ▸ h)⟩ (by rintro _ _ ⟨⟩),
      fun u hu => Elsewhere.push hu w rfl _⟩

theorem gate_start (env : Env) :
    Proved (client env) gate (fun _ _ _ => True) (ClientConfig.start env) where
  inv := ⟨fun h => absurd h (Nat.not_succ_le_zero 1), fun h => absurd h (Nat.not_succ_le_zero 2),
    fun newer older t frame h => by cases newer <;> cases h⟩
  live t p ht := by
    cases t with
    | caller n => cases ht
    | inboundLoop =>
      cases ht
      exact safe_anyRound gate_keeps (fun o w ho => gate_loopOp ho w)
        (fun _ _ hr => Elsewhere.suffix hr)
        (fun _ _ _ _ _ => safe_handler gate_call) _
  absent := by simp [ClientConfig.start]

/-- **The gate holds.**  In every run, whatever the callers, the handlers, the transport and the
server do: a request or notification frame other than the two of the handshake is queued only
after an `initialized` notification, and after an `initialize` request has been answered with a
result that decodes. -/
theorem gate_holds {env : Env} {c : ClientConfig}
    (hr : (client env).Run Machine.anyStep (ClientConfig.start env) c) {t : Tid} {frame : Value}
    {newer older : List ClientEvent}
    (htrace : c.world.trace = newer ++ .op t (.outboundSend frame) true :: older)
    (hg : Gated frame) : HandshakeDone older :=
  Gate.frames ((gate_outline env).run (gate_start env) hr).inv newer older t frame htrace hg

/-- The handshake, and then a notification. -/
def gatedSchedule : List (Machine.Label Tid Call Choice) :=
  [.spawn (.caller 0) (.ensureReady .null)]
    ++ List.replicate 10 (.run (.caller 0) .proceed)
    ++ [.run .inboundLoop (.deliver (some (.ok (resultFrame (.integer 1) (.object []))))),
      .run .inboundLoop .proceed]
    ++ List.replicate 5 (.run (.caller 0) .proceed)
    ++ [.spawn (.caller 1) (.sendRawNotification "ping" .null)]
    ++ List.replicate 2 (.run (.caller 1) .proceed)

theorem gate_holds_ping : ∃ (c : ClientConfig) (older : List ClientEvent),
    c.world.trace
      = .op (.caller 1) (.outboundSend (notificationFrame "ping" .null)) true :: older ∧
    HandshakeDone older := by
  obtain ⟨c, older, hc, htrace⟩ : ∃ (c : ClientConfig) (older : List ClientEvent),
      (client defaultEnv).runLabels (ClientConfig.start defaultEnv) gatedSchedule = some c ∧
      c.world.trace
        = .op (.caller 1) (.outboundSend (notificationFrame "ping" .null)) true :: older :=
    ⟨_, _, rfl, rfl⟩
  have hcut : c.world.trace = [] ++
      .op (.caller 1) (.outboundSend (notificationFrame "ping" .null)) true :: older := htrace
  exact ⟨c, older, htrace, gate_holds (Machine.runLabels_run hc) hcut
    ⟨"ping", rfl, by decide, by decide⟩⟩

end CodexSdk

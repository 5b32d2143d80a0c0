import CodexSdk.Client.Calls
import CodexSdk.Interleave.Contract

/-!
# Walking through client code

The rules of `CodexSdk.Interleave.Contract` for the combinators client code is written with: the
`?` operator, and the scripts of handlers.  They hold for every contract.
-/

set_option autoImplicit false

namespace CodexSdk

open Json Interleave

variable {env : Env} {C : Contract Tid Call Op Inner Op.Ans} {t : Tid} {α β : Type}

/-- Operations that are `permitted` keep the contract. -/
def Keeps (C : Contract Tid Call Op Inner Op.Ans)
    (permitted : Tid → ClientWorld → Op → Prop) : Prop :=
  ∀ t w o ch a s, C.inv w → permitted t w o → exec t o ch w.shared = some (a, s) →
    C.law w (.op t o a) → C.Admits t w (w.push (.op t o a) s)

/-- A permitted operation, and what is known after it. -/
theorem safe_op {permitted : Tid → ClientWorld → Op → Prop} (hK : Keeps C permitted)
    {w : ClientWorld} {Q : α → ClientWorld → Prop} {o : Op} {k : o.Ans → ClientM α}
    (h : ∀ w', C.rely t w w' → C.inv w' → permitted t w' o ∧
      ∀ ch a s, exec t o ch w'.shared = some (a, s) → C.law w' (.op t o a) →
        C.inv (w'.push (.op t o a) s) →
          Safe (client env) C t Q (k a) (w'.push (.op t o a) s)) :
    Safe (client env) C t Q (perform o >>= k) w := by
  intro w' hr hi ch a s hx hl
  obtain ⟨hp, hk⟩ := h w' hr hi
  have hadm := hK t w' o ch a s hi hp hx hl
  exact ⟨hadm, hk ch a s hx hl hadm.1⟩

/-- The `?` operator: go on after a success, return after an error. -/
theorem safe_andThen {x : ClientM (Except ClientError α)}
    {f : α → ClientM (Except ClientError β)} {w : ClientWorld}
    {Q : Except ClientError β → ClientWorld → Prop}
    (h : Safe (client env) C t (fun r w => match r with
      | .ok a => Safe (client env) C t Q (f a) w
      | .error e => Q (.error e) w) x w) :
    Safe (client env) C t Q (andThen x f) w := by
  refine Safe.bind (h.mono ?_)
  rintro (e | a) w' h'
  · exact h'
  · exact h'

/-- A handler is safe if all calls are. -/
theorem safe_script {J : ClientWorld → Prop}
    (hcall : ∀ (call : Call) w, J w → Safe (client env) C t (fun _ w => J w) (call.body env) w) :
    ∀ (script : Script) (w : ClientWorld), J w →
      Safe (client env) C t (fun _ w => J w) (script.run env) w
  | .done _, _, hw => by rw [Script.run]; exact hw
  | .call c next, w, hw => by
    rw [Script.run]
    exact Safe.bind ((hcall c w hw).mono fun outcome w' hw' =>
      safe_script hcall (next outcome) w' hw')

/-- A handler is safe if all calls are. -/
theorem safe_handler {handler : Handler}
    (hcall : ∀ (call : Call) w, Safe (client env) C t (fun _ _ => True) (call.body env) w)
    (params : Map) (w : ClientWorld) :
    Safe (client env) C t (fun _ _ => True) ((handler params).run env) w :=
  safe_script (J := fun _ => True) (fun call w _ => hcall call w) _ _ trivial

/-- What is promised for the outcome of a call is promised for the task that makes it. -/
theorem safe_body {call : Call} {w : ClientWorld} {Q : Outcome → ClientWorld → Prop}
    {P : Result → ClientWorld → Prop} (hP : ∀ o w, Q o w → P (.outcome o) w)
    (h : Safe (client env) C t Q (call.body env) w) :
    Safe (client env) C t P ((client env).body call) w :=
  Safe.bind (h.mono hP)

/-- `t` was spawned, to make this call. -/
def SpawnedFor (t : Tid) (call : Call) (w : ClientWorld) : Prop :=
  .spawn t call ∈ w.trace ∧ ∀ call', .spawn t call' ∈ w.trace → call' = call

/-- A task is spawned once, so the call it makes is the one it was spawned for. -/
theorem safe_spawned {call : Call} {w : ClientWorld} {p : ClientM α} {Q : α → ClientWorld → Prop}
    (hrely : ∀ w w', C.rely t w w' → Elsewhere t w w') (hfirst : ∀ e ∈ w.trace, e.tid ≠ t)
    (h : Safe (client env) C t Q p (w.push (.spawn t call) w.shared)) :
    Safe (client env) C t (fun a w => Q a w ∧ SpawnedFor t call w) p
      (w.push (.spawn t call) w.shared) := by
  refine h.frame (J := SpawnedFor t call) (fun w w' hr ⟨hmem, honce⟩ => ?_)
    (fun w o a s ⟨hmem, honce⟩ => ⟨List.mem_cons_of_mem _ hmem, fun call' hmem' =>
      honce call' (by simpa using hmem')⟩) ⟨List.mem_cons_self, fun call' hmem => ?_⟩
  · have he := hrely w w' hr
    exact ⟨(he.mem_iff rfl).2 hmem, fun call' hmem' => honce call' ((he.mem_iff rfl).1 hmem')⟩
  · rcases List.mem_cons.1 hmem with heq | hmem
    · cases heq; rfl
    · exact absurd rfl (hfirst _ hmem)

/-! ## What requests and notifications do -/

theorem andThen_only {P : Op → Prop} {x : ClientM (Except ClientError α)}
    {f : α → ClientM (Except ClientError β)} (hx : x.Only P) (hf : ∀ a, (f a).Only P) :
    (andThen x f).Only P := by
  refine hx.bind ?_
  rintro (e | a)
  · trivial
  · exact hf a

/-- The operations of a request. -/
inductive RequestOp (method : String) (params : Value) : Op → Prop
  | gate : RequestOp method params .handshakeLoad
  | allocate : RequestOp method params .nextIdFetchAdd
  | channel : RequestOp method params .oneshotChannel
  | register (id : RequestId) (tx : Nat) : RequestOp method params (.pendingInsert id tx)
  | send (id : RequestId) : RequestOp method params (.outboundSend (requestFrame id method params))
  | wait (rx : Nat) (timeout : Duration) : RequestOp method params (.timeoutRecv rx timeout)
  | giveUp (id : RequestId) : RequestOp method params (.pendingRemove id)

/-- The operations of a notification. -/
inductive NotificationOp (method : String) (params : Value) : Op → Prop
  | gate : NotificationOp method params .handshakeLoad
  | send : NotificationOp method params (.outboundSend (notificationFrame method params))

theorem sendNotification_only (method : String) (params : Value) (requiresReady : Bool) :
    (sendNotification method params requiresReady).Only (NotificationOp method params) := by
  refine andThen_only ?_ fun _ => ⟨.send, fun _ => trivial⟩
  cases requiresReady with
  | false => trivial
  | true => exact ⟨.gate, fun _ => trivial⟩

theorem awaitReply_only (method : String) (params : Value) (timeout : Duration) (id : RequestId)
    (rx : Nat) : (awaitReply method timeout id rx).Only (RequestOp method params) := by
  refine ⟨.wait rx timeout, fun answer => ?_⟩
  match answer with
  | .value (.ok _) => trivial
  | .value (.error _) => trivial
  | .closed => trivial
  | .elapsed => exact ⟨.giveUp id, fun _ => trivial⟩

theorem roundTrip_only (method : String) (params : Value) (timeout : Duration) :
    (roundTrip method params timeout).Only (RequestOp method params) := by
  refine ⟨.allocate, fun n => ⟨.channel, fun tx => ⟨.register _ tx, fun _ => ⟨.send _, ?_⟩⟩⟩⟩
  intro sent
  cases sent with
  | true => exact awaitReply_only _ _ _ _ _
  | false => exact ⟨.giveUp _, fun _ => trivial⟩

theorem requestValueInternal_only (method : String) (params : Value) (timeout : Option Duration)
    (requiresReady : Bool) :
    (requestValueInternal env method params timeout requiresReady).Only
      (RequestOp method params) :=
  andThen_only ⟨.gate, fun _ => trivial⟩ fun _ => roundTrip_only _ _ _

theorem requestTypedInternal_only (method : String) (params : Value) (timeout : Option Duration)
    (requiresReady : Bool) (decode : Value → Except DecodeError Unit) :
    (requestTypedInternal env method params timeout requiresReady decode).Only
      (RequestOp method params) :=
  andThen_only (requestValueInternal_only _ _ _ _) fun _ => trivial

/-- The operations that neither write the handshake state nor touch the lock. -/
def Op.Quiet : Op → Prop
  | .handshakeStore _ | .handshakeFetchMax _ | .handshakeLock | .handshakeUnlock => False
  | _ => True

theorem RequestOp.quiet {method : String} {params : Value} (o : Op)
    (h : RequestOp method params o) : o.Quiet := by
  cases h <;> trivial

theorem NotificationOp.quiet {method : String} {params : Value} (o : Op)
    (h : NotificationOp method params o) : o.Quiet := by
  cases h <;> trivial

theorem sendMessage_quiet (value : Value) : (sendMessage value).Only Op.Quiet :=
  ⟨trivial, fun _ => trivial⟩

theorem sendNotification_quiet (method : String) (params : Value) (requiresReady : Bool) :
    (sendNotification method params requiresReady).Only Op.Quiet :=
  (sendNotification_only method params requiresReady).mono NotificationOp.quiet

theorem requestValueInternal_quiet (method : String) (params : Value) (timeout : Option Duration)
    (requiresReady : Bool) :
    (requestValueInternal env method params timeout requiresReady).Only Op.Quiet :=
  (requestValueInternal_only _ _ _ _).mono RequestOp.quiet

theorem requestTypedInternal_quiet (method : String) (params : Value) (timeout : Option Duration)
    (requiresReady : Bool) (decode : Value → Except DecodeError Unit) :
    (requestTypedInternal env method params timeout requiresReady decode).Only Op.Quiet :=
  (requestTypedInternal_only _ _ _ _ _).mono RequestOp.quiet

/-- Such operations do what their name says. -/
theorem Op.Quiet.exec {o : Op} (ho : o.Quiet) {ch : Choice} {a : o.Ans} {s s' : Inner}
    (h : exec t o ch s = some (a, s')) :
    s'.handshakeState = s.handshakeState ∧ s'.handshakeLock = s.handshakeLock := by
  constructor
  · exact exec_handshakeState h (by rintro v rfl; exact ho) (by rintro v rfl; exact ho)
  · exact exec_handshakeLock h (by rintro rfl; exact ho) (by rintro rfl; exact ho)

/-! ## What calls do -/

/-- The operations of a call: those of the inbound loop are not among them. -/
def Op.OfCalls : Op → Prop
  | .pendingDispatch _ _ | .pendingTake | .oneshotSend _ _ | .inboundRecv | .eventSend _
  | .handlerRead _ => False
  | _ => True

/-- The operations of a call, the lock apart. -/
def Op.Basic : Op → Prop
  | .handshakeLock | .handshakeUnlock => False
  | o => o.OfCalls

theorem Op.Basic.ofCalls (o : Op) (h : o.Basic) : o.OfCalls := by
  cases o <;> trivial

theorem RequestOp.basic {method : String} {params : Value} (o : Op)
    (h : RequestOp method params o) : o.Basic := by
  cases h <;> trivial

theorem NotificationOp.basic {method : String} {params : Value} (o : Op)
    (h : NotificationOp method params o) : o.Basic := by
  cases h <;> trivial

theorem sendMessage_basic (value : Value) : (sendMessage value).Only Op.Basic :=
  ⟨trivial, fun _ => trivial⟩

theorem sendNotification_basic (method : String) (params : Value) (requiresReady : Bool) :
    (sendNotification method params requiresReady).Only Op.Basic :=
  (sendNotification_only _ _ _).mono NotificationOp.basic

theorem requestValueInternal_basic (method : String) (params : Value) (timeout : Option Duration)
    (requiresReady : Bool) :
    (requestValueInternal env method params timeout requiresReady).Only Op.Basic :=
  (requestValueInternal_only _ _ _ _).mono RequestOp.basic

theorem requestTypedInternal_basic (method : String) (params : Value) (timeout : Option Duration)
    (requiresReady : Bool) (decode : Value → Except DecodeError Unit) :
    (requestTypedInternal env method params timeout requiresReady decode).Only Op.Basic :=
  (requestTypedInternal_only _ _ _ _ _).mono RequestOp.basic

theorem explicitInitialize_basic (params : Value) :
    (explicitInitialize env params).Only Op.Basic :=
  andThen_only (requestTypedInternal_basic _ _ _ _ _) fun _ =>
    Prog.Only.op trivial fun _ => trivial

theorem explicitInitialized_basic : explicitInitialized.Only Op.Basic := by
  refine Prog.Only.op trivial fun state => ?_
  split
  · trivial
  · exact andThen_only (sendNotification_basic _ _ _) fun _ => Prog.Only.op trivial fun _ => trivial

theorem ensureInitialized_basic (params : Value) :
    (ensureInitialized env params).Only Op.Basic := by
  refine Prog.Only.op trivial fun state => ?_
  split
  · refine Prog.Only.op trivial fun _ => Prog.Only.bind (requestTypedInternal_basic _ _ _ _ _) ?_
    rintro (e | raw)
    · exact Prog.Only.op trivial fun _ => trivial
    · exact Prog.Only.op trivial fun _ => trivial
  · trivial

theorem handshake_basic (params : Value) : (handshake env params).Only Op.Basic := by
  refine Prog.Only.op trivial fun state => ?_
  split
  · trivial
  · refine andThen_only (ensureInitialized_basic params) fun _ => ?_
    exact andThen_only (sendNotification_basic _ _ _) fun _ => Prog.Only.op trivial fun _ => trivial

theorem ensureReadyWith_only (params : Value) : (ensureReadyWith env params).Only Op.OfCalls := by
  refine Prog.Only.op trivial fun state => ?_
  split
  · trivial
  · refine Prog.Only.op trivial fun _ => Prog.Only.bind ?_ fun _ => ?_
    · exact (handshake_basic params).mono Op.Basic.ofCalls
    · exact Prog.Only.op trivial fun _ => trivial

theorem call_only (call : Call) : (call.body env).Only Op.OfCalls := by
  have hbasic : ∀ {p : ClientM Outcome}, p.Only Op.Basic → p.Only Op.OfCalls :=
    fun hp => hp.mono Op.Basic.ofCalls
  have hunit : ∀ {p : ClientM (Except ClientError Unit)}, p.Only Op.Basic →
      (unitOutcome p).Only Op.OfCalls := fun hp => hbasic (andThen_only hp fun _ => trivial)
  cases call with
  | explicitInitialize params => exact hbasic (explicitInitialize_basic params)
  | explicitInitialized => exact hbasic explicitInitialized_basic
  | ensureReady params => exact ensureReadyWith_only params
  | typed method params decode => exact hbasic (requestTypedInternal_basic _ _ _ _ _)
  | sendRawRequest method params timeout => exact hbasic (requestValueInternal_basic _ _ _ _)
  | sendRawNotification method params => exact hunit (sendNotification_basic _ _ _)
  | respondServerRequest id result => exact hunit (sendMessage_basic _)
  | respondServerRequestError id error => exact hunit (sendMessage_basic _)
  | setHandler kind handler => exact Prog.Only.op trivial fun _ => trivial
  | clearHandler kind => exact Prog.Only.op trivial fun _ => trivial

theorem script_only : ∀ script : Script, (script.run env).Only Op.OfCalls
  | .done _ => by rw [Script.run]; trivial
  | .call c next => by
    rw [Script.run]
    exact (call_only c).bind fun outcome => script_only (next outcome)

/-! ## The inbound loop -/

/-- The operations of closing down. -/
inductive CloseOp : Op → Prop
  | take : CloseOp .pendingTake
  | fail (tx : Nat) (reply : Reply) : CloseOp (.oneshotSend tx reply)
  | publish : CloseOp (.eventSend .transportClosed)

theorem closeDown_only (message : String) : (closeDown message).Only CloseOp := by
  have hentries : ∀ (error : RpcError) (entries : List (RequestId × Nat)),
      (failEntries error entries).Only CloseOp := by
    intro error entries
    induction entries with
    | nil => trivial
    | cons entry entries ih => exact ⟨.fail _ _, fun _ => ih⟩
  refine Prog.Only.bind ?_ fun _ => ⟨.publish, fun _ => trivial⟩
  exact ⟨.take, fun entries => hentries _ entries⟩

/-- The operations the inbound loop performs itself, apart from what a handler does. -/
inductive LoopOp (env : Env) : Op → Prop
  | recv : LoopOp env .inboundRecv
  | dispatch (id : RequestId) (reply : Reply) : LoopOp env (.pendingDispatch id reply)
  | take : LoopOp env .pendingTake
  | fail (tx : Nat) (reply : Reply) : LoopOp env (.oneshotSend tx reply)
  | publish (event : ServerEvent) : LoopOp env (.eventSend event)
  | handler (kind : ServerRequestKind) : LoopOp env (.handlerRead kind)
  | respond (id : RequestId) (context : String) (outcome : Outcome) :
      LoopOp env (.outboundSend (handlerPayload env id context outcome))

/-- What the loop reads ends it: the end of the stream, an error, or a frame nothing can be made
of. -/
def EndsLoop : Option (Except ClientError Value) → Prop
  | some (.ok value) => ∃ err, classifyIncoming value = .error err
  | _ => True

/-- The obligations of the inbound loop: its operations are permitted and keep `J`, and so do its
handlers. -/
structure LoopRules (env : Env) (C : Contract Tid Call Op Inner Op.Ans) (t : Tid)
    (permitted : Tid → ClientWorld → Op → Prop) (J : ClientWorld → Prop) : Prop where
  keeps : Keeps C permitted
  permitted : ∀ o w, LoopOp env o → J w → permitted t w o
  stable : C.Stable t J
  grows : ∀ w w', C.rely t w w' → w.trace <:+ w'.trace
  step : ∀ o w ch a s, LoopOp env o → J w → exec t o ch w.shared = some (a, s) →
    J (w.push (.op t o a) s)
  handler : ∀ w kind handler, C.inv w → w.shared.handlers kind = some handler →
    ∀ params w', J w' → Safe (client env) C t (fun _ w => J w) ((handler params).run env) w'

section

variable {permitted : Tid → ClientWorld → Op → Prop} {J : ClientWorld → Prop}

/-- One operation of the loop. -/
theorem LoopRules.op (h : LoopRules env C t permitted J) {w : ClientWorld}
    {Q : α → ClientWorld → Prop} {o : Op} {k : o.Ans → ClientM α} (ho : LoopOp env o) (hw : J w)
    (hk : ∀ a w', J w' → Safe (client env) C t Q (k a) w') :
    Safe (client env) C t Q (perform o >>= k) w :=
  safe_op h.keeps fun w' hr _ => ⟨h.permitted o w' ho (h.stable w w' hr hw), fun ch a s hx _ _ =>
    hk a _ (h.step o w' ch a s ho (h.stable w w' hr hw) hx)⟩

theorem LoopRules.closeDown (h : LoopRules env C t permitted J) (message : String)
    {w : ClientWorld} (hw : J w) :
    Safe (client env) C t (fun _ w => J w) (closeDown message) w := by
  have hentries : ∀ (error : RpcError) (entries : List (RequestId × Nat)) (w : ClientWorld), J w →
      Safe (client env) C t (fun _ w => J w) (failEntries error entries) w := by
    intro error entries
    induction entries with
    | nil => exact fun _ hw => hw
    | cons entry entries ih => exact fun w hw => h.op (.fail _ _) hw fun _ w' => ih w'
  refine Safe.bind (Safe.mono (Q := fun _ w => J w) ?_ fun _ w' hw' =>
    h.op (.publish _) hw' fun _ _ hw => hw)
  exact h.op .take hw fun entries w' => hentries _ entries w'

theorem LoopRules.autoHandle (h : LoopRules env C t permitted J) (request : ServerRequestEvent)
    {w : ClientWorld} (hw : J w) :
    Safe (client env) C t (fun _ w => J w) (tryAutoHandleServerRequest env request) w := by
  cases request with
  | unknown => exact hw
  | request kind id params =>
    refine safe_op h.keeps fun w₁ hr hi =>
      ⟨h.permitted _ w₁ (.handler kind) (h.stable w w₁ hr hw), ?_⟩
    intro ch handler s hx _ _
    have hw₁ := h.step _ w₁ ch handler s (.handler kind) (h.stable w w₁ hr hw) hx
    have hh : w₁.shared.handlers kind = handler := by cases hx; rfl
    cases handler with
    | none => exact hw₁
    | some handler =>
      refine Safe.bind
        ((h.handler w₁ kind handler hi hh params _ hw₁).mono fun outcome w₂ hw₂ => ?_)
      refine h.op (.respond id _ outcome) hw₂ fun sent w₃ hw₃ => ?_
      cases sent with
      | true => exact hw₃
      | false => exact h.op (.publish _) hw₃ fun _ _ hw => hw

/-- A frame that can be made something of. -/
theorem LoopRules.process (h : LoopRules env C t permitted J) (value : Value) {w : ClientWorld}
    (hw : J w) :
    Safe (client env) C t (fun r w => J w ∧ (r = .ok () ∨ EndsLoop (some (.ok value))))
      (processIncomingValue env value) w := by
  rw [processIncomingValue]
  split
  · rename_i err herr
    exact ⟨hw, .inr ⟨err, herr⟩⟩
  · exact h.op (.dispatch _ _) hw fun _ _ hw => ⟨hw, .inl rfl⟩
  · exact h.op (.publish _) hw fun _ _ hw => ⟨hw, .inl rfl⟩
  · refine Safe.bind ((h.autoHandle _ hw).mono fun handled w₂ hw₂ => ?_)
    cases handled with
    | true => exact ⟨hw₂, .inl rfl⟩
    | false => exact h.op (.publish _) hw₂ fun _ _ hw => ⟨hw, .inl rfl⟩

/-- The task has read something that ends the loop. -/
def ReadEnd (t : Tid) (w : ClientWorld) : Prop :=
  ∃ item, EndsLoop item ∧ .op t .inboundRecv item ∈ w.trace

/-- What has been read has been read for good. -/
theorem LoopRules.remember (h : LoopRules env C t permitted J) {w : ClientWorld} {p : ClientM α}
    {Q : α → ClientWorld → Prop} {e : ClientEvent} (hp : Safe (client env) C t Q p w)
    (he : e ∈ w.trace) : Safe (client env) C t (fun a w => Q a w ∧ e ∈ w.trace) p w :=
  hp.frame (fun w w' hr hm => (h.grows w w' hr).subset hm)
    (fun _ _ _ _ hm => List.mem_cons_of_mem _ hm) he

/-- **A round of the loop** keeps `J`, and only something that ends the loop makes it the last. -/
theorem LoopRules.loopRound (h : LoopRules env C t permitted J) {w : ClientWorld} (hw : J w) :
    Safe (client env) C t (fun r w => J w ∧ (r = .again ∨ r = .exited ∧ ReadEnd t w))
      (loopRound env) w := by
  refine safe_op h.keeps fun w₁ hr hi => ⟨h.permitted _ w₁ .recv (h.stable w w₁ hr hw), ?_⟩
  intro ch item s hx _ _
  have hw₁ := h.step _ w₁ ch item s .recv (h.stable w w₁ hr hw) hx
  rcases item with _ | (err | value)
  · exact ⟨hw₁, .inr ⟨rfl, none, trivial, List.mem_cons_self⟩⟩
  · refine Safe.bind ((h.remember (h.closeDown _ hw₁) List.mem_cons_self).mono ?_)
    exact fun _ w₂ hw₂ => ⟨hw₂.1, .inr ⟨rfl, some (.error err), trivial, hw₂.2⟩⟩
  · refine Safe.bind ((h.remember (h.process value hw₁) List.mem_cons_self).mono ?_)
    rintro (err | _) w₂ ⟨⟨hw₂, hends⟩, hm⟩
    · refine Safe.bind ((h.remember (h.closeDown _ hw₂) hm).mono fun _ w₃ hw₃ => ?_)
      exact ⟨hw₃.1, .inr ⟨rfl, _, hends.resolve_left (by simp), hw₃.2⟩⟩
    · exact ⟨hw₂, .inl rfl⟩

/-- When nothing has to be remembered. -/
theorem safe_anyRound (hK : Keeps C permitted) (hloop : ∀ o w, LoopOp env o → permitted t w o)
    (hgrows : ∀ w w', C.rely t w w' → w.trace <:+ w'.trace)
    (hhandler : ∀ w kind handler, C.inv w → w.shared.handlers kind = some handler →
      ∀ params w', Safe (client env) C t (fun _ _ => True) ((handler params).run env) w')
    (w : ClientWorld) : Safe (client env) C t (fun _ _ => True) (loopRound env) w :=
  (LoopRules.loopRound (J := fun _ => True) ⟨hK, fun o w ho _ => hloop o w ho,
    fun _ _ _ _ => trivial, hgrows, fun _ _ _ _ _ _ _ _ => trivial,
    fun w kind handler hi hh params w' _ => hhandler w kind handler hi hh params w'⟩ trivial).mono
    fun _ _ _ => trivial

end

/-- Only the inbound loop has further rounds. -/
theorem safe_restart {P : Result → ClientWorld → Prop} {r : Result} {p : ClientM Result}
    {w : ClientWorld} (hres : (client env).restart t r = some p)
    (h : Safe (client env) C t P (loopRound env) w) : Safe (client env) C t P p w := by
  cases t with
  | caller n => cases r <;> cases hres
  | inboundLoop => cases r <;> cases hres; exact h

/-! ## Properties of whole programs -/

/-- The operations that only a request performs. -/
def Op.OfRequest : Op → Prop
  | .nextIdFetchAdd | .oneshotChannel | .pendingInsert _ _ | .timeoutRecv _ _
  | .pendingRemove _ => True
  | _ => False

/-- A property of programs that a program has if its pieces do, where a request is one piece and
every other operation is one. -/
structure Compositional (Φ : (α : Type) → ClientM α → Prop) : Prop where
  ret : ∀ {α : Type} (a : α), Φ α (.ret a)
  bind : ∀ {α β : Type} {p : ClientM α} {f : α → ClientM β}, Φ α p → (∀ a, Φ β (f a)) →
    Φ β (p >>= f)
  perform : ∀ o : Op, ¬ o.OfRequest → Φ o.Ans (perform o)
  roundTrip : ∀ method params timeout, Φ Outcome (roundTrip method params timeout)

namespace Compositional

variable {Φ : (α : Type) → ClientM α → Prop}

theorem op (h : Compositional Φ) {o : Op} {k : o.Ans → ClientM α} (ho : ¬ o.OfRequest)
    (hk : ∀ a, Φ α (k a)) : Φ α (CodexSdk.perform o >>= k) :=
  h.bind (h.perform o ho) hk

theorem andThen (h : Compositional Φ) {x : ClientM (Except ClientError α)}
    {f : α → ClientM (Except ClientError β)} (hx : Φ _ x) (hf : ∀ a, Φ _ (f a)) :
    Φ _ (andThen x f) := by
  refine h.bind hx ?_
  rintro (e | a)
  · exact h.ret _
  · exact hf a

theorem sendMessage (h : Compositional Φ) (value : Value) : Φ _ (sendMessage value) :=
  h.op id fun _ => h.ret _

theorem sendNotification (h : Compositional Φ) (method : String) (params : Value)
    (requiresReady : Bool) : Φ _ (sendNotification method params requiresReady) := by
  refine h.andThen ?_ fun _ => h.sendMessage _
  cases requiresReady with
  | false => exact h.ret _
  | true => exact h.op id fun _ => h.ret _

theorem requestValueInternal (h : Compositional Φ) (method : String) (params : Value)
    (timeout : Option Duration) (requiresReady : Bool) :
    Φ _ (requestValueInternal env method params timeout requiresReady) :=
  h.andThen (h.op id fun _ => h.ret _) fun _ => h.roundTrip _ _ _

theorem requestTypedInternal (h : Compositional Φ) (method : String) (params : Value)
    (timeout : Option Duration) (requiresReady : Bool)
    (decode : Value → Except DecodeError Unit) :
    Φ _ (requestTypedInternal env method params timeout requiresReady decode) :=
  h.andThen (h.requestValueInternal _ _ _ _) fun _ => h.ret _

theorem explicitInitialize (h : Compositional Φ) (params : Value) :
    Φ _ (explicitInitialize env params) :=
  h.andThen (h.requestTypedInternal _ _ _ _ _) fun _ => h.op id fun _ => h.ret _

theorem explicitInitialized (h : Compositional Φ) : Φ _ explicitInitialized := by
  refine h.op id fun state => ?_
  split
  · exact h.ret _
  · exact h.andThen (h.sendNotification _ _ _) fun _ => h.op id fun _ => h.ret _

theorem ensureInitialized (h : Compositional Φ) (params : Value) :
    Φ _ (ensureInitialized env params) := by
  refine h.op id fun state => ?_
  split
  · refine h.op id fun _ => h.bind (h.requestTypedInternal _ _ _ _ _) ?_
    rintro (e | raw)
    · exact h.op id fun _ => h.ret _
    · exact h.op id fun _ => h.ret _
  · exact h.ret _

theorem handshake (h : Compositional Φ) (params : Value) : Φ _ (handshake env params) := by
  refine h.op id fun state => ?_
  split
  · exact h.ret _
  · refine h.andThen (h.ensureInitialized params) fun _ => ?_
    exact h.andThen (h.sendNotification _ _ _) fun _ => h.op id fun _ => h.ret _

theorem ensureReadyWith (h : Compositional Φ) (params : Value) :
    Φ _ (ensureReadyWith env params) := by
  refine h.op id fun state => ?_
  split
  · exact h.ret _
  · exact h.op id fun _ => h.bind (h.handshake params) fun _ => h.op id fun _ => h.ret _

theorem call (h : Compositional Φ) (call : Call) : Φ _ (call.body env) := by
  have hunit : ∀ {p : ClientM (Except ClientError Unit)}, Φ _ p → Φ _ (unitOutcome p) :=
    fun hp => h.andThen hp fun _ => h.ret _
  cases call with
  | explicitInitialize params => exact h.explicitInitialize params
  | explicitInitialized => exact h.explicitInitialized
  | ensureReady params => exact h.ensureReadyWith params
  | typed method params decode => exact h.requestTypedInternal _ _ _ _ _
  | sendRawRequest method params timeout => exact h.requestValueInternal _ _ _ _
  | sendRawNotification method params => exact hunit (h.sendNotification _ _ _)
  | respondServerRequest id result => exact hunit (h.sendMessage _)
  | respondServerRequestError id error => exact hunit (h.sendMessage _)
  | setHandler | clearHandler => exact h.op id fun _ => h.ret _

theorem script (h : Compositional Φ) : ∀ script : Script, Φ _ (script.run env)
  | .done _ => by rw [Script.run]; exact h.ret _
  | .call c next => by
    rw [Script.run]
    exact h.bind (h.call c) fun outcome => h.script (next outcome)

theorem closeDown (h : Compositional Φ) (message : String) : Φ _ (closeDown message) := by
  have hentries : ∀ (error : RpcError) (entries : List (RequestId × Nat)),
      Φ _ (failEntries error entries) := by
    intro error entries
    induction entries with
    | nil => exact h.ret _
    | cons entry entries ih => exact h.op id fun _ => ih
  refine h.bind (h.op id fun entries => hentries _ entries) fun _ => h.op id fun _ => h.ret _

theorem autoHandle (h : Compositional Φ) (request : ServerRequestEvent) :
    Φ _ (tryAutoHandleServerRequest env request) := by
  cases request with
  | unknown => exact h.ret _
  | request kind requestId params =>
    refine h.op id fun handler => ?_
    cases handler with
    | none => exact h.ret _
    | some handler =>
      refine h.bind (h.script _) fun outcome => h.bind ?_ fun _ => h.ret _
      refine h.op id fun sent => ?_
      cases sent with
      | true => exact h.ret _
      | false => exact h.op id fun _ => h.ret _

theorem process (h : Compositional Φ) (value : Value) :
    Φ _ (processIncomingValue env value) := by
  rw [processIncomingValue]
  split
  · exact h.ret _
  · exact h.op id fun _ => h.ret _
  · exact h.op id fun _ => h.ret _
  · refine h.bind (h.autoHandle _) fun handled => ?_
    cases handled with
    | true => exact h.ret _
    | false => exact h.op id fun _ => h.ret _

/-- **A round of the loop** has the property too. -/
theorem loopRound (h : Compositional Φ) : Φ _ (loopRound env) := by
  refine h.op id fun item => ?_
  match item with
  | none => exact h.ret _
  | some (.error err) => exact h.bind (h.closeDown _) fun _ => h.ret _
  | some (.ok value) =>
    refine h.bind (h.process value) fun r => ?_
    cases r with
    | ok => exact h.ret _
    | error err => exact h.bind (h.closeDown _) fun _ => h.ret _

end Compositional

end CodexSdk

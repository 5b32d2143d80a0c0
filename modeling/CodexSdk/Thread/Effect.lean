import CodexSdk.Thread.Operations

/-!
# What an operation does

Every operation of a `Thread` is summed up once, by an `Effect`: its exchanges, what it returns and
the handle it leaves.  `Ensured` is the part all operations share, in which a handle is bound to a
thread of the server or fails to be; `Own` is what an operation does after it.
-/

set_option autoImplicit false

namespace CodexSdk

open Json Interleave

/-! ## What an exchange means -/

/-- The id a start or resume returned. -/
def RpcExchange.bound : RpcExchange → Option String
  | ⟨.threadStart _, .ok result⟩ => some result.thread.id
  | ⟨.threadResume _, .ok result⟩ => some result.thread.id
  | _ => none

/-- The id a start returned. -/
def RpcExchange.started : RpcExchange → Option String
  | ⟨.threadStart _, .ok result⟩ => some result.thread.id
  | _ => none

/-- The turn a `turn/start` returned. -/
def RpcExchange.turnStarted : RpcExchange → Option String
  | ⟨.turnStart _, .ok result⟩ => some result.turn.id
  | _ => none

/-- A start, a resume or a lookup. -/
def Rpc.Seeks : Rpc → Prop
  | .threadList _ | .threadStart _ | .threadResume _ => True
  | .ensureInitialized | .turnStart _ | .operation _ _ => False

/-- A request that comes before the operation's own. -/
def Rpc.Prepares : Rpc → Prop
  | .turnStart _ | .operation _ _ => False
  | .ensureInitialized | .threadList _ | .threadStart _ | .threadResume _ => True

/-- A frame that is no start, resume or lookup, and whose thread id is the given one. -/
def RpcExchange.Addresses (threadId : Value) (e : RpcExchange) : Prop :=
  match e.1 with
  | .ensureInitialized => True
  | .operation _ params | .turnStart params => params.get "threadId" = some threadId
  | .threadList _ | .threadStart _ | .threadResume _ => False

/-- An exchange of the part all operations share, which does not bind the handle. -/
def RpcExchange.Quiet (e : RpcExchange) : Prop := e.bound = none ∧ e.1.Prepares

theorem RpcExchange.turnStarted_of_prepares {e : RpcExchange} (h : e.1.Prepares) :
    e.turnStarted = none := by
  obtain ⟨o, answer⟩ := e
  cases o with
  | turnStart params => exact h.elim
  | _ => rfl

theorem RpcExchange.prepares_of_bound {e : RpcExchange} {threadId : String}
    (h : e.bound = some threadId) : e.1.Prepares := by
  obtain ⟨o, answer⟩ := e
  cases o with
  | turnStart | operation => cases h
  | _ => trivial

theorem RpcExchange.Addresses.not_seeks {e : RpcExchange} {threadId : Value}
    (h : e.Addresses threadId) : ¬ e.1.Seeks := by
  obtain ⟨o, answer⟩ := e
  cases o with
  | threadList | threadStart | threadResume => exact h.elim
  | _ => exact id

variable {self self' : Thread} {exchanges : List RpcExchange}

/-! ## The step all operations share -/

/-- Looking through the list leaves the handle alone. -/
theorem does_collectThreads {pages : Nat} {cursor : Option String}
    {r : Except ClientError (List ThreadSummary)}
    (h : Does (collectThreads pages cursor) self exchanges r self') :
    self' = self ∧ ∀ e ∈ exchanges, e.Quiet := by
  induction pages generalizing cursor exchanges r self' with
  | zero =>
    obtain ⟨rfl, -, rfl⟩ := does_fail.1 h
    exact ⟨rfl, by simp⟩
  | succ pages ih =>
    rcases does_bind_call.1 h with ⟨e, rfl, -, rfl⟩ | ⟨result, rest, rfl, hrest⟩
    · exact ⟨rfl, by simp [RpcExchange.Quiet, RpcExchange.bound, Rpc.Prepares]⟩
    · have hpage : RpcExchange.Quiet ⟨.threadList (threadListParams cursor), .ok result⟩ :=
        ⟨rfl, trivial⟩
      cases hnext : result.nextCursor with
      | none =>
        rw [hnext] at hrest
        obtain ⟨rfl, -, rfl⟩ := does_pure.1 hrest
        exact ⟨rfl, by simpa using hpage⟩
      | some next =>
        rw [hnext] at hrest
        rcases does_bind.1 hrest with ⟨e, hmore, -⟩ | ⟨more, threads, _, last, rfl, hmore, hpure⟩
        · obtain ⟨rfl, hquiet⟩ := ih hmore
          exact ⟨rfl, List.forall_mem_cons.2 ⟨hpage, hquiet⟩⟩
        · obtain ⟨rfl, hquiet⟩ := ih hmore
          obtain ⟨rfl, -, rfl⟩ := does_pure.1 hpure
          rw [List.append_nil]
          exact ⟨rfl, List.forall_mem_cons.2 ⟨hpage, hquiet⟩⟩

theorem does_resolve {target : ResumeThread} {r : Except ClientError String}
    (h : Does target.resolve self exchanges r self') :
    self' = self ∧ ∀ e ∈ exchanges, e.Quiet := by
  cases target with
  | byId threadId =>
    obtain ⟨rfl, -, rfl⟩ := does_pure.1 h
    exact ⟨rfl, by simp⟩
  | latest =>
    rcases does_bind.1 h with
      ⟨e, hcollect, -⟩ | ⟨first, threads, self₁, rest, rfl, hcollect, hselect⟩
    · exact does_collectThreads hcollect
    · obtain ⟨hself, hquiet⟩ := does_collectThreads hcollect
      rw [hself, does_bind_get] at hselect
      have hrest : rest = [] ∧ self' = self := by
        split at hselect
        · exact ⟨(does_pure.1 hselect).1, (does_pure.1 hselect).2.2⟩
        · split at hselect
          · exact ⟨(does_fail.1 hselect).1, (does_fail.1 hselect).2.2⟩
          · exact ⟨(does_fail.1 hselect).1, (does_fail.1 hselect).2.2⟩
      rw [hrest.1, List.append_nil]
      exact ⟨hrest.2, hquiet⟩

/-- The handle names the thread it works on. -/
def Thread.IsBound (self : Thread) (threadId : String) : Prop :=
  self.pendingResume = none ∧ self.id = some threadId

/-- The handle after a start or resume that returned `threadId`. -/
def Thread.boundTo (self : Thread) (threadId : String) : Thread :=
  { self with id := some threadId, pendingResume := none, lastTurnId := none }

/-- The outcomes of `startOrResume`: it fails and changes nothing; the handle was bound already; or
its last exchange binds it. -/
inductive StartedOrResumed (self : Thread) :
    List RpcExchange → Except ClientError (Option String) → Thread → Prop
  | failed {exchanges : List RpcExchange} (err : ClientError)
      (hself : ∀ threadId, ¬ self.IsBound threadId) (hquiet : ∀ e ∈ exchanges, e.Quiet) :
      StartedOrResumed self exchanges (.error err) self
  | already {threadId : String} (hself : self.IsBound threadId) :
      StartedOrResumed self [] (.ok none) self
  | binds {before : List RpcExchange} {last : RpcExchange} {threadId : String}
      (hself : ∀ threadId, ¬ self.IsBound threadId) (hquiet : ∀ e ∈ before, e.Quiet)
      (hlast : last.bound = some threadId) :
      StartedOrResumed self (before ++ [last]) (.ok last.started) (self.boundTo threadId)

theorem does_startOrResume {r : Except ClientError (Option String)}
    (h : Does startOrResume self exchanges r self') : StartedOrResumed self exchanges r self' := by
  rw [startOrResume, does_bind_get] at h
  cases hpending : self.pendingResume with
  | some target =>
    have hself : ∀ threadId, ¬ self.IsBound threadId := fun threadId hbound => by
      rw [hbound.1] at hpending
      cases hpending
    rw [hpending] at h
    rcases does_bind.1 h with ⟨e, hresolve, rfl⟩ | ⟨first, threadId, self₁, rest, rfl, hresolve, h₁⟩
    · obtain ⟨rfl, hquiet⟩ := does_resolve hresolve
      exact .failed e hself hquiet
    · obtain ⟨heq, hquiet⟩ := does_resolve hresolve
      rw [heq] at h₁
      rcases does_bind_call.1 h₁ with ⟨e, rfl, rfl, rfl⟩ | ⟨result, rest', rfl, h₂⟩
      · refine .failed e hself fun x hx => ?_
        rcases List.mem_append.1 hx with hx | hx
        · exact hquiet x hx
        · rw [List.mem_singleton.1 hx]
          exact ⟨rfl, trivial⟩
      · rw [does_bind_set] at h₂
        obtain ⟨rfl, rfl, rfl⟩ := does_pure.1 h₂
        exact .binds hself hquiet rfl
  | none =>
    rw [hpending] at h
    cases hid : self.id with
    | some threadId =>
      rw [hid] at h
      obtain ⟨rfl, rfl, rfl⟩ := does_pure.1 h
      exact .already ⟨hpending, hid⟩
    | none =>
      have hself : ∀ threadId, ¬ self.IsBound threadId := fun threadId hbound => by
        rw [hbound.2] at hid
        cases hid
      rw [hid] at h
      rcases does_bind_call.1 h with ⟨e, rfl, rfl, rfl⟩ | ⟨result, rest, rfl, h₁⟩
      · refine .failed e hself fun x hx => ?_
        rw [List.mem_singleton.1 hx]
        exact ⟨rfl, trivial⟩
      · rw [does_bind_set] at h₁
        obtain ⟨rfl, rfl, rfl⟩ := does_pure.1 h₁
        rw [← List.nil_append [_]]
        exact .binds hself (by simp) rfl

/-- The outcomes of `ensureThreadStartedOrResumed`.  Of a handle that is bound, it can only find
the client not ready. -/
inductive Ensured (self : Thread) :
    List RpcExchange → Except ClientError (String × Option String) → Thread → Prop
  | failed {exchanges : List RpcExchange} (err : ClientError)
      (hquiet : ∀ e ∈ exchanges, e.Quiet)
      (hbound : ∀ threadId, self.IsBound threadId → ∀ e ∈ exchanges, e.1 = .ensureInitialized) :
      Ensured self exchanges (.error err) self
  | already {threadId : String} (hself : self.IsBound threadId) :
      Ensured self [⟨.ensureInitialized, .ok ()⟩] (.ok (threadId, none)) self
  | binds {before : List RpcExchange} {last : RpcExchange} {threadId : String}
      (hself : ∀ threadId, ¬ self.IsBound threadId) (hquiet : ∀ e ∈ before, e.Quiet)
      (hlast : last.bound = some threadId) :
      Ensured self (before ++ [last]) (.ok (threadId, last.started)) (self.boundTo threadId)

theorem does_ensure {r : Except ClientError (String × Option String)}
    (h : Does ensureThreadStartedOrResumed self exchanges r self') :
    Ensured self exchanges r self' := by
  have hready : RpcExchange.Quiet ⟨.ensureInitialized, .ok ()⟩ := ⟨rfl, trivial⟩
  rcases does_bind_call.1 h with ⟨e, rfl, rfl, rfl⟩ | ⟨⟨⟩, rest, rfl, hrest⟩
  · exact .failed e (by simp [RpcExchange.Quiet, RpcExchange.bound, Rpc.Prepares])
      (by simp)
  rcases does_bind.1 hrest with ⟨e, hstart, rfl⟩ | ⟨first, emit, self₁, last, rfl, hstart, hlast⟩
  · cases does_startOrResume hstart with
    | failed err hself hquiet =>
      exact .failed e (List.forall_mem_cons.2 ⟨hready, hquiet⟩)
        fun threadId hbound => absurd hbound (hself threadId)
  · rw [does_bind_get] at hlast
    cases does_startOrResume hstart with
    | already hself =>
      rw [hself.2] at hlast
      obtain ⟨rfl, rfl, rfl⟩ := does_pure.1 hlast
      exact .already hself
    | binds hself hquiet hbinds =>
      obtain ⟨rfl, rfl, rfl⟩ := does_pure.1 hlast
      rw [List.append_nil]
      exact .binds hself (List.forall_mem_cons.2 ⟨hready, hquiet⟩) hbinds

/-- The exchanges of the part all operations share. -/
theorem Ensured.prepares {r : Except ClientError (String × Option String)}
    (h : Ensured self exchanges r self') : ∀ e ∈ exchanges, e.1.Prepares := by
  cases h with
  | failed err hquiet => exact fun e he => (hquiet e he).2
  | already hself => simp [Rpc.Prepares]
  | binds hself hquiet hlast =>
    refine List.forall_mem_append.2 ⟨fun e he => (hquiet e he).2, fun e he => ?_⟩
    rw [List.mem_singleton.1 he]
    exact RpcExchange.prepares_of_bound hlast

/-- Nothing is started, resumed or looked up for a handle that is bound. -/
theorem Ensured.of_isBound {threadId : String} {r : Except ClientError (String × Option String)}
    (h : Ensured self exchanges r self') (hbound : self.IsBound threadId) :
    self' = self ∧ (∀ e ∈ exchanges, e.1 = .ensureInitialized) ∧
      ∀ x, r = .ok x → x = (threadId, none) := by
  cases h with
  | failed err hquiet hready =>
    refine ⟨rfl, hready threadId hbound, fun x hx => ?_⟩
    cases hx
  | @already threadId' hself =>
    have hid : threadId' = threadId := Option.some.inj (hself.2.symm.trans hbound.2)
    refine ⟨rfl, by simp, fun x hx => ?_⟩
    cases hx
    rw [hid]
  | binds hself => exact absurd hbound (hself threadId)

/-! ## What the operations do after it -/

/-- The thread id in the frame of an operation on `threadId`: a member of that name in the extra
map of a turn wins. -/
def Operation.address (operation : Operation) (threadId : String) : Value :=
  match operation with
  | .runStreamed _ turnOptions | .run _ turnOptions _ =>
    (Map.get (turnOptions.extra.getD []) "threadId").getD (.string threadId)
  | _ => .string threadId

/-- The stream an operation got from `runStreamed`. -/
def Returned.stream : Returned → Option StreamedTurn
  | .streamed stream => some stream
  | .ran stream _ => some stream
  | _ => none

def Performed.stream (p : Performed) : Option StreamedTurn :=
  match p.result with
  | .ok reply => reply.stream
  | .error _ => none

/-- The operations that have a stream. -/
def Operation.Streams : Operation → Prop
  | .runStreamed .. | .run .. => True
  | _ => False

/-- What an operation does once `ensureThreadStartedOrResumed` has returned `threadId` and
`emitThreadStarted`. -/
inductive Own (operation : Operation) (threadId : String) (emitThreadStarted : Option String)
    (self : Thread) : List RpcExchange → Except ClientError Returned → Thread → Prop
  /-- A `steer` that knows no turn. -/
  | refused (err : ClientError) : Own operation threadId emitThreadStarted self [] (.error err) self
  | request (method : String) (fields : Fields) (answer : Except ClientError Value)
      {result : Except ClientError Returned} (hstreams : ¬ operation.Streams)
      (hresult : ∀ reply, result = .ok reply → reply.stream = none)
      (hsteer : ∀ input, operation = .steer input none → ∃ turnId, self.lastTurnId = some turnId ∧
        (threadIdParams threadId fields).get "expectedTurnId" = some (.string turnId)) :
      Own operation threadId emitThreadStarted self
        [⟨.operation method (threadIdParams threadId fields), answer⟩] result self
  | turnFailed (params : Map) (err : ClientError) (hstreams : operation.Streams)
      (haddress : params.get "threadId" = some (operation.address threadId)) :
      Own operation threadId emitThreadStarted self [⟨.turnStart params, .error err⟩] (.error err)
        self
  | turn (params : Map) (answer : TurnResult) {reply : Returned} (hstreams : operation.Streams)
      (haddress : params.get "threadId" = some (operation.address threadId))
      (hstream : reply.stream = some ⟨threadId, answer.turn.id, emitThreadStarted⟩) :
      Own operation threadId emitThreadStarted self [⟨.turnStart params, .ok answer⟩] (.ok reply)
        { self with lastTurnId := some answer.turn.id }

/-- An operation ends with `ensureThreadStartedOrResumed`, or goes on from there. -/
inductive Effect (operation : Operation) (self : Thread) :
    List RpcExchange → Except ClientError Returned → Thread → Prop
  | ended {exchanges : List RpcExchange} {err : ClientError} {self' : Thread}
      (h : Ensured self exchanges (.error err) self') :
      Effect operation self exchanges (.error err) self'
  | goesOn {first rest : List RpcExchange} {threadId : String} {emitThreadStarted : Option String}
      {self₁ self' : Thread} {result : Except ClientError Returned}
      (h : Ensured self first (.ok (threadId, emitThreadStarted)) self₁)
      (hown : Own operation threadId emitThreadStarted self₁ rest result self') :
      Effect operation self (first ++ rest) result self'

@[simp] theorem threadIdParams_get (threadId : String) (fields : Fields) :
    (threadIdParams threadId fields).get "threadId" = some (.string threadId) := by
  rw [threadIdParams, Map.ofFields, Map.insertSome, Map.get_insert, if_pos rfl]

/-- The thread id of a `turn/start`. -/
theorem turnStart_threadId (threadId : String) (input : Input) (options : ThreadOptions)
    (turnOptions : TurnOptions) :
    (buildTurnStartParams threadId input options turnOptions).toJson.get "threadId" =
      some ((Map.get (turnOptions.extra.getD []) "threadId").getD (.string threadId)) := by
  rw [get_turn]
  cases Map.get (turnOptions.extra.getD []) "threadId" <;> rfl

theorem does_onThread {method : String} {fields : Fields} {r : Except ClientError Value}
    (h : Does (onThread method fields) self exchanges r self') :
    (∃ err, r = .error err ∧ Ensured self exchanges (.error err) self') ∨
      ∃ first threadId emitThreadStarted,
        exchanges = first ++ [⟨.operation method (threadIdParams threadId fields), r⟩] ∧
        Ensured self first (.ok (threadId, emitThreadStarted)) self' := by
  rcases does_bind.1 h with
    ⟨e, hensure, rfl⟩ | ⟨first, ⟨threadId, emit⟩, self₁, rest, rfl, hensure, hcall⟩
  · exact .inl ⟨e, rfl, does_ensure hensure⟩
  · obtain ⟨rfl, rfl⟩ := does_call.1 hcall
    exact .inr ⟨first, threadId, emit, rfl, does_ensure hensure⟩

/-- The operations that are one request. -/
theorem effect_onThread {operation : Operation} {method : String} {fields : Fields}
    {reply : Value → Returned} (hstreams : ¬ operation.Streams)
    (hsteer : ∀ input, operation ≠ .steer input none) (hreply : ∀ v, (reply v).stream = none)
    {result : Except ClientError Returned}
    (h : Does (onThread method fields >>= fun v => pure (reply v)) self exchanges result self') :
    Effect operation self exchanges result self' := by
  have hrequest : ∀ {answer : Except ClientError Value} {first threadId emit self₁ result},
      Ensured self first (.ok (threadId, emit)) self₁ →
      (∀ r, result = .ok r → r.stream = none) →
      Effect operation self
        (first ++ [⟨.operation method (threadIdParams threadId fields), answer⟩]) result self₁ :=
    fun hensured hresult => .goesOn hensured
      (.request method fields _ hstreams hresult fun input hop => absurd hop (hsteer input))
  rcases does_bind.1 h with ⟨e, hon, rfl⟩ | ⟨first, v, self₁, rest, rfl, hon, hpure⟩
  · rcases does_onThread hon with ⟨err, herr, hensured⟩ | ⟨first, threadId, emit, rfl, hensured⟩
    · cases herr
      exact .ended hensured
    · exact hrequest hensured fun r hr => by cases hr
  · obtain ⟨rfl, rfl, rfl⟩ := does_pure.1 hpure
    rw [List.append_nil]
    rcases does_onThread hon with ⟨err, herr, -⟩ | ⟨first, threadId, emit, rfl, hensured⟩
    · cases herr
    · exact hrequest hensured fun r hr => by
        cases hr
        exact hreply v

theorem does_steer {input : Input} {expectedTurnId : Option String}
    {r : Except ClientError Value} (h : Does (steer input expectedTurnId) self exchanges r self') :
    (∃ err, r = .error err ∧ Ensured self exchanges (.error err) self') ∨
    (∃ err threadId emitThreadStarted, r = .error err ∧
      Ensured self exchanges (.ok (threadId, emitThreadStarted)) self') ∨
    ∃ first threadId emitThreadStarted turnId,
      exchanges = first ++
        [⟨.operation "turn/steer" (threadIdParams threadId (steerFields input turnId)), r⟩] ∧
      Ensured self first (.ok (threadId, emitThreadStarted)) self' ∧
      expectedTurnId.or self'.lastTurnId = some turnId := by
  rcases does_bind.1 h with
    ⟨e, hensure, rfl⟩ | ⟨first, ⟨threadId, emit⟩, self₁, rest, rfl, hensure, h₁⟩
  · exact .inl ⟨e, rfl, does_ensure hensure⟩
  · rw [does_bind_get] at h₁
    cases hturn : expectedTurnId.or self₁.lastTurnId with
    | none =>
      rw [hturn] at h₁
      obtain ⟨rfl, rfl, rfl⟩ := does_fail.1 h₁
      rw [List.append_nil]
      exact .inr (.inl ⟨_, threadId, emit, rfl, does_ensure hensure⟩)
    | some turnId =>
      rw [hturn] at h₁
      obtain ⟨rfl, rfl⟩ := does_call.1 h₁
      exact .inr (.inr ⟨first, threadId, emit, turnId, rfl, does_ensure hensure, hturn⟩)

theorem effect_steer {input : Input} {expectedTurnId : Option String}
    {result : Except ClientError Returned}
    (h : Does (Operation.body (.steer input expectedTurnId)) self exchanges result self') :
    Effect (.steer input expectedTurnId) self exchanges result self' := by
  have hrequest : ∀ {answer : Except ClientError Value} {first threadId emit turnId self₁ result},
      Ensured self first (.ok (threadId, emit)) self₁ →
      expectedTurnId.or self₁.lastTurnId = some turnId →
      (∀ r, result = .ok r → r.stream = none) →
      Effect (.steer input expectedTurnId) self (first ++
        [⟨.operation "turn/steer" (threadIdParams threadId (steerFields input turnId)), answer⟩])
        result self₁ := by
    intro answer first threadId emit turnId self₁ result hensured hturn hresult
    refine .goesOn hensured (.request _ _ _ id hresult fun input' hop => ?_)
    cases hop
    exact ⟨turnId, hturn, rfl⟩
  rcases does_bind.1 h with ⟨e, hsteer, rfl⟩ | ⟨first, v, self₁, rest, rfl, hsteer, hpure⟩
  · rcases does_steer hsteer with ⟨err, herr, hensured⟩ | ⟨err, threadId, emit, herr, hensured⟩ |
      ⟨first, threadId, emit, turnId, rfl, hensured, hturn⟩
    · cases herr
      exact .ended hensured
    · cases herr
      rw [← List.append_nil exchanges]
      exact .goesOn hensured (.refused _)
    · exact hrequest hensured hturn fun r hr => by cases hr
  · obtain ⟨rfl, rfl, rfl⟩ := does_pure.1 hpure
    rw [List.append_nil]
    rcases does_steer hsteer with ⟨err, herr, -⟩ | ⟨err, threadId, emit, herr, -⟩ |
      ⟨first, threadId, emit, turnId, rfl, hensured, hturn⟩
    · cases herr
    · cases herr
    · exact hrequest hensured hturn fun r hr => by
        cases hr
        rfl

theorem does_runStreamed {input : Input} {turnOptions : TurnOptions}
    {r : Except ClientError StreamedTurn}
    (h : Does (runStreamed input turnOptions) self exchanges r self') :
    (∃ err, r = .error err ∧ Ensured self exchanges (.error err) self') ∨
    ∃ first threadId emitThreadStarted self₁ options answer,
      exchanges = first ++
        [⟨.turnStart (buildTurnStartParams threadId input options turnOptions).toJson, answer⟩] ∧
      Ensured self first (.ok (threadId, emitThreadStarted)) self₁ ∧
      ((∃ err, answer = .error err ∧ r = .error err ∧ self' = self₁) ∨
        ∃ result, answer = .ok result ∧
          r = .ok ⟨threadId, result.turn.id, emitThreadStarted⟩ ∧
          self' = { self₁ with lastTurnId := some result.turn.id }) := by
  rcases does_bind.1 h with
    ⟨e, hensure, rfl⟩ | ⟨first, ⟨threadId, emit⟩, self₁, rest, rfl, hensure, h₁⟩
  · exact .inl ⟨e, rfl, does_ensure hensure⟩
  · rw [does_bind_get] at h₁
    rcases does_bind_call.1 h₁ with ⟨e, rfl, rfl, rfl⟩ | ⟨result, rest', rfl, h₂⟩
    · exact .inr ⟨first, threadId, emit, self', _, _, rfl, does_ensure hensure,
        .inl ⟨e, rfl, rfl, rfl⟩⟩
    · rw [does_bind_set] at h₂
      obtain ⟨rfl, rfl, rfl⟩ := does_pure.1 h₂
      exact .inr ⟨first, threadId, emit, self₁, _, _, rfl, does_ensure hensure,
        .inr ⟨result, rfl, rfl, rfl⟩⟩

theorem effect_runStreamed {operation : Operation} {input : Input} {turnOptions : TurnOptions}
    {reply : StreamedTurn → Returned} (hstreams : operation.Streams)
    (haddress : ∀ threadId, operation.address threadId =
      (Map.get (turnOptions.extra.getD []) "threadId").getD (.string threadId))
    (hreply : ∀ stream, (reply stream).stream = some stream)
    {result : Except ClientError Returned}
    (h : Does (runStreamed input turnOptions >>= fun stream => pure (reply stream)) self exchanges
      result self') : Effect operation self exchanges result self' := by
  have hparams : ∀ threadId options,
      (buildTurnStartParams threadId input options turnOptions).toJson.get "threadId" =
        some (operation.address threadId) := fun threadId options => by
    rw [turnStart_threadId, haddress]
  rcases does_bind.1 h with ⟨e, hrun, rfl⟩ | ⟨first, stream, self₁, rest, rfl, hrun, hpure⟩
  · rcases does_runStreamed hrun with ⟨err, herr, hensured⟩ |
      ⟨first, threadId, emit, self₁, options, answer, rfl, hensured, hcase⟩
    · cases herr
      exact .ended hensured
    · rcases hcase with ⟨err, rfl, herr, rfl⟩ | ⟨result, -, hok, -⟩
      · cases herr
        exact .goesOn hensured (.turnFailed _ _ hstreams (hparams threadId options))
      · cases hok
  · obtain ⟨rfl, rfl, rfl⟩ := does_pure.1 hpure
    rw [List.append_nil]
    rcases does_runStreamed hrun with ⟨err, herr, -⟩ |
      ⟨first, threadId, emit, self₂, options, answer, rfl, hensured, hcase⟩
    · cases herr
    · rcases hcase with ⟨err, -, herr, -⟩ | ⟨result, rfl, hok, rfl⟩
      · cases herr
      · cases hok
        exact .goesOn hensured (.turn _ _ hstreams (hparams threadId options) (hreply _))

/-- **What an operation does.** -/
theorem does_body {operation : Operation} {result : Except ClientError Returned}
    (h : Does operation.body self exchanges result self') :
    Effect operation self exchanges result self' := by
  cases operation with
  | setName name => exact effect_onThread id (by simp) (fun _ => rfl) h
  | read includeTurns => exact effect_onThread id (by simp) (fun _ => rfl) h
  | archive => exact effect_onThread id (by simp) (fun _ => rfl) h
  | unarchive => exact effect_onThread id (by simp) (fun _ => rfl) h
  | rollback count => exact effect_onThread id (by simp) (fun _ => rfl) h
  | compactStart => exact effect_onThread id (by simp) (fun _ => rfl) h
  | steer input expectedTurnId => exact effect_steer h
  | interrupt turnId => exact effect_onThread id (by simp) (fun _ => rfl) h
  | runStreamed input turnOptions =>
    have hstreams : (Operation.runStreamed input turnOptions).Streams := trivial
    exact effect_runStreamed hstreams (fun _ => rfl) (fun _ => rfl) h
  | run input turnOptions delivers =>
    have hstreams : (Operation.run input turnOptions delivers).Streams := trivial
    exact effect_runStreamed hstreams (fun _ => rfl) (fun _ => rfl) h

end CodexSdk

import CodexSdk.Client.HandlerCalls
import CodexSdk.Connection.System
import CodexSdk.Thread.Announce

/-!
# A thread on its connection

`CodexSdk.Thread.Operations` lets the environment answer the requests of a thread as it likes.
Here the environment is a connection.  A request is a call of the client (`Rpc.call`), which some
caller makes while any other callers, the inbound loop and the transport go on, and the answer is
what that call returns (`Rpc.read`).

`thread_on_connection` relates the two levels.  What a handle goes through is a history of the
upper one, in which each exchange has a call of its own; and a result it has got is the decoded
reply to a frame of its own, with the method and the params of the request.  So the turn a stream is
about is the one the server has returned for the `turn/start` of that very operation
(`stream_on_connection`).
-/

set_option autoImplicit false

namespace CodexSdk

open Json Interleave

/-! ## Results -/

def ThreadResult.decode : Decode ThreadResult := fun v => do
  let m ← Decode.object v
  let thread ← Map.required m "thread" ThreadSummary.decode
  return ⟨thread⟩

def ThreadListResult.decode : Decode ThreadListResult := fun v => do
  let m ← Decode.object v
  let data ← Map.defaulted m "data" (Decode.vec ThreadSummary.decode) []
  let nextCursor ← Map.optional m "nextCursor" Decode.string
  return ⟨data, nextCursor⟩

def TurnResult.decode : Decode TurnResult := fun v => do
  let m ← Decode.object v
  let turn ← Map.required m "turn" Turn.decode
  return ⟨turn⟩

/-- The results that are handed on are objects; that of `turn/steer` names the turn. -/
def decodesOperation (method : String) : Decode Value := fun v => do
  let m ← Decode.object v
  if method = "turn/steer" then
    let _ ← Map.required m "turnId" Decode.string
  return v

/-! ## Requests as calls -/

def Rpc.method : Rpc → String
  | ensureInitialized => methodInitialize
  | threadList _ => "thread/list"
  | threadStart _ => "thread/start"
  | threadResume _ => "thread/resume"
  | turnStart _ => "turn/start"
  | operation method _ => method

/-- The params of a request; `initializeParams` are those of the `Codex` of the thread. -/
def Rpc.params (initializeParams : Value) : Rpc → Value
  | ensureInitialized => initializeParams
  | threadList params | threadStart params | threadResume params | turnStart params
  | operation _ params => .object params

def Rpc.decode : (o : Rpc) → Decode o.Result
  | ensureInitialized => fun _ => .ok ()
  | threadList _ => ThreadListResult.decode
  | threadStart _ | threadResume _ => ThreadResult.decode
  | turnStart _ => TurnResult.decode
  | operation method _ => decodesOperation method

/-- The call a request is. -/
def Rpc.call (initializeParams : Value) (o : Rpc) : Call :=
  match o with
  | ensureInitialized => .ensureReady initializeParams
  | o => .typed o.method (o.params initializeParams) fun raw => (fun _ => ()) <$> o.decode raw

/-- What the outcome of its call is to the thread. -/
def Rpc.read (o : Rpc) : Outcome → Except ClientError o.Result
  | .ok raw => (o.decode raw).mapError (.unexpectedResult o.method)
  | .error err => .error err

/-! ## The system -/

/-- An operation that has begun: what it has exchanged, what is left of it, and the caller that
makes its next request. -/
structure Running where
  operation : Operation
  exchanges : List RpcExchange
  rest : Prog Rpc (fun o => Except ClientError o.Result) (Except ClientError Returned × Thread)
  caller : Option Nat

structure OnConnection where
  connection : Connection
  self : Thread
  history : List Performed
  current : Option Running
  /-- All exchanges, each with its caller. -/
  answered : List (Nat × RpcExchange)

namespace OnConnection

def start (env : Env) (origin : Thread) : OnConnection := ⟨.start env, origin, [], none, []⟩

inductive Step (env : Env) (wire : Wire) (initializeParams : Value) (x : OnConnection) :
    OnConnection → Prop
  | connection {label : Connection.Label} {c : Connection}
      (hs : x.connection.step env wire label = some c) :
      Step env wire initializeParams x { x with connection := c }
  | starts (operation : Operation) (hidle : x.current = none) :
      Step env wire initializeParams x
        { x with current := some ⟨operation, [], operation.body x.self, none⟩ }
  | request {operation : Operation} {exchanges : List RpcExchange} {o : Rpc}
      {k : Except ClientError o.Result → Prog Rpc _ (Except ClientError Returned × Thread)}
      {n : Nat} {c : Connection}
      (hcurrent : x.current = some ⟨operation, exchanges, .op o k, none⟩)
      (hs : x.connection.step env wire (.act (.spawn (.caller n) (o.call initializeParams)))
        = some c) :
      Step env wire initializeParams x
        { x with connection := c, current := some ⟨operation, exchanges, .op o k, some n⟩ }
  | answer {operation : Operation} {exchanges : List RpcExchange} {o : Rpc}
      {k : Except ClientError o.Result → Prog Rpc _ (Except ClientError Returned × Thread)}
      {n : Nat} {outcome : Outcome}
      (hcurrent : x.current = some ⟨operation, exchanges, .op o k, some n⟩)
      (hreturned : x.connection.config.tasks (.caller n) = .live (.ret (.outcome outcome))) :
      Step env wire initializeParams x
        { x with
          current := some ⟨operation, exchanges ++ [⟨o, o.read outcome⟩], k (o.read outcome), none⟩
          answered := x.answered ++ [(n, ⟨o, o.read outcome⟩)] }
  | finish {operation : Operation} {exchanges : List RpcExchange}
      {result : Except ClientError Returned} {self : Thread}
      (hcurrent : x.current = some ⟨operation, exchanges, .ret (result, self), none⟩) :
      Step env wire initializeParams x
        { x with
          self := self
          history := x.history ++ [⟨operation, exchanges, result⟩]
          current := none }

inductive Run (env : Env) (wire : Wire) (initializeParams : Value) (origin : Thread) :
    OnConnection → Prop
  | init : Run env wire initializeParams origin (start env origin)
  | step {x x' : OnConnection} (hr : Run env wire initializeParams origin x)
      (hs : Step env wire initializeParams x x') : Run env wire initializeParams origin x'

end OnConnection

/-! ## Steps of the connection -/

section

variable {env : Env} {wire : Wire} {c c' : Connection}

/-- A step of a connection is at most one of its client. -/
theorem Connection.step_run {label : Connection.Label} (h : c.step env wire label = some c') :
    (client env).Run Machine.anyStep c.config c'.config := by
  cases label with
  | pull frame =>
    rw [(Connection.pull_cases h).config]
    exact .init
  | write result =>
    rw [(Connection.write_cases h).config]
    exact .init
  | act label =>
    obtain ⟨e, hstep⟩ := Connection.act_step h
    exact .step .init hstep.step trivial

theorem Connection.act_spawn {t : Tid} {call : Call}
    (h : c.step env wire (.act (.spawn t call)) = some c') :
    c.config.tasks t = .absent ∧ (client env).Step c.config (.spawn t call) c'.config := by
  obtain ⟨config', hstep, rfl⟩ := Option.map_eq_some_iff.1 h
  simp only [Machine.stepLabel] at hstep
  split at hstep
  · rename_i ht
    cases hstep
    exact ⟨ht, .spawn ht⟩
  · cases hstep

end

/-! ## The reply to a request -/

/-- The one frame the caller has sent is the request, and this is the result it was answered
with. -/
def RepliedTo (tr : List ClientEvent) (n : Nat) (method : String) (params raw : Value) : Prop :=
  ∃ id tx past, .op (.caller n) (.outboundSend (requestFrame id method params)) true ∈ tr ∧
    (∀ frame sent, .op (.caller n) (.outboundSend frame) sent ∈ tr →
      frame = requestFrame id method params ∧ sent = true) ∧
    AnsweredBy tr past (.caller n) id tx (.ok raw)

section

variable {env : Env} {method : String} {params raw : Value} {exchanges : List ClientExchange}

theorem yields_andThen_ok {α β : Type} {x : ClientM (Except ClientError α)}
    {f : α → ClientM (Except ClientError β)} {b : β} (h : Yields (andThen x f) exchanges (.ok b)) :
    ∃ first a rest, exchanges = first ++ rest ∧ Yields x first (.ok a) ∧
      Yields (f a) rest (.ok b) := by
  obtain ⟨first, r, rest, rfl, hx, hf⟩ := yields_bind.1 h
  cases r with
  | ok a => exact ⟨first, a, rest, rfl, hx, hf⟩
  | error e =>
    obtain ⟨-, hr⟩ := yields_ret.1 hf
    cases hr

theorem yields_requestGate {requiresReady : Bool} {r : Except ClientError Unit}
    (h : Yields (requestGate method requiresReady) exchanges r) :
    ∃ state, exchanges = [⟨.handshakeLoad, state⟩] := by
  obtain ⟨state, rest, rfl, hrest⟩ := yields_perform h
  obtain ⟨rfl, -⟩ := yields_ret.1 hrest
  exact ⟨state, rfl⟩

/-- A wait that ends with a value has received it. -/
theorem yields_awaitReply {timeout : Duration} {id : RequestId} {rx : Nat}
    (h : Yields (awaitReply method timeout id rx) exchanges (.ok raw)) :
    exchanges = [⟨.timeoutRecv rx timeout, .value (.ok raw)⟩] := by
  obtain ⟨waited, rest, rfl, hrest⟩ := yields_perform h
  rcases waited with (e | v) | _ | _
  · obtain ⟨-, hr⟩ := yields_ret.1 hrest
    cases hr
  · obtain ⟨rfl, hr⟩ := yields_ret.1 hrest
    cases hr
    rfl
  · obtain ⟨-, hr⟩ := yields_ret.1 hrest
    cases hr
  · obtain ⟨_, rest, -, hrest⟩ := yields_perform hrest
    obtain ⟨-, hr⟩ := yields_ret.1 hrest
    cases hr

theorem yields_roundTrip {timeout : Duration}
    (h : Yields (roundTrip method params timeout) exchanges (.ok raw)) :
    ∃ n tx, exchanges = [⟨.nextIdFetchAdd, n⟩, ⟨.oneshotChannel, tx⟩,
      ⟨.pendingInsert (.integer n) tx, ()⟩,
      ⟨.outboundSend (requestFrame (.integer n) method params), true⟩,
      ⟨.timeoutRecv tx timeout, .value (.ok raw)⟩] := by
  obtain ⟨n, rest, rfl, h₁⟩ := yields_perform h
  obtain ⟨tx, rest, rfl, h₂⟩ := yields_perform h₁
  obtain ⟨_, rest, rfl, h₃⟩ := yields_perform h₂
  obtain ⟨first, r, rest, rfl, hsend, hwait⟩ := yields_bind.1 h₃
  obtain ⟨sent, last, rfl, hlast⟩ := yields_perform hsend
  obtain ⟨rfl, rfl⟩ := yields_ret.1 hlast
  cases sent with
  | true =>
    obtain rfl := yields_awaitReply hwait
    exact ⟨n, tx, rfl⟩
  | false =>
    obtain ⟨_, rest, -, hrest⟩ := yields_perform hwait
    obtain ⟨-, hr⟩ := yields_ret.1 hrest
    cases hr

/-- **What a request that returned a value has performed.** -/
theorem yields_typed {decode : Value → Except DecodeError Unit}
    (h : Yields ((Call.typed method params decode).body env) exchanges (.ok raw)) :
    ∃ state n tx timeout, exchanges = [⟨.handshakeLoad, state⟩, ⟨.nextIdFetchAdd, n⟩,
      ⟨.oneshotChannel, tx⟩, ⟨.pendingInsert (.integer n) tx, ()⟩,
      ⟨.outboundSend (requestFrame (.integer n) method params), true⟩,
      ⟨.timeoutRecv tx timeout, .value (.ok raw)⟩] := by
  obtain ⟨first, value, rest, rfl, hvalue, hdecode⟩ := yields_andThen_ok h
  have hback : rest = [] ∧ value = raw := by
    obtain ⟨hrest, hr⟩ := yields_ret.1 hdecode
    cases hd : decode value <;> rw [hd] at hr <;> cases hr
    exact ⟨hrest, rfl⟩
  obtain ⟨rfl, rfl⟩ := hback
  obtain ⟨gate, _, trip, rfl, hgate, htrip⟩ := yields_andThen_ok hvalue
  obtain ⟨state, rfl⟩ := yields_requestGate hgate
  obtain ⟨n, tx, rfl⟩ := yields_roundTrip htrip
  exact ⟨state, n, tx, _, rfl⟩

/-- **A call that returned a value** was answered with it, on the one frame it sent. -/
theorem returned_reply {c : ClientConfig} {n : Nat} {decode : Value → Except DecodeError Unit}
    (hr : (client env).Run Machine.anyStep (ClientConfig.start env) c)
    (hspawn : .spawn (.caller n) (.typed method params decode) ∈ c.world.trace)
    (ht : c.tasks (.caller n) = .live (.ret (.outcome (.ok raw)))) :
    RepliedTo c.world.trace n method params raw := by
  have hbody := returned_run (fun _ => rfl) hr rfl hspawn ht
  obtain ⟨first, outcome, rest, hfirst, htyped, hout⟩ := yields_bind.1 hbody
  obtain ⟨rfl, heq⟩ := yields_ret.1 hout
  cases heq
  obtain ⟨state, id, tx, timeout, rfl⟩ := yields_typed htyped
  rw [List.append_nil, List.reverse_eq_iff] at hfirst
  -- what the caller has performed, as events
  have hown : ∀ (o : Op) (a : o.Ans), .op (.caller n) o a ∈ c.world.trace ↔
      ⟨o, a⟩ ∈ performedBy (.caller n) c.world.trace := by
    refine fun o a => ⟨mem_performedBy, fun hmem => ?_⟩
    obtain ⟨e, he, heq⟩ := List.mem_filterMap.1 hmem
    cases e with
    | op u o' a' =>
      obtain ⟨rfl, hx⟩ := Option.ite_none_right_eq_some.1 heq
      cases hx
      exact he
    | _ => cases heq
  obtain ⟨past, id', tx', hans⟩ :=
    ((answers_outline.run answers_start hr).returned ht _ hspawn).value trivial _ rfl
  have hid : id' = .integer id := by
    obtain ⟨e, he, hreg⟩ := List.mem_filterMap.1 hans.registered
    obtain ⟨a, rfl⟩ : ∃ a, e = .op (.caller n) (.pendingInsert id' tx') a := by
      unfold registration at hreg
      split at hreg <;> cases hreg
      exact ⟨_, rfl⟩
    have hmem := (hown _ _).1 he
    rw [hfirst] at hmem
    simp at hmem
    exact hmem.1
  subst hid
  refine ⟨_, tx', past, (hown _ _).2 (by simp [hfirst]), fun frame sent hmem => ?_, hans⟩
  have hmem := (hown _ _).1 hmem
  rw [hfirst] at hmem
  simpa using hmem

end

/-! ## Where a stream comes from -/

theorem ThreadRun.bound_by {origin self : Thread} {history : List Performed} {threadId : String}
    (horigin : origin.Fresh) (h : ThreadRun origin history self) (hself : self.IsBound threadId) :
    ∃ p ∈ history, ∃ e ∈ p.exchanges, e.bound = some threadId := by
  have hb := h.binding horigin
  cases hb with
  | unbound hquiet => exact absurd hself (horigin.not_isBound threadId)
  | @bound before after operation e threadId' hlog hbefore hbound hafter =>
    have hmem : (operation, e) ∈ historyLog history := by simp [hlog]
    obtain ⟨p, hp, hpe⟩ := List.mem_flatMap.1 hmem
    obtain ⟨e', he, heq⟩ := List.mem_map.1 hpe
    cases heq
    cases hself.2
    exact ⟨p, hp, e, he, hbound⟩

/-- The operation of a stream has started its turn, on the thread of the handle. -/
theorem Effect.turn {self self' : Thread} {p : Performed} {stream : StreamedTurn}
    (h : Effect p.operation self p.exchanges p.result self') (hstream : p.stream = some stream) :
    (∃ params answer, ⟨.turnStart params, .ok answer⟩ ∈ p.exchanges ∧
      answer.turn.id = stream.turnId ∧
      params.get "threadId" = some (p.operation.address stream.threadId)) ∧
    (self.IsBound stream.threadId ∨ ∃ e ∈ p.exchanges, e.bound = some stream.threadId) := by
  obtain ⟨operation, exchanges, result⟩ := p
  cases h with
  | ended h => cases hstream
  | @goesOn first rest threadId emit self₁ _ _ h hown =>
    cases hown with
    | refused err => cases hstream
    | turnFailed params err hstreams haddress => cases hstream
    | request method fields answer hstreams hresult hsteer =>
      cases result with
      | error err => cases hstream
      | ok reply => cases (hresult reply rfl).symm.trans hstream
    | @turn params answer reply hstreams haddress hown =>
      cases hown.symm.trans hstream
      refine ⟨⟨params, answer, by simp, rfl, haddress⟩, ?_⟩
      cases h with
      | already hself => exact .inl hself
      | @binds before last _ hself hquiet hbound => exact .inr ⟨last, by simp, hbound⟩

/-! ## The invariant -/

namespace OnConnection

/-- What the thread has exchanged so far. -/
def exchanges (x : OnConnection) : List RpcExchange :=
  x.history.flatMap Performed.exchanges ++ x.current.elim [] Running.exchanges

/-- The call of the request has returned, and the answer is what the thread has read. -/
structure Over (initializeParams : Value) (c : ClientConfig) (a : Nat × RpcExchange) : Prop where
  spawned : .spawn (.caller a.1) (a.2.1.call initializeParams) ∈ c.world.trace
  returned : ∃ outcome, c.tasks (.caller a.1) = .live (.ret (.outcome outcome)) ∧
    a.2.2 = a.2.1.read outcome

/-- The caller `n` makes the request the operation is at, and nobody else has done anything for the
thread since. -/
structure Asked (initializeParams : Value) (c : ClientConfig) (earlier : List (Nat × RpcExchange))
    (r : Running) (n : Nat) : Prop where
  spawned : ∀ o k, r.rest = .op o k → .spawn (.caller n) (o.call initializeParams) ∈ c.world.trace
  after : ∀ a ∈ earlier, Precedes (.caller a.1) (.caller n) c.world.trace

/-- What holds in every state of a run. -/
structure Consistent (env : Env) (wire : Wire) (initializeParams : Value) (origin : Thread)
    (x : OnConnection) : Prop where
  reachable : x.connection.Reachable env wire
  performed : ThreadRun origin x.history x.self
  running : ∀ r, x.current = some r → Comes (r.operation.body x.self) r.exchanges.reverse r.rest
  exchanged : x.answered.map Prod.snd = x.exchanges
  isOver : ∀ a ∈ x.answered, Over initializeParams x.connection.config a
  ordered : x.answered.Pairwise fun a b =>
    Precedes (.caller a.1) (.caller b.1) x.connection.config.world.trace
  asked : ∀ r n, x.current = some r → r.caller = some n →
    Asked initializeParams x.connection.config x.answered r n

section

variable {env : Env} {wire : Wire} {initializeParams : Value} {origin : Thread}
  {x x' : OnConnection}

theorem Over.run {c c' : ClientConfig} {a : Nat × RpcExchange} (h : Over initializeParams c a)
    (hr : (client env).Run Machine.anyStep c c') : Over initializeParams c' a := by
  obtain ⟨outcome, ht, hread⟩ := h.returned
  exact ⟨hr.trace_suffix.subset h.spawned, outcome, hr.returned ht, hread⟩

theorem Over.precedes {c c' : ClientConfig} {a : Nat × RpcExchange} {n : Nat}
    (h : Over initializeParams c a) (hp : Precedes (.caller a.1) (.caller n) c.world.trace)
    (hr : (client env).Run Machine.anyStep c c') :
    Precedes (.caller a.1) (.caller n) c'.world.trace := by
  obtain ⟨outcome, ht, -⟩ := h.returned
  exact hp.run hr ht

/-- What has been answered stays in order while the connection goes on. -/
theorem Consistent.moves (h : Consistent env wire initializeParams origin x) {c : Connection}
    (hr : (client env).Run Machine.anyStep x.connection.config c.config) :
    (∀ a ∈ x.answered, Over initializeParams c.config a) ∧
      x.answered.Pairwise fun a b =>
        Precedes (.caller a.1) (.caller b.1) c.config.world.trace :=
  ⟨fun a ha => (h.isOver a ha).run hr,
    h.ordered.imp_of_mem fun ha _ hp => (h.isOver _ ha).precedes hp hr⟩

theorem Consistent.connection (h : Consistent env wire initializeParams origin x)
    {label : Connection.Label} {c : Connection}
    (hs : x.connection.step env wire label = some c) :
    Consistent env wire initializeParams origin { x with connection := c } := by
  have hr := Connection.step_run hs
  obtain ⟨hover, hordered⟩ := h.moves hr
  refine ⟨h.reachable.step label hs, h.performed, h.running, h.exchanged, hover, hordered, ?_⟩
  intro r n hcurrent hn
  have hasked := h.asked r n hcurrent hn
  exact ⟨fun o k hrest => hr.trace_suffix.subset (hasked.spawned o k hrest),
    fun a ha => (h.isOver a ha).precedes (hasked.after a ha) hr⟩

theorem Consistent.starts (h : Consistent env wire initializeParams origin x)
    (operation : Operation) (hidle : x.current = none) :
    Consistent env wire initializeParams origin
      { x with current := some ⟨operation, [], operation.body x.self, none⟩ } := by
  refine ⟨h.reachable, h.performed, ?_, ?_, h.isOver, h.ordered, ?_⟩
  · rintro r ⟨⟩
    exact .start
  · rw [h.exchanged, exchanges, exchanges, hidle]
    rfl
  · rintro r n ⟨⟩ ⟨⟩

/-- A caller nobody has used before makes the next request. -/
theorem Consistent.request (h : Consistent env wire initializeParams origin x)
    {operation : Operation} {exchanges : List RpcExchange} {o : Rpc}
    {k : Except ClientError o.Result → Prog Rpc _ (Except ClientError Returned × Thread)} {n : Nat}
    {c : Connection} (hcurrent : x.current = some ⟨operation, exchanges, .op o k, none⟩)
    (hs : x.connection.step env wire (.act (.spawn (.caller n) (o.call initializeParams)))
      = some c) :
    Consistent env wire initializeParams origin
      { x with connection := c, current := some ⟨operation, exchanges, .op o k, some n⟩ } := by
  obtain ⟨habs, hspawn⟩ := Connection.act_spawn hs
  have hr : (client env).Run Machine.anyStep x.connection.config c.config :=
    .step .init hspawn trivial
  obtain ⟨hover, hordered⟩ := h.moves hr
  refine ⟨h.reachable.step _ hs, h.performed, ?_, ?_, hover, hordered, ?_⟩
  · rintro r ⟨⟩
    exact h.running ⟨operation, exchanges, .op o k, none⟩ hcurrent
  · rw [h.exchanged, OnConnection.exchanges, OnConnection.exchanges, hcurrent]
    rfl
  · rintro r n' ⟨⟩ ⟨⟩
    refine ⟨?_, fun a ha => ?_⟩
    · rintro o' k' heq
      obtain ⟨rfl, -⟩ := Prog.op.inj heq
      rw [hspawn.trace_eq]
      exact List.mem_cons_self
    · have hnew := untouched_run h.reachable.run rfl habs
      exact (h.isOver a ha).precedes ⟨[], _, rfl, by simp, hnew⟩ hr

/-- The operation goes on with what its call has returned. -/
theorem Consistent.answer (h : Consistent env wire initializeParams origin x)
    {operation : Operation} {exchanges : List RpcExchange} {o : Rpc}
    {k : Except ClientError o.Result → Prog Rpc _ (Except ClientError Returned × Thread)} {n : Nat}
    {outcome : Outcome} (hcurrent : x.current = some ⟨operation, exchanges, .op o k, some n⟩)
    (hreturned : x.connection.config.tasks (.caller n) = .live (.ret (.outcome outcome))) :
    Consistent env wire initializeParams origin
      { x with
        current := some ⟨operation, exchanges ++ [⟨o, o.read outcome⟩], k (o.read outcome), none⟩
        answered := x.answered ++ [(n, ⟨o, o.read outcome⟩)] } := by
  have hasked := h.asked _ n hcurrent rfl
  refine ⟨h.reachable, h.performed, ?_, ?_, ?_, ?_, ?_⟩
  · rintro r ⟨⟩
    rw [List.reverse_append]
    exact (h.running _ hcurrent).op _
  · rw [List.map_append, h.exchanged, OnConnection.exchanges, OnConnection.exchanges, hcurrent]
    simp
  · refine List.forall_mem_append.2 ⟨h.isOver, fun a ha => ?_⟩
    obtain rfl := List.mem_singleton.1 ha
    exact ⟨hasked.spawned o k rfl, outcome, hreturned, rfl⟩
  · refine List.pairwise_append.2 ⟨h.ordered, List.pairwise_singleton _ _, fun a ha b hb => ?_⟩
    obtain rfl := List.mem_singleton.1 hb
    exact hasked.after a ha
  · rintro r n' ⟨⟩ ⟨⟩

/-- What an operation has exchanged by its end is something it can do by itself. -/
theorem Consistent.finish (h : Consistent env wire initializeParams origin x)
    {operation : Operation} {exchanges : List RpcExchange} {result : Except ClientError Returned}
    {self : Thread}
    (hcurrent : x.current = some ⟨operation, exchanges, .ret (result, self), none⟩) :
    Consistent env wire initializeParams origin
      { x with
        self := self
        history := x.history ++ [⟨operation, exchanges, result⟩]
        current := none } := by
  have hyields := (h.running _ hcurrent).yields (.ret (result, self))
  rw [List.reverse_reverse, List.append_nil] at hyields
  refine ⟨h.reachable, h.performed.step hyields, ?_, ?_, h.isOver, h.ordered, ?_⟩
  · rintro r ⟨⟩
  · rw [h.exchanged, OnConnection.exchanges, OnConnection.exchanges, hcurrent]
    simp
  · rintro r n ⟨⟩

/-- **One step** keeps the thread and its connection consistent. -/
theorem Consistent.step (h : Consistent env wire initializeParams origin x)
    (hs : Step env wire initializeParams x x') :
    Consistent env wire initializeParams origin x' := by
  cases hs with
  | connection hs => exact h.connection hs
  | starts operation hidle => exact h.starts operation hidle
  | request hcurrent hs => exact h.request hcurrent hs
  | answer hcurrent hreturned => exact h.answer hcurrent hreturned
  | finish hcurrent => exact h.finish hcurrent

theorem consistent_start (env : Env) (wire : Wire) (initializeParams : Value) (origin : Thread) :
    Consistent env wire initializeParams origin (start env origin) where
  reachable := .start
  performed := .init
  running := by simp [start]
  exchanged := rfl
  isOver := by simp [start]
  ordered := .nil
  asked := by simp [start]

theorem Run.consistent (h : Run env wire initializeParams origin x) :
    Consistent env wire initializeParams origin x := by
  induction h with
  | init => exact consistent_start ..
  | step _ hs ih => exact ih.step hs

/-! ## The results -/

/-- Every request but the handshake is a typed one. -/
theorem call_typed (initializeParams : Value) {o : Rpc} (ho : o ≠ .ensureInitialized) :
    ∃ decode, o.call initializeParams = .typed o.method (o.params initializeParams) decode := by
  cases o with
  | ensureInitialized => exact absurd rfl ho
  | _ => exact ⟨_, rfl⟩

theorem Rpc.read_ok {o : Rpc} {outcome : Outcome} {result : o.Result}
    (h : o.read outcome = .ok result) : ∃ raw, outcome = .ok raw ∧ o.decode raw = .ok result := by
  cases outcome with
  | error err => cases h
  | ok raw =>
    refine ⟨raw, rfl, ?_⟩
    rw [Rpc.read] at h
    cases hd : o.decode raw <;> rw [hd] at h <;> cases h
    rfl

/-- **A result the thread has got** is the decoded reply to a frame of its own. -/
theorem Consistent.replied (h : Consistent env wire initializeParams origin x) {n : Nat} {o : Rpc}
    {result : o.Result} (hmem : (n, ⟨o, .ok result⟩) ∈ x.answered) (ho : o ≠ .ensureInitialized) :
    ∃ raw, o.decode raw = .ok result ∧ RepliedTo x.connection.config.world.trace n o.method
      (o.params initializeParams) raw := by
  obtain ⟨hspawn, outcome, ht, hread⟩ := h.isOver _ hmem
  obtain ⟨raw, rfl, hdecode⟩ := Rpc.read_ok hread.symm
  obtain ⟨decode, hcall⟩ := call_typed initializeParams ho
  rw [hcall] at hspawn
  exact ⟨raw, hdecode, returned_reply h.reachable.run hspawn ht⟩

/-- An error of the server is the one its own frame was answered with. -/
theorem Consistent.refused (h : Consistent env wire initializeParams origin x) {n : Nat} {o : Rpc}
    {err : RpcError} (hmem : (n, ⟨o, .error (.rpc err)⟩) ∈ x.answered) (herr : FromServer err) :
    Answered x.connection.config.world.trace (.caller n) (.error err) := by
  obtain ⟨hspawn, outcome, ht, hread⟩ := h.isOver _ hmem
  have hout : outcome = .error (.rpc err) := by
    cases outcome with
    | error e => cases hread; rfl
    | ok raw =>
      rw [Rpc.read] at hread
      cases hd : o.decode raw <;> rw [hd] at hread <;> cases hread
  subst hout
  have hended := (answers_outline.run answers_start h.reachable.run).returned ht _ hspawn
  exact hended.errorAnswered err rfl herr

/-- **A thread on its connection.**  In every state of every run:

* the handle has gone through a history of its own, and each of its exchanges is a call;
* a call does something only once the calls before it are over;
* a result is the decoded reply to the one frame of its call, which has the method and the params of
  the request, and an error of the server is the one that frame was answered with. -/
theorem thread_on_connection (h : Run env wire initializeParams origin x) :
    ThreadRun origin x.history x.self ∧
    x.answered.map Prod.snd = x.exchanges ∧
    (x.answered.Pairwise fun a b => a.1 ≠ b.1 ∧
      Precedes (.caller a.1) (.caller b.1) x.connection.config.world.trace) ∧
    (∀ (n : Nat) (o : Rpc) (result : o.Result), (n, ⟨o, .ok result⟩) ∈ x.answered →
      o ≠ .ensureInitialized → ∃ raw, o.decode raw = .ok result ∧
        RepliedTo x.connection.config.world.trace n o.method (o.params initializeParams) raw) ∧
    ∀ (n : Nat) (o : Rpc) (err : RpcError), (n, ⟨o, .error (.rpc err)⟩) ∈ x.answered →
      FromServer err → Answered x.connection.config.world.trace (.caller n) (.error err) := by
  have hc := h.consistent
  refine ⟨hc.performed, hc.exchanged, ?_, fun n o result hmem ho => hc.replied hmem ho,
    fun n o err hmem herr => hc.refused hmem herr⟩
  refine hc.ordered.imp_of_mem fun {a b} ha _ hp => ⟨fun heq => ?_, hp⟩
  exact hp.ne (hc.isOver a ha).spawned rfl (congrArg Tid.caller heq)

/-! ## Streams -/

/-- What the handle has exchanged is what some calls have come to. -/
theorem Consistent.answered_of_mem (h : Consistent env wire initializeParams origin x)
    {p : Performed} {e : RpcExchange} (hp : p ∈ x.history) (he : e ∈ p.exchanges) :
    ∃ n, (n, e) ∈ x.answered := by
  have hmem : e ∈ x.answered.map Prod.snd := by
    rw [h.exchanged]
    exact List.mem_append_left _ (List.mem_flatMap.2 ⟨p, hp, he⟩)
  obtain ⟨⟨n, e'⟩, hanswered, rfl⟩ := List.mem_map.1 hmem
  exact ⟨n, hanswered⟩

/-- **The streams of a thread on its connection.**  The turn of a stream is the one the server has
returned for the `turn/start` of that operation, which has been sent on the connection once; and
its thread is the one the server has returned for a start or a resume of this handle. -/
theorem stream_on_connection (horigin : origin.Fresh)
    (h : Run env wire initializeParams origin x) {p : Performed} {stream : StreamedTurn}
    (hp : p ∈ x.history) (hstream : p.stream = some stream) :
    (∃ n, ∃ params : Map, ∃ answer raw, (n, ⟨.turnStart params, .ok answer⟩) ∈ x.answered ∧
      ⟨.turnStart params, .ok answer⟩ ∈ p.exchanges ∧
      params.get "threadId" = some (p.operation.address stream.threadId) ∧
      TurnResult.decode raw = .ok answer ∧ answer.turn.id = stream.turnId ∧
      RepliedTo x.connection.config.world.trace n "turn/start" (.object params) raw) ∧
    ∃ n o result raw, (n, ⟨o, .ok result⟩) ∈ x.answered ∧
      RpcExchange.bound ⟨o, .ok result⟩ = some stream.threadId ∧ o.decode raw = .ok result ∧
      RepliedTo x.connection.config.world.trace n o.method (o.params initializeParams) raw := by
  have hc := h.consistent
  obtain ⟨pre, post, hhistory⟩ := List.append_of_mem hp
  have hperformed := hc.performed
  rw [hhistory] at hperformed
  obtain ⟨self₁, self₂, hpre, heffect⟩ := hperformed.split
  obtain ⟨⟨params, answer, hmem, hturn, haddress⟩, hbound⟩ := heffect.turn hstream
  refine ⟨?_, ?_⟩
  · obtain ⟨n, hanswered⟩ := hc.answered_of_mem hp hmem
    obtain ⟨raw, hdecode, hreplied⟩ := hc.replied hanswered (by simp)
    exact ⟨n, params, answer, raw, hanswered, hmem, haddress, hdecode, hturn, hreplied⟩
  · have hexchange : ∃ q ∈ x.history, ∃ e ∈ q.exchanges, e.bound = some stream.threadId := by
      rcases hbound with hself | ⟨e, he, hbound⟩
      · obtain ⟨q, hq, e, he, hbound⟩ := ThreadRun.bound_by horigin hpre hself
        exact ⟨q, by simp [hhistory, hq], e, he, hbound⟩
      · exact ⟨p, hp, e, he, hbound⟩
    obtain ⟨q, hq, ⟨o, outcome⟩, he, hbound⟩ := hexchange
    obtain ⟨n, hanswered⟩ := hc.answered_of_mem hq he
    cases outcome with
    | error err => cases o <;> cases hbound
    | ok result =>
      have ho : o ≠ .ensureInitialized := by
        rintro rfl
        cases hbound
      obtain ⟨raw, hdecode, hreplied⟩ := hc.replied hanswered ho
      exact ⟨n, o, result, raw, hanswered, hbound, hdecode, hreplied⟩

end

/-! ## A run -/

theorem Run.runLabels {env : Env} {wire : Wire} {initializeParams : Value} {origin : Thread}
    (labels : List Connection.Label) {x : OnConnection} {c : Connection}
    (hr : Run env wire initializeParams origin x)
    (h : x.connection.runLabels env wire labels = some c) :
    Run env wire initializeParams origin { x with connection := c } := by
  induction labels generalizing x c with
  | nil =>
    obtain rfl := Option.some.inj h
    exact hr
  | cons label labels ih =>
    obtain ⟨c₁, hs, hrest⟩ := Option.bind_eq_some_iff.1 h
    exact ih (x := { x with connection := c₁ }) (hr.step (.connection hs)) hrest

/-- The server answers the first three requests. -/
def serving : Wire where
  parse
    | [1] => .ok (resultFrame (.integer 1) (.object []))
    | [2] => .ok (resultFrame (.integer 2)
        (.object [("thread", .object [("id", .string "thread_a")])]))
    | _ => .ok (resultFrame (.integer 3)
        (.object [("turn", .object [("id", .string "turn_1")])]))
  context := "websocket frame as JSON"

/-- The caller goes as far as it can, the answer is read, and the caller goes on. -/
def roundSchedule (n : Nat) (before : Nat) (payload : UInt8) (after : Nat) :
    List Connection.Label :=
  List.replicate before (.act (.run (.caller n) .proceed)) ++
    [.pull (.payload [payload])] ++
    List.replicate 2 (.act (.run .inboundLoop .proceed)) ++
    List.replicate after (.act (.run (.caller n) .proceed))

/-- A handle resumes its thread and starts a turn, on a fresh client. -/
theorem serving_run : ∃ x, Run defaultEnv serving .null (resumeThread (.byId "thread_a") {}) x ∧
    (∃ p ∈ x.history, p.stream = some ⟨"thread_a", "turn_1", none⟩) ∧
    ∃ params result, (2, ⟨.turnStart params, .ok result⟩) ∈ x.answered := by
  have h₀ : Run defaultEnv serving .null (resumeThread (.byId "thread_a") {}) _ :=
    Run.init.step (.starts (.runStreamed (.text "hi") {}) rfl)
  have h₁ := (h₀.step (.request (n := 0) rfl rfl)).runLabels (roundSchedule 0 10 1 5) rfl
  have h₂ := h₁.step (.answer rfl rfl)
  have h₃ := (h₂.step (.request (n := 1) rfl rfl)).runLabels (roundSchedule 1 5 2 1) rfl
  have h₄ := h₃.step (.answer rfl rfl)
  have h₅ := (h₄.step (.request (n := 2) rfl rfl)).runLabels (roundSchedule 2 5 3 1) rfl
  have h₆ := h₅.step (.answer rfl rfl)
  have h₇ := h₆.step (.finish rfl)
  exact ⟨_, h₇, ⟨_, List.mem_singleton.2 rfl, rfl⟩, _, _,
    List.mem_append_right _ List.mem_cons_self⟩

/-- The turn was returned for a frame of the third caller. -/
theorem thread_on_connection_serving : ∃ x params raw,
    Run defaultEnv serving .null (resumeThread (.byId "thread_a") {}) x ∧
      RepliedTo x.connection.config.world.trace 2 "turn/start" params raw := by
  obtain ⟨x, hrun, -, params, result, hmem⟩ := serving_run
  obtain ⟨-, -, -, hreplied, -⟩ := thread_on_connection hrun
  obtain ⟨raw, -, hraw⟩ := hreplied 2 _ result hmem (by simp)
  exact ⟨x, _, raw, hrun, hraw⟩

/-- The stream is about the thread it has resumed. -/
theorem stream_on_connection_serving : ∃ x n o, ∃ result : Rpc.Result o, ∃ raw,
    Run defaultEnv serving .null (resumeThread (.byId "thread_a") {}) x ∧
      RpcExchange.bound ⟨o, .ok result⟩ = some "thread_a" ∧
      RepliedTo x.connection.config.world.trace n o.method (o.params .null) raw := by
  obtain ⟨x, hrun, ⟨p, hp, hstream⟩, -⟩ := serving_run
  obtain ⟨-, n, o, result, raw, -, hbound, -, hreplied⟩ :=
    stream_on_connection (.resume _ _) hrun hp hstream
  exact ⟨x, n, o, result, raw, hrun, hbound, hreplied⟩

end OnConnection

end CodexSdk

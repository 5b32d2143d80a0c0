import CodexSdk.Thread.Effect

/-!
# A thread binds once

What holds in every history of a handle.  It starts unbound; the first start or resume that
succeeds binds it to the thread it returned, and from then on it never starts, resumes or looks up
another one.  `Binding` says where a handle is after a history, `Binding.effect` is the step lemma,
`ThreadRun.binding` the run lemma, and `thread_binds_once` what follows from it.
-/

set_option autoImplicit false

namespace CodexSdk

open Json Interleave

variable {self self' : Thread} {exchanges : List RpcExchange}

/-! ## Histories -/

/-- The exchanges of a history, each with the operation it belongs to. -/
abbrev Log := List (Operation × RpcExchange)

def historyLog (history : List Performed) : Log :=
  history.flatMap fun p => p.exchanges.map fun e => (p.operation, e)

theorem historyLog_concat (history : List Performed) (p : Performed) :
    historyLog (history ++ [p]) =
      historyLog history ++ p.exchanges.map fun e => (p.operation, e) := by
  rw [historyLog, List.flatMap_append, List.flatMap_singleton, historyLog]

/-- The turn started last. -/
def lastTurn (log : Log) : Option String := (log.filterMap fun p => p.2.turnStarted).getLast?

theorem lastTurn_append (log log' : Log) :
    lastTurn (log ++ log') = (lastTurn log').or (lastTurn log) := by
  rw [lastTurn, List.filterMap_append, List.getLast?_append, lastTurn, lastTurn]

theorem lastTurn_eq_none {log : Log} (h : ∀ p ∈ log, p.2.turnStarted = none) :
    lastTurn log = none := by
  rw [lastTurn, List.getLast?_eq_none_iff, List.filterMap_eq_nil_iff]
  exact h

/-- What an operation does of its own is addressed to the thread, and the last turn is the last one
it started. -/
theorem Own.spec {operation : Operation} {threadId : String} {emitThreadStarted : Option String}
    {result : Except ClientError Returned}
    (h : Own operation threadId emitThreadStarted self exchanges result self') :
    (∀ e ∈ exchanges, e.bound = none ∧ e.Addresses (operation.address threadId)) ∧
      self' = { self with lastTurnId :=
        (lastTurn (exchanges.map fun e => (operation, e))).or self.lastTurnId } := by
  cases h with
  | refused err => exact ⟨by simp, rfl⟩
  | request method fields answer hstreams hresult hsteer =>
    refine ⟨fun e he => ?_, rfl⟩
    rw [List.mem_singleton.1 he]
    refine ⟨rfl, ?_⟩
    show (threadIdParams threadId fields).get "threadId" = _
    rw [threadIdParams_get]
    cases operation <;> first | rfl | exact absurd trivial hstreams
  | turnFailed params err hstreams haddress =>
    refine ⟨fun e he => ?_, rfl⟩
    rw [List.mem_singleton.1 he]
    exact ⟨rfl, haddress⟩
  | turn params answer hstreams haddress hstream =>
    refine ⟨fun e he => ?_, rfl⟩
    rw [List.mem_singleton.1 he]
    exact ⟨rfl, haddress⟩

/-- Where a handle is after the exchanges of `log`: as it was at the origin, or bound by one of
them, everything after which is addressed to the thread it returned. -/
inductive Binding (origin : Thread) (log : Log) : Thread → Prop
  | unbound (hquiet : ∀ p ∈ log, p.2.Quiet) : Binding origin log origin
  | bound {before after : Log} {operation : Operation} {e : RpcExchange} {threadId : String}
      (hlog : log = before ++ (operation, e) :: after) (hbefore : ∀ p ∈ before, p.2.Quiet)
      (hbound : e.bound = some threadId)
      (hafter : ∀ p ∈ after, p.2.bound = none ∧ p.2.Addresses (p.1.address threadId)) :
      Binding origin log { origin.boundTo threadId with lastTurnId := lastTurn after }

theorem Quiet.log {operation : Operation} (h : ∀ e ∈ exchanges, e.Quiet) :
    ∀ p ∈ exchanges.map fun e => (operation, e), p.2.Quiet := by
  intro p hp
  obtain ⟨e, he, rfl⟩ := List.mem_map.1 hp
  exact h e he

/-- A bound handle stays bound by the same exchange. -/
theorem Binding.addressed (origin : Thread) (operation op : Operation) {before after : Log}
    {e : RpcExchange} {threadId : String} (hbefore : ∀ p ∈ before, p.2.Quiet)
    (hbound : e.bound = some threadId)
    (hafter : ∀ p ∈ after, p.2.bound = none ∧ p.2.Addresses (p.1.address threadId))
    (hmore : ∀ x ∈ exchanges, x.bound = none ∧ x.Addresses (operation.address threadId)) :
    Binding origin (before ++ (op, e) :: after ++ exchanges.map fun e => (operation, e))
      { origin.boundTo threadId with lastTurnId :=
        (lastTurn (exchanges.map fun e => (operation, e))).or (lastTurn after) } := by
  rw [← lastTurn_append, List.append_assoc, List.cons_append]
  refine .bound rfl hbefore hbound fun p hp => ?_
  rcases List.mem_append.1 hp with hp | hp
  · exact hafter p hp
  · obtain ⟨x, hx, rfl⟩ := List.mem_map.1 hp
    exact hmore x hx

/-- Making sure of the client binds nothing, addresses nobody and starts no turn. -/
theorem ready_spec (operation : Operation) (h : ∀ e ∈ exchanges, e.1 = .ensureInitialized) :
    (∀ e ∈ exchanges, e.bound = none ∧ ∀ threadId, e.Addresses threadId) ∧
      lastTurn (exchanges.map fun e => (operation, e)) = none := by
  have hone : ∀ e ∈ exchanges, e.Quiet ∧ ∀ threadId, e.Addresses threadId := by
    rintro ⟨o, answer⟩ he
    obtain rfl : o = .ensureInitialized := h _ he
    exact ⟨⟨rfl, trivial⟩, fun _ => trivial⟩
  exact ⟨fun e he => ⟨(hone e he).1.1, (hone e he).2⟩,
    lastTurn_eq_none fun p hp => RpcExchange.turnStarted_of_prepares
      (Quiet.log (fun e he => (hone e he).1) p hp).2⟩

/-- Every operation keeps the binding. -/
theorem Binding.effect {origin : Thread} {log : Log} {operation : Operation}
    {result : Except ClientError Returned} (horigin : ∀ threadId, ¬ origin.IsBound threadId)
    (hb : Binding origin log self) (h : Effect operation self exchanges result self') :
    Binding origin (log ++ exchanges.map fun e => (operation, e)) self' := by
  cases hb with
  | unbound hquiet =>
    cases h with
    | ended h =>
      cases h with
      | failed err hfailed hready =>
        exact .unbound (List.forall_mem_append.2 ⟨hquiet, Quiet.log hfailed⟩)
    | goesOn h hown =>
      cases h with
      | already hself => exact absurd hself (horigin _)
      | binds hself hbefore hlast =>
        obtain ⟨haddressed, hself'⟩ := hown.spec
        rw [hself', show (self.boundTo _).lastTurnId = none from rfl, Option.or_none,
          List.append_assoc, List.map_append, List.singleton_append, List.map_cons,
          ← List.append_assoc]
        refine .bound rfl (List.forall_mem_append.2 ⟨hquiet, Quiet.log hbefore⟩) hlast
          fun p hp => ?_
        obtain ⟨e, he, rfl⟩ := List.mem_map.1 hp
        exact haddressed e he
  | @bound before after op e threadId hlog hbefore hbound hafter =>
    have hself : Thread.IsBound { origin.boundTo threadId with lastTurnId := lastTurn after }
        threadId := ⟨rfl, rfl⟩
    rw [hlog]
    cases h with
    | ended h =>
      obtain ⟨rfl, hready, -⟩ := h.of_isBound hself
      obtain ⟨hmore, hnone⟩ := ready_spec operation hready
      have hkept := Binding.addressed origin operation op hbefore hbound hafter
        fun x hx => ⟨(hmore x hx).1, (hmore x hx).2 _⟩
      rwa [hnone] at hkept
    | goesOn h hown =>
      obtain ⟨rfl, hready, hid⟩ := h.of_isBound hself
      obtain ⟨rfl, rfl⟩ := Prod.mk.inj (hid _ rfl)
      obtain ⟨haddressed, hself'⟩ := hown.spec
      obtain ⟨hmore, hnone⟩ := ready_spec operation hready
      have hkept := Binding.addressed origin operation op hbefore hbound hafter
        (List.forall_mem_append.2 ⟨fun x hx => ⟨(hmore x hx).1, (hmore x hx).2 _⟩, haddressed⟩)
      rw [List.map_append, lastTurn_append, hnone, Option.or_none] at hkept
      rw [hself', List.map_append]
      exact hkept

/-- The handles a client hands out. -/
inductive Thread.Fresh : Thread → Prop
  | start (options : ThreadOptions) : Fresh (startThread options)
  | resume (target : ResumeThread) (options : ThreadOptions) : Fresh (resumeThread target options)

theorem Thread.Fresh.not_isBound {origin : Thread} (h : origin.Fresh) (threadId : String) :
    ¬ origin.IsBound threadId := by
  intro hbound
  cases h with
  | start options => cases hbound.2
  | resume target options => cases hbound.1

theorem ThreadRun.binding {origin : Thread} {history : List Performed} (horigin : origin.Fresh)
    (h : ThreadRun origin history self) : Binding origin (historyLog history) self := by
  induction h with
  | init => exact .unbound (by simp [historyLog])
  | step h hop ih =>
    rw [historyLog_concat]
    exact ih.effect horigin.not_isBound (does_body hop)

/-! ## What a history shows -/

/-- A list is cut in one way only at an element with a property that no other element has. -/
theorem split_unique {α : Type} {P : α → Prop} {before after before' after' : List α} {x x' : α}
    (h : before ++ x :: after = before' ++ x' :: after') (hx : P x)
    (hbefore : ∀ y ∈ before', ¬ P y) (hafter : ∀ y ∈ after', ¬ P y) : x = x' ∧ after = after' := by
  rcases List.append_eq_append_iff.1 h with ⟨middle, rfl, hrest⟩ | ⟨middle, rfl, hrest⟩
  · cases middle with
    | nil => exact List.cons.inj hrest
    | cons y middle =>
      obtain ⟨rfl, -⟩ := List.cons.inj hrest
      exact absurd hx (hbefore x (by simp))
  · cases middle with
    | nil =>
      obtain ⟨hhead, htail⟩ := List.cons.inj hrest
      exact ⟨hhead.symm, htail.symm⟩
    | cons y middle =>
      obtain ⟨-, rfl⟩ := List.cons.inj hrest
      exact absurd hx (hafter x (by simp))

theorem Binding.bound_le_one {origin : Thread} {log : Log} (h : Binding origin log self) :
    (log.filterMap fun p => p.2.bound).length ≤ 1 := by
  cases h with
  | unbound hquiet =>
    rw [List.filterMap_eq_nil_iff.2 fun p hp => (hquiet p hp).1]
    exact Nat.zero_le 1
  | @bound before after operation e threadId hlog hbefore hbound hafter =>
    rw [hlog, List.filterMap_append,
      List.filterMap_cons_some (f := fun p : Operation × RpcExchange => p.2.bound) hbound,
      List.filterMap_eq_nil_iff.2 fun p hp => (hbefore p hp).1,
      List.filterMap_eq_nil_iff.2 fun p hp => (hafter p hp).1]
    exact Nat.le_refl 1

/-- After the exchange that bound it, the handle names the thread and its last turn. -/
theorem Binding.of_split {origin : Thread} {before after : Log} {operation : Operation}
    {e : RpcExchange} {threadId : String}
    (h : Binding origin (before ++ (operation, e) :: after) self) (he : e.bound = some threadId) :
    (∀ p ∈ after, p.2.Addresses (p.1.address threadId)) ∧ self.IsBound threadId ∧
      self.lastTurnId = lastTurn after := by
  cases h with
  | unbound hquiet =>
    have hnone := (hquiet (operation, e) (by simp)).1
    rw [he] at hnone
    cases hnone
  | @bound before' after' operation' e' threadId' hlog hbefore hbound hafter =>
    obtain ⟨heq, rfl⟩ := split_unique (P := fun p => p.2.bound ≠ none) hlog (by simp [he])
      (fun p hp => not_not.2 (hbefore p hp).1) (fun p hp => not_not.2 (hafter p hp).1)
    obtain ⟨rfl, rfl⟩ := Prod.mk.inj heq
    obtain rfl : threadId = threadId' := Option.some.inj (he.symm.trans hbound)
    exact ⟨fun p hp => (hafter p hp).2, ⟨rfl, rfl⟩, rfl⟩

/-- A handle that knows a turn was bound, and has started the turn since. -/
theorem Binding.of_lastTurnId {origin : Thread} {log : Log} {turnId : String}
    (horigin : origin.lastTurnId = none) (h : Binding origin log self)
    (hturn : self.lastTurnId = some turnId) :
    ∃ before operation e after threadId, log = before ++ (operation, e) :: after ∧
      e.bound = some threadId ∧ lastTurn after = some turnId := by
  cases h with
  | unbound hquiet =>
    rw [horigin] at hturn
    cases hturn
  | bound hlog hbefore hbound hafter => exact ⟨_, _, _, _, _, hlog, hbound, hturn⟩

/-- Looking for a thread in vain changes nothing. -/
theorem Effect.unchanged {operation : Operation} {result : Except ClientError Returned}
    (h : Effect operation self exchanges result self') (hseeks : ∃ e ∈ exchanges, e.1.Seeks)
    (hbound : ∀ e ∈ exchanges, e.bound = none) : self' = self := by
  cases h with
  | ended h =>
    cases h with
    | failed => rfl
  | goesOn h hown =>
    cases h with
    | already hself =>
      obtain ⟨e, he, hseek⟩ := hseeks
      rcases List.mem_cons.1 he with rfl | he
      · exact hseek.elim
      · exact absurd hseek (hown.spec.1 e he).2.not_seeks
    | @binds before last threadId hself hquiet hlast =>
      have hnone := hbound last (by simp)
      rw [hlast] at hnone
      cases hnone

/-- The turn in the frame of a `steer` that was given none. -/
theorem Effect.steered {input : Input} {result : Except ClientError Returned} {method : String}
    {params : Map} {answer : Except ClientError Value}
    (h : Effect (.steer input none) self exchanges result self')
    (hmem : ⟨.operation method params, answer⟩ ∈ exchanges) :
    ∃ turnId, self.lastTurnId = some turnId ∧
      params.get "expectedTurnId" = some (.string turnId) := by
  cases h with
  | ended h => exact (h.prepares _ hmem).elim
  | @goesOn first rest threadId emit self₁ _ _ h hown =>
    rcases List.mem_append.1 hmem with hfirst | hrest
    · exact (h.prepares _ hfirst).elim
    · cases hown with
      | refused err => cases hrest
      | request method' fields answer' hstreams hresult hsteer =>
        cases List.mem_singleton.1 hrest
        obtain ⟨turnId, hturn, hget⟩ := hsteer input rfl
        cases h with
        | already hself => exact ⟨turnId, hturn, hget⟩
        | binds hself hquiet hlast => cases hturn
      | turnFailed params' err hstreams => exact hstreams.elim
      | turn params' answer' hstreams => exact hstreams.elim

/-- **A thread binds to one thread of the server.**  In every history of a handle at most one start
or resume succeeds; every frame after it is addressed to the thread it returned, and none of them
starts, resumes or looks up another; an operation that looks for a thread in vain leaves the handle
as it was; and the turn a `steer` falls back on is the last one started since. -/
theorem thread_binds_once {origin self : Thread} {history : List Performed}
    (horigin : origin.Fresh) (h : ThreadRun origin history self) :
    ((historyLog history).filterMap fun p => p.2.bound).length ≤ 1 ∧
    (∀ (before : Log) (operation : Operation) (e : RpcExchange) (after : Log) (threadId : String),
      historyLog history = before ++ (operation, e) :: after → e.bound = some threadId →
        (∀ p ∈ after, p.2.Addresses (p.1.address threadId)) ∧ self.IsBound threadId ∧
          self.lastTurnId = lastTurn after) ∧
    (∀ (operation : Operation) (exchanges : List RpcExchange) (result : Except ClientError Returned)
      (self' : Thread), Does operation.body self exchanges result self' →
        (∃ e ∈ exchanges, e.1.Seeks) → (∀ e ∈ exchanges, e.bound = none) → self' = self) ∧
    ∀ (input : Input) (exchanges : List RpcExchange) (result : Except ClientError Returned)
      (self' : Thread) (method : String) (params : Map) (answer : Except ClientError Value),
      Does (Operation.body (.steer input none)) self exchanges result self' →
        ⟨.operation method params, answer⟩ ∈ exchanges →
          ∃ (before : Log) (operation : Operation) (e : RpcExchange) (after : Log)
            (threadId turnId : String),
            historyLog history = before ++ (operation, e) :: after ∧ e.bound = some threadId ∧
              lastTurn after = some turnId ∧
              params.get "expectedTurnId" = some (.string turnId) := by
  have hbinding := h.binding horigin
  refine ⟨hbinding.bound_le_one, ?_, ?_, ?_⟩
  · intro before operation e after threadId hlog he
    rw [hlog] at hbinding
    exact hbinding.of_split he
  · intro operation exchanges result self' hdoes
    exact (does_body hdoes).unchanged
  · intro input exchanges result self' method params answer hdoes hmem
    obtain ⟨turnId, hturn, hget⟩ := (does_body hdoes).steered hmem
    have hnone : origin.lastTurnId = none := by cases horigin <;> rfl
    obtain ⟨before, operation, e, after, threadId, hlog, he, hlast⟩ :=
      hbinding.of_lastTurnId hnone hturn
    exact ⟨before, operation, e, after, threadId, turnId, hlog, he, hlast, hget⟩

/-! ## A turn sent elsewhere -/

/-- What the server answers to a start. -/
def startedThread : ThreadResult := ⟨⟨"thread_a", none, none, none, none, []⟩⟩

/-- What the server answers to a `turn/start`. -/
def startedTurn : TurnResult := ⟨⟨"turn_1", none, [], none, []⟩⟩

/-- A turn with a thread id of its own. -/
def elsewhere : TurnOptions := { extra := some [("threadId", .string "thread_b")] }

def elsewhereOperation : Operation := .runStreamed (.text "go on") elsewhere

/-- A new handle runs that turn. -/
def elsewhereHistory : List Performed :=
  [⟨elsewhereOperation,
    [⟨.ensureInitialized, .ok ()⟩,
      ⟨.threadStart (buildThreadStartParams {}).toJson, .ok startedThread⟩,
      ⟨.turnStart (buildTurnStartParams "thread_a" (.text "go on") {} elsewhere).toJson,
        .ok startedTurn⟩],
    .ok (.streamed ⟨"thread_a", "turn_1", some "thread_a"⟩)⟩]

theorem elsewhere_run : ThreadRun (startThread {}) elsewhereHistory
    { startThread {} with id := some "thread_a", lastTurnId := some "turn_1" } := by
  refine .step .init (Yields.answered (by rfl) _ ?_)
  refine Yields.answered (by rfl) _ ?_
  refine Yields.answered (by rfl) _ ?_
  exact .ret _

theorem thread_binds_once_elsewhere :
    ((historyLog elsewhereHistory).filterMap fun p => p.2.bound).length ≤ 1 :=
  (thread_binds_once (.start {}) elsewhere_run).1

/-- The frame of that turn does not carry the id of the thread the handle is bound to. -/
theorem thread_leaves :
    ¬ ∀ (origin self : Thread) (history : List Performed), origin.Fresh →
      ThreadRun origin history self →
        ∀ (before : Log) (operation : Operation) (e : RpcExchange) (after : Log)
          (threadId : String),
          historyLog history = before ++ (operation, e) :: after → e.bound = some threadId →
            ∀ p ∈ after, p.2.Addresses (.string threadId) := by
  intro h
  have haddressed := h _ _ _ (.start {}) elsewhere_run
    [(elsewhereOperation, ⟨.ensureInitialized, .ok ()⟩)] elsewhereOperation _ _ "thread_a" rfl rfl
    _ (List.mem_singleton_self _)
  have hget : (Map.get _ "threadId") = some (.string "thread_a") := haddressed
  rw [turnStart_threadId] at hget
  have hid : "thread_b" = "thread_a" := Value.string.inj (Option.some.inj hget)
  exact absurd hid (by decide)

end CodexSdk

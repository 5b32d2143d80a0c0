import CodexSdk.Connection.Delivery
import CodexSdk.Turn.Stream

/-!
# A streamed turn on its connection

From the frames a transport yields to the events a consumer of a streamed turn takes there are the
reader, the queue of the inbound loop, the loop, the broadcast channel, the pump and the queue of
the stream.  `Streaming` puts them together, for a stream that subscribed in some state of a
connection: what the loop publishes from then on is what the channel hands out.

`streamed_end_to_end` follows the notifications all the way.  A stream that keeps up and has
settled, on a connection that is up and has handled its frames, has given its consumer what the pump
makes of the notifications among these frames, except for those that had been published before.
-/

set_option autoImplicit false

namespace CodexSdk

open Json Interleave Rounds

/-! ## Notifications -/

/-- The notification an event is about. -/
def ServerEvent.asNotification : ServerEvent → Option ServerNotification
  | .notification n => some n
  | .serverRequest _ | .transportClosed => none

namespace Connection

/-- The notification an item that reaches the loop is read as. -/
def notificationOf : Except ClientError Value → Option ServerNotification
  | .ok value => match classifyIncoming value with
    | .ok (.notification method params _) => some (notificationEvent method params)
    | _ => none
  | .error _ => none

/-- The notifications in the frames the transport has yielded. -/
def notifications (wire : Wire) (c : Connection) : List ServerNotification :=
  (c.offered wire).filterMap notificationOf

/-- What is published on the broadcast channel. -/
def publishedEvent : (o : Op) → o.Ans → List ServerEvent
  | .eventSend event, _ => [event]
  | _, _ => []

def published (tr : List ClientEvent) : List ServerEvent := seen publishedEvent tr

/-- The connection is up, and the loop has handled every frame it could have. -/
structure Caught (env : Env) (c : Connection) : Prop where
  waits : c.config.tasks .inboundLoop = .live (loopRound env)
  empty : c.inbound = []
  writing : c.writing = true

end Connection

/-! ## The system -/

structure Streaming where
  connection : Connection
  stream : StreamState

/-- A step of the connection publishes to the stream, and the other steps are the stream's own. -/
inductive Streaming.Step (env : Env) (wire : Wire) (threadId turnId : String) (x : Streaming) :
    Streaming → Prop
  | connection {label : Connection.Label} {c : Connection} {new : List ServerEvent}
      (hs : x.connection.step env wire label = some c)
      (hnew : Connection.published c.config.world.trace =
        Connection.published x.connection.config.world.trace ++ new) :
      Step env wire threadId turnId x
        ⟨c, { x.stream with published := x.stream.published ++ new }⟩
  | stream {s : StreamState} (hs : StreamStep threadId turnId x.stream s)
      (hpublished : s.published = x.stream.published) (hclosed : s.closed = x.stream.closed) :
      Step env wire threadId turnId x ⟨x.connection, s⟩

/-- The runs of a stream that subscribed in the state `c₀` and always keeps up. -/
inductive Streaming.Run (env : Env) (wire : Wire) (threadId turnId : String)
    (threadStarted : Option String) (c₀ : Connection) : Streaming → Prop
  | init : Run env wire threadId turnId threadStarted c₀ ⟨c₀, .start threadStarted⟩
  | step {x x' : Streaming} (hr : Run env wire threadId turnId threadStarted c₀ x)
      (hs : Streaming.Step env wire threadId turnId x x')
      (hkeeps : x'.stream.backlog ≤ eventCapacity) :
      Run env wire threadId turnId threadStarted c₀ x'

section

variable {env : Env} {wire : Wire} {threadId turnId : String} {threadStarted : Option String}
  {c c' c₀ : Connection} {x x' : Streaming} {e : ClientEvent}

/-! ## What is published -/

namespace Connection

theorem published_cons (e : ClientEvent) (tr : List ClientEvent) :
    published (e :: tr) = published tr ++ e.seen publishedEvent := seen_cons _ _ _

/-- One step publishes one event at most. -/
theorem step_published {label : Label} (h : c.step env wire label = some c') :
    ∃ new, published c'.config.world.trace = published c.config.world.trace ++ new ∧
      new.length ≤ 1 := by
  cases label with
  | pull frame =>
    rw [(pull_cases h).config]
    exact ⟨[], (List.append_nil _).symm, Nat.zero_le _⟩
  | write result =>
    rw [(write_cases h).config]
    exact ⟨[], (List.append_nil _).symm, Nat.zero_le _⟩
  | act label =>
    obtain ⟨e, hstep⟩ := act_step h
    rw [hstep.step.trace_eq, published_cons]
    refine ⟨_, rfl, ?_⟩
    cases e with
    | op t o a => cases o <;> exact Nat.le_of_ble_eq_true rfl
    | _ => exact Nat.zero_le _

/-- The notification an effect publishes. -/
def Effect.asNotification : Effect → Option ServerNotification
  | .published notification => some notification
  | .dispatched _ _ => none

/-- The notifications among the events published are those among what the loop handled. -/
theorem published_notifications (tr : List ClientEvent) :
    (published tr).filterMap ServerEvent.asNotification =
      (handled tr).filterMap Effect.asNotification := by
  induction tr with
  | nil => rfl
  | cons e tr ih =>
    have hhandled : handled (e :: tr) = handled tr ++ e.seen effectsAccount.paid := seen_cons _ _ _
    have hevent : (e.seen publishedEvent).filterMap ServerEvent.asNotification =
        (e.seen effectsAccount.paid).filterMap Effect.asNotification := by
      cases e with
      | op t o a =>
        cases o with
        | eventSend event => cases event <;> rfl
        | _ => rfl
      | _ => rfl
    rw [published_cons, hhandled, List.filterMap_append, List.filterMap_append, ih, hevent]

theorem effects_notifications (item : Except ClientError Value) :
    (effects item).filterMap Effect.asNotification = (notificationOf item).toList := by
  cases item with
  | error err => rfl
  | ok value =>
    rw [effects, notificationOf]
    cases classifyIncoming value with
    | error err => rfl
    | ok incoming => cases incoming <;> rfl

theorem notifications_eq (wire : Wire) (c : Connection) :
    c.notifications wire = ((c.offered wire).flatMap effects).filterMap Effect.asNotification := by
  rw [notifications]
  induction c.offered wire with
  | nil => rfl
  | cons item items ih =>
    rw [List.flatMap_cons, List.filterMap_append, ← ih, effects_notifications]
    cases h : notificationOf item <;> simp [h]

/-- **On a connection that has caught up, every notification has been published.** -/
theorem Caught.published_eq (h : c.Reachable env wire) (hc : c.Caught env) :
    (published c.config.world.trace).filterMap ServerEvent.asNotification =
      c.notifications wire := by
  have hlive : c.exited = false := by
    refine Bool.eq_false_iff.2 fun hexit => ?_
    have hret := exited_iff.1 hexit
    rw [hc.waits] at hret
    cases hret
  obtain ⟨sent, hsends⟩ := h.sends
  obtain ⟨before, report, after, harrives⟩ := hsends.arrives
  obtain ⟨owed, heq, howed⟩ := harrives.handled h
  rw [howed (.inl hc.waits), hc.empty, List.flatMap_nil, List.append_nil, List.append_nil,
    harrives.all hlive] at heq
  rw [published_notifications, heq, notifications_eq]

/-- What has been published was sent by somebody. -/
theorem mem_published {event : ServerEvent} {tr : List ClientEvent} (h : event ∈ published tr) :
    ∃ t, .op t (.eventSend event) () ∈ tr := by
  obtain ⟨e, he, hmem⟩ := List.mem_flatMap.1 h
  cases e with
  | op t o a =>
    cases o with
    | eventSend event' =>
      obtain rfl := List.mem_singleton.1 hmem
      exact ⟨t, List.mem_reverse.1 he⟩
    | _ => cases hmem
  | _ => cases hmem

/-- While the connection is up, its end is not announced. -/
theorem Caught.not_closed (h : c.Reachable env wire) (hc : c.Caught env) :
    .transportClosed ∉ published c.config.world.trace := by
  intro hmem
  obtain ⟨t, hmem⟩ := mem_published hmem
  rcases (history_orderly h.run).announced t hmem with hserving | hrefused
  · exact hserving (waiting_serving h.run hc.waits)
  · have hstopped := h.sound.refused hrefused
    rw [hc.writing] at hstopped
    cases hstopped

end Connection

/-! ## What is streamed -/

/-- The pump makes nothing of requests, so only the notifications matter. -/
theorem pump_notifications (events : List ServerEvent) (hopen : .transportClosed ∉ events) :
    pumpTurnEvents threadId turnId (events.map .item) =
      pumpTurnEvents threadId turnId
        ((events.filterMap ServerEvent.asNotification).map fun n => .item (.notification n)) := by
  have herased : Erased (fun r => ∃ request, r = .item (.serverRequest request))
      (events.map .item : List Received)
      ((events.filterMap ServerEvent.asNotification).map fun n => .item (.notification n)) := by
    induction events with
    | nil => exact .nil
    | cons event events ih =>
      have hrest := ih fun hmem => hopen (List.mem_cons_of_mem _ hmem)
      cases event with
      | notification n => exact .keep _ hrest
      | serverRequest request => exact .drop ⟨request, rfl⟩ hrest
      | transportClosed => exact absurd List.mem_cons_self hopen
  refine (emitted_erased herased ?_ none).symm
  rintro r ⟨request, rfl⟩
  exact fun usage => rfl

/-- What holds in every state of a run: the stream has been published to by the connection, and by
nothing else. -/
structure Streaming.Fed (env : Env) (wire : Wire) (threadId turnId : String)
    (threadStarted : Option String) (c₀ : Connection) (x : Streaming) : Prop where
  reachable : x.connection.Reachable env wire
  published : Connection.published x.connection.config.world.trace =
    Connection.published c₀.config.world.trace ++ x.stream.published
  isOpen : x.stream.closed = false
  run : StreamRun threadId turnId threadStarted (fun s => s.backlog ≤ eventCapacity) x.stream

/-- **One step** keeps a stream fed. -/
theorem Streaming.Fed.step (h : Streaming.Fed env wire threadId turnId threadStarted c₀ x)
    (hs : Streaming.Step env wire threadId turnId x x')
    (hkeeps : x'.stream.backlog ≤ eventCapacity) :
    Streaming.Fed env wire threadId turnId threadStarted c₀ x' := by
  cases hs with
  | @connection label c new hs hnew =>
    refine ⟨h.reachable.step label hs, ?_, h.isOpen, ?_⟩
    · rw [hnew, h.published, List.append_assoc]
    · obtain ⟨new', hnew', hlen⟩ := Connection.step_published hs
      obtain rfl : new = new' := List.append_cancel_left (hnew.symm.trans hnew')
      rcases new with _ | ⟨event, _ | ⟨_, _⟩⟩
      · simpa using h.run
      · exact h.run.step (.publish event h.isOpen) hkeeps
      · simp at hlen
  | stream hs hpublished hclosed =>
    exact ⟨h.reachable, by rw [hpublished, h.published], by rw [hclosed, h.isOpen],
      h.run.step hs hkeeps⟩

theorem Streaming.Run.fed (h₀ : c₀.Reachable env wire)
    (hr : Streaming.Run env wire threadId turnId threadStarted c₀ x) :
    Streaming.Fed env wire threadId turnId threadStarted c₀ x := by
  induction hr with
  | init => exact ⟨h₀, (List.append_nil _).symm, rfl, .init (Nat.zero_le _)⟩
  | step _ hs hkeeps ih => exact ih.step hs hkeeps

/-- **From the transport to the consumer.**  In every run of a stream that keeps up, once the
connection has caught up and the stream has settled, the consumer has had the preamble and what the
pump makes of the notifications in the frames of the transport, in their order and without gaps, but
for those published before the stream subscribed. -/
theorem streamed_end_to_end (h₀ : c₀.Reachable env wire)
    (hr : Streaming.Run env wire threadId turnId threadStarted c₀ x)
    (hcaught : x.connection.Caught env) (hset : x.stream.Settled) :
    ∃ since, x.connection.notifications wire =
        (Connection.published c₀.config.world.trace).filterMap ServerEvent.asNotification ++ since ∧
      x.stream.consumed = preamble threadStarted ++
        pumpTurnEvents threadId turnId (since.map fun n => .item (.notification n)) := by
  have hfed := hr.fed h₀
  have hopen := hcaught.not_closed hfed.reachable
  rw [hfed.published, List.mem_append, not_or] at hopen
  refine ⟨x.stream.published.filterMap ServerEvent.asNotification, ?_, ?_⟩
  · rw [← hcaught.published_eq hfed.reachable, hfed.published, List.filterMap_append]
  · have hconsumed := hfed.run.accounted.consumed_eq (hfed.run.no_lag fun s hs => hs) hset
    rw [hconsumed, ← pump_notifications _ hopen.2, StreamState.feed, hfed.isOpen]
    simp

end

/-! ## A run -/

/-- The params of a turn that is over. -/
def finishedParams : Value := .object [("turn", .object [("id", .string "turn_1")])]

/-- Every payload says that the turn is over. -/
def finishing : Wire :=
  ⟨fun _ => .ok (notificationFrame "turn/completed" finishedParams), "websocket frame as JSON"⟩

theorem finished_run : ∃ x : Streaming,
    Streaming.Run defaultEnv finishing "thread_a" "turn_1" none (.start defaultEnv) x ∧
      x.connection.Caught defaultEnv ∧ x.stream.Settled ∧
      x.connection.notifications finishing = [.turnCompleted finishedTurn] := by
  obtain ⟨c₁, hc₁, hp₁, c₂, hc₂, hp₂, c₃, hc₃, hp₃, hwaits, hempty, hwriting, hnotifications⟩ :
      ∃ c₁, (Connection.start defaultEnv).step defaultEnv finishing (.pull (.payload []))
          = some c₁ ∧ Connection.published c₁.config.world.trace = [] ∧
      ∃ c₂, c₁.step defaultEnv finishing (.act (.run .inboundLoop .proceed)) = some c₂ ∧
        Connection.published c₂.config.world.trace = [] ∧
      ∃ c₃, c₂.step defaultEnv finishing (.act (.run .inboundLoop .proceed)) = some c₃ ∧
        Connection.published c₃.config.world.trace =
          [.notification (.turnCompleted finishedTurn)] ∧
        c₃.config.tasks .inboundLoop = .live (loopRound defaultEnv) ∧ c₃.inbound = [] ∧
        c₃.writing = true ∧ c₃.notifications finishing = [.turnCompleted finishedTurn] :=
    ⟨_, rfl, rfl, _, rfl, rfl, _, rfl, rfl, rfl, rfl, rfl, rfl⟩
  have h₀ : Streaming.Run defaultEnv finishing "thread_a" "turn_1" none (.start defaultEnv)
      ⟨.start defaultEnv, .start none⟩ := .init
  have hnew₂ : Connection.published c₂.config.world.trace =
      Connection.published c₁.config.world.trace ++ [] := by rw [hp₂, hp₁]; rfl
  have hnew₃ : Connection.published c₃.config.world.trace =
      Connection.published c₂.config.world.trace ++
        [.notification (.turnCompleted finishedTurn)] := by rw [hp₃, hp₂]; rfl
  have h₁ := h₀.step (.connection hc₁ (hp₁.trans (List.append_nil _).symm)) (Nat.zero_le _)
  have h₂ := h₁.step (.connection hc₂ hnew₂) (Nat.zero_le _)
  have h₃ := h₂.step (.connection hc₃ hnew₃) (by decide : 1 ≤ eventCapacity)
  have hrecv : Broadcast.recv eventCapacity [ServerEvent.notification (.turnCompleted finishedTurn)]
      false 0 = some (.item (.notification (.turnCompleted finishedTurn)), 1) := by
    simp [Broadcast.recv, eventCapacity]
  have h₄ := h₃.step (.stream (.receive rfl hrecv) rfl rfl) (Nat.zero_le _)
  rw [finished_round] at h₄
  have h₅ := h₄.step (.stream (.send rfl (by decide : 1 < streamCapacity)) rfl rfl) (Nat.zero_le _)
  have h₆ := h₅.step (.stream (.consume rfl) rfl rfl) (Nat.zero_le _)
  have h₇ := h₆.step (.stream (.consume rfl) rfl rfl) (Nat.zero_le _)
  exact ⟨_, h₇, ⟨hwaits, hempty, hwriting⟩, ⟨rfl, .inl rfl⟩, hnotifications⟩

/-- The consumer has had the end of its turn. -/
theorem streamed_end_to_end_finished : ∃ x : Streaming,
    Streaming.Run defaultEnv finishing "thread_a" "turn_1" none (.start defaultEnv) x ∧
      x.stream.consumed = [.ok .turnStarted, .ok (.turnCompleted none)] := by
  obtain ⟨x, hrun, hcaught, hset, hnotifications⟩ := finished_run
  obtain ⟨since, hsince, hconsumed⟩ := streamed_end_to_end .start hrun hcaught hset
  rw [hnotifications] at hsince
  obtain rfl : [ServerNotification.turnCompleted finishedTurn] = since := hsince
  refine ⟨x, hrun, ?_⟩
  rw [hconsumed, List.map_singleton, pumpTurnEvents, emitted, finished_round]
  rfl

end CodexSdk

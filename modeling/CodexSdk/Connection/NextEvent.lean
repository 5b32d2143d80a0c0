import CodexSdk.Connection.AfterClose
import CodexSdk.Connection.Ownership
import CodexSdk.Connection.Streaming

/-!
# Calls of `next_event`

A client and its clones take their events from one receiver, which is behind a lock and has been
there since the channel was made.  A call of `next_event` locks the receiver, passes over what it
is told it has missed, and returns the first event it is handed.  It can be dropped at either of its
two awaits.

A state of the calls on their connection is a `Listening`.  `next_event_in_order` is about every
state of every run: together the calls return the events in the order they were published, each to
one call, and without gaps as long as they keep up; and what was dropped takes nothing with it.
`next_event_after_exit` is about the end.  The last event is `TransportClosed`, and a call made once
that has been taken waits for ever: the client it borrows keeps the channel open.
-/

set_option autoImplicit false

namespace CodexSdk

open Json Interleave Broadcast

/-! ## The system -/

/-- What an answer of the channel comes to: the call returns, or receives again. -/
def nextEventRound : Received → Option (Except ClientError ServerEvent)
  | .item event => some (.ok event)
  | .lagged _ => none
  | .closed => some (.error .transportClosed)

/-- Where a call of `next_event` is. -/
inductive NextEvent
  | locking
  | receiving
  | returned
  | dropped

structure Listening where
  connection : Connection
  /-- The position of `event_rx`. -/
  pos : Nat
  /-- The call that has locked `event_rx`. -/
  holder : Option Nat
  calls : Nat → Option NextEvent
  /-- What the channel has answered. -/
  log : List Received
  /-- What the calls have returned, in that order. -/
  returned : List (Nat × Except ClientError ServerEvent)

namespace Listening

def start (env : Env) : Listening := ⟨.start env, 0, none, fun _ => none, [], []⟩

def published (x : Listening) : List ServerEvent :=
  Connection.published x.connection.config.world.trace

/-- How far the calls are behind. -/
def backlog (x : Listening) : Nat := x.published.length - x.pos

/-- The call `n` is elsewhere now. -/
def goes (x : Listening) (n : Nat) (call : NextEvent) : Listening :=
  { x with calls := Function.update x.calls n (some call) }

/-- A step of a call.  The channel is open, because the client the call borrows can send. -/
inductive CallStep (x : Listening) : Listening → Prop
  | call {n : Nat} (hn : x.calls n = none) : CallStep x (x.goes n .locking)
  | lock {n : Nat} (hn : x.calls n = some .locking) (hfree : x.holder = none) :
      CallStep x { x.goes n .receiving with holder := some n }
  | again {n pos : Nat} {r : Received} (hn : x.calls n = some .receiving)
      (hr : recv eventCapacity x.published false x.pos = some (r, pos))
      (hround : nextEventRound r = none) :
      CallStep x { x with pos := pos, log := x.log ++ [r] }
  | done {n pos : Nat} {r : Received} {result : Except ClientError ServerEvent}
      (hn : x.calls n = some .receiving)
      (hr : recv eventCapacity x.published false x.pos = some (r, pos))
      (hround : nextEventRound r = some result) :
      CallStep x { x.goes n .returned with
        pos := pos
        log := x.log ++ [r]
        holder := none
        returned := x.returned ++ [(n, result)] }
  /-- Whoever had the lock gives it back. -/
  | drop {n : Nat} (hn : x.calls n = some .locking ∨ x.calls n = some .receiving) :
      CallStep x { x.goes n .dropped with
        holder := if x.holder = some n then none else x.holder }

inductive Step (env : Env) (wire : Wire) (x : Listening) : Listening → Prop
  | connection {label : Connection.Label} {c : Connection}
      (hs : x.connection.step env wire label = some c) : Step env wire x { x with connection := c }
  | call {x' : Listening} (hs : x.CallStep x') : Step env wire x x'

/-- The runs all of whose states satisfy `ok`. -/
inductive Run (env : Env) (wire : Wire) (ok : Listening → Prop) : Listening → Prop
  | init (h : ok (start env)) : Run env wire ok (start env)
  | step {x x' : Listening} (hr : Run env wire ok x) (hs : Step env wire x x') (h : ok x') :
      Run env wire ok x'

/-! ## What a step does -/

/-- An answer of an open channel: an event that was published, or the number of those missed. -/
theorem recv_open {published : List ServerEvent} {pos pos' : Nat} {r : Received}
    (h : recv eventCapacity published false pos = some (r, pos')) :
    (∃ event, r = .item event ∧ published[pos]? = some event ∧ pos' = pos + 1 ∧
      nextEventRound r = some (.ok event)) ∨
    (∃ missed, r = .lagged missed ∧ pos < pos' ∧ nextEventRound r = none) := by
  rcases recv_cases h with ⟨event, rfl, hevent, rfl⟩ | ⟨missed, rfl, -⟩ | ⟨rfl, hclosed, -⟩
  · exact .inl ⟨event, rfl, hevent, rfl, rfl⟩
  · exact .inr ⟨missed, rfl, (recv_advances h).resolve_right (by simp), rfl⟩
  · cases hclosed

/-- What was published stays published. -/
theorem published_mono {env : Env} {wire : Wire} {label : Connection.Label} {c c' : Connection}
    (h : c.step env wire label = some c') : Connection.published c.config.world.trace <+:
      Connection.published c'.config.world.trace := by
  obtain ⟨new, hnew, -⟩ := Connection.step_published h
  rw [hnew]
  exact List.prefix_append _ _

/-! ## The invariant -/

/-- What holds in every state of a run. -/
structure Accounted (env : Env) (wire : Wire) (x : Listening) : Prop where
  reachable : x.connection.Reachable env wire
  accounts : Accounts x.published x.log x.pos
  /-- What the channel has handed out has been returned. -/
  handed : x.returned.map Prod.snd = (items x.log).map .ok
  still_open : .closed ∉ x.log
  holds : ∀ n, x.calls n = some .receiving ↔ x.holder = some n
  once : (x.returned.map Prod.fst).Nodup
  back : ∀ n, n ∈ x.returned.map Prod.fst ↔ x.calls n = some .returned

section

variable {env : Env} {wire : Wire} {ok : Listening → Prop} {x x' : Listening}

theorem goes_self (n : Nat) (call : NextEvent) : (x.goes n call).calls n = some call :=
  Function.update_self n _ _

theorem goes_other {n m : Nat} (call : NextEvent) (h : m ≠ n) :
    (x.goes n call).calls m = x.calls m := Function.update_of_ne h _ _

/-- Nobody has returned who goes elsewhere now. -/
theorem Accounted.back_goes (h : Accounted env wire x) {n : Nat} {call : NextEvent}
    (hn : x.calls n ≠ some .returned) (hcall : call ≠ .returned) (m : Nat) :
    m ∈ x.returned.map Prod.fst ↔ (x.goes n call).calls m = some .returned := by
  rw [h.back m]
  by_cases hm : m = n
  · subst hm
    rw [goes_self, Option.some_inj]
    exact iff_of_false hn hcall
  · rw [goes_other call hm]

/-- **One step of a call** keeps the accounts. -/
theorem Accounted.call (h : Accounted env wire x) (hs : x.CallStep x') :
    Accounted env wire x' := by
  obtain ⟨hreach, hacc, hhanded, hopen, hholds, honce, hback⟩ := h
  have h : Accounted env wire x := ⟨hreach, hacc, hhanded, hopen, hholds, honce, hback⟩
  cases hs with
  | @call n hn =>
    refine ⟨hreach, hacc, hhanded, hopen, fun m => ?_, honce, h.back_goes (by simp [hn]) (by simp)⟩
    by_cases hm : m = n
    · subst hm
      rw [goes_self, ← show x.holder = (x.goes m .locking).holder from rfl, ← hholds m, hn]
      simp
    · rw [goes_other _ hm]
      exact hholds m
  | @lock n hn hfree =>
    refine ⟨hreach, hacc, hhanded, hopen, fun m => ?_, honce, h.back_goes (by simp [hn]) (by simp)⟩
    by_cases hm : m = n
    · subst hm
      exact iff_of_true (goes_self m _) rfl
    · have hlocked : x.calls m ≠ some .receiving := by
        rw [Ne, hholds m, hfree]
        simp
      exact iff_of_false (by rwa [← goes_other .receiving hm] at hlocked)
        fun heq => hm (Option.some.inj heq).symm
  | @again n pos r hn hr hround =>
    rcases recv_open hr with ⟨event, rfl, -, -, -⟩ | ⟨missed, rfl, -, -⟩
    · cases hround
    · refine ⟨hreach, hacc.recv hr, ?_, by simp [hopen], hholds, honce, hback⟩
      exact hhanded.trans (congrArg _ (items_append_lagged _ _).symm)
  | @done n pos r result hn hr hround =>
    rcases recv_open hr with ⟨event, rfl, -, -, -⟩ | ⟨missed, rfl, -, hnone⟩
    · cases hround
      have hnew : n ∉ x.returned.map Prod.fst := by simp [hback n, hn]
      refine ⟨hreach, hacc.recv hr, ?_, by simp [hopen], fun m => ?_, ?_, fun m => ?_⟩
      · rw [List.map_append, items_append_item, List.map_append, hhanded]
        rfl
      · -- the lock is free again
        refine iff_of_false ?_ (by simp)
        by_cases hm : m = n
        · subst hm
          show (x.goes m .returned).calls m ≠ _
          rw [goes_self]
          simp
        · show (x.goes n .returned).calls m ≠ _
          rw [goes_other _ hm, Ne, hholds m, (hholds n).1 hn, Option.some_inj]
          exact fun heq => hm heq.symm
      · rw [List.map_append, List.nodup_append]
        refine ⟨honce, by simp, ?_⟩
        rintro m hm m' hm' rfl
        obtain rfl := List.mem_singleton.1 hm'
        exact hnew hm
      · show m ∈ (x.returned ++ [(n, _)]).map Prod.fst ↔ (x.goes n .returned).calls m = _
        rw [List.map_append, List.mem_append, hback m, List.map_singleton, List.mem_singleton]
        by_cases hm : m = n
        · subst hm
          exact iff_of_true (.inr rfl) (goes_self m _)
        · rw [goes_other _ hm, or_iff_left hm]
    · rw [hnone] at hround
      cases hround
  | @drop n hn =>
    have hnot : x.calls n ≠ some .returned := by rcases hn with hn | hn <;> simp [hn]
    refine ⟨hreach, hacc, hhanded, hopen, fun m => ?_, honce, h.back_goes hnot (by simp)⟩
    show (x.goes n .dropped).calls m = _ ↔ (if x.holder = some n then none else x.holder) = some m
    by_cases hm : m = n
    · subst hm
      rw [goes_self]
      split <;> simp_all
    · rw [goes_other _ hm, hholds m]
      split
      · rename_i hheld
        simpa [hheld] using fun heq => hm heq.symm
      · exact Iff.rfl

theorem Accounted.connection (h : Accounted env wire x) {label : Connection.Label} {c : Connection}
    (hs : x.connection.step env wire label = some c) :
    Accounted env wire { x with connection := c } := by
  refine ⟨h.reachable.step label hs, ?_, h.handed, h.still_open, h.holds, h.once, h.back⟩
  obtain ⟨new, hnew, -⟩ := Connection.step_published hs
  show Accounts (Connection.published c.config.world.trace) x.log x.pos
  rw [hnew]
  exact h.accounts.publish_all new

theorem Accounted.step (h : Accounted env wire x) (hs : Listening.Step env wire x x') :
    Accounted env wire x' := by
  rcases hs with hs | hs
  · exact h.connection hs
  · exact h.call hs

theorem accounted_start (env : Env) (wire : Wire) : Accounted env wire (start env) where
  reachable := .start
  accounts := .nil
  handed := rfl
  still_open := by simp [start]
  holds := by simp [start]
  once := by simp [start]
  back := by simp [start]

theorem Run.accounted (hr : Run env wire ok x) : Accounted env wire x := by
  induction hr with
  | init => exact accounted_start env wire
  | step _ hs _ ih => exact ih.step hs

/-- Calls that keep up are not told that they have missed anything. -/
theorem Run.no_lag (hr : Run env wire ok x) (hok : ∀ y, ok y → y.backlog ≤ eventCapacity)
    (missed : Nat) : .lagged missed ∉ x.log := by
  suffices hall : x.backlog ≤ eventCapacity ∧ .lagged missed ∉ x.log from hall.2
  induction hr with
  | init h => exact ⟨hok _ h, by simp [start]⟩
  | @step x x' _ hs h ih =>
    obtain ⟨hbacklog, hlog⟩ := ih
    have hnew : ∀ {r pos}, recv eventCapacity x.published false x.pos = some (r, pos) →
        .lagged missed ∉ x.log ++ [r] := by
      intro r pos hr
      simpa [hlog] using (recv_ne_lagged hr hbacklog missed).symm
    refine ⟨hok _ h, ?_⟩
    rcases hs with hs | hs
    · exact hlog
    · cases hs with
      | call | lock | drop => exact hlog
      | again _ hr | done _ hr => exact hnew hr

/-- Whoever has the lock can go on, if there is an event left. -/
theorem receiving_advances {n : Nat} (hn : x.calls n = some .receiving)
    (hleft : x.pos < x.published.length) : ∃ x', x.CallStep x' ∧ x.pos < x'.pos := by
  cases hr : recv eventCapacity x.published false x.pos with
  | none =>
    obtain ⟨hle, -⟩ := recv_eq_none hr
    omega
  | some answer =>
    obtain ⟨r, pos⟩ := answer
    rcases recv_open hr with ⟨event, -, -, rfl, hround⟩ | ⟨missed, -, hlt, hround⟩
    · exact ⟨_, .done hn hr hround, Nat.lt_succ_self _⟩
    · exact ⟨_, .again hn hr hround, hlt⟩

/-- An event that is left waits for nobody who is gone. -/
theorem Accounted.advances (h : Accounted env wire x) (hleft : x.pos < x.published.length) {n : Nat}
    (hn : x.calls n = some .locking ∨ x.calls n = some .receiving) :
    ∃ x', Relation.ReflTransGen CallStep x x' ∧ x.pos < x'.pos := by
  cases hheld : x.holder with
  | some m =>
    obtain ⟨x', hs, hlt⟩ := receiving_advances ((h.holds m).2 hheld) hleft
    exact ⟨x', .single hs, hlt⟩
  | none =>
    have hlocking : x.calls n = some .locking := by
      refine hn.resolve_right fun hrecv => ?_
      rw [h.holds n, hheld] at hrecv
      cases hrecv
    have hlock := CallStep.lock hlocking hheld
    obtain ⟨x', hs, hlt⟩ := receiving_advances
      (x := { x.goes n .receiving with holder := some n }) (goes_self n .receiving) hleft
    exact ⟨x', .head hlock (.single hs), hlt⟩

/-- **The calls of `next_event` take the events in order.**  In every state of every run the events
they have returned, of all calls together, are some of those published, in that order; each call has
returned one, and none an error.  They are all of the events up to the position of the receiver, if
the calls have kept up.  One call at a time has the lock, and an event that is left can be taken by
those that wait, whichever calls were dropped. -/
theorem next_event_in_order (hr : Run env wire ok x) :
    (x.returned.map Prod.fst).Nodup ∧
    (∃ events, x.returned.map Prod.snd = events.map .ok ∧
      events.Sublist (x.published.take x.pos) ∧
      ((∀ y, ok y → y.backlog ≤ eventCapacity) → events = x.published.take x.pos)) ∧
    (∀ n m, x.calls n = some .receiving → x.calls m = some .receiving → n = m) ∧
    (x.pos < x.published.length →
      ∀ n, x.calls n = some .locking ∨ x.calls n = some .receiving →
        ∃ x', Relation.ReflTransGen CallStep x x' ∧ x.pos < x'.pos) := by
  have h := hr.accounted
  refine ⟨h.once, ⟨items x.log, h.handed, h.accounts.items_sublist, fun hok => ?_⟩,
    fun n m hn hm => ?_, fun hleft n hn => h.advances hleft hn⟩
  · have hlog := h.accounts.eq_of_no_lag (fun missed => hr.no_lag hok missed) h.still_open
    exact (congrArg items hlog).trans (items_map_item _)
  · exact Option.some.inj (((h.holds n).1 hn).symm.trans ((h.holds m).1 hm))

/-! ## The end -/

/-- Only the loop publishes. -/
theorem published_loopEvents {tr : List ClientEvent}
    (hcallers : ∀ n o a, .op (.caller n) o a ∈ tr → o.OfCalls) :
    Connection.published (loopEvents tr) = Connection.published tr := by
  induction tr with
  | nil => rfl
  | cons e tr ih =>
    have hrest := ih fun n o a hmem => hcallers n o a (List.mem_cons_of_mem _ hmem)
    rw [Connection.published_cons, ← hrest, loopEvents, List.filter_cons]
    by_cases hloop : e.tid = .inboundLoop
    · rw [if_pos (by simpa using hloop), Connection.published_cons]
      rfl
    · rw [if_neg (by simpa using hloop)]
      have hquiet : e.seen Connection.publishedEvent = [] := by
        rcases e with ⟨t, call⟩ | ⟨t, o, a⟩ | t
        · rfl
        · cases t with
          | inboundLoop => exact absurd rfl hloop
          | caller n =>
            have hcalls := hcallers n o a List.mem_cons_self
            cases o <;> first | rfl | exact hcalls.elim
        · rfl
      rw [hquiet, List.append_nil]
      rfl

/-- The end of the connection is the last event of a loop that has exited. -/
theorem last_published {c : Connection} (h : c.Reachable env wire) (hexit : c.exited = true) :
    ∃ before, Connection.published c.config.world.trace = before ++ [.transportClosed] := by
  obtain ⟨item, message, entries, -, served, -, hevents⟩ := h.sound.closedDown hexit
  rw [← published_loopEvents (history_orderly h.run).callers, hevents, Connection.published_cons]
  exact ⟨_, rfl⟩

/-- Nothing is published by a loop that has exited. -/
theorem published_of_exited {c c' : Connection} {label : Connection.Label}
    (h : c.Reachable env wire) (hs : c.step env wire label = some c') (hexit : c.exited = true) :
    Connection.published c'.config.world.trace = Connection.published c.config.world.trace := by
  have hcallers := (history_orderly (h.step label hs).run).callers
  have hcallers₀ := (history_orderly h.run).callers
  cases label with
  | pull frame => rw [(Connection.pull_cases hs).config]
  | write result => rw [(Connection.write_cases hs).config]
  | act label =>
    obtain ⟨e, hstep⟩ := Connection.act_step hs
    have hother : e.tid ≠ .inboundLoop := (hstep.step.tid_ne (Connection.exited_iff.1 hexit)).symm
    rw [← published_loopEvents hcallers, ← published_loopEvents hcallers₀, hstep.step.trace_eq,
      loopEvents, List.filter_cons, if_neg (by simpa using hother)]
    rfl

/-- What the steps from `x` to `x'` have added. -/
structure Onward (x x' : Listening) : Prop where
  pos_le : x.pos ≤ x'.pos
  published : x.published <+: x'.published
  returned : ∃ later, ∃ events : List ServerEvent, x'.returned = x.returned ++ later ∧
    later.map Prod.snd = events.map .ok ∧ events.Sublist ((x'.published.take x'.pos).drop x.pos)

theorem Onward.refl (x : Listening) : Onward x x where
  pos_le := Nat.le_refl _
  published := List.prefix_refl _
  returned := ⟨[], [], (List.append_nil _).symm, rfl, List.nil_sublist _⟩

/-- Where only the connection moved on. -/
theorem Onward.connection {x₀ : Listening} (h : Onward x₀ x) {c : Connection}
    (hle : x.pos ≤ x.published.length)
    (hmono : x.published <+: Connection.published c.config.world.trace) :
    Onward x₀ { x with connection := c } where
  pos_le := h.pos_le
  published := h.published.trans hmono
  returned := by
    obtain ⟨later, events, hlater, hevents, hsub⟩ := h.returned
    refine ⟨later, events, hlater, hevents, ?_⟩
    show events.Sublist (((Connection.published c.config.world.trace).take x.pos).drop x₀.pos)
    obtain ⟨new, hnew⟩ := hmono
    rwa [← hnew, List.take_append_of_le_length hle]

/-- **One step of a call** goes onward. -/
theorem Onward.call {x₀ : Listening} (h : Onward x₀ x) (hs : x.CallStep x') : Onward x₀ x' := by
  obtain ⟨hle, hpub, later, events, hlater, hevents, hsub⟩ := h
  have hskipped : ∀ pos, x.pos ≤ pos → events.Sublist ((x.published.take pos).drop x₀.pos) :=
    fun pos hpos => hsub.trans ((List.take_sublist_take_left hpos).drop x₀.pos)
  cases hs with
  | call | lock | drop => exact ⟨hle, hpub, later, events, hlater, hevents, hsub⟩
  | again _ hr hround =>
    rcases recv_open hr with ⟨event, rfl, -, -, -⟩ | ⟨missed, -, hlt, -⟩
    · cases hround
    · exact ⟨Nat.le_trans hle (Nat.le_of_lt hlt), hpub, later, events, hlater, hevents,
        hskipped _ (Nat.le_of_lt hlt)⟩
  | @done n pos r result _ hr hround =>
    rcases recv_open hr with ⟨event, rfl, hevent, rfl, -⟩ | ⟨missed, -, -, hnone⟩
    · cases hround
      refine ⟨Nat.le_succ_of_le hle, hpub, later ++ [(n, .ok event)], events ++ [event], ?_, ?_, ?_⟩
      · rw [hlater, List.append_assoc]
      · rw [List.map_append, List.map_append, hevents]
        rfl
      · show (events ++ [event]).Sublist ((x.published.take (x.pos + 1)).drop x₀.pos)
        have hlt : x.pos < x.published.length := (List.getElem?_eq_some_iff.1 hevent).1
        rw [List.take_add_one, hevent, List.drop_append_of_le_length (by simp; omega)]
        exact hsub.append (List.Sublist.refl _)
    · rw [hnone] at hround
      cases hround

/-- From a loop that has exited on, calls take what is left. -/
structure Remaining (env : Env) (wire : Wire) (x x' : Listening) : Prop where
  accounted : Accounted env wire x'
  exited : x'.connection.exited = true
  published : x'.published = x.published
  onward : Onward x x'

theorem Remaining.step {x₀ : Listening} (h : Remaining env wire x₀ x)
    (hs : Listening.Step env wire x x') : Remaining env wire x₀ x' := by
  have haccounted := h.accounted.step hs
  rcases hs with hs | hs
  · exact ⟨haccounted, Ownership.exited_step hs h.exited,
      (published_of_exited h.accounted.reachable hs h.exited).trans h.published,
      h.onward.connection h.accounted.accounts.pos_le (published_mono hs)⟩
  · have hsame : x'.connection = x.connection := by cases hs <;> rfl
    have hpublished : x'.published = x.published := by
      show Connection.published _ = Connection.published _
      rw [hsame]
    exact ⟨haccounted, hsame ▸ h.exited, hpublished.trans h.published, h.onward.call hs⟩

/-- **After the end there are no more events.**  Once the inbound loop has exited, the last event
published is `TransportClosed`, and stays the last; from then on the calls return events that were
left, in order, and when the receiver has had all of them no call returns again. -/
theorem next_event_after_exit (hr : Run env wire ok x) (hexit : x.connection.exited = true) :
    (∃ before, x.published = before ++ [.transportClosed]) ∧
    ∀ x', Relation.ReflTransGen (Listening.Step env wire) x x' → x'.published = x.published ∧
      (∃ later, ∃ events : List ServerEvent, x'.returned = x.returned ++ later ∧
        later.map Prod.snd = events.map .ok ∧ events.Sublist (x.published.drop x.pos)) ∧
      (x.pos = x.published.length → x'.returned = x.returned) := by
  have haccounted := hr.accounted
  refine ⟨last_published haccounted.reachable hexit, fun x' hs => ?_⟩
  have hrest : Remaining env wire x x' := by
    induction hs with
    | refl => exact ⟨haccounted, hexit, rfl, .refl x⟩
    | tail _ hs ih => exact ih.step hs
  obtain ⟨later, events, hlater, hevents, hsub⟩ := hrest.onward.returned
  rw [hrest.published] at hsub
  have hleft : events.Sublist (x.published.drop x.pos) :=
    hsub.trans ((List.take_sublist _ _).drop x.pos)
  refine ⟨hrest.published, ⟨later, events, hlater, hevents, hleft⟩, fun hall => ?_⟩
  rw [hall, List.drop_length] at hleft
  rw [List.sublist_nil.1 hleft, List.map_nil, List.map_eq_nil_iff] at hevents
  rw [hlater, hevents, List.append_nil]

end

/-! ## Two runs -/

/-- Nobody is behind by more than the channel keeps. -/
def KeepsUp (x : Listening) : Prop := x.backlog ≤ eventCapacity

theorem Run.holds {env : Env} {wire : Wire} {ok : Listening → Prop} {x : Listening}
    (hr : Run env wire ok x) : ok x := by
  rcases hr with h | ⟨-, -, h⟩
  · exact h
  · exact h

theorem runLabels_mono {env : Env} {wire : Wire} {labels : List Connection.Label}
    {c c' : Connection} (hc : c.runLabels env wire labels = some c') :
    Connection.published c.config.world.trace <+:
      Connection.published c'.config.world.trace := by
  induction labels generalizing c with
  | nil =>
    cases hc
    exact List.prefix_refl _
  | cons label labels ih =>
    obtain ⟨c₁, hs, hrest⟩ := Option.bind_eq_some_iff.1 hc
    exact (published_mono hs).trans (ih hrest)

/-- The connection goes on by itself. -/
theorem Run.runLabels {env : Env} {wire : Wire} {labels : List Connection.Label} {x : Listening}
    {c : Connection} (hr : Run env wire KeepsUp x)
    (hc : x.connection.runLabels env wire labels = some c)
    (hkeeps : (Connection.published c.config.world.trace).length ≤ eventCapacity) :
    Run env wire KeepsUp { x with connection := c } := by
  induction labels generalizing x with
  | nil =>
    cases hc
    exact hr
  | cons label labels ih =>
    obtain ⟨c₁, hs, hrest⟩ := Option.bind_eq_some_iff.1 hc
    have hlength := (runLabels_mono hrest).length_le
    exact ih (x := { x with connection := c₁ }) (hr.step (.connection hs)
      (Nat.le_trans (Nat.sub_le _ _) (Nat.le_trans hlength hkeeps))) hrest

/-- A call waits, and is dropped; the event it has not had is had by the next. -/
theorem second_call_run : ∃ x : Listening, Run defaultEnv finishing KeepsUp x ∧
    x.pos = 1 ∧ x.published = [.notification (.turnCompleted finishedTurn)] ∧
    x.calls 0 = some .dropped ∧ x.calls 1 = some .returned := by
  obtain ⟨c, hc, hp⟩ : ∃ c, (Connection.start defaultEnv).runLabels defaultEnv finishing
      ([.pull (.payload [])] ++ List.replicate 2 (.act (.run .inboundLoop .proceed))) = some c ∧
      Connection.published c.config.world.trace = [.notification (.turnCompleted finishedTurn)] :=
    ⟨_, rfl, rfl⟩
  have h₀ : Run defaultEnv finishing KeepsUp (start defaultEnv) := .init (Nat.zero_le _)
  have h₁ := h₀.step (.call (.call (n := 0) rfl)) (Nat.zero_le _)
  have h₂ := h₁.step (.call (.lock (n := 0) rfl rfl)) (Nat.zero_le _)
  have h₃ := h₂.step (.call (.call (n := 1) rfl)) (Nat.zero_le _)
  have h₄ := h₃.runLabels hc (by rw [hp]; decide)
  have h₅ := h₄.step (.call (.drop (n := 0) (.inr rfl))) h₄.holds
  have h₆ := h₅.step (.call (.lock (n := 1) rfl rfl)) h₅.holds
  have hrecv : recv eventCapacity (Connection.published c.config.world.trace) false 0 =
      some (.item (.notification (.turnCompleted finishedTurn)), 1) := by
    rw [hp]
    simp [recv, eventCapacity]
  have hkeeps : (Connection.published c.config.world.trace).length - 1 ≤ eventCapacity := by
    rw [hp]
    exact Nat.zero_le _
  have h₇ := h₆.step (.call (.done (n := 1) rfl hrecv rfl)) hkeeps
  exact ⟨_, h₇, rfl, hp, rfl, rfl⟩

/-- The event is returned, once. -/
theorem next_event_in_order_second : ∃ x : Listening, Run defaultEnv finishing KeepsUp x ∧
    x.calls 0 = some .dropped ∧ x.calls 1 = some .returned ∧
    x.returned.map Prod.snd = [.ok (.notification (.turnCompleted finishedTurn))] := by
  obtain ⟨x, hrun, hpos, hp, h₀, h₁⟩ := second_call_run
  obtain ⟨-, ⟨events, hevents, -, hall⟩, -⟩ := next_event_in_order hrun
  refine ⟨x, hrun, h₀, h₁, ?_⟩
  rw [hevents, hall fun _ h => h, hpos, hp]
  rfl

/-- The end has been taken, and another call waits. -/
theorem after_exit_run : ∃ x : Listening, Run defaultEnv Connection.unparsable KeepsUp x ∧
    x.connection.exited = true ∧ x.published = [.transportClosed] ∧ x.pos = 1 ∧
    x.returned = [(0, .ok .transportClosed)] ∧ x.calls 1 = some .receiving := by
  obtain ⟨c, hc, hexit, hp⟩ : ∃ c, (Connection.start defaultEnv).runLabels defaultEnv
      Connection.unparsable Connection.closesDown = some c ∧ c.exited = true ∧
      Connection.published c.config.world.trace = [.transportClosed] := ⟨_, rfl, rfl, rfl⟩
  have h₀ : Run defaultEnv Connection.unparsable KeepsUp (start defaultEnv) := .init (Nat.zero_le _)
  have h₁ := h₀.runLabels hc (by rw [hp]; decide)
  have h₂ := h₁.step (.call (.call (n := 0) rfl)) h₁.holds
  have h₃ := h₂.step (.call (.lock (n := 0) rfl rfl)) h₁.holds
  have hrecv : recv eventCapacity (Connection.published c.config.world.trace) false 0 =
      some (.item .transportClosed, 1) := by
    rw [hp]
    simp [recv, eventCapacity]
  have hkeeps : (Connection.published c.config.world.trace).length - 1 ≤ eventCapacity := by
    rw [hp]
    exact Nat.zero_le _
  have h₄ := h₃.step (.call (.done (n := 0) rfl hrecv rfl)) hkeeps
  have h₅ := h₄.step (.call (.call (n := 1) rfl)) hkeeps
  have h₆ := h₅.step (.call (.lock (n := 1) rfl rfl)) hkeeps
  exact ⟨_, h₆, hexit, hp, rfl, rfl, rfl⟩

/-- That call waits for ever. -/
theorem next_event_after_exit_waits : ∃ x : Listening,
    Run defaultEnv Connection.unparsable KeepsUp x ∧ x.calls 1 = some .receiving ∧
    ∀ x', Relation.ReflTransGen (Listening.Step defaultEnv Connection.unparsable) x x' →
      x'.returned = [(0, .ok .transportClosed)] := by
  obtain ⟨x, hrun, hexit, hp, hpos, hreturned, h₁⟩ := after_exit_run
  obtain ⟨-, hrest⟩ := next_event_after_exit hrun hexit
  refine ⟨x, hrun, h₁, fun x' hs => ?_⟩
  rw [(hrest x' hs).2.2 (by rw [hpos, hp]; rfl), hreturned]

end Listening

end CodexSdk

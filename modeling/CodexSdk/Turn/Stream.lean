import CodexSdk.Turn.Completion

/-!
# A streamed turn between its two buffers

`run_streamed` of `api.rs` puts the pump between the broadcast channel of the server events and a
bounded queue of its own, from which `next_event` takes.  A full queue blocks the pump; a blocked
pump falls behind on the broadcast channel, which drops what it cannot keep; and the pump goes on
after a `lagged` as if nothing had been missing.

A state of the system is a `StreamState`, and `Step` lets a sender publish, the pump take one
answer or hand over one item, and the consumer take one item, in any order.  `stream_exact` is what
holds in every state of every run: the consumer gets the events of exactly the notifications the
channel handed out, and of all of them as long as the pump is never more than the channel's
capacity behind.  `stream_loses` is a run in which it is.
-/

set_option autoImplicit false

namespace CodexSdk

open Json Rounds Broadcast

/-! ## The system -/

/-- The capacity of the broadcast channel of the server events. -/
def eventCapacity : Nat := 1024

/-- The capacity of the queue of a stream. -/
def streamCapacity : Nat := 256

/-- Where the pump is: waiting for an event, holding an item for which the queue had no room yet
(and what comes after it), or over. -/
inductive PumpState
  | waiting (latestUsage : Option Usage)
  | sending (item : StreamItem) (next : Option (Option Usage))
  | done

/-- The pump after a round. -/
def PumpState.afterRound (latestUsage : Option Usage) : Round (Option Usage) StreamItem → PumpState
  | .quiet usage => .waiting usage
  | .emit item => .sending item (some latestUsage)
  | .finish item => .sending item none

/-- The pump after it has handed over its item. -/
def PumpState.afterSend : Option (Option Usage) → PumpState
  | some usage => .waiting usage
  | none => .done

/-- The item the pump holds. -/
def PumpState.inHand : PumpState → List StreamItem
  | .sending item _ => [item]
  | _ => []

/-- The state of the loop: its usage, unless it has ended. -/
def PumpState.usage : PumpState → Option (Option Usage)
  | .waiting usage => some usage
  | .sending _ next => next
  | .done => none

structure StreamState where
  /-- Everything published since the turn subscribed. -/
  published : List ServerEvent
  /-- No sender is left. -/
  closed : Bool
  /-- The position of the pump in `published`. -/
  pos : Nat
  /-- What the channel has answered the pump. -/
  log : List Received
  pump : PumpState
  queue : List StreamItem
  /-- What `next_event` has returned. -/
  consumed : List StreamItem

/-- The events queued before the pump starts. -/
def preamble (threadStarted : Option String) : List StreamItem :=
  (threadStarted.map fun id => .ok (.threadStarted id)).toList ++ [.ok .turnStarted]

/-- The state `run_streamed` returns in. -/
def StreamState.start (threadStarted : Option String) : StreamState :=
  ⟨[], false, 0, [], .waiting none, preamble threadStarted, []⟩

/-- How far the pump is behind the senders. -/
def StreamState.backlog (s : StreamState) : Nat := s.published.length - s.pos

inductive StreamStep (threadId turnId : String) (s : StreamState) : StreamState → Prop
  | publish (e : ServerEvent) (h : s.closed = false) :
      StreamStep threadId turnId s { s with published := s.published ++ [e] }
  | close : StreamStep threadId turnId s { s with closed := true }
  | receive {usage : Option Usage} {r : Received} {pos : Nat} (hp : s.pump = .waiting usage)
      (hr : recv eventCapacity s.published s.closed s.pos = some (r, pos)) :
      StreamStep threadId turnId s { s with
        pos := pos
        log := s.log ++ [r]
        pump := .afterRound usage (pumpRound threadId turnId usage r) }
  | send {item : StreamItem} {next : Option (Option Usage)} (hp : s.pump = .sending item next)
      (hq : s.queue.length < streamCapacity) :
      StreamStep threadId turnId s { s with
        pump := .afterSend next
        queue := s.queue ++ [item] }
  | consume {item : StreamItem} {queue : List StreamItem} (hq : s.queue = item :: queue) :
      StreamStep threadId turnId s { s with
        queue := queue
        consumed := s.consumed ++ [item] }

/-- The runs all of whose states satisfy `ok`. -/
inductive StreamRun (threadId turnId : String) (threadStarted : Option String)
    (ok : StreamState → Prop) : StreamState → Prop
  | init (h : ok (.start threadStarted)) :
      StreamRun threadId turnId threadStarted ok (.start threadStarted)
  | step {s s' : StreamState} (hr : StreamRun threadId turnId threadStarted ok s)
      (hs : StreamStep threadId turnId s s') (h : ok s') :
      StreamRun threadId turnId threadStarted ok s'

/-- Nothing is left to do until something is published: the consumer has taken everything, and the
pump is over or has nothing to receive. -/
def StreamState.Settled (s : StreamState) : Prop :=
  s.queue = [] ∧ (s.pump = .done ∨ ∃ usage, s.pump = .waiting usage ∧
    recv eventCapacity s.published s.closed s.pos = none)

/-- Everything there was to receive. -/
def StreamState.feed (s : StreamState) : List Received :=
  s.published.map .item ++ if s.closed then [.closed] else []

/-! ## The invariant -/

section

variable (threadId turnId : String) (threadStarted : Option String)

/-- What holds in every state of a run. -/
structure StreamState.Accounted (s : StreamState) : Prop where
  /-- What has been sent, wherever it is by now, is what the pump makes of its answers. -/
  sent : s.consumed ++ (s.queue ++ s.pump.inHand)
    = preamble threadStarted ++ pumpTurnEvents threadId turnId s.log
  state : s.pump.usage = stateAfter (pumpRound threadId turnId) none s.log
  accounts : Accounts s.published s.log s.pos
  /-- A `closed` is the last answer, given at the end of a closed channel. -/
  last : .closed ∈ s.log → s.closed = true ∧ s.pos = s.published.length ∧
    ∃ handed, s.log = handed ++ [.closed] ∧ .closed ∉ handed

end

variable {threadId turnId : String} {threadStarted : Option String}

/-- A loop that is still going has not been told that the channel is closed. -/
theorem closed_not_mem {log : List Received} {usage usage' : Option Usage}
    (h : stateAfter (pumpRound threadId turnId) usage log = some usage') : .closed ∉ log := by
  intro hmem
  obtain ⟨pre, post, rfl⟩ := List.append_of_mem hmem
  rw [stateAfter_append] at h
  obtain ⟨s, -, hs⟩ := Option.bind_eq_some_iff.1 h
  cases hs

theorem inHand_afterRound (usage : Option Usage) (r : Received) :
    (PumpState.afterRound usage (pumpRound threadId turnId usage r)).inHand
      = emitted (pumpRound threadId turnId) usage [r] := by
  rw [emitted]
  cases pumpRound threadId turnId usage r <;> rfl

theorem usage_afterRound (usage : Option Usage) (r : Received) :
    (PumpState.afterRound usage (pumpRound threadId turnId usage r)).usage
      = stateAfter (pumpRound threadId turnId) usage [r] := by
  rw [stateAfter]
  cases pumpRound threadId turnId usage r <;> rfl

theorem inHand_afterSend (next : Option (Option Usage)) :
    (PumpState.afterSend next).inHand = [] := by cases next <;> rfl

theorem usage_afterSend (next : Option (Option Usage)) :
    (PumpState.afterSend next).usage = next := by cases next <;> rfl

/-- One step keeps the accounts. -/
theorem StreamStep.accounted {s s' : StreamState} (hs : StreamStep threadId turnId s s')
    (h : s.Accounted threadId turnId threadStarted) :
    s'.Accounted threadId turnId threadStarted := by
  obtain ⟨hsent, hstate, hacc, hlast⟩ := h
  cases hs with
  | publish e hopen =>
    refine ⟨hsent, hstate, hacc.publish e, fun hmem => ?_⟩
    exact absurd (hlast hmem).1 (by simp [hopen])
  | close => exact ⟨hsent, hstate, hacc, fun hmem => ⟨rfl, (hlast hmem).2⟩⟩
  | @receive usage r pos hp hr =>
    rw [hp] at hsent hstate
    have hstate' : stateAfter (pumpRound threadId turnId) none s.log = some usage := hstate.symm
    refine ⟨?_, ?_, hacc.recv hr, ?_⟩
    · rw [inHand_afterRound, pumpTurnEvents, emitted_append, hstate']
      have : s.consumed ++ s.queue =
          preamble threadStarted ++ pumpTurnEvents threadId turnId s.log := by
        simpa [PumpState.inHand] using hsent
      simp only [← List.append_assoc, this, emittedFrom, pumpTurnEvents]
    · rw [usage_afterRound, stateAfter_append, hstate']
      rfl
    · intro hmem
      have hnot := closed_not_mem hstate'
      obtain rfl : Answer.closed = r := by simpa [hnot] using hmem
      rcases recv_cases hr with ⟨a, hc, -⟩ | ⟨n, hc, -⟩ | ⟨-, hclosed, hle, rfl⟩
      · cases hc
      · cases hc
      · exact ⟨hclosed, Nat.le_antisymm hacc.pos_le hle, s.log, rfl, hnot⟩
  | @send item next hp hq =>
    rw [hp] at hsent hstate
    refine ⟨?_, ?_, hacc, hlast⟩
    · rw [inHand_afterSend, List.append_nil]
      exact hsent
    · rw [usage_afterSend]
      exact hstate
  | @consume item queue hq =>
    refine ⟨?_, hstate, hacc, hlast⟩
    rw [← hsent, hq]
    simp

theorem StreamRun.accounted {ok : StreamState → Prop} {s : StreamState}
    (hr : StreamRun threadId turnId threadStarted ok s) :
    s.Accounted threadId turnId threadStarted := by
  induction hr with
  | init _ => exact ⟨by simp [StreamState.start, PumpState.inHand, pumpTurnEvents, emitted], rfl,
      .nil, by simp [StreamState.start]⟩
  | step _ hs _ ih => exact hs.accounted ih

theorem StreamRun.ok {ok : StreamState → Prop} {s : StreamState}
    (hr : StreamRun threadId turnId threadStarted ok s) : ok s := by
  cases hr <;> assumption

/-- A pump that keeps up is never told that it lagged. -/
theorem StreamRun.no_lag {ok : StreamState → Prop} {s : StreamState}
    (hr : StreamRun threadId turnId threadStarted ok s)
    (hok : ∀ s, ok s → s.backlog ≤ eventCapacity) : ∀ n, .lagged n ∉ s.log := by
  induction hr with
  | init _ => simp [StreamState.start]
  | @step s s' hr hs _ ih =>
    cases hs with
    | receive hp hrecv =>
      intro n hmem
      rcases List.mem_append.1 hmem with hmem | hmem
      · exact ih n hmem
      · exact recv_ne_lagged hrecv (hok _ hr.ok) n (List.mem_singleton.1 hmem).symm
    | _ => exact ih

/-- Without a lag, a settled consumer has had everything. -/
theorem StreamState.Accounted.consumed_eq {s : StreamState}
    (h : s.Accounted threadId turnId threadStarted) (hlag : ∀ n, .lagged n ∉ s.log)
    (hset : s.Settled) :
    s.consumed = preamble threadStarted ++ pumpTurnEvents threadId turnId s.feed := by
  obtain ⟨hq, hpump⟩ := hset
  have hhand : s.pump.inHand = [] := by
    rcases hpump with hp | ⟨usage, hp, -⟩ <;> rw [hp] <;> rfl
  have hsent := h.sent
  rw [hq, hhand, List.append_nil, List.append_nil] at hsent
  rw [hsent]
  congr 1
  by_cases hclosed : .closed ∈ s.log
  · obtain ⟨hc, hpos, handed, hlog, hnot⟩ := h.last hclosed
    have hacc := h.accounts
    rw [hlog] at hacc
    have hhanded := hacc.of_append_closed.eq_of_no_lag
      (fun n hn => hlag n (hlog ▸ List.mem_append_left _ hn)) hnot
    rw [hpos, List.take_length] at hhanded
    rw [hlog, hhanded, feed, hc]
    rfl
  · have hlog := h.accounts.eq_of_no_lag hlag hclosed
    rcases hpump with hp | ⟨usage, -, hnone⟩
    · -- the loop is over, so what came later makes no difference
      have hstate := h.state
      rw [hp] at hstate
      obtain ⟨rest, hrest⟩ : ∃ rest, s.feed = s.log ++ rest := by
        refine ⟨(s.published.drop s.pos).map .item ++ if s.closed then [.closed] else [], ?_⟩
        rw [hlog, ← List.append_assoc, ← List.map_append, List.take_append_drop]
        rfl
      rw [hrest, pumpTurnEvents, pumpTurnEvents, emitted_append, ← hstate]
      exact (List.append_nil _).symm
    · obtain ⟨hle, hc⟩ := recv_eq_none hnone
      rw [List.take_of_length_le hle] at hlog
      rw [hlog, feed, hc]
      exact congrArg _ (List.append_nil _).symm

/-- **What a consumer of a streamed turn gets.**  In every state of every run, what was sent to it
is the preamble and what the pump makes of the channel's answers, in order; the answers hand out
what was published, in order, or report it as skipped; and in a run in which the pump is never
more than the channel's capacity behind, a consumer that has taken everything has had the events
of everything that was published, up to the terminal one. -/
theorem stream_exact {ok : StreamState → Prop} {s : StreamState}
    (hr : StreamRun threadId turnId threadStarted ok s) :
    s.consumed ++ (s.queue ++ s.pump.inHand)
        = preamble threadStarted ++ pumpTurnEvents threadId turnId s.log ∧
      Accounts s.published s.log s.pos ∧
      ((∀ s, ok s → s.backlog ≤ eventCapacity) → s.Settled →
        s.consumed = preamble threadStarted ++ pumpTurnEvents threadId turnId s.feed) := by
  have h := hr.accounted
  exact ⟨h.sent, h.accounts, fun hok hset => h.consumed_eq (hr.no_lag hok) hset⟩

/-- A turn that is over. -/
def finishedTurn : TurnNotification := ⟨⟨"turn_1", none, [], none, []⟩, []⟩

theorem finished_round :
    pumpRound "thread_a" "turn_1" none (.item (.notification (.turnCompleted finishedTurn))) =
      .finish (.ok (.turnCompleted none)) := by
  have hfin : finishes "thread_a" "turn_1" finishedTurn = true := by decide
  have hfailed : ¬ finishedTurn.turn.failed = true := by
    rw [Turn.failed_iff]
    rintro ⟨status, hstatus, -⟩
    cases hstatus
  rw [round_of_finishes hfin, turnCompletedEvent, if_neg hfailed]
  rfl

/-- An answer, and the end of its turn. -/
def answeredTurn : List ServerEvent :=
  [.notification (.itemAgentMessageDelta ⟨some "item_1", some "Hello", none, none, []⟩),
    .notification (.turnCompleted finishedTurn)]

/-- Both are published, and then handed over and taken one after the other. -/
theorem answered_run : ∃ log, StreamRun "thread_a" "turn_1" (some "thread_a")
    (fun s => s.backlog ≤ eventCapacity)
    ⟨answeredTurn, false, 2, log, .done, [], preamble (some "thread_a") ++
      [.ok (.itemUpdated (.agentMessage ⟨"item_1", "Hello", none⟩)), .ok (.turnCompleted none)]⟩ := by
  have hfirst : recv eventCapacity answeredTurn false 0 = some (.item answeredTurn[0], 1) := by
    simp [recv, eventCapacity, answeredTurn]
  have hsecond : recv eventCapacity answeredTurn false 1 = some (.item answeredTurn[1], 2) := by
    simp [recv, eventCapacity, answeredTurn]
  have h₀ : StreamRun "thread_a" "turn_1" (some "thread_a") (fun s => s.backlog ≤ eventCapacity)
      (.start (some "thread_a")) := .init (Nat.zero_le _)
  have h₁ := h₀.step (.publish answeredTurn[0] rfl) (by decide : 1 ≤ eventCapacity)
  have h₂ := h₁.step (.publish answeredTurn[1] rfl) (by decide : 2 ≤ eventCapacity)
  have h₃ := h₂.step (.receive rfl hfirst) (by decide : 1 ≤ eventCapacity)
  have h₄ := h₃.step (.send rfl (by decide : 2 < streamCapacity)) (by decide : 1 ≤ eventCapacity)
  have h₅ := h₄.step (.receive rfl hsecond) (Nat.zero_le _)
  have hround : PumpState.afterRound none (pumpRound "thread_a" "turn_1" none
      (.item answeredTurn[1])) = .sending (.ok (.turnCompleted none)) none :=
    congrArg (PumpState.afterRound none) finished_round
  rw [hround] at h₅
  have h₆ := h₅.step (.send rfl (by decide : 3 < streamCapacity)) (Nat.zero_le _)
  have h₇ := h₆.step (.consume rfl) (Nat.zero_le _)
  have h₈ := h₇.step (.consume rfl) (Nat.zero_le _)
  have h₉ := h₈.step (.consume rfl) (Nat.zero_le _)
  exact ⟨_, h₉.step (.consume rfl) (Nat.zero_le _)⟩

theorem stream_exact_answered : ∃ s : StreamState,
    StreamRun "thread_a" "turn_1" (some "thread_a") (fun s => s.backlog ≤ eventCapacity) s ∧
      s.Settled ∧ s.published = answeredTurn ∧
      s.consumed = [.ok (.threadStarted "thread_a"), .ok .turnStarted,
        .ok (.itemUpdated (.agentMessage ⟨"item_1", "Hello", none⟩)), .ok (.turnCompleted none)] ∧
      s.consumed = preamble (some "thread_a") ++
        pumpTurnEvents "thread_a" "turn_1" (answeredTurn.map .item) := by
  obtain ⟨log, hrun⟩ := answered_run
  have hset : StreamState.Settled ⟨answeredTurn, false, 2, log, .done, [], preamble
      (some "thread_a") ++ [.ok (.itemUpdated (.agentMessage ⟨"item_1", "Hello", none⟩)),
        .ok (.turnCompleted none)]⟩ := ⟨rfl, .inl rfl⟩
  exact ⟨_, hrun, hset, rfl, rfl, (stream_exact hrun).2.2 (fun _ h => h) hset⟩

/-! ## A run that loses the end of its turn -/

theorem StreamRun.publishAll {s : StreamState}
    (hr : StreamRun threadId turnId threadStarted (fun _ => True) s) (hopen : s.closed = false)
    (es : List ServerEvent) : StreamRun threadId turnId threadStarted (fun _ => True)
      { s with published := s.published ++ es } := by
  induction es generalizing s with
  | nil => simpa using hr
  | cons e es ih =>
    have hstep := hr.step (.publish e hopen) trivial
    simpa using ih hstep hopen

/-- A pump with nothing but invisible events ahead of it, none of which is lost, skips them all. -/
theorem StreamRun.skip {s : StreamState} {usage : Option Usage}
    (hr : StreamRun threadId turnId threadStarted (fun _ => True) s)
    (hp : s.pump = .waiting usage) (n : Nat) (hn : s.pos + n = s.published.length)
    (hb : n ≤ eventCapacity)
    (hinv : ∀ e ∈ s.published.drop s.pos, Invisible (pumpRound threadId turnId) (.item e)) :
    ∃ log, StreamRun threadId turnId threadStarted (fun _ => True)
      { s with pos := s.published.length, log := log } := by
  induction n generalizing s with
  | zero => exact ⟨s.log, by rw [← hn]; exact hr⟩
  | succ n ih =>
    have hlt : s.pos < s.published.length := by omega
    have hrecv : recv eventCapacity s.published s.closed s.pos
        = some (.item s.published[s.pos], s.pos + 1) := by
      have hold : ¬ s.pos < s.published.length - eventCapacity := by omega
      simp [recv, hold, hlt]
    have hstep := hr.step (.receive hp hrecv) trivial
    rw [List.drop_eq_getElem_cons hlt, List.forall_mem_cons] at hinv
    have hpump : PumpState.afterRound usage (pumpRound threadId turnId usage
        (.item s.published[s.pos])) = s.pump := by rw [hinv.1 usage, hp]; rfl
    rw [hpump] at hstep
    have hrest := ih hstep hp (by simp only; omega) (by omega) hinv.2
    exact hrest

/-- The consumer takes what is queued. -/
theorem StreamRun.consumeAll {s : StreamState} (queue : List StreamItem)
    (hr : StreamRun threadId turnId threadStarted (fun _ => True) s) (hq : s.queue = queue) :
    StreamRun threadId turnId threadStarted (fun _ => True)
      { s with queue := [], consumed := s.consumed ++ queue } := by
  induction queue generalizing s with
  | nil => rw [List.append_nil, ← hq]; exact hr
  | cons item queue ih =>
    have hstep := ih (hr.step (.consume hq) trivial) rfl
    rw [List.append_assoc] at hstep
    exact hstep

/-- A notification no turn has anything to do with. -/
def noise : ServerEvent := .notification (.unknown "noise" .null)

/-- The turn finishes, and then 1024 other notifications arrive. -/
def burst : List ServerEvent :=
  .notification (.turnCompleted ⟨⟨"turn_1", none, [], none, []⟩, []⟩)
    :: List.replicate eventCapacity noise

/-- The pump was not scheduled during the burst. -/
theorem burst_run : ∃ log, StreamRun "thread_a" "turn_1" none (fun _ => True)
    ⟨burst, false, burst.length, log, .waiting none, [], preamble none⟩ := by
  have hlen : burst.length = eventCapacity + 1 := by simp [burst]
  have hpub : StreamRun "thread_a" "turn_1" none (fun _ => True)
      ⟨burst, false, 0, [], .waiting none, preamble none, []⟩ :=
    (StreamRun.init trivial).publishAll rfl burst
  have hlag : recv eventCapacity burst false 0 = some (.lagged 1, 1) := by
    have : burst.length - eventCapacity = 1 := by omega
    rw [recv, this]
    rfl
  have hskip := StreamRun.skip (hpub.step (.receive rfl hlag) trivial) rfl eventCapacity
    (by simp only [hlen]; omega) (Nat.le_refl _) (by
      intro e he
      have hmem : e ∈ List.replicate eventCapacity noise := he
      obtain rfl := List.eq_of_mem_replicate hmem
      exact fun usage => rfl)
  obtain ⟨log, hlog⟩ := hskip
  exact ⟨log, hlog.consumeAll (preamble none) rfl⟩

/-- **Losing the end of a turn.**  With the finished turn overwritten, the stream stays open: its
consumer has taken everything and has seen neither the end of the turn nor an error. -/
theorem stream_loses :
    ¬ ∀ (threadId turnId : String) (threadStarted : Option String) (s : StreamState),
      StreamRun threadId turnId threadStarted (fun _ => True) s → s.Settled →
        s.consumed = preamble threadStarted ++ pumpTurnEvents threadId turnId s.feed ∨
          ∃ e, .error e ∈ s.consumed := by
  intro h
  obtain ⟨log, hrun⟩ := burst_run
  have hset : StreamState.Settled
      ⟨burst, false, burst.length, log, .waiting none, [], preamble none⟩ := by
    refine ⟨rfl, .inr ⟨none, rfl, ?_⟩⟩
    simp [recv]
  rcases h _ _ _ _ hrun hset with heq | ⟨e, he⟩
  · have hfin : finishes "thread_a" "turn_1" ⟨⟨"turn_1", none, [], none, []⟩, []⟩ = true := by
      decide
    have hne : pumpTurnEvents "thread_a" "turn_1" (burst.map .item) ≠ [] := by
      simp [burst, pumpTurnEvents, emitted, round_of_finishes hfin]
    simp [StreamState.feed, hne] at heq
  · simp [preamble] at he

end CodexSdk

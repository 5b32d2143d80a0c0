import CodexSdk.Thread.Binding

/-!
# The announcement of a new thread

`ThreadStarted` is queued by the `run_streamed` that started the thread, and by no other: which one
that is decides what the streams of a handle announce.  An operation without a stream drops the
announcement, so that a thread it started is not announced at all.
-/

set_option autoImplicit false

namespace CodexSdk

open Json Rounds Interleave

/-! ## What a stream announces -/

/-- A `ThreadStarted`. -/
def Announcement : StreamItem → Prop
  | .ok (.threadStarted _) => True
  | _ => False

theorem sendWhen_all {P : StreamItem → Prop} {guard : Bool} {event : Option ThreadEvent}
    {usage : Option Usage} (h : ∀ e, event = some e → P (.ok e)) :
    (sendWhen guard event usage).All P := by
  cases guard with
  | false => exact trivial
  | true => cases event with
    | none => exact trivial
    | some e => exact h e rfl

/-- A delta is shown as an update. -/
theorem deltaItemUpdated_spec {delta : DeltaNotification} {buildItem : String → String → ThreadItem}
    {e : ThreadEvent} (h : deltaItemUpdated delta buildItem = some e) :
    ∃ item, e = .itemUpdated item := by
  rw [deltaItemUpdated] at h
  split at h
  · cases h
  · exact ⟨_, (Option.some.inj h).symm⟩

/-- The pump announces no thread. -/
theorem pumpRound_all (threadId turnId : String) (usage : Option Usage) (r : Received) :
    (pumpRound threadId turnId usage r).All fun item => ¬ Announcement item := by
  have hdelta : ∀ {delta : DeltaNotification} {buildItem : String → String → ThreadItem}
      {guard : Bool},
      (sendWhen guard (deltaItemUpdated delta buildItem) usage).All
        fun item => ¬ Announcement item := by
    intro delta buildItem guard
    refine sendWhen_all fun e he => ?_
    obtain ⟨item, rfl⟩ := deltaItemUpdated_spec he
    exact id
  have hsend : ∀ {guard : Bool} {e : ThreadEvent}, ¬ Announcement (.ok e) →
      (sendWhen guard (some e) usage).All fun item => ¬ Announcement item := by
    intro guard e he
    refine sendWhen_all fun e' he' => ?_
    rwa [← Option.some.inj he']
  cases r with
  | closed => exact id
  | lagged n => trivial
  | item event => cases event with
    | transportClosed => exact id
    | serverRequest request => trivial
    | notification notification =>
      rw [pumpRound]
      cases notification with
      | itemStarted | itemCompleted | error => exact hsend id
      | itemAgentMessageDelta | itemPlanDelta | itemReasoningSummaryTextDelta
      | itemReasoningTextDelta => exact hdelta
      | turnCompleted payload =>
        rw [pumpNotification]
        split
        · rw [turnCompletedEvent]
          split
          · exact id
          · exact id
        · trivial
      | threadTokenUsageUpdated payload =>
        rw [pumpNotification]
        split
        · split <;> trivial
        · trivial
      | _ => trivial

/-- The events queued at the start come first. -/
theorem StreamRun.preamble_first {threadId turnId : String} {threadStarted : Option String}
    {ok : StreamState → Prop} {s : StreamState}
    (hr : StreamRun threadId turnId threadStarted ok s) :
    ∃ rest, s.consumed ++ s.queue = preamble threadStarted ++ rest := by
  induction hr with
  | init h => exact ⟨[], (List.append_nil _).symm⟩
  | step hr hs h ih =>
    obtain ⟨rest, hrest⟩ := ih
    cases hs with
    | @send item next hp hq =>
      refine ⟨rest ++ [item], ?_⟩
      rw [← List.append_assoc, hrest, List.append_assoc]
    | consume hq =>
      rw [hq] at hrest
      exact ⟨rest, by simpa using hrest⟩
    | _ => exact ⟨rest, hrest⟩

/-- In every run of the stream, the consumer gets the preamble first and no announcement after
it. -/
theorem StreamRun.announced {threadId turnId : String} {threadStarted : Option String}
    {ok : StreamState → Prop} {s : StreamState}
    (hr : StreamRun threadId turnId threadStarted ok s) :
    ∃ rest, s.consumed ++ s.queue = preamble threadStarted ++ rest ∧
      ∀ item ∈ rest, ¬ Announcement item := by
  obtain ⟨rest, hrest⟩ := hr.preamble_first
  have hsent := hr.accounted.sent
  rw [← List.append_assoc, hrest, List.append_assoc] at hsent
  have hpump := List.append_cancel_left hsent
  refine ⟨rest, hrest, fun item hmem => ?_⟩
  refine emitted_all (pumpRound_all threadId turnId) none s.log item ?_
  rw [pumpTurnEvents] at hpump
  rw [← hpump]
  exact List.mem_append_left _ hmem

/-- Whenever one looks, what the consumer has got and what is ready for it starts with the
announcement of `threadId`, and there is no other one in it. -/
def StreamedTurn.AnnouncesFirst (stream : StreamedTurn) (threadId : String) : Prop :=
  ∀ ok s, StreamRun stream.threadId stream.turnId stream.threadStarted ok s →
    ∃ rest, s.consumed ++ s.queue = .ok (.threadStarted threadId) :: rest ∧
      ∀ item ∈ rest, ¬ Announcement item

/-- No consumer gets an announcement. -/
def StreamedTurn.Silent (stream : StreamedTurn) : Prop :=
  ∀ ok s, StreamRun stream.threadId stream.turnId stream.threadStarted ok s →
    ∀ item ∈ s.consumed ++ s.queue, ¬ Announcement item

theorem StreamedTurn.announcesFirst {stream : StreamedTurn} {threadId : String}
    (h : stream.threadStarted = some threadId) : stream.AnnouncesFirst threadId := by
  intro ok s hr
  obtain ⟨rest, hrest, hnone⟩ := hr.announced
  rw [h] at hrest
  refine ⟨.ok .turnStarted :: rest, hrest, ?_⟩
  exact List.forall_mem_cons.2 ⟨id, hnone⟩

theorem StreamedTurn.silent {stream : StreamedTurn} (h : stream.threadStarted = none) :
    stream.Silent := by
  intro ok s hr
  obtain ⟨rest, hrest, hnone⟩ := hr.announced
  rw [hrest, h]
  exact List.forall_mem_cons.2 ⟨id, hnone⟩

/-! ## Which stream announces -/

/-- The id of the thread an operation started. -/
def Performed.started (p : Performed) : Option String := p.exchanges.findSome? RpcExchange.started

theorem RpcExchange.bound_of_started {e : RpcExchange} {threadId : String}
    (h : e.started = some threadId) : e.bound = some threadId := by
  obtain ⟨o, answer⟩ := e
  cases o with
  | threadStart params => cases answer with
    | ok result => exact h
    | error err => cases h
  | _ => cases h

theorem RpcExchange.started_of_bound_none {e : RpcExchange} (h : e.bound = none) :
    e.started = none := by
  cases hstarted : e.started with
  | none => rfl
  | some threadId =>
    rw [bound_of_started hstarted] at h
    cases h

variable {self self' : Thread} {p : Performed}

/-- A bound handle stays bound, and nothing is bound again. -/
theorem Effect.keeps {operation : Operation} {exchanges : List RpcExchange}
    {result : Except ClientError Returned} {threadId : String}
    (h : Effect operation self exchanges result self') (hself : self.IsBound threadId) :
    self'.IsBound threadId ∧ ∀ e ∈ exchanges, e.bound = none := by
  cases h with
  | ended h =>
    obtain ⟨rfl, hready, -⟩ := h.of_isBound hself
    exact ⟨hself, fun e he => ((ready_spec operation hready).1 e he).1⟩
  | goesOn h hown =>
    obtain ⟨rfl, hready, -⟩ := h.of_isBound hself
    obtain ⟨haddressed, hself'⟩ := hown.spec
    rw [hself']
    refine ⟨hself, List.forall_mem_append.2 ⟨fun e he => ?_, fun e he => (haddressed e he).1⟩⟩
    exact ((ready_spec operation hready).1 e he).1

/-- A stream is returned for a handle that is bound by then, and announces what its own operation
started. -/
theorem Effect.stream {stream : StreamedTurn}
    (h : Effect p.operation self p.exchanges p.result self') (hstream : p.stream = some stream) :
    stream.threadStarted = p.started ∧ ∃ threadId, self'.IsBound threadId := by
  obtain ⟨operation, exchanges, result⟩ := p
  have hnone : ∀ reply, result = .ok reply → reply.stream = some stream := by
    intro reply hreply
    rw [← hstream, Performed.stream, hreply]
  cases h with
  | ended h => cases hstream
  | @goesOn first rest threadId emit self₁ _ _ h hown =>
    cases hown with
    | refused err => cases hstream
    | turnFailed params err hstreams haddress => cases hstream
    | request method fields answer hstreams hresult hsteer =>
      cases result with
      | error err => cases hstream
      | ok reply =>
        have hreply := hresult reply rfl
        rw [hnone reply rfl] at hreply
        cases hreply
    | @turn params answer reply hstreams haddress hown =>
      have hreply := hnone reply rfl
      rw [hown] at hreply
      obtain rfl := Option.some.inj hreply
      have hlast : (first ++ [(⟨.turnStart params, .ok answer⟩ : RpcExchange)]).findSome?
          RpcExchange.started = first.findSome? RpcExchange.started := by
        rw [List.findSome?_append, List.findSome?_singleton]
        exact Option.or_none
      refine (And.imp_left fun heq : emit = first.findSome? RpcExchange.started =>
        heq.trans hlast.symm) ?_
      cases h with
      | already hself => exact ⟨rfl, threadId, hself⟩
      | @binds before last _ hself hquiet hbound =>
        have hbefore : before.findSome? RpcExchange.started = none :=
          List.findSome?_eq_none_iff.2 fun e he => RpcExchange.started_of_bound_none (hquiet e he).1
        rw [List.findSome?_append, hbefore, Option.none_or, List.findSome?_singleton]
        exact ⟨rfl, threadId, rfl, rfl⟩

/-! ## Histories -/

theorem ThreadRun.split {origin : Thread} {pre post : List Performed}
    (h : ThreadRun origin (pre ++ p :: post) self) :
    ∃ self₁ self₂, ThreadRun origin pre self₁ ∧
      Effect p.operation self₁ p.exchanges p.result self₂ := by
  generalize hhistory : pre ++ p :: post = history at h
  induction h generalizing post with
  | init => simp at hhistory
  | @step history self self' operation exchanges result h hop ih =>
    rcases List.eq_nil_or_concat post with rfl | ⟨post', last, rfl⟩
    · obtain ⟨rfl, hlast⟩ := List.append_inj' hhistory rfl
      obtain rfl := (List.cons.inj hlast).1
      exact ⟨self, self', h, does_body hop⟩
    · rw [List.concat_eq_append, ← List.cons_append, ← List.append_assoc] at hhistory
      exact ih (List.append_inj' hhistory rfl).1

/-- The handle is bound from the first stream on. -/
theorem ThreadRun.isBound_of_stream {origin : Thread} {history : List Performed}
    (h : ThreadRun origin history self) (hp : p ∈ history) (hstream : p.stream ≠ none) :
    ∃ threadId, self.IsBound threadId := by
  induction h with
  | init => cases hp
  | step h hop ih =>
    rcases List.mem_append.1 hp with hp | hp
    · obtain ⟨threadId, hself⟩ := ih hp
      exact ⟨threadId, ((does_body hop).keeps hself).1⟩
    · obtain rfl := List.mem_singleton.1 hp
      obtain ⟨stream, hsome⟩ := Option.ne_none_iff_exists'.1 hstream
      exact ((does_body hop).stream hsome).2

/-- The handle is bound to the thread it started. -/
theorem ThreadRun.isBound_of_started {origin : Thread} {history : List Performed}
    {threadId : String} (horigin : origin.Fresh) (h : ThreadRun origin history self)
    (hp : p ∈ history) (hstarted : p.started = some threadId) : self.IsBound threadId := by
  obtain ⟨e, he, hid⟩ := List.exists_of_findSome?_eq_some hstarted
  have hmem : (p.operation, e) ∈ historyLog history :=
    List.mem_flatMap.2 ⟨p, hp, List.mem_map.2 ⟨e, he, rfl⟩⟩
  obtain ⟨before, after, hlog⟩ := List.append_of_mem hmem
  have hbinding := h.binding horigin
  rw [hlog] at hbinding
  exact (hbinding.of_split (RpcExchange.bound_of_started hid)).2.1

/-- A stream of a handle that was bound before is silent. -/
theorem Effect.silent {stream : StreamedTurn} {threadId : String}
    (h : Effect p.operation self p.exchanges p.result self') (hself : self.IsBound threadId)
    (hstream : p.stream = some stream) : p.started = none ∧ stream.Silent := by
  have hstarted : p.started = none := List.findSome?_eq_none_iff.2 fun e he =>
    RpcExchange.started_of_bound_none ((h.keeps hself).2 e he)
  exact ⟨hstarted, StreamedTurn.silent ((h.stream hstream).1.trans hstarted)⟩

/-- **Which stream announces the thread.**  The stream of the operation that started the thread is
the first one of the handle and announces the thread first; when an operation without a stream
started it, no stream announces it; and no stream after another one announces anything. -/
theorem thread_announced {options : ThreadOptions} {self : Thread} {pre post : List Performed}
    {p : Performed} {stream : StreamedTurn}
    (h : ThreadRun (startThread options) (pre ++ p :: post) self)
    (hstream : p.stream = some stream) :
    (∀ threadId, p.started = some threadId →
      (∀ q ∈ pre, q.stream = none) ∧ self.IsBound threadId ∧ stream.AnnouncesFirst threadId) ∧
    (∀ q ∈ pre, ¬ q.operation.Streams → q.started ≠ none → stream.Silent) ∧
    ∀ q ∈ pre, q.stream ≠ none → stream.Silent := by
  obtain ⟨self₁, self₂, hpre, heffect⟩ := h.split
  refine ⟨fun threadId hstarted => ⟨fun q hq => ?_, ?_, ?_⟩, fun q hq _ hstarted => ?_,
    fun q hq hsome => ?_⟩
  · by_contra hsome
    obtain ⟨threadId', hself⟩ := hpre.isBound_of_stream hq hsome
    rw [(heffect.silent hself hstream).1] at hstarted
    cases hstarted
  · exact h.isBound_of_started (.start options) (List.mem_append_right _ (List.mem_cons_self ..))
      hstarted
  · exact StreamedTurn.announcesFirst ((heffect.stream hstream).1.trans hstarted)
  · obtain ⟨threadId, hid⟩ := Option.ne_none_iff_exists'.1 hstarted
    exact (heffect.silent (hpre.isBound_of_started (.start options) hq hid) hstream).2
  · obtain ⟨threadId, hself⟩ := hpre.isBound_of_stream hq hsome
    exact (heffect.silent hself hstream).2

/-! ## A thread that is not announced -/

/-- A new handle is given a name, which starts the thread. -/
def namesFirst : Performed where
  operation := .setName "draft"
  exchanges := [⟨.ensureInitialized, .ok ()⟩,
    ⟨.threadStart (buildThreadStartParams {}).toJson, .ok startedThread⟩,
    ⟨.operation "thread/name/set" (threadIdParams "thread_a" [("name", some (.string "draft"))]),
      .ok .null⟩]
  result := .ok (.value .null)

/-- Its first turn. -/
def runsNext : Performed where
  operation := .runStreamed (.text "go on") {}
  exchanges := [⟨.ensureInitialized, .ok ()⟩,
    ⟨.turnStart (buildTurnStartParams "thread_a" (.text "go on") {} {}).toJson, .ok startedTurn⟩]
  result := .ok (.streamed ⟨"thread_a", "turn_1", none⟩)

theorem namesFirst_run : ThreadRun (startThread {}) ([namesFirst] ++ runsNext :: [])
    { startThread {} with id := some "thread_a", lastTurnId := some "turn_1" } := by
  have hname : ThreadRun (startThread {}) [namesFirst]
      { startThread {} with id := some "thread_a" } := by
    refine .step .init (Yields.answered (by rfl) _ ?_)
    refine Yields.answered (by rfl) _ ?_
    refine Yields.answered (by rfl) _ ?_
    exact .ret _
  refine .step hname (Yields.answered (by rfl) _ ?_)
  refine Yields.answered (by rfl) _ ?_
  exact .ret _

theorem thread_announced_namesFirst : StreamedTurn.Silent ⟨"thread_a", "turn_1", none⟩ :=
  (thread_announced namesFirst_run rfl).2.1 namesFirst (List.mem_singleton_self _) id
    (Option.some_ne_none "thread_a")

/-- The first stream of a handle need not announce its thread. -/
theorem thread_unannounced :
    ¬ ∀ (options : ThreadOptions) (self : Thread) (pre post : List Performed) (p : Performed)
      (stream : StreamedTurn), ThreadRun (startThread options) (pre ++ p :: post) self →
        p.stream = some stream → (∀ q ∈ pre, q.stream = none) →
          ∃ threadId, self.IsBound threadId ∧ stream.AnnouncesFirst threadId := by
  intro h
  obtain ⟨threadId, -, hfirst⟩ := h {} _ [namesFirst] [] runsNext ⟨"thread_a", "turn_1", none⟩
    namesFirst_run rfl (by simp [namesFirst, Performed.stream, Returned.stream])
  obtain ⟨rest, hrest, -⟩ := hfirst (fun _ => True) _ (.init trivial)
  cases hrest

end CodexSdk

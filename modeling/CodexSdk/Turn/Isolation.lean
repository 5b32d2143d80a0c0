import CodexSdk.Turn.Shape

/-!
# Turns do not see each other's notifications, except where they do

Several turns of several threads share one connection, and every pump reads all the notifications.
A notification names the thread and the turn it is about in its params, either beside its fields or
inside the `turn` it carries; `Foreign` says that one of these markers names another one.

A foreign notification should leave the stream as it is.  The arms of the pump, however, each
consult only one of the two places: the finished turn's arm the nested turn, and every other arm
the top level.  `Overlooked` is a notification whose foreign marker stands in the place its arm
does not look at, and `isolation_iff` says that these are exactly the ones that show: leaving out
foreign notifications never changes any stream if and only if none of them is overlooked.
-/

set_option autoImplicit false

namespace CodexSdk

open Json Rounds

/-! ## Raw notifications and their markers -/

/-- A notification as it comes off the wire. -/
structure RawNotification where
  method : String
  params : Value

/-- What the pump receives for it. -/
def RawNotification.received (n : RawNotification) : Received :=
  .item (.notification (notificationEvent n.method n.params))

/-- A string member `key` of `holder` that is not the target. -/
def namesOther (holder : Value) (key target : String) : Prop :=
  ∃ s, holder.get key = some (.string s) ∧ s ≠ target

section

variable (threadId turnId : String)

/-- `holder` names another thread, or another turn. -/
def ForeignAt (holder : Value) : Prop :=
  namesOther holder "threadId" threadId ∨ namesOther holder "turnId" turnId

/-- The params name another thread or turn, at the top level or inside `turn`. -/
def Foreign (n : RawNotification) : Prop :=
  ForeignAt threadId turnId n.params ∨
    ∃ turn, n.params.get "turn" = some turn ∧ ForeignAt threadId turnId turn

/-- A usage update the pump adopts. -/
def updatesUsage (payload : ThreadTokenUsageUpdatedNotification) : Bool :=
  payload.threadId.all (· == threadId)
    && matchesTargetFromExtra payload.extra threadId (some turnId)

/-- The pump acts on the notification. -/
inductive Acts : ServerNotification → Prop
  | finished {payload : TurnNotification} (h : finishes threadId turnId payload = true) :
      Acts (.turnCompleted payload)
  | usage {payload : ThreadTokenUsageUpdatedNotification}
      (h : updatesUsage threadId turnId payload = true) : Acts (.threadTokenUsageUpdated payload)
  | shown {n : ServerNotification} {e : ThreadEvent} (hc : n.concerns threadId turnId = true)
      (hs : n.shown = some e) : Acts n

/-- A notification the pump acts on although a marker in the place its arm does not consult names
another thread or turn. -/
inductive Overlooked (n : RawNotification) : Prop
  /-- A finished turn, foreign by the markers beside the turn. -/
  | beside {payload : TurnNotification}
      (hn : parseNotification n.method n.params = .ok (.turnCompleted payload))
      (h : finishes threadId turnId payload = true) (hf : ForeignAt threadId turnId n.params)
  /-- Anything else, foreign by the markers inside a `turn`. -/
  | inside {notification : ServerNotification} {turn : Value}
      (hn : parseNotification n.method n.params = .ok notification)
      (hc : ∀ payload, notification ≠ .turnCompleted payload)
      (h : Acts threadId turnId notification) (ht : n.params.get "turn" = some turn)
      (hf : ForeignAt threadId turnId turn)

end

variable {threadId turnId : String}

/-! ## The markers an arm consults -/

/-- Markers that match name nobody else. -/
theorem not_foreignAt_of_matches {holder : Value} {extra : Map}
    (h : matchesTargetFromExtra extra threadId (some turnId) = true)
    (ht : holder.get "threadId" = extra.get "threadId")
    (hu : holder.get "turnId" = extra.get "turnId") : ¬ ForeignAt threadId turnId holder := by
  obtain ⟨hthread, hturn⟩ := matchesTargetFromExtra_iff.1 h
  rintro (⟨s, hs, hne⟩ | ⟨s, hs, hne⟩)
  · exact hne (hthread s (ht ▸ hs))
  · exact hne (hturn s (hu ▸ hs))

/-- What is beside the fields of a decoded object is what the object has under that name. -/
theorem extra_get {known : List String} {key : String} {m : Map} (h : key ∉ known := by decide) :
    (Value.object m).get key = (m.extra known).get key :=
  (Map.get_extra h m).symm

theorem ItemLifecycleNotification.not_foreignAt {params : Value}
    {payload : ItemLifecycleNotification}
    (hd : ItemLifecycleNotification.decode params = .ok payload)
    (h : matchesTargetFromExtra payload.extra threadId (some turnId) = true) :
    ¬ ForeignAt threadId turnId params := by
  simp only [ItemLifecycleNotification.decode, bind_eq_ok, pure_eq_ok, Decode.object_eq_ok] at hd
  obtain ⟨m, rfl, item, -, rfl⟩ := hd
  exact not_foreignAt_of_matches h extra_get extra_get

theorem DeltaNotification.not_foreignAt {params : Value} {payload : DeltaNotification}
    (hd : DeltaNotification.decode params = .ok payload)
    (h : matchesTargetFromExtra payload.extra threadId (some turnId) = true) :
    ¬ ForeignAt threadId turnId params := by
  simp only [DeltaNotification.decode, bind_eq_ok, pure_eq_ok, Decode.object_eq_ok] at hd
  obtain ⟨m, rfl, _, -, _, -, _, -, _, -, rfl⟩ := hd
  exact not_foreignAt_of_matches h extra_get extra_get

theorem ErrorNotification.not_foreignAt {params : Value} {payload : ErrorNotification}
    (hd : ErrorNotification.decode params = .ok payload)
    (h : matchesTargetFromExtra payload.extra threadId (some turnId) = true) :
    ¬ ForeignAt threadId turnId params := by
  simp only [ErrorNotification.decode, bind_eq_ok, pure_eq_ok, Decode.object_eq_ok] at hd
  obtain ⟨m, rfl, _, -, rfl⟩ := hd
  exact not_foreignAt_of_matches h extra_get extra_get

/-- Here `threadId` is a field, and the guard compares it as one. -/
theorem ThreadTokenUsageUpdatedNotification.not_foreignAt {params : Value}
    {payload : ThreadTokenUsageUpdatedNotification}
    (hd : ThreadTokenUsageUpdatedNotification.decode params = .ok payload)
    (h : updatesUsage threadId turnId payload = true) : ¬ ForeignAt threadId turnId params := by
  simp only [ThreadTokenUsageUpdatedNotification.decode, bind_eq_ok, pure_eq_ok,
    Decode.object_eq_ok] at hd
  obtain ⟨m, rfl, thread, hthread, usage, -, rfl⟩ := hd
  obtain ⟨hfield, hextra⟩ := Bool.and_eq_true_iff.1 h
  rintro (⟨s, hs, hne⟩ | ⟨s, hs, hne⟩)
  · rw [Value.get_object] at hs
    have : thread = some s := by
      simpa [Map.optional, Map.defaulted, hs, Decode.option, Decode.string, Functor.map,
        Except.map, eq_comm] using hthread
    subst this
    exact hne (by simpa using hfield)
  · refine hne ((matchesTargetFromExtra_iff.1 hextra).2 s ?_)
    rw [← extra_get, hs]

/-- The finished turn's arm consults the markers of the turn. -/
theorem TurnNotification.not_foreignAt {params turn : Value} {payload : TurnNotification}
    (hd : TurnNotification.decode params = .ok payload) (ht : params.get "turn" = some turn)
    (h : finishes threadId turnId payload = true) : ¬ ForeignAt threadId turnId turn := by
  obtain ⟨m, t, rfl, htm, hturn, -⟩ := TurnNotification.decode_eq_ok.1 hd
  rw [Value.get_object, htm] at ht
  cases ht
  obtain ⟨tm, rfl, -, -, -, -, hextra⟩ := Turn.decode_eq_ok.1 hturn
  refine not_foreignAt_of_matches (Bool.and_eq_true_iff.1 h).2 ?_ ?_ <;>
    rw [hextra] <;> exact extra_get

/-- Every other arm consults the markers of the params. -/
theorem Acts.not_foreignAt {n : RawNotification} {notification : ServerNotification}
    (hn : parseNotification n.method n.params = .ok notification)
    (hc : ∀ payload, notification ≠ .turnCompleted payload)
    (h : Acts threadId turnId notification) : ¬ ForeignAt threadId turnId n.params := by
  have hd := parseNotification_decode hn
  cases h with
  | finished _ => exact absurd rfl (hc _)
  | usage h => exact ThreadTokenUsageUpdatedNotification.not_foreignAt hd h
  | shown h hs =>
    cases notification with
    | itemStarted | itemCompleted => exact ItemLifecycleNotification.not_foreignAt hd h
    | itemAgentMessageDelta | itemPlanDelta | itemReasoningSummaryTextDelta
    | itemReasoningTextDelta => exact DeltaNotification.not_foreignAt hd h
    | error => exact ErrorNotification.not_foreignAt hd h
    | _ => cases hs

/-- An undecodable notification is published as `unknown`, and nothing acts on that. -/
theorem acts_notificationEvent {n : RawNotification}
    (h : Acts threadId turnId (notificationEvent n.method n.params)) :
    ∃ notification, parseNotification n.method n.params = .ok notification ∧
      Acts threadId turnId notification := by
  rw [notificationEvent] at h
  split at h
  · rename_i parsed hp
    exact ⟨parsed, hp, h⟩
  · cases h with
    | shown _ hs => cases hs

theorem notificationEvent_of_ok {n : RawNotification} {notification : ServerNotification}
    (h : parseNotification n.method n.params = .ok notification) :
    notificationEvent n.method n.params = notification := by
  rw [notificationEvent, h]

/-- **A foreign notification is acted on exactly when it is overlooked.** -/
theorem Foreign.acts_iff {n : RawNotification} (hf : Foreign threadId turnId n) :
    Acts threadId turnId (notificationEvent n.method n.params) ↔ Overlooked threadId turnId n := by
  constructor
  · intro h
    obtain ⟨notification, hn, hacts⟩ := acts_notificationEvent h
    by_cases hc : ∃ payload, notification = .turnCompleted payload
    · obtain ⟨payload, rfl⟩ := hc
      have hfin : finishes threadId turnId payload = true := by
        cases hacts with
        | finished h => exact h
        | shown _ hs => cases hs
      rcases hf with hf | ⟨turn, ht, hf⟩
      · exact .beside hn hfin hf
      · exact absurd hf
          (TurnNotification.not_foreignAt (parseNotification_decode hn).2 ht hfin)
    · have hc' : ∀ payload, notification ≠ .turnCompleted payload :=
        fun payload h => hc ⟨payload, h⟩
      rcases hf with hf | ⟨turn, ht, hf⟩
      · exact absurd hf (hacts.not_foreignAt hn hc')
      · exact .inside hn hc' hacts ht hf
  · rintro (⟨hn, hfin, -⟩ | ⟨hn, -, hacts, -, -⟩)
    · rw [notificationEvent_of_ok hn]; exact .finished hfin
    · rw [notificationEvent_of_ok hn]; exact hacts

/-! ## What the pump acts on shows, and nothing else does -/

theorem invisible_of_not_acts {n : ServerNotification} (h : ¬ Acts threadId turnId n) :
    Invisible (pumpRound threadId turnId) (.item (.notification n)) := by
  intro usage
  have hends : endsStream threadId turnId (.item (.notification n)) = false := by
    cases n with
    | turnCompleted payload => exact Bool.eq_false_iff.2 fun hf => h (.finished hf)
    | _ => rfl
  have hprog : progress threadId turnId (.item (.notification n)) = none := by
    rw [progress]
    split
    · rename_i hc
      cases hs : n.shown with
      | none => rfl
      | some e => exact absurd (.shown hc hs) h
    · rfl
  rw [pumpRound_of_not_ends hends, hprog]
  cases n with
  | threadTokenUsageUpdated payload =>
    have hu : ¬ updatesUsage threadId turnId payload = true := fun hu => h (.usage hu)
    exact congrArg Round.quiet (if_neg hu)
  | _ => rfl

theorem round_of_updatesUsage {payload : ThreadTokenUsageUpdatedNotification}
    (h : updatesUsage threadId turnId payload = true) (usage : Option Usage) :
    pumpRound threadId turnId usage (.item (.notification (.threadTokenUsageUpdated payload)))
      = .quiet (updatedUsage payload) := by
  obtain ⟨hfield, hextra⟩ := Bool.and_eq_true_iff.1 h
  exact (if_pos hfield).trans (if_pos hextra)

theorem round_of_finishes {payload : TurnNotification}
    (h : finishes threadId turnId payload = true) (usage : Option Usage) :
    pumpRound threadId turnId usage (.item (.notification (.turnCompleted payload)))
      = .finish (.ok (turnCompletedEvent usage payload.turn)) := if_pos h

/-- A bare `turn/completed` of the turn. -/
def ownCompletion (turnId : String) : RawNotification :=
  ⟨"turn/completed", .object [("turn", .object [("id", .string turnId)])]⟩

/-- A bare usage update, which every turn adopts. -/
def bareUsage : RawNotification :=
  ⟨"thread/tokenUsage/updated", .object [("usage", .object
    [("inputTokens", .number (.posInt 0)), ("outputTokens", .number (.posInt 0))])]⟩

/-- A turn without a status has not failed. -/
theorem Turn.failed_of_status_none {turn : Turn} (h : turn.status = none) :
    turn.failed = false := by
  rw [Bool.eq_false_iff, ne_eq, Turn.failed_iff, h]
  simp

theorem round_ownCompletion (usage : Option Usage) :
    pumpRound threadId turnId usage (ownCompletion turnId).received
      = .finish (.ok (.turnCompleted usage)) := by
  have hfin : finishes threadId turnId ⟨⟨turnId, none, [], none, []⟩, []⟩ = true := by
    simp [finishes, matchesTargetFromExtra, markerMatches, optStr]
  refine (round_of_finishes hfin usage).trans ?_
  rw [turnCompletedEvent, Turn.failed_of_status_none rfl]
  rfl

theorem round_bareUsage (usage : Option Usage) :
    pumpRound threadId turnId usage bareUsage.received = .quiet (some ⟨0, 0, 0⟩) := by
  have hup : updatesUsage threadId turnId ⟨none, some (.object
      [("inputTokens", .number (.posInt 0)), ("outputTokens", .number (.posInt 0))]), []⟩ = true :=
    rfl
  refine (round_of_updatesUsage hup usage).trans ?_
  rw [updatedUsage, Option.bind_some, parseUsageFromValue_object]
  rfl

/-- Whatever the pump acts on shows in some stream of notifications. -/
theorem Acts.visible {n : RawNotification}
    (h : Acts threadId turnId (notificationEvent n.method n.params)) :
    ∃ pre post : List RawNotification,
      pumpTurnEvents threadId turnId ((pre ++ n :: post).map RawNotification.received)
        ≠ pumpTurnEvents threadId turnId ((pre ++ post).map RawNotification.received) := by
  generalize hev : notificationEvent n.method n.params = event at h
  have hrecv : n.received = .item (.notification event) := by rw [← hev]; rfl
  cases h with
  | @finished payload h =>
    refine ⟨[], [], ?_⟩
    simp [pumpTurnEvents, emitted, hrecv, round_of_finishes h]
  | @shown _ e hc hs =>
    have hp : progress threadId turnId n.received = some (.ok e) := by
      simp [hrecv, progress, hc, hs]
    have hends : endsStream threadId turnId n.received = false := by
      rw [hrecv]; cases event <;> first | rfl | cases hs
    refine ⟨[], [], ?_⟩
    simp [pumpTurnEvents, emitted, pumpRound_of_not_ends hends, hp]
  | @usage payload h =>
    have hround := fun usage => hrecv ▸ round_of_updatesUsage h usage
    -- an update that states no usage shows only after one that does
    cases hu : updatedUsage payload with
    | some u =>
      refine ⟨[], [ownCompletion turnId], ?_⟩
      simp [pumpTurnEvents, emitted, hround, hu, round_ownCompletion]
    | none =>
      refine ⟨[bareUsage], [ownCompletion turnId], ?_⟩
      simp [pumpTurnEvents, emitted, hround, hu, round_ownCompletion, round_bareUsage]

/-! ## Isolation -/

/-- **Isolation, exactly.**  For any choice `E` of notifications: leaving out some of the foreign
ones among them, anywhere in any sequence, never changes what the pump sends if and only if none
of them is overlooked. -/
theorem isolation_iff (threadId turnId : String) (E : RawNotification → Prop) :
    (∀ ns ns' : List RawNotification,
      Erased (fun n => Foreign threadId turnId n ∧ E n) ns ns' →
        pumpTurnEvents threadId turnId (ns'.map RawNotification.received)
          = pumpTurnEvents threadId turnId (ns.map RawNotification.received)) ↔
    ∀ n, Foreign threadId turnId n → E n → ¬ Overlooked threadId turnId n := by
  constructor
  · intro h n hf hE ho
    obtain ⟨pre, post, hne⟩ := (hf.acts_iff.2 ho).visible
    exact hne (h _ _ (.middle ⟨hf, hE⟩ pre post)).symm
  · intro h ns ns' hns
    have hmap : Erased (fun r => ∃ n, (Foreign threadId turnId n ∧ E n) ∧ n.received = r)
        (ns.map RawNotification.received) (ns'.map RawNotification.received) :=
      hns.map fun n hn => ⟨n, hn, rfl⟩
    refine emitted_erased hmap ?_ none
    rintro _ ⟨n, ⟨hf, hE⟩, rfl⟩
    exact invisible_of_not_acts fun hacts => h n hf hE (hf.acts_iff.1 hacts)

/-- A `turn/completed` that names another thread, but only beside the turn. -/
def misaddressedCompletion : RawNotification :=
  ⟨"turn/completed", .object [("threadId", .string "thread_b"),
    ("turn", .object [("id", .string "turn_1")])]⟩

/-- **Isolation fails** for it: it is foreign to `thread_a`, and ends the stream of a turn there
that has the same id. -/
theorem isolation_fails :
    ¬ ∀ (threadId turnId : String) (ns ns' : List RawNotification),
      Erased (Foreign threadId turnId) ns ns' →
        pumpTurnEvents threadId turnId (ns'.map RawNotification.received)
          = pumpTurnEvents threadId turnId (ns.map RawNotification.received) := by
  intro h
  have hf : Foreign "thread_a" "turn_1" misaddressedCompletion :=
    .inl (.inl ⟨"thread_b", rfl, by decide⟩)
  have hfin : finishes "thread_a" "turn_1"
      ⟨⟨"turn_1", none, [], none, []⟩, [("threadId", .string "thread_b")]⟩ = true := by decide
  have hrecv : misaddressedCompletion.received = .item (.notification (.turnCompleted
      ⟨⟨"turn_1", none, [], none, []⟩, [("threadId", .string "thread_b")]⟩)) := rfl
  have heq := h _ _ [misaddressedCompletion] [] (.drop hf .nil)
  simp [pumpTurnEvents, emitted, hrecv, round_of_finishes hfin] at heq

end CodexSdk

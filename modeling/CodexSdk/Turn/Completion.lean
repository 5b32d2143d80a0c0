import CodexSdk.Turn.Isolation

/-!
# Which finished turns end their stream

A `turn/completed` frame goes through three layers before it ends a stream: `classifyIncoming`
reads the frame, `notificationEvent` decodes the params, and the pump compares the ids.  The layers
are not equally strict.  Classification looks at `id` and `method` alone, but the decoder wants
every field of the nested turn in shape, and what it does not take is published as
`ServerNotification.unknown`, which the pump ignores.

`endsStream_iff_tolerated` draws the line: the frame ends the stream of its turn exactly when
`items`, `status` and `error` have one of the shapes in `Turn.Tolerated`.  All other members of the
frame, of the params and of the turn are arbitrary.
-/

set_option autoImplicit false

namespace CodexSdk

open Json Rounds

/-- A notification frame that says the turn is finished, with nothing else known about it: the
other members, of the frame, the params and the turn, are arbitrary. -/
structure CompletionFrame (threadId turnId : String) where
  frame : Map
  params : Map
  turn : Map
  id : frame.get "id" = none
  method : frame.get "method" = some (.string "turn/completed")
  params_eq : frame.get "params" = some (.object params)
  turn_eq : params.get "turn" = some (.object turn)
  turnId_eq : turn.get "id" = some (.string turnId)
  addressed : ¬ Foreign threadId turnId ⟨"turn/completed", .object params⟩

/-- What a pump receives for a frame: `process_incoming_value` publishes the event of a
notification. -/
def frameReceived (frame : Value) : Option Received :=
  match classifyIncoming frame with
  | .ok (.notification method params _) => some (RawNotification.received ⟨method, params⟩)
  | _ => none

/-- The last element of a stream. -/
inductive IsTerminal : StreamItem → Prop
  | completed (usage : Option Usage) : IsTerminal (.ok (.turnCompleted usage))
  | failed (error : ThreadError) : IsTerminal (.ok (.turnFailed error))
  | closed : IsTerminal (.error .transportClosed)

variable {threadId turnId : String}

theorem Terminal.isTerminal {usage : Option Usage} {r : Received} {e : StreamItem}
    (h : Terminal threadId turnId usage r e) : IsTerminal e := by
  cases h <;> constructor

/-- The frame reaches the pumps, and wherever it arrives in the stream of its turn, the stream has
a terminal element. -/
def CompletionFrame.EndsStream (c : CompletionFrame threadId turnId) : Prop :=
  ∃ r, frameReceived (.object c.frame) = some r ∧ ∀ pre post,
    ∃ e ∈ pumpTurnEvents threadId turnId (pre ++ r :: post), IsTerminal e

namespace CompletionFrame

variable (c : CompletionFrame threadId turnId)

/-- The frame is classified as a notification, whatever else is in it. -/
theorem frameReceived_eq : frameReceived (.object c.frame)
    = some (RawNotification.received ⟨"turn/completed", .object c.params⟩) := by
  rw [frameReceived, classifyIncoming_notification c.id c.method, c.params_eq]
  rfl

theorem decode_params :
    (∃ payload, TurnNotification.decode (.object c.params) = .ok payload) ↔
      Turn.Tolerated c.turn := by
  rw [← Turn.decode_isOk c.turnId_eq]
  constructor
  · rintro ⟨payload, h⟩
    obtain ⟨m, t, hm, ht, hd, -⟩ := TurnNotification.decode_eq_ok.1 h
    cases hm
    rw [c.turn_eq] at ht
    cases ht
    exact ⟨_, hd⟩
  · rintro ⟨turn, hd⟩
    exact ⟨⟨turn, Map.extra ["turn"] c.params⟩,
      TurnNotification.decode_eq_ok.2 ⟨_, _, rfl, c.turn_eq, hd, rfl⟩⟩

/-- Once the payload decodes, the pump's guard lets it through. -/
theorem finishes_of_decode {payload : TurnNotification}
    (h : TurnNotification.decode (.object c.params) = .ok payload) :
    finishes threadId turnId payload = true := by
  obtain ⟨m, t, hm, ht, hd, -⟩ := TurnNotification.decode_eq_ok.1 h
  cases hm
  rw [c.turn_eq] at ht
  cases ht
  obtain ⟨tm, htm, hid, -, -, -, hextra⟩ := Turn.decode_eq_ok.1 hd
  cases htm
  have hturn : payload.turn.id = turnId := by simpa [c.turnId_eq, eq_comm] using hid
  have hmem : ∀ {key s}, key ∉ Turn.fields → payload.turn.extra.get key = some (.string s) →
      (Value.object c.turn).get key = some (.string s) := by
    intro key s hk hs
    rw [hextra] at hs
    exact (extra_get hk).trans hs
  rw [finishes, hturn, beq_self_eq_true, Bool.true_and, matchesTargetFromExtra_iff]
  constructor
  · intro s hs
    by_contra hne
    exact c.addressed (.inr ⟨_, c.turn_eq, .inl ⟨s, hmem (by decide) hs, hne⟩⟩)
  · intro s hs
    by_contra hne
    exact c.addressed (.inr ⟨_, c.turn_eq, .inr ⟨s, hmem (by decide) hs, hne⟩⟩)

end CompletionFrame

/-- An input that ends the stream leaves a terminal element, wherever it stands. -/
theorem exists_terminal_of_endsStream {r : Received} (h : endsStream threadId turnId r = true)
    (pre post : List Received) :
    ∃ e ∈ pumpTurnEvents threadId turnId (pre ++ r :: post), IsTerminal e := by
  have hseparates : Separates (pumpRound threadId turnId) (endsStream threadId turnId) terminalItem
    (progress threadId turnId) (usageStep threadId turnId) := pumpRound_separates
  rcases hseparates.emitted_cases none (pre ++ r :: post) with
    ⟨hno, -⟩ | ⟨pre', r', post', -, -, hr', heq⟩
  · exact absurd h (by simp [hno r (by simp)])
  · refine ⟨terminalItem (usageAfter threadId turnId pre') r', ?_,
      (terminal_terminalItem hr' _).isTerminal⟩
    rw [pumpTurnEvents, heq]
    exact List.mem_append_right _ (List.mem_singleton_self _)

/-- **Which finished turns end their stream**: exactly those whose `items`, `status` and `error`
have a shape the decoder takes. -/
theorem endsStream_iff_tolerated (c : CompletionFrame threadId turnId) :
    c.EndsStream ↔ Turn.Tolerated c.turn := by
  rw [← c.decode_params]
  constructor
  · intro h
    cases hd : TurnNotification.decode (.object c.params) with
    | ok payload => exact ⟨payload, rfl⟩
    | error e =>
      -- published as `unknown`, alone in the stream
      obtain ⟨r, hr, hends⟩ := h
      rw [c.frameReceived_eq] at hr
      cases hr
      obtain ⟨e, he, -⟩ := hends [] []
      simp [RawNotification.received, notificationEvent_turnCompleted, hd, pumpTurnEvents, emitted,
        pumpRound, pumpNotification] at he
  · rintro ⟨payload, hd⟩
    refine ⟨_, c.frameReceived_eq, exists_terminal_of_endsStream ?_⟩
    rw [RawNotification.received, notificationEvent_turnCompleted, hd]
    exact c.finishes_of_decode hd

/-- A finished turn whose `items` are `null`. -/
def nullItems : CompletionFrame "thread_a" "turn_1" where
  frame := [("method", .string "turn/completed"),
    ("params", .object [("turn", .object [("id", .string "turn_1"), ("items", .null)])])]
  params := [("turn", .object [("id", .string "turn_1"), ("items", .null)])]
  turn := [("id", .string "turn_1"), ("items", .null)]
  id := rfl
  method := rfl
  params_eq := rfl
  turn_eq := rfl
  turnId_eq := rfl
  addressed := by
    rintro ((⟨s, hs, -⟩ | ⟨s, hs, -⟩) | ⟨turn, ht, ⟨s, hs, -⟩ | ⟨s, hs, -⟩⟩)
    · cases hs
    · cases hs
    · cases ht; cases hs
    · cases ht; cases hs

/-- It does not end its stream: on its own it is not shown at all. -/
theorem nullItems_ignored :
    ¬ ∀ (threadId turnId : String) (c : CompletionFrame threadId turnId), c.EndsStream := by
  intro h
  obtain ⟨r, hr, hends⟩ := h _ _ nullItems
  rw [nullItems.frameReceived_eq] at hr
  cases hr
  obtain ⟨e, he, -⟩ := hends [] []
  have hd : TurnNotification.decode (.object nullItems.params)
      = .error (.invalidType "a sequence") := rfl
  simp [RawNotification.received, notificationEvent_turnCompleted, hd, pumpTurnEvents, emitted,
    pumpRound, pumpNotification] at he

end CodexSdk

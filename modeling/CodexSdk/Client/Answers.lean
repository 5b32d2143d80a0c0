import CodexSdk.Client.Correlation

/-!
# Every answer is the right one

The programs of `CodexSdk.Client.Calls` meet the contract of `CodexSdk.Client.Correlation`: a
request knows its id and channel to be its own from the moment it has them to the moment it
registers them, the inbound loop completes a request only with the response it has just read, and
when the connection fails it completes each entry it took out of the map once.

`correlation_holds` collects what follows for every run: ids are not shared, what a call returns is
what was answered under its id after it was registered, no response answers two calls, and a
response changes nothing but its own entry.
-/

set_option autoImplicit false

namespace CodexSdk

open Json Interleave

/-! ## What a call returns -/

/-- Some response frame completed a request of `t` with this reply, after it was registered. -/
def Answered (tr : List ClientEvent) (t : Tid) (reply : Reply) : Prop :=
  ∃ past id tx, AnsweredBy tr past t id tx reply

/-- The error is not the one injected when the connection fails. -/
def FromServer (e : RpcError) : Prop := ∀ message, e ≠ transportFailure message

/-- An RPC error that is returned was the reply. -/
def ErrorAnswered {α : Type} (tr : List ClientEvent) (t : Tid) (r : Except ClientError α) : Prop :=
  ∀ e, r = .error (.rpc e) → FromServer e → Answered tr t (.error e)

/-- A value that is returned was the reply. -/
def ValueAnswered (tr : List ClientEvent) (t : Tid) (r : Outcome) : Prop :=
  ∀ v, r = .ok v → Answered tr t (.ok v)

/-- The errors of a request that got no reply: it did not pass the gate, its frame was refused, it
gave up on a frame that was accepted, or its sender was dropped. -/
inductive Unanswered (tr : List ClientEvent) (t : Tid) : ClientError → Prop
  | notInitialized (method : String) : Unanswered tr t (.notInitialized method)
  | notReady (method : String) : Unanswered tr t (.notReady method)
  | alreadyInitialized : Unanswered tr t .alreadyInitialized
  | refused {frame : Value} (h : .op t (.outboundSend frame) false ∈ tr) (message : String) :
      Unanswered tr t (.transportSend message)
  | elapsed {frame : Value} (h : .op t (.outboundSend frame) true ∈ tr) (method : String)
      (timeoutMs : Nat) : Unanswered tr t (.timeout method timeoutMs)
  | dropped : Unanswered tr t .transportClosed

/-- Where the error of a call can have come from. -/
inductive Accounted (tr : List ClientEvent) (t : Tid) : ClientError → Prop
  | unanswered {e : ClientError} (h : Unanswered tr t e) : Accounted tr t e
  | answered {e : RpcError} (h : Answered tr t (.error e)) : Accounted tr t (.rpc e)
  /-- The request was among those taken out of the map. -/
  | injected {id : RequestId} {tx : Nat} (hreg : ⟨t, id, tx⟩ ∈ registrations tr)
      (htaken : tx ∈ takings tr) (message : String) :
      Accounted tr t (.rpc (transportFailure message))
  | unexpected {raw : Value} (h : Answered tr t (.ok raw)) (method : String)
      (source : DecodeError) : Accounted tr t (.unexpectedResult method source)

/-- What every piece of a call promises: its error is accounted for, and no entry of the task is
left in the map. -/
structure Ended {α : Type} (t : Tid) (r : Except ClientError α) (w : ClientWorld) : Prop where
  error : ∀ e, r = .error e → Accounted w.trace t e
  released : Released t w

/-- What a request promises besides. -/
structure RequestEnded (t : Tid) (r : Outcome) (w : ClientWorld) : Prop extends Ended t r w where
  value : ValueAnswered w.trace t r

section

variable {tr tr' : List ClientEvent} {t : Tid} {α β : Type} {w w' : ClientWorld}

theorem Answered.suffix {reply : Reply} (h : Answered tr t reply) (hs : tr <:+ tr') :
    Answered tr' t reply := by
  obtain ⟨past, id, tx, h⟩ := h
  exact ⟨past, id, tx, h.suffix hs⟩

theorem ValueAnswered.suffix {r : Outcome} (h : ValueAnswered tr t r) (hs : tr <:+ tr') :
    ValueAnswered tr' t r :=
  fun v hv => (h v hv).suffix hs

theorem valueAnswered_error (e : ClientError) : ValueAnswered tr t (.error e) := by
  rintro v ⟨⟩

theorem Unanswered.suffix {e : ClientError} (h : Unanswered tr t e) (hs : tr <:+ tr') :
    Unanswered tr' t e := by
  cases h with
  | notInitialized method => exact .notInitialized method
  | notReady method => exact .notReady method
  | alreadyInitialized => exact .alreadyInitialized
  | refused h message => exact .refused (hs.subset h) message
  | elapsed h method timeoutMs => exact .elapsed (hs.subset h) method timeoutMs
  | dropped => exact .dropped

theorem Accounted.suffix {e : ClientError} (h : Accounted tr t e) (hs : tr <:+ tr') :
    Accounted tr' t e := by
  cases h with
  | unanswered h => exact .unanswered (h.suffix hs)
  | answered h => exact .answered (h.suffix hs)
  | injected hreg htaken message =>
    exact .injected ((hs.sublist.filterMap _).subset hreg) (takings_suffix hs htaken) message
  | unexpected h method source => exact .unexpected (h.suffix hs) method source

/-- Apart from the injected error, an RPC error was the reply. -/
theorem Ended.errorAnswered {r : Except ClientError α} (h : Ended t r w) :
    ErrorAnswered w.trace t r := by
  intro e he hserver
  cases h.error _ he with
  | unanswered h => cases h
  | answered h => exact h
  | injected _ _ message => exact absurd rfl (hserver message)

theorem ended_ok (a : α) (h : Released t w) : Ended t (.ok a : Except ClientError α) w :=
  ⟨by rintro e ⟨⟩, h⟩

theorem ended_error {e : ClientError} (he : Accounted w.trace t e) (h : Released t w) :
    Ended t (.error e : Except ClientError α) w :=
  ⟨by rintro e' ⟨⟩; exact he, h⟩

/-- An error that is passed on. -/
theorem Ended.pass {e : ClientError} (h : Ended t (.error e : Except ClientError α) w) :
    Ended t (.error e : Except ClientError β) w :=
  ended_error (h.error e rfl) h.released

theorem Ended.after {r : Except ClientError α} (h : Ended t r w) {o : Op} {a : o.Ans}
    (hw : After t o a w w') : Ended t r w' :=
  ⟨fun e he => (h.error e he).suffix hw.suffix, hw.holds none h.released⟩

theorem Ended.request {e : ClientError} (h : Ended t (.error e : Except ClientError α) w) :
    RequestEnded t (.error e) w := ⟨h.pass, valueAnswered_error e⟩

theorem RequestEnded.after {r : Outcome} (h : RequestEnded t r w) {o : Op} {a : o.Ans}
    (hw : After t o a w w') : RequestEnded t r w' :=
  ⟨h.toEnded.after hw, h.value.suffix hw.suffix⟩

end

section

variable {env : Env} {t : Tid} {w : ClientWorld}

theorem safe_sendMessage (value : Value) (hw : Released t w) :
    Safe (client env) correlation t (Ended t) (sendMessage value) w := by
  refine safe_free (fun _ => trivial) fun w' sent ha => ?_
  have hw' := ha.holds none hw
  cases sent with
  | true => exact ended_ok () hw'
  | false => exact ended_error (.unanswered (.refused ha.mem _)) hw'

theorem safe_notificationGate (method : String) (requiresReady : Bool) (hw : Released t w) :
    Safe (client env) correlation t (Ended t) (notificationGate method requiresReady) w := by
  cases requiresReady with
  | false => exact ended_ok () hw
  | true =>
    refine safe_free (fun _ => trivial) fun w' state ha => ?_
    have hw' := ha.holds none hw
    change Ended t (if state < handshakeReady then _ else _) w'
    split
    · exact ended_error (.unanswered (.notReady method)) hw'
    · exact ended_ok () hw'

theorem safe_sendNotification (method : String) (params : Value) (requiresReady : Bool)
    (hw : Released t w) :
    Safe (client env) correlation t (Ended t) (sendNotification method params requiresReady) w := by
  refine safe_andThen ((safe_notificationGate method requiresReady hw).mono ?_)
  rintro (e | _) w' h
  · exact h.pass
  · exact safe_sendMessage _ h.released

theorem safe_requestGate (method : String) (requiresReady : Bool) (hw : Released t w) :
    Safe (client env) correlation t (Ended t) (requestGate method requiresReady) w := by
  refine safe_free (fun _ => trivial) fun w' state ha => ?_
  have hw' := ha.holds none hw
  change Ended t (if requiresReady then _ else _) w'
  cases requiresReady with
  | false =>
    rw [if_neg (by simp)]
    split
    · exact ended_error (.unanswered .alreadyInitialized) hw'
    · exact ended_ok () hw'
  | true =>
    rw [if_pos rfl]
    split
    · exact ended_error (.unanswered (.notReady method)) hw'
    · exact ended_ok () hw'

/-- A channel that has been used belongs to no entry of the map. -/
theorem PendingOnly.released_of_used {id : RequestId} {tx : Nat}
    (hw : PendingOnly t (some (id, tx)) w) (hc : Correlated w.shared w.trace)
    (hslot : w.shared.oneshots tx ≠ .empty) : Released t w := by
  intro r hr ht hp
  have hentry : r.entry = (id, tx) := Option.some.inj (hw r hr ht hp)
  rw [hentry] at hp
  exact absurd (hc.unused _ hp) hslot

/-- Giving up on the only entry. -/
theorem PendingOnly.released_of_removed {id : RequestId} {tx : Nat}
    (hw : PendingOnly t (some (id, tx)) w) (hid : ∀ p ∈ w.shared.pending, p.1 ≠ id) :
    Released t w := by
  intro r hr ht hp
  have hentry : r.entry = (id, tx) := Option.some.inj (hw r hr ht hp)
  exact absurd (congrArg Prod.fst hentry) (hid _ hp)

/-- Giving up: whatever the map held under the id, it is gone. -/
theorem safe_giveUp {α : Type} {id : RequestId} {tx : Nat} {e : ClientError}
    (hw : PendingOnly t (some (id, tx)) w) (he : Unanswered w.trace t e) :
    Safe (client env) correlation t (RequestEnded t)
      (perform (.pendingRemove id) >>= fun _ => return (.error e : Outcome)) w := by
  refine safe_permitted fun w₁ hr _ => ⟨trivial, fun ch _ s hx _ => ?_⟩
  have hw₁ := (hr.holds hw).op hx (by simp)
  cases hx
  have hreleased := hw₁.released_of_removed fun p hp => (mem_remove hp).2
  refine Ended.request (α := α) (ended_error (.unanswered (he.suffix ?_)) hreleased)
  exact hr.suffix.trans (List.suffix_cons _ _)

/-- Waiting on the channel of a registered request yields the reply to that request. -/
theorem safe_awaitReply (method : String) (timeout : Duration) {id : RequestId} {tx : Nat}
    {frame : Value} (hreg : ⟨t, id, tx⟩ ∈ registrations w.trace)
    (hsent : .op t (.outboundSend frame) true ∈ w.trace) (hw : PendingOnly t (some (id, tx)) w) :
    Safe (client env) correlation t (RequestEnded t) (awaitReply method timeout id tx) w := by
  refine safe_permitted fun w₁ hr hc => ⟨trivial, fun ch a s hx _ => ?_⟩
  have hw₁ := hr.holds hw
  have hw₂ := hw₁.op hx (by simp)
  obtain ⟨_, hwait, heq⟩ := Option.map_eq_some_iff.1 hx
  cases heq
  have hsuffix := List.suffix_cons (.op t (.timeoutRecv tx timeout) a : ClientEvent) w₁.trace
  have hreg₁ := registrations_mono hr.suffix hreg
  have hused : w₁.shared.oneshots tx ≠ .empty → Released t
      (w₁.push (.op t (.timeoutRecv tx timeout) a) w₁.shared) :=
    fun hslot => (hw₁.released_of_used hc hslot).op hx (by simp)
  match a with
  | .value (.ok v) =>
    have hslot := Oneshot.wait_value hwait
    refine ⟨ended_ok v (hused (by simp [hslot])), ?_⟩
    rintro v' ⟨⟩
    rcases hc.answered hreg₁ hslot with ⟨past, hans⟩ | ⟨-, message, h⟩
    · exact Answered.suffix ⟨past, id, tx, hans⟩ hsuffix
    · cases h
  | .value (.error e) =>
    have hslot := Oneshot.wait_value hwait
    refine Ended.request (α := Value) (ended_error ?_ (hused (by simp [hslot])))
    rcases hc.answered hreg₁ hslot with ⟨past, hans⟩ | ⟨htaken, message, h⟩
    · exact .answered (Answered.suffix ⟨past, id, tx, hans⟩ hsuffix)
    · cases h
      exact (Accounted.injected hreg₁ htaken message).suffix hsuffix
  | .closed =>
    have hslot := Oneshot.wait_closed hwait
    exact Ended.request (α := Value)
      (ended_error (.unanswered .dropped) (hused (by simp [hslot])))
  | .elapsed =>
    have hframe := hsuffix.subset (hr.suffix.subset hsent)
    exact safe_giveUp (α := Value) hw₂ (.elapsed hframe _ _)

/-- **The heart of the matter**: what is returned is the reply to the request. -/
theorem safe_roundTrip (method : String) (params : Value) (timeout : Duration)
    (hw : Released t w) :
    Safe (client env) correlation t (RequestEnded t) (roundTrip method params timeout) w := by
  refine safe_permitted fun w₀ hr₀ hc₀ => ⟨trivial, fun ch n s hx hc₁ => ?_⟩
  have hw₀ := (hr₀.holds hw).op hx (by simp)
  cases hx
  -- the id is its own, and unused
  have hid : (t, w₀.shared.nextId) ∈
      allocations (.op t .nextIdFetchAdd w₀.shared.nextId :: w₀.trace) :=
    List.mem_cons_self
  refine safe_permitted fun w₁ hr₁ hc₁' => ⟨trivial, fun ch tx s hx hc₂ => ?_⟩
  have hw₁ := (hr₁.holds hw₀).op hx (by simp)
  cases hx
  have hid₁ := allocations_mono hr₁.suffix hid
  have hidFresh₁ : FewIds w₁.trace →
      ∀ r ∈ registrations w₁.trace, r.id ≠ .integer w₀.shared.nextId :=
    fun hfew => id_fresh_elsewhere hr₁.elsewhere hc₁' hfew hid
      (hc₀.id_fresh (hfew.suffix hr₁.suffix))
  -- and so is the channel
  have htx : (t, w₁.shared.channels)
      ∈ openings (.op t .oneshotChannel w₁.shared.channels :: w₁.trace) := List.mem_cons_self
  have htxFresh := hc₁'.channel_fresh
  refine safe_permitted fun w₂ hr₂ hc₂' => ⟨?_, fun ch _ s hx hc₃ => ?_⟩
  · refine ⟨⟨⟨_, rfl, allocations_mono hr₂.suffix hid₁⟩, fun hfew => ?_⟩,
      openings_mono hr₂.suffix htx, ?_⟩
    · exact id_fresh_elsewhere hr₂.elsewhere hc₂' hfew hid₁
        (hidFresh₁ ((hfew.suffix hr₂.suffix).tail))
    · exact channel_fresh_elsewhere hr₂.elsewhere hc₂' htx htxFresh
  · have hw₂ := (hr₂.holds hw₁).insert hx
    have hreg : (⟨t, .integer w₀.shared.nextId, w₁.shared.channels⟩ : Registration)
        ∈ registrations (.op t (.pendingInsert (.integer w₀.shared.nextId) w₁.shared.channels) ()
          :: w₂.trace) := List.mem_cons_self
    refine safe_free (fun _ => trivial) fun w₃ sent ha => ?_
    have hw₃ := ha.holds _ hw₂
    cases sent with
    | true => exact safe_awaitReply method timeout (registrations_mono ha.suffix hreg) ha.mem hw₃
    | false => exact safe_giveUp (α := Value) hw₃ (.refused ha.mem _)

theorem safe_requestValueInternal (method : String) (params : Value) (timeout : Option Duration)
    (requiresReady : Bool) (hw : Released t w) :
    Safe (client env) correlation t (RequestEnded t)
      (requestValueInternal env method params timeout requiresReady) w := by
  refine safe_andThen ((safe_requestGate method requiresReady hw).mono ?_)
  rintro (e | _) w' h
  · exact h.request
  · exact safe_roundTrip method params _ h.released

theorem safe_requestTypedInternal (method : String) (params : Value) (timeout : Option Duration)
    (requiresReady : Bool) (decode : Value → Except DecodeError Unit) (hw : Released t w) :
    Safe (client env) correlation t (RequestEnded t)
      (requestTypedInternal env method params timeout requiresReady decode) w := by
  refine safe_andThen
    ((safe_requestValueInternal method params timeout requiresReady hw).mono ?_)
  rintro (e | raw) w' h
  · exact h
  · dsimp only
    cases decode raw with
    | ok _ => exact h
    | error source =>
      have hended := ended_error (α := Value) (.unexpected (h.value raw rfl) method source)
        h.released
      exact hended.request

theorem safe_explicitInitialize (params : Value) (hw : Released t w) :
    Safe (client env) correlation t (RequestEnded t) (explicitInitialize env params) w := by
  refine safe_andThen ((safe_requestTypedInternal _ _ _ _ _ hw).mono ?_)
  rintro (e | raw) w' h
  · exact h
  · exact safe_free (fun _ => trivial) fun w₂ _ ha => h.after ha

theorem safe_explicitInitialized (hw : Released t w) :
    Safe (client env) correlation t (Ended t) explicitInitialized w := by
  refine safe_free (fun _ => trivial) fun w₁ state ha => ?_
  have hw₁ := ha.holds none hw
  change Safe _ _ _ _ (if state < handshakeInitialized then _ else _) w₁
  split
  · exact ended_error (.unanswered (.notInitialized _)) hw₁
  · refine safe_andThen ((safe_sendNotification _ _ _ hw₁).mono ?_)
    rintro (e | _) w₂ h
    · exact h.pass
    · exact safe_free (fun _ => trivial) fun w₃ _ ha => ended_ok _ (h.after ha).released

theorem safe_ensureInitialized (params : Value) (hw : Released t w) :
    Safe (client env) correlation t (Ended t) (ensureInitialized env params) w := by
  refine safe_free (fun _ => trivial) fun w₁ state ha => ?_
  have hw₁ := ha.holds none hw
  change Safe _ _ _ _ (if state < handshakeInitialized then _ else _) w₁
  split
  · refine safe_free (fun _ => trivial) fun w₂ _ ha₂ => Safe.bind ?_
    refine (safe_requestTypedInternal _ _ _ _ _ (ha₂.holds none hw₁)).mono ?_
    rintro (e | raw) w₃ h
    · exact safe_free (fun _ => trivial) fun w₄ _ ha => (h.toEnded.after ha).pass
    · exact safe_free (fun _ => trivial) fun w₄ _ ha => ended_ok () (h.after ha).released
  · exact ended_ok () hw₁

theorem safe_announceReady (hw : Released t w) :
    Safe (client env) correlation t (Ended t) announceReady w := by
  refine safe_andThen ((safe_sendNotification _ _ _ hw).mono ?_)
  rintro (e | _) w₁ h
  · exact h
  · exact safe_free (fun _ => trivial) fun w₂ _ ha => ended_ok () (h.after ha).released

theorem safe_handshake (params : Value) (hw : Released t w) :
    Safe (client env) correlation t (Ended t) (handshake env params) w := by
  refine safe_free (fun _ => trivial) fun w₁ state ha => ?_
  have hw₁ := ha.holds none hw
  change Safe _ _ _ _ (if state = handshakeReady then _ else _) w₁
  split
  · exact ended_ok () hw₁
  · refine safe_andThen ((safe_ensureInitialized params hw₁).mono ?_)
    rintro (e | _) w₂ h
    · exact h
    · exact safe_announceReady h.released

theorem safe_ensureReadyWith (params : Value) (hw : Released t w) :
    Safe (client env) correlation t (Ended t) (ensureReadyWith env params) w := by
  refine safe_free (fun _ => trivial) fun w₁ state ha => ?_
  have hw₁ := ha.holds none hw
  change Safe _ _ _ _ (if state = handshakeReady then _ else _) w₁
  split
  · exact ended_ok _ hw₁
  · refine safe_free (fun _ => trivial) fun w₂ _ ha₂ => Safe.bind ?_
    refine (safe_handshake params (ha₂.holds none hw₁)).mono ?_
    rintro (e | _) w₃ h
    · exact safe_free (fun _ => trivial) fun w₄ _ ha => (h.after ha).pass
    · exact safe_free (fun _ => trivial) fun w₄ _ ha => ended_ok _ (h.after ha).released

theorem safe_unitOutcome {x : ClientM (Except ClientError Unit)}
    (h : Safe (client env) correlation t (Ended t) x w) :
    Safe (client env) correlation t (Ended t) (unitOutcome x) w := by
  refine safe_andThen (h.mono ?_)
  rintro (e | _) w' h'
  · exact h'.pass
  · exact ended_ok _ h'.released

end

/-- The calls that return the result of a request. -/
def Call.ReturnsReply : Call → Prop
  | .explicitInitialize _ | .typed _ _ _ | .sendRawRequest _ _ _ => True
  | _ => False

/-- What a call promises about replies. -/
def CallAnswered (t : Tid) (call : Call) (r : Outcome) (w : ClientWorld) : Prop :=
  ErrorAnswered w.trace t r ∧ (call.ReturnsReply → ValueAnswered w.trace t r)

/-- What a call promises. -/
structure CallEnded (t : Tid) (call : Call) (r : Outcome) (w : ClientWorld) : Prop
    extends Ended t r w where
  value : call.ReturnsReply → ValueAnswered w.trace t r

theorem CallEnded.answered {t : Tid} {call : Call} {r : Outcome} {w : ClientWorld}
    (h : CallEnded t call r w) : CallAnswered t call r w := ⟨h.errorAnswered, h.value⟩

section

variable {env : Env} {t : Tid} {w : ClientWorld}

/-- **Every call** keeps its promise. -/
theorem safe_call (call : Call) (hw : Released t w) :
    Safe (client env) correlation t (CallEnded t call) (call.body env) w := by
  have hrequest : ∀ (r : Outcome) (w : ClientWorld), RequestEnded t r w → CallEnded t call r w :=
    fun r w h => ⟨h.toEnded, fun _ => h.value⟩
  have hplain : ¬ call.ReturnsReply → ∀ (r : Outcome) (w : ClientWorld), Ended t r w →
      CallEnded t call r w := fun hc r w h => ⟨h, fun h' => absurd h' hc⟩
  cases call with
  | explicitInitialize params => exact (safe_explicitInitialize params hw).mono hrequest
  | explicitInitialized => exact (safe_explicitInitialized hw).mono (hplain id)
  | ensureReady params => exact (safe_ensureReadyWith params hw).mono (hplain id)
  | typed method params decode => exact (safe_requestTypedInternal _ _ _ _ _ hw).mono hrequest
  | sendRawRequest method params timeout =>
    exact (safe_requestValueInternal _ _ _ _ hw).mono hrequest
  | sendRawNotification method params =>
    exact (safe_unitOutcome (safe_sendNotification _ _ _ hw)).mono (hplain id)
  | respondServerRequest id result =>
    exact (safe_unitOutcome (safe_sendMessage _ hw)).mono (hplain fun h => h)
  | respondServerRequestError id error =>
    exact (safe_unitOutcome (safe_sendMessage _ hw)).mono (hplain fun h => h)
  | setHandler kind handler =>
    exact safe_free (fun _ => trivial) fun w' _ ha =>
      hplain (fun h => h) _ _ (ended_ok _ (ha.holds none hw))
  | clearHandler kind =>
    exact safe_free (fun _ => trivial) fun w' _ ha =>
      hplain (fun h => h) _ _ (ended_ok _ (ha.holds none hw))

/-! ## The inbound loop -/

theorem safe_tryAutoHandle (request : ServerRequestEvent) (hw : Released t w) :
    Safe (client env) correlation t (fun _ w => Released t w)
      (tryAutoHandleServerRequest env request) w := by
  cases request with
  | unknown => exact hw
  | request kind id params =>
    refine safe_free (fun _ => trivial) fun w₁ handler ha => ?_
    have hw₁ := ha.holds none hw
    cases handler with
    | none => exact hw₁
    | some handler =>
      refine Safe.bind ((safe_script (J := Released t) ?_ _ w₁ hw₁).mono ?_)
      · exact fun call w hw => (safe_call call hw).mono fun _ _ h => h.released
      · intro outcome w₂ hw₂
        refine safe_free (fun _ => trivial) fun w₃ sent ha => ?_
        cases sent with
        | true => exact ha.holds none hw₂
        | false =>
          exact safe_free (fun _ => trivial) fun _ _ ha' => ha'.holds none (ha.holds none hw₂)

/-- Each entry that was taken out is completed, and only once. -/
theorem safe_failEntries (message : String) (entries : List (RequestId × Nat)) (w : ClientWorld)
    (htaken : ∀ p ∈ entries, p.2 ∈ takings w.trace) (hnodup : (entries.map Prod.snd).Nodup)
    (hnew : ∀ p ∈ entries, p.2 ∉ completions w.trace) :
    Safe (client env) correlation .inboundLoop (fun _ _ => True)
      (failEntries (transportFailure message) entries) w := by
  induction entries generalizing w with
  | nil => trivial
  | cons entry entries ih =>
    obtain ⟨id, tx⟩ := entry
    rw [List.forall_mem_cons] at htaken hnew
    rw [List.map_cons, List.nodup_cons] at hnodup
    refine safe_permitted fun w₁ hr hc => ⟨?_, fun ch _ s hx _ => ?_⟩
    · refine ⟨rfl, takings_suffix hr.suffix htaken.1, ?_, message, rfl⟩
      rw [completions_elsewhere hr.elsewhere hc]
      exact hnew.1
    · refine ih _ (fun p hp => ?_) hnodup.2 fun p hp hmem => ?_
      · exact takings_suffix (hr.suffix.trans (List.suffix_cons _ _)) (htaken.2 p hp)
      · rcases List.mem_cons.1 hmem with heq | hmem
        · exact hnodup.1 (heq ▸ List.mem_map.2 ⟨p, hp, rfl⟩)
        · refine hnew.2 p hp ?_
          rwa [← completions_elsewhere hr.elsewhere hc]

theorem safe_closeDown (message : String) (w : ClientWorld) :
    Safe (client env) correlation .inboundLoop (fun _ _ => True) (closeDown message) w := by
  refine Safe.bind (Safe.mono (Q := fun _ _ => True) ?_ fun _ w' _ =>
    safe_free (fun _ => trivial) fun _ _ _ => trivial)
  refine safe_permitted fun w₁ _ hc => ⟨trivial, fun ch entries s hx _ => ?_⟩
  cases hx
  refine safe_failEntries message _ _ (fun p hp => ?_) hc.pending_nodup fun p hp => ?_
  · exact List.mem_append_left _ (List.mem_map_of_mem hp)
  · exact (hc.pending p hp).2.1

/-- A response is dispatched right after it has been read. -/
theorem safe_processIncomingValue {value : Value} {past : List ClientEvent}
    (hread : w.trace = .op .inboundLoop .inboundRecv (some (.ok value)) :: past)
    (hw : Released .inboundLoop w) :
    Safe (client env) correlation .inboundLoop (fun _ w => Released .inboundLoop w)
      (processIncomingValue env value) w := by
  rw [processIncomingValue]
  split
  · exact hw
  · rename_i id result hclass
    have hfrom : ReadFrom w.trace past id result := ⟨[], value, hread, by simp, hclass⟩
    refine safe_permitted fun w₁ hr _ => ⟨⟨rfl, past, hfrom.elsewhere hr.elsewhere⟩, ?_⟩
    exact fun _ _ _ hx _ => (hr.holds hw).op hx (by simp)
  · exact safe_free (fun _ => trivial) fun _ _ ha => ha.holds none hw
  · refine Safe.bind ((safe_tryAutoHandle _ hw).mono ?_)
    intro handled w₁ hw₁
    cases handled with
    | true => exact hw₁
    | false => exact safe_free (fun _ => trivial) fun _ _ ha => ha.holds none hw₁

/-- Between two rounds, no request of a handler is left. -/
def betweenRounds : Result → ClientWorld → Prop
  | .again, w => Released .inboundLoop w
  | _, _ => True

theorem safe_loopRound (hw : Released .inboundLoop w) :
    Safe (client env) correlation .inboundLoop betweenRounds (loopRound env) w := by
  refine safe_permitted fun w₁ hr _ => ⟨trivial, fun ch item s hx _ => ?_⟩
  have hw₁ := (hr.holds hw).op hx (by simp)
  match item with
  | none => trivial
  | some (.error err) => exact Safe.bind ((safe_closeDown _ _).mono fun _ _ _ => trivial)
  | some (.ok value) =>
    refine Safe.bind ((safe_processIncomingValue rfl hw₁).mono ?_)
    rintro (err | _) w₂ hw₂
    · exact Safe.bind ((safe_closeDown _ _).mono fun _ _ _ => trivial)
    · exact hw₂

end

/-! ## All runs -/

/-- What a caller's outcome stands for, whichever call it made. -/
def answerPost : Tid → Result → ClientWorld → Prop
  | .caller n, .outcome outcome, w =>
    ∀ call, .spawn (.caller n) call ∈ w.trace → CallEnded (.caller n) call outcome w
  | .inboundLoop, r, w => betweenRounds r w
  | _, _, _ => True

section

variable {env : Env} {w w' : ClientWorld}

theorem answerPost_stable (t : Tid) (r : Result) : correlation.Stable t (answerPost t r) := by
  intro w w' h hpost
  cases t with
  | inboundLoop =>
    cases r with
    | again => exact h.holds hpost
    | outcome outcome => trivial
    | exited => trivial
  | caller n =>
    cases r with
    | outcome outcome =>
      intro call hcall
      have hended := hpost call ((h.elsewhere.mem_iff rfl).1 hcall)
      exact ⟨⟨fun e he => (hended.error e he).suffix h.suffix, h.holds hended.released⟩,
        fun hc => (hended.value hc).suffix h.suffix⟩
    | again => trivial
    | exited => trivial

theorem correlated_spawn {t : Tid} {call : Call} (h : Correlated w.shared w.trace) :
    Correlated w.shared (.spawn t call :: w.trace) :=
  h.unseen ⟨rfl, rfl, rfl, rfl, rfl⟩ rfl rfl rfl rfl

/-- Dropping a task in the middle of a request leaves its entry behind, which is harmless. -/
theorem correlated_drop {t : Tid} (h : Correlated w.shared w.trace) :
    Correlated (cancel t w.shared) (.drop t :: w.trace) := by
  rw [cancel]
  split <;> exact h.unseen ⟨rfl, rfl, rfl, rfl, rfl⟩ rfl rfl rfl rfl

theorem answers_outline : Outline (client env) correlation answerPost where
  stable := answerPost_stable
  spawn := by
    intro t call w hinv _ hfirst
    refine ⟨⟨correlated_spawn hinv, fun u hu =>
      ⟨Elsewhere.push hu w rfl _, fun _ _ _ hp => hp⟩⟩, ?_⟩
    have hw : Released t (w.push (.spawn t call) w.shared) :=
      (released_first hfirst : Released t w)
    refine safe_body (fun outcome w' hpost => ?_)
      (safe_spawned (fun _ _ hr => hr.elsewhere) hfirst (safe_call call hw))
    cases t with
    | inboundLoop => trivial
    | caller n =>
      intro call' hmem
      obtain rfl := hpost.2.2 call' hmem
      exact hpost.1
  restart := by
    intro t r p w hres hpost
    cases t with
    | caller n => cases r <;> cases hres
    | inboundLoop =>
      cases r with
      | again => cases hres; exact safe_loopRound hpost
      | outcome outcome => cases hres
      | exited => cases hres
  cancel := fun t w hinv _ =>
    ⟨correlated_drop hinv, fun u hu => ⟨Elsewhere.push hu w rfl _, fun _ _ _ hp =>
      cancel_pending t w.shared ▸ hp⟩⟩

theorem correlated_start : Correlated Inner.start [] where
  nextId := rfl
  allocated := by simp [allocations]
  allocated_nodup := by simp [allocations]
  opened := by simp [openings]
  opened_nodup := by simp [openings]
  registered := by simp [registrations]
  ids_nodup := by simp [registrations]
  channels_nodup := by simp [registrations]
  pending := by simp [Inner.start]
  pending_nodup := by simp [Inner.start]
  unused := by simp [Inner.start]
  used := by simp [Inner.start]
  sent := by simp [Inner.start]
  completed := by simp [completions]
  completed_nodup := by simp [completions]
  taken := by simp [takings]
  completer := by simp

theorem answers_start : Proved (client env) correlation answerPost (ClientConfig.start env) where
  inv := correlated_start
  live := by
    intro t p ht
    cases t with
    | caller n => cases ht
    | inboundLoop =>
      cases ht
      exact safe_loopRound (released_first (by simp [ClientConfig.start]))
  absent := by simp [ClientConfig.start]

end

/-! ## One response, one call -/

/-- Where the last event of the inbound loop stands is determined by the history. -/
theorem last_unique {newer₁ newer₂ between₁ between₂ : List ClientEvent} {e₁ e₂ : ClientEvent}
    (h : newer₁ ++ e₁ :: between₁ = newer₂ ++ e₂ :: between₂)
    (he₁ : e₁.tid = .inboundLoop) (he₂ : e₂.tid = .inboundLoop)
    (hb₁ : ∀ e ∈ between₁, e.tid ≠ .inboundLoop) (hb₂ : ∀ e ∈ between₂, e.tid ≠ .inboundLoop) :
    e₁ = e₂ ∧ between₁ = between₂ := by
  rcases List.append_eq_append_iff.1 h with ⟨l, -, hl⟩ | ⟨l, -, hl⟩ <;> cases l with
  | nil => simp_all
  | cons e l =>
    simp only [List.cons_append, List.cons.injEq] at hl
    first
      | exact absurd he₂ (hb₁ e₂ (by simp [hl.2]))
      | exact absurd he₁ (hb₂ e₁ (by simp [hl.2]))

/-- **One response answers one call.** -/
theorem Correlated.answeredBy_unique {s : Inner} {tr past : List ClientEvent} {t₁ t₂ : Tid}
    {id₁ id₂ : RequestId} {tx₁ tx₂ : Nat} {reply₁ reply₂ : Reply} (h : Correlated s tr)
    (h₁ : AnsweredBy tr past t₁ id₁ tx₁ reply₁) (h₂ : AnsweredBy tr past t₂ id₂ tx₂ reply₂) :
    t₁ = t₂ ∧ id₁ = id₂ ∧ tx₁ = tx₂ ∧ reply₁ = reply₂ := by
  have hreg₁ := h₁.registered
  have hreg₂ := h₂.registered
  obtain ⟨newer₁, _, heq₁, ⟨between₁, frame₁, rfl, hb₁, -⟩, -⟩ := h₁
  obtain ⟨newer₂, _, heq₂, ⟨between₂, frame₂, rfl, hb₂, -⟩, -⟩ := h₂
  have heq := heq₁.symm.trans heq₂
  have hlist :
      (newer₁ ++ .op .inboundLoop (.pendingDispatch id₁ reply₁) (some tx₁) :: between₁)
          ++ (.op .inboundLoop .inboundRecv (some (.ok frame₁)) :: past)
        = (newer₂ ++ .op .inboundLoop (.pendingDispatch id₂ reply₂) (some tx₂) :: between₂)
          ++ (.op .inboundLoop .inboundRecv (some (.ok frame₂)) :: past) := by
    simpa using heq
  have hcut := List.append_inj_left' hlist rfl
  have hd := (last_unique hcut rfl rfl hb₁ hb₂).1
  cases hd
  have hr := List.inj_on_of_nodup_map h.channels_nodup hreg₁ hreg₂ rfl
  cases hr
  exact ⟨rfl, rfl, rfl, rfl⟩

/-! ## A response and the map -/

/-- Nothing but the entry of `id`, and its channel, has changed. -/
def OnlyEntry (id : RequestId) (s s' : Inner) : Prop :=
  (∀ p, p.1 ≠ id → (p ∈ s'.pending ↔ p ∈ s.pending)) ∧
    (∀ tx, (id, tx) ∉ s.pending → s'.oneshots tx = s.oneshots tx) ∧
    ((∀ tx, (id, tx) ∉ s.pending) → s' = s)

theorem dispatch_onlyEntry (s : Inner) (id : RequestId) (reply : Reply) :
    OnlyEntry id s (s.dispatch id reply).2 := by
  rw [Inner.dispatch]
  cases hl : s.pending.lookup id with
  | none => exact ⟨fun _ _ => Iff.rfl, fun _ _ => rfl, fun _ => rfl⟩
  | some tx =>
    have hmem := mem_of_lookup hl
    refine ⟨fun p hp => ?_, fun tx' htx' => ?_, fun hnone => absurd hmem (hnone tx)⟩
    · simp [List.mem_filter, hp]
    · refine Function.update_of_ne ?_ _ _
      rintro rfl
      exact htx' hmem

/-- Pending requests have integer ids. -/
theorem Correlated.string_not_pending {s : Inner} {tr : List ClientEvent} (h : Correlated s tr)
    (text : String) (tx : Nat) : (RequestId.string text, tx) ∉ s.pending := by
  intro hmem
  obtain ⟨⟨t, hreg⟩, -⟩ := h.pending _ hmem
  obtain ⟨-, n, hid, -⟩ := h.registered _ hreg
  cases hid

/-! ## The main result -/

/-- As long as ids last, few have been given out. -/
theorem fewIds_of_run {env : Env} {c : ClientConfig}
    (hr : (client env).Run idsLast (ClientConfig.start env) c) : FewIds c.world.trace := by
  induction hr with
  | init => exact Nat.zero_le _
  | @step c c' e _ hs hl ih =>
    rw [hs.trace_eq]
    by_cases he : allocation e = none
    · rw [FewIds, allocations, List.filterMap_cons_none he]
      exact ih
    · unfold allocation at he
      split at he
      · exact hl
      · exact absurd rfl he

/-- **Correlation.**  In every configuration a run reaches, with fewer than `2 ^ 63` ids given out:

* no id was given out twice, and no two requests were registered under one id;
* a call that has returned never returns again, and the value it returned, or the RPC error unless
  it is the injected one, was the reply of a response frame with exactly its id, read after it was
  registered;
* a response frame answers one call at most;
* a response changes nothing but the entry of its id, and nothing at all when there is none, as is
  always the case for an id that is a string. -/
theorem correlation_holds {env : Env} {c : ClientConfig}
    (hr : (client env).Run idsLast (ClientConfig.start env) c) :
    (((allocations c.world.trace).map Prod.snd).Nodup ∧
      ((registrations c.world.trace).map Registration.id).Nodup) ∧
    (∀ n outcome, c.tasks (.caller n) = .live (.ret (.outcome outcome)) →
      (∀ law c', (client env).Run law c c' → c'.tasks (.caller n) = c.tasks (.caller n)) ∧
      ∀ call, .spawn (.caller n) call ∈ c.world.trace →
        CallAnswered (.caller n) call outcome c.world) ∧
    (∀ past t₁ t₂ id₁ id₂ tx₁ tx₂ reply₁ reply₂,
      AnsweredBy c.world.trace past t₁ id₁ tx₁ reply₁ →
      AnsweredBy c.world.trace past t₂ id₂ tx₂ reply₂ →
        t₁ = t₂ ∧ id₁ = id₂ ∧ tx₁ = tx₂ ∧ reply₁ = reply₂) ∧
    (∀ t id reply a c', (client env).Step c (.op t (.pendingDispatch id reply) a) c' →
      OnlyEntry id c.world.shared c'.world.shared ∧
      ∀ text, id = .string text → c'.world.shared = c.world.shared) := by
  have hproved := answers_outline.run answers_start (hr.mono fun _ _ _ => trivial)
  have hinv : Correlated c.world.shared c.world.trace := hproved.inv
  have hfew := fewIds_of_run hr
  refine ⟨⟨hinv.allocated_nodup hfew, hinv.ids_nodup hfew⟩, ?_, ?_, ?_⟩
  · intro n outcome ht
    exact ⟨fun law c' hr' => (hr'.returned ht).trans ht.symm,
      fun call hcall => (hproved.returned ht call hcall).answered⟩
  · exact fun _ _ _ _ _ _ _ _ _ h₁ h₂ => hinv.answeredBy_unique h₁ h₂
  · intro t id reply a c' hs
    cases hs with
    | @op _ _ _ ch _ s ht hx =>
      obtain rfl : (c.world.shared.dispatch id reply).2 = s :=
        congrArg Prod.snd (Option.some.inj hx)
      refine ⟨dispatch_onlyEntry _ id reply, ?_⟩
      rintro text rfl
      exact (dispatch_onlyEntry _ _ reply).2.2 fun tx => hinv.string_not_pending text tx

/-- A run that is short gives out few ids. -/
theorem run_idsLast {env : Env} {c : ClientConfig}
    (hr : (client env).Run Machine.anyStep (ClientConfig.start env) c)
    (hlen : c.world.trace.length ≤ 2 ^ 63) :
    (client env).Run idsLast (ClientConfig.start env) c := by
  induction hr with
  | init => exact .init
  | @step c c' e _ hs _ ih =>
    rw [hs.trace_eq, List.length_cons] at hlen
    refine (ih (by omega)).step hs ?_
    unfold idsLast
    split
    · have : (allocations c.world.trace).length ≤ c.world.trace.length :=
        List.length_filterMap_le _ _
      omega
    · trivial

/-- One request and its response. -/
def answeredSchedule : List (Machine.Label Tid Call Choice) :=
  [.spawn (.caller 0) (.sendRawRequest methodInitialize .null none)]
    ++ List.replicate 5 (.run (.caller 0) .proceed)
    ++ [.run .inboundLoop (.deliver (some (.ok (resultFrame (.integer 1) (.bool true))))),
      .run .inboundLoop .proceed, .run (.caller 0) .proceed]

theorem correlation_holds_answered :
    ∃ c : ClientConfig, c.tasks (.caller 0) = .live (.ret (.outcome (.ok (.bool true)))) ∧
      Answered c.world.trace (.caller 0) (.ok (.bool true)) := by
  obtain ⟨c, hc, ht, hlen, hspawn⟩ : ∃ c : ClientConfig,
      (client defaultEnv).runLabels (ClientConfig.start defaultEnv) answeredSchedule = some c ∧
      c.tasks (.caller 0) = .live (.ret (.outcome (.ok (.bool true)))) ∧
      c.world.trace.length = 9 ∧
      .spawn (.caller 0) (.sendRawRequest methodInitialize .null none) ∈ c.world.trace :=
    ⟨_, rfl, rfl, rfl, by simp [World.push]⟩
  have hrun := run_idsLast (Machine.runLabels_run hc) (by omega)
  exact ⟨c, ht, (((correlation_holds hrun).2.1 0 _ ht).2 _ hspawn).2 trivial _ rfl⟩

end CodexSdk

import CodexSdk.Client.Rules
import Mathlib.Data.List.Basic

/-!
# How the inbound loop ends

What the loop does is read off its own events, `loopEvents`.  It serves until it reads something
that ends it: an error, a frame nothing can be made of, or the end of the stream.  After the first
two it takes all requests out of the map, completes each of them with an error, announces
`TransportClosed`, and exits; after the end of the stream it exits at once.  `ClosedDown` and
`EndedSilently` are these two histories, and `closing_outline` shows that there is no third.
-/

set_option autoImplicit false

namespace CodexSdk

open Json Interleave

/-! ## The events of the loop -/

def loopEvents (tr : List ClientEvent) : List ClientEvent :=
  tr.filter fun e => e.tid = .inboundLoop

/-- What the loop says when it closes down after this item. -/
def closingMessage (env : Env) : Option (Except ClientError Value) → Option String
  | some (.ok value) => match classifyIncoming value with
    | .ok _ => none
    | .error err => some s!"processing inbound frame failed: {err.display env.texts}"
  | some (.error err) => some s!"transport error: {err.display env.texts}"
  | none => none

/-- The loop goes on after this event. -/
def KeepsServing : ClientEvent → Prop
  | .op .inboundLoop .inboundRecv item => ¬ EndsLoop item
  | .op .inboundLoop .pendingTake _ => False
  | _ => True

/-- The loop has neither read anything that ends it nor taken the requests out of the map. -/
def Serving (tr : List ClientEvent) : Prop := ∀ e ∈ tr, KeepsServing e

/-- The completion of an entry that was taken out of the map. -/
def failure (message : String) (entry : RequestId × Nat) : ClientEvent :=
  .op .inboundLoop (.oneshotSend entry.2 (.error (transportFailure message))) ()

/-- The loop closed down: the last it did was to read an item, to take the entries out of the map,
to complete each of them, and to announce it. -/
structure ClosedDownBy (env : Env) (item : Option (Except ClientError Value)) (message : String)
    (entries : List (RequestId × Nat)) (tr : List ClientEvent) : Prop where
  cause : closingMessage env item = some message
  events : ∃ served, Serving served ∧ loopEvents tr =
    .op .inboundLoop (.eventSend .transportClosed) () ::
      ((entries.map (failure message)).reverse ++
        .op .inboundLoop .pendingTake entries :: .op .inboundLoop .inboundRecv item :: served)

def ClosedDown (env : Env) (tr : List ClientEvent) : Prop :=
  ∃ item message entries, ClosedDownBy env item message entries tr

/-- The last the loop did was to find the stream ended. -/
def EndedSilently (tr : List ClientEvent) : Prop :=
  ∃ served, Serving served ∧ loopEvents tr = .op .inboundLoop .inboundRecv none :: served

section

variable {env : Env} {tr : List ClientEvent} {w w' : ClientWorld}

@[simp] theorem loopEvents_own (o : Op) (a : o.Ans) :
    loopEvents (.op .inboundLoop o a :: tr) = .op .inboundLoop o a :: loopEvents tr := rfl

/-- What others do is not seen. -/
theorem loopEvents_elsewhere (h : Elsewhere .inboundLoop w w') :
    loopEvents w'.trace = loopEvents w.trace := by
  obtain ⟨new, hw', hnew⟩ := h
  have hnone : loopEvents new = [] := by
    rw [loopEvents, List.filter_eq_nil_iff]
    simpa using hnew
  rw [loopEvents] at hnone
  rw [loopEvents, loopEvents, hw', List.filter_append, hnone, List.nil_append]

theorem keepsServing_other {e : ClientEvent} (h : e.tid ≠ .inboundLoop) : KeepsServing e := by
  unfold KeepsServing
  split
  · exact absurd rfl h
  · exact absurd rfl h
  · trivial

theorem Serving.cons (h : Serving tr) {e : ClientEvent} (he : KeepsServing e) :
    Serving (e :: tr) := List.forall_mem_cons.2 ⟨he, h⟩

theorem Serving.elsewhere (h : Serving w.trace) (hr : Elsewhere .inboundLoop w w') :
    Serving w'.trace := by
  obtain ⟨new, hw', hnew⟩ := hr
  intro e he
  rw [hw'] at he
  rcases List.mem_append.1 he with he | he
  · exact keepsServing_other (hnew e he)
  · exact h e he

/-- Serving is a matter of the loop's own events. -/
theorem serving_loopEvents : Serving (loopEvents tr) ↔ Serving tr := by
  constructor
  · intro h e he
    by_cases htid : e.tid = .inboundLoop
    · exact h e (List.mem_filter.2 ⟨he, by simpa using htid⟩)
    · exact keepsServing_other htid
  · exact fun h e he => h e (List.mem_filter.1 he).1

/-- What closes the loop down ends it. -/
theorem endsLoop_of_message {item : Option (Except ClientError Value)} {message : String}
    (h : closingMessage env item = some message) : EndsLoop item := by
  unfold closingMessage at h
  split at h
  · rename_i value
    split at h
    · cases h
    · rename_i err herr
      exact ⟨err, herr⟩
  · trivial
  · cases h

/-- **The history of a loop that closed down falls in two** where it took the entries out of the
map. -/
theorem ClosedDownBy.split {item : Option (Except ClientError Value)} {message : String}
    {entries : List (RequestId × Nat)} (h : ClosedDownBy env item message entries tr) :
    ∃ after before served, tr = after ++ .op .inboundLoop .pendingTake entries :: before ∧
      loopEvents after = .op .inboundLoop (.eventSend .transportClosed) () ::
        (entries.map (failure message)).reverse ∧
      loopEvents before = .op .inboundLoop .inboundRecv item :: served ∧ Serving served := by
  obtain ⟨served, hserved, hevents⟩ := h.events
  have hmem : (.op .inboundLoop .pendingTake entries : ClientEvent) ∈ tr := by
    have hloop : (.op .inboundLoop .pendingTake entries : ClientEvent) ∈ loopEvents tr := by
      simp [hevents]
    exact (List.mem_filter.1 hloop).1
  obtain ⟨after, before, rfl⟩ := List.append_of_mem hmem
  have hsplit : loopEvents after ++ .op .inboundLoop .pendingTake entries :: loopEvents before
      = (.op .inboundLoop (.eventSend .transportClosed) () ::
          (entries.map (failure message)).reverse) ++
        .op .inboundLoop .pendingTake entries :: .op .inboundLoop .inboundRecv item :: served := by
    rw [← loopEvents_own, List.cons_append, ← hevents, loopEvents, loopEvents, loopEvents,
      List.filter_append]
  have hserved' : (.op .inboundLoop .pendingTake entries : ClientEvent) ∉ served :=
    fun hmem => hserved _ hmem
  obtain ⟨hafter, -, hbefore⟩ := (List.append_cons_inj_of_notMem (by simp [failure])
    (by simpa using hserved')).1 hsplit.symm
  exact ⟨after, before, served, rfl, hafter.symm, hbefore.symm, hserved⟩

theorem ClosedDown.elsewhere (h : ClosedDown env w.trace) (hr : Elsewhere .inboundLoop w w') :
    ClosedDown env w'.trace := by
  obtain ⟨item, message, entries, hmessage, hevents⟩ := h
  exact ⟨item, message, entries, hmessage, by rwa [loopEvents_elsewhere hr]⟩

theorem EndedSilently.elsewhere (h : EndedSilently w.trace) (hr : Elsewhere .inboundLoop w w') :
    EndedSilently w'.trace := by
  rwa [EndedSilently, loopEvents_elsewhere hr]

end

/-! ## Orderly histories -/

/-- Somebody's frame has been refused. -/
def Refused (tr : List ClientEvent) : Prop := ∃ t frame, .op t (.outboundSend frame) false ∈ tr

/-- The callers do what calls do, the loop reads only while it serves, what is in the map was
registered after the last time it was emptied, and `TransportClosed` is announced by a loop that
closes down, or after a frame was refused. -/
structure Orderly (s : Inner) (tr : List ClientEvent) : Prop where
  callers : ∀ n o a, .op (.caller n) o a ∈ tr → o.OfCalls
  reads : ∀ newer item older, tr = newer ++ .op .inboundLoop .inboundRecv item :: older →
    Serving older
  waiting : ∀ p ∈ s.pending, ∀ after t entries before,
    tr = after ++ .op t .pendingTake entries :: before →
      ∃ u, .op u (.pendingInsert p.1 p.2) () ∈ after
  announced : ∀ t, .op t (.eventSend .transportClosed) () ∈ tr → ¬ Serving tr ∨ Refused tr

/-- What a task has to know before it performs an operation. -/
structure Allowed (t : Tid) (w : ClientWorld) (o : Op) : Prop where
  caller : ∀ n, t = .caller n → o.OfCalls
  read : o = .inboundRecv → Serving w.trace
  announce : o = .eventSend .transportClosed → ¬ Serving w.trace ∨ Refused w.trace

section

variable {s s' : Inner} {tr : List ClientEvent} {e : ClientEvent} {t : Tid}

/-- An event that takes nothing out of the map and puts nothing in. -/
theorem Orderly.waiting_cons (h : Orderly s tr) (hs : s'.pending = s.pending)
    (he : ∀ t entries, e ≠ .op t .pendingTake entries) : ∀ p ∈ s'.pending,
      ∀ after t entries before, e :: tr = after ++ .op t .pendingTake entries :: before →
        ∃ u, .op u (.pendingInsert p.1 p.2) () ∈ after := by
  intro p hp after t entries before htr
  cases after with
  | nil => exact absurd (List.cons.inj htr).1 (he t entries)
  | cons e' after =>
    obtain ⟨-, htail⟩ := List.cons.inj htr
    obtain ⟨u, hu⟩ := h.waiting p (hs ▸ hp) after t entries before htail
    exact ⟨u, List.mem_cons_of_mem _ hu⟩

/-- Spawning and dropping tasks. -/
theorem Orderly.plain (h : Orderly s tr) (he : ∀ t o a, e ≠ .op t o a)
    (hs : s'.pending = s.pending) : Orderly s' (e :: tr) where
  callers n o a hmem := by
    rcases List.mem_cons.1 hmem with heq | hmem
    · exact absurd heq.symm (he _ _ _)
    · exact h.callers n o a hmem
  reads := by
    intro newer item older htr
    cases newer with
    | nil => exact absurd (List.cons.inj htr).1 (he _ _ _)
    | cons e' newer => exact h.reads newer item older (List.cons.inj htr).2
  waiting := h.waiting_cons hs fun t entries => he t _ entries
  announced := by
    intro t hmem
    rcases List.mem_cons.1 hmem with heq | hmem
    · exact absurd heq.symm (he _ _ _)
    · rcases h.announced t hmem with h' | ⟨u, frame, h'⟩
      · exact .inl fun hs => h' fun e' he' => hs e' (List.mem_cons_of_mem _ he')
      · exact .inr ⟨u, frame, List.mem_cons_of_mem _ h'⟩

/-- **Every allowed operation keeps the history orderly.** -/
theorem Orderly.op {w : ClientWorld} (h : Orderly w.shared w.trace) {o : Op} {ch : Choice}
    {a : o.Ans} (ho : Allowed t w o) (hx : exec t o ch w.shared = some (a, s')) :
    Orderly s' (.op t o a :: w.trace) where
  callers := by
    intro n o' a' hmem
    rcases List.mem_cons.1 hmem with heq | hmem
    · cases heq
      exact ho.caller n rfl
    · exact h.callers n o' a' hmem
  reads := by
    intro newer item older htr
    cases newer with
    | nil =>
      cases htr
      exact ho.read rfl
    | cons e' newer => exact h.reads newer item older (List.cons.inj htr).2
  waiting := by
    intro p hp after u entries before htr
    cases after with
    | nil =>
      cases htr
      cases hx
      cases hp
    | cons e' after =>
      obtain ⟨rfl, htail⟩ := List.cons.inj htr
      rcases exec_pending hx hp with hp | rfl
      · obtain ⟨u', hu'⟩ := h.waiting p hp after u entries before htail
        exact ⟨u', List.mem_cons_of_mem _ hu'⟩
      · exact ⟨t, List.mem_cons_self⟩
  announced := by
    intro u hmem
    have hcons : ¬ Serving w.trace ∨ Refused w.trace →
        ¬ Serving (.op t o a :: w.trace) ∨ Refused (.op t o a :: w.trace) := by
      rintro (h' | ⟨u, frame, h'⟩)
      · exact .inl fun hs => h' fun e' he' => hs e' (List.mem_cons_of_mem _ he')
      · exact .inr ⟨u, frame, List.mem_cons_of_mem _ h'⟩
    rcases List.mem_cons.1 hmem with heq | hmem
    · cases heq
      exact hcons (ho.announce rfl)
    · exact hcons (h.announced u hmem)

end

/-! ## The contract -/

/-- Every history is orderly; what the loop has done is its own. -/
def closing : Contract Tid Call Op Inner Op.Ans where
  inv w := Orderly w.shared w.trace
  rely := Elsewhere
  law := Machine.anyStep
  rely_refl := Elsewhere.refl
  rely_trans t := Elsewhere.trans t

section

variable {env : Env} {t : Tid} {α : Type} {w : ClientWorld}

theorem closing_keeps : Keeps closing Allowed :=
  fun _ w _ _ _ s h ho hx _ => ⟨Orderly.op h ho hx, fun _ hu => Elsewhere.push hu w rfl s⟩

theorem Op.OfCalls.allowed {o : Op} (ho : o.OfCalls) : Allowed t w o :=
  ⟨fun _ _ => ho, by rintro rfl; exact ho.elim, by rintro rfl; exact ho.elim⟩

/-- The loop may do everything but read, take, and announce its end. -/
theorem allowed_loop {o : Op} (hread : o ≠ .inboundRecv) (hsend : o ≠ .eventSend .transportClosed) :
    Allowed .inboundLoop w o :=
  ⟨by rintro n ⟨⟩, fun h => absurd h hread, fun h => absurd h hsend⟩

theorem serving_stable : closing.Stable .inboundLoop fun w => Serving w.trace :=
  fun _ _ hr h => Serving.elsewhere h hr

theorem Op.OfCalls.keepsServing {o : Op} (ho : o.OfCalls) (a : o.Ans) :
    KeepsServing (.op t o a) := by
  unfold KeepsServing
  split
  · rename_i heq
    cases heq
    exact ho.elim
  · rename_i heq
    cases heq
    exact ho.elim
  · trivial

/-- What calls do does not matter here, whoever makes them. -/
theorem closing_calls {p : ClientM α} (hp : p.Only Op.OfCalls) (w : ClientWorld) :
    Safe (client env) closing t (fun _ _ => True) p w :=
  Safe.of_only (J := fun _ => True) (fun _ _ _ _ => trivial) hp
    (fun o w ch a s ho hi _ hx hl =>
      ⟨closing_keeps t w o ch a s hi ho.allowed hx hl, trivial⟩) trivial

/-- In a handler, the loop goes on serving. -/
theorem closing_handler {p : ClientM α} (hp : p.Only Op.OfCalls) (hw : Serving w.trace) :
    Safe (client env) closing .inboundLoop (fun _ w => Serving w.trace) p w :=
  Safe.of_only serving_stable hp
    (fun o w ch a s ho hi hs hx hl => ⟨closing_keeps _ w o ch a s hi ho.allowed hx hl,
      Serving.cons hs (ho.keepsServing a)⟩) hw

/-- One operation of a loop that goes on serving. -/
theorem closing_serve {o : Op} {k : o.Ans → ClientM α} {Q : α → ClientWorld → Prop}
    (ho : ∀ w, Allowed .inboundLoop w o) (hserves : ∀ a, KeepsServing (.op .inboundLoop o a))
    (hw : Serving w.trace)
    (hk : ∀ a w', Serving w'.trace → .op .inboundLoop o a ∈ w'.trace →
      Safe (client env) closing .inboundLoop Q (k a) w') :
    Safe (client env) closing .inboundLoop Q (perform o >>= k) w :=
  safe_op closing_keeps fun _ hr _ => ⟨ho _, fun _ a _ _ _ _ =>
    hk a _ ((hw.elsewhere hr).cons (hserves a)) List.mem_cons_self⟩

theorem closing_autoHandle (request : ServerRequestEvent) (hw : Serving w.trace) :
    Safe (client env) closing .inboundLoop (fun _ w => Serving w.trace)
      (tryAutoHandleServerRequest env request) w := by
  cases request with
  | unknown => exact hw
  | request kind id params =>
    refine closing_serve (fun _ => allowed_loop (by simp) (by simp)) (fun _ => trivial) hw ?_
    intro handler w₁ hw₁ _
    cases handler with
    | none => exact hw₁
    | some handler =>
      refine Safe.bind ((closing_handler (script_only _) hw₁).mono fun response w₂ hw₂ => ?_)
      refine closing_serve (fun _ => allowed_loop (by simp) (by simp)) (fun _ => trivial) hw₂ ?_
      intro sent w₃ hw₃ hmem
      cases sent with
      | true => exact hw₃
      | false =>
        refine safe_op closing_keeps fun w₄ hr _ =>
          ⟨⟨by rintro n ⟨⟩, by simp, fun _ => .inr ?_⟩, ?_⟩
        · exact ⟨.inboundLoop, _, hr.suffix.subset hmem⟩
        · exact fun _ _ _ _ _ _ => (hw₃.elsewhere hr).cons trivial

/-- A frame that ends the loop is not touched; every other one is served. -/
theorem closing_process (value : Value) (hw : ¬ EndsLoop (some (.ok value)) → Serving w.trace)
    {history : List ClientEvent} (hhistory : loopEvents w.trace = history) :
    Safe (client env) closing .inboundLoop (fun r w => match r with
      | .ok _ => Serving w.trace
      | .error err => classifyIncoming value = .error err ∧ loopEvents w.trace = history)
      (processIncomingValue env value) w := by
  rw [processIncomingValue]
  split
  · rename_i err herr
    exact ⟨herr, hhistory⟩
  all_goals
    rename_i hclass
    have hserving := hw (by rintro ⟨err, herr⟩; rw [hclass] at herr; cases herr)
  · exact closing_serve (fun _ => allowed_loop (by simp) (by simp)) (fun _ => trivial) hserving
      fun _ _ hw' _ => hw'
  · exact closing_serve (fun _ => allowed_loop (by simp) (by simp)) (fun _ => trivial) hserving
      fun _ _ hw' _ => hw'
  · refine Safe.bind ((closing_autoHandle _ hserving).mono fun handled w₁ hw₁ => ?_)
    cases handled with
    | true => exact hw₁
    | false =>
      exact closing_serve (fun _ => allowed_loop (by simp) (by simp)) (fun _ => trivial) hw₁
        fun _ _ hw' _ => hw'

/-- The history of the loop, one operation further. -/
theorem closing_step {o : Op} {k : o.Ans → ClientM α} {Q : α → ClientWorld → Prop}
    {history : List ClientEvent} (hhistory : loopEvents w.trace = history)
    (ho : ∀ w, loopEvents w.trace = history → Allowed .inboundLoop w o)
    (hk : ∀ a w', loopEvents w'.trace = .op .inboundLoop o a :: history →
      Safe (client env) closing .inboundLoop Q (k a) w') :
    Safe (client env) closing .inboundLoop Q (perform o >>= k) w := by
  refine safe_op closing_keeps fun w' hr _ => ?_
  have hhistory' : loopEvents w'.trace = history := (loopEvents_elsewhere hr).trans hhistory
  refine ⟨ho w' hhistory', fun ch a s _ _ _ => hk a _ ?_⟩
  rw [World.push_trace, loopEvents_own, hhistory']

theorem closing_failEntries (message : String) (entries : List (RequestId × Nat))
    {history : List ClientEvent} {w : ClientWorld} (hhistory : loopEvents w.trace = history) :
    Safe (client env) closing .inboundLoop
      (fun _ w => loopEvents w.trace = (entries.map (failure message)).reverse ++ history)
      (failEntries (transportFailure message) entries) w := by
  induction entries generalizing w history with
  | nil => exact hhistory
  | cons entry entries ih =>
    refine closing_step hhistory (fun _ _ => allowed_loop (by simp) (by simp)) fun a w' hw' => ?_
    refine (ih hw').mono fun _ w'' hw'' => ?_
    rw [hw'', List.map_cons, List.reverse_cons, List.append_assoc]
    rfl

/-- Closing down, in the order of the source. -/
theorem closing_closeDown {item : Option (Except ClientError Value)} {message : String}
    {served : List ClientEvent} (hmessage : closingMessage env item = some message)
    (hserved : Serving served)
    (hhistory : loopEvents w.trace = .op .inboundLoop .inboundRecv item :: served) :
    Safe (client env) closing .inboundLoop (fun _ w => ClosedDown env w.trace)
      (closeDown message) w := by
  have htaken : Safe (client env) closing .inboundLoop (fun _ w => ∃ entries, loopEvents w.trace =
      (entries.map (failure message)).reverse ++
        .op .inboundLoop .pendingTake entries :: .op .inboundLoop .inboundRecv item :: served)
      (failAllPending message) w := by
    refine closing_step hhistory (fun _ _ => allowed_loop (by simp) (by simp))
      fun entries w' hw' => ?_
    exact (closing_failEntries message entries hw').mono fun _ w'' hw'' => ⟨entries, hw''⟩
  refine Safe.bind (htaken.mono ?_)
  rintro _ w₁ ⟨entries, hw₁⟩
  refine closing_step hw₁ (fun w₂ hw₂ => ⟨by rintro n ⟨⟩, by simp, fun _ => .inl fun hs => ?_⟩) ?_
  · -- the item that ended the loop is in its history
    have hmem : (.op .inboundLoop .inboundRecv item : ClientEvent) ∈ loopEvents w₂.trace := by
      simp [hw₂]
    exact hs _ (List.mem_filter.1 hmem).1 (endsLoop_of_message hmessage)
  · exact fun _ w₃ hw₃ => ⟨item, message, entries, hmessage, served, hserved, hw₃⟩

/-- What a round of the loop comes to. -/
def roundPost (env : Env) : Result → ClientWorld → Prop
  | .again, w => Serving w.trace
  | .exited, w => ClosedDown env w.trace ∨ EndedSilently w.trace
  | .outcome _, _ => True

/-- **A round of the loop** serves what it has read, or ends. -/
theorem closing_loopRound (hw : Serving w.trace) :
    Safe (client env) closing .inboundLoop (roundPost env) (loopRound env) w := by
  refine safe_op closing_keeps fun w₁ hr _ =>
    ⟨⟨by rintro n ⟨⟩, fun _ => hw.elsewhere hr, by simp⟩, fun ch item s hx _ _ => ?_⟩
  have hserved : Serving (loopEvents w₁.trace) := serving_loopEvents.2 (hw.elsewhere hr)
  match item with
  | none => exact .inr ⟨_, hserved, rfl⟩
  | some (.error err) =>
    have hmessage : closingMessage env (some (.error err)) = some _ := rfl
    exact Safe.bind ((closing_closeDown hmessage hserved rfl).mono fun _ _ h => .inl h)
  | some (.ok value) =>
    refine Safe.bind ((closing_process value (fun hends => ?_) rfl).mono ?_)
    · exact (hw.elsewhere hr).cons hends
    · rintro (err | _) w₂ hw₂
      · obtain ⟨hclass, hhistory⟩ := hw₂
        have hmessage : closingMessage env (some (.ok value))
            = some s!"processing inbound frame failed: {err.display env.texts}" := by
          rw [closingMessage, hclass]
        exact Safe.bind ((closing_closeDown hmessage hserved hhistory).mono fun _ _ h => .inl h)
      · exact hw₂

end

/-! ## All runs -/

/-- What the loop promises; the callers promise nothing. -/
def closingPost (env : Env) : Tid → Result → ClientWorld → Prop
  | .inboundLoop, r, w => roundPost env r w
  | .caller _, _, _ => True

theorem closingPost_stable (env : Env) (t : Tid) (r : Result) :
    closing.Stable t (closingPost env t r) := by
  intro w w' hr h
  cases t with
  | caller n => trivial
  | inboundLoop =>
    cases r with
    | again => exact Serving.elsewhere h hr
    | exited => exact h.imp (·.elsewhere hr) (·.elsewhere hr)
    | outcome outcome => trivial

theorem closing_outline (env : Env) : Outline (client env) closing (closingPost env) where
  stable := closingPost_stable env
  spawn := by
    intro t call w hinv _ _
    refine ⟨⟨Orderly.plain hinv (by simp) rfl, fun u hu => Elsewhere.push hu w rfl _⟩, ?_⟩
    refine safe_body (Q := fun _ _ => True) (fun outcome w' _ => ?_)
      (closing_calls (call_only call) _)
    cases t <;> trivial
  restart := by
    intro t r p w hres hpost
    cases t with
    | caller n => cases r <;> cases hres
    | inboundLoop => cases r <;> cases hres; exact closing_loopRound hpost
  cancel := fun t w hinv _ => ⟨Orderly.plain hinv (by simp) (cancel_pending t w.shared),
    fun u hu => Elsewhere.push hu w rfl _⟩

theorem closing_start (env : Env) :
    Proved (client env) closing (closingPost env) (ClientConfig.start env) where
  inv := ⟨by simp [ClientConfig.start], by simp [ClientConfig.start],
    by simp [ClientConfig.start, Inner.start], by simp [ClientConfig.start]⟩
  live := by
    intro t p ht
    cases t with
    | caller n => cases ht
    | inboundLoop =>
      cases ht
      exact closing_loopRound (by simp [Serving, ClientConfig.start])
  absent := by simp [ClientConfig.start]

section

variable {env : Env} {c : ClientConfig}

/-- The history of every run is orderly. -/
theorem history_orderly (hr : (client env).Run Machine.anyStep (ClientConfig.start env) c) :
    Orderly c.world.shared c.world.trace :=
  ((closing_outline env).run (closing_start env) hr).inv

/-- **A loop that has exited closed down**, or found the stream ended. -/
theorem exited_cases (hr : (client env).Run Machine.anyStep (ClientConfig.start env) c)
    (ht : c.tasks .inboundLoop = .live (.ret .exited)) :
    ClosedDown env c.world.trace ∨ EndedSilently c.world.trace :=
  ((closing_outline env).run (closing_start env) hr).returned ht

/-- A loop that waits for its next frame has read nothing that ends it: it would have exited. -/
theorem waiting_serving (hr : (client env).Run Machine.anyStep (ClientConfig.start env) c)
    (ht : c.tasks .inboundLoop = .live (loopRound env)) : Serving c.world.trace := by
  have hproved := (closing_outline env).run (closing_start env) hr
  -- it may find the stream ended next
  have hnext := (hproved.live _ _ ht c.world (Elsewhere.refl _ _) hproved.inv (.deliver none) none
    c.world.shared rfl trivial).2
  rcases hnext with ⟨_, _, _, _, _, _, hevents⟩ | ⟨served, hserved, hevents⟩
  · cases (List.cons.inj hevents).1
  · obtain rfl := (List.cons.inj hevents).2
    exact serving_loopEvents.1 hserved

end

end CodexSdk

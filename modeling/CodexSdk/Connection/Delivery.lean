import CodexSdk.Client.ServerRequests
import CodexSdk.Connection.Ownership
import CodexSdk.Interleave.Account

/-!
# What goes in comes out

Between a client and its transport are two queues, the tasks that fill and empty them, and the
inbound loop with everything it does about a frame.  None of them loses a frame, has one twice or
lets one overtake another:

* the frames the calls were told are accepted are those the writer has taken, and those still
  queued (`sent_in_order`);
* what the loop has received and what is queued for it is what the reader made of the frames of
  the transport, with at most one report of the writer among it (`received_in_order`);
* every response among them has been dispatched and every notification published, in the order of
  the frames, up to the frame the loop is at (`handled_in_order`).
-/

set_option autoImplicit false

namespace CodexSdk

open Json Interleave

namespace Connection

/-! ## Frames out -/

/-- The frame of a send that was accepted. -/
def acceptedFrame : (o : Op) → o.Ans → List Value
  | .outboundSend frame, true => [frame]
  | _, _ => []

/-- The frames the calls were told are on their way, in order. -/
def accepted (tr : List ClientEvent) : List Value := seen acceptedFrame tr

/-- What a step takes off the outbound queue, and what came of sending it. -/
def takenBy (c : Connection) : Label → List (Value × Except ClientError Unit)
  | .write result => c.outbound.head?.toList.map fun frame => (frame, result)
  | .pull _ | .act _ => []

/-- A run of the connection, with all its writer has taken, in order. -/
inductive Sends (env : Env) (wire : Wire) : List (Value × Except ClientError Unit) →
    Connection → Prop
  | start : Sends env wire [] (.start env)
  | step {sent : List (Value × Except ClientError Unit)} {c c' : Connection}
      (h : Sends env wire sent c) (label : Label) (hs : c.step env wire label = some c') :
      Sends env wire (sent ++ c.takenBy label) c'

/-- The queues are bounded. -/
structure Bounded (c : Connection) : Prop where
  inbound : c.inbound.length ≤ inboundCapacity
  outbound : c.outbound.length ≤ outboundCapacity

/-- The writer goes on until a frame fails. -/
structure WriterStops (sent : List (Value × Except ClientError Unit)) (c : Connection) : Prop where
  going : c.writing = true → ∀ x ∈ sent, x.2 = .ok ()
  stopped : c.writing = false → ∃ earlier frame err, sent = earlier ++ [(frame, .error err)] ∧
    ∀ x ∈ earlier, x.2 = .ok ()

section

variable {env : Env} {wire : Wire} {c c' : Connection} {e : ClientEvent}
  {sent : List (Value × Except ClientError Unit)}

/-- Every reachable state is reached by such a run. -/
theorem Reachable.sends (h : c.Reachable env wire) : ∃ sent, Sends env wire sent c := by
  induction h with
  | start => exact ⟨[], .start⟩
  | step _ label hs ih =>
    obtain ⟨sent, hsent⟩ := ih
    exact ⟨_, hsent.step label hs⟩

/-- A send to the inbound queue, with everything it leaves alone. -/
theorem queue_spec {item : Except ClientError Value} {r : Connection × Bool}
    (h : c.queue item = some r) (hb : c.Bounded) :
    r.1.outbound = c.outbound ∧ r.1.Bounded ∧
      (c.exited = false ∧ r.1.inbound = c.inbound ++ [item] ∨
        c.exited = true ∧ r.1.inbound = c.inbound) := by
  rw [Connection.queue] at h
  split at h
  · rename_i hexit
    cases h
    exact ⟨rfl, hb, .inr ⟨hexit, rfl⟩⟩
  · rename_i hexit
    split at h
    · cases h
      refine ⟨rfl, ⟨?_, hb.outbound⟩, .inl ⟨by simpa using hexit, rfl⟩⟩
      simp only [List.length_append, List.length_singleton]
      omega
    · cases h

/-- A round of the reader: what it makes of the frame is queued as long as the loop is there. -/
theorem pull_spec {frame : RawFrame} (h : c.pull wire frame = some c') (hb : c.Bounded) :
    c'.outbound = c.outbound ∧ c'.Bounded ∧
      (c.exited = false ∧ c'.inbound = c.inbound ++ (frame.item wire).toList ∨
        c.exited = true ∧ c'.inbound = c.inbound) := by
  rw [Connection.pull] at h
  split at h
  · have hb' : Connection.Bounded { c with pulled := frame :: c.pulled } :=
      ⟨hb.inbound, hb.outbound⟩
    cases frame with
    | payload bytes =>
      obtain ⟨r, hr, rfl⟩ := Option.map_eq_some_iff.1 h
      obtain ⟨hout, hbounded, hin⟩ := queue_spec hr hb'
      exact ⟨hout, ⟨hbounded.inbound, hbounded.outbound⟩, hin⟩
    | closed err =>
      obtain ⟨r, hr, rfl⟩ := Option.map_eq_some_iff.1 h
      obtain ⟨hout, hbounded, hin⟩ := queue_spec hr hb'
      exact ⟨hout, ⟨hbounded.inbound, hbounded.outbound⟩, hin⟩
    | skip => cases h; exact ⟨rfl, hb', by simp [RawFrame.item]⟩
    | eof => cases h; exact ⟨rfl, ⟨hb.inbound, hb.outbound⟩, by simp [RawFrame.item]⟩
  · cases h

/-- A round of the writer: it takes the first frame of the queue, and if sending it fails it reports
that to the loop and stops. -/
theorem write_spec {result : Except ClientError Unit} (h : c.write result = some c')
    (hb : c.Bounded) :
    (∃ frame, c.outbound = frame :: c'.outbound) ∧ c'.Bounded ∧
      (result = .ok () ∧ c'.writing = true ∧ c'.inbound = c.inbound ∨
        ∃ err, result = .error err ∧ c'.writing = false ∧
          (c.exited = false ∧ c'.inbound = c.inbound ++ [.error err] ∨
            c.exited = true ∧ c'.inbound = c.inbound)) := by
  rw [Connection.write] at h
  split at h
  · rename_i hwriting
    split at h
    · cases h
    · rename_i frame outbound hout
      have hlen := hb.outbound
      rw [hout, List.length_cons] at hlen
      have hb' : Connection.Bounded { c with outbound := outbound } := by
        refine ⟨hb.inbound, ?_⟩
        show outbound.length ≤ _
        omega
      cases result with
      | ok u =>
        cases h
        exact ⟨⟨frame, hout⟩, hb', .inl ⟨rfl, hwriting, rfl⟩⟩
      | error err =>
        obtain ⟨r, hr, rfl⟩ := Option.map_eq_some_iff.1 h
        obtain ⟨hrest, hbounded, hin⟩ := queue_spec hr hb'
        exact ⟨⟨frame, hout.trans (congrArg _ hrest.symm)⟩,
          ⟨hbounded.inbound, hbounded.outbound⟩, .inr ⟨err, rfl, rfl, hin⟩⟩
  · cases h

/-- What a step of the client does to the outbound queue: the frames a call is told are accepted
join its end, where there is room for them. -/
structure Queues (c c' : Connection) : Prop where
  bounded : c'.Bounded
  outbound : ∃ new, c'.outbound = c.outbound ++ new ∧
    accepted c'.config.world.trace = accepted c.config.world.trace ++ new

theorem run_queues {t : Tid} {ch : Choice} (h : c.act env (.run t ch) = some c')
    (hb : c.Bounded) : Queues c c' := by
  rw [Connection.act] at h
  split at h
  · rename_i o k ht
    obtain ⟨ch', hch, h⟩ := Option.bind_eq_some_iff.1 h
    obtain ⟨config', hstep, rfl⟩ := Option.map_eq_some_iff.1 h
    simp only [Machine.stepLabel, ht] at hstep
    obtain ⟨⟨a, s⟩, hx, rfl⟩ := Option.map_eq_some_iff.1 hstep
    have haccepted : accepted (.op t o a :: c.config.world.trace) =
        accepted c.config.world.trace ++ acceptedFrame o a := seen_cons _ _ _
    cases o with
    | inboundRecv =>
      have hle := hb.inbound
      refine ⟨⟨?_, hb.outbound⟩, [], (List.append_nil _).symm, haccepted⟩
      simp only [Connection.after, List.length_tail]
      omega
    | outboundSend frame =>
      rw [Connection.choose] at hch
      rw [Connection.after]
      split at hch
      · rename_i hwriting
        rw [if_pos hwriting]
        split at hch
        · cases hch
          cases hx
          refine ⟨⟨hb.inbound, ?_⟩, [frame], rfl, haccepted⟩
          simp only [List.length_append, List.length_singleton]
          omega
        · cases hch
      · rename_i hwriting
        rw [if_neg hwriting]
        cases hch
        cases hx
        exact ⟨⟨hb.inbound, hb.outbound⟩, [], (List.append_nil _).symm, haccepted⟩
    | _ => exact ⟨⟨hb.inbound, hb.outbound⟩, [], (List.append_nil _).symm, haccepted⟩
  · cases h

theorem act_queues {label : ClientLabel} (h : c.act env label = some c') (hb : c.Bounded) :
    Queues c c' := by
  have hother : ∀ {config' : ClientConfig} {e : ClientEvent}, (∀ t o a, e ≠ .op t o a) →
      config'.world.trace = e :: c.config.world.trace →
      Queues c { c with config := config' } := by
    intro config' e he htrace
    refine ⟨⟨hb.inbound, hb.outbound⟩, [], (List.append_nil _).symm, ?_⟩
    rw [htrace, accepted, seen_cons]
    cases e with
    | op t o a => exact absurd rfl (he t o a)
    | _ => rfl
  cases label with
  | run t ch => exact run_queues h hb
  | spawn t call =>
    obtain ⟨config', hstep, rfl⟩ := Option.map_eq_some_iff.1 h
    simp only [Machine.stepLabel] at hstep
    split at hstep <;> cases hstep
    exact hother (by simp) rfl
  | drop t =>
    cases t with
    | inboundLoop => cases h
    | caller n =>
      obtain ⟨config', hstep, rfl⟩ := Option.map_eq_some_iff.1 h
      simp only [Machine.stepLabel] at hstep
      split at hstep
      · split at hstep <;> cases hstep
        exact hother (by simp) rfl
      · cases hstep

/-! ## The run of the writer -/

/-- Everything accepted was taken or is queued, and the writer goes on until a frame fails. -/
structure Sent (sent : List (Value × Except ClientError Unit)) (c : Connection) : Prop where
  bounded : c.Bounded
  accepted : accepted c.config.world.trace = sent.map Prod.fst ++ c.outbound
  writer : WriterStops sent c

theorem Sent.pull (h : Sent sent c) {frame : RawFrame} (hs : c.pull wire frame = some c') :
    Sent sent c' := by
  obtain ⟨hout, hbounded, -⟩ := pull_spec hs h.bounded
  obtain ⟨hconfig, -, -, hwriting, -⟩ := pull_cases hs
  refine ⟨hbounded, ?_, ?_⟩
  · rw [hconfig, hout]
    exact h.accepted
  · exact ⟨fun hw => h.writer.going (hwriting ▸ hw), fun hw => h.writer.stopped (hwriting ▸ hw)⟩

theorem Sent.write (h : Sent sent c) {result : Except ClientError Unit}
    (hs : c.write result = some c') : Sent (sent ++ c.takenBy (.write result)) c' := by
  obtain ⟨⟨frame, hout⟩, hbounded, hresult⟩ := write_spec hs h.bounded
  obtain ⟨hconfig, -, -, hwas, -⟩ := write_cases hs
  have htaken : c.takenBy (.write result) = [(frame, result)] := by rw [takenBy, hout]; rfl
  rw [htaken]
  refine ⟨hbounded, ?_, ?_⟩
  · rw [hconfig, h.accepted, hout]
    simp
  · rcases hresult with ⟨rfl, hw, -⟩ | ⟨err, rfl, hw, -⟩
    · refine ⟨fun _ x hx => ?_, fun hw' => nomatch hw.symm.trans hw'⟩
      rcases List.mem_append.1 hx with hx | hx
      · exact h.writer.going hwas x hx
      · rw [List.mem_singleton.1 hx]
    · refine ⟨fun hw' => ?_, fun _ => ⟨sent, frame, err, rfl, h.writer.going hwas⟩⟩
      rw [hw] at hw'
      cases hw'

theorem Sent.act (h : Sent sent c) {label : ClientLabel} (hs : c.act env label = some c') :
    Sent sent c' := by
  obtain ⟨hbounded, new, hout, haccepted⟩ := act_queues hs h.bounded
  obtain ⟨e, hstep⟩ := act_step hs
  refine ⟨hbounded, ?_, ?_⟩
  · rw [haccepted, h.accepted, hout, List.append_assoc]
  · exact ⟨fun hw => h.writer.going (hstep.writing ▸ hw),
      fun hw => h.writer.stopped (hstep.writing ▸ hw)⟩

theorem Sends.accounted (h : Sends env wire sent c) : Sent sent c := by
  induction h with
  | start =>
    exact ⟨⟨Nat.zero_le _, Nat.zero_le _⟩, rfl, ⟨fun _ => by simp, by simp [Connection.start]⟩⟩
  | @step sent c c' _ label hs ih =>
    cases label with
    | pull frame => simpa [takenBy] using ih.pull hs
    | write result => exact ih.write hs
    | act label => simpa [takenBy] using ih.act hs

/-- **No frame is lost, sent twice or overtaken.**  In every run, the frames the calls were told are
accepted are, in that order, those the writer has taken and those still queued, and it sent all it
has taken but perhaps the last one, which failed and ended it. -/
theorem sent_in_order (h : Sends env wire sent c) :
    accepted c.config.world.trace = sent.map Prod.fst ++ c.outbound ∧
    c.outbound.length ≤ outboundCapacity ∧
    (c.writing = true → ∀ x ∈ sent, x.2 = .ok ()) ∧
    (c.writing = false → ∃ earlier frame err, sent = earlier ++ [(frame, .error err)] ∧
      ∀ x ∈ earlier, x.2 = .ok ()) := by
  obtain ⟨hbounded, haccepted, hwriter⟩ := h.accounted
  exact ⟨haccepted, hbounded.outbound, hwriter.going, hwriter.stopped⟩

/-- Two callers make a request each.  The one that has the second id is the first to hand over its
frame; the writer takes one frame and then the other. -/
def twoRequests : List Label :=
  [.act (.spawn (.caller 0) (.sendRawRequest methodInitialize .null none)),
      .act (.spawn (.caller 1) (.sendRawRequest methodInitialize .null none))]
    ++ List.replicate 3 (.act (.run (.caller 0) .proceed))
    ++ List.replicate 5 (.act (.run (.caller 1) .proceed))
    ++ List.replicate 2 (.act (.run (.caller 0) .proceed)) ++ List.replicate 2 (.write (.ok ()))

/-- Both frames have been taken, in the order in which they were accepted and not in that of their
ids. -/
theorem sent_in_order_twoRequests : ∃ sent c, Sends defaultEnv unparsable sent c ∧
    sent.map Prod.fst = [requestFrame (.integer 2) methodInitialize .null,
      requestFrame (.integer 1) methodInitialize .null] := by
  obtain ⟨c, hc, haccepted, hout⟩ : ∃ c : Connection,
      (Connection.start defaultEnv).runLabels defaultEnv unparsable twoRequests = some c ∧
      accepted c.config.world.trace = [requestFrame (.integer 2) methodInitialize .null,
        requestFrame (.integer 1) methodInitialize .null] ∧
      c.outbound = [] := ⟨_, rfl, rfl, rfl⟩
  obtain ⟨sent, hsent⟩ := (runLabels_reachable hc .start).sends
  have htaken := (sent_in_order hsent).1
  rw [haccepted, hout, List.append_nil] at htaken
  exact ⟨sent, c, hsent, htaken.symm⟩

/-! ## Frames in -/

/-- What the loop has received. -/
def receivedItem : (o : Op) → o.Ans → List (Except ClientError Value)
  | .inboundRecv, some item => [item]
  | _, _ => []

def received (tr : List ClientEvent) : List (Except ClientError Value) := seen receivedItem tr

/-- What the reader makes of the frames the transport has yielded. -/
def offered (wire : Wire) (c : Connection) : List (Except ClientError Value) :=
  c.pulled.reverse.filterMap (RawFrame.item wire)

/-- What has come to the loop is what the reader has offered, with a report of the writer in some
place if that has failed.  Only what comes after the loop has exited is lost. -/
structure Arrives (wire : Wire) (sent : List (Value × Except ClientError Unit)) (c : Connection)
    (before report after : List (Except ClientError Value)) : Prop where
  queue : received c.config.world.trace ++ c.inbound = before ++ report ++ after
  offered : before ++ after <+: offered wire c
  all : c.exited = false → before ++ after = c.offered wire
  origin : report = [] ∨ ∃ frame err, (frame, .error err) ∈ sent ∧ report = [.error err]
  reported : c.exited = false → (report = [] ↔ c.writing = true)

variable {before report after : List (Except ClientError Value)}

theorem offered_pull {frame : RawFrame} (h : c.pull wire frame = some c') :
    c'.offered wire = c.offered wire ++ (frame.item wire).toList := by
  rw [Connection.offered, (pull_cases h).pulled, List.reverse_cons, List.filterMap_append]
  cases hitem : frame.item wire <;> simp [hitem, Connection.offered]

theorem Arrives.pull (h : Arrives wire sent c before report after) (hb : c.Bounded)
    {frame : RawFrame} (hs : c.pull wire frame = some c') :
    ∃ after', Arrives wire sent c' before report after' := by
  obtain ⟨-, -, hin⟩ := pull_spec hs hb
  obtain ⟨hconfig, -, -, hwriting, -⟩ := pull_cases hs
  have hexited : c'.exited = c.exited := by rw [Connection.exited, hconfig, Connection.exited]
  rcases hin with ⟨hlive, hin⟩ | ⟨hexit, hin⟩
  · have hall : before ++ (after ++ (frame.item wire).toList) = c'.offered wire := by
      rw [offered_pull hs, ← List.append_assoc, h.all hlive]
    refine ⟨after ++ (frame.item wire).toList,
      ⟨?_, hall ▸ List.prefix_rfl, fun _ => hall, h.origin, ?_⟩⟩
    · rw [hconfig, hin, ← List.append_assoc, h.queue, List.append_assoc]
    · rw [hexited, hwriting]
      exact h.reported
  · refine ⟨after, ⟨?_, ?_, ?_, h.origin, ?_⟩⟩
    · rw [hconfig, hin, h.queue]
    · rw [offered_pull hs]
      exact h.offered.trans (List.prefix_append _ _)
    · rw [hexited, hexit]
      simp
    · rw [hexited, hexit]
      simp

theorem Arrives.write (h : Arrives wire sent c before report after) (hb : c.Bounded)
    {result : Except ClientError Unit} (hs : c.write result = some c') :
    ∃ before' report' after',
      Arrives wire (sent ++ c.takenBy (.write result)) c' before' report' after' := by
  obtain ⟨⟨frame, hout⟩, -, hresult⟩ := write_spec hs hb
  obtain ⟨hconfig, hpulled, -, hwas, -⟩ := write_cases hs
  have hexited : c'.exited = c.exited := by rw [Connection.exited, hconfig, Connection.exited]
  have hoffered : c'.offered wire = c.offered wire := by
    rw [Connection.offered, hpulled, Connection.offered]
  have htaken : c.takenBy (.write result) = [(frame, result)] := by rw [takenBy, hout]; rfl
  have hreport : report = [] ∨ ∃ frame' err, (frame', .error err) ∈ sent ++ [(frame, result)] ∧
      report = [.error err] := by
    rcases h.origin with h | ⟨frame', err, hmem, h⟩
    · exact .inl h
    · exact .inr ⟨frame', err, List.mem_append_left _ hmem, h⟩
  rw [htaken]
  rcases hresult with ⟨rfl, hw, hin⟩ | ⟨err, rfl, hw, ⟨hlive, hin⟩ | ⟨hexit, hin⟩⟩
  · refine ⟨before, report, after, ⟨by rw [hconfig, hin, h.queue], hoffered ▸ h.offered,
      by rw [hexited, hoffered]; exact h.all, hreport, ?_⟩⟩
    rw [hexited, hw.trans hwas.symm]
    exact h.reported
  · obtain rfl := (h.reported hlive).2 hwas
    refine ⟨before ++ after, [.error err], [], ⟨?_, ?_, fun _ => ?_, ?_, fun _ => ?_⟩⟩
    · rw [hconfig, hin, ← List.append_assoc, h.queue]
      simp
    · rw [hoffered, List.append_nil]
      exact h.offered
    · rw [hoffered, List.append_nil]
      exact h.all hlive
    · exact .inr ⟨frame, err, by simp, rfl⟩
    · simp [hw]
  · refine ⟨before, report, after, ⟨by rw [hconfig, hin, h.queue], hoffered ▸ h.offered, ?_,
      hreport, ?_⟩⟩
    · rw [hexited, hexit]
      simp
    · rw [hexited, hexit]
      simp

/-- The loop receives what is first in its queue. -/
theorem ClientStep.received (hs : ClientStep env c c' e) :
    received c'.config.world.trace ++ c'.inbound =
      received c.config.world.trace ++ c.inbound := by
  rw [hs.step.trace_eq, Connection.received, seen_cons, List.append_assoc]
  cases hs.acts with
  | received hin => rw [hin]; rfl
  | ended hin hin' => rw [hin, hin']; rfl
  | accepted hwrite hin => rw [hin]; rfl
  | refused hwrite hin => rw [hin]; rfl
  | other hrecv hsend hin =>
    rw [hin]
    cases e with
    | op t o a =>
      cases o with
      | inboundRecv => exact absurd rfl (hrecv t a)
      | _ => rfl
    | _ => rfl

theorem Arrives.act (h : Arrives wire sent c before report after) {label : ClientLabel}
    (hs : c.act env label = some c') : Arrives wire sent c' before report after := by
  obtain ⟨e, hstep⟩ := act_step hs
  have hlive : c'.exited = false → c.exited = false := by
    intro hlive
    refine Bool.eq_false_iff.2 fun hexit => ?_
    have hexit' : c'.exited = true :=
      Ownership.exited_step (show c.step env wire (.act label) = some c' from hs) hexit
    rw [hlive] at hexit'
    cases hexit'
  have hoffered : c'.offered wire = c.offered wire := by
    rw [Connection.offered, hstep.pulled, Connection.offered]
  refine ⟨by rw [hstep.received, h.queue], hoffered ▸ h.offered, ?_, h.origin, ?_⟩
  · rw [hoffered]
    exact fun hl => h.all (hlive hl)
  · rw [hstep.writing]
    exact fun hl => h.reported (hlive hl)

theorem Sends.arrives (h : Sends env wire sent c) :
    ∃ before report after, Arrives wire sent c before report after := by
  induction h with
  | start =>
    refine ⟨[], [], [], ⟨rfl, List.prefix_rfl, fun _ => rfl, .inl rfl, fun _ => ?_⟩⟩
    simp [Connection.start]
  | @step sent c c' h label hs ih =>
    obtain ⟨before, report, after, harrives⟩ := ih
    cases label with
    | pull frame =>
      obtain ⟨after', h'⟩ := harrives.pull h.accounted.bounded hs
      exact ⟨before, report, after', by simpa [takenBy] using h'⟩
    | write result => exact harrives.write h.accounted.bounded hs
    | act label => exact ⟨before, report, after, by simpa [takenBy] using harrives.act hs⟩

/-- **What arrives was offered, in order, each item once.** -/
theorem received_in_order (h : Sends env wire sent c) :
    c.inbound.length ≤ inboundCapacity ∧
    ∃ before report after, Arrives wire sent c before report after :=
  ⟨h.accounted.bounded.inbound, h.arrives⟩

/-! ## What is done about them -/

/-- What the loop does about a response and about a notification. -/
inductive Effect
  | dispatched (id : RequestId) (reply : Reply)
  | published (notification : ServerNotification)

/-- What an item that reaches the loop leads to.  What it does about a request is up to the handler,
and about anything else it does nothing but close down. -/
def effects : Except ClientError Value → List Effect
  | .ok value => match classifyIncoming value with
    | .ok (.response id reply) => [.dispatched id reply]
    | .ok (.notification method params _) => [.published (notificationEvent method params)]
    | _ => []
  | .error _ => []

/-- An item makes its effects due, and dispatching or publishing pays. -/
def effectsAccount : Account Op Op.Ans Effect where
  due
    | .inboundRecv, some item => effects item
    | _, _ => []
  paid
    | .pendingDispatch id reply, _ => [.dispatched id reply]
    | .eventSend (.notification notification), _ => [.published notification]
    | _, _ => []

/-- The responses that were dispatched and the notifications that were published, in order. -/
def handled (tr : List ClientEvent) : List Effect := seen effectsAccount.paid tr

theorem ofCalls_silent (o : Op) (h : o.OfCalls) : effectsAccount.Silent o := by
  intro a
  cases o with
  | pendingDispatch | inboundRecv | eventSend => exact h.elim
  | _ => exact ⟨rfl, rfl⟩

theorem closeDown_owes (message : String) : (closeDown message).Owes effectsAccount [] := by
  refine Prog.Only.owes ((closeDown_only message).mono fun o ho a => ?_)
  cases ho <;> exact ⟨rfl, rfl⟩

theorem handlerResult_owes (id : RequestId) (response : Outcome) (context : String) :
    (sendServerRequestHandlerResult env id response context).Owes effectsAccount [] := by
  refine fun sent => ⟨[], rfl, ?_⟩
  cases sent with
  | true => rfl
  | false => exact fun _ => ⟨[], rfl, rfl⟩

theorem autoHandle_owes (request : ServerRequestEvent) :
    (tryAutoHandleServerRequest env request).Owes effectsAccount [] := by
  cases request with
  | unknown id method params => rfl
  | request kind id params =>
    refine fun handler => ⟨[], rfl, ?_⟩
    cases handler with
    | none => rfl
    | some handler =>
      have hscript : ((handler params).run env).Only Op.OfCalls := script_only _
      exact (hscript.mono ofCalls_silent).owes.bind fun response =>
        (handlerResult_owes id response _).bind fun _ => rfl

/-- A frame that is processed pays what it made due. -/
theorem process_owes (value : Value) :
    (processIncomingValue env value).Owes effectsAccount (effects (.ok value)) := by
  rw [processIncomingValue, effects]
  cases classifyIncoming value with
  | error err => rfl
  | ok incoming =>
    cases incoming with
    | response id reply => exact fun _ => ⟨[], rfl, rfl⟩
    | notification method params raw => exact fun _ => ⟨[], rfl, rfl⟩
    | serverRequest id method params raw =>
      refine (autoHandle_owes _).bind fun handled => ?_
      cases handled with
      | true => rfl
      | false => exact fun _ => ⟨[], rfl, rfl⟩

/-- A round of the loop pays for the frame it receives. -/
theorem loopRound_owes : (loopRound env).Owes effectsAccount [] := by
  intro item
  refine ⟨_, rfl, ?_⟩
  cases item with
  | none => rfl
  | some item =>
    cases item with
    | error err => exact (closeDown_owes _).bind fun _ => rfl
    | ok value =>
      refine (process_owes value).bind fun r => ?_
      cases r with
      | ok => rfl
      | error err => exact (closeDown_owes _).bind fun _ => rfl

theorem effects_balance (env : Env) : Balances effectsAccount (client env) .inboundLoop where
  round r p h := by
    cases r with
    | again => exact Option.some.inj h ▸ loopRound_owes
    | outcome | exited => cases h
  bodies call := ((call_only call).mono ofCalls_silent).bind fun _ => trivial
  others u r p hu h := by
    cases u with
    | inboundLoop => exact absurd rfl hu
    | caller n => cases h

/-- What the loop has received is dispatched or published, but for what its round still owes. -/
theorem effects_books (h : c.Reachable env wire) : Books effectsAccount .inboundLoop c.config := by
  refine Books.run (effects_balance env) ⟨by simp [ClientConfig.start], ⟨[], rfl, ?_⟩, ?_⟩ h.run
  · intro p hp
    cases hp
    exact loopRound_owes
  · intro u p hu hp
    cases u with
    | inboundLoop => exact absurd rfl hu
    | caller n => cases hp

/-- What came due is what was received. -/
theorem due_eq (tr : List ClientEvent) :
    seen effectsAccount.due tr = (received tr).flatMap effects := by
  induction tr with
  | nil => rfl
  | cons e tr ih =>
    have hreceived : received (e :: tr) = received tr ++ e.seen receivedItem := seen_cons _ _ _
    have hdue : e.seen effectsAccount.due = (e.seen receivedItem).flatMap effects := by
      cases e with
      | op t o a =>
        cases o with
        | inboundRecv => cases a <;> simp [Event.seen, receivedItem, effectsAccount]
        | _ => rfl
      | _ => rfl
    rw [seen_cons, ih, hreceived, List.flatMap_append, hdue]

/-- A report of the writer has no effects. -/
theorem Arrives.effects_eq (h : Arrives wire sent c before report after) :
    (received c.config.world.trace).flatMap effects ++ c.inbound.flatMap effects =
      (before ++ after).flatMap effects := by
  rw [← List.flatMap_append, h.queue]
  rcases h.origin with rfl | ⟨frame, err, -, rfl⟩
  · simp
  · simp [effects]

/-- What has come to the loop has been done, but for what it owes for the frame it is at. -/
theorem Arrives.handled (harrives : Arrives wire sent c before report after)
    (h : c.Reachable env wire) : ∃ owed,
    handled c.config.world.trace ++ owed ++ c.inbound.flatMap effects =
      (before ++ after).flatMap effects ∧
    (c.config.tasks .inboundLoop = .live (loopRound env) ∨ c.exited = true → owed = []) := by
  obtain ⟨-, ⟨owed, hbalance, howed⟩, -⟩ := effects_books h
  refine ⟨owed, ?_, ?_⟩
  · rw [← harrives.effects_eq, ← due_eq, hbalance, Connection.handled]
  · rintro (ht | hexit)
    · -- if nothing comes any more, it returns
      obtain ⟨rest, hrest, hnone⟩ := howed _ ht none
      obtain rfl : rest = [] := hnone
      simpa [effectsAccount] using hrest
    · exact howed _ (exited_iff.1 hexit)

/-- **Every response is dispatched and every notification published once, in the order of the
frames.**  What the transport has yielded leads to what was done, in that order, then what the loop
still owes for the frame it is at, and then what is queued.  Between two frames it owes nothing, and
only a loop that has exited leaves frames behind. -/
theorem handled_in_order (h : c.Reachable env wire) : ∃ owed,
    handled c.config.world.trace ++ owed ++ c.inbound.flatMap effects <+:
      (c.offered wire).flatMap effects ∧
    (c.exited = false → handled c.config.world.trace ++ owed ++ c.inbound.flatMap effects =
      (c.offered wire).flatMap effects) ∧
    (c.config.tasks .inboundLoop = .live (loopRound env) ∨ c.exited = true → owed = []) := by
  obtain ⟨sent, hsends⟩ := h.sends
  obtain ⟨before, report, after, harrives⟩ := hsends.arrives
  obtain ⟨owed, heq, howed⟩ := harrives.handled h
  refine ⟨owed, ?_, fun hlive => by rw [heq, harrives.all hlive], howed⟩
  obtain ⟨rest, hrest⟩ := harrives.offered
  rw [heq, ← hrest]
  exact ⟨rest.flatMap effects, List.flatMap_append.symm⟩

end

/-! ## A run -/

/-- Every payload is a notification nobody knows. -/
def pinging : Wire := ⟨fun _ => .ok (notificationFrame "ping" .null), "websocket frame as JSON"⟩

/-- Two notifications come, and the loop has received one of them. -/
def pingSchedule : List Connection.Label :=
  [.pull (.payload []), .pull .skip, .pull (.payload []),
    .act (.run .inboundLoop .proceed), .act (.run .inboundLoop .proceed)]

theorem received_in_order_ping : ∃ sent c before report after,
    Sends defaultEnv pinging sent c ∧ c.inbound = [.ok (notificationFrame "ping" .null)] ∧
      Arrives pinging sent c before report after := by
  obtain ⟨c, hc, hin⟩ : ∃ c : Connection, (Connection.start defaultEnv).runLabels defaultEnv pinging
      pingSchedule = some c ∧ c.inbound = [.ok (notificationFrame "ping" .null)] := ⟨_, rfl, rfl⟩
  obtain ⟨sent, hsent⟩ := (runLabels_reachable hc .start).sends
  obtain ⟨-, before, report, after, harrives⟩ := received_in_order hsent
  exact ⟨sent, c, before, report, after, hsent, hin, harrives⟩

/-- The first has been published, and the other one will be. -/
theorem handled_in_order_ping : ∃ c : Connection, c.Reachable defaultEnv pinging ∧
    c.offered pinging = List.replicate 2 (.ok (notificationFrame "ping" .null)) ∧
    handled c.config.world.trace ++ [.published (.unknown "ping" .null)] =
      (c.offered pinging).flatMap effects := by
  obtain ⟨c, hc, hin, hoffered, hloop, hlive⟩ : ∃ c : Connection,
      (Connection.start defaultEnv).runLabels defaultEnv pinging pingSchedule = some c ∧
      c.inbound.flatMap effects = [.published (.unknown "ping" .null)] ∧
      c.offered pinging = List.replicate 2 (.ok (notificationFrame "ping" .null)) ∧
      c.config.tasks .inboundLoop = .live (loopRound defaultEnv) ∧ c.exited = false :=
    ⟨_, rfl, rfl, rfl, rfl, rfl⟩
  have hreach := runLabels_reachable hc .start
  obtain ⟨owed, -, hall, howed⟩ := handled_in_order hreach
  have heq := hall hlive
  rw [howed (.inl hloop), hin, List.append_nil] at heq
  exact ⟨c, hreach, hoffered, heq⟩

end Connection

end CodexSdk

import CodexSdk.Connection.System

/-!
# The end of the read side releases the waiters

Something ends the inbound loop as soon as the reader has pulled a frame that does, or the writer
has stopped.  `Sound` is the invariant that follows such a thing on its way: it is still queued, or
the loop has read it.  When the queue has been consumed the loop has therefore closed down
(`readSide_released`), whichever of the ways there are it took.  The exception is deliberate: after
`RawFrame::Eof` the reader stops silently, and nobody is told (`readSide_silent`).
-/

set_option autoImplicit false

namespace CodexSdk

open Json Interleave

/-- What the reader forwards of the frame ends the loop. -/
def RawFrame.Ends (wire : Wire) (frame : RawFrame) : Prop :=
  ∃ item, frame.item wire = some item ∧ EndsLoop (some item)

/-- The loop has read something that closes it down. -/
def ReadError (tr : List ClientEvent) : Prop :=
  ∃ item, EndsLoop (some item) ∧ .op .inboundLoop .inboundRecv (some item) ∈ tr

section

variable {e : ClientEvent} {tr : List ClientEvent}

theorem ReadError.cons (h : ReadError tr) (e : ClientEvent) : ReadError (e :: tr) := by
  obtain ⟨item, hends, hmem⟩ := h
  exact ⟨item, hends, List.mem_cons_of_mem _ hmem⟩

theorem ReadError.not_serving (h : ReadError tr) : ¬ Serving tr := by
  obtain ⟨item, hends, hmem⟩ := h
  exact fun hs => hs _ hmem hends

/-- What an event of the client adds to what the loop has read. -/
theorem readError_cons_iff : ReadError (e :: tr) ↔
    (∃ item, EndsLoop (some item) ∧ e = .op .inboundLoop .inboundRecv (some item)) ∨
      ReadError tr := by
  constructor
  · rintro ⟨item, hends, hmem⟩
    rcases List.mem_cons.1 hmem with heq | hmem
    · exact .inl ⟨item, hends, heq.symm⟩
    · exact .inr ⟨item, hends, hmem⟩
  · rintro (⟨item, hends, rfl⟩ | h)
    · exact ⟨item, hends, List.mem_cons_self⟩
    · exact h.cons e

end

namespace Connection

/-- The connection has come to its end: a frame that ends the loop was pulled, or the writer
stopped. -/
def Over (wire : Wire) (c : Connection) : Prop :=
  (∃ frame ∈ c.pulled, frame.Ends wire) ∨ c.writing = false

/-- The news are on their way to the loop, or have been read. -/
def Noticed (c : Connection) : Prop :=
  (∃ item ∈ c.inbound, EndsLoop (some item)) ∨ ReadError c.config.world.trace

structure Sound (env : Env) (wire : Wire) (c : Connection) : Prop where
  run : (client env).Run Machine.anyStep (ClientConfig.start env) c.config
  noticed : c.Over wire → c.Noticed
  isOver : c.Noticed → c.Over wire
  /-- The loop never finds the stream ended: the writer reports before it stops. -/
  never_ended : .op .inboundLoop .inboundRecv none ∉ c.config.world.trace
  refused : Refused c.config.world.trace → c.writing = false

section

variable {env : Env} {wire : Wire} {c c' : Connection} {e : ClientEvent} {tr : List ClientEvent}

/-- A loop that closed down has read an error. -/
theorem closedDown_readError (h : ClosedDown env tr)
    (hnever : .op .inboundLoop .inboundRecv none ∉ tr) : ReadError tr := by
  obtain ⟨item, message, entries, hmessage, served, -, hevents⟩ := h
  have hmem : (.op .inboundLoop .inboundRecv item : ClientEvent) ∈ tr := by
    have hloop : (.op .inboundLoop .inboundRecv item : ClientEvent) ∈ loopEvents tr := by
      simp [hevents]
    exact (List.mem_filter.1 hloop).1
  cases item with
  | none => exact absurd hmem hnever
  | some item => exact ⟨item, endsLoop_of_message hmessage, hmem⟩

/-- A loop that has exited closed down. -/
theorem Sound.closedDown (h : Sound env wire c) (hexit : c.exited = true) :
    ClosedDown env c.config.world.trace := by
  refine (exited_cases h.run (exited_iff.1 hexit)).resolve_right ?_
  rintro ⟨served, -, hevents⟩
  have hloop :
      (.op .inboundLoop .inboundRecv none : ClientEvent) ∈ loopEvents c.config.world.trace := by
    simp [hevents]
  exact h.never_ended (List.mem_filter.1 hloop).1

theorem Sound.readError (h : Sound env wire c) (hexit : c.exited = true) :
    ReadError c.config.world.trace :=
  closedDown_readError (h.closedDown hexit) h.never_ended

/-- A round of the reader. -/
theorem Sound.pull (h : Sound env wire c) {frame : RawFrame} (hs : Pulls wire c frame c') :
    Sound env wire c' where
  run := hs.config ▸ h.run
  noticed := by
    intro hover
    have hold : c.Noticed → c'.Noticed := by
      rintro (⟨item, hmem, hends⟩ | hread)
      · refine .inl ⟨item, ?_, hends⟩
        rcases hs.queue with ⟨item', -, hin⟩ | ⟨hin, -⟩
        · exact hin ▸ List.mem_append_left _ hmem
        · exact hin ▸ hmem
      · exact .inr (hs.config ▸ hread)
    rcases hover with ⟨frame', hmem, hends⟩ | hwrite
    · rw [hs.pulled] at hmem
      rcases List.mem_cons.1 hmem with rfl | hmem
      · obtain ⟨item, hitem, hitemEnds⟩ := hends
        rcases hs.queue with ⟨item', hitem', hin⟩ | ⟨-, hnone | hexit⟩
        · obtain rfl : item = item' := Option.some.inj (hitem.symm.trans hitem')
          exact .inl ⟨item, hin ▸ List.mem_append_right _ (List.mem_singleton.2 rfl), hitemEnds⟩
        · cases hitem.symm.trans hnone
        · exact hold (.inr (h.readError hexit))
      · exact hold (h.noticed (.inl ⟨frame', hmem, hends⟩))
    · exact hold (h.noticed (.inr (hs.writing ▸ hwrite)))
  isOver := by
    intro hnoticed
    have hold : c.Over wire → c'.Over wire := by
      rintro (⟨frame', hmem, hends⟩ | hwrite)
      · exact .inl ⟨frame', hs.pulled ▸ List.mem_cons_of_mem _ hmem, hends⟩
      · exact .inr (hs.writing ▸ hwrite)
    rcases hnoticed with ⟨item, hmem, hends⟩ | hread
    · rcases hs.queue with ⟨item', hitem', hin⟩ | ⟨hin, -⟩
      · rw [hin] at hmem
        rcases List.mem_append.1 hmem with hmem | hmem
        · exact hold (h.isOver (.inl ⟨item, hmem, hends⟩))
        · obtain rfl := List.mem_singleton.1 hmem
          exact .inl ⟨frame, hs.pulled ▸ List.mem_cons_self, item, hitem', hends⟩
      · exact hold (h.isOver (.inl ⟨item, hin ▸ hmem, hends⟩))
    · exact hold (h.isOver (.inr (hs.config ▸ hread)))
  never_ended := hs.config ▸ h.never_ended
  refused := by rw [hs.config, hs.writing]; exact h.refused

/-- A round of the writer. -/
theorem Sound.write (h : Sound env wire c) (hs : Writes c c') : Sound env wire c' where
  run := hs.config ▸ h.run
  noticed := by
    intro hover
    rcases hs.queue with ⟨hwrite, hin⟩ | ⟨-, ⟨err, hin⟩ | ⟨-, hexit⟩⟩
    · have hold : c.Over wire := by
        rcases hover with ⟨frame, hmem, hends⟩ | hwrite'
        · exact .inl ⟨frame, hs.pulled ▸ hmem, hends⟩
        · cases hwrite.symm.trans hwrite'
      exact (h.noticed hold).imp (by rw [hin]; exact id) (by rw [hs.config]; exact id)
    · exact .inl ⟨.error err, hin ▸ List.mem_append_right _ (List.mem_singleton.2 rfl), trivial⟩
    · exact .inr (hs.config ▸ h.readError hexit)
  isOver := by
    intro hnoticed
    rcases hs.queue with ⟨hwrite, hin⟩ | ⟨hwrite, -⟩
    · have hold : c.Noticed := hnoticed.imp (by rw [hin]; exact id) (by rw [hs.config]; exact id)
      rcases h.isOver hold with ⟨frame, hmem, hends⟩ | hwrite'
      · exact .inl ⟨frame, hs.pulled ▸ hmem, hends⟩
      · cases hs.was_writing.symm.trans hwrite'
    · exact .inr hwrite
  never_ended := hs.config ▸ h.never_ended
  refused := by
    rw [hs.config]
    intro hrefused
    cases hs.was_writing.symm.trans (h.refused hrefused)

/-- Only the loop receives. -/
theorem receiver_eq (hr : (client env).Run Machine.anyStep (ClientConfig.start env) c.config)
    {t : Tid} {item : Option (Except ClientError Value)}
    (hmem : .op t .inboundRecv item ∈ c.config.world.trace) : t = .inboundLoop := by
  cases t with
  | inboundLoop => rfl
  | caller n => exact ((history_orderly hr).callers n _ _ hmem).elim

/-- A step of the client. -/
theorem Sound.act (h : Sound env wire c) (hs : ClientStep env c c' e) : Sound env wire c' := by
  have hrun := h.run.step hs.step trivial
  have htrace := hs.step.trace_eq
  have hover : c'.Over wire ↔ c.Over wire := by rw [Over, Over, hs.pulled, hs.writing]
  have hrecv : ∀ t item, e = .op t .inboundRecv item → t = .inboundLoop := by
    rintro t item rfl
    exact receiver_eq (c := c') hrun (htrace ▸ List.mem_cons_self)
  -- the queue and the history hold the same things together
  have hnoticed : c'.Noticed ↔ c.Noticed := by
    rw [Noticed, Noticed, htrace, readError_cons_iff]
    cases hs.acts with
    | @received t item hin =>
      obtain rfl := hrecv t _ rfl
      rw [hin]
      constructor
      · rintro (⟨item', hmem, hends⟩ | ⟨item', hends, heq⟩ | hread)
        · exact .inl ⟨item', List.mem_cons_of_mem _ hmem, hends⟩
        · cases heq
          exact .inl ⟨item, List.mem_cons_self, hends⟩
        · exact .inr hread
      · rintro (⟨item', hmem, hends⟩ | hread)
        · rcases List.mem_cons.1 hmem with rfl | hmem
          · exact .inr (.inl ⟨_, hends, rfl⟩)
          · exact .inl ⟨item', hmem, hends⟩
        · exact .inr (.inr hread)
    | ended hin hin' => simp [hin, hin']
    | accepted hwrite hin => simp [hin]
    | refused hwrite hin => simp [hin]
    | other hother hsend hin =>
      have hne : ¬ ∃ item, EndsLoop (some item) ∧
          e = .op .inboundLoop .inboundRecv (some item) := by
        rintro ⟨item, -, heq⟩
        exact hother _ _ heq
      rw [hin, or_iff_right hne]
  refine ⟨hrun, fun h' => hnoticed.2 (h.noticed (hover.1 h')),
    fun h' => hover.2 (h.isOver (hnoticed.1 h')), ?_, ?_⟩
  · rw [htrace, List.mem_cons, not_or]
    refine ⟨?_, h.never_ended⟩
    rintro rfl
    cases hs.acts with
    | ended hin hin' hread hwrite =>
      -- the writer had stopped, so the loop had read its report, and reads no more
      have hread' := (h.noticed (.inr hwrite)).resolve_left (by simp [hin])
      exact hread'.not_serving ((history_orderly hrun).reads [] none c.config.world.trace htrace)
    | other hother => exact hother _ _ rfl
  · rw [htrace, hs.writing]
    rintro ⟨t, frame, hmem⟩
    rcases List.mem_cons.1 hmem with rfl | hmem
    · cases hs.acts with
      | refused hwrite => exact hwrite
      | other hother hsend => exact absurd rfl (hsend _ _ _)
    · exact h.refused ⟨t, frame, hmem⟩

/-- **The invariant of the connection.** -/
theorem Reachable.sound (h : c.Reachable env wire) : Sound env wire c := by
  induction h with
  | start =>
    refine ⟨.init, ?_, ?_, ?_, ?_⟩
    · rintro (⟨frame, hmem, -⟩ | hwrite)
      · cases hmem
      · cases hwrite
    · rintro (⟨item, hmem, -⟩ | ⟨item, -, hmem⟩)
      · cases hmem
      · cases hmem
    · exact List.not_mem_nil
    · rintro ⟨t, frame, hmem⟩
      cases hmem
  | step _ label hs ih =>
    cases label with
    | pull frame => exact ih.pull (pull_cases hs)
    | write result => exact ih.write (write_cases hs)
    | act label =>
      obtain ⟨e, hstep⟩ := act_step hs
      exact ih.act hstep

end

/-! ## The main result -/

/-- The loop has consumed every frame that was queued: it waits for the next one, or has exited. -/
def Consumed (env : Env) (c : Connection) : Prop :=
  c.exited = true ∨ c.inbound = [] ∧ c.config.tasks .inboundLoop = .live (loopRound env)

/-- The waiters are released: the loop has exited; on its way it took the map of pending requests,
completed every entry with an error and announced `TransportClosed`; and what is pending now was
registered after it had taken the map. -/
structure Released (env : Env) (c : Connection) : Prop where
  exited : c.exited = true
  closed : ∃ item message entries after before,
    ClosedDownBy env item message entries c.config.world.trace ∧
    c.config.world.trace = after ++ .op .inboundLoop .pendingTake entries :: before ∧
    ∀ p ∈ c.config.world.shared.pending, ∃ u, .op u (.pendingInsert p.1 p.2) () ∈ after

/-- Nobody is told anything: the loop waits, no request has been taken out of the map, and
`TransportClosed` has not been announced. -/
structure Untold (env : Env) (c : Connection) : Prop where
  waits : c.config.tasks .inboundLoop = .live (loopRound env)
  kept : ∀ t entries, .op t .pendingTake entries ∉ c.config.world.trace
  unannounced : ∀ t, .op t (.eventSend .transportClosed) () ∉ c.config.world.trace

section

variable {env : Env} {wire : Wire} {c : Connection}

/-- Closing down takes the map at one point, and what is pending afterwards was registered since. -/
theorem released_of_closedDown
    (hr : (client env).Run Machine.anyStep (ClientConfig.start env) c.config)
    (hexit : c.exited = true) (h : ClosedDown env c.config.world.trace) : c.Released env := by
  obtain ⟨item, message, entries, hclosed⟩ := h
  obtain ⟨after, before, -, htrace, -⟩ := hclosed.split
  exact ⟨hexit, item, message, entries, after, before, hclosed, htrace,
    fun p hp => (history_orderly hr).waiting p hp after _ _ _ htrace⟩

/-- A loop that has consumed the end of the connection has exited. -/
theorem Over.exits (hover : c.Over wire) (h : c.Reachable env wire) (hdone : c.Consumed env) :
    c.exited = true := by
  rcases hdone with hexit | ⟨hempty, hwaits⟩
  · exact hexit
  · have hread := (h.sound.noticed hover).resolve_left (by simp [hempty])
    exact absurd (waiting_serving h.sound.run hwaits) hread.not_serving

/-- While the connection is not over, it waits. -/
theorem Consumed.waits (hdone : c.Consumed env) (h : c.Reachable env wire) (hover : ¬ c.Over wire) :
    c.config.tasks .inboundLoop = .live (loopRound env) := by
  rcases hdone with hexit | ⟨-, hwaits⟩
  · exact absurd (h.sound.isOver (.inr (h.sound.readError hexit))) hover
  · exact hwaits

/-- **The read side ends, and the waiters are released.**  In every state a connection reaches,
whatever its transport has yielded and its writer has come to, once the loop has consumed what was
queued: if a frame that ends the loop (`Closed`, one that does not parse, one nothing can be made
of) has been pulled, or the writer has stopped, then the waiters have been released; if not, as
after an `Eof` that follows good frames, the loop goes on waiting and nobody is told. -/
theorem readSide_released (h : c.Reachable env wire) (hdone : c.Consumed env) :
    (c.Over wire → c.Released env) ∧ (¬ c.Over wire → c.Untold env) := by
  have hsound := h.sound
  constructor
  · intro hover
    have hexit := hover.exits h hdone
    exact released_of_closedDown hsound.run hexit (hsound.closedDown hexit)
  · intro hover
    have hwaits := hdone.waits h hover
    have hserving := waiting_serving hsound.run hwaits
    have horderly := history_orderly hsound.run
    refine ⟨hwaits, fun t entries hmem => ?_, fun t hmem => ?_⟩
    · cases t with
      | caller n => exact (horderly.callers n _ _ hmem).elim
      | inboundLoop => exact hserving _ hmem
    · rcases horderly.announced t hmem with hns | hrefused
      · exact hns hserving
      · exact hover (.inr (hsound.refused hrefused))

end

/-! ## Two runs -/

/-- What a text transport calls its frames; nothing parses. -/
def unparsable : Wire :=
  ⟨fun _ => .error "expected value at line 1 column 1", "websocket frame as JSON"⟩

/-- One request is sent and written. -/
def oneRequest : List Connection.Label :=
  [.act (.spawn (.caller 0) (.sendRawRequest methodInitialize .null none))]
    ++ List.replicate 5 (.act (.run (.caller 0) .proceed)) ++ [.write (.ok ())]

/-- The transport closes, and the loop consumes it. -/
theorem readSide_released_closed : ∃ c : Connection,
    c.Reachable defaultEnv unparsable ∧ RawFrame.closed .transportClosed ∈ c.pulled ∧
      c.Released defaultEnv := by
  obtain ⟨c, hc, hpulled, hexit⟩ : ∃ c : Connection,
      (Connection.start defaultEnv).runLabels defaultEnv unparsable
        (oneRequest ++ [.pull (.closed .transportClosed)]
          ++ List.replicate 4 (.act (.run .inboundLoop .proceed))) = some c ∧
      c.pulled = [.closed .transportClosed] ∧ c.exited = true := ⟨_, rfl, rfl, rfl⟩
  have hreach := runLabels_reachable hc .start
  have hmem : RawFrame.closed .transportClosed ∈ c.pulled := by simp [hpulled]
  exact ⟨c, hreach, hmem,
    (readSide_released hreach (.inl hexit)).1 (.inl ⟨_, hmem, _, rfl, trivial⟩)⟩

/-- The stream ends without a close frame: the reader has stopped, its queue is empty, the loop
waits, and so does the request. -/
theorem readSide_silent : ∃ c : Connection, c.Reachable defaultEnv unparsable ∧
    c.reading = false ∧ c.pulled = [.eof] ∧ c.inbound = [] ∧
    c.config.tasks .inboundLoop = .live (loopRound defaultEnv) ∧
    c.config.world.shared.pending = [(.integer 1, 0)] ∧
    ∀ t, .op t (.eventSend .transportClosed) () ∉ c.config.world.trace := by
  obtain ⟨c, hc, hread, hwrite, hpulled, hempty, hwaits, hpending⟩ : ∃ c : Connection,
      (Connection.start defaultEnv).runLabels defaultEnv unparsable (oneRequest ++ [.pull .eof])
        = some c ∧
      c.reading = false ∧ c.writing = true ∧ c.pulled = [.eof] ∧ c.inbound = [] ∧
      c.config.tasks .inboundLoop = .live (loopRound defaultEnv) ∧
      c.config.world.shared.pending = [(.integer 1, 0)] := ⟨_, rfl, rfl, rfl, rfl, rfl, rfl, rfl⟩
  have hsound := (runLabels_reachable hc .start).sound
  refine ⟨c, runLabels_reachable hc .start, hread, hpulled, hempty, hwaits, hpending, ?_⟩
  intro t hmem
  rcases (history_orderly hsound.run).announced t hmem with hns | hrefused
  · exact hns (waiting_serving hsound.run hwaits)
  · cases hwrite.symm.trans (hsound.refused hrefused)

end Connection

end CodexSdk

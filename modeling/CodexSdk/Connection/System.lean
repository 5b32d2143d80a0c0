import CodexSdk.Client.Closing

/-!
# A client on its transport

`transport/mod.rs` puts two tasks between a client and the bytes of its transport: the reader,
which parses what the transport yields and queues it for the inbound loop, and the writer, which
takes the frames the calls have queued and reports to the inbound loop when it cannot send one.
Both queues are bounded, and a send to a queue whose receiver is gone fails.

A state of the whole is a `Connection`, and `Connection.step` lets the transport yield a frame, the
writer send one, or a task of the client perform its next operation.  The client's steps are steps
of the machine of `CodexSdk.Client.Calls`, in which the queues now decide what was open there: what
the loop receives, and whether a frame is accepted (`Connection.Acts`).
-/

set_option autoImplicit false

namespace CodexSdk

open Json Interleave

/-! ## The transport -/

def outboundCapacity : Nat := 256

def inboundCapacity : Nat := 1024

/-- One step of a transport's inbound stream. -/
inductive RawFrame
  /-- A payload that should be parsed as a JSON value. -/
  | payload (bytes : List UInt8)
  /-- A frame with no JSON payload; keep reading. -/
  | skip
  /-- The transport terminated; forward the error and stop reading. -/
  | closed (err : ClientError)
  /-- The underlying stream ended without an explicit close; stop silently. -/
  | eof

/-- The parser of payloads, whose errors are their texts, and what a frame is called in them. -/
structure Wire where
  parse : List UInt8 → Except String Value
  context : String

/-- What the reader makes of a payload. -/
def Wire.read (wire : Wire) (bytes : List UInt8) : Except ClientError Value :=
  (wire.parse bytes).mapError fun err => .invalidMessage s!"failed to parse {wire.context}: {err}"

/-- What the reader forwards of a frame. -/
def RawFrame.item (wire : Wire) : RawFrame → Option (Except ClientError Value)
  | .payload bytes => some (wire.read bytes)
  | .closed err => some (.error err)
  | .skip | .eof => none

/-! ## The system -/

structure Connection where
  config : ClientConfig
  /-- What the transport has yielded, most recent first. -/
  pulled : List RawFrame
  /-- The reader has not stopped. -/
  reading : Bool
  /-- The writer has not stopped. -/
  writing : Bool
  inbound : List (Except ClientError Value)
  outbound : List Value

def Connection.start (env : Env) : Connection := ⟨.start env, [], true, true, [], []⟩

/-- The inbound loop has exited, and its receiver is gone. -/
def Connection.exited (c : Connection) : Bool :=
  match c.config.tasks .inboundLoop with
  | .live (.ret .exited) => true
  | _ => false

/-- `inbound_tx.send`, and whether there was a receiver; `none` while the queue is full. -/
def Connection.queue (c : Connection) (item : Except ClientError Value) :
    Option (Connection × Bool) :=
  if c.exited then some (c, false)
  else if c.inbound.length < inboundCapacity then
    some ({ c with inbound := c.inbound ++ [item] }, true)
  else none

/-- A round of `read_json_frames`. -/
def Connection.pull (wire : Wire) (c : Connection) (frame : RawFrame) : Option Connection :=
  if c.reading then
    let c := { c with pulled := frame :: c.pulled }
    match frame with
    | .payload bytes => (c.queue (wire.read bytes)).map fun r => { r.1 with reading := r.2 }
    | .skip => some c
    | .closed err => (c.queue (.error err)).map fun r => { r.1 with reading := false }
    | .eof => some { c with reading := false }
  else none

/-- A round of `write_json_frames`; `result` is what serializing and sending the frame came to. -/
def Connection.write (c : Connection) (result : Except ClientError Unit) : Option Connection :=
  if c.writing then
    match c.outbound with
    | [] => none
    | _ :: outbound =>
      let c := { c with outbound := outbound }
      match result with
      | .ok _ => some c
      | .error err => (c.queue (.error err)).map fun r => { r.1 with writing := false }
  else none

/-- The queues decide what the loop receives and whether a frame is accepted; `none` while an
operation has to wait for them. -/
def Connection.choose (c : Connection) (ch : Choice) : Op → Option Choice
  | .inboundRecv => match c.inbound with
    | item :: _ => some (.deliver (some item))
    | [] => if c.reading || c.writing then none else some (.deliver none)
  | .outboundSend _ =>
    if c.writing then if c.outbound.length < outboundCapacity then some .proceed else none
    else some .refuse
  | _ => some ch

/-- The queues after an operation. -/
def Connection.after (c : Connection) : Op → Connection
  | .inboundRecv => { c with inbound := c.inbound.tail }
  | .outboundSend frame =>
    if c.writing then { c with outbound := c.outbound ++ [frame] } else c
  | _ => c

abbrev ClientLabel := Machine.Label Tid Call Choice

/-- A step of the client.  Its inbound loop is a task nobody can drop. -/
def Connection.act (env : Env) (c : Connection) : ClientLabel → Option Connection
  | .run t ch => match c.config.tasks t with
    | .live (.op o _) => (c.choose ch o).bind fun ch =>
      ((client env).stepLabel c.config (.run t ch)).map fun config =>
        { c.after o with config := config }
    | _ => none
  | .drop .inboundLoop => none
  | label => ((client env).stepLabel c.config label).map fun config => { c with config := config }

inductive Connection.Label
  | pull (frame : RawFrame)
  | write (result : Except ClientError Unit)
  | act (label : ClientLabel)

def Connection.step (env : Env) (wire : Wire) (c : Connection) :
    Connection.Label → Option Connection
  | .pull frame => c.pull wire frame
  | .write result => c.write result
  | .act label => c.act env label

inductive Connection.Reachable (env : Env) (wire : Wire) : Connection → Prop
  | start : Reachable env wire (.start env)
  | step {c c' : Connection} (h : Reachable env wire c) (label : Connection.Label)
      (hs : c.step env wire label = some c') : Reachable env wire c'

def Connection.runLabels (env : Env) (wire : Wire) (c : Connection) :
    List Connection.Label → Option Connection
  | [] => some c
  | label :: labels => (c.step env wire label).bind fun c' => c'.runLabels env wire labels

section

variable {env : Env} {wire : Wire} {c c' : Connection}

/-- A schedule that goes through leads to a reachable state. -/
theorem Connection.runLabels_reachable {labels : List Connection.Label}
    (h : c.runLabels env wire labels = some c') (hc : c.Reachable env wire) :
    c'.Reachable env wire := by
  induction labels generalizing c with
  | nil => cases h; exact hc
  | cons label labels ih =>
    obtain ⟨c₁, hs, hrest⟩ := Option.bind_eq_some_iff.1 h
    exact ih hrest (hc.step label hs)

theorem Connection.exited_iff :
    c.exited = true ↔ c.config.tasks .inboundLoop = .live (.ret .exited) := by
  unfold Connection.exited
  split
  · rename_i heq
    simp [heq]
  · rename_i hne
    simpa using hne

/-! ## What a step does -/

/-- A send to the inbound queue: the item is queued for the loop, unless that has exited. -/
theorem Connection.queue_cases {item : Except ClientError Value} {r : Connection × Bool}
    (h : c.queue item = some r) :
    (c.exited = true ∧ r = (c, false)) ∨
      (c.exited = false ∧ r = ({ c with inbound := c.inbound ++ [item] }, true)) := by
  unfold Connection.queue at h
  cases hexit : c.exited with
  | true =>
    rw [hexit, if_pos rfl] at h
    exact .inl ⟨rfl, (Option.some.inj h).symm⟩
  | false =>
    rw [hexit, if_neg (by simp)] at h
    split at h
    · exact .inr ⟨rfl, (Option.some.inj h).symm⟩
    · cases h

/-- A round of the reader: what the frame is forwarded as is queued, unless the loop has exited. -/
structure Connection.Pulls (wire : Wire) (c : Connection) (frame : RawFrame) (c' : Connection) :
    Prop where
  config : c'.config = c.config
  pulled : c'.pulled = frame :: c.pulled
  was_reading : c.reading = true
  writing : c'.writing = c.writing
  queue : (∃ item, frame.item wire = some item ∧ c'.inbound = c.inbound ++ [item]) ∨
    c'.inbound = c.inbound ∧ (frame.item wire = none ∨ c.exited = true)

theorem Connection.pull_cases {frame : RawFrame} (h : c.pull wire frame = some c') :
    Connection.Pulls wire c frame c' := by
  rw [Connection.pull] at h
  split at h
  · rename_i hread
    cases frame with
    | payload bytes =>
      obtain ⟨r, hr, rfl⟩ := Option.map_eq_some_iff.1 h
      rcases Connection.queue_cases hr with ⟨hexit, rfl⟩ | ⟨-, rfl⟩
      · exact ⟨rfl, rfl, hread, rfl, .inr ⟨rfl, .inr hexit⟩⟩
      · exact ⟨rfl, rfl, hread, rfl, .inl ⟨_, rfl, rfl⟩⟩
    | closed err =>
      obtain ⟨r, hr, rfl⟩ := Option.map_eq_some_iff.1 h
      rcases Connection.queue_cases hr with ⟨hexit, rfl⟩ | ⟨-, rfl⟩
      · exact ⟨rfl, rfl, hread, rfl, .inr ⟨rfl, .inr hexit⟩⟩
      · exact ⟨rfl, rfl, hread, rfl, .inl ⟨_, rfl, rfl⟩⟩
    | skip => cases h; exact ⟨rfl, rfl, hread, rfl, .inr ⟨rfl, .inl rfl⟩⟩
    | eof => cases h; exact ⟨rfl, rfl, hread, rfl, .inr ⟨rfl, .inl rfl⟩⟩
  · cases h

/-- A round of the writer: it goes on, or stops and reports an error to the loop. -/
structure Connection.Writes (c c' : Connection) : Prop where
  config : c'.config = c.config
  pulled : c'.pulled = c.pulled
  reading : c'.reading = c.reading
  was_writing : c.writing = true
  queue : (c'.writing = true ∧ c'.inbound = c.inbound) ∨
    c'.writing = false ∧ ((∃ err, c'.inbound = c.inbound ++ [.error err]) ∨
      c'.inbound = c.inbound ∧ c.exited = true)

theorem Connection.write_cases {result : Except ClientError Unit} (h : c.write result = some c') :
    Connection.Writes c c' := by
  rw [Connection.write] at h
  split at h
  · rename_i hwrite
    split at h
    · cases h
    · cases result with
      | ok _ => cases h; exact ⟨rfl, rfl, rfl, hwrite, .inl ⟨hwrite, rfl⟩⟩
      | error err =>
        obtain ⟨r, hr, rfl⟩ := Option.map_eq_some_iff.1 h
        rcases Connection.queue_cases hr with ⟨hexit, rfl⟩ | ⟨-, rfl⟩
        · exact ⟨rfl, rfl, rfl, hwrite, .inr ⟨rfl, .inr ⟨rfl, hexit⟩⟩⟩
        · exact ⟨rfl, rfl, rfl, hwrite, .inr ⟨rfl, .inl ⟨_, rfl⟩⟩⟩
  · cases h

/-- What a step of the client does to the queues. -/
inductive Connection.Acts (c c' : Connection) : ClientEvent → Prop
  | received {t : Tid} {item : Except ClientError Value} (hin : c.inbound = item :: c'.inbound) :
      Acts c c' (.op t .inboundRecv (some item))
  | ended {t : Tid} (hin : c.inbound = []) (hin' : c'.inbound = []) (hread : c.reading = false)
      (hwrite : c.writing = false) : Acts c c' (.op t .inboundRecv none)
  | accepted {t : Tid} {frame : Value} (hwrite : c.writing = true) (hin : c'.inbound = c.inbound)
      (hout : c'.outbound = c.outbound ++ [frame]) : Acts c c' (.op t (.outboundSend frame) true)
  | refused {t : Tid} {frame : Value} (hwrite : c.writing = false) (hin : c'.inbound = c.inbound)
      (hout : c'.outbound = c.outbound) : Acts c c' (.op t (.outboundSend frame) false)
  | other {e : ClientEvent} (hrecv : ∀ t item, e ≠ .op t .inboundRecv item)
      (hsend : ∀ t frame sent, e ≠ .op t (.outboundSend frame) sent)
      (hin : c'.inbound = c.inbound) (hout : c'.outbound = c.outbound) : Acts c c' e

/-- A step of the client is a step of the machine, and leaves reader and writer alone. -/
structure Connection.ClientStep (env : Env) (c c' : Connection) (e : ClientEvent) : Prop where
  step : (client env).Step c.config e c'.config
  acts : Connection.Acts c c' e
  pulled : c'.pulled = c.pulled
  reading : c'.reading = c.reading
  writing : c'.writing = c.writing

/-- One operation of a task. -/
theorem Connection.act_run {t : Tid} {ch : Choice} (h : c.act env (.run t ch) = some c') :
    ∃ e, Connection.ClientStep env c c' e := by
  rw [Connection.act] at h
  split at h
  · rename_i o k ht
    obtain ⟨ch', hch, h⟩ := Option.bind_eq_some_iff.1 h
    obtain ⟨config', hstep, rfl⟩ := Option.map_eq_some_iff.1 h
    simp only [Machine.stepLabel, ht] at hstep
    obtain ⟨⟨a, s⟩, hx, rfl⟩ := Option.map_eq_some_iff.1 hstep
    have hmachine := Machine.Step.op ht hx
    cases o with
    | inboundRecv =>
      refine ⟨_, hmachine, ?_, rfl, rfl, rfl⟩
      rw [Connection.choose] at hch
      split at hch
      · rename_i item rest hin
        cases hch
        cases hx
        exact .received (by simp [Connection.after, hin])
      · rename_i hin
        split at hch
        · cases hch
        · rename_i hstopped
          cases hch
          cases hx
          obtain ⟨hread, hwrite⟩ : c.reading = false ∧ c.writing = false := by simpa using hstopped
          exact .ended hin (by simp [Connection.after, hin]) hread hwrite
    | outboundSend frame =>
      rw [Connection.choose] at hch
      cases hwrite : c.writing with
      | true =>
        rw [hwrite, if_pos rfl] at hch
        split at hch <;> cases hch
        cases hx
        have hafter :
            c.after (.outboundSend frame) = { c with outbound := c.outbound ++ [frame] } := by
          rw [Connection.after, if_pos hwrite]
        rw [hafter]
        exact ⟨_, hmachine, .accepted hwrite rfl rfl, rfl, rfl, hwrite ▸ rfl⟩
      | false =>
        rw [hwrite, if_neg (by simp)] at hch
        cases hch
        cases hx
        have hafter : c.after (.outboundSend frame) = c := by
          rw [Connection.after, if_neg (by simp [hwrite])]
        rw [hafter]
        exact ⟨_, hmachine, .refused hwrite rfl rfl, rfl, rfl, rfl⟩
    | _ => exact ⟨_, hmachine, .other (by simp) (by simp) rfl rfl, rfl, rfl, rfl⟩
  · cases h

/-- **Every step of the client** is one of the machine. -/
theorem Connection.act_step {label : ClientLabel} (h : c.act env label = some c') :
    ∃ e, Connection.ClientStep env c c' e := by
  cases label with
  | run t ch => exact Connection.act_run h
  | spawn t call =>
    obtain ⟨config', hstep, rfl⟩ := Option.map_eq_some_iff.1 h
    simp only [Machine.stepLabel] at hstep
    split at hstep
    · rename_i ht
      cases hstep
      exact ⟨_, .spawn ht, .other (by simp) (by simp) rfl rfl, rfl, rfl, rfl⟩
    · cases hstep
  | drop t =>
    cases t with
    | inboundLoop => cases h
    | caller n =>
      obtain ⟨config', hstep, rfl⟩ := Option.map_eq_some_iff.1 h
      simp only [Machine.stepLabel] at hstep
      split at hstep
      · rename_i ht
        split at hstep
        · rename_i hawaits
          cases hstep
          exact ⟨_, .drop ht hawaits, .other (by simp) (by simp) rfl rfl, rfl, rfl, rfl⟩
        · cases hstep
      · cases hstep

/-- **A run of the connection is a run of its client.** -/
theorem Connection.Reachable.run (h : c.Reachable env wire) :
    (client env).Run Machine.anyStep (ClientConfig.start env) c.config := by
  induction h with
  | start => exact .init
  | @step c c' _ label hs ih =>
    cases label with
    | pull frame => exact (Connection.pull_cases hs).config ▸ ih
    | write result => exact (Connection.write_cases hs).config ▸ ih
    | act label =>
      obtain ⟨e, hstep⟩ := Connection.act_step hs
      exact ih.step hstep.step trivial

end

end CodexSdk

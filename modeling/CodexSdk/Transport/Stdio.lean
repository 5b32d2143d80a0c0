import Mathlib.Data.Bool.AllAny
import CodexSdk.Connection.Delivery
import CodexSdk.Delimited

/-!
# A client on a child process

`transport/stdio.rs`: the writer puts every frame on a line of its own on the child's input, and the
reader takes the lines of the child's output one by one.  The bytes come in pieces that have nothing
to do with the lines, a frame may have been written in part, and a `StdioConnection` has for both
pipes what has gone into them.

What the writer and the reader rest on is that a line is a frame: `serde_json` escapes control
characters, so that there is no line break in what it writes (`ReadsBack`).  Then the child can read
the frames that calls were told are accepted, and nothing else (`stdin_in_order`), and what the
child has written is what the inbound loop is offered (`stdout_in_order`).
-/

set_option autoImplicit false

namespace CodexSdk

open Json Delimited

/-! ## Lines -/

def newline : UInt8 := 0x0A

def carriageReturn : UInt8 := 0x0D

def utf8 (text : String) : List UInt8 := text.toByteArray.data.toList

/-- The frames as `write_json_frames` and its `send_frame` write them; `encode` is
`serde_json::to_string`. -/
def jsonLines (encode : Value → String) (frames : List Value) : List UInt8 :=
  join newline (frames.map fun frame => utf8 (encode frame))

/-- What `next_line` leaves of a line: a line break may be `"\r\n"`. -/
def stripCarriageReturn (line : List UInt8) : List UInt8 :=
  if line.getLast? = some carriageReturn then line.dropLast else line

/-- A line has to be text. -/
def lineFrame (line payload : List UInt8) : RawFrame :=
  if (ByteArray.mk line.toArray).validateUTF8 then .payload payload
  else .closed (.io "stream did not contain valid UTF-8")

/-- `next_frame` of the reader, and what it leaves of the output; `none` while it has to wait. -/
def nextFrame (stdout : List UInt8) (ended : Bool) : Option (RawFrame × List UInt8) :=
  match next newline stdout with
  | some (line, rest) => some (lineFrame line (stripCarriageReturn line), rest)
  | none =>
    if ended then
      if stdout = [] then some (.closed .transportClosed, [])
      else some (lineFrame stdout stdout, [])
    else none

/-! ## The system -/

structure StdioConnection where
  connection : Connection
  /-- All that was written to the child. -/
  stdin : List UInt8
  /-- What has come from the child and was not read. -/
  stdout : List UInt8
  /-- Nothing more will come. -/
  ended : Bool

namespace StdioConnection

inductive Label
  | arrive (bytes : List UInt8)
  | close
  | read
  /-- The writer writes a frame, or some bytes of it before that fails. -/
  | write (failure : Option (Nat × String))
  | act (label : ClientLabel)

section

variable (env : Env) (wire : Wire) (encode : Value → String)

/-- What sending a frame comes to. -/
def writeResult : Option (Nat × String) → Except ClientError Unit
  | none => .ok ()
  | some (_, message) => .error (.io message)

/-- The bytes of a line that are written. -/
def writtenBytes (line : List UInt8) : Option (Nat × String) → List UInt8
  | none => line
  | some (count, _) => line.take count

def step (x : StdioConnection) : Label → Option StdioConnection
  | .arrive bytes => if x.ended then none else some { x with stdout := x.stdout ++ bytes }
  | .close => some { x with ended := true }
  | .read => do
    let (frame, stdout) ← nextFrame x.stdout x.ended
    let connection ← x.connection.pull wire frame
    return { x with connection, stdout }
  | .write failure => do
    let frame ← x.connection.outbound.head?
    let connection ← x.connection.write (writeResult failure)
    let stdin := x.stdin ++ writtenBytes (jsonLines encode [frame]) failure
    return { x with connection, stdin }
  | .act label => (x.connection.act env label).map fun connection => { x with connection }

/-- What a step adds to what has come from the child. -/
def arrivedBy : Label → List UInt8
  | .arrive bytes => bytes
  | .close | .read | .write _ | .act _ => []

/-- What a step is for the connection. -/
def takenBy (x : StdioConnection) : Label → List (Value × Except ClientError Unit)
  | .write failure => x.connection.takenBy (.write (writeResult failure))
  | .arrive _ | .close | .read | .act _ => []

/-- A run, with what the writer has taken and what has come from the child. -/
inductive Runs : List (Value × Except ClientError Unit) → List UInt8 → StdioConnection → Prop
  | start : Runs [] [] ⟨.start env, [], [], false⟩
  | step {sent : List (Value × Except ClientError Unit)} {arrived : List UInt8}
      {x x' : StdioConnection} (h : Runs sent arrived x) (label : Label)
      (hs : x.step env wire encode label = some x') :
      Runs (sent ++ x.takenBy label) (arrived ++ arrivedBy label) x'

end

/-! ## A line is a frame -/

/-- What is relied on of `serde_json`: a value is written without control characters, and read
back. -/
structure ReadsBack (wire : Wire) (encode : Value → String) (frame : Value) : Prop where
  parse_eq : wire.parse (utf8 (encode frame)) = .ok frame
  visible : ∀ byte ∈ utf8 (encode frame), 0x20 ≤ byte

section

variable {env : Env} {wire : Wire} {encode : Value → String} {frame : Value} {frames : List Value}

theorem ReadsBack.newline_notMem (h : ReadsBack wire encode frame) :
    newline ∉ utf8 (encode frame) :=
  fun hmem => absurd (h.visible newline hmem) (by decide)

theorem newline_notMem_lines (h : ∀ frame ∈ frames, ReadsBack wire encode frame) :
    ∀ line ∈ frames.map fun frame => utf8 (encode frame), newline ∉ line := by
  intro line hline
  obtain ⟨frame, hframe, rfl⟩ := List.mem_map.1 hline
  exact (h frame hframe).newline_notMem

theorem jsonLines_append (frames frames' : List Value) : jsonLines encode (frames ++ frames') =
    jsonLines encode frames ++ jsonLines encode frames' := by
  rw [jsonLines, List.map_append, join_append]
  rfl

/-- **The complete lines** in a part of what was written are the first frames of it. -/
theorem complete_lines (h : ∀ frame ∈ frames, ReadsBack wire encode frame) {bytes : List UInt8}
    (hbytes : bytes <+: jsonLines encode frames) :
    (split newline bytes).1 =
        (frames.take (split newline bytes).1.length).map fun frame => utf8 (encode frame) := by
  have hprefix := complete_of_part (newline_notMem_lines h) hbytes
  rw [List.map_take]
  exact List.prefix_iff_eq_take.1 hprefix

/-- What is read of a line that a value was written on. -/
theorem ReadsBack.item (h : ReadsBack wire encode frame) :
    (lineFrame (utf8 (encode frame)) (stripCarriageReturn (utf8 (encode frame)))).item wire =
      some (.ok frame) := by
  have hvalid : (ByteArray.mk (utf8 (encode frame)).toArray).validateUTF8 = true := by
    rw [ByteArray.validateUTF8_eq_true_iff, utf8, Array.toArray_toList]
    exact (encode frame).isValidUTF8
  have hstrip : stripCarriageReturn (utf8 (encode frame)) = utf8 (encode frame) := by
    rw [stripCarriageReturn, if_neg]
    intro hlast
    exact absurd (h.visible _ (List.mem_of_getLast? hlast)) (by decide)
  rw [lineFrame, if_pos hvalid, hstrip, RawFrame.item, Wire.read, h.parse_eq]
  rfl

end

/-! ## What the child can read -/

section

variable {env : Env} {wire : Wire} {encode : Value → String} {x x' : StdioConnection}
  {sent : List (Value × Except ClientError Unit)} {arrived : List UInt8}

/-- A run is one of the connection. -/
theorem Runs.sends (h : Runs env wire encode sent arrived x) :
    Connection.Sends env wire sent x.connection := by
  induction h with
  | start => exact .start
  | @step sent arrived x x' _ label hs ih =>
    rcases label with bytes | _ | _ | failure | label
    · rw [StdioConnection.step] at hs
      split at hs
      · simp at hs
      · obtain rfl := Option.some.inj hs
        simpa [takenBy] using ih
    · obtain rfl := Option.some.inj hs
      simpa [takenBy] using ih
    · obtain ⟨⟨frame, stdout⟩, -, hs⟩ := Option.bind_eq_some_iff.1 hs
      obtain ⟨connection, hpull, hsame⟩ := Option.bind_eq_some_iff.1 hs
      obtain rfl := Option.some.inj hsame
      exact ih.step (.pull frame) hpull
    · obtain ⟨frame, -, hs⟩ := Option.bind_eq_some_iff.1 hs
      obtain ⟨connection, hwrite, hsame⟩ := Option.bind_eq_some_iff.1 hs
      obtain rfl := Option.some.inj hsame
      exact ih.step (.write _) hwrite
    · obtain ⟨connection, hact, hsame⟩ := Option.map_eq_some_iff.1 hs
      obtain rfl := hsame
      exact ih.step (.act label) hact

/-- What was written are the lines of the frames that were taken, and all of them unless one
failed. -/
structure Written (encode : Value → String) (sent : List (Value × Except ClientError Unit))
    (x : StdioConnection) : Prop where
  lines : x.stdin <+: jsonLines encode (sent.map Prod.fst)
  all : (∀ y ∈ sent, y.2 = .ok ()) → x.stdin = jsonLines encode (sent.map Prod.fst)

/-- The writer adds a line, or part of one. -/
theorem Written.write (h : Written encode sent x)
    (hsends : Connection.Sends env wire sent x.connection) {failure : Option (Nat × String)}
    (hs : x.step env wire encode (.write failure) = some x') :
    Written encode (sent ++ x.takenBy (.write failure)) x' := by
  obtain ⟨frame, hhead, hs⟩ := Option.bind_eq_some_iff.1 hs
  obtain ⟨connection, hwrite, hsame⟩ := Option.bind_eq_some_iff.1 hs
  obtain rfl := Option.some.inj hsame
  have hstdin := h.all (hsends.accounted.writer.going (Connection.write_cases hwrite).was_writing)
  have htaken : x.takenBy (.write failure) = [(frame, writeResult failure)] := by
    rw [takenBy, Connection.takenBy, hhead]
    rfl
  rw [htaken]
  have hlines : jsonLines encode ((sent ++ [(frame, writeResult failure)]).map Prod.fst) =
      x.stdin ++ jsonLines encode [frame] := by
    rw [List.map_append, jsonLines_append, hstdin]
    rfl
  rcases failure with _ | ⟨count, message⟩
  · exact ⟨hlines ▸ List.prefix_rfl, fun _ => hlines.symm⟩
  · refine ⟨?_, fun hok => ?_⟩
    · rw [hlines]
      exact (List.prefix_append_right_inj _).2 (List.take_prefix _ _)
    · have hlast := hok (frame, writeResult (some (count, message))) (by simp)
      simp [writeResult] at hlast

theorem Runs.written (h : Runs env wire encode sent arrived x) : Written encode sent x := by
  induction h with
  | start => exact ⟨List.prefix_rfl, fun _ => rfl⟩
  | @step sent arrived x x' h label hs ih =>
    have hquiet : x'.stdin = x.stdin → x.takenBy label = [] →
        Written encode (sent ++ x.takenBy label) x' := by
      intro hstdin htaken
      rw [htaken, List.append_nil]
      exact ⟨hstdin ▸ ih.lines, fun hok => hstdin.trans (ih.all hok)⟩
    rcases label with bytes | _ | _ | failure | label
    · rw [StdioConnection.step] at hs
      split at hs
      · simp at hs
      · obtain rfl := Option.some.inj hs
        exact hquiet rfl rfl
    · obtain rfl := Option.some.inj hs
      exact hquiet rfl rfl
    · obtain ⟨⟨frame, stdout⟩, -, hs⟩ := Option.bind_eq_some_iff.1 hs
      obtain ⟨connection, hpull, hsame⟩ := Option.bind_eq_some_iff.1 hs
      obtain rfl := Option.some.inj hsame
      exact hquiet rfl rfl
    · exact ih.write h.sends hs
    · obtain ⟨connection, hact, hsame⟩ := Option.map_eq_some_iff.1 hs
      obtain rfl := hsame
      exact hquiet rfl rfl

/-- **The child reads what was accepted.**  In every run, however far the bytes have got to the
child, the complete lines are the first of the frames that calls were told are accepted, in that
order; and a writer that goes on has put every frame it has taken on a line. -/
theorem stdin_in_order (h : Runs env wire encode sent arrived x)
    (hback : ∀ frame ∈ Connection.accepted x.connection.config.world.trace,
      ReadsBack wire encode frame) :
    (∀ bytes, bytes <+: x.stdin → (split newline bytes).1.map wire.parse <+:
      (Connection.accepted x.connection.config.world.trace).map .ok) ∧
    (x.connection.writing = true →
      (split newline x.stdin).1.map wire.parse = sent.map fun y => .ok y.1) := by
  obtain ⟨-, haccepted, hwriter⟩ := h.sends.accounted
  obtain ⟨hlines, hall⟩ := h.written
  rw [haccepted] at hback ⊢
  have hsent : ∀ frame ∈ sent.map Prod.fst, ReadsBack wire encode frame :=
    fun frame hframe => hback frame (List.mem_append_left _ hframe)
  have hparse : ∀ frames : List Value, (∀ frame ∈ frames, ReadsBack wire encode frame) →
      (frames.map fun frame => utf8 (encode frame)).map wire.parse = frames.map .ok := by
    intro frames hframes
    rw [List.map_map]
    exact List.map_congr_left fun frame hframe => (hframes frame hframe).parse_eq
  refine ⟨fun bytes hbytes => ?_, fun hwriting => ?_⟩
  · rw [complete_lines hsent (hbytes.trans hlines),
      hparse _ fun frame hframe => hsent frame (List.mem_of_mem_take hframe), List.map_append]
    exact (List.map_take ▸ List.take_prefix _ _).trans (List.prefix_append _ _)
  · have hsplit := split_join (newline_notMem_lines hsent) []
    rw [List.append_nil] at hsplit
    rw [hall (hwriter.going hwriting), jsonLines, hsplit, split, List.append_nil, hparse _ hsent,
      List.map_map]
    rfl

/-! ## What the child has written -/

/-- The frames that the reader makes of what has come from the child. -/
def frames (stdout : List UInt8) (ended : Bool) : List RawFrame :=
  (split newline stdout).1.map (fun line => lineFrame line (stripCarriageReturn line)) ++
    if ended then
      (if (split newline stdout).2 = [] then []
        else [lineFrame (split newline stdout).2 (split newline stdout).2]) ++
        [.closed .transportClosed]
    else []

/-- The next frame is the first of them, and the others are still to come, unless it was the end. -/
theorem nextFrame_spec {stdout rest : List UInt8} {ended : Bool} {frame : RawFrame}
    (h : nextFrame stdout ended = some (frame, rest)) :
    frames stdout ended = [frame] ∧ frame = .closed .transportClosed ∨
      frames stdout ended = frame :: frames rest ended := by
  rw [nextFrame] at h
  split at h
  · rename_i line rest' hnext
    obtain ⟨rfl, rfl⟩ := Prod.mk.inj (Option.some.inj h)
    right
    rw [frames, frames, split_of_next hnext]
    rfl
  · rename_i hnext
    have hsplit := split_of_notMem (next_eq_none hnext)
    split at h
    · rename_i hended
      split at h
      · rename_i hnil
        obtain ⟨rfl, rfl⟩ := Prod.mk.inj (Option.some.inj h)
        left
        simp [frames, hnil, hended, split]
      · rename_i hne
        obtain ⟨rfl, rfl⟩ := Prod.mk.inj (Option.some.inj h)
        right
        simp [frames, hsplit, hne, hended, split]
    · simp at h

/-- More frames come of more output. -/
theorem frames_arrive (stdout bytes : List UInt8) :
    frames stdout false <+: frames (stdout ++ bytes) false := by
  simp only [frames, Bool.false_eq_true, if_false, List.append_nil]
  exact (split_mono (List.prefix_append stdout bytes)).map _

theorem frames_close (stdout : List UInt8) (ended : Bool) :
    frames stdout ended <+: frames stdout true := by
  rcases ended with _ | _
  · simp only [frames, Bool.false_eq_true, if_false, List.append_nil, if_true]
    exact List.prefix_append _ _
  · exact List.prefix_rfl

/-- What was read and what is still to be read is what has come. -/
structure Read (arrived : List UInt8) (x : StdioConnection) : Prop where
  pulled : x.connection.pulled.reverse <+: frames arrived x.ended
  going : x.connection.reading = true →
    x.connection.pulled.reverse ++ frames x.stdout x.ended = frames arrived x.ended
  left : x.ended = false → x.connection.reading = true →
    (split newline x.stdout).2 = (split newline arrived).2

theorem Read.arrive (h : Read arrived x) (hended : x.ended = false) (bytes : List UInt8) :
    Read (arrived ++ bytes) { x with stdout := x.stdout ++ bytes } := by
  obtain ⟨hpulled, hgoing, hleft⟩ := h
  rw [hended] at hpulled hgoing
  refine ⟨?_, fun hreading => ?_, fun _ hreading => ?_⟩
  · show _ <+: frames (arrived ++ bytes) x.ended
    rw [hended]
    exact hpulled.trans (frames_arrive arrived bytes)
  · have hsame := hgoing hreading
    show _ ++ frames (x.stdout ++ bytes) x.ended = frames (arrived ++ bytes) x.ended
    simp only [frames, hended, Bool.false_eq_true, if_false, List.append_nil] at hsame ⊢
    rw [split_append arrived, split_append x.stdout, hleft hended hreading, List.map_append,
      List.map_append, ← hsame, List.append_assoc]
  · show (split newline (x.stdout ++ bytes)).2 = (split newline (arrived ++ bytes)).2
    rw [split_append x.stdout, split_append arrived, hleft hended hreading]

theorem Read.close (h : Read arrived x) : Read arrived { x with ended := true } := by
  obtain ⟨hpulled, hgoing, hleft⟩ := h
  refine ⟨hpulled.trans (frames_close arrived x.ended), fun hreading => ?_, by simp⟩
  show _ ++ frames x.stdout true = frames arrived true
  have hsame := hgoing hreading
  rcases hended : x.ended with _ | _
  · rw [hended] at hsame
    simp only [frames, Bool.false_eq_true, if_false, List.append_nil, if_true] at hsame ⊢
    rw [hleft hended hreading, ← hsame, List.append_assoc]
  · rw [hended] at hsame
    exact hsame

/-- The reader takes a frame. -/
theorem Read.read (h : Read arrived x) {frame : RawFrame} {stdout : List UInt8}
    {connection : Connection} (hnext : nextFrame x.stdout x.ended = some (frame, stdout))
    (hpull : x.connection.pull wire frame = some connection) :
    Read arrived { x with connection := connection, stdout := stdout } := by
  obtain ⟨-, hgoing, hleft⟩ := h
  have hcases := Connection.pull_cases hpull
  have hsame := hgoing hcases.was_reading
  have hpulled : connection.pulled.reverse = x.connection.pulled.reverse ++ [frame] := by
    rw [hcases.pulled, List.reverse_cons]
  rcases nextFrame_spec hnext with ⟨hlast, rfl⟩ | hmore
  · have hstops : connection.reading = false := by
      rw [Connection.pull, if_pos hcases.was_reading] at hpull
      obtain ⟨r, -, rfl⟩ := Option.map_eq_some_iff.1 hpull
      rfl
    rw [hlast, ← hpulled] at hsame
    refine ⟨hsame ▸ List.prefix_rfl, fun hreading => ?_, fun _ hreading => ?_⟩
    · exact absurd (hstops.symm.trans hreading) (by simp)
    · exact absurd (hstops.symm.trans hreading) (by simp)
  · rw [hmore, List.append_cons, ← hpulled] at hsame
    refine ⟨hsame ▸ List.prefix_append _ _, fun _ => hsame, fun hended _ => ?_⟩
    rw [nextFrame] at hnext
    split at hnext
    · rename_i line rest hline
      obtain ⟨-, rfl⟩ := Prod.mk.inj (Option.some.inj hnext)
      have hrest := hleft hended hcases.was_reading
      rwa [split_of_next hline] at hrest
    · rw [hended] at hnext
      simp at hnext

theorem Runs.read (h : Runs env wire encode sent arrived x) : Read arrived x := by
  induction h with
  | start => exact ⟨List.prefix_rfl, fun _ => rfl, fun _ _ => rfl⟩
  | @step sent arrived x x' h label hs ih =>
    have hquiet : x'.connection.pulled = x.connection.pulled →
        x'.connection.reading = x.connection.reading → x'.stdout = x.stdout →
        x'.ended = x.ended → Read arrived x' := by
      intro hpulled hreading hstdout hended
      exact ⟨by rw [hpulled, hended]; exact ih.pulled,
        by rw [hpulled, hreading, hstdout, hended]; exact ih.going,
        by rw [hreading, hstdout, hended]; exact ih.left⟩
    rcases label with bytes | _ | _ | failure | label
    · rw [StdioConnection.step] at hs
      split at hs
      · simp at hs
      · rename_i hended
        obtain rfl := Option.some.inj hs
        exact ih.arrive (by simpa using hended) bytes
    · obtain rfl := Option.some.inj hs
      rw [arrivedBy, List.append_nil]
      exact ih.close
    · obtain ⟨⟨frame, stdout⟩, hnext, hs⟩ := Option.bind_eq_some_iff.1 hs
      obtain ⟨connection, hpull, hsame⟩ := Option.bind_eq_some_iff.1 hs
      obtain rfl := Option.some.inj hsame
      rw [arrivedBy, List.append_nil]
      exact ih.read hnext hpull
    · obtain ⟨frame, -, hs⟩ := Option.bind_eq_some_iff.1 hs
      obtain ⟨connection, hwrite, hsame⟩ := Option.bind_eq_some_iff.1 hs
      obtain rfl := Option.some.inj hsame
      have hcases := Connection.write_cases hwrite
      rw [arrivedBy, List.append_nil]
      exact hquiet hcases.pulled hcases.reading rfl rfl
    · obtain ⟨connection, hact, hsame⟩ := Option.map_eq_some_iff.1 hs
      obtain rfl := hsame
      obtain ⟨e, hclient⟩ := Connection.act_step hact
      rw [arrivedBy, List.append_nil]
      exact hquiet hclient.pulled hclient.reading rfl rfl

/-- What the reader makes of the lines of values, and of the end after them. -/
theorem items_of_lines {values : List Value} (hback : ∀ v ∈ values, ReadsBack wire encode v)
    (harrived : arrived <+: jsonLines encode values) {ended : Bool}
    (hended : ended = true → arrived = jsonLines encode values) :
    (frames arrived ended).filterMap (RawFrame.item wire) =
      (values.take (split newline arrived).1.length).map .ok ++
        if ended then [.error .transportClosed] else [] := by
  have hitems : ∀ l : List Value, (∀ v ∈ l, ReadsBack wire encode v) →
      ((l.map fun v => utf8 (encode v)).map fun line =>
        lineFrame line (stripCarriageReturn line)).filterMap (RawFrame.item wire) = l.map .ok := by
    intro l hl
    rw [List.map_map, List.filterMap_map, ← List.filterMap_eq_map]
    exact List.filterMap_congr fun v hv => (hl v hv).item
  rw [frames, List.filterMap_append]
  refine congrArg₂ _ ?_ ?_
  · have hlines := complete_lines hback harrived
    generalize (split newline arrived).1.length = n at hlines ⊢
    rw [hlines]
    exact hitems _ fun v hv => hback v (List.mem_of_mem_take hv)
  · rcases ended with _ | _
    · rfl
    · have hsplit := split_join (newline_notMem_lines hback) []
      rw [List.append_nil] at hsplit
      have hleft : (split newline arrived).2 = [] := by
        rw [hended rfl, jsonLines, hsplit]
        rfl
      rw [hleft]
      rfl

/-- **What the child has written is offered to the loop.**  Where the output of the child is a part
of the lines of some values, however it comes in pieces, the reader forwards the values in order and
then the end; and as long as it goes on, what it has forwarded and what is still to be read are the
values on the complete lines that have come. -/
theorem stdout_in_order (h : Runs env wire encode sent arrived x) {values : List Value}
    (hback : ∀ v ∈ values, ReadsBack wire encode v)
    (harrived : arrived <+: jsonLines encode values)
    (hended : x.ended = true → arrived = jsonLines encode values) :
    x.connection.offered wire <+: values.map .ok ++ [.error .transportClosed] ∧
    (x.connection.reading = true →
      x.connection.offered wire ++ (frames x.stdout x.ended).filterMap (RawFrame.item wire) =
        (values.take (split newline arrived).1.length).map .ok ++
          if x.ended then [.error .transportClosed] else []) := by
  obtain ⟨hpulled, hgoing, -⟩ := h.read
  have hitems := items_of_lines hback harrived hended
  refine ⟨?_, fun hreading => ?_⟩
  · refine (hpulled.filterMap _).trans ?_
    rw [hitems]
    rcases hend : x.ended with _ | _
    · rw [List.map_take]
      simpa using (List.take_prefix _ _).trans (List.prefix_append _ _)
    · have hsplit := split_join (newline_notMem_lines hback) []
      rw [List.append_nil] at hsplit
      rw [hended hend, jsonLines, hsplit]
      simp [split]
  · rw [← hitems, ← hgoing hreading, List.filterMap_append]
    rfl

end

/-! ## A run -/

/-- A schedule. -/
def runLabels (env : Env) (wire : Wire) (encode : Value → String) (x : StdioConnection) :
    List Label → Option StdioConnection
  | [] => some x
  | label :: labels => (x.step env wire encode label).bind fun x' =>
    x'.runLabels env wire encode labels

theorem runs_of_runLabels {env : Env} {wire : Wire} {encode : Value → String}
    {x x' : StdioConnection} {sent : List (Value × Except ClientError Unit)} {arrived : List UInt8}
    {labels : List Label} (h : Runs env wire encode sent arrived x)
    (hrun : x.runLabels env wire encode labels = some x') :
    ∃ sent', Runs env wire encode sent' (arrived ++ labels.flatMap arrivedBy) x' := by
  induction labels generalizing x sent arrived with
  | nil =>
    obtain rfl := Option.some.inj hrun
    exact ⟨sent, (List.append_nil arrived).symm ▸ h⟩
  | cons label labels ih =>
    obtain ⟨x₁, hs, hrest⟩ := Option.bind_eq_some_iff.1 hrun
    rw [List.flatMap_cons, ← List.append_assoc]
    exact ih (h.step label hs) hrest

/-- Two values and their texts, and what tells the first from the second. -/
structure Texts where
  first : Value × String
  second : Value × String
  isFirst : Value → Bool
  first_eq : isFirst first.1 = true
  second_eq : isFirst second.1 = false
  texts_ne : utf8 second.2 ≠ utf8 first.2
  visible : ∀ byte ∈ utf8 first.2 ++ utf8 second.2, 0x20 ≤ byte

namespace Texts

variable (texts : Texts)

/-- What `serde_json` writes for the two. -/
def encode (value : Value) : String :=
  if texts.isFirst value then texts.first.2 else texts.second.2

/-- What it reads. -/
def wire : Wire :=
  ⟨fun bytes =>
    if bytes = utf8 texts.first.2 then .ok texts.first.1
    else if bytes = utf8 texts.second.2 then .ok texts.second.1
    else .error "expected value at line 1 column 1", "JSONL frame"⟩

theorem readsBack :
    ∀ value ∈ [texts.first.1, texts.second.1], ReadsBack texts.wire texts.encode value := by
  intro value hvalue
  rcases List.mem_cons.1 hvalue with rfl | hvalue
  · have htext : texts.encode texts.first.1 = texts.first.2 := if_pos texts.first_eq
    refine ⟨?_, fun byte hbyte => texts.visible byte (List.mem_append_left _ (htext ▸ hbyte))⟩
    rw [htext]
    exact if_pos rfl
  · obtain rfl := List.mem_singleton.1 hvalue
    have htext : texts.encode texts.second.1 = texts.second.2 := if_neg (by simp [texts.second_eq])
    refine ⟨?_, fun byte hbyte => texts.visible byte (List.mem_append_right _ (htext ▸ hbyte))⟩
    rw [htext]
    exact (if_neg texts.texts_ne).trans (if_pos rfl)

end Texts

/-- Two requests of one method. -/
def initializes : Texts where
  first := (requestFrame (.integer 1) methodInitialize .null,
    "\x7b\"id\":1,\"method\":\"initialize\",\"params\":null\x7d")
  second := (requestFrame (.integer 2) methodInitialize .null,
    "\x7b\"id\":2,\"method\":\"initialize\",\"params\":null\x7d")
  isFirst
    | .object ((_, .number (.posInt n)) :: _) => n == 1
    | _ => false
  first_eq := rfl
  second_eq := rfl
  texts_ne := by decide
  visible := List.all_iff_forall_prop.1 rfl

/-- Two requests are made, and their frames are written. -/
def requestsWritten : List Label :=
  [.act (.spawn (.caller 0) (.sendRawRequest methodInitialize .null none)),
      .act (.spawn (.caller 1) (.sendRawRequest methodInitialize .null none))]
    ++ List.replicate 5 (.act (.run (.caller 0) .proceed))
    ++ List.replicate 5 (.act (.run (.caller 1) .proceed)) ++ List.replicate 2 (.write none)

/-- The child can read the requests, one after the other. -/
theorem stdin_in_order_requests :
    ∃ sent arrived x, Runs defaultEnv initializes.wire initializes.encode sent arrived x ∧
      (split newline x.stdin).1.map initializes.wire.parse =
        [.ok initializes.first.1, .ok initializes.second.1] := by
  obtain ⟨x, hrun, haccepted, hout, hwriting⟩ : ∃ x : StdioConnection,
      StdioConnection.runLabels defaultEnv initializes.wire initializes.encode
        ⟨.start defaultEnv, [], [], false⟩ requestsWritten = some x ∧
      Connection.accepted x.connection.config.world.trace =
        [initializes.first.1, initializes.second.1] ∧
      x.connection.outbound = [] ∧ x.connection.writing = true := ⟨_, rfl, rfl, rfl, rfl⟩
  obtain ⟨sent, h⟩ := runs_of_runLabels .start hrun
  have htaken := h.sends.accounted.accepted
  rw [haccepted, hout, List.append_nil] at htaken
  have hback : ∀ frame ∈ Connection.accepted x.connection.config.world.trace,
      ReadsBack initializes.wire initializes.encode frame := by
    rw [haccepted]
    exact initializes.readsBack
  refine ⟨sent, _, x, h, ?_⟩
  have hparsed : ((sent.map Prod.fst).map .ok : List (Except String Value)) =
      [.ok initializes.first.1, .ok initializes.second.1] := by
    rw [← htaken]
    rfl
  rw [(stdin_in_order h hback).2 hwriting, ← hparsed, List.map_map]
  rfl

/-- Two notifications. -/
def pings : Texts where
  first := (notificationFrame "ping" .null, "\x7b\"method\":\"ping\",\"params\":null\x7d")
  second := (notificationFrame "pong" .null, "\x7b\"method\":\"pong\",\"params\":null\x7d")
  isFirst
    | .object ((_, .string method) :: _) => method == "ping"
    | _ => false
  first_eq := rfl
  second_eq := rfl
  texts_ne := by decide
  visible := List.all_iff_forall_prop.1 rfl

/-- They come in pieces: a part of the first, its rest with a part of the second, and the rest of
that.  The reader takes a line as soon as it is complete. -/
def pingsArrive : List Label :=
  let bytes := jsonLines pings.encode [pings.first.1, pings.second.1]
  [.arrive (bytes.take 5), .arrive ((bytes.drop 5).take 40), .read, .arrive (bytes.drop 45), .read]

/-- The notifications are offered to the loop in the order in which they came. -/
theorem stdout_in_order_pings :
    ∃ sent arrived x, Runs defaultEnv pings.wire pings.encode sent arrived x ∧
      x.connection.offered pings.wire = [.ok pings.first.1, .ok pings.second.1] := by
  obtain ⟨x, hrun, hreading, hstdout, hended⟩ : ∃ x : StdioConnection,
      StdioConnection.runLabels defaultEnv pings.wire pings.encode
        ⟨.start defaultEnv, [], [], false⟩ pingsArrive = some x ∧
      x.connection.reading = true ∧ x.stdout = [] ∧ x.ended = false := ⟨_, rfl, rfl, rfl, rfl⟩
  obtain ⟨sent, h⟩ := runs_of_runLabels .start hrun
  have hlines : [] ++ pingsArrive.flatMap arrivedBy =
      jsonLines pings.encode [pings.first.1, pings.second.1] := rfl
  obtain ⟨-, hall⟩ :=
    stdout_in_order h pings.readsBack (hlines ▸ List.prefix_rfl) fun _ => hlines
  have htwo : (split newline
      (jsonLines pings.encode [pings.first.1, pings.second.1])).1.length = 2 := rfl
  have heq := hall hreading
  rw [hstdout, hended, hlines, htwo] at heq
  exact ⟨sent, _, x, h, by simpa [frames, split] using heq⟩

end StdioConnection

end CodexSdk

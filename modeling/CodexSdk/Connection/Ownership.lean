import CodexSdk.Connection.Release
import Mathlib.Logic.Relation

/-!
# Who keeps a connection open

The writer stops when its channel is closed, and the channel is closed when its last sender is
dropped.  The sender is a field of `Inner`, which every client shares through an `Arc`, and so does
the inbound loop.

An `Ownership` is a connection with all references to `Inner`, and to the `CodexInner`s that `Codex`
and `Thread` values share.  The loop lets go of its reference when it exits, and nothing but the
other end makes it do so (`sender_released_iff`).
-/

set_option autoImplicit false

namespace CodexSdk

open Json Interleave

/-! ## References -/

/-- Whatever owns a reference to something shared. -/
inductive Owner
  /-- A `CodexClient` of a user. -/
  | client
  /-- A `Codex` of a user, or the one in a `Thread`. -/
  | codex (i : Nat)
  /-- The `CodexClient` in the `i`th `CodexInner`. -/
  | codexInner (i : Nat)
  | inboundLoop
  deriving DecidableEq

/-- What is behind an `Arc`. -/
inductive Shared
  | inner
  | codexInner (i : Nat)
  deriving DecidableEq

def Owner.target : Owner → Shared
  | client | codexInner _ | inboundLoop => .inner
  | codex i => .codexInner i

/-- The user can clone it, and drop it. -/
def Owner.IsHandle : Owner → Prop
  | client | codex _ => True
  | codexInner _ | inboundLoop => False

structure Ownership where
  connection : Connection
  owners : List Owner
  /-- How many `CodexInner`s have been made. -/
  codexes : Nat
  /-- The writer has found its channel closed, and has stopped. -/
  stopped : Bool

namespace Ownership

/-- `from_transport`. -/
def start (env : Env) : Ownership := ⟨.start env, [.client, .inboundLoop], 0, false⟩

/-- `Arc::strong_count`. -/
def strongCount (o : Ownership) (x : Shared) : Nat := o.owners.countP fun w => w.target = x

/-- Dropping a reference.  With the last one to a `CodexInner` goes the client in it. -/
def drop (o : Ownership) (w : Owner) : Ownership :=
  let o := { o with owners := o.owners.erase w }
  match w with
  | .codex i =>
    if o.strongCount (.codexInner i) = 0 then { o with owners := o.owners.erase (.codexInner i) }
    else o
  | _ => o

/-- The connection after a step: when the inbound loop has exited, its reference is gone. -/
def moved (o : Ownership) (c : Connection) : Ownership :=
  { o with
    connection := c
    owners := if c.exited then o.owners.erase .inboundLoop else o.owners }

/-- There is still something to call the client with. -/
def Held (o : Ownership) : Prop := ∃ w ∈ o.owners, w.IsHandle

/-- No call is under way. -/
def Idle (o : Ownership) : Prop :=
  ∀ n p, o.connection.config.tasks (.caller n) = .live p → ∃ r, p = .ret r

/-- A call needs something to be made with, and borrows it until it returns. -/
inductive Step (env : Env) (wire : Wire) (o : Ownership) : Ownership → Prop
  | connection {label : Connection.Label} {c : Connection}
      (hs : o.connection.step env wire label = some c)
      (hborrow : ∀ t call, label = .act (.spawn t call) → o.Held) : Step env wire o (o.moved c)
  | clone {w : Owner} (hw : w ∈ o.owners) (hhandle : w.IsHandle) :
      Step env wire o { o with owners := w :: o.owners }
  /-- `CodexClient::as_api`. -/
  | asApi (hw : .client ∈ o.owners) :
      Step env wire o { o with
        owners := .codex o.codexes :: .codexInner o.codexes :: o.owners
        codexes := o.codexes + 1 }
  /-- `Codex::client`. -/
  | client {i : Nat} (hw : .codex i ∈ o.owners) :
      Step env wire o { o with owners := .client :: o.owners }
  | drop {w : Owner} (hw : w ∈ o.owners) (hhandle : w.IsHandle)
      (hborrow : (o.drop w).Held ∨ o.Idle) : Step env wire o (o.drop w)
  | writerStops (hwriting : o.connection.writing = true) (hempty : o.connection.outbound = [])
      (hclosed : o.strongCount .inner = 0) : Step env wire o { o with stopped := true }

/-- Any number of steps. -/
abbrev Steps (env : Env) (wire : Wire) : Ownership → Ownership → Prop :=
  Relation.ReflTransGen (Step env wire)

/-! ## The invariant -/

structure Kept (env : Env) (wire : Wire) (o : Ownership) : Prop where
  reachable : o.connection.Reachable env wire
  loop : .inboundLoop ∈ o.owners ↔ o.connection.exited = false
  /-- A `CodexInner` lives as long as there is a `Codex` for it. -/
  codexInner : ∀ i, .codexInner i ∈ o.owners ↔ .codex i ∈ o.owners
  once : ∀ w, ¬ w.IsHandle → o.owners.count w ≤ 1
  made : ∀ i, .codex i ∈ o.owners → i < o.codexes
  stopped : o.stopped = true → o.strongCount .inner = 0

section

variable {env : Env} {wire : Wire} {o o' : Ownership}

theorem strongCount_inner_eq_zero :
    o.strongCount .inner = 0 ↔ ∀ w ∈ o.owners, w.target ≠ .inner := by
  rw [strongCount, List.countP_eq_zero]
  simp only [decide_eq_true_eq, ne_eq]

theorem moved_sublist (o : Ownership) (c : Connection) : (o.moved c).owners.Sublist o.owners := by
  rw [moved]
  split
  · exact List.erase_sublist
  · exact List.Sublist.refl _

/-- Once `Inner` is gone, nothing is held. -/
theorem Kept.not_held (h : Kept env wire o) (hzero : o.strongCount .inner = 0) : ¬ o.Held := by
  rw [strongCount_inner_eq_zero] at hzero
  rintro ⟨w, hw, hhandle⟩
  match w with
  | .client => exact hzero _ hw rfl
  | .codex i => exact hzero _ ((h.codexInner i).2 hw) rfl

/-- With nothing held, `Inner` is kept by the loop alone. -/
theorem Kept.released_iff (h : Kept env wire o) (hdropped : ¬ o.Held) :
    o.strongCount .inner = 0 ↔ o.connection.exited = true := by
  rw [strongCount_inner_eq_zero]
  constructor
  · intro hzero
    by_contra hexit
    exact hzero _ (h.loop.2 (Bool.eq_false_iff.2 hexit)) rfl
  · intro hexit w hw
    match w with
    | .client => exact (hdropped ⟨_, hw, trivial⟩).elim
    | .codex i => exact (hdropped ⟨_, hw, trivial⟩).elim
    | .codexInner i => exact (hdropped ⟨_, (h.codexInner i).1 hw, trivial⟩).elim
    | .inboundLoop => exact nomatch hexit.symm.trans (h.loop.1 hw)

/-- An owner that is there only once is gone when it is dropped. -/
theorem Kept.not_mem_erase (h : Kept env wire o) {w : Owner} (hw : ¬ w.IsHandle) :
    w ∉ o.owners.erase w := by
  rw [← List.count_eq_zero, List.count_erase_self]
  have honce := h.once w hw
  omega

theorem exited_step {c c' : Connection} {label : Connection.Label}
    (hs : c.step env wire label = some c') (hexit : c.exited = true) : c'.exited = true := by
  rw [Connection.exited_iff] at hexit ⊢
  match label with
  | .pull frame => rw [(Connection.pull_cases hs).config, hexit]
  | .write result => rw [(Connection.write_cases hs).config, hexit]
  | .act label =>
    obtain ⟨e, hstep⟩ := Connection.act_step hs
    exact hstep.step.returned hexit

theorem Kept.connection (h : Kept env wire o) {label : Connection.Label} {c : Connection}
    (hs : o.connection.step env wire label = some c) : Kept env wire (o.moved c) := by
  have hreach : c.Reachable env wire := h.reachable.step label hs
  have hsub := moved_sublist o c
  have hother : ∀ w, w ≠ .inboundLoop → (w ∈ (o.moved c).owners ↔ w ∈ o.owners) := by
    intro w hw
    rw [moved]
    split
    · exact List.mem_erase_of_ne hw
    · exact Iff.rfl
  refine ⟨hreach, ?_, fun i => ?_, fun w hw => Nat.le_trans (hsub.count_le w) (h.once w hw),
    fun i hi => h.made i (hsub.subset hi), fun hstopped => ?_⟩
  · show Owner.inboundLoop ∈ (if c.exited then _ else _) ↔ c.exited = false
    cases hexit : c.exited with
    | true =>
      rw [if_pos rfl]
      exact iff_of_false (h.not_mem_erase id) nofun
    | false =>
      rw [if_neg nofun, h.loop]
      refine iff_of_true (Bool.eq_false_iff.2 fun hexited => ?_) rfl
      exact nomatch hexit.symm.trans (exited_step hs hexited)
  · rw [hother (.codexInner i) nofun, hother (.codex i) nofun, h.codexInner]
  · have hzero := h.stopped hstopped
    rw [strongCount_inner_eq_zero] at hzero ⊢
    exact fun w hw => hzero w (hsub.subset hw)

/-- Another handle, to something that has one. -/
theorem Kept.cons (h : Kept env wire o) {w : Owner} (hhandle : w.IsHandle) (hheld : o.Held)
    (hcodex : ∀ i, w = .codex i → .codex i ∈ o.owners) :
    Kept env wire { o with owners := w :: o.owners } := by
  have hother : ∀ w', ¬ w'.IsHandle → w' ≠ w := by
    rintro w' hw' rfl
    exact hw' hhandle
  have hmem : ∀ i, .codex i ∈ w :: o.owners ↔ .codex i ∈ o.owners := by
    intro i
    rw [List.mem_cons]
    exact or_iff_right_of_imp fun heq => hcodex i heq.symm
  refine ⟨h.reachable, ?_, fun i => ?_, fun w' hw' => ?_, fun i hi => h.made i ((hmem i).1 hi),
    fun hstopped => (h.not_held (h.stopped hstopped) hheld).elim⟩
  · rw [List.mem_cons, or_iff_right (hother _ id), h.loop]
  · rw [List.mem_cons, or_iff_right (hother _ id), h.codexInner, hmem]
  · rw [List.count_cons_of_ne (hother w' hw').symm]
    exact h.once w' hw'

theorem Kept.asApi (h : Kept env wire o) (hw : .client ∈ o.owners) :
    Kept env wire { o with
      owners := .codex o.codexes :: .codexInner o.codexes :: o.owners
      codexes := o.codexes + 1 } := by
  have hfresh : .codexInner o.codexes ∉ o.owners := fun hmem =>
    absurd (h.made _ ((h.codexInner _).1 hmem)) (Nat.lt_irrefl _)
  refine ⟨h.reachable, ?_, fun i => ?_, fun w' hw' => ?_, fun i hi => ?_,
    fun hstopped => (h.not_held (h.stopped hstopped) ⟨_, hw, trivial⟩).elim⟩
  · show _ ∈ _ :: _ :: o.owners ↔ _
    rw [List.mem_cons, or_iff_right nofun, List.mem_cons, or_iff_right nofun, h.loop]
  · show _ ∈ _ :: _ :: o.owners ↔ _ ∈ _ :: _ :: o.owners
    rw [List.mem_cons, or_iff_right nofun, List.mem_cons, List.mem_cons, List.mem_cons,
      or_iff_right (a := Owner.codex i = .codexInner o.codexes) nofun, h.codexInner]
    simp only [Owner.codexInner.injEq, Owner.codex.injEq]
  · show List.count w' (_ :: _ :: o.owners) ≤ 1
    rw [List.count_cons_of_ne (by rintro rfl; exact hw' trivial), List.count_cons]
    split
    · rename_i heq
      exact Nat.le_of_eq (by rw [← beq_iff_eq.1 heq, List.count_eq_zero.2 hfresh])
    · exact h.once w' hw'
  · show i < o.codexes + 1
    rcases List.mem_cons.1 hi with heq | hi
    · rw [Owner.codex.inj heq]
      exact Nat.lt_succ_self _
    · rcases List.mem_cons.1 hi with heq | hi
      · exact nomatch heq
      · exact Nat.lt_succ_of_lt (h.made i hi)

/-- What dropping a handle leaves of the other owners. -/
theorem Kept.drop (h : Kept env wire o) {w : Owner} (hw : w ∈ o.owners) (hhandle : w.IsHandle) :
    Kept env wire (o.drop w) := by
  have hstopped : o.stopped = true → False := fun hstopped =>
    h.not_held (h.stopped hstopped) ⟨w, hw, hhandle⟩
  match w with
  | .client =>
    have hother : ∀ w' : Owner, w' ≠ .client → (w' ∈ o.owners.erase .client ↔ w' ∈ o.owners) :=
      fun w' hw' => List.mem_erase_of_ne hw'
    refine ⟨h.reachable, ?_, fun i => ?_,
      fun w' hw' => Nat.le_trans (List.erase_sublist.count_le w') (h.once w' hw'),
      fun i hi => h.made i (List.erase_subset hi), fun hs => (hstopped hs).elim⟩
    · exact (hother .inboundLoop nofun).trans h.loop
    · exact (hother (.codexInner i) nofun).trans
        ((h.codexInner i).trans (hother (.codex i) nofun).symm)
  | .codex i =>
    have hother : ∀ w' : Owner, w' ≠ .codex i →
        (w' ∈ o.owners.erase (.codex i) ↔ w' ∈ o.owners) := fun w' hw' => List.mem_erase_of_ne hw'
    have hlast : { o with owners := o.owners.erase (.codex i) }.strongCount (.codexInner i) = 0 ↔
        .codex i ∉ o.owners.erase (.codex i) := by
      rw [strongCount, List.countP_eq_zero]
      constructor
      · exact fun hzero hmem => hzero _ hmem (decide_eq_true rfl)
      · rintro hnone (_ | j | j | _) hmem htarget
        · exact nomatch of_decide_eq_true htarget
        · obtain rfl : j = i := Shared.codexInner.inj (of_decide_eq_true htarget)
          exact hnone hmem
        · exact nomatch of_decide_eq_true htarget
        · exact nomatch of_decide_eq_true htarget
    rw [Ownership.drop]
    split
    · rename_i hzero
      rw [hlast] at hzero
      have hrest : ∀ w' : Owner, w' ≠ .codexInner i →
          (w' ∈ (o.owners.erase (.codex i)).erase (.codexInner i) ↔
            w' ∈ o.owners.erase (.codex i)) := fun w' hw' => List.mem_erase_of_ne hw'
      have hsub : ((o.owners.erase (.codex i)).erase (.codexInner i)).Sublist o.owners :=
        List.erase_sublist.trans List.erase_sublist
      refine ⟨h.reachable, ?_, fun j => ?_,
        fun w' hw' => Nat.le_trans (hsub.count_le w') (h.once w' hw'),
        fun j hj => h.made j (hsub.subset hj), fun hs => (hstopped hs).elim⟩
      · exact (hrest .inboundLoop nofun).trans ((hother .inboundLoop nofun).trans h.loop)
      · by_cases hj : j = i
        · subst hj
          refine iff_of_false (fun hmem => ?_) fun hmem => hzero ((hrest (.codex j) nofun).1 hmem)
          rw [List.erase_comm] at hmem
          exact h.not_mem_erase id (List.erase_subset hmem)
        · have hne : Owner.codexInner j ≠ .codexInner i := fun heq => hj (Owner.codexInner.inj heq)
          have hne' : Owner.codex j ≠ .codex i := fun heq => hj (Owner.codex.inj heq)
          exact (hrest _ hne).trans ((hother (.codexInner j) nofun).trans ((h.codexInner j).trans
            ((hother _ hne').symm.trans (hrest (.codex j) nofun).symm)))
    · rename_i hmore
      rw [hlast, not_not] at hmore
      refine ⟨h.reachable, (hother .inboundLoop nofun).trans h.loop, fun j => ?_,
        fun w' hw' => Nat.le_trans (List.erase_sublist.count_le w') (h.once w' hw'),
        fun j hj => h.made j (List.erase_subset hj), fun hs => (hstopped hs).elim⟩
      by_cases hj : j = i
      · subst hj
        exact iff_of_true ((hother (.codexInner j) nofun).2 ((h.codexInner j).2 hw)) hmore
      · exact (hother (.codexInner j) nofun).trans ((h.codexInner j).trans
          (hother (.codex j) fun heq => hj (Owner.codex.inj heq)).symm)

theorem Kept.step (h : Kept env wire o) (hs : Step env wire o o') : Kept env wire o' := by
  match hs with
  | .connection hs _ => exact h.connection hs
  | .clone hw hhandle => exact h.cons hhandle ⟨_, hw, hhandle⟩ fun i heq => heq ▸ hw
  | .asApi hw => exact h.asApi hw
  | .client hw => exact h.cons trivial ⟨_, hw, trivial⟩ nofun
  | .drop hw hhandle _ => exact h.drop hw hhandle
  | .writerStops _ _ hclosed =>
    exact ⟨h.reachable, h.loop, h.codexInner, h.once, h.made, fun _ => hclosed⟩

theorem kept_start (env : Env) (wire : Wire) : Kept env wire (start env) where
  reachable := .start
  loop := by simp [start, Connection.start, Connection.exited, ClientConfig.start, loopRound]
  codexInner i := by simp [start]
  once w hw := by
    cases w with
    | client | codex => exact (hw trivial).elim
    | codexInner => exact Nat.zero_le 1
    | inboundLoop => exact Nat.le_refl 1
  made i hi := by simp [start] at hi
  stopped := nofun

/-- **The references are accounted for** in every state that can be reached. -/
theorem kept_of_steps (h : Steps env wire (start env) o) : Kept env wire o := by
  induction h with
  | refl => exact kept_start env wire
  | tail _ hs ih => exact ih.step hs

/-! ## Dropping everything -/

/-- The writer of a closed channel sends what is left, and stops. -/
theorem writer_can_stop (hzero : o.strongCount .inner = 0)
    (hwriting : o.connection.writing = true) :
    ∃ o', Steps env wire o o' ∧ o'.stopped = true := by
  generalize hout : o.connection.outbound = outbound
  induction outbound generalizing o with
  | nil => exact ⟨_, .single (.writerStops hwriting hout hzero), rfl⟩
  | cons frame outbound ih =>
    have hs : o.connection.step env wire (.write (.ok ())) =
        some { o.connection with outbound := outbound } := by
      rw [Connection.step, Connection.write, if_pos hwriting, hout]
    have hsub := moved_sublist o { o.connection with outbound := outbound }
    obtain ⟨o', hsteps, hstopped⟩ := @ih (o.moved { o.connection with outbound := outbound })
      (by
        rw [strongCount_inner_eq_zero] at hzero ⊢
        exact fun w hw => hzero w (hsub.subset hw))
      hwriting rfl
    have hno : ∀ t call, Connection.Label.write (.ok ()) ≠ .act (.spawn t call) := by simp
    exact ⟨o', .head (.connection hs fun t call h => (hno t call h).elim) hsteps, hstopped⟩

/-- **Dropping the client releases the connection only when it is over.**  In every state in which
nothing is held any more and the loop has consumed what was queued:

* the sender of outbound frames has been dropped exactly when the connection is over, that is, when
  a frame that ends the loop was pulled or the writer has stopped at an error;
* the writer has not found its channel closed before;
* and then it can, if it is still there. -/
theorem sender_released_iff (h : Steps env wire (start env) o) (hdropped : ¬ o.Held)
    (hrest : o.connection.Consumed env) :
    (o.strongCount .inner = 0 ↔ o.connection.Over wire) ∧
    (o.stopped = true → o.connection.Over wire) ∧
    (o.connection.Over wire → o.connection.writing = true →
      ∃ o', Steps env wire o o' ∧ o'.stopped = true) := by
  have hkept := kept_of_steps h
  have hiff : o.strongCount .inner = 0 ↔ o.connection.Over wire := by
    rw [hkept.released_iff hdropped]
    refine ⟨fun hexit => ?_, fun hover => hover.exits hkept.reachable hrest⟩
    by_contra hnot
    have hwaits := hrest.waits hkept.reachable hnot
    rw [Connection.exited_iff.1 hexit] at hwaits
    cases hwaits
  exact ⟨hiff, fun hstopped => hiff.1 (hkept.stopped hstopped),
    fun hover hwriting => writer_can_stop (hiff.2 hover) hwriting⟩

end

/-- The client is dropped right away. -/
def abandoned : Ownership := (start defaultEnv).drop .client

theorem abandoned_steps : Steps defaultEnv Connection.unparsable (start defaultEnv) abandoned := by
  refine .single (.drop (.head _) trivial (.inr fun n p hp => ?_))
  exact nomatch hp

theorem abandoned_not_held : ¬ abandoned.Held := by
  rintro ⟨w, hw, hhandle⟩
  obtain rfl : w = .inboundLoop := List.mem_singleton.1 hw
  exact hhandle

/-- The transport is open, the server is silent, and the loop keeps the sender. -/
theorem sender_kept_by_loop :
    ¬ ∀ (env : Env) (wire : Wire) (o : Ownership), Steps env wire (start env) o → ¬ o.Held →
      o.connection.Consumed env → ¬ o.connection.Over wire → o.strongCount .inner = 0 := by
  intro h
  have hopen : ¬ abandoned.connection.Over Connection.unparsable := by
    rintro (⟨frame, hmem, -⟩ | hwriting)
    · exact nomatch hmem
    · exact nomatch hwriting
  exact absurd (h defaultEnv Connection.unparsable abandoned abandoned_steps abandoned_not_held
    (.inr ⟨rfl, rfl⟩) hopen) (by decide)

/-- What a connection does by itself, after everything was dropped. -/
theorem steps_runLabels {env : Env} {wire : Wire} {labels : List Connection.Label} :
    ∀ {o : Ownership} {c : Connection}, o.connection.runLabels env wire labels = some c →
      (∀ label ∈ labels, ∀ t call, label ≠ .act (.spawn t call)) → ¬ o.Held →
      ∃ o', Steps env wire o o' ∧ o'.connection = c ∧ ¬ o'.Held := by
  induction labels with
  | nil =>
    intro o c h _ hdropped
    exact ⟨o, .refl, Option.some.inj h, hdropped⟩
  | cons label labels ih =>
    intro o c h hnew hdropped
    obtain ⟨c₁, hs, hrest⟩ := Option.bind_eq_some_iff.1 h
    obtain ⟨hlabel, hlabels⟩ := List.forall_mem_cons.1 hnew
    have hdropped' : ¬ (o.moved c₁).Held := by
      rintro ⟨w, hw, hhandle⟩
      exact hdropped ⟨w, (moved_sublist o c₁).subset hw, hhandle⟩
    obtain ⟨o', hsteps, hc, hheld⟩ := @ih (o.moved c₁) c hrest hlabels hdropped'
    exact ⟨o', .head (.connection hs fun t call heq => (hlabel t call heq).elim) hsteps, hc, hheld⟩

/-- The server closes the connection after the client was dropped. -/
theorem sender_released_closed : ∃ o : Ownership,
    Steps defaultEnv Connection.unparsable (start defaultEnv) o ∧ ¬ o.Held ∧
      RawFrame.closed .transportClosed ∈ o.connection.pulled ∧ o.strongCount .inner = 0 := by
  obtain ⟨c, hc, hpulled, hexit⟩ : ∃ c : Connection,
      abandoned.connection.runLabels defaultEnv Connection.unparsable
        (.pull (.closed .transportClosed) ::
          List.replicate 3 (.act (.run .inboundLoop .proceed))) = some c ∧
      c.pulled = [.closed .transportClosed] ∧ c.exited = true := ⟨_, rfl, rfl, rfl⟩
  obtain ⟨o, hsteps, rfl, hdropped⟩ := steps_runLabels hc (by simp) abandoned_not_held
  have hmem : RawFrame.closed .transportClosed ∈ o.connection.pulled := by simp [hpulled]
  exact ⟨o, abandoned_steps.trans hsteps, hdropped, hmem,
    (sender_released_iff (abandoned_steps.trans hsteps) hdropped (.inl hexit)).1.2
      (.inl ⟨_, hmem, _, rfl, trivial⟩)⟩

end Ownership
end CodexSdk

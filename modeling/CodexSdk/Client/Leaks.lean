import CodexSdk.Client.Answers
import CodexSdk.Interleave.Guarded

/-!
# Entries nobody waits for

A request puts an entry into the map before it is sent, and each of its ways out takes the entry
along: the response, the failure to send, the timeout, and the failure of the connection.  Dropping
its future is no way out the code sees.  `pending_never_leaks` says that this is the only way an
entry can be left behind.

Whose entry an entry is, and what its owner is about to do, is in the memory of the owner's program
(`Tidy`): the entry it has put into the map, until an answer tells that it is gone.
-/

set_option autoImplicit false

namespace CodexSdk

open Json Interleave

variable {env : Env} {α β : Type} {t : Tid}

/-! ## What a program has put into the map -/

/-- The entry a task still has in the map, after one more operation. -/
def heldAfter : Option (RequestId × Nat) → (o : Op) → o.Ans → Option (RequestId × Nat)
  | none, .pendingInsert id tx, _ => some (id, tx)
  | some entry, .timeoutRecv _ _, .elapsed => some entry
  | some _, .timeoutRecv _ _, _ => none
  | some _, .pendingRemove _, _ => none
  | held, _, _ => held

/-- The await points of a request that is in the map: it is sent, its response is awaited, or it is
given up. -/
inductive Op.Serves : RequestId × Nat → Op → Prop
  | send (id : RequestId) (tx : Nat) (method : String) (params : Value) :
      Op.Serves (id, tx) (.outboundSend (requestFrame id method params))
  | wait (id : RequestId) (tx : Nat) (timeout : Duration) :
      Op.Serves (id, tx) (.timeoutRecv tx timeout)
  | giveUp (id : RequestId) (tx : Nat) : Op.Serves (id, tx) (.pendingRemove id)

/-- A task with an entry in the map does nothing but serve it. -/
def serving (held : Option (RequestId × Nat)) (o : Op) : Prop :=
  ∀ entry, held = some entry → o.Serves entry

/-- The program takes out of the map what it puts there. -/
abbrev Tidy (p : ClientM α) : Prop := p.Guarded serving heldAfter (fun _ held => held = none) none

theorem heldAfter_none {o : Op} (ho : ∀ id tx, o ≠ .pendingInsert id tx) (a : o.Ans) :
    heldAfter none o a = none := by
  unfold heldAfter
  split
  · exact absurd rfl (ho _ _)
  · contradiction
  · contradiction
  · contradiction
  · rfl

theorem tidy_awaitReply (method : String) (timeout : Duration) (id : RequestId) (tx : Nat) :
    (awaitReply method timeout id tx).Guarded serving heldAfter (fun _ held => held = none)
      (some (id, tx)) := by
  refine ⟨?_, fun answer => ?_⟩
  · rintro _ ⟨⟩
    exact .wait id tx timeout
  · match answer with
    | .value (.ok _) => rfl
    | .value (.error _) => rfl
    | .closed => rfl
    | .elapsed =>
      refine ⟨?_, fun _ => rfl⟩
      rintro _ ⟨⟩
      exact .giveUp id tx

theorem tidy_roundTrip (method : String) (params : Value) (timeout : Duration) :
    Tidy (roundTrip method params timeout) := by
  refine ⟨nofun, fun n => ⟨nofun, fun tx => ⟨nofun, fun _ => ⟨?_, fun sent => ?_⟩⟩⟩⟩
  · rintro _ ⟨⟩
    exact .send (.integer n) tx method params
  · cases sent with
    | true => exact tidy_awaitReply method timeout (.integer n) tx
    | false =>
      refine ⟨?_, fun _ => rfl⟩
      rintro _ ⟨⟩
      exact .giveUp (.integer n) tx

/-- Only a request puts anything into the map. -/
theorem tidy_compositional : Compositional fun _ p => Tidy p where
  ret _ := rfl
  bind hp hf := .bind (hp.mono fun a _ hheld => by rw [hheld]; exact hf a)
  perform o ho := ⟨nofun, heldAfter_none (by rintro id tx rfl; exact ho trivial)⟩
  roundTrip := tidy_roundTrip

/-! ## All runs -/

/-- No future is dropped while the map holds an entry of it. -/
def dropsReleased (w : ClientWorld) : ClientEvent → Prop
  | .drop t => Released t w
  | _ => True

/-- What a task has in the map is what it remembers. -/
theorem PendingOnly.heldAfter {held : Option (RequestId × Nat)} {o : Op} {ch : Choice} {a : o.Ans}
    {s : Inner} {w : ClientWorld} (hc : Correlated w.shared w.trace) (hw : PendingOnly t held w)
    (hserving : serving held o) (hx : exec t o ch w.shared = some (a, s)) :
    PendingOnly t (CodexSdk.heldAfter held o a) (w.push (.op t o a) s) := by
  cases held with
  | none =>
    by_cases ho : ∃ id tx, o = .pendingInsert id tx
    · obtain ⟨id, tx, rfl⟩ := ho
      exact PendingOnly.insert hw hx
    · have hother : ∀ id tx, o ≠ .pendingInsert id tx := fun id tx heq => ho ⟨id, tx, heq⟩
      rw [heldAfter_none hother]
      exact hw.op hx hother
  | some entry =>
    cases hserving entry rfl with
    | send id tx method params => exact hw.op hx (by simp)
    | wait id tx timeout =>
      obtain ⟨_, hwait, heq⟩ := Option.map_eq_some_iff.1 hx
      cases heq
      have hused : w.shared.oneshots tx ≠ .empty →
          Released t (w.push (.op t (.timeoutRecv tx timeout) a) w.shared) :=
        fun hslot => (hw.released_of_used hc hslot).op hx (by simp)
      match a with
      | .value reply => exact hused (by rw [Oneshot.wait_value hwait]; simp)
      | .closed => exact hused (by rw [Oneshot.wait_closed hwait]; simp)
      | .elapsed => exact hw.op hx (by simp)
    | giveUp id tx =>
      have hw' := hw.op hx (by simp)
      cases hx
      exact hw'.released_of_removed fun p hp => (mem_remove hp).2

theorem client_remembers (env : Env) :
    Remembers (client env) correlation dropsReleased serving heldAfter PendingOnly none
      fun _ _ held => held = none where
  lawful _ _ _ := trivial
  stable t q w w' hr hw := hr.holds hw
  spawn hw := hw
  op := PendingOnly.heldAfter
  drop {t w} hl r hr ht hp := hl r hr ht (cancel_pending t w.shared ▸ hp)
  body _ call := .bind ((tidy_compositional.call call).mono fun _ _ hheld => hheld)
  restart := by
    rintro t r p held hres rfl
    cases t with
    | caller n => cases r <;> cases hres
    | inboundLoop => cases r <;> cases hres; exact tidy_compositional.loopRound

theorem released_start (env : Env) (t : Tid) : Released t (ClientConfig.start env).world :=
  released_first (by simp [ClientConfig.start])

theorem remembering_start (env : Env) :
    Remembering serving heldAfter PendingOnly none (fun _ (_ : Result) held => held = none)
      (ClientConfig.start env) where
  live := by
    intro t p ht
    cases t with
    | caller n => cases ht
    | inboundLoop =>
      cases ht
      exact ⟨none, tidy_compositional.loopRound, released_start env _⟩
  idle t _ := released_start env t

/-- `t` is alive, and at an await point of the request with this entry. -/
def WaitsFor (c : ClientConfig) (t : Tid) (entry : RequestId × Nat) : Prop :=
  ∃ o k, c.tasks t = .live (.op o k) ∧ o.Serves entry

/-- Every entry belongs to a request that is alive and waiting. -/
def Owned (c : ClientConfig) : Prop :=
  ∀ p ∈ c.world.shared.pending, ∃ t, ⟨t, p.1, p.2⟩ ∈ registrations c.world.trace ∧ WaitsFor c t p

section

variable {c c' : ClientConfig}

/-- The entries of the map, in a run that drops no request with one. -/
theorem owned_of_run (hr : (client env).Run dropsReleased (ClientConfig.start env) c) :
    Owned c := by
  have hproved := answers_outline.run answers_start (hr.mono fun _ _ _ => trivial)
  have hmemory := (client_remembers env).run answers_outline answers_start
    (remembering_start env) hr
  intro entry hmem
  obtain ⟨⟨t, hreg⟩, -⟩ := hproved.inv.pending entry hmem
  refine ⟨t, hreg, ?_⟩
  -- a task that is not alive has nothing in the map
  obtain ⟨p, ht⟩ : ∃ p, c.tasks t = .live p := by
    by_contra hdead
    exact nomatch hmemory.idle t (not_exists.1 hdead) _ hreg rfl hmem
  obtain ⟨held, hp, hheld⟩ := hmemory.live t p ht
  obtain rfl : some entry = held := hheld _ hreg rfl hmem
  cases p with
  | ret r => exact nomatch hp
  | op o k => exact ⟨o, k, ht, hp.1 entry rfl⟩

/-- Two tasks have not registered one entry. -/
theorem Correlated.owner_unique {s : Inner} {tr : List ClientEvent} (h : Correlated s tr)
    {r r' : Registration} (hr : r ∈ registrations tr) (hr' : r' ∈ registrations tr)
    (htx : r'.tx = r.tx) : r' = r :=
  List.inj_on_of_nodup_map h.channels_nodup hr' hr htx

/-- Dropping a request that is in the map leaves its entry to nobody. -/
theorem not_owned_of_drop (hc : Correlated c.world.shared c.world.trace)
    (hs : (client env).Step c (.drop t) c') (hheld : ¬ Released t c.world) : ¬ Owned c' := by
  intro howned
  refine hheld fun r hr ht hp => ?_
  cases hs with
  | drop _ _ =>
    obtain ⟨u, hreg, o, k, hu, -⟩ := howned r.entry ((cancel_pending t _).symm ▸ hp)
    obtain rfl : u = t := by
      rw [← ht]
      exact congrArg Registration.tid (hc.owner_unique hr hreg rfl)
    exact nomatch (Function.update_self u Task.dropped c.tasks).symm.trans hu

/-- **The pending map leaks only through dropped futures.**  In every configuration of a run in
which no future is dropped while the map holds an entry of it:

* every entry belongs to a request that is alive and waiting;
* once a request is not, no entry with its id is in the map, as long as no id was given out twice;
* the next step keeps this up exactly when it does not drop such a future either. -/
theorem pending_never_leaks (hr : (client env).Run dropsReleased (ClientConfig.start env) c) :
    Owned c ∧
    (FewIds c.world.trace → ∀ r ∈ registrations c.world.trace, ¬ WaitsFor c r.tid r.entry →
      ∀ p ∈ c.world.shared.pending, p.1 ≠ r.id) ∧
    ∀ e c', (client env).Step c e c' → (Owned c' ↔ dropsReleased c.world e) := by
  have hinv : Correlated c.world.shared c.world.trace :=
    (answers_outline.run answers_start (hr.mono fun _ _ _ => trivial)).inv
  refine ⟨owned_of_run hr, fun hfew r hreg hwaits p hp hid => ?_, fun e c' hs => ⟨?_, fun hl => ?_⟩⟩
  · obtain ⟨t, hregp, hwaitsp⟩ := owned_of_run hr p hp
    obtain rfl := List.inj_on_of_nodup_map (hinv.ids_nodup hfew) hregp hreg hid
    exact hwaits hwaitsp
  · intro howned
    match e with
    | .drop t =>
      by_contra hheld
      exact not_owned_of_drop hinv hs hheld howned
    | .spawn _ _ | .op _ _ _ => trivial
  · exact owned_of_run (hr.step hs hl)

end

/-- A request that is sent, and waits for its response. -/
def sentSchedule : List (Machine.Label Tid Call Choice) :=
  .spawn (.caller 0) (.sendRawRequest methodInitialize .null none) ::
    List.replicate 5 (.run (.caller 0) .proceed)

/-- The future of a request is dropped while it waits. -/
theorem pending_leaks_dropped :
    ¬ ∀ (env : Env) (c : ClientConfig),
      (client env).Run Machine.anyStep (ClientConfig.start env) c → Owned c := by
  intro h
  obtain ⟨c, hc, hpending, hdropped, hloop, hothers⟩ : ∃ c : ClientConfig,
      (client defaultEnv).runLabels (ClientConfig.start defaultEnv)
        (sentSchedule ++ [.drop (.caller 0)]) = some c ∧
      c.world.shared.pending = [(.integer 1, 0)] ∧ c.tasks (.caller 0) = .dropped ∧
      c.tasks .inboundLoop = .live (loopRound defaultEnv) ∧
      ∀ n, c.tasks (.caller (n + 1)) = .absent :=
    ⟨_, rfl, rfl, rfl, rfl, fun _ => rfl⟩
  have howned := h defaultEnv c (Machine.runLabels_run hc)
  obtain ⟨t, -, o, k, ht, hserves⟩ := howned (.integer 1, 0) (by rw [hpending]; exact .head _)
  match t with
  | .caller 0 => exact nomatch hdropped.symm.trans ht
  | .caller (n + 1) => exact nomatch (hothers n).symm.trans ht
  | .inboundLoop =>
    cases hloop.symm.trans ht
    cases hserves

theorem pending_never_leaks_sent : ∃ c : ClientConfig,
    (client defaultEnv).runLabels (ClientConfig.start defaultEnv) sentSchedule = some c ∧
      c.world.shared.pending = [(.integer 1, 0)] ∧ Owned c := by
  obtain ⟨c, hc, hpending, hdrops⟩ : ∃ c : ClientConfig,
      (client defaultEnv).runLabels (ClientConfig.start defaultEnv) sentSchedule = some c ∧
      c.world.shared.pending = [(.integer 1, 0)] ∧ ∀ e ∈ c.world.trace, ∀ t, e ≠ .drop t :=
    ⟨_, rfl, rfl, by simp [World.push, ClientConfig.start]⟩
  have hrun : (client defaultEnv).Run dropsReleased (ClientConfig.start defaultEnv) c := by
    refine (Machine.runLabels_run hc).restrict hdrops fun w e _ he => ?_
    cases e with
    | drop t => exact absurd rfl (he t)
    | spawn | op => trivial
  exact ⟨c, hc, hpending, (pending_never_leaks hrun).1⟩

end CodexSdk

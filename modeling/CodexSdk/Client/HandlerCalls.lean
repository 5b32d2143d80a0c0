import CodexSdk.Client.Answers
import CodexSdk.Client.LockOrder
import CodexSdk.Client.ServerRequests

/-!
# Handlers that call the client

The inbound loop runs a handler itself, and takes no frame before the handler has come to its end.
A handler that waits for a reply therefore waits for something that only its own return would let
happen: `handler_waits` says that it never gets one, and that the wait can end all the same.
-/

set_option autoImplicit false

namespace CodexSdk

open Json Interleave

variable {env : Env} {α β : Type}

/-! ## Programs that wait for what they opened -/

/-- The channels a program has opened, after one more operation; completing any channel makes it
lose track of them. -/
def ownAfter : (o : Op) → o.Ans → (Nat → Prop) → Nat → Prop
  | .oneshotChannel, tx, own => fun x => x = tx ∨ own x
  | .pendingDispatch _ _, _, _ => fun _ => False
  | .oneshotSend _ _, _, _ => fun _ => False
  | _, _, own => own

/-- The program waits only on channels it has opened, or that are its `own` to begin with, and
completes nothing in between. -/
def WaitsOwn : ClientM α → (Nat → Prop) → Prop
  | .ret _, _ => True
  | .op o k, own => (∀ rx timeout, o = .timeoutRecv rx timeout → own rx) ∧
      ∀ a, WaitsOwn (k a) (ownAfter o a own)

theorem ownAfter_mono {o : Op} {a : o.Ans} {own own' : Nat → Prop} (h : ∀ x, own x → own' x) :
    ∀ x, ownAfter o a own x → ownAfter o a own' x := by
  intro x hx
  cases o with
  | oneshotChannel => exact hx.imp_right (h x)
  | pendingDispatch | oneshotSend => exact hx
  | _ => exact h x hx

theorem WaitsOwn.mono {p : ClientM α} {own own' : Nat → Prop} (hp : WaitsOwn p own)
    (h : ∀ x, own x → own' x) : WaitsOwn p own' := by
  induction p generalizing own own' with
  | ret a => trivial
  | op o k ih =>
    exact ⟨fun rx timeout ho => h rx (hp.1 rx timeout ho), fun a => ih a (hp.2 a) (ownAfter_mono h)⟩

/-- Nothing is its own. -/
abbrev noChannel : Nat → Prop := fun _ => False

theorem WaitsOwn.of_none {p : ClientM α} (hp : WaitsOwn p noChannel) (own : Nat → Prop) :
    WaitsOwn p own := hp.mono fun _ h => h.elim

theorem WaitsOwn.bind {p : ClientM α} {f : α → ClientM β} {own : Nat → Prop} (hp : WaitsOwn p own)
    (hf : ∀ a, WaitsOwn (f a) noChannel) : WaitsOwn (p >>= f) own := by
  induction p generalizing own with
  | ret a => exact (hf a).of_none own
  | op o k ih => exact ⟨hp.1, fun a => ih a (hp.2 a)⟩

/-! ## The calls are such programs -/

theorem waits_awaitReply (method : String) (timeout : Duration) (id : RequestId) {rx : Nat}
    {own : Nat → Prop} (hrx : own rx) : WaitsOwn (awaitReply method timeout id rx) own := by
  refine ⟨?_, fun answer => ?_⟩
  · rintro _ _ ⟨⟩
    exact hrx
  · match answer with
    | .value (.ok _) => trivial
    | .value (.error _) => trivial
    | .closed => trivial
    | .elapsed => exact ⟨by simp, fun _ => trivial⟩

/-- A request waits on the channel it has opened. -/
theorem waits_roundTrip (method : String) (params : Value) (timeout : Duration) :
    WaitsOwn (roundTrip method params timeout) noChannel := by
  refine ⟨by simp, fun n => ⟨by simp, fun tx => ⟨by simp, fun _ => ⟨by simp, fun sent => ?_⟩⟩⟩⟩
  cases sent with
  | true => exact waits_awaitReply _ _ _ (.inl rfl)
  | false => exact ⟨by simp, fun _ => trivial⟩

/-- Only a request waits for anything. -/
theorem waits_compositional : Compositional fun _ p => WaitsOwn p noChannel where
  ret _ := trivial
  bind hp hf := hp.bind hf
  perform o ho := by
    refine ⟨?_, fun _ => trivial⟩
    rintro rx timeout rfl
    exact (ho trivial).elim
  roundTrip := waits_roundTrip

/-! ## What a handler is run for -/

/-- An operation that looks up no handler. -/
def Op.NoLookup (o : Op) : Prop := ∀ kind, o ≠ .handlerRead kind

/-- The program looks up no handler, or looks up at once the one that is asked for, and goes on with
it if it is found. -/
def LooksUp (env : Env) (asked : ServerRequestKind → Map → Prop) (p : ClientM α) : Prop :=
  p.Only Op.NoLookup ∨ ∃ kind params k, asked kind params ∧ p = .op (.handlerRead kind) k ∧
    (∀ handler, ∃ f : Outcome → ClientM α, k (some handler) = (handler params).run env >>= f) ∧
      ∀ found, (k found).Only Op.NoLookup

theorem LooksUp.bind {asked : ServerRequestKind → Map → Prop} {p : ClientM α} {f : α → ClientM β}
    (hp : LooksUp env asked p) (hf : ∀ a, (f a).Only Op.NoLookup) :
    LooksUp env asked (p >>= f) := by
  rcases hp with hp | ⟨kind, params, k, hasked, rfl, hfound, hk⟩
  · exact .inl (hp.bind hf)
  · refine .inr ⟨kind, params, fun found => k found >>= f, hasked, rfl, fun handler => ?_,
      fun found => (hk found).bind hf⟩
    obtain ⟨g, hg⟩ := hfound handler
    refine ⟨fun outcome => g outcome >>= f, ?_⟩
    show k (some handler) >>= f = _
    rw [hg]
    exact Prog.bind_assoc _ _ _

theorem LooksUp.mono {asked asked' : ServerRequestKind → Map → Prop} {p : ClientM α}
    (hp : LooksUp env asked p) (h : ∀ kind params, asked kind params → asked' kind params) :
    LooksUp env asked' p := by
  rcases hp with hp | ⟨kind, params, k, hasked, hk⟩
  · exact .inl hp
  · exact .inr ⟨kind, params, k, h kind params hasked, hk⟩

/-- The operations that complete a channel. -/
def Op.Completes : Op → Prop
  | .pendingDispatch _ _ | .oneshotSend _ _ => True
  | _ => False

theorem Op.OfCalls.not_completes {o : Op} (h : o.OfCalls) : ¬ o.Completes := by
  cases o <;> simp_all [Op.Completes, Op.OfCalls]

/-- Nothing else puts a reply into a channel. -/
theorem exec_sent {t : Tid} {o : Op} {ch : Choice} {a : o.Ans} {s s' : Inner}
    (h : exec t o ch s = some (a, s')) (ho : ¬ o.Completes) {tx : Nat} {reply : Reply}
    (hsent : s'.oneshots tx = .sent reply) : s.oneshots tx = .sent reply := by
  have hremove : ∀ id, (s.remove id).oneshots tx = .sent reply → s.oneshots tx = .sent reply := by
    intro id hsent
    by_contra hne
    rw [← hsent] at hne
    obtain ⟨-, hclosed⟩ := remove_oneshots (Ne.symm hne)
    rw [hclosed] at hsent
    cases hsent
  rw [exec_after h] at hsent
  cases o with
  | pendingDispatch | oneshotSend => exact absurd trivial ho
  | pendingInsert id tx => exact hremove id hsent
  | pendingRemove id => exact hremove id hsent
  | _ => exact hsent

/-- No reply has been put into any of these channels. -/
def NoReply (own : Nat → Prop) (s : Inner) : Prop :=
  ∀ tx, own tx → ∀ reply, s.oneshots tx ≠ .sent reply

/-- The channels a program still counts as its own have no reply after its operation. -/
theorem NoReply.exec {own : Nat → Prop} {t : Tid} {o : Op} {ch : Choice} {a : o.Ans} {s s' : Inner}
    {tr : List ClientEvent} (h : NoReply own s) (hc : Correlated s tr)
    (hx : CodexSdk.exec t o ch s = some (a, s')) : NoReply (ownAfter o a own) s' := by
  by_cases ho : o.Completes
  · cases o with
    | pendingDispatch | oneshotSend => exact fun _ hno => hno.elim
    | _ => exact ho.elim
  · intro tx hown reply hsent
    have hbefore := exec_sent hx ho hsent
    by_cases hopen : o = .oneshotChannel
    · subst hopen
      obtain rfl : s.channels = a := congrArg Prod.fst (Option.some.inj hx)
      rcases hown with rfl | hown
      · obtain ⟨r, hr, htx⟩ := hc.used s.channels (by simp [hbefore])
        exact hc.channel_fresh r hr htx
      · exact h tx hown reply hbefore
    · have hsame : ownAfter o a own = own := by
        cases o with
        | oneshotChannel => exact absurd rfl hopen
        | pendingDispatch | oneshotSend => exact absurd trivial ho
        | _ => rfl
      rw [hsame] at hown
      exact h tx hown reply hbefore

/-- The callers complete nothing, and the loop waits for nothing that has been completed. -/
structure LoopWaits (env : Env) (c : ClientConfig) : Prop where
  callers : ∀ n p, c.tasks (.caller n) = .live p → p.Only Op.OfCalls
  waits : ∀ p, c.tasks .inboundLoop = .live p →
    ∃ own, WaitsOwn p own ∧ NoReply own c.world.shared

theorem waits_settle {p : ClientM Result} {own : Nat → Prop} (hp : WaitsOwn p own) :
    WaitsOwn ((client env).settle .inboundLoop p) own := by
  cases p with
  | op o k => exact hp
  | ret r => cases r with
    | again => exact waits_compositional.loopRound.of_none own
    | outcome | exited => trivial

theorem only_settle {P : Op → Prop} {n : Nat} {p : ClientM Result} (hp : p.Only P) :
    ((client env).settle (.caller n) p).Only P := by
  cases p with
  | op o k => exact hp
  | ret r => cases r <;> trivial

theorem cancel_oneshots (t : Tid) (s : Inner) : (cancel t s).oneshots = s.oneshots := by
  rw [cancel]
  split <;> rfl

variable {c c' : ClientConfig} {e : ClientEvent}

/-- What a step does to the loop, when another task takes it. -/
theorem LoopWaits.waits_of_eq (h : LoopWaits env c) (hlive : ∀ p, c'.tasks .inboundLoop = .live p →
    c.tasks .inboundLoop = .live p) (hsent : ∀ tx reply, c'.world.shared.oneshots tx = .sent reply →
      c.world.shared.oneshots tx = .sent reply) :
    ∀ p, c'.tasks .inboundLoop = .live p → ∃ own, WaitsOwn p own ∧ NoReply own c'.world.shared := by
  intro p hp
  obtain ⟨own, hwaits, hno⟩ := h.waits p (hlive p hp)
  exact ⟨own, hwaits, fun tx hown reply hx => hno tx hown reply (hsent tx reply hx)⟩

/-- **One step.** -/
theorem LoopWaits.step (h : LoopWaits env c) (hc : Correlated c.world.shared c.world.trace)
    (hs : (client env).Step c e c') : LoopWaits env c' := by
  have hcaller : ∀ n, .caller n ≠ e.tid → ∀ p, c'.tasks (.caller n) = .live p → p.Only Op.OfCalls :=
    fun n hn p hp => h.callers n p ((hs.tasks_ne hn).symm.trans hp)
  have hloop : .inboundLoop ≠ e.tid → ∀ p, c'.tasks .inboundLoop = .live p →
      c.tasks .inboundLoop = .live p := fun hn p hp => (hs.tasks_ne hn).symm.trans hp
  cases hs with
  | @spawn t call ht =>
    have hbody : ((client env).body call).Only Op.OfCalls := (call_only call).bind fun _ => trivial
    cases t with
    | inboundLoop =>
      refine ⟨fun n => hcaller n (by simp [Event.tid]), fun p hp => ?_⟩
      obtain rfl : (client env).settle .inboundLoop ((client env).body call) = p := by
        simpa using hp
      exact ⟨noChannel, waits_settle ((waits_compositional.call call).bind fun _ => trivial),
        fun _ hno => hno.elim⟩
    | caller m =>
      refine ⟨fun n p hp => ?_, h.waits_of_eq (hloop (by simp [Event.tid])) fun _ _ hsent => hsent⟩
      by_cases hn : n = m
      · subst hn
        obtain rfl : (client env).settle (.caller n) ((client env).body call) = p := by
          simpa using hp
        exact only_settle hbody
      · exact hcaller n (by simpa [Event.tid] using hn) p hp
  | @op t o k ch a s ht hx =>
    cases t with
    | inboundLoop =>
      refine ⟨fun n => hcaller n (by simp [Event.tid]), fun p hp => ?_⟩
      obtain rfl : (client env).settle .inboundLoop (k a) = p := by simpa using hp
      obtain ⟨own, hwaits, hno⟩ := h.waits _ ht
      exact ⟨ownAfter o a own, waits_settle (hwaits.2 a), hno.exec hc hx⟩
    | caller m =>
      obtain ⟨ho, hk⟩ := h.callers m _ ht
      refine ⟨fun n p hp => ?_, h.waits_of_eq (hloop (by simp [Event.tid])) fun tx reply =>
        exec_sent hx ho.not_completes⟩
      by_cases hn : n = m
      · subst hn
        obtain rfl : (client env).settle (.caller n) (k a) = p := by simpa using hp
        exact only_settle (hk a)
      · exact hcaller n (by simpa [Event.tid] using hn) p hp
  | @drop t o k ht ha =>
    have hsame : ∀ u p, Function.update c.tasks t Task.dropped u = .live p →
        c.tasks u = .live p := by
      intro u p hp
      by_cases hu : u = t
      · subst hu
        simp at hp
      · rwa [Function.update_of_ne hu] at hp
    refine ⟨fun n p hp => h.callers n p (hsame _ p hp),
      h.waits_of_eq (hsame _) fun tx reply hsent => ?_⟩
    rw [← cancel_oneshots t c.world.shared]
    exact hsent

theorem mem_performedBy {t : Tid} {o : Op} {a : o.Ans} {tr : List ClientEvent}
    (h : .op t o a ∈ tr) : ⟨o, a⟩ ∈ performedBy t tr :=
  List.mem_filterMap.2 ⟨_, h, if_pos rfl⟩

end CodexSdk

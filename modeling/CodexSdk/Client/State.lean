import CodexSdk.Events
import CodexSdk.Interleave.Machine

/-!
# The shared state of a client, and the operations on it

`Inner` of `client/mod.rs` is what all clones of a client and its inbound loop share: the handshake
state, the next request id, the map of pending requests and the handlers.  `Op` lists the atomic
operations the client code performs on it, one constructor for each place where the code touches
an atomic, a lock or a channel, and `exec` is what each of them does.

Whatever is not decided by the state is decided by the `Choice` of the step: what the transport
delivers, whether it takes a frame, and whether a timer runs out.  No assumption is made about it,
so that what holds of all runs holds with every transport and every server.
-/

set_option autoImplicit false

namespace CodexSdk

open Json Interleave

/-! ## Handshake states -/

def handshakeNew : Nat := 0

def handshakeInitializing : Nat := 1

def handshakeInitialized : Nat := 2

def handshakeReady : Nat := 3

def methodInitialize : String := "initialize"

def methodInitialized : String := "initialized"

/-! ## Calls and handlers -/

/-- A `std::time::Duration`. -/
structure Duration where
  nanos : Nat

/-- `as_millis() as u64`. -/
def Duration.asMillisU64 (d : Duration) : Nat := d.nanos / 1000000 % 2 ^ 64

/-- `Result<Value, RpcError>`: what a pending request is completed with. -/
abbrev Reply := Except RpcError Value

/-- What a public call returns.  A call without a result returns `null`. -/
abbrev Outcome := Except ClientError Value

mutual

/-- The public calls of a client.  Params and results are the JSON values they travel as. -/
inductive Call
  | explicitInitialize (params : Value)
  | explicitInitialized
  | ensureReady (params : Value)
  /-- A typed RPC; `decode` is the decoder of its result. -/
  | typed (method : String) (params : Value) (decode : Value → Except DecodeError Unit)
  | sendRawRequest (method : String) (params : Value) (timeout : Option Duration)
  | sendRawNotification (method : String) (params : Value)
  | respondServerRequest (id : RequestId) (result : Value)
  | respondServerRequestError (id : RequestId) (error : RpcError)
  | setHandler (kind : ServerRequestKind) (handler : Map → Script)
  | clearHandler (kind : ServerRequestKind)

/-- A handler of a server request, given its params: it makes calls of its own, one after the
other, and comes to a result. -/
inductive Script
  | done (result : Outcome)
  | call (call : Call) (next : Outcome → Script)

end

/-- A registered handler. -/
abbrev Handler := Map → Script

/-- The tasks that use one client: its callers, and the inbound loop. -/
inductive Tid
  | caller (n : Nat)
  | inboundLoop
  deriving DecidableEq

/-! ## State -/

/-- A oneshot channel: nothing sent, a reply sent, or its sender dropped. -/
inductive Oneshot
  | empty
  | sent (reply : Reply)
  | closed

structure Inner where
  handshakeState : Nat
  /-- The task that holds `handshake_lock`. -/
  handshakeLock : Option Tid
  nextId : Int64
  /-- The oneshot channels, by the order of their creation. -/
  oneshots : Nat → Oneshot
  /-- How many there are. -/
  channels : Nat
  /-- The pending requests, with the channel each is completed through. -/
  pending : List (RequestId × Nat)
  handlers : ServerRequestKind → Option Handler

/-- The state `from_transport` starts with. -/
def Inner.start : Inner where
  handshakeState := handshakeNew
  handshakeLock := none
  nextId := 1
  oneshots := fun _ => .empty
  channels := 0
  pending := []
  handlers := fun _ => none

/-- The channel with its sender dropped. -/
def Oneshot.drop : Oneshot → Oneshot
  | .empty => .closed
  | slot => slot

/-- The map without `id`, whose sender is dropped. -/
def Inner.remove (s : Inner) (id : RequestId) : Inner :=
  match s.pending.lookup id with
  | some tx => { s with
      pending := s.pending.filter fun p => p.1 ≠ id
      oneshots := Function.update s.oneshots tx (s.oneshots tx).drop }
  | none => s

/-- The map with `id` completed through `tx`. -/
def Inner.insert (s : Inner) (id : RequestId) (tx : Nat) : Inner :=
  let s := s.remove id
  { s with pending := s.pending ++ [(id, tx)] }

theorem lookup_eq_none {id : RequestId} {pending : List (RequestId × Nat)}
    (h : ∀ p ∈ pending, p.1 ≠ id) : pending.lookup id = none := by
  rw [List.lookup_eq_none_iff]
  exact fun p hp => bne_iff_ne.2 (h p hp).symm

/-- A request that has been inserted is found. -/
theorem insert_lookup (s : Inner) (id : RequestId) (tx : Nat) :
    (s.insert id tx).pending.lookup id = some tx := by
  have hnone : (s.remove id).pending.lookup id = none := by
    rw [Inner.remove]
    split
    · refine lookup_eq_none fun p hp => ?_
      simpa using (List.mem_filter.1 hp).2
    · assumption
  rw [Inner.insert]
  simp [List.lookup_append, hnone]

theorem mem_of_lookup {id : RequestId} {tx : Nat} {pending : List (RequestId × Nat)}
    (h : pending.lookup id = some tx) : (id, tx) ∈ pending := by
  obtain ⟨l₁, l₂, heq, -⟩ := List.lookup_eq_some_iff.1 h
  simp [heq]

/-- What is left after a removal is not the removed request. -/
theorem mem_remove {s : Inner} {p : RequestId × Nat} {id : RequestId}
    (hp : p ∈ (s.remove id).pending) : p ∈ s.pending ∧ p.1 ≠ id := by
  rw [Inner.remove] at hp
  cases hl : s.pending.lookup id with
  | some tx =>
    rw [hl] at hp
    simpa using List.mem_filter.1 hp
  | none =>
    rw [hl] at hp
    refine ⟨hp, fun hid => ?_⟩
    have := List.lookup_eq_none_iff.1 hl p hp
    simp [hid] at this

/-- The channel `tx` with a reply. -/
def Inner.complete (s : Inner) (tx : Nat) (reply : Reply) : Inner :=
  { s with oneshots := Function.update s.oneshots tx (.sent reply) }

/-- Takes `id` out of the map and completes it. -/
def Inner.dispatch (s : Inner) (id : RequestId) (reply : Reply) : Option Nat × Inner :=
  match s.pending.lookup id with
  | some tx => (some tx, { s.complete tx reply with pending := s.pending.filter fun p => p.1 ≠ id })
  | none => (none, s)

/-! ## Operations -/

/-- How waiting for a reply ends. -/
inductive Waited
  | value (reply : Reply)
  | closed
  | elapsed

/-- The atomic operations of the client code. -/
inductive Op
  | handshakeLoad
  | handshakeStore (state : Nat)
  | handshakeFetchMax (state : Nat)
  | handshakeLock
  | handshakeUnlock
  | nextIdFetchAdd
  | oneshotChannel
  | pendingInsert (id : RequestId) (tx : Nat)
  | pendingRemove (id : RequestId)
  /-- `remove(&id)` and the send to the sender it returns, under one lock. -/
  | pendingDispatch (id : RequestId) (reply : Reply)
  | pendingTake
  | oneshotSend (tx : Nat) (reply : Reply)
  | timeoutRecv (rx : Nat) (timeout : Duration)
  | outboundSend (frame : Value)
  | inboundRecv
  | eventSend (event : ServerEvent)
  | handlerRead (kind : ServerRequestKind)
  | handlerWrite (kind : ServerRequestKind) (handler : Option Handler)

/-- What each operation answers. -/
abbrev Op.Ans : Op → Type
  | handshakeLoad => Nat
  | nextIdFetchAdd => Int64
  | oneshotChannel => Nat
  | pendingDispatch _ _ => Option Nat
  | pendingTake => List (RequestId × Nat)
  | timeoutRecv _ _ => Waited
  | outboundSend _ => Bool
  | inboundRecv => Option (Except ClientError Value)
  | handlerRead _ => Option Handler
  | _ => Unit

/-- What is not up to the client: `refuse` makes a timer run out or a send fail, and `deliver` is
what the transport has to offer next (`none` when its channel is closed). -/
inductive Choice
  | proceed
  | refuse
  | deliver (item : Option (Except ClientError Value))

/-- How waiting on a channel can end in this state. -/
def Oneshot.wait : Oneshot → Choice → Option Waited
  | .sent reply, .proceed => some (.value reply)
  | .closed, .proceed => some .closed
  | .empty, .refuse => some .elapsed
  | _, _ => none

theorem Oneshot.wait_value {slot : Oneshot} {ch : Choice} {reply : Reply}
    (h : slot.wait ch = some (.value reply)) : slot = .sent reply := by
  cases slot <;> cases ch <;> simp_all [Oneshot.wait]

theorem Oneshot.wait_closed {slot : Oneshot} {ch : Choice} (h : slot.wait ch = some .closed) :
    slot = .closed := by
  cases slot <;> cases ch <;> simp_all [Oneshot.wait]

/-- The effect of an operation; `none` while it cannot be performed. -/
def exec (t : Tid) : (o : Op) → Choice → Inner → Option (o.Ans × Inner)
  | .handshakeLoad, _, s => some (s.handshakeState, s)
  | .handshakeStore v, _, s => some ((), { s with handshakeState := v })
  | .handshakeFetchMax v, _, s => some ((), { s with handshakeState := max s.handshakeState v })
  | .handshakeLock, _, s => match s.handshakeLock with
    | none => some ((), { s with handshakeLock := some t })
    | some _ => none
  | .handshakeUnlock, _, s => some ((), { s with handshakeLock := none })
  | .nextIdFetchAdd, _, s => some (s.nextId, { s with nextId := s.nextId + 1 })
  | .oneshotChannel, _, s => some (s.channels, { s with channels := s.channels + 1 })
  | .pendingInsert id tx, _, s => some ((), s.insert id tx)
  | .pendingRemove id, _, s => some ((), s.remove id)
  | .pendingDispatch id reply, _, s => some (s.dispatch id reply)
  | .pendingTake, _, s => some (s.pending, { s with pending := [] })
  | .oneshotSend tx reply, _, s => some ((), s.complete tx reply)
  | .timeoutRecv rx _, ch, s => ((s.oneshots rx).wait ch).map fun a => (a, s)
  | .outboundSend _, .proceed, s => some (true, s)
  | .outboundSend _, .refuse, s => some (false, s)
  | .outboundSend _, .deliver _, _ => none
  | .inboundRecv, .deliver item, s => some (item, s)
  | .inboundRecv, _, _ => none
  | .eventSend _, _, s => some ((), s)
  | .handlerRead kind, _, s => some (s.handlers kind, s)
  | .handlerWrite kind handler, _, s =>
    some ((), { s with handlers := Function.update s.handlers kind handler })

section

variable (s : Inner) (id : RequestId) (tx : Nat) (reply : Reply)

@[simp] theorem remove_handshakeState : (s.remove id).handshakeState = s.handshakeState := by
  rw [Inner.remove]; split <;> rfl

@[simp] theorem remove_handshakeLock : (s.remove id).handshakeLock = s.handshakeLock := by
  rw [Inner.remove]; split <;> rfl

theorem remove_nextId : (s.remove id).nextId = s.nextId := by rw [Inner.remove]; split <;> rfl

theorem remove_channels : (s.remove id).channels = s.channels := by
  rw [Inner.remove]; split <;> rfl

@[simp] theorem insert_handshakeState : (s.insert id tx).handshakeState = s.handshakeState :=
  remove_handshakeState s id

@[simp] theorem insert_handshakeLock : (s.insert id tx).handshakeLock = s.handshakeLock :=
  remove_handshakeLock s id

@[simp] theorem dispatch_handshakeState :
    (s.dispatch id reply).2.handshakeState = s.handshakeState := by
  rw [Inner.dispatch]; split <;> rfl

@[simp] theorem dispatch_handshakeLock :
    (s.dispatch id reply).2.handshakeLock = s.handshakeLock := by
  rw [Inner.dispatch]; split <;> rfl

theorem remove_handlers : (s.remove id).handlers = s.handlers := by
  rw [Inner.remove]; split <;> rfl

theorem dispatch_handlers : (s.dispatch id reply).2.handlers = s.handlers := by
  rw [Inner.dispatch]; split <;> rfl

end

/-- The state an operation leaves: the choices decide whether it can be performed and what it
answers, and nothing else. -/
def Op.after (t : Tid) (s : Inner) : Op → Inner
  | .handshakeStore v => { s with handshakeState := v }
  | .handshakeFetchMax v => { s with handshakeState := max s.handshakeState v }
  | .handshakeLock => { s with handshakeLock := some t }
  | .handshakeUnlock => { s with handshakeLock := none }
  | .nextIdFetchAdd => { s with nextId := s.nextId + 1 }
  | .oneshotChannel => { s with channels := s.channels + 1 }
  | .pendingInsert id tx => s.insert id tx
  | .pendingRemove id => s.remove id
  | .pendingDispatch id reply => (s.dispatch id reply).2
  | .pendingTake => { s with pending := [] }
  | .oneshotSend tx reply => s.complete tx reply
  | .handlerWrite kind handler => { s with handlers := Function.update s.handlers kind handler }
  | _ => s

section

variable {t : Tid} {o : Op} {ch : Choice} {a : o.Ans} {s s' : Inner}

theorem exec_after (h : exec t o ch s = some (a, s')) : s' = o.after t s := by
  cases o with
  | handshakeLock =>
    rw [exec] at h
    split at h <;> cases h
    rfl
  | timeoutRecv rx timeout =>
    obtain ⟨_, -, heq⟩ := Option.map_eq_some_iff.1 h
    cases heq
    rfl
  | outboundSend frame => cases ch <;> cases h <;> rfl
  | inboundRecv => cases ch <;> cases h; rfl
  | _ => exact (congrArg Prod.snd (Option.some.inj h)).symm

/-- The lock is taken when nobody holds it. -/
theorem exec_lock {a : Unit} (h : exec t .handshakeLock ch s = some (a, s')) :
    s.handshakeLock = none ∧ s' = { s with handshakeLock := some t } := by
  refine ⟨?_, exec_after h⟩
  cases hl : s.handshakeLock with
  | none => rfl
  | some u => simp [exec, hl] at h

/-- Only two operations write the handshake state. -/
theorem exec_handshakeState (h : exec t o ch s = some (a, s'))
    (hstore : ∀ v, o ≠ .handshakeStore v) (hmax : ∀ v, o ≠ .handshakeFetchMax v) :
    s'.handshakeState = s.handshakeState := by
  rw [exec_after h]
  cases o with
  | handshakeStore v => exact absurd rfl (hstore v)
  | handshakeFetchMax v => exact absurd rfl (hmax v)
  | pendingInsert id tx => exact insert_handshakeState s id tx
  | pendingRemove id => exact remove_handshakeState s id
  | pendingDispatch id reply => exact dispatch_handshakeState s id reply
  | _ => rfl

/-- Only two operations touch the handshake lock. -/
theorem exec_handshakeLock (h : exec t o ch s = some (a, s')) (hlock : o ≠ .handshakeLock)
    (hunlock : o ≠ .handshakeUnlock) : s'.handshakeLock = s.handshakeLock := by
  rw [exec_after h]
  cases o with
  | handshakeLock => exact absurd rfl hlock
  | handshakeUnlock => exact absurd rfl hunlock
  | pendingInsert id tx => exact insert_handshakeLock s id tx
  | pendingRemove id => exact remove_handshakeLock s id
  | pendingDispatch id reply => exact dispatch_handshakeLock s id reply
  | _ => rfl

/-- Only one operation touches the handlers. -/
theorem exec_handlers (h : exec t o ch s = some (a, s'))
    (hwrite : ∀ kind handler, o ≠ .handlerWrite kind handler) : s'.handlers = s.handlers := by
  rw [exec_after h]
  cases o with
  | handlerWrite kind handler => exact absurd rfl (hwrite kind handler)
  | pendingInsert id tx => exact remove_handlers s id
  | pendingRemove id => exact remove_handlers s id
  | pendingDispatch id reply => exact dispatch_handlers s id reply
  | _ => rfl

/-- An entry that is in the map now was there before, or has just been inserted. -/
theorem exec_pending (h : exec t o ch s = some (a, s')) {p : RequestId × Nat}
    (hp : p ∈ s'.pending) : p ∈ s.pending ∨ o = .pendingInsert p.1 p.2 := by
  rw [exec_after h] at hp
  cases o with
  | pendingInsert id tx =>
    rcases List.mem_append.1 hp with hp | hp
    · exact .inl (mem_remove hp).1
    · obtain rfl := List.mem_singleton.1 hp
      exact .inr rfl
  | pendingRemove id => exact .inl (mem_remove hp).1
  | pendingDispatch id reply =>
    rw [Op.after, Inner.dispatch] at hp
    split at hp
    · exact .inl (List.mem_filter.1 hp).1
    · exact .inl hp
  | pendingTake => cases hp
  | _ => exact .inl hp

end

/-- The operations behind an `.await`, where a task can be dropped. -/
def Op.awaits : Op → Bool
  | handshakeLock | pendingInsert _ _ | pendingRemove _ | pendingDispatch _ _ | pendingTake
  | timeoutRecv _ _ | outboundSend _ | inboundRecv | handlerRead _ | handlerWrite _ _ => true
  | _ => false

/-- Dropping a task drops the guard it may hold. -/
def cancel (t : Tid) (s : Inner) : Inner :=
  if s.handshakeLock = some t then { s with handshakeLock := none } else s

@[simp] theorem cancel_pending (t : Tid) (s : Inner) : (cancel t s).pending = s.pending := by
  rw [cancel]; split <;> rfl

@[simp] theorem cancel_handshakeState (t : Tid) (s : Inner) :
    (cancel t s).handshakeState = s.handshakeState := by
  rw [cancel]; split <;> rfl

end CodexSdk

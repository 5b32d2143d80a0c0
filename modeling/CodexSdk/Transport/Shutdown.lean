import CodexSdk.Interleave.Sequential
import CodexSdk.Transport.WsDaemon

/-!
# Stopping an owned app-server

The other half of `transport/ws_daemon.rs`: what the owner of a server process does with it.
`WsServerHandle::shutdown` signals the process group, polls until the process has exited and its
URL is free again, and kills the group if that takes too long.

The process and its group are taken out of the handle before anything else is done, so a later call
has none and returns at once.  `shutdown_iff` says that a call that does have them is right about
the server, and `shutdowns_iff` what that leaves for a handle that is shut down several times.
-/

set_option autoImplicit false

namespace CodexSdk
namespace WsDaemon

open Interleave

/-! ## Operations -/

/-- What an owner does with its process, besides what a starting call does. -/
inductive OwnerOp
  | start (o : Op)
  /-- `kill` on the group; the operating system may refuse. -/
  | signalProcessGroup (processGroupId : Nat) (signal : Nat)
  | killChild (child : Nat)
  | waitChild (child : Nat)

abbrev OwnerOp.Ans : OwnerOp → Type
  | start o => o.Ans
  | signalProcessGroup _ _ => Except String Unit
  | killChild _ => Except String Unit
  | waitChild _ => Except String String

abbrev OwnerM := Prog OwnerOp OwnerOp.Ans

abbrev OwnerExchange := Exchange OwnerOp OwnerOp.Ans

abbrev performOwner (o : OwnerOp) : OwnerM o.Ans := Prog.perform o

/-! ## Shutting down -/

/-- `SHUTDOWN_POLL_INTERVAL`, in nanoseconds. -/
def shutdownPollInterval : Nat := 100000000

def shutdownPollAttempts : Nat := 20

def pause : OwnerM Unit := performOwner (.start (.sleep shutdownPollInterval))

/-- A signal to the group, if there is one; whether it arrives makes no difference. -/
def signalGroup (processGroupId : Option Nat) (signal : Nat) : OwnerM Unit :=
  match processGroupId with
  | some processGroupId => do
    let _ ← performOwner (.signalProcessGroup processGroupId signal)
    return ()
  | none => return ()

def terminateProcessGroup (processGroupId : Option Nat) : OwnerM Unit :=
  signalGroup processGroupId 15

def killProcessGroup (processGroupId : Option Nat) : OwnerM Unit := signalGroup processGroupId 9

/-- Nothing accepts connections at the URL, or something does that is no app-server. -/
def connectTargetReleased (connectUrl : String) : OwnerM Bool := do
  match ← performOwner (.start (.probe connectUrl none)) with
  | .ok .reachable => return false
  | .ok .unavailable => return true
  | .error _ => return true

/-- The child is looked at until it has exited. -/
def checkExited (child : Nat) (childExited : Bool) : OwnerM (Except ClientError Bool) :=
  if childExited then return .ok true
  else do
    match ← performOwner (.start (.tryWait child)) with
    | .error err => return .error (.io err)
    | .ok status => return .ok status.isSome

/-- The URL is looked at once the child has exited. -/
def checkReleased (connectUrl : String) (childExited : Bool) : OwnerM Bool :=
  if childExited then connectTargetReleased connectUrl else return false

/-- In the middle of the first loop the group is signalled again. -/
def escalate (attempt : Nat) (processGroupId : Option Nat) : OwnerM Unit :=
  if attempt = 5 then terminateProcessGroup processGroupId else return ()

/-- How the first loop of `shutdown` ends. -/
inductive Polled
  | released
  | exhausted (childExited : Bool)

/-- The first loop of `shutdown`, over the attempts that are left. -/
def awaitExit (connectUrl : String) (processGroupId : Option Nat) (child : Nat) :
    List Nat → Bool → OwnerM (Except ClientError Polled)
  | [], childExited => return .ok (.exhausted childExited)
  | attempt :: attempts, childExited => do
    match ← checkExited child childExited with
    | .error err => return .error err
    | .ok childExited => do
      let released ← checkReleased connectUrl childExited
      if released then return .ok .released
      else do
        escalate attempt processGroupId
        pause
        awaitExit connectUrl processGroupId child attempts childExited

/-- The second loop of `shutdown`: whether the URL was released. -/
def awaitRelease (connectUrl : String) : Nat → OwnerM Bool
  | 0 => return false
  | attempts + 1 => do
    let released : Bool ← connectTargetReleased connectUrl
    if released then return true
    else do
      pause
      awaitRelease connectUrl attempts

/-- A child that has not exited is killed and waited for. -/
def reapChild (child : Nat) (childExited : Bool) : OwnerM (Except ClientError Unit) :=
  if childExited then return .ok ()
  else do
    let _ ← performOwner (.killChild child)
    match ← performOwner (.waitChild child) with
    | .error err => return .error (.io err)
    | .ok _ => return .ok ()

def shutdownChild (handle : WsServerHandle) (child : Nat) : OwnerM (Except ClientError Unit) := do
  terminateProcessGroup handle.processGroupId
  match ← awaitExit handle.connectUrl handle.processGroupId child
      (List.range shutdownPollAttempts) false with
  | .error err => return .error err
  | .ok .released => return .ok ()
  | .ok (.exhausted childExited) => do
    killProcessGroup handle.processGroupId
    match ← reapChild child childExited with
    | .error err => return .error err
    | .ok _ => do
      let released : Bool ← awaitRelease handle.connectUrl shutdownPollAttempts
      if released then return .ok ()
      else return .error (.startup
        s!"websocket app-server did not release `{handle.connectUrl}` during shutdown"
        handle.logPath)

/-- `WsServerHandle::shutdown`, on Unix. -/
def shutdown (handle : WsServerHandle) : OwnerM (Except ClientError Unit) :=
  match handle.child with
  | none => return .ok ()
  | some child => shutdownChild handle child

/-- The handle once `shutdown` has been called on it: what it takes out it takes out first. -/
def WsServerHandle.afterShutdown (handle : WsServerHandle) : WsServerHandle :=
  { handle with processGroupId := none, child := none }

/-- Calls of `shutdown` on one handle, one after another, each with its exchanges and its result. -/
inductive Shutdowns :
    WsServerHandle → List (List OwnerExchange × Except ClientError Unit) → Prop
  | none (handle : WsServerHandle) : Shutdowns handle []
  | call {handle : WsServerHandle} {exchanges : List OwnerExchange} {r : Except ClientError Unit}
      {calls : List (List OwnerExchange × Except ClientError Unit)}
      (h : Yields (shutdown handle) exchanges r) (rest : Shutdowns handle.afterShutdown calls) :
      Shutdowns handle ((exchanges, r) :: calls)

/-! ## What was observed -/

/-- The exchange shows that the child has exited. -/
def showsExit (child : Nat) : OwnerExchange → Bool
  | ⟨.start (.tryWait pid), answer⟩ => match answer with
    | .ok (some _) => pid == child
    | _ => false
  | ⟨.waitChild pid, answer⟩ => match answer with
    | .ok _ => pid == child
    | .error _ => false
  | _ => false

/-- The answer to a probe of the URL. -/
def probeAnswer (url : String) : OwnerExchange → Option (Except String ProbeState)
  | ⟨.start (.probe probed _), answer⟩ => if probed = url then some answer else none
  | _ => none

def lastProbe (url : String) (exchanges : List OwnerExchange) : Option (Except String ProbeState) :=
  (exchanges.filterMap (probeAnswer url)).getLast?

/-- The server is gone, as far as these exchanges tell: its process was seen to have exited, and the
last probe of its URL did not find a server. -/
def Gone (url : String) (child : Nat) (exchanges : List OwnerExchange) : Prop :=
  (∃ x ∈ exchanges, showsExit child x = true) ∧
    ∃ answer, lastProbe url exchanges = some answer ∧ answer ≠ .ok .reachable

/-- The exit of the process was seen. -/
def Seen (child : Nat) (exchanges : List OwnerExchange) : Prop :=
  ∃ x ∈ exchanges, showsExit child x = true

/-- The exchanges tell nothing about the process or the URL. -/
def Quiet (url : String) (child : Nat) (exchanges : List OwnerExchange) : Prop :=
  ¬ Seen child exchanges ∧ lastProbe url exchanges = none

section

variable {url : String} {child : Nat} {xs ys : List OwnerExchange}

theorem seen_append : Seen child (xs ++ ys) ↔ Seen child xs ∨ Seen child ys := by
  simp only [Seen, List.mem_append, or_and_right, exists_or]

theorem not_seen_nil : ¬ Seen child [] := by
  rintro ⟨x, hx, -⟩
  cases hx

theorem seen_singleton {x : OwnerExchange} : Seen child [x] ↔ showsExit child x = true := by
  simp [Seen]

theorem lastProbe_append :
    lastProbe url (xs ++ ys) = (lastProbe url ys).or (lastProbe url xs) := by
  rw [lastProbe, List.filterMap_append, List.getLast?_append]
  rfl

theorem lastProbe_singleton {x : OwnerExchange} : lastProbe url [x] = probeAnswer url x := by
  rw [lastProbe, List.filterMap_cons]
  cases probeAnswer url x <;> rfl

theorem quiet_nil : Quiet url child [] := ⟨not_seen_nil, rfl⟩

theorem Quiet.seen_append_left (h : Quiet url child xs) :
    Seen child (xs ++ ys) ↔ Seen child ys :=
  seen_append.trans (or_iff_right h.1)

theorem Quiet.lastProbe_append_left (h : Quiet url child xs) :
    lastProbe url (xs ++ ys) = lastProbe url ys := by
  rw [lastProbe_append, h.2, Option.or_none]

/-! ## The pieces -/

theorem pause_quiet {u : Unit} (h : Yields pause xs u) : Quiet url child xs := by
  obtain ⟨a, rest, rfl, hrest⟩ := yields_op.1 h
  obtain ⟨rfl, -⟩ := yields_ret.1 hrest
  exact ⟨fun hseen => (nomatch seen_singleton.1 hseen), lastProbe_singleton⟩

theorem signalGroup_quiet {processGroupId : Option Nat} {signal : Nat} {u : Unit}
    (h : Yields (signalGroup processGroupId signal) xs u) : Quiet url child xs := by
  cases processGroupId with
  | none =>
    obtain ⟨rfl, -⟩ := yields_ret.1 h
    exact quiet_nil
  | some pgid =>
    obtain ⟨a, rest, rfl, hrest⟩ := yields_op.1 h
    obtain ⟨rfl, -⟩ := yields_ret.1 hrest
    exact ⟨fun hseen => (nomatch seen_singleton.1 hseen), lastProbe_singleton⟩

theorem escalate_quiet {attempt : Nat} {processGroupId : Option Nat} {u : Unit}
    (h : Yields (escalate attempt processGroupId) xs u) : Quiet url child xs := by
  rw [escalate] at h
  split at h
  · exact signalGroup_quiet h
  · obtain ⟨rfl, -⟩ := yields_ret.1 h
    exact quiet_nil

/-- One probe: whether the URL is released. -/
theorem connectTargetReleased_spec {released : Bool}
    (h : Yields (connectTargetReleased url) xs released) :
    ¬ Seen child xs ∧ ∃ answer, lastProbe url xs = some answer ∧
      (released = true ↔ answer ≠ .ok .reachable) := by
  obtain ⟨answer, rest, rfl, hrest⟩ := yields_op.1 h
  have hprobe : lastProbe url [⟨.start (.probe url none), answer⟩] = some answer := by
    rw [lastProbe_singleton]
    exact if_pos rfl
  match answer with
  | .ok .reachable =>
    obtain ⟨rfl, rfl⟩ := yields_ret.1 hrest
    exact ⟨fun hseen => (nomatch seen_singleton.1 hseen), _, hprobe, by simp⟩
  | .ok .unavailable =>
    obtain ⟨rfl, rfl⟩ := yields_ret.1 hrest
    exact ⟨fun hseen => (nomatch seen_singleton.1 hseen), _, hprobe, by simp⟩
  | .error err =>
    obtain ⟨rfl, rfl⟩ := yields_ret.1 hrest
    exact ⟨fun hseen => (nomatch seen_singleton.1 hseen), _, hprobe, by simp⟩

/-- One look at the child. -/
theorem checkExited_spec (url : String) {exited : Bool} {r : Except ClientError Bool}
    (h : Yields (checkExited child exited) xs r) :
    lastProbe url xs = none ∧
      (∀ e, r = .ok e → (e = true ↔ exited = true ∨ Seen child xs)) ∧
      ∀ err, r = .error err → ¬ (exited = true ∨ Seen child xs) := by
  rw [checkExited] at h
  split at h
  · rename_i hexited
    obtain ⟨rfl, rfl⟩ := yields_ret.1 h
    exact ⟨rfl, fun e he => by cases he; simp [hexited], nofun⟩
  · rename_i hexited
    have hfalse : exited = false := Bool.eq_false_iff.2 hexited
    obtain ⟨answer, rest, rfl, hrest⟩ := yields_op.1 h
    match answer with
    | .error err =>
      obtain ⟨rfl, rfl⟩ := yields_ret.1 hrest
      refine ⟨lastProbe_singleton, nofun, fun _ _ => ?_⟩
      rw [hfalse, seen_singleton]
      exact fun h => h.elim nofun nofun
    | .ok none =>
      obtain ⟨rfl, rfl⟩ := yields_ret.1 hrest
      refine ⟨lastProbe_singleton, fun e he => ?_, nofun⟩
      cases he
      rw [hfalse, seen_singleton]
      exact ⟨nofun, fun h => h.elim nofun nofun⟩
    | .ok (some status) =>
      obtain ⟨rfl, rfl⟩ := yields_ret.1 hrest
      refine ⟨lastProbe_singleton, fun e he => ?_, nofun⟩
      cases he
      rw [seen_singleton]
      exact ⟨fun _ => .inr (beq_self_eq_true child), fun _ => rfl⟩

theorem checkReleased_spec (child : Nat) {exited released : Bool}
    (h : Yields (checkReleased url exited) xs released) :
    ¬ Seen child xs ∧ (released = true → exited = true ∧
      ∃ answer, lastProbe url xs = some answer ∧ answer ≠ .ok .reachable) := by
  rw [checkReleased] at h
  split at h
  · rename_i hexited
    obtain ⟨hseen, answer, hlast, hiff⟩ := connectTargetReleased_spec h
    exact ⟨hseen, fun hreleased => ⟨hexited, answer, hlast, hiff.1 hreleased⟩⟩
  · obtain ⟨rfl, rfl⟩ := yields_ret.1 h
    exact ⟨not_seen_nil, nofun⟩

/-- How the first loop ends, and what it has observed until then. -/
structure AwaitSpec (url : String) (child : Nat) (exited : Bool) (xs : List OwnerExchange)
    (r : Except ClientError Polled) : Prop where
  released : r = .ok .released → (exited = true ∨ Seen child xs) ∧
    ∃ answer, lastProbe url xs = some answer ∧ answer ≠ .ok .reachable
  exhausted : ∀ e, r = .ok (.exhausted e) → (e = true ↔ exited = true ∨ Seen child xs)
  failed : ∀ err, r = .error err → ¬ (exited = true ∨ Seen child xs)

/-- **The first loop of a shutdown**, round by round. -/
theorem awaitExit_spec {processGroupId : Option Nat} {attempts : List Nat} :
    ∀ {exited : Bool} {xs : List OwnerExchange} {r : Except ClientError Polled},
      Yields (awaitExit url processGroupId child attempts exited) xs r →
      AwaitSpec url child exited xs r := by
  induction attempts with
  | nil =>
    intro exited xs r h
    obtain ⟨rfl, rfl⟩ := yields_ret.1 h
    refine ⟨nofun, fun e he => ?_, nofun⟩
    cases he
    exact ⟨.inl, fun h => h.resolve_right not_seen_nil⟩
  | cons attempt attempts ih =>
    intro exited xs r h
    rw [awaitExit] at h
    obtain ⟨first, looked, rest, rfl, hlook, hrest⟩ := yields_bind.1 h
    obtain ⟨-, hok, herror⟩ := checkExited_spec url hlook
    cases looked with
    | error err =>
      obtain ⟨rfl, rfl⟩ := yields_ret.1 hrest
      rw [List.append_nil]
      exact ⟨nofun, nofun, fun _ _ => herror err rfl⟩
    | ok now =>
      have hnow := hok now rfl
      obtain ⟨probed, released, rest', rfl, hprobe, hrest'⟩ := yields_bind.1 hrest
      obtain ⟨hunseen, hreleased⟩ := checkReleased_spec child hprobe
      cases released with
      | true =>
        obtain ⟨rfl, rfl⟩ := yields_ret.1 hrest'
        obtain ⟨hexited, answer, hlast, hne⟩ := hreleased rfl
        refine ⟨fun _ => ?_, nofun, nofun⟩
        rw [List.append_nil, lastProbe_append, hlast, seen_append]
        exact ⟨(hnow.1 hexited).imp_right .inl, answer, rfl, hne⟩
      | false =>
        obtain ⟨signalled, u, rest₁, rfl, hsignal, hpaused⟩ := yields_bind.1 hrest'
        obtain ⟨paused, u', rest₂, rfl, hpause, hloop⟩ := yields_bind.1 hpaused
        have hspec := ih hloop
        have hescalated : Quiet url child signalled := escalate_quiet hsignal
        have hslept : Quiet url child paused := pause_quiet hpause
        have hseen : Seen child (first ++ (probed ++ (signalled ++ (paused ++ rest₂)))) ↔
            Seen child first ∨ Seen child rest₂ := by
          rw [seen_append, seen_append, or_iff_right hunseen,
            hescalated.seen_append_left, hslept.seen_append_left]
        have hstart : (exited = true ∨
            Seen child (first ++ (probed ++ (signalled ++ (paused ++ rest₂))))) ↔
              now = true ∨ Seen child rest₂ := by
          rw [hseen, hnow, or_assoc]
        refine ⟨fun hr => ?_, fun e he => (hspec.exhausted e he).trans hstart.symm,
          fun err he => ?_⟩
        · obtain ⟨hexited, answer, hlast, hne⟩ := hspec.released hr
          refine ⟨hstart.2 hexited, answer, ?_, hne⟩
          rw [lastProbe_append, lastProbe_append, lastProbe_append, lastProbe_append, hlast]
          rfl
        · rw [hstart]
          exact hspec.failed err he

/-- The second loop: the URL is released just when the last probe says so. -/
theorem awaitRelease_spec (child : Nat) {attempts : Nat} : ∀ {xs : List OwnerExchange}
    {released : Bool}, Yields (awaitRelease url attempts) xs released → ¬ Seen child xs ∧
      (released = true → ∃ answer, lastProbe url xs = some answer ∧ answer ≠ .ok .reachable) ∧
      (released = false → attempts = 0 ∨ lastProbe url xs = some (.ok .reachable)) := by
  induction attempts with
  | zero =>
    intro xs released h
    obtain ⟨rfl, rfl⟩ := yields_ret.1 h
    exact ⟨not_seen_nil, nofun, fun _ => .inl rfl⟩
  | succ attempts ih =>
    intro xs released h
    rw [awaitRelease] at h
    obtain ⟨first, now, rest, rfl, hprobe, hrest⟩ := yields_bind.1 h
    obtain ⟨hfirst, answer, hlast, hiff⟩ : ¬ Seen child first ∧ _ :=
      connectTargetReleased_spec hprobe
    cases now with
    | true =>
      obtain ⟨rfl, rfl⟩ := yields_ret.1 hrest
      rw [List.append_nil]
      exact ⟨hfirst, fun _ => ⟨answer, hlast, hiff.1 rfl⟩, nofun⟩
    | false =>
      obtain ⟨paused, u, rest', rfl, hpause, hloop⟩ := yields_bind.1 hrest
      obtain ⟨hseen, hreleased, hnot⟩ := ih hloop
      have hquiet : Quiet url child paused := pause_quiet hpause
      have hlook : answer = .ok .reachable := by
        by_contra hne
        exact nomatch hiff.2 hne
      rw [lastProbe_append, hquiet.lastProbe_append_left, hlast, hlook]
      refine ⟨?_, fun hr => ?_, fun hr => ?_⟩
      · rw [seen_append, hquiet.seen_append_left]
        exact fun h => h.elim hfirst hseen
      · obtain ⟨answer', hlast', hne⟩ := hreleased hr
        exact ⟨answer', by rw [hlast']; rfl, hne⟩
      · rcases hnot hr with rfl | hlast'
        · obtain ⟨rfl, -⟩ := yields_ret.1 hloop
          exact .inr rfl
        · rw [hlast']
          exact .inr rfl

theorem reapChild_spec (url : String) {exited : Bool} {r : Except ClientError Unit}
    (h : Yields (reapChild child exited) xs r) : lastProbe url xs = none ∧
      ((∃ u, r = .ok u) ↔ exited = true ∨ Seen child xs) := by
  rw [reapChild] at h
  split at h
  · rename_i hexited
    obtain ⟨rfl, rfl⟩ := yields_ret.1 h
    exact ⟨rfl, iff_of_true ⟨(), rfl⟩ (.inl hexited)⟩
  · rename_i hexited
    obtain ⟨killed, rest, rfl, hwait⟩ := yields_op.1 h
    obtain ⟨answer, rest', rfl, hrest⟩ := yields_op.1 hwait
    match answer with
    | .error err =>
      obtain ⟨rfl, rfl⟩ := yields_ret.1 hrest
      refine ⟨rfl, iff_of_false nofun ?_⟩
      rintro (h | ⟨x, hx, hseen⟩)
      · exact hexited h
      · simp only [List.mem_cons, List.not_mem_nil, or_false] at hx
        rcases hx with rfl | rfl <;> cases hseen
    | .ok status =>
      obtain ⟨rfl, rfl⟩ := yields_ret.1 hrest
      exact ⟨rfl, iff_of_true ⟨(), rfl⟩ (.inr
        ⟨⟨.waitChild child, .ok status⟩, by simp, beq_self_eq_true child⟩)⟩

/-- **A shutdown that has a process is right about it**: it succeeds just when the server is gone,
as far as it could see. -/
theorem shutdownChild_iff {handle : WsServerHandle} {r : Except ClientError Unit}
    (h : Yields (shutdownChild handle child) xs r) :
    (∃ u, r = .ok u) ↔ Gone handle.connectUrl child xs := by
  rw [shutdownChild] at h
  obtain ⟨signalled, u, rest, rfl, hsignal, hrest⟩ := yields_bind.1 h
  have hquiet : Quiet handle.connectUrl child signalled := signalGroup_quiet hsignal
  obtain ⟨polled, how, rest', rfl, hpolled, hafter⟩ := yields_bind.1 hrest
  have hspec := awaitExit_spec hpolled
  rw [Gone, ← Seen, hquiet.seen_append_left, hquiet.lastProbe_append_left]
  match how with
  | .error err =>
    obtain ⟨rfl, rfl⟩ := yields_ret.1 hafter
    rw [List.append_nil]
    exact iff_of_false nofun fun hgone => hspec.failed err rfl (.inr hgone.1)
  | .ok .released =>
    obtain ⟨rfl, rfl⟩ := yields_ret.1 hafter
    rw [List.append_nil]
    obtain ⟨hseen, hreleased⟩ := hspec.released rfl
    exact iff_of_true ⟨(), rfl⟩ ⟨hseen.resolve_left nofun, hreleased⟩
  | .ok (.exhausted exited) =>
    have hexited : exited = true ↔ Seen child polled := by
      rw [hspec.exhausted exited rfl]
      exact or_iff_right nofun
    obtain ⟨killed, u', rest₁, rfl, hkill, hreaping⟩ := yields_bind.1 hafter
    have hkilled : Quiet handle.connectUrl child killed := signalGroup_quiet hkill
    obtain ⟨reaped, done, rest₂, rfl, hreap, hfinal⟩ := yields_bind.1 hreaping
    obtain ⟨hunprobed, hdone⟩ := reapChild_spec handle.connectUrl hreap
    rw [hexited] at hdone
    match done with
    | .error err =>
      obtain ⟨rfl, rfl⟩ := yields_ret.1 hfinal
      rw [List.append_nil, seen_append, hkilled.seen_append_left, ← hdone]
      exact iff_of_false nofun fun hgone => nomatch hgone.1
    | .ok _ =>
      obtain ⟨released, now, rest₃, rfl, hrelease, hend⟩ := yields_bind.1 hfinal
      obtain ⟨-, hyes, hno⟩ := awaitRelease_spec child hrelease
      have hseen : Seen child (polled ++ (killed ++ (reaped ++ (released ++ rest₃)))) := by
        rw [seen_append, hkilled.seen_append_left, seen_append, ← or_assoc]
        exact .inl (hdone.1 ⟨_, rfl⟩)
      cases now with
      | true =>
        obtain ⟨rfl, rfl⟩ := yields_ret.1 hend
        obtain ⟨answer, hlast, hne⟩ := hyes rfl
        refine iff_of_true ⟨(), rfl⟩ ⟨hseen, answer, ?_, hne⟩
        rw [List.append_nil, lastProbe_append, lastProbe_append, lastProbe_append, hlast]
        rfl
      | false =>
        obtain ⟨rfl, rfl⟩ := yields_ret.1 hend
        refine iff_of_false nofun ?_
        rintro ⟨-, answer, hlast, hne⟩
        rw [List.append_nil, lastProbe_append, lastProbe_append, lastProbe_append,
          (hno rfl).resolve_left (by decide)] at hlast
        exact hne (Option.some.inj hlast).symm

theorem shutdown_iff {handle : WsServerHandle} (hchild : handle.child = some child)
    {r : Except ClientError Unit} (h : Yields (shutdown handle) xs r) :
    (∃ u, r = .ok u) ↔ Gone handle.connectUrl child xs := by
  rw [shutdown, hchild] at h
  exact shutdownChild_iff h

/-! ## Several calls -/

/-- A handle without a process is shut down at once, and always successfully. -/
theorem shutdowns_of_none {handle : WsServerHandle} (hchild : handle.child = none)
    {calls : List (List OwnerExchange × Except ClientError Unit)} (h : Shutdowns handle calls) :
    ∀ call ∈ calls, call = ([], .ok ()) := by
  induction h with
  | none => exact nofun
  | call h rest ih =>
    rw [shutdown, hchild] at h
    obtain ⟨rfl, rfl⟩ := yields_ret.1 h
    exact List.forall_mem_cons.2 ⟨rfl, ih rfl⟩

/-- All that has been exchanged in these calls. -/
def history (calls : List (List OwnerExchange × Except ClientError Unit)) : List OwnerExchange :=
  calls.flatMap Prod.fst

theorem history_of_none {calls : List (List OwnerExchange × Except ClientError Unit)}
    (h : ∀ call ∈ calls, call = ([], .ok ())) : history calls = [] := by
  rw [history, List.flatMap_eq_nil_iff]
  exact fun call hcall => by rw [h call hcall]

/-- **Shutting down a handle**, any number of times: a call that succeeds leaves the server gone,
in every run of calls in which none follows a failed one, and in no other. -/
theorem shutdowns_iff {handle : WsServerHandle} (hchild : handle.child = some child)
    {calls : List (List OwnerExchange × Except ClientError Unit)} (h : Shutdowns handle calls) :
    (∀ before exchanges after, calls = before ++ (exchanges, .ok ()) :: after →
        Gone handle.connectUrl child (history before ++ exchanges)) ↔
      ∀ before exchanges err after, calls = before ++ (exchanges, .error err) :: after →
        after = [] := by
  cases h with
  | none => exact iff_of_true (by simp) (by simp)
  | @call _ first r rest hfirst hrest =>
    have hnone := shutdowns_of_none rfl hrest
    have hiff := shutdown_iff hchild hfirst
    constructor
    · intro hgone before exchanges err after heq
      cases before with
      | cons c before =>
        have hmem : (exchanges, .error err) ∈ rest := by
          rw [(List.cons.inj heq).2]
          exact List.mem_append_right _ List.mem_cons_self
        cases hnone _ hmem
      | nil =>
        obtain ⟨hcall, rfl⟩ := List.cons.inj heq
        cases hcall
        cases hafter : rest with
        | nil => rfl
        | cons second after =>
          have hsecond : second = ([], .ok ()) := hnone second (hafter ▸ List.mem_cons_self)
          have hfirstGone := hgone [(first, .error err)] [] after (by rw [hafter, hsecond]; rfl)
          rw [history, List.flatMap_singleton, List.append_nil] at hfirstGone
          exact nomatch hiff.2 hfirstGone
    · intro hlast before exchanges after heq
      cases before with
      | nil =>
        obtain ⟨hcall, -⟩ := List.cons.inj heq
        cases hcall
        exact hiff.1 ⟨(), rfl⟩
      | cons c before =>
        obtain ⟨rfl, hrest'⟩ := List.cons.inj heq
        have hmem : (exchanges, .ok ()) ∈ rest := hrest' ▸
          List.mem_append_right _ List.mem_cons_self
        have hbefore : history before = [] := history_of_none fun call hcall =>
          hnone call (hrest' ▸ List.mem_append_left _ hcall)
        obtain rfl : exchanges = [] := congrArg Prod.fst (hnone _ hmem)
        have hall : history ((first, r) :: before) = first ++ history before := List.flatMap_cons
        rw [hall, hbefore, List.append_nil, List.append_nil, ← hiff]
        match r with
        | .ok () => exact ⟨(), rfl⟩
        | .error err =>
          rw [hlast [] first err rest rfl] at hmem
          cases hmem

end

/-- A handle that owns a server at this URL. -/
def ownedHandle : WsServerHandle := .blockingStarted "ws://127.0.0.1:4222" "ws://127.0.0.1:4222" 7

/-- The process has exited, and every probe of the URL comes to this. -/
def exitedWith (state : ProbeState) : ∀ o : OwnerOp, o.Ans
  | .start o => match o with
    | .probe _ _ => .ok state
    | .tryWait _ => .ok (some "exit status: 0")
    | .spawnDaemon _ _ => .ok ()
    | .spawnOwnedProcess _ _ => .ok 0
    | .instantIn _ => 0
    | .reached _ => false
    | .lock _ | .unlock _ | .sleep _ | .serverStep => ()
  | .signalProcessGroup _ _ | .killChild _ => .ok ()
  | .waitChild _ => .ok "exit status: 0"

/-- Two calls, of which the first one meets this server. -/
def twoCalls (state : ProbeState) : List (List OwnerExchange × Except ClientError Unit) :=
  [(shutdown ownedHandle).against (exitedWith state), ([], .ok ())]

theorem twoCalls_shutdowns (state : ProbeState) : Shutdowns ownedHandle (twoCalls state) :=
  .call (Prog.yields_against _ _) (.call (.ret _) (.none _))

/-- Something else has taken the port over: the first call fails, and the second one succeeds while
the URL still answers. -/
theorem shutdown_after_failure :
    ¬ ∀ (handle : WsServerHandle) (child : Nat)
      (calls : List (List OwnerExchange × Except ClientError Unit)), handle.child = some child →
      Shutdowns handle calls → ∀ before exchanges after,
        calls = before ++ (exchanges, .ok ()) :: after →
        Gone handle.connectUrl child (history before ++ exchanges) := by
  intro h
  have hgone := h ownedHandle 7 (twoCalls .reachable) rfl (twoCalls_shutdowns _)
    [(shutdown ownedHandle).against (exitedWith .reachable)] [] [] rfl
  rw [history, List.flatMap_singleton, List.append_nil] at hgone
  obtain ⟨u, hok⟩ := (shutdown_iff rfl (Prog.yields_against (exitedWith .reachable)
    (shutdown ownedHandle))).2 hgone
  cases hok

theorem shutdowns_twice :
    (∀ before exchanges after, twoCalls .unavailable = before ++ (exchanges, .ok ()) :: after →
        Gone ownedHandle.connectUrl 7 (history before ++ exchanges)) ↔
      ∀ before exchanges err after,
        twoCalls .unavailable = before ++ (exchanges, .error err) :: after → after = [] :=
  shutdowns_iff rfl (twoCalls_shutdowns _)

end WsDaemon
end CodexSdk

import CodexSdk.Client.Rules

/-!
# The handshake state does not go back, unless two handshakes are mixed

`ensure_ready` holds a lock while it moves the handshake state on, and writes it with plain stores;
`initialize` and `initialized` hold no lock, and write it with `fetch_max`.  The stores are safe
against each other, because of the lock, and so are the `fetch_max`es; but a store that follows a
check under the lock undoes a `fetch_max` that came in between.

`handshake_regresses` is such a run: an `ensure_ready` whose `initialize` is refused, because an
explicit one has succeeded in the meantime, resets a state that is `READY` by then.  `orderly` is
the condition that excludes exactly this, on the history before each store, and
`handshake_monotone` is what then holds of all runs.
-/

set_option autoImplicit false

namespace CodexSdk

open Json Interleave

/-! ## Orderly runs -/

/-- An explicit `initialize` has succeeded. -/
def ExplicitlyInitialized (tr : List ClientEvent) : Prop :=
  ∃ t, .op t (.handshakeFetchMax handshakeInitialized) () ∈ tr

/-- An explicit `initialized` has succeeded. -/
def ExplicitlyReady (tr : List ClientEvent) : Prop :=
  ∃ t, .op t (.handshakeFetchMax handshakeReady) () ∈ tr

/-- `ensure_ready` starts or gives up its `initialize` only while no explicit one has succeeded,
and records its success only while no explicit `initialized` has. -/
def orderly (w : ClientWorld) : ClientEvent → Prop
  | .op _ (.handshakeStore v) _ =>
    (v < handshakeInitialized → ¬ ExplicitlyInitialized w.trace) ∧
      (v = handshakeInitialized → ¬ ExplicitlyReady w.trace)
  | _ => True

theorem ExplicitlyInitialized.suffix {tr tr' : List ClientEvent} (h : ExplicitlyInitialized tr)
    (hs : tr <:+ tr') : ExplicitlyInitialized tr' := h.imp fun _ hm => hs.subset hm

theorem ExplicitlyReady.suffix {tr tr' : List ClientEvent} (h : ExplicitlyReady tr)
    (hs : tr <:+ tr') : ExplicitlyReady tr' := h.imp fun _ hm => hs.subset hm

/-! ## The contract -/

/-- Once the state is at least `INITIALIZED` it does not go back; while `t` holds the lock, only an
explicit `initialize` takes the state to `INITIALIZED`, and only an explicit `initialized` beyond
it. -/
structure Advances (t : Tid) (w w' : ClientWorld) : Prop where
  elsewhere : Elsewhere t w w'
  monotone : handshakeInitialized ≤ w.shared.handshakeState →
    w.shared.handshakeState ≤ w'.shared.handshakeState
  locked : w.shared.handshakeLock = some t → w'.shared.handshakeLock = some t ∧
    (w.shared.handshakeState < handshakeInitialized →
      handshakeInitialized ≤ w'.shared.handshakeState → ExplicitlyInitialized w'.trace) ∧
    (w.shared.handshakeState < handshakeReady →
      handshakeReady ≤ w'.shared.handshakeState → ExplicitlyReady w'.trace)

theorem Advances.refl (t : Tid) (w : ClientWorld) : Advances t w w :=
  ⟨.refl t w, fun _ => Nat.le_refl _, fun h => ⟨h, fun h₁ h₂ => by omega, fun h₁ h₂ => by omega⟩⟩

theorem Advances.trans (t : Tid) {w w' w'' : ClientWorld} (h : Advances t w w')
    (h' : Advances t w' w'') : Advances t w w'' where
  elsewhere := h.elsewhere.trans t h'.elsewhere
  monotone hs := by
    have h₁ := h.monotone hs
    exact Nat.le_trans h₁ (h'.monotone (Nat.le_trans hs h₁))
  locked hl := by
    obtain ⟨hl₁, hi, hr⟩ := h.locked hl
    obtain ⟨hl₂, hi', hr'⟩ := h'.locked hl₁
    refine ⟨hl₂, fun hlt hge => ?_, fun hlt hge => ?_⟩
    · by_cases hmid : handshakeInitialized ≤ w'.shared.handshakeState
      · exact (hi hlt hmid).suffix h'.elsewhere.suffix
      · exact hi' (by omega) hge
    · by_cases hmid : handshakeReady ≤ w'.shared.handshakeState
      · exact (hr hlt hmid).suffix h'.elsewhere.suffix
      · exact hr' (by omega) hge

/-- The state is one of the four, and at least what explicit calls have made it. -/
structure Ordered (w : ClientWorld) : Prop where
  le_ready : w.shared.handshakeState ≤ handshakeReady
  initialized : ExplicitlyInitialized w.trace → handshakeInitialized ≤ w.shared.handshakeState
  ready : ExplicitlyReady w.trace → handshakeReady ≤ w.shared.handshakeState

def handshakeOrder : Contract Tid Call Op Inner Op.Ans where
  inv := Ordered
  rely := Advances
  law := orderly
  rely_refl := Advances.refl
  rely_trans t := Advances.trans t

/-- What the holder of the lock knows of the state: whatever it is beyond what the holder left, it
owes to an explicit call. -/
structure Holds (t : Tid) (w : ClientWorld) : Prop where
  lock : w.shared.handshakeLock = some t
  initialized : handshakeInitialized ≤ w.shared.handshakeState → ExplicitlyInitialized w.trace
  ready : handshakeReady ≤ w.shared.handshakeState → ExplicitlyReady w.trace

/-- A store needs the lock, and may lower the state only where `orderly` would not let it; a
`fetch_max` beyond `INITIALIZED` needs the state to be there already. -/
def OrderPermitted (t : Tid) (w : ClientWorld) : Op → Prop
  | .handshakeStore v => w.shared.handshakeLock = some t ∧ v ≤ handshakeReady ∧
      (v < handshakeInitialized → handshakeInitialized ≤ w.shared.handshakeState →
        ExplicitlyInitialized w.trace) ∧
      (v = handshakeInitialized → handshakeReady ≤ w.shared.handshakeState →
        ExplicitlyReady w.trace)
  | .handshakeFetchMax v => v = handshakeInitialized ∨
      v = handshakeReady ∧ handshakeInitialized ≤ w.shared.handshakeState
  | .handshakeUnlock => w.shared.handshakeLock = some t
  | _ => True

/-- A step that does not lower the state beyond `INITIALIZED` and respects other holders. -/
theorem advances_push {t : Tid} {w : ClientWorld} {e : ClientEvent} {s : Inner} (he : e.tid = t)
    (hmono : handshakeInitialized ≤ w.shared.handshakeState →
      w.shared.handshakeState ≤ s.handshakeState)
    (hlock : ∀ u, u ≠ t → w.shared.handshakeLock = some u → s.handshakeLock = some u ∧
      (w.shared.handshakeState < handshakeInitialized →
        handshakeInitialized ≤ s.handshakeState → ExplicitlyInitialized (e :: w.trace)) ∧
      (w.shared.handshakeState < handshakeReady →
        handshakeReady ≤ s.handshakeState → ExplicitlyReady (e :: w.trace))) :
    ∀ u, u ≠ t → Advances u w (w.push e s) :=
  fun u hu => ⟨Elsewhere.push hu w he s, hmono, hlock u hu⟩

/-- A step that leaves the state alone. -/
theorem advances_same {t : Tid} {w : ClientWorld} {e : ClientEvent} {s : Inner} (he : e.tid = t)
    (hs : s.handshakeState = w.shared.handshakeState)
    (hl : ∀ u, u ≠ t → w.shared.handshakeLock = some u → s.handshakeLock = some u) :
    ∀ u, u ≠ t → Advances u w (w.push e s) := by
  refine advances_push he (fun _ => hs ▸ Nat.le_refl _) fun u hu hlock => ⟨hl u hu hlock, ?_, ?_⟩
  · intro h₁ h₂; omega
  · intro h₁ h₂; omega

theorem ExplicitlyInitialized.of_cons {e : ClientEvent} {tr : List ClientEvent}
    (he : ∀ t v, e ≠ .op t (.handshakeFetchMax v) ()) (h : ExplicitlyInitialized (e :: tr)) :
    ExplicitlyInitialized tr := by
  obtain ⟨t, hm⟩ := h
  exact ⟨t, (List.mem_cons.1 hm).resolve_left fun heq => he t _ heq.symm⟩

theorem ExplicitlyReady.of_cons {e : ClientEvent} {tr : List ClientEvent}
    (he : ∀ t v, e ≠ .op t (.handshakeFetchMax v) ()) (h : ExplicitlyReady (e :: tr)) :
    ExplicitlyReady tr := by
  obtain ⟨t, hm⟩ := h
  exact ⟨t, (List.mem_cons.1 hm).resolve_left fun heq => he t _ heq.symm⟩

/-- A step that is no `fetch_max` and leaves the state alone. -/
theorem Ordered.push {w : ClientWorld} {e : ClientEvent} {s : Inner} (h : Ordered w)
    (he : ∀ t v, e ≠ .op t (.handshakeFetchMax v) ())
    (hs : s.handshakeState = w.shared.handshakeState) : Ordered (w.push e s) where
  le_ready := Nat.le_trans (Nat.le_of_eq hs) h.le_ready
  initialized hi := Nat.le_trans (h.initialized (hi.of_cons he)) (Nat.le_of_eq hs.symm)
  ready hr := Nat.le_trans (h.ready (hr.of_cons he)) (Nat.le_of_eq hs.symm)

/-- An orderly store leaves the state at least what explicit calls have made it. -/
theorem Ordered.store {t : Tid} {w : ClientWorld} {v : Nat} (h : Ordered w)
    (hp : OrderPermitted t w (.handshakeStore v)) (hl : orderly w (.op t (.handshakeStore v) ())) :
    Ordered (w.push (.op t (.handshakeStore v) ()) { w.shared with handshakeState := v }) := by
  obtain ⟨-, hv, hlow, -⟩ := hp
  obtain ⟨hlow', hmid'⟩ := hl
  have hne : ∀ u x,
      (.op t (.handshakeStore v) () : ClientEvent) ≠ .op u (.handshakeFetchMax x) () := by simp
  refine ⟨hv, fun hi => Nat.le_of_not_lt fun hlt => hlow' hlt (hi.of_cons hne), fun hr => ?_⟩
  have hready := hr.of_cons hne
  have hge : handshakeInitialized ≤ v := Nat.le_of_not_lt fun hlt =>
    hlow' hlt (hlow hlt (Nat.le_of_succ_le (h.ready hready)))
  rcases Nat.eq_or_lt_of_le hge with heq | hlt
  · exact absurd hready (hmid' heq.symm)
  · exact hlt

/-- A `fetch_max` only raises the state, and is what an explicit call leaves behind. -/
theorem Ordered.fetchMax {t : Tid} {w : ClientWorld} {v : Nat} (h : Ordered w)
    (hp : OrderPermitted t w (.handshakeFetchMax v)) :
    handshakeOrder.Admits t w (w.push (.op t (.handshakeFetchMax v) ())
      { w.shared with handshakeState := max w.shared.handshakeState v }) := by
  have hnext : handshakeReady = handshakeInitialized + 1 := rfl
  have hle := h.le_ready
  rcases hp with rfl | ⟨rfl, hge⟩
  · refine ⟨⟨show max _ _ ≤ _ by omega, fun _ => Nat.le_max_right _ _, fun hr => ?_⟩,
      advances_push rfl (fun _ => Nat.le_max_left _ _) fun u hu hu' => ?_⟩
    · obtain ⟨u, hm⟩ := hr
      have hm' := (List.mem_cons.1 hm).resolve_left fun heq => by cases heq
      exact Nat.le_trans (h.ready ⟨u, hm'⟩) (Nat.le_max_left _ _)
    · refine ⟨hu', fun _ _ => ⟨t, List.mem_cons_self⟩, fun hlt hmax => ?_⟩
      change _ ≤ max _ _ at hmax
      omega
  · refine ⟨⟨show max _ _ ≤ _ by omega, fun _ => Nat.le_trans hge (Nat.le_max_left _ _),
      fun _ => Nat.le_max_right _ _⟩, advances_push rfl (fun _ => Nat.le_max_left _ _) ?_⟩
    exact fun u hu hu' => ⟨hu', fun hlt => absurd hge (by omega),
      fun _ _ => ⟨t, List.mem_cons_self⟩⟩

theorem order_keeps : Keeps handshakeOrder OrderPermitted := by
  intro t w o ch a s hinv hp hx hl
  have hinv : Ordered w := hinv
  have hnext : handshakeReady = handshakeInitialized + 1 := rfl
  -- all but four operations leave the state and the lock alone
  have hquiet : o.Quiet → handshakeOrder.Admits t w (w.push (.op t o a) s) := by
    intro ho
    obtain ⟨hs, hlk⟩ := ho.exec hx
    refine ⟨hinv.push ?_ hs, advances_same rfl hs fun u _ hu => hlk ▸ hu⟩
    rintro u v ⟨⟩
    exact ho
  cases o with
  | handshakeStore v =>
    cases hx
    refine ⟨hinv.store hp hl, advances_push rfl (fun hge => ?_) fun u hu hu' => ?_⟩
    · -- lowering the state would take a success of an explicit call, which the law excludes
      obtain ⟨-, hv, hlow, hmid⟩ := hp
      obtain ⟨hlow', hmid'⟩ := hl
      change w.shared.handshakeState ≤ v
      by_contra hlt
      by_cases hv' : v < handshakeInitialized
      · exact hlow' hv' (hlow hv' hge)
      · have hle := hinv.le_ready
        exact hmid' (by omega) (hmid (by omega) (by omega))
    · exact absurd (hp.1.symm.trans hu') (by simpa using hu.symm)
  | handshakeFetchMax v => cases hx; exact hinv.fetchMax hp
  | handshakeLock =>
    obtain ⟨hnone, rfl⟩ := exec_lock hx
    refine ⟨hinv.push (by simp) rfl, advances_same rfl rfl fun u _ hu => ?_⟩
    rw [hnone] at hu
    cases hu
  | handshakeUnlock =>
    cases hx
    refine ⟨hinv.push (by simp) rfl, advances_same rfl rfl fun u hu hu' => ?_⟩
    have hlock : w.shared.handshakeLock = some t := hp
    exact absurd (hlock.symm.trans hu') (by simpa using hu.symm)
  | _ => exact hquiet trivial

/-! ## The calls -/

section

variable {env : Env} {t : Tid} {α : Type} {w w' : ClientWorld} {Q : α → ClientWorld → Prop}

/-- What the holder knows stays true, whatever the others do. -/
theorem Holds.stable (h : Holds t w) (hr : Advances t w w') : Holds t w' := by
  obtain ⟨hlock, hi, hrd⟩ := hr.locked h.lock
  refine ⟨hlock, fun hge => ?_, fun hge => ?_⟩
  · by_cases hlt : w.shared.handshakeState < handshakeInitialized
    · exact hi hlt hge
    · exact (h.initialized (by omega)).suffix hr.elsewhere.suffix
  · by_cases hlt : w.shared.handshakeState < handshakeReady
    · exact hrd hlt hge
    · exact (h.ready (by omega)).suffix hr.elsewhere.suffix

theorem holds_stable : handshakeOrder.Stable t (Holds t) :=
  fun _ _ hr h => Holds.stable h hr

theorem Op.Quiet.orderPermitted {o : Op} (ho : o.Quiet) : OrderPermitted t w o := by
  cases o <;> trivial

/-- A quiet program of the holder. -/
theorem order_quiet_holder {p : ClientM α} (hp : p.Only Op.Quiet) (hw : Holds t w) :
    Safe (client env) handshakeOrder t (fun _ w => Holds t w) p w := by
  refine Safe.of_only holds_stable hp ?_ hw
  intro o w ch a s ho hinv hJ hx hl
  obtain ⟨hs, hlk⟩ := ho.exec hx
  refine ⟨order_keeps t w o ch a s hinv ho.orderPermitted hx hl, hlk.trans hJ.lock,
    fun hge => ?_, fun hge => ?_⟩
  · exact (hJ.initialized (hs ▸ hge)).suffix (List.suffix_cons _ _)
  · exact (hJ.ready (hs ▸ hge)).suffix (List.suffix_cons _ _)

theorem order_quiet_locked {p : ClientM α} (hp : p.Only Op.Quiet)
    (hw : w.shared.handshakeLock = some t) :
    Safe (client env) handshakeOrder t (fun _ w => w.shared.handshakeLock = some t) p w := by
  have hJ : handshakeOrder.Stable t fun w => w.shared.handshakeLock = some t :=
    fun w w' (hr : Advances t w w') h => (hr.locked h).1
  refine Safe.of_only hJ hp ?_ hw
  intro o w ch a s ho hinv hJ hx hl
  exact ⟨order_keeps t w o ch a s hinv ho.orderPermitted hx hl, (ho.exec hx).2.trans hJ⟩

/-- A quiet program of anybody. -/
theorem order_quiet {p : ClientM α} (hp : p.Only Op.Quiet) :
    Safe (client env) handshakeOrder t (fun _ _ => True) p w := by
  have hJ : handshakeOrder.Stable t fun _ => True := fun _ _ _ _ => trivial
  refine Safe.of_only hJ hp ?_ trivial
  intro o w ch a s ho hinv _ hx hl
  exact ⟨order_keeps t w o ch a s hinv ho.orderPermitted hx hl, trivial⟩

/-- A quiet program of somebody who has seen `INITIALIZED`. -/
theorem order_quiet_initialized {p : ClientM α} (hp : p.Only Op.Quiet)
    (hw : handshakeInitialized ≤ w.shared.handshakeState) :
    Safe (client env) handshakeOrder t
      (fun _ w => handshakeInitialized ≤ w.shared.handshakeState) p w := by
  have hJ : handshakeOrder.Stable t fun w => handshakeInitialized ≤ w.shared.handshakeState :=
    fun w w' (hr : Advances t w w') h => Nat.le_trans h (hr.monotone h)
  refine Safe.of_only hJ hp ?_ hw
  intro o w ch a s ho hinv hJ hx hl
  refine ⟨order_keeps t w o ch a s hinv ho.orderPermitted hx hl, ?_⟩
  change handshakeInitialized ≤ s.handshakeState
  rw [(ho.exec hx).1]
  exact hJ

theorem order_explicitInitialize {params : Value} :
    Safe (client env) handshakeOrder t (fun _ _ => True) (explicitInitialize env params) w := by
  refine safe_andThen ((order_quiet (requestTypedInternal_quiet _ _ _ _ _)).mono ?_)
  rintro (e | raw) w₁ _
  · trivial
  · exact safe_op order_keeps fun w₂ _ _ => ⟨.inl rfl, fun _ _ _ _ _ _ => trivial⟩

theorem order_explicitInitialized :
    Safe (client env) handshakeOrder t (fun _ _ => True) explicitInitialized w := by
  refine safe_op order_keeps fun w₁ _ _ => ⟨trivial, fun ch state s hx _ _ => ?_⟩
  cases hx
  split
  · trivial
  · rename_i hstate
    refine safe_andThen (Safe.mono
      (Q := fun _ w => handshakeInitialized ≤ w.shared.handshakeState) ?_ ?_)
    · exact order_quiet_initialized (sendNotification_quiet _ _ _) (Nat.le_of_not_lt hstate)
    · rintro (e | _) w₂ hge
      · trivial
      · exact safe_op order_keeps fun w₃ (hr : Advances t w₂ w₃) _ =>
          ⟨.inr ⟨rfl, Nat.le_trans hge (hr.monotone hge)⟩, fun _ _ _ _ _ _ => trivial⟩

/-- The first half of the handshake, by the holder of the lock. -/
theorem order_ensureInitialized {params : Value} (hw : w.shared.handshakeLock = some t) :
    Safe (client env) handshakeOrder t (fun _ w => w.shared.handshakeLock = some t)
      (ensureInitialized env params) w := by
  refine safe_op order_keeps fun w₁ (hr : Advances t w w₁) _ =>
    ⟨trivial, fun ch state s hx _ _ => ?_⟩
  cases hx
  have hlock : w₁.shared.handshakeLock = some t := (hr.locked hw).1
  split
  · rename_i hstate
    have hholds : Holds t (w₁.push (.op t .handshakeLoad w₁.shared.handshakeState) w₁.shared) :=
      ⟨hlock, fun hge => absurd hge (Nat.not_le_of_lt hstate),
        fun hge => absurd (Nat.le_trans (by decide) hge) (Nat.not_le_of_lt hstate)⟩
    refine safe_op order_keeps fun w₂ hr₂ _ => ?_
    have hh := Holds.stable hholds hr₂
    refine ⟨⟨hh.lock, by decide, fun _ => hh.initialized, fun h => absurd h (by decide)⟩, ?_⟩
    intro ch _ s hx hl _
    cases hx
    have hholds₂ : Holds t (w₂.push (.op t (.handshakeStore handshakeInitializing) ())
        { w₂.shared with handshakeState := handshakeInitializing }) :=
      ⟨hh.lock, fun hge => absurd hge (Nat.not_succ_le_self 1),
        fun hge => absurd hge (Nat.not_succ_le_self 1 ∘ Nat.le_of_succ_le)⟩
    refine Safe.bind
      ((order_quiet_holder (requestTypedInternal_quiet _ _ _ _ _) hholds₂).mono ?_)
    rintro (e | raw) w₃ hh₃
    · refine safe_op order_keeps fun w₄ hr₄ _ => ?_
      have hh₄ := Holds.stable hh₃ hr₄
      refine ⟨⟨hh₄.lock, by decide, fun _ => hh₄.initialized, fun h => absurd h (by decide)⟩, ?_⟩
      intro ch _ s hx _ _
      cases hx
      exact hh₄.lock
    · refine safe_op order_keeps fun w₄ hr₄ _ => ?_
      have hh₄ := Holds.stable hh₃ hr₄
      refine ⟨⟨hh₄.lock, by decide, fun h => absurd h (by decide), fun _ => hh₄.ready⟩, ?_⟩
      intro ch _ s hx _ _
      cases hx
      exact hh₄.lock
  · exact hlock

/-- The second half. -/
theorem order_announceReady (hw : w.shared.handshakeLock = some t) :
    Safe (client env) handshakeOrder t (fun _ w => w.shared.handshakeLock = some t)
      announceReady w := by
  refine safe_andThen (Safe.mono (Q := fun _ w => w.shared.handshakeLock = some t) ?_ ?_)
  · exact order_quiet_locked (sendNotification_quiet _ _ _) hw
  · rintro (e | _) w₁ hlock
    · exact hlock
    · refine safe_op order_keeps fun w₂ (hr : Advances t w₁ w₂) _ => ?_
      have hlock₂ := (hr.locked hlock).1
      refine ⟨⟨hlock₂, by decide, fun h => absurd h (by decide), fun h => absurd h (by decide)⟩, ?_⟩
      intro ch _ s hx _ _
      cases hx
      exact hlock₂

theorem order_handshake {params : Value} (hw : w.shared.handshakeLock = some t) :
    Safe (client env) handshakeOrder t (fun _ w => w.shared.handshakeLock = some t)
      (handshake env params) w := by
  refine safe_op order_keeps fun w₁ (hr : Advances t w w₁) _ =>
    ⟨trivial, fun ch state s hx _ _ => ?_⟩
  cases hx
  have hlock : w₁.shared.handshakeLock = some t := (hr.locked hw).1
  split
  · exact hlock
  · refine safe_andThen (Safe.mono (Q := fun _ w => w.shared.handshakeLock = some t) ?_ ?_)
    · exact order_ensureInitialized hlock
    · rintro (e | _) w₂ hlock₂
      · exact hlock₂
      · exact order_announceReady hlock₂

theorem order_ensureReadyWith {params : Value} :
    Safe (client env) handshakeOrder t (fun _ _ => True) (ensureReadyWith env params) w := by
  refine safe_op order_keeps fun w₁ _ _ => ⟨trivial, fun ch state s hx _ _ => ?_⟩
  split
  · trivial
  · refine safe_op order_keeps fun w₂ _ _ => ⟨trivial, fun ch _ s hx _ _ => ?_⟩
    rw [exec] at hx
    split at hx
    · cases hx
      refine Safe.bind (Safe.mono (Q := fun _ w => w.shared.handshakeLock = some t) ?_ ?_)
      · exact order_handshake rfl
      · exact fun r w₃ hlock => safe_op order_keeps fun w₄ (hr : Advances t w₃ w₄) _ =>
          ⟨(hr.locked hlock).1, fun _ _ _ _ _ _ => trivial⟩
    · cases hx

/-- **Every call** respects the order. -/
theorem order_call (call : Call) (w : ClientWorld) :
    Safe (client env) handshakeOrder t (fun _ _ => True) (call.body env) w := by
  have hunit : ∀ {x : ClientM (Except ClientError Unit)}, x.Only Op.Quiet →
      Safe (client env) handshakeOrder t (fun _ _ => True) (unitOutcome x) w :=
    fun hx => order_quiet (andThen_only hx fun _ => trivial)
  cases call with
  | explicitInitialize params => exact order_explicitInitialize
  | explicitInitialized => exact order_explicitInitialized
  | ensureReady params => exact order_ensureReadyWith
  | typed method params decode => exact order_quiet (requestTypedInternal_quiet _ _ _ _ _)
  | sendRawRequest method params timeout => exact order_quiet (requestValueInternal_quiet _ _ _ _)
  | sendRawNotification method params => exact hunit (sendNotification_quiet _ _ _)
  | respondServerRequest id result => exact hunit (sendMessage_quiet _)
  | respondServerRequestError id error => exact hunit (sendMessage_quiet _)
  | setHandler kind handler =>
    exact safe_op order_keeps fun _ _ _ => ⟨trivial, fun _ _ _ _ _ _ => trivial⟩
  | clearHandler kind =>
    exact safe_op order_keeps fun _ _ _ => ⟨trivial, fun _ _ _ _ _ _ => trivial⟩

end

/-! ## All runs -/

section

variable {env : Env} {c c' : ClientConfig}

theorem order_loopRound {t : Tid} (w : ClientWorld) :
    Safe (client env) handshakeOrder t (fun _ _ => True) (loopRound env) w :=
  safe_anyRound order_keeps (fun _ _ ho => by cases ho <;> trivial)
    (fun _ _ hr => Elsewhere.suffix (Advances.elsewhere hr))
    (fun _ _ _ _ _ => safe_handler order_call) w

theorem order_outline (env : Env) : Outline (client env) handshakeOrder fun _ _ _ => True where
  stable _ _ _ _ _ _ := trivial
  spawn t call w hinv _ _ :=
    ⟨⟨Ordered.push hinv (by simp) rfl, advances_same rfl rfl fun _ _ hu => hu⟩,
      safe_body (fun _ _ _ => trivial) (order_call call _)⟩
  restart _ _ _ w hres _ := safe_restart hres (order_loopRound w)
  cancel t w hinv _ := by
    have hs : (cancel t w.shared).handshakeState = w.shared.handshakeState :=
      cancel_handshakeState t w.shared
    refine ⟨Ordered.push hinv (by simp) hs, advances_same rfl hs fun u hu hlock => ?_⟩
    change (cancel t w.shared).handshakeLock = some u
    rw [cancel, if_neg (by rw [hlock]; simpa using hu), hlock]

theorem order_start (env : Env) :
    Proved (client env) handshakeOrder (fun _ _ _ => True) (ClientConfig.start env) where
  inv := ⟨Nat.zero_le _, fun ⟨_, hm⟩ => absurd hm List.not_mem_nil,
    fun ⟨_, hm⟩ => absurd hm List.not_mem_nil⟩
  live t p ht := by
    cases t with
    | caller n => cases ht
    | inboundLoop =>
      cases ht
      exact order_loopRound _
  absent := by simp [ClientConfig.start]

/-- A task other than the given one. -/
def Tid.other : Tid → Tid
  | .inboundLoop => .caller 0
  | .caller _ => .inboundLoop

theorem Tid.other_ne (t : Tid) : t.other ≠ t := by cases t <;> simp [Tid.other]

/-- No orderly step lowers a state beyond `INITIALIZED`. -/
theorem order_step {e : ClientEvent}
    (hc : Proved (client env) handshakeOrder (fun _ _ _ => True) c)
    (hs : (client env).Step c e c') (hl : orderly c.world e) :
    handshakeInitialized ≤ c.world.shared.handshakeState →
      c.world.shared.handshakeState ≤ c'.world.shared.handshakeState :=
  (((order_outline env).admits hc hs hl).2 _ e.tid.other_ne).monotone

/-- **Any other store regresses**: the condition excludes no more than the lost updates. -/
theorem disorderly_regresses {e : ClientEvent}
    (hr : (client env).Run orderly (ClientConfig.start env) c) (hs : (client env).Step c e c')
    (hn : ¬ orderly c.world e) :
    handshakeInitialized ≤ c.world.shared.handshakeState ∧
      c'.world.shared.handshakeState < c.world.shared.handshakeState := by
  have hinv : Ordered c.world := ((order_outline env).run (order_start env) hr).inv
  cases hs with
  | spawn _ => exact absurd trivial hn
  | drop _ _ => exact absurd trivial hn
  | @op t o k ch a s ht hx =>
    cases o with
    | handshakeStore v =>
      have hs : s = { c.world.shared with handshakeState := v } := by cases hx; rfl
      subst hs
      change handshakeInitialized ≤ _ ∧ v < _
      simp only [orderly, Classical.not_and_iff_not_or_not, Classical.not_imp, not_not] at hn
      rcases hn with ⟨hv, hi⟩ | ⟨rfl, hrd⟩
      · have hge := hinv.initialized hi
        exact ⟨hge, Nat.lt_of_lt_of_le hv hge⟩
      · have hge := hinv.ready hrd
        exact ⟨Nat.le_of_succ_le hge, hge⟩
    | _ => exact absurd trivial hn

/-- A load answers the state. -/
theorem load_answer {t : Tid} {v : Nat}
    (hs : (client env).Step c (.op t .handshakeLoad v) c') : v = c.world.shared.handshakeState := by
  cases hs with
  | op ht hx => cases hx; rfl

/-- **The handshake state advances** in every orderly run: a state that is `INITIALIZED` or more is
never lowered, `READY` is for good, and whoever loads the state after that sees `READY`. -/
theorem handshake_monotone (hr : (client env).Run orderly (ClientConfig.start env) c)
    (hr' : (client env).Run orderly c c') :
    (handshakeInitialized ≤ c.world.shared.handshakeState →
      c.world.shared.handshakeState ≤ c'.world.shared.handshakeState) ∧
    (c.world.shared.handshakeState = handshakeReady →
      c'.world.shared.handshakeState = handshakeReady ∧
      ∀ later, c'.world.trace = later ++ c.world.trace →
        ∀ t v, .op t .handshakeLoad v ∈ later → v = handshakeReady) := by
  induction hr' with
  | init =>
    refine ⟨fun _ => Nat.le_refl _, fun h => ⟨h, fun later hlater t v hm => ?_⟩⟩
    rw [List.self_eq_append_left.1 hlater] at hm
    exact absurd hm List.not_mem_nil
  | @step c₁ c₂ e hr₁ hs hl ih =>
    obtain ⟨hmono, hready⟩ := ih
    have hproved := (order_outline env).run (order_start env) (hr.trans hr₁)
    have hle := ((order_outline env).step hproved hs hl).inv.le_ready
    have hmono' : handshakeInitialized ≤ c.world.shared.handshakeState →
        c.world.shared.handshakeState ≤ c₂.world.shared.handshakeState := fun h =>
      Nat.le_trans (hmono h) (order_step hproved hs hl (Nat.le_trans h (hmono h)))
    refine ⟨hmono', fun h => ⟨?_, fun later hlater t v hm => ?_⟩⟩
    · exact Nat.le_antisymm hle (h ▸ hmono' (h ▸ Nat.le_succ _))
    · obtain ⟨earlier, hearlier⟩ := hr₁.trace_suffix
      obtain rfl : later = e :: earlier := by
        rw [hs.trace_eq, ← hearlier, ← List.cons_append] at hlater
        exact (List.append_cancel_right hlater).symm
      obtain ⟨hst, hloads⟩ := hready h
      rcases List.mem_cons.1 hm with rfl | hm
      · exact (load_answer hs).trans hst
      · exact hloads earlier hearlier.symm t v hm

end

/-- A `fetch_max` to this value. -/
def isFetchMax (v : Nat) : ClientEvent → Bool
  | .op _ (.handshakeFetchMax v') _ => v' = v
  | _ => false

/-- What `orderly` asks of a history. -/
def orderlyTrace : List ClientEvent → Bool
  | [] => true
  | .op _ (.handshakeStore v) _ :: tr =>
    (handshakeInitialized ≤ v || !tr.any (isFetchMax handshakeInitialized)) &&
      (v ≠ handshakeInitialized || !tr.any (isFetchMax handshakeReady)) && orderlyTrace tr
  | _ :: tr => orderlyTrace tr

theorem any_isFetchMax {t : Tid} {v : Nat} {a : (Op.handshakeFetchMax v).Ans}
    {tr : List ClientEvent} (h : .op t (.handshakeFetchMax v) a ∈ tr) :
    tr.any (isFetchMax v) = true :=
  List.any_eq_true.2 ⟨_, h, decide_eq_true rfl⟩

/-- A history tells whether its run was orderly. -/
theorem run_orderly {env : Env} {c₀ c : ClientConfig}
    (hr : (client env).Run Machine.anyStep c₀ c) (h : orderlyTrace c.world.trace = true) :
    (client env).Run orderly c₀ c := by
  induction hr with
  | init => exact .init
  | @step c c' e hr hs _ ih =>
    rw [hs.trace_eq] at h
    cases e with
    | op t o a =>
      cases o with
      | handshakeStore v =>
        simp only [orderlyTrace, Bool.and_eq_true, Bool.or_eq_true, decide_eq_true_eq,
          Bool.not_eq_true'] at h
        obtain ⟨⟨hinitialized, hready⟩, htrace⟩ := h
        refine (ih htrace).step hs ⟨?_, ?_⟩
        · rintro hv ⟨t', hmem⟩
          have hnone := hinitialized.resolve_left (Nat.not_le.2 hv)
          rw [any_isFetchMax hmem] at hnone
          cases hnone
        · rintro hv ⟨t', hmem⟩
          have hnone := hready.resolve_left (not_not.2 hv)
          rw [any_isFetchMax hmem] at hnone
          cases hnone
      | _ => exact (ih h).step hs trivial
    | _ => exact (ih h).step hs trivial

/-- An explicit `initialize` is answered before that of an `ensure_ready`, which then goes on to
`READY`. -/
def readySchedule : List (Machine.Label Tid Call Choice) :=
  [.spawn (.caller 0) (.ensureReady .null)]
    ++ List.replicate 10 (.run (.caller 0) .proceed)
    ++ [.spawn (.caller 1) (.explicitInitialize .null)]
    ++ List.replicate 5 (.run (.caller 1) .proceed)
    ++ [.run .inboundLoop (.deliver (some (.ok (resultFrame (.integer 2) (.object []))))),
      .run .inboundLoop .proceed]
    ++ List.replicate 2 (.run (.caller 1) .proceed)
    ++ [.run .inboundLoop (.deliver (some (.ok (resultFrame (.integer 1) (.object []))))),
      .run .inboundLoop .proceed]
    ++ List.replicate 5 (.run (.caller 0) .proceed)

/-- An explicit `initialized`, and another `ensure_ready`, which finds nothing left to do. -/
def readyTail : List (Machine.Label Tid Call Choice) :=
  [.spawn (.caller 2) .explicitInitialized]
    ++ List.replicate 3 (.run (.caller 2) .proceed)
    ++ [.spawn (.caller 3) (.ensureReady .null), .run (.caller 3) .proceed]

theorem handshake_monotone_ready : ∃ c c' : ClientConfig,
    (client defaultEnv).runLabels (ClientConfig.start defaultEnv) readySchedule = some c ∧
    (client defaultEnv).runLabels c readyTail = some c' ∧
    c.world.shared.handshakeState = handshakeReady ∧ ExplicitlyInitialized c.world.trace ∧
    ExplicitlyReady c'.world.trace ∧ c'.world.shared.handshakeState = handshakeReady := by
  obtain ⟨c, c', hc, hc', hstate, horderly, horderly', hinitialized, hready⟩ :
      ∃ c c' : ClientConfig,
        (client defaultEnv).runLabels (ClientConfig.start defaultEnv) readySchedule = some c ∧
        (client defaultEnv).runLabels c readyTail = some c' ∧
        c.world.shared.handshakeState = handshakeReady ∧ orderlyTrace c.world.trace = true ∧
        orderlyTrace c'.world.trace = true ∧
        c.world.trace[7]? = some (.op (.caller 1) (.handshakeFetchMax handshakeInitialized) ()) ∧
        c'.world.trace[2]? = some (.op (.caller 2) (.handshakeFetchMax handshakeReady) ()) :=
    ⟨_, _, rfl, rfl, rfl, rfl, rfl, rfl, rfl⟩
  have hrun := run_orderly (Machine.runLabels_run hc) horderly
  have hrun' := run_orderly (Machine.runLabels_run hc') horderly'
  exact ⟨c, c', hc, hc', hstate, ⟨_, List.mem_of_getElem? hinitialized⟩,
    ⟨_, List.mem_of_getElem? hready⟩, ((handshake_monotone hrun hrun').2 hstate).1⟩

/-! ## The lost update -/

/-- `ensure_ready` has sent its `initialize`; an explicit one is answered with success, and an
explicit `initialized` makes the client `READY`. -/
def mixedSchedule : List (Machine.Label Tid Call Choice) :=
  [.spawn (.caller 0) (.ensureReady .null)]
    ++ List.replicate 10 (.run (.caller 0) .proceed)
    ++ [.spawn (.caller 1) (.explicitInitialize .null)]
    ++ List.replicate 5 (.run (.caller 1) .proceed)
    ++ [.run .inboundLoop (.deliver (some (.ok (resultFrame (.integer 2) (.object []))))),
      .run .inboundLoop .proceed]
    ++ List.replicate 2 (.run (.caller 1) .proceed)
    ++ [.spawn (.caller 2) .explicitInitialized]
    ++ List.replicate 3 (.run (.caller 2) .proceed)

/-- The server refuses the other `initialize`. -/
def refusal : Value :=
  errorFrame (.integer 1) (RpcError.toJson ⟨-32600, "Already initialized", none⟩)

/-- `ensure_ready` resets the state, and a request is refused. -/
def mixedTail : List (Machine.Label Tid Call Choice) :=
  [.run .inboundLoop (.deliver (some (.ok refusal))), .run .inboundLoop .proceed]
    ++ List.replicate 2 (.run (.caller 0) .proceed)
    ++ [.spawn (.caller 3) (.sendRawRequest "thread/list" .null none),
      .run (.caller 3) .proceed]

/-- **Losing `READY`.**  A refused `initialize` of `ensure_ready` takes a client that is `READY`
back to `NEW`, and its requests are refused from then on. -/
theorem handshake_regresses : ∃ c c' : ClientConfig,
    (client defaultEnv).Run Machine.anyStep (ClientConfig.start defaultEnv) c ∧
    (client defaultEnv).Run Machine.anyStep c c' ∧
    c.world.shared.handshakeState = handshakeReady ∧
    c'.world.shared.handshakeState = handshakeNew ∧
    c'.tasks (.caller 3) = .live (.ret (.outcome (.error (.notReady "thread/list")))) := by
  obtain ⟨c, c', hc, hc', h⟩ : ∃ c c' : ClientConfig,
      (client defaultEnv).runLabels (ClientConfig.start defaultEnv) mixedSchedule = some c ∧
      (client defaultEnv).runLabels c mixedTail = some c' ∧
      c.world.shared.handshakeState = handshakeReady ∧
      c'.world.shared.handshakeState = handshakeNew ∧
      c'.tasks (.caller 3) = .live (.ret (.outcome (.error (.notReady "thread/list")))) :=
    ⟨_, _, rfl, rfl, rfl, rfl, rfl⟩
  exact ⟨c, c', Machine.runLabels_run hc, Machine.runLabels_run hc', h⟩

end CodexSdk

import CodexSdk.Client.Gate
import CodexSdk.Interleave.Protocol

/-!
# The handshake as a protocol

What the handshake is meant to look like from outside, on the outbound queue and at the places
where callers wait: an `initialize` request is sent while none is outstanding and none has
succeeded; when its answer is a success, one `initialized` notification follows, and nothing after
that.  `Phase.next` is this protocol as an automaton over the events of a run, and knows nothing of
locks, atomics or how the client comes to do what it does.

The second half says what it means for a history to be accepted, in terms of the events alone:
`sent_after_failure`, `announced_after_success` and `outstanding_unique`.
-/

set_option autoImplicit false

namespace CodexSdk

open Json Interleave

/-- How far the handshake has come. -/
inductive Phase
  /-- No `initialize` is outstanding, and none has succeeded. -/
  | idle
  /-- The one that `t` sent is outstanding. -/
  | outstanding (t : Tid)
  | initialized
  /-- The `initialized` notification has been queued. -/
  | announced
  deriving DecidableEq

/-! ## Events -/

def isInitializeRequest (frame : Value) : Bool :=
  (frame.get "id").isSome && frameMethod frame == some methodInitialize

def isInitializedNotification (frame : Value) : Bool :=
  (frame.get "id").isNone && frameMethod frame == some methodInitialized

@[simp] theorem isInitializeRequest_request (id : RequestId) (method : String) (params : Value) :
    isInitializeRequest (requestFrame id method params) = (method == methodInitialize) := rfl

@[simp] theorem isInitializedNotification_request (id : RequestId) (method : String)
    (params : Value) : isInitializedNotification (requestFrame id method params) = false := rfl

@[simp] theorem isInitializeRequest_notification (method : String) (params : Value) :
    isInitializeRequest (notificationFrame method params) = false := rfl

@[simp] theorem isInitializedNotification_notification (method : String) (params : Value) :
    isInitializedNotification (notificationFrame method params) = (method == methodInitialized) :=
  rfl

/-- A frame of the handshake names a method. -/
theorem not_handshake_of_none {frame : Value} (h : frameMethod frame = none) :
    isInitializeRequest frame = false ∧ isInitializedNotification frame = false := by
  simp [isInitializeRequest, isInitializedNotification, h]

/-- The answer is a result of `initialize`. -/
def Waited.succeeds : Waited → Bool
  | .value (.ok raw) => (decodesInitialize raw).isOk
  | _ => false

/-- `t` has queued an `initialize` request. -/
def InitializeSent (t : Tid) (e : ClientEvent) : Prop :=
  ∃ frame, e = .op t (.outboundSend frame) true ∧ isInitializeRequest frame = true

/-- An `initialized` notification has been queued. -/
def InitializedSent (e : ClientEvent) : Prop :=
  ∃ t frame, e = .op t (.outboundSend frame) true ∧ isInitializedNotification frame = true

/-- How `t` stopped waiting, if it did. -/
def answerOf (t : Tid) : ClientEvent → Option Waited
  | .op u (.timeoutRecv _ _) answer => if u = t then some answer else none
  | _ => none

/-- How `t` stopped waiting for the first time in this part of the history. -/
def firstAnswer (t : Tid) : List ClientEvent → Option Waited
  | [] => none
  | e :: tr => (firstAnswer t tr).or (answerOf t e)

/-! ## The protocol -/

def Phase.next : Phase → ClientEvent → Option Phase
  | phase, .op t (.outboundSend frame) true =>
    if isInitializeRequest frame then
      if phase = .idle then some (.outstanding t) else none
    else if isInitializedNotification frame then
      if phase = .initialized then some .announced else none
    else some phase
  | .outstanding t, .op u (.timeoutRecv _ _) answer =>
    if u = t then some (if answer.succeeds then .initialized else .idle)
    else some (.outstanding t)
  | phase, _ => some phase

/-- The phase a history leads to. -/
abbrev phaseOf (tr : List ClientEvent) : Option Phase := accepts Phase.next .idle tr

theorem phaseOf_cons (e : ClientEvent) (tr : List ClientEvent) :
    phaseOf (e :: tr) = (phaseOf tr).bind fun phase => phase.next e := rfl

section

variable {phase phase' : Phase} {t u : Tid} {e : ClientEvent}
  {tr mid newer older : List ClientEvent}

theorem InitializeSent.next (h : InitializeSent t e) (hn : phase.next e = some phase') :
    phase = .idle ∧ phase' = .outstanding t := by
  obtain ⟨frame, rfl, hframe⟩ := h
  by_cases hidle : phase = .idle
  · simp only [Phase.next, hframe, hidle, if_true, Option.some.injEq] at hn
    exact ⟨hidle, hn.symm⟩
  · simp [Phase.next, hframe, hidle] at hn

theorem InitializedSent.not_initialize {frame : Value}
    (h : isInitializedNotification frame = true) : isInitializeRequest frame = false := by
  simp only [isInitializedNotification, Bool.and_eq_true, Option.isNone_iff_eq_none] at h
  simp [isInitializeRequest, h.1]

theorem InitializedSent.next (h : InitializedSent e) (hn : phase.next e = some phase') :
    phase = .initialized ∧ phase' = .announced := by
  obtain ⟨t, frame, rfl, hframe⟩ := h
  have hno := InitializedSent.not_initialize hframe
  by_cases hphase : phase = .initialized
  · simp only [Phase.next, hno, hframe, hphase, if_true, if_neg Bool.false_ne_true,
      Option.some.injEq] at hn
    exact ⟨hphase, hn.symm⟩
  · simp [Phase.next, hno, hframe, hphase] at hn

/-- **What one event can do**: send `initialize`, announce, answer the outstanding `initialize`, or
nothing. -/
theorem Phase.next_cases (h : phase.next e = some phase') :
    (∃ t, InitializeSent t e) ∨ InitializedSent e ∨
      (∃ t answer, phase = .outstanding t ∧ answerOf t e = some answer ∧
        phase' = if answer.succeeds then .initialized else .idle) ∨
      phase' = phase ∧ ∀ t, phase = .outstanding t → answerOf t e = none := by
  unfold Phase.next at h
  split at h
  · rename_i t frame
    split at h
    · rename_i hframe
      exact .inl ⟨t, frame, rfl, hframe⟩
    · split at h
      · rename_i hframe
        exact .inr (.inl ⟨t, frame, rfl, hframe⟩)
      · cases h
        exact .inr (.inr (.inr ⟨rfl, fun _ _ => rfl⟩))
  · rename_i t u rx timeout answer
    split at h
    · rename_i hut
      cases h
      exact .inr (.inr (.inl ⟨t, answer, rfl, by simp [answerOf, hut], rfl⟩))
    · rename_i hut
      cases h
      refine .inr (.inr (.inr ⟨rfl, ?_⟩))
      rintro t' ⟨⟩
      simp [answerOf, hut]
  · rename_i hwait
    cases h
    refine .inr (.inr (.inr ⟨rfl, ?_⟩))
    rintro t rfl
    unfold answerOf
    split
    · exact (hwait t _ _ _ _ rfl rfl).elim
    · rfl

/-! ## What an accepted history is like -/

/-- `INITIALIZED` or beyond: the handshake has nothing left but the notification. -/
def Phase.Done (phase : Phase) : Prop := phase = .initialized ∨ phase = .announced

theorem Phase.Done.next (h : phase.Done) (hn : phase.next e = some phase') : phase'.Done := by
  rcases Phase.next_cases hn with ⟨t, hs⟩ | hs | ⟨t, answer, rfl, -, -⟩ | ⟨rfl, -⟩
  · obtain ⟨rfl, -⟩ := hs.next hn
    rcases h with h | h <;> cases h
  · exact .inr (hs.next hn).2
  · rcases h with h | h <;> cases h
  · exact h

/-- After an `initialize` of `t`: it is outstanding as long as `t` waits, and once it has
succeeded there is no way back. -/
theorem after_sent (h : accepts Phase.next (.outstanding t) mid = some phase) :
    (firstAnswer t mid = none → phase = .outstanding t) ∧
    ∀ answer, firstAnswer t mid = some answer → answer.succeeds = true → phase.Done := by
  induction mid generalizing phase with
  | nil =>
    cases h
    exact ⟨fun _ => rfl, by rintro _ ⟨⟩⟩
  | cons e mid ih =>
    obtain ⟨phase₁, h₁, hn⟩ := Option.bind_eq_some_iff.1 h
    obtain ⟨hnone, hsome⟩ := ih h₁
    cases hfirst : firstAnswer t mid with
    | some answer =>
      simp only [firstAnswer, hfirst, Option.some_or]
      refine ⟨by rintro ⟨⟩, ?_⟩
      rintro _ ⟨⟩ hsucc
      exact (hsome answer hfirst hsucc).next hn
    | none =>
      obtain rfl := hnone hfirst
      simp only [firstAnswer, hfirst, Option.none_or]
      rcases Phase.next_cases hn with ⟨u, hs⟩ | hs | ⟨u, answer, heq, hans, rfl⟩ | ⟨rfl, hans⟩
      · cases (hs.next hn).1
      · cases (hs.next hn).1
      · cases heq
        rw [hans]
        refine ⟨by rintro ⟨⟩, ?_⟩
        rintro _ ⟨⟩ hsucc
        rw [if_pos hsucc]
        exact .inl rfl
      · rw [hans t rfl]
        exact ⟨fun _ => rfl, by rintro _ ⟨⟩⟩

/-- The last `initialize` before the end of the history, and what has become of it. -/
def LastAnswer (tr : List ClientEvent) (t : Tid) (answer : Option Waited) : Prop :=
  ∃ newer e older, tr = newer ++ e :: older ∧ InitializeSent t e ∧ firstAnswer t newer = answer

theorem LastAnswer.cons {answer : Option Waited} (h : LastAnswer tr t answer)
    (he : answer = none → answerOf t e = none) : LastAnswer (e :: tr) t answer := by
  obtain ⟨newer, e', older, rfl, hs, hfirst⟩ := h
  refine ⟨e :: newer, e', older, rfl, hs, ?_⟩
  cases answer with
  | none => rw [firstAnswer, hfirst, Option.none_or, he rfl]
  | some answer => rw [firstAnswer, hfirst, Option.some_or]

/-- An `initialize` has been answered with success. -/
def Succeeded (tr : List ClientEvent) : Prop :=
  ∃ t answer, LastAnswer tr t (some answer) ∧ answer.succeeds = true

theorem Succeeded.cons (h : Succeeded tr) (e : ClientEvent) : Succeeded (e :: tr) := by
  obtain ⟨t, answer, hlast, hsucc⟩ := h
  exact ⟨t, answer, hlast.cons (by rintro ⟨⟩), hsucc⟩

/-- Where a phase comes from. -/
theorem phase_origin (h : phaseOf tr = some phase) :
    (∀ t, phase = .outstanding t → LastAnswer tr t none) ∧ (phase.Done → Succeeded tr) := by
  induction tr generalizing phase with
  | nil =>
    cases h
    exact ⟨by rintro t ⟨⟩, by rintro (⟨⟨⟩⟩ | ⟨⟨⟩⟩)⟩
  | cons e tr ih =>
    obtain ⟨phase₁, h₁, hn⟩ := Option.bind_eq_some_iff.1 h
    obtain ⟨hout, hdone⟩ := ih h₁
    rcases Phase.next_cases hn with ⟨t, hs⟩ | hs | ⟨t, answer, rfl, hans, rfl⟩ | ⟨rfl, hans⟩
    · obtain ⟨-, rfl⟩ := hs.next hn
      refine ⟨?_, by rintro (⟨⟨⟩⟩ | ⟨⟨⟩⟩)⟩
      rintro _ ⟨⟩
      exact ⟨[], e, tr, rfl, hs, rfl⟩
    · obtain ⟨rfl, rfl⟩ := hs.next hn
      exact ⟨by rintro t ⟨⟩, fun _ => (hdone (.inl rfl)).cons e⟩
    · obtain ⟨newer, e', older, rfl, hs, hfirst⟩ := hout t rfl
      have hlast : LastAnswer (e :: (newer ++ e' :: older)) t (some answer) :=
        ⟨e :: newer, e', older, rfl, hs, by rw [firstAnswer, hfirst, Option.none_or, hans]⟩
      split
      · rename_i hsucc
        exact ⟨by rintro t ⟨⟩, fun _ => ⟨t, answer, hlast, hsucc⟩⟩
      · exact ⟨by rintro t ⟨⟩, by rintro (⟨⟨⟩⟩ | ⟨⟨⟩⟩)⟩
    · exact ⟨fun t ht => (hout t ht).cons fun _ => hans t ht, fun hd => (hdone hd).cons e⟩

/-- Once announced, announced for good. -/
theorem announced_of_sent (h : phaseOf tr = some phase) (hs : ∃ e ∈ tr, InitializedSent e) :
    phase = .announced := by
  induction tr generalizing phase with
  | nil => obtain ⟨e, he, -⟩ := hs; cases he
  | cons e tr ih =>
    obtain ⟨phase₁, h₁, hn⟩ := Option.bind_eq_some_iff.1 h
    obtain ⟨e', he', hs'⟩ := hs
    rcases List.mem_cons.1 he' with rfl | he'
    · exact (hs'.next hn).2
    · obtain rfl := ih h₁ ⟨e', he', hs'⟩
      rcases Phase.next_cases hn with ⟨t, hs⟩ | hs | ⟨t, answer, ht, -⟩ | ⟨rfl, -⟩
      · cases (hs.next hn).1
      · cases (hs.next hn).1
      · cases ht
      · rfl

/-- Announced is what an `initialized` notification makes it. -/
theorem sent_of_announced (h : phaseOf tr = some .announced) : ∃ e ∈ tr, InitializedSent e := by
  induction tr with
  | nil => cases h
  | cons e tr ih =>
    obtain ⟨phase₁, h₁, hn⟩ := Option.bind_eq_some_iff.1 h
    rcases Phase.next_cases hn with ⟨t, hs⟩ | hs | ⟨t, answer, -, -, heq⟩ | ⟨rfl, -⟩
    · cases (hs.next hn).2
    · exact ⟨e, List.mem_cons_self, hs⟩
    · split at heq <;> cases heq
    · exact (ih h₁).imp fun e' he' => ⟨List.mem_cons_of_mem _ he'.1, he'.2⟩

/-- **A new `initialize` is sent only after every earlier one has failed.** -/
theorem sent_after_failure (h : phaseOf (newer ++ e :: older) = some phase)
    (hs : InitializeSent t e) {e' : ClientEvent} {older' : List ClientEvent}
    (holder : older = mid ++ e' :: older') (hs' : InitializeSent u e') :
    ∃ answer, firstAnswer u mid = some answer ∧ answer.succeeds = false := by
  obtain ⟨phase₁, phase₂, h₁, hn, -⟩ := accepts_split h
  obtain ⟨rfl, -⟩ := hs.next hn
  subst holder
  obtain ⟨phase₃, phase₄, h₃, hn', hmid⟩ := accepts_split h₁
  obtain ⟨rfl, rfl⟩ := hs'.next hn'
  obtain ⟨hnone, hsome⟩ := after_sent hmid
  cases hfirst : firstAnswer u mid with
  | none => cases hnone hfirst
  | some answer =>
    refine ⟨answer, rfl, ?_⟩
    by_contra hsucc
    rcases hsome answer hfirst (by simpa using hsucc) with heq | heq <;> cases heq

/-- **The notification follows a success**, and no other notification. -/
theorem announced_after_success (h : phaseOf (newer ++ e :: older) = some phase)
    (hs : InitializedSent e) : Succeeded older ∧ ∀ e' ∈ older, ¬ InitializedSent e' := by
  obtain ⟨phase₁, phase₂, h₁, hn, -⟩ := accepts_split h
  obtain ⟨rfl, -⟩ := hs.next hn
  refine ⟨(phase_origin h₁).2 (.inl rfl), fun e' he' hs' => ?_⟩
  cases announced_of_sent h₁ ⟨e', he', hs'⟩

/-- **At most one `initialize` is outstanding.** -/
theorem outstanding_unique (h : phaseOf tr = some phase) {newer' older' : List ClientEvent}
    {e' : ClientEvent} (htr : tr = newer ++ e :: older) (hs : InitializeSent t e)
    (hout : firstAnswer t newer = none) (htr' : tr = newer' ++ e' :: older')
    (hs' : InitializeSent u e') (hout' : firstAnswer u newer' = none) : newer = newer' := by
  -- if one was sent before the other, the earlier one is not outstanding
  have hearlier : ∀ {t u : Tid} {n₁ n₂ o₂ l : List ClientEvent} {e₁ e₂ : ClientEvent},
      phaseOf (n₁ ++ e₁ :: (l ++ e₂ :: o₂)) = some phase → n₂ = n₁ ++ e₁ :: l →
      InitializeSent t e₁ → InitializeSent u e₂ → firstAnswer u n₂ ≠ none := by
    rintro t u n₁ n₂ o₂ l e₁ e₂ h rfl hs₁ hs₂ hnone
    obtain ⟨answer, hans, -⟩ := sent_after_failure h hs₁ rfl hs₂
    have hlater : ∀ n, firstAnswer u (n ++ e₁ :: l) ≠ none := by
      intro n
      induction n with
      | nil => simp [firstAnswer, hans]
      | cons x n ih =>
        rw [List.cons_append, firstAnswer]
        intro hn
        exact ih (Option.or_eq_none_iff.1 hn).1
    exact hlater n₁ hnone
  subst htr
  rcases List.append_eq_append_iff.1 htr' with ⟨l, hl, hr⟩ | ⟨l, hl, hr⟩ <;> cases l with
  | nil => simp_all
  | cons x l =>
    obtain ⟨rfl, rfl⟩ := List.cons.inj hr
    first
      | exact absurd hout' (hearlier h hl hs hs')
      | exact absurd hout (hearlier (htr' ▸ h) hl hs' hs)

end

end CodexSdk

import CodexSdk.Interleave.Sequential

/-!
# A task that serves a loop

The rounds of such a task start with one operation that no round performs again, the one that takes
the next input.  It cuts what the task itself has performed in a run into rounds, and whatever the
other tasks do in between, each completed round is a run of the body of the loop by itself
(`Served.round`).
-/

set_option autoImplicit false

namespace Interleave

variable {Tid Call Op Choice σ R : Type} {Ans : Op → Type} {α : Type}

/-- The program has come to another one by these exchanges, most recent first. -/
inductive Comes (p : Prog Op Ans α) : List (Exchange Op Ans) → Prog Op Ans α → Prop
  | start : Comes p [] p
  | op {since : List (Exchange Op Ans)} {o : Op} {k : Ans o → Prog Op Ans α}
      (h : Comes p since (.op o k)) (a : Ans o) : Comes p (⟨o, a⟩ :: since) (k a)

theorem Comes.yields {p q : Prog Op Ans α} {since rest : List (Exchange Op Ans)} {r : α}
    (h : Comes p since q) (hq : Yields q rest r) : Yields p (since.reverse ++ rest) r := by
  induction h generalizing rest with
  | start => exact hq
  | @op since o k h a ih =>
    rw [List.reverse_cons, List.append_assoc]
    exact ih (.op a hq)

theorem Comes.only {P : Op → Prop} {p q : Prog Op Ans α} {since : List (Exchange Op Ans)}
    (h : Comes p since q) (hp : p.Only P) : q.Only P := by
  induction h with
  | start => exact hp
  | op h a ih => exact ih.2 a

/-- The last time an operation was performed. -/
theorem exists_since {o₀ : Op} {l : List (Exchange Op Ans)} (h : ¬ ∀ x ∈ l, x.1 ≠ o₀) :
    ∃ since a older, l = since ++ ⟨o₀, a⟩ :: older ∧ ∀ x ∈ since, x.1 ≠ o₀ := by
  induction l with
  | nil => exact absurd (by simp) h
  | cons x l ih =>
    by_cases hx : x.1 = o₀
    · obtain ⟨o, a⟩ := x
      obtain rfl : o = o₀ := hx
      exact ⟨[], a, l, rfl, by simp⟩
    · have hl : ¬ ∀ x ∈ l, x.1 ≠ o₀ := fun hl => h (List.forall_mem_cons.2 ⟨hx, hl⟩)
      obtain ⟨since, a, older, rfl, hno⟩ := ih hl
      exact ⟨x :: since, a, older, rfl, List.forall_mem_cons.2 ⟨hx, hno⟩⟩

variable [DecidableEq Tid]

/-- The exchange of an event of `t`. -/
def Event.exchangeOf (t : Tid) : Event Tid Call Op Ans → Option (Exchange Op Ans)
  | .op u o a => if u = t then some ⟨o, a⟩ else none
  | _ => none

/-- What a task has performed, most recent first. -/
def performedBy (t : Tid) (tr : List (Event Tid Call Op Ans)) : List (Exchange Op Ans) :=
  tr.filterMap (Event.exchangeOf t)

theorem performedBy_cons_of_none {t : Tid} {e : Event Tid Call Op Ans}
    {tr : List (Event Tid Call Op Ans)} (h : e.exchangeOf t = none) :
    performedBy t (e :: tr) = performedBy t tr := List.filterMap_cons_none h

theorem performedBy_cons_op (t : Tid) (o : Op) (a : Ans o) (tr : List (Event Tid Call Op Ans)) :
    performedBy t (.op t o a :: tr) = ⟨o, a⟩ :: performedBy t tr :=
  List.filterMap_cons_some (if_pos rfl)

variable (m : Machine Tid Call Op Choice σ R Ans) (t : Tid) (o₀ : Op)
  (k : Ans o₀ → Prog Op Ans R)

/-- All rounds of `t` perform `o₀` first, and nowhere else. -/
structure Serves : Prop where
  restart : ∀ r p, m.restart t r = some p → p = .op o₀ k
  inside : ∀ a, (k a).Only (· ≠ o₀)

/-- The task has not done anything yet; or it is in the round it started last; and the rounds before
that one came to their end. -/
structure Served (c : Config Tid Call Op σ R Ans) : Prop where
  started : c.tasks t ≠ .absent
  idle : (∀ x ∈ performedBy t c.world.trace, x.1 ≠ o₀) →
    performedBy t c.world.trace = [] ∧ ∀ p, c.tasks t = .live p → p = .op o₀ k
  current : ∀ since a older, performedBy t c.world.trace = since ++ ⟨o₀, a⟩ :: older →
    (∀ x ∈ since, x.1 ≠ o₀) →
      ∃ q, Comes (k a) since q ∧ ∀ p, c.tasks t = .live p → p = m.settle t q
  past : ∀ newer a' since a older,
    performedBy t c.world.trace = newer ++ ⟨o₀, a'⟩ :: (since ++ ⟨o₀, a⟩ :: older) →
      (∀ x ∈ since, x.1 ≠ o₀) → ∃ r, Comes (k a) since (.ret r) ∧ m.restart t r = some (.op o₀ k)

variable {m t o₀ k} {c c' c₀ : Config Tid Call Op σ R Ans} {e : Event Tid Call Op Ans}
  {law : World Tid Call Op σ Ans → Event Tid Call Op Ans → Prop}

omit [DecidableEq Tid] in
/-- A program at an operation of a round is where the round has come to, except at the start of the
next one. -/
theorem Serves.settle_op (hs : Serves m t o₀ k) {a : Ans o₀} {since : List (Exchange Op Ans)}
    {q : Prog Op Ans R} {o : Op} {k' : Ans o → Prog Op Ans R} (hq : Comes (k a) since q)
    (h : .op o k' = m.settle t q) :
    (q = .op o k' ∧ o ≠ o₀) ∨
      ∃ r, q = .ret r ∧ m.restart t r = some (.op o₀ k) ∧ Prog.op o k' = .op o₀ k := by
  cases q with
  | op o' k'' =>
    have heq : Prog.op o k' = .op o' k'' := h
    refine .inl ⟨heq.symm, ?_⟩
    obtain ⟨rfl, -⟩ := Prog.op.inj heq
    exact (hq.only (hs.inside a)).1
  | ret r =>
    refine .inr ⟨r, rfl, ?_⟩
    rw [Machine.settle] at h
    cases hres : m.restart t r with
    | none =>
      rw [hres] at h
      cases h
    | some p =>
      obtain rfl := hs.restart r p hres
      rw [hres] at h
      exact ⟨rfl, h⟩

/-- A step of another task, or one that drops this one. -/
theorem Served.of_eq (h : Served m t o₀ k c) (hown : performedBy t c'.world.trace =
    performedBy t c.world.trace) (hstarted : c'.tasks t ≠ .absent)
    (hlive : ∀ p, c'.tasks t = .live p → c.tasks t = .live p) : Served m t o₀ k c' where
  started := hstarted
  idle := by
    rw [hown]
    exact fun hno => ⟨(h.idle hno).1, fun p hp => (h.idle hno).2 p (hlive p hp)⟩
  current := by
    rw [hown]
    intro since a older heq hno
    obtain ⟨q, hq, hp⟩ := h.current since a older heq hno
    exact ⟨q, hq, fun p hp' => hp p (hlive p hp')⟩
  past := by
    rw [hown]
    exact h.past

/-- Where the task is when it takes its next input. -/
theorem Served.at_input (hs : Serves m t o₀ k) (h : Served m t o₀ k c) {k' : Ans o₀ → Prog Op Ans R}
    (ht : c.tasks t = .live (.op o₀ k')) :
    k' = k ∧ ∀ since a older, performedBy t c.world.trace = since ++ ⟨o₀, a⟩ :: older →
      (∀ x ∈ since, x.1 ≠ o₀) →
      ∃ r, Comes (k a) since (.ret r) ∧ m.restart t r = some (.op o₀ k) := by
  have hround : ∀ since a older, performedBy t c.world.trace = since ++ ⟨o₀, a⟩ :: older →
      (∀ x ∈ since, x.1 ≠ o₀) →
        k' = k ∧ ∃ r, Comes (k a) since (.ret r) ∧ m.restart t r = some (.op o₀ k) := by
    intro since a older heq hno
    obtain ⟨q, hq, hp⟩ := h.current since a older heq hno
    rcases hs.settle_op hq (hp _ ht) with ⟨-, hne⟩ | ⟨r, rfl, hres, hk⟩
    · exact absurd rfl hne
    · exact ⟨eq_of_heq (Prog.op.inj hk).2, r, hq, hres⟩
  refine ⟨?_, fun since a older heq hno => (hround since a older heq hno).2⟩
  by_cases hidle : ∀ x ∈ performedBy t c.world.trace, x.1 ≠ o₀
  · exact eq_of_heq (Prog.op.inj ((h.idle hidle).2 _ ht)).2
  · obtain ⟨since, a, older, heq, hno⟩ := exists_since hidle
    exact (hround since a older heq hno).1

/-- The task performs its next operation. -/
theorem Served.perform (hs : Serves m t o₀ k) (h : Served m t o₀ k c) {o : Op}
    {k' : Ans o → Prog Op Ans R} (ht : c.tasks t = .live (.op o k')) (a : Ans o)
    (hown : performedBy t c'.world.trace = ⟨o, a⟩ :: performedBy t c.world.trace)
    (htask : c'.tasks t = .live (m.settle t (k' a))) : Served m t o₀ k c' where
  started := by simp [htask]
  idle := by
    rw [hown]
    intro hno
    obtain ⟨ho, hno⟩ := List.forall_mem_cons.1 hno
    exact absurd (Prog.op.inj ((h.idle hno).2 _ ht)).1 ho
  current := by
    rw [hown, htask]
    intro since a' older heq hno
    cases since with
    | nil =>
      -- the operation takes an input
      obtain ⟨hhead, rfl⟩ := List.cons.inj heq
      obtain ⟨rfl, ha⟩ := Sigma.mk.inj hhead
      obtain rfl := eq_of_heq ha
      obtain ⟨rfl, -⟩ := h.at_input hs ht
      refine ⟨k' a, .start, fun p hp => ?_⟩
      cases hp
      rfl
    | cons x since =>
      obtain ⟨rfl, htail⟩ := List.cons.inj heq
      obtain ⟨ho, hno⟩ := List.forall_mem_cons.1 hno
      obtain ⟨q, hq, hp⟩ := h.current since a' older htail hno
      rcases hs.settle_op hq (hp _ ht) with ⟨rfl, -⟩ | ⟨r, rfl, hres, hk⟩
      · refine ⟨k' a, hq.op a, fun p hp' => ?_⟩
        cases hp'
        rfl
      · exact absurd (Prog.op.inj hk).1 ho
  past := by
    rw [hown]
    intro newer a' since a₀ older heq hno
    cases newer with
    | nil =>
      obtain ⟨hhead, htail⟩ := List.cons.inj heq
      obtain ⟨rfl, -⟩ := Sigma.mk.inj hhead
      exact (h.at_input hs ht).2 since a₀ older htail hno
    | cons x newer => exact h.past newer a' since a₀ older (List.cons.inj heq).2 hno

/-- **One step** keeps the account of the rounds. -/
theorem Served.step (hs : Serves m t o₀ k) (h : Served m t o₀ k c) (hstep : m.Step c e c') :
    Served m t o₀ k c' := by
  by_cases hte : t = e.tid
  · subst hte
    cases hstep with
    | spawn habs => exact absurd habs h.started
    | op ht hx =>
      exact h.perform hs ht _ (performedBy_cons_op _ _ _ _) (Function.update_self ..)
    | drop ht ha =>
      refine h.of_eq (performedBy_cons_of_none rfl) ?_ fun p hp => ?_
      · simp [Event.tid]
      · simp [Event.tid] at hp
  · have hnone : e.exchangeOf t = none := by
      cases e with
      | op u o a => exact if_neg fun hut => hte hut.symm
      | _ => rfl
    have htask := hstep.tasks_ne hte
    refine h.of_eq ?_ (by rw [htask]; exact h.started) fun p hp => by rwa [htask] at hp
    rw [hstep.trace_eq]
    exact performedBy_cons_of_none hnone

/-- **The rounds of a run.** -/
theorem Served.run (hs : Serves m t o₀ k) (h₀ : c₀.tasks t = .live (.op o₀ k))
    (htrace : c₀.world.trace = []) (hr : m.Run law c₀ c) : Served m t o₀ k c := by
  induction hr with
  | init =>
    refine ⟨by simp [h₀], fun _ => ⟨by simp [htrace, performedBy], fun p hp => ?_⟩, ?_, ?_⟩
    · rw [h₀] at hp
      cases hp
      rfl
    · simp [htrace, performedBy]
    · simp [htrace, performedBy]
  | step _ hstep _ ih => exact ih.step hs hstep

/-- A round that is over when the next one has started, or waits to. -/
theorem Served.round (hs : Serves m t o₀ k) (h : Served m t o₀ k c)
    {newer since older : List (Exchange Op Ans)} {a : Ans o₀}
    (hown : performedBy t c.world.trace = newer ++ since ++ ⟨o₀, a⟩ :: older)
    (hno : ∀ x ∈ since, x.1 ≠ o₀)
    (hover : (newer = [] ∧ c.tasks t = .live (.op o₀ k)) ∨
      ∃ newer' a', newer = newer' ++ [⟨o₀, a'⟩]) :
    ∃ r, Yields (.op o₀ k) (⟨o₀, a⟩ :: since.reverse) r ∧ m.restart t r = some (.op o₀ k) := by
  have hcomes : ∃ r, Comes (k a) since (.ret r) ∧ m.restart t r = some (.op o₀ k) := by
    rcases hover with ⟨rfl, ht⟩ | ⟨newer', a', rfl⟩
    · exact (h.at_input hs ht).2 since a older hown hno
    · refine h.past newer' a' since a older ?_ hno
      simpa using hown
  obtain ⟨r, hr, hres⟩ := hcomes
  have hyields := hr.yields (.ret r)
  rw [List.append_nil] at hyields
  exact ⟨r, .op a hyields, hres⟩

/-! ## Part of a round -/

/-- What a task performs once it is at `q >>= f`: it is inside `q` still, or `q` has returned. -/
def Within (m : Machine Tid Call Op Choice σ R Ans) (t : Tid) {β : Type} (q : Prog Op Ans β)
    (f : β → Prog Op Ans R) (since : List (Exchange Op Ans)) (c : Config Tid Call Op σ R Ans) :
    Prop :=
  (∃ q', Comes q since q' ∧ ∀ p, c.tasks t = .live p → p = m.settle t (q' >>= f)) ∨
    ∃ rest first b, since = rest ++ first ∧ Comes q first (.ret b)

/-- One step inside a part of a round. -/
theorem Within.step {β : Type} {q : Prog Op Ans β} {f : β → Prog Op Ans R}
    {tr : List (Event Tid Call Op Ans)} (h : Within m t q f (performedBy t tr) c)
    (hlive : c.tasks t ≠ .absent) (hs : m.Step c e c') :
    c'.tasks t ≠ .absent ∧ Within m t q f (performedBy t (e :: tr)) c' := by
  by_cases hte : t = e.tid
  · subst hte
    cases hs with
    | spawn habs => exact absurd habs hlive
    | @op t o k ch a s ht hx =>
      refine ⟨by simp [Event.tid], ?_⟩
      show Within m t q f (performedBy t (.op t o a :: tr)) _
      rw [performedBy_cons_op]
      rcases h with ⟨q', hq, hp⟩ | ⟨rest, first, b, hsince, hb⟩
      · cases q' with
        | ret b => exact .inr ⟨[⟨o, a⟩], _, b, rfl, hq⟩
        | op o' k' =>
          have heq : Prog.op o k = .op o' fun a => k' a >>= f := hp _ ht
          obtain ⟨rfl, hk⟩ := Prog.op.inj heq
          obtain rfl := eq_of_heq hk
          refine .inl ⟨k' a, hq.op a, fun p hp' => ?_⟩
          simpa [Event.tid] using hp'.symm
      · exact .inr ⟨⟨o, a⟩ :: rest, first, b, congrArg (⟨o, a⟩ :: ·) hsince, hb⟩
    | drop ht ha =>
      refine ⟨by simp [Event.tid], ?_⟩
      rw [performedBy_cons_of_none rfl]
      rcases h with ⟨q', hq, -⟩ | h
      · exact .inl ⟨q', hq, fun p hp => by simp [Event.tid] at hp⟩
      · exact .inr h
  · have hnone : e.exchangeOf t = none := by
      cases e with
      | op u o a => exact if_neg fun hut => hte hut.symm
      | _ => rfl
    rw [Within, hs.tasks_ne hte, performedBy_cons_of_none hnone]
    exact ⟨hlive, h⟩

omit [DecidableEq Tid] in
theorem settle_of_once (honce : ∀ r, m.restart t r = none) (p : Prog Op Ans R) :
    m.settle t p = p := by
  cases p with
  | ret r => rw [Machine.settle, honce, Option.getD_none]
  | op o k => rfl

/-- **What a task has performed** since it was started, if it is not restarted, has brought it from
its program to what is left of that. -/
theorem comes_run (honce : ∀ r, m.restart t r = none) {p₀ : Prog Op Ans R}
    (ht : c₀.tasks t = .live p₀) (hr : m.Run law c₀ c) {newer : List (Event Tid Call Op Ans)}
    (htrace : c.world.trace = newer ++ c₀.world.trace) :
    c.tasks t ≠ .absent ∧ ∀ p, c.tasks t = .live p → Comes p₀ (performedBy t newer) p := by
  induction hr generalizing newer with
  | init =>
    obtain rfl : newer = [] := by simpa using htrace
    refine ⟨by simp [ht], fun p hp => ?_⟩
    obtain rfl : p₀ = p := by simpa [ht] using hp
    exact .start
  | @step c c' e hr hs _ ih =>
    obtain ⟨newer', hnewer⟩ := hr.trace_suffix
    obtain rfl : newer = e :: newer' := by
      rw [hs.trace_eq, ← hnewer, ← List.cons_append] at htrace
      exact (List.append_cancel_right htrace).symm
    obtain ⟨hlive, hcomes⟩ := ih hnewer.symm
    by_cases hte : t = e.tid
    · subst hte
      cases hs with
      | spawn habs => exact absurd habs hlive
      | @op t o k ch a s ht' hx =>
        refine ⟨by simp [Event.tid], fun p hp => ?_⟩
        show Comes p₀ (performedBy t (.op t o a :: newer')) p
        rw [performedBy_cons_op]
        obtain rfl : m.settle t (k a) = p := by simpa [Event.tid] using hp
        rw [settle_of_once (t := t) honce]
        exact (hcomes _ ht').op a
      | drop => exact ⟨by simp [Event.tid], fun p hp => by simp [Event.tid] at hp⟩
    · have hnone : e.exchangeOf t = none := by
        cases e with
        | op u o a => exact if_neg fun hut => hte hut.symm
        | _ => rfl
      rw [hs.tasks_ne hte, performedBy_cons_of_none hnone]
      exact ⟨hlive, hcomes⟩

/-- A task that has not started has done nothing. -/
theorem untouched_run (hr : m.Run law c₀ c) (h₀ : c₀.world.trace = []) (ht : c.tasks t = .absent) :
    ∀ e ∈ c.world.trace, e.tid ≠ t := by
  induction hr with
  | init => simp [h₀]
  | @step c c' e _ hs _ ih =>
    have hne : e.tid ≠ t := by
      rintro rfl
      cases hs <;> simp [Event.tid] at ht
    rw [hs.tasks_ne hne.symm] at ht
    rw [hs.trace_eq]
    exact List.forall_mem_cons.2 ⟨hne, ih ht⟩

/-- **What a task has performed by the time it returns.** -/
theorem returned_run (honce : ∀ r, m.restart t r = none) (hr : m.Run law c₀ c)
    (h₀ : c₀.world.trace = []) {call : Call} {r : R} (hspawn : .spawn t call ∈ c.world.trace)
    (ht : c.tasks t = .live (.ret r)) :
    Yields (m.body call) (performedBy t c.world.trace).reverse r := by
  obtain ⟨newer, older, htrace⟩ := List.append_of_mem hspawn
  obtain ⟨c₁, c₂, hr₁, rfl, hs, hr₂⟩ := hr.cut h₀ htrace
  cases hs with
  | spawn habs =>
    have hbefore : performedBy t c₁.world.trace = [] := by
      rw [performedBy, List.filterMap_eq_nil_iff]
      intro e he
      cases e with
      | op u o a => exact if_neg (untouched_run hr₁ h₀ habs _ he)
      | _ => rfl
    have htask : Function.update c₁.tasks t (.live (m.settle t (m.body call))) t =
        .live (m.body call) := by
      rw [Function.update_self, settle_of_once honce]
    have hcomes := (comes_run honce htask hr₂ htrace).2 _ ht
    have hown : performedBy t c.world.trace = performedBy t newer := by
      rw [htrace, performedBy, List.filterMap_append, List.filterMap_cons_none rfl]
      exact (congrArg _ hbefore).trans (List.append_nil _)
    have hyields := hcomes.yields (.ret r)
    rwa [List.append_nil, ← hown] at hyields

/-! ## One task after another -/

/-- Whatever `t` has done comes before whatever `u` has done. -/
def Precedes (t u : Tid) (tr : List (Event Tid Call Op Ans)) : Prop :=
  ∃ newer older, tr = newer ++ older ∧ (∀ e ∈ newer, e.tid ≠ t) ∧ ∀ e ∈ older, e.tid ≠ u

omit [DecidableEq Tid] in
theorem Precedes.ne {u : Tid} {tr : List (Event Tid Call Op Ans)} (h : Precedes t u tr)
    (he : e ∈ tr) (ht : e.tid = t) : t ≠ u := by
  obtain ⟨newer, older, rfl, hnewer, holder⟩ := h
  rintro rfl
  rcases List.mem_append.1 he with he | he
  · exact hnewer e he ht
  · exact holder e he ht

/-- It stays so if `t` has returned. -/
theorem Precedes.run {u : Tid} {r : R} (h : Precedes t u c.world.trace) (hr : m.Run law c c')
    (ht : c.tasks t = .live (.ret r)) : Precedes t u c'.world.trace := by
  induction hr with
  | init => exact h
  | @step c₁ c₂ e hr hs _ ih =>
    obtain ⟨newer, older, heq, hnewer, holder⟩ := ih
    refine ⟨e :: newer, older, by rw [hs.trace_eq, heq, List.cons_append], ?_, holder⟩
    exact List.forall_mem_cons.2 ⟨(hs.tid_ne (hr.returned ht)).symm, hnewer⟩

end Interleave

import CodexSdk.Interleave.Machine

/-!
# What a task owes

Some operations of a task make something due, and others pay it: a task that takes an input has to
put out what belongs to it.  An `Account` says which do what, and a program owes a list when it
pays exactly that and whatever else it makes due, first come first served, before it returns,
however its operations are answered (`Prog.Owes`).

A task of which every round owes nothing to begin with then never pays twice, out of turn or
without need, and is never behind by more than what its current round still owes.  That holds in
every run, with any other tasks in between that keep off the account (`Books.run`).
-/

set_option autoImplicit false

namespace Interleave

variable {Tid Call Op Choice σ R β : Type} {Ans : Op → Type} {α : Type}

/-! ## Histories -/

/-- What is seen of an event. -/
def Event.seen (see : (o : Op) → Ans o → List β) : Event Tid Call Op Ans → List β
  | .op _ o a => see o a
  | .spawn _ _ | .drop _ => []

/-- What is seen of a history, in the order it happened. -/
def seen (see : (o : Op) → Ans o → List β) (tr : List (Event Tid Call Op Ans)) : List β :=
  tr.reverse.flatMap (Event.seen see)

@[simp] theorem seen_nil (see : (o : Op) → Ans o → List β) :
    seen see ([] : List (Event Tid Call Op Ans)) = [] := rfl

theorem seen_cons (see : (o : Op) → Ans o → List β) (e : Event Tid Call Op Ans)
    (tr : List (Event Tid Call Op Ans)) : seen see (e :: tr) = seen see tr ++ e.seen see := by
  simp [seen]

/-! ## Programs -/

/-- What the operations make due, and what they pay. -/
structure Account (Op : Type) (Ans : Op → Type) (β : Type) where
  due : (o : Op) → Ans o → List β
  paid : (o : Op) → Ans o → List β

variable {acc : Account Op Ans β}

/-- The operation leaves the account alone. -/
def Account.Silent (acc : Account Op Ans β) (o : Op) : Prop :=
  ∀ a, acc.due o a = [] ∧ acc.paid o a = []

/-- The program pays this, and what it makes due itself, before it returns. -/
def Prog.Owes (acc : Account Op Ans β) : Prog Op Ans α → List β → Prop
  | .ret _, owed => owed = []
  | .op o k, owed => ∀ a, ∃ rest, owed ++ acc.due o a = acc.paid o a ++ rest ∧ (k a).Owes acc rest

theorem Prog.Only.owes {p : Prog Op Ans α} (h : p.Only acc.Silent) : p.Owes acc [] := by
  induction p with
  | ret a => rfl
  | op o k ih =>
    intro a
    obtain ⟨hdue, hpaid⟩ := h.1 a
    exact ⟨[], by simp [hdue, hpaid], ih a (h.2 a)⟩

theorem Prog.Owes.bind {γ : Type} {p : Prog Op Ans α} {f : α → Prog Op Ans γ} {owed : List β}
    (hp : p.Owes acc owed) (hf : ∀ a, (f a).Owes acc []) : (p >>= f).Owes acc owed := by
  induction p generalizing owed with
  | ret a =>
    obtain rfl : owed = [] := hp
    exact hf a
  | op o k ih =>
    intro a
    obtain ⟨rest, heq, hk⟩ := hp a
    exact ⟨rest, heq, ih a hk⟩

/-! ## Runs -/

variable (m : Machine Tid Call Op Choice σ R Ans) (t : Tid) (acc)

/-- Every round of the task owes nothing to begin with, and the other tasks keep off the account. -/
structure Balances : Prop where
  round : ∀ r p, m.restart t r = some p → p.Owes acc []
  bodies : ∀ call, (m.body call).Only acc.Silent
  others : ∀ u r p, u ≠ t → m.restart u r = some p → p.Only acc.Silent

/-- What has been paid and what the task owes is what has come due. -/
structure Books (c : Config Tid Call Op σ R Ans) : Prop where
  started : c.tasks t ≠ .absent
  balance : ∃ owed, seen acc.due c.world.trace = seen acc.paid c.world.trace ++ owed ∧
    ∀ p, c.tasks t = .live p → p.Owes acc owed
  others : ∀ u p, u ≠ t → c.tasks u = .live p → p.Only acc.Silent

variable {m t acc} {c c' c₀ : Config Tid Call Op σ R Ans} {e : Event Tid Call Op Ans}
  {law : World Tid Call Op σ Ans → Event Tid Call Op Ans → Prop}

/-- A round that is over owes nothing, and neither does the next one. -/
theorem Balances.settle (h : Balances acc m t) {p : Prog Op Ans R} {owed : List β}
    (hp : p.Owes acc owed) : (m.settle t p).Owes acc owed := by
  cases p with
  | ret r =>
    rw [Machine.settle]
    cases hres : m.restart t r with
    | none => exact hp
    | some q =>
      obtain rfl : owed = [] := hp
      exact h.round r q hres
  | op o k => exact hp

theorem Balances.settle_other (h : Balances acc m t) {u : Tid} (hu : u ≠ t) {p : Prog Op Ans R}
    (hp : p.Only acc.Silent) : (m.settle u p).Only acc.Silent := by
  cases p with
  | ret r =>
    rw [Machine.settle]
    cases hres : m.restart u r with
    | none => exact hp
    | some q => exact h.others u r q hu hres
  | op o k => exact hp

variable [DecidableEq Tid]

/-- A step of another task. -/
theorem Books.elsewhere (h : Books acc t c) (hs : m.Step c e c') (hte : t ≠ e.tid)
    (hsilent : ∀ see, see = acc.due ∨ see = acc.paid → e.seen see = [])
    (hother : ∀ p, c'.tasks e.tid = .live p → p.Only acc.Silent) : Books acc t c' where
  started := by
    rw [hs.tasks_ne hte]
    exact h.started
  balance := by
    obtain ⟨owed, heq, hlive⟩ := h.balance
    refine ⟨owed, ?_, by rwa [hs.tasks_ne hte]⟩
    rw [hs.trace_eq, seen_cons, seen_cons, hsilent _ (.inl rfl), hsilent _ (.inr rfl)]
    simpa using heq
  others := by
    intro u p hu hp
    by_cases hue : u = e.tid
    · exact hother p (hue ▸ hp)
    · exact h.others u p hu (by rwa [hs.tasks_ne hue] at hp)

/-- An operation of the task itself. -/
theorem Books.own (hbalances : Balances acc m t) (h : Books acc t c) {o : Op}
    {k : Ans o → Prog Op Ans R} (ht : c.tasks t = .live (.op o k)) (a : Ans o)
    (hs : m.Step c (.op t o a) c') (htask : c'.tasks t = .live (m.settle t (k a))) :
    Books acc t c' where
  started := by simp [htask]
  balance := by
    obtain ⟨owed, heq, hlive⟩ := h.balance
    obtain ⟨rest, hrest, hk⟩ := hlive _ ht a
    refine ⟨rest, ?_, fun p hp => ?_⟩
    · calc seen acc.due c'.world.trace
          = seen acc.paid c.world.trace ++ (owed ++ acc.due o a) := by
            rw [hs.trace_eq, seen_cons, heq, List.append_assoc]
            rfl
        _ = seen acc.paid c.world.trace ++ (acc.paid o a ++ rest) := by rw [hrest]
        _ = seen acc.paid c'.world.trace ++ rest := by
            rw [hs.trace_eq, seen_cons, List.append_assoc]
            rfl
    · rw [htask] at hp
      cases hp
      exact hbalances.settle hk
  others := by
    intro u p hu hp
    rw [hs.tasks_ne hu] at hp
    exact h.others u p hu hp

/-- **One step** keeps the books. -/
theorem Books.step (hbalances : Balances acc m t) (h : Books acc t c) (hs : m.Step c e c') :
    Books acc t c' := by
  by_cases hte : t = e.tid
  · subst hte
    cases hs with
    | spawn habs => exact absurd habs h.started
    | @op t o k ch a s ht hx => exact h.own hbalances ht a (.op ht hx) (Function.update_self ..)
    | @drop t o k ht ha =>
      obtain ⟨owed, heq, -⟩ := h.balance
      refine ⟨by simp [Event.tid], ⟨owed, ?_, fun p hp => by simp [Event.tid] at hp⟩, ?_⟩
      · show seen acc.due (.drop t :: c.world.trace) = _
        rw [World.push_trace, seen_cons, seen_cons]
        simpa [Event.seen] using heq
      · intro u p hu hp
        have hne : u ≠ t := hu
        exact h.others u p hu (by simpa [Event.tid, Function.update_of_ne hne] using hp)
  · refine h.elsewhere hs hte ?_ ?_
    · rintro see hsee
      cases hs with
      | @op u o k ch a s hu hx =>
        obtain ⟨hdue, hpaid⟩ := (h.others u _ (Ne.symm hte) hu).1 a
        rcases hsee with rfl | rfl
        · exact hdue
        · exact hpaid
      | _ => rfl
    · intro p hp
      cases hs with
      | @spawn u call hu =>
        obtain rfl : m.settle u (m.body call) = p := by simpa [Event.tid] using hp
        exact hbalances.settle_other (Ne.symm hte) (hbalances.bodies call)
      | @op u o k ch a s hu hx =>
        obtain rfl : m.settle u (k a) = p := by simpa [Event.tid] using hp
        exact hbalances.settle_other (Ne.symm hte) ((h.others u _ (Ne.symm hte) hu).2 a)
      | drop hu ha => simp [Event.tid] at hp

/-- **The books of a run.** -/
theorem Books.run (hbalances : Balances acc m t) (h₀ : Books acc t c₀) (hr : m.Run law c₀ c) :
    Books acc t c := by
  induction hr with
  | init => exact h₀
  | step _ hs _ ih => exact ih.step hbalances hs

end Interleave

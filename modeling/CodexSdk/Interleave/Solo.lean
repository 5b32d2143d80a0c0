import CodexSdk.Interleave.Contract
import CodexSdk.Interleave.Protocol

/-!
# What a task can do on its own

Safety properties are about all runs; to show that something *can* be done, one needs a run, and
the easiest runs are those in which one task does what it has to do while the others wait.
`Performs` is such a part of a run, of the program alone: it composes along `>>=`, and
`Performs.run` puts it into a machine.

`Disciplined.finish` says when a task can be brought to its end without any knowledge of its
program: when every operation its protocol allows can be performed.
-/

set_option autoImplicit false

namespace Interleave

variable {Tid Call Op Choice σ R S : Type} {Ans : Op → Type} {α β : Type}

/-- Performing some operations on its own, `t` gets from the program `p` and the state `s` to `p'`
and `s'`, with these events. -/
inductive Performs (m : Machine Tid Call Op Choice σ R Ans) (t : Tid) (p' : Prog Op Ans α)
    (s' : σ) : Prog Op Ans α → σ → List (Event Tid Call Op Ans) → Prop
  | refl : Performs m t p' s' p' s' []
  | op {o : Op} {k : Ans o → Prog Op Ans α} {ch : Choice} {a : Ans o} {s s₁ : σ}
      {new : List (Event Tid Call Op Ans)} (hx : m.exec t o ch s = some (a, s₁))
      (h : Performs m t p' s' (k a) s₁ new) : Performs m t p' s' (.op o k) s (new ++ [.op t o a])

section

variable {m : Machine Tid Call Op Choice σ R Ans} {t : Tid} {p p' p'' : Prog Op Ans α}
  {s s' s'' : σ} {new new' : List (Event Tid Call Op Ans)}

theorem Performs.trans (h : Performs m t p' s' p s new) (h' : Performs m t p'' s'' p' s' new') :
    Performs m t p'' s'' p s (new' ++ new) := by
  induction h with
  | refl => simpa using h'
  | op hx _ ih => exact List.append_assoc new' _ _ ▸ Performs.op hx ih

/-- What a program performs, it performs as the first part of another one. -/
theorem Performs.bind (f : α → Prog Op Ans β) (h : Performs m t p' s' p s new) :
    Performs m t (p' >>= f) s' (p >>= f) s new := by
  induction h with
  | refl => exact .refl
  | op hx _ ih => exact .op hx ih

theorem Performs.events (h : Performs m t p' s' p s new) : ∀ e ∈ new, ∃ o a, e = .op t o a := by
  induction h with
  | refl => simp
  | op _ _ ih =>
    intro e he
    rcases List.mem_append.1 he with he | he
    · exact ih e he
    · exact ⟨_, _, List.mem_singleton.1 he⟩

/-- What has been proved of a program is still there when it has performed a part of it. -/
theorem Performs.safe {C : Contract Tid Call Op σ Ans} {Q : α → World Tid Call Op σ Ans → Prop}
    (hlaw : ∀ w, ∀ e ∈ new, C.law w e) {w : World Tid Call Op σ Ans} (hs : w.shared = s)
    (h : Performs m t p' s' p s new) (hp : Safe m C t Q p w) (hi : C.inv w) :
    Safe m C t Q p' ⟨s', new ++ w.trace⟩ ∧ C.inv ⟨s', new ++ w.trace⟩ := by
  induction h generalizing w with
  | refl =>
    subst hs
    exact ⟨hp, hi⟩
  | @op o k ch a s s₁ new hx h ih =>
    subst hs
    obtain ⟨hadm, hk⟩ := hp w (C.rely_refl t w) hi ch a s₁ hx
      (hlaw w _ (List.mem_append_right _ List.mem_cons_self))
    have hrest := ih (w := w.push (.op t o a) s₁)
      (fun w' e he => hlaw w' e (List.mem_append_left _ he)) rfl hk hadm.1
    rw [World.push_trace] at hrest
    rwa [List.append_assoc]

variable [DecidableEq Tid] {law : World Tid Call Op σ Ans → Event Tid Call Op Ans → Prop}
  {q q' : Prog Op Ans R}

/-- **A task's own operations are a run**, in which the others stay where they are. -/
theorem Performs.run (hlaw : ∀ w, ∀ e ∈ new, law w e) {c : Config Tid Call Op σ R Ans}
    (ht : c.tasks t = .live (m.settle t q)) (h : Performs m t q' s' q c.world.shared new) :
    ∃ c', m.Run law c c' ∧ c'.world = ⟨s', new ++ c.world.trace⟩ ∧
      c'.tasks t = .live (m.settle t q') ∧ ∀ u, u ≠ t → c'.tasks u = c.tasks u := by
  generalize hs : c.world.shared = s at h
  induction h generalizing c with
  | refl => exact ⟨c, .init, by simp [← hs], ht, fun _ _ => rfl⟩
  | @op o k ch a s s₁ new hx h ih =>
    subst hs
    obtain ⟨c', hrun, hw, ht', hu⟩ := ih (c := ⟨c.world.push (.op t o a) s₁,
      Function.update c.tasks t (.live (m.settle t (k a)))⟩)
      (fun w e he => hlaw w e (List.mem_append_left _ he)) (by simp) rfl
    have hstep := Machine.Run.step .init (.op ht hx)
      (hlaw c.world _ (List.mem_append_right _ List.mem_cons_self))
    exact ⟨c', hstep.trans hrun, by simpa using hw, ht',
      fun u hne => (hu u hne).trans (Function.update_of_ne hne _ _)⟩

end

/-- `Performs`, when the events do not matter. -/
def Can (m : Machine Tid Call Op Choice σ R Ans) (t : Tid) (p : Prog Op Ans α) (s : σ)
    (p' : Prog Op Ans α) (s' : σ) : Prop := ∃ new, Performs m t p' s' p s new

section

variable {m : Machine Tid Call Op Choice σ R Ans} {t : Tid} {p p' p'' : Prog Op Ans α}
  {s s' s'' : σ}

theorem Can.refl : Can m t p s p s := ⟨[], .refl⟩

theorem Can.trans (h : Can m t p s p' s') (h' : Can m t p' s' p'' s'') : Can m t p s p'' s'' := by
  obtain ⟨new, h⟩ := h
  obtain ⟨new', h'⟩ := h'
  exact ⟨new' ++ new, h.trans h'⟩

theorem Can.bind (f : α → Prog Op Ans β) (h : Can m t p s p' s') :
    Can m t (p >>= f) s (p' >>= f) s' := h.imp fun _ => .bind f

theorem Can.op {o : Op} {k : Ans o → Prog Op Ans α} (ch : Choice) {a : Ans o} {s₁ : σ}
    (hx : m.exec t o ch s = some (a, s₁)) (h : Can m t (k a) s₁ p' s') :
    Can m t (Prog.perform o >>= k) s p' s' := by
  obtain ⟨new, h⟩ := h
  exact ⟨_, .op hx h⟩

/-- What a task can do, a run can do. -/
theorem Can.run [DecidableEq Tid] {law : World Tid Call Op σ Ans → Event Tid Call Op Ans → Prop}
    {q q' : Prog Op Ans R} (hlaw : ∀ w o a, law w (.op t o a)) {c : Config Tid Call Op σ R Ans}
    (ht : c.tasks t = .live (m.settle t q)) (h : Can m t q c.world.shared q' s') :
    ∃ c', m.Run law c c' ∧ c'.world.shared = s' ∧ c'.tasks t = .live (m.settle t q') ∧
      ∀ u, u ≠ t → c'.tasks u = c.tasks u := by
  obtain ⟨new, h⟩ := h
  have hnew : ∀ w, ∀ e ∈ new, law w e := by
    intro w e he
    obtain ⟨o, a, rfl⟩ := h.events e he
    exact hlaw w o a
  obtain ⟨c', hrun, hw, hc'⟩ := h.run hnew ht
  exact ⟨c', hrun, by rw [hw], hc'⟩

end

variable {m : Machine Tid Call Op Choice σ R Ans} {δ : S → Op → Option S} {view : Tid → σ → S}
  {q₀ : S} {Q : Tid → R → S → Prop}

/-- **A task can be brought to its end**, when every operation its protocol allows can be
performed, with an acceptable answer, from a state (`free`) that this does not leave. -/
theorem Disciplined.finish (h : Disciplined m δ view q₀ Q) {free : σ → Prop} {t : Tid}
    {accept : (o : Op) → Ans o → Prop}
    (henabled : ∀ {o q s}, free s → δ (view t s) o = some q →
      ∃ ch a s', m.exec t o ch s = some (a, s') ∧ free s' ∧ accept o a)
    {p : Prog Op Ans R} {s : σ} (hp : p.Follows δ (Q t) (view t s)) (hs : free s) :
    ∃ r s' new, Performs m t (.ret r) s' p s new ∧ Q t r (view t s') ∧ free s' ∧
      ∀ e ∈ new, ∃ o a, e = .op t o a ∧ accept o a := by
  induction p generalizing s with
  | ret r => exact ⟨r, s, [], .refl, hp, hs, by simp⟩
  | op o k ih =>
    obtain ⟨q, hq, hk⟩ := hp
    obtain ⟨ch, a, s₁, hx, hs₁, ha⟩ := henabled hs hq
    obtain ⟨r, s', new, hperf, hr, hs', hnew⟩ := ih a (h.own hx hq ▸ hk a) hs₁
    refine ⟨r, s', _, .op hx hperf, hr, hs', fun e he => ?_⟩
    rcases List.mem_append.1 he with he | he
    · exact hnew e he
    · exact ⟨o, a, List.mem_singleton.1 he, ha⟩

/-- Settling is done once, when no further round is over before it has begun. -/
theorem Machine.settle_settle (hrestart : ∀ t r p, m.restart t r = some p → m.settle t p = p)
    (t : Tid) (q : Prog Op Ans R) : m.settle t (m.settle t q) = m.settle t q := by
  cases q with
  | op o k => rfl
  | ret r =>
    cases hres : m.restart t r with
    | none =>
      have hsame : m.settle t (.ret r) = .ret r := by rw [Machine.settle, hres, Option.getD_none]
      rw [hsame, hsame]
    | some p =>
      have hnext : m.settle t (.ret r) = p := by rw [Machine.settle, hres, Option.getD_some]
      rw [hnext, hrestart t r p hres]

/-- **Bringing a task to the end of its round**, in a configuration in which all tasks follow the
protocol. -/
theorem Disciplined.finish_run [DecidableEq Tid] (h : Disciplined m δ view q₀ Q) {free : σ → Prop}
    {t : Tid} {accept : (o : Op) → Ans o → Prop}
    (henabled : ∀ {o q s}, free s → δ (view t s) o = some q →
      ∃ ch a s', m.exec t o ch s = some (a, s') ∧ free s' ∧ accept o a)
    {law : World Tid Call Op σ Ans → Event Tid Call Op Ans → Prop}
    (hlaw : ∀ w o a, accept o a → law w (.op t o a)) {c : Config Tid Call Op σ R Ans}
    {p : Prog Op Ans R} (hc : Following δ view q₀ Q c) (ht : c.tasks t = .live p)
    (hp : m.settle t p = p) (hs : free c.world.shared) :
    ∃ c' r new, m.Run law c c' ∧ Performs m t (.ret r) c'.world.shared p c.world.shared new ∧
      c'.world.trace = new ++ c.world.trace ∧ c'.tasks t = .live (m.settle t (.ret r)) ∧
      Q t r (view t c'.world.shared) ∧ free c'.world.shared ∧
      (∀ e ∈ new, ∃ o a, e = .op t o a ∧ accept o a) ∧ ∀ u, u ≠ t → c'.tasks u = c.tasks u := by
  obtain ⟨r, s', new, hperf, hr, hs', hnew⟩ := h.finish henabled (hc.live t p ht) hs
  have hnew' : ∀ w, ∀ e ∈ new, law w e := by
    intro w e he
    obtain ⟨o, a, rfl, ha⟩ := hnew e he
    exact hlaw w o a ha
  obtain ⟨c', hrun, hw, ht', hothers⟩ :=
    hperf.run hnew' (ht.trans (congrArg Task.live hp.symm))
  have hshared : c'.world.shared = s' := congrArg World.shared hw
  subst hshared
  exact ⟨c', r, new, hrun, hperf, congrArg World.trace hw, ht', hr, hs', hnew, hothers⟩

end Interleave

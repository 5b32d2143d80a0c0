import CodexSdk.Interleave.Machine

/-!
# Protocols

A protocol is a deterministic automaton `δ : S → E → Option S`, where `none` is a breach.  It can
be used in two ways.

`accepts` runs it over a history: a property of histories such as "this happens at most once, and
only after that" is the statement that the automaton accepts every history a machine produces, and
`accepts_append` takes a history apart at any event.

`Prog.Follows` runs it over a *program*: whatever the answers, the program performs its operations
in an order the protocol allows.  When the state of the protocol can be read off the shared state,
separately for each task (`Disciplined`), every live task follows the protocol from where it is,
in every run.  That says more than a safety property does, because it bounds what a task can do
next.
-/

set_option autoImplicit false

namespace Interleave

/-! ## Histories -/

section

variable {S E : Type} (δ : S → E → Option S)

/-- The state after a history, most recent event first. -/
def accepts (s : S) : List E → Option S
  | [] => some s
  | e :: tr => (accepts s tr).bind fun s' => δ s' e

@[simp] theorem accepts_nil (s : S) : accepts δ s [] = some s := rfl

@[simp] theorem accepts_cons (s : S) (e : E) (tr : List E) :
    accepts δ s (e :: tr) = (accepts δ s tr).bind fun s' => δ s' e := rfl

theorem accepts_append (s : S) (newer older : List E) :
    accepts δ s (newer ++ older) = (accepts δ s older).bind fun s' => accepts δ s' newer := by
  induction newer with
  | nil => simp
  | cons e newer ih =>
    rw [List.cons_append, accepts_cons, ih, Option.bind_assoc]
    rfl

variable {δ}

/-- An accepted history is accepted up to any of its events, and from there on. -/
theorem accepts_split {s s' : S} {newer older : List E} {e : E}
    (h : accepts δ s (newer ++ e :: older) = some s') :
    ∃ s₁ s₂, accepts δ s older = some s₁ ∧ δ s₁ e = some s₂ ∧ accepts δ s₂ newer = some s' := by
  rw [accepts_append, accepts_cons] at h
  obtain ⟨s₂, h₂, hnewer⟩ := Option.bind_eq_some_iff.1 h
  obtain ⟨s₁, h₁, he⟩ := Option.bind_eq_some_iff.1 h₂
  exact ⟨s₁, s₂, h₁, he, hnewer⟩

end

/-! ## Programs -/

variable {Tid Call Op Choice σ R S : Type} {Ans : Op → Type} {α β : Type}

/-- From the state `q` on, the program keeps to the protocol, and it returns only where `Q`. -/
def Prog.Follows (δ : S → Op → Option S) (Q : α → S → Prop) : Prog Op Ans α → S → Prop
  | .ret a, q => Q a q
  | .op o k, q => ∃ q', δ q o = some q' ∧ ∀ a, (k a).Follows δ Q q'

section

variable {δ : S → Op → Option S} {q : S}

theorem Prog.Follows.mono {Q Q' : α → S → Prop} {p : Prog Op Ans α} (h : p.Follows δ Q q)
    (hQ : ∀ a q, Q a q → Q' a q) : p.Follows δ Q' q := by
  induction p generalizing q with
  | ret a => exact hQ a q h
  | op o k ih =>
    obtain ⟨q', hq, hk⟩ := h
    exact ⟨q', hq, fun a => ih a (hk a)⟩

theorem Prog.Follows.bind {Q : β → S → Prop} {p : Prog Op Ans α} {f : α → Prog Op Ans β}
    (h : p.Follows δ (fun a q => (f a).Follows δ Q q) q) : (p >>= f).Follows δ Q q := by
  induction p generalizing q with
  | ret a => exact h
  | op o k ih =>
    obtain ⟨q', hq, hk⟩ := h
    exact ⟨q', hq, fun a => ih a (hk a)⟩

theorem Prog.Follows.op {Q : α → S → Prop} {o : Op} {k : Ans o → Prog Op Ans α} {q' : S}
    (hq : δ q o = some q') (hk : ∀ a, (k a).Follows δ Q q') :
    (Prog.perform o >>= k).Follows δ Q q :=
  ⟨q', hq, hk⟩

/-- Operations that do not move the protocol. -/
theorem Prog.Follows.of_only {P : Op → Prop} {p : Prog Op Ans α} (hp : p.Only P)
    (hP : ∀ o, P o → δ q o = some q) : p.Follows δ (fun _ q' => q' = q) q := by
  induction p with
  | ret a => rfl
  | op o k ih => exact ⟨q, hP o hp.1, fun a => ih a (hp.2 a)⟩

end

/-! ## Machines -/

/-- The state of the protocol is a function of the shared state for each task, and only a task's
own operations move it; the programs keep to it. -/
structure Disciplined (m : Machine Tid Call Op Choice σ R Ans) (δ : S → Op → Option S)
    (view : Tid → σ → S) (q₀ : S) (Q : Tid → R → S → Prop) : Prop where
  own : ∀ {t o ch s a s' q}, m.exec t o ch s = some (a, s') → δ (view t s) o = some q →
    view t s' = q
  other : ∀ {t u o ch s a s' q}, u ≠ t → m.exec t o ch s = some (a, s') →
    δ (view t s) o = some q → view u s' = view u s
  cancel_own : ∀ t s, view t (m.cancel t s) = q₀
  cancel_other : ∀ {t u} s, u ≠ t → view u (m.cancel t s) = view u s
  body : ∀ t call, (m.body call).Follows δ (Q t) q₀
  restart : ∀ {t r p q}, m.restart t r = some p → Q t r q → p.Follows δ (Q t) q

/-- Every live task follows the protocol from where it is, and every other one is at its start. -/
structure Following (δ : S → Op → Option S) (view : Tid → σ → S) (q₀ : S) (Q : Tid → R → S → Prop)
    (c : Config Tid Call Op σ R Ans) : Prop where
  live : ∀ t p, c.tasks t = .live p → p.Follows δ (Q t) (view t c.world.shared)
  idle : ∀ t, (∀ p, c.tasks t ≠ .live p) → view t c.world.shared = q₀

section

variable {m : Machine Tid Call Op Choice σ R Ans} {δ : S → Op → Option S} {view : Tid → σ → S}
  {q₀ : S} {Q : Tid → R → S → Prop} {c c' : Config Tid Call Op σ R Ans}
  {law : World Tid Call Op σ Ans → Event Tid Call Op Ans → Prop} {e : Event Tid Call Op Ans}

theorem Disciplined.settle (h : Disciplined m δ view q₀ Q) {t : Tid} {p : Prog Op Ans R} {q : S}
    (hp : p.Follows δ (Q t) q) : (m.settle t p).Follows δ (Q t) q := by
  cases p with
  | ret r =>
    rw [Machine.settle]
    cases hres : m.restart t r with
    | none => exact hp
    | some p => exact h.restart hres hp
  | op o k => exact hp

variable [DecidableEq Tid]

theorem Disciplined.step (h : Disciplined m δ view q₀ Q) (hc : Following δ view q₀ Q c)
    (hs : m.Step c e c') : Following δ view q₀ Q c' := by
  -- the stepping task gets a new program, and the views of the others do not change
  have hupdate : ∀ t (x : Task Op R Ans) (s : σ),
      (∀ p, x = .live p → p.Follows δ (Q t) (view t s)) →
      ((∀ p, x ≠ .live p) → view t s = q₀) →
      (∀ u, u ≠ t → view u s = view u c.world.shared) →
      Following δ view q₀ Q ⟨c.world.push e s, Function.update c.tasks t x⟩ := by
    intro t x s hx hidle hother
    constructor
    case live =>
      intro u p hu
      by_cases hut : u = t
      · subst hut
        exact hx p (by simpa using hu)
      · have hu' : c.tasks u = .live p := by simpa [Function.update_of_ne hut] using hu
        exact hother u hut ▸ hc.live u p hu'
    case idle =>
      intro u hu
      by_cases hut : u = t
      · subst hut
        exact hidle (by simpa using hu)
      · have hu' : ∀ p, c.tasks u ≠ .live p := by simpa [Function.update_of_ne hut] using hu
        exact (hother u hut).trans (hc.idle u hu')
  cases hs with
  | @spawn t call ht =>
    refine hupdate t _ _ ?_ (fun hn => absurd rfl (hn _)) fun _ _ => rfl
    rintro p ⟨⟩
    rw [hc.idle t (by simp [ht])]
    exact h.settle (h.body t call)
  | @op t o k ch a s ht hx =>
    obtain ⟨q, hq, hk⟩ := hc.live t _ ht
    refine hupdate t _ _ ?_ (fun hn => absurd rfl (hn _)) fun u hu => h.other hu hx hq
    rintro p ⟨⟩
    rw [h.own hx hq]
    exact h.settle (hk a)
  | @drop t o k ht ha =>
    exact hupdate t _ _ (by rintro p ⟨⟩) (fun _ => h.cancel_own t _) fun u hu =>
      h.cancel_other _ hu

/-- **Every task follows the protocol in every run.** -/
theorem Disciplined.run (h : Disciplined m δ view q₀ Q) {c₀ : Config Tid Call Op σ R Ans}
    (h₀ : Following δ view q₀ Q c₀) (hr : m.Run law c₀ c) : Following δ view q₀ Q c := by
  induction hr with
  | init => exact h₀
  | step _ hs _ ih => exact h.step ih hs

end

end Interleave

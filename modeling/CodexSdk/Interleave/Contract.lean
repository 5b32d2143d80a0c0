import CodexSdk.Interleave.Machine

/-!
# Invariants of interleaved programs, one task at a time

The run of a machine interleaves tasks at every operation, so what a task knows about the shared
state at one operation may be gone at its next.  A `Contract` fixes what may not go: an invariant
`inv` of the world, and for each task a relation `rely` bounding what the *other* tasks do between
two of its operations.

`Safe C t Q p w` then says of the program `p` of task `t`, in the world `w`, that whatever the
others do in between, each operation of `p` keeps the invariant and stays within what the others
rely on, and that `p` returns only in worlds where `Q` holds.  It is proved by walking through the
program: `Safe.bind` composes, `Safe.mono` weakens, and an operation's case hands over the one
world in which it is performed.  Nothing about the other tasks has to be mentioned again.

`Outline.run` is the one induction over runs: if the body of every call, and every further round
of a looping task, is safe, then the invariant holds in every world a run reaches, and so does
what each returned task promised.
-/

set_option autoImplicit false

namespace Interleave

variable {Tid Call Op Choice σ R : Type} {Ans : Op → Type} {α β : Type}

structure Contract (Tid Call Op σ : Type) (Ans : Op → Type) where
  /-- Holds in every world. -/
  inv : World Tid Call Op σ Ans → Prop
  /-- What a task may assume of the steps of the others. -/
  rely : Tid → World Tid Call Op σ Ans → World Tid Call Op σ Ans → Prop
  /-- The steps under consideration. -/
  law : World Tid Call Op σ Ans → Event Tid Call Op Ans → Prop
  rely_refl : ∀ t w, rely t w w
  rely_trans : ∀ t {w w' w''}, rely t w w' → rely t w' w'' → rely t w w''

namespace Contract

/-- A step of `t` from `w` to `w'` that every other task can live with. -/
def Admits (C : Contract Tid Call Op σ Ans) (t : Tid) (w w' : World Tid Call Op σ Ans) : Prop :=
  C.inv w' ∧ ∀ u, u ≠ t → C.rely u w w'

/-- An assertion the other tasks cannot invalidate. -/
def Stable (C : Contract Tid Call Op σ Ans) (t : Tid) (P : World Tid Call Op σ Ans → Prop) : Prop :=
  ∀ w w', C.rely t w w' → P w → P w'

end Contract

variable (m : Machine Tid Call Op Choice σ R Ans) (C : Contract Tid Call Op σ Ans)

/-- The program is safe from this world on, and returns only where `Q` holds. -/
def Safe (t : Tid) (Q : α → World Tid Call Op σ Ans → Prop) :
    Prog Op Ans α → World Tid Call Op σ Ans → Prop
  | .ret a, w => Q a w
  | .op o k, w => ∀ w', C.rely t w w' → C.inv w' →
      ∀ ch a s, m.exec t o ch w'.shared = some (a, s) → C.law w' (.op t o a) →
        C.Admits t w' (w'.push (.op t o a) s) ∧ Safe t Q (k a) (w'.push (.op t o a) s)

variable {m C} {t : Tid} {Q Q' : α → World Tid Call Op σ Ans → Prop} {p : Prog Op Ans α}
  {w w' : World Tid Call Op σ Ans}

@[simp] theorem safe_ret {a : α} : Safe m C t Q (.ret a) w ↔ Q a w := Iff.rfl

@[simp] theorem safe_pure {a : α} : Safe m C t Q (pure a) w ↔ Q a w := Iff.rfl

theorem Safe.mono (h : Safe m C t Q p w) (hQ : ∀ a w, Q a w → Q' a w) : Safe m C t Q' p w := by
  induction p generalizing w with
  | ret a => exact hQ a w h
  | op o k ih =>
    intro w' hr hi ch a s hx hl
    obtain ⟨hadm, hk⟩ := h w' hr hi ch a s hx hl
    exact ⟨hadm, ih a hk⟩

/-- **Sequential composition**: the second program starts where the first one returns. -/
theorem Safe.bind {Q : β → World Tid Call Op σ Ans → Prop} {f : α → Prog Op Ans β}
    (h : Safe m C t (fun a w => Safe m C t Q (f a) w) p w) : Safe m C t Q (p >>= f) w := by
  induction p generalizing w with
  | ret a => exact h
  | op o k ih =>
    intro w' hr hi ch a s hx hl
    obtain ⟨hadm, hk⟩ := h w' hr hi ch a s hx hl
    exact ⟨hadm, ih a hk⟩

/-- Safety survives whatever the other tasks do. -/
theorem Safe.stable (hQ : ∀ a, C.Stable t (Q a)) (h : Safe m C t Q p w) (hr : C.rely t w w') :
    Safe m C t Q p w' := by
  cases p with
  | ret a => exact hQ a w w' hr h
  | op o k => exact fun w'' hr' => h w'' (C.rely_trans t hr hr')

/-- What neither the others nor the task's own operations can change is still true in the end. -/
theorem Safe.frame {J : World Tid Call Op σ Ans → Prop} (hJ : C.Stable t J)
    (hstep : ∀ w o a s, J w → J (w.push (.op t o a) s)) (h : Safe m C t Q p w) (hw : J w) :
    Safe m C t (fun a w => Q a w ∧ J w) p w := by
  induction p generalizing w with
  | ret a => exact ⟨h, hw⟩
  | op o k ih =>
    intro w' hr hi ch a s hx hl
    obtain ⟨hadm, hk⟩ := h w' hr hi ch a s hx hl
    exact ⟨hadm, ih a hk (hstep w' o a s (hJ _ _ hr hw))⟩

/-- A program that performs only operations which keep the invariant, stay within what the others
rely on, and keep `J`, is safe and keeps `J`. -/
theorem Safe.of_only {P : Op → Prop} {J : World Tid Call Op σ Ans → Prop}
    (hJ : C.Stable t J) (hp : p.Only P)
    (hstep : ∀ o w ch a s, P o → C.inv w → J w → m.exec t o ch w.shared = some (a, s) →
      C.law w (.op t o a) → C.Admits t w (w.push (.op t o a) s) ∧ J (w.push (.op t o a) s))
    (hw : J w) : Safe m C t (fun _ w => J w) p w := by
  induction p generalizing w with
  | ret a => exact hw
  | op o k ih =>
    intro w' hr hi ch a s hx hl
    obtain ⟨hadm, hJ'⟩ := hstep o w' ch a s hp.1 hi (hJ _ _ hr hw) hx hl
    exact ⟨hadm, ih a (hp.2 a) hJ'⟩

/-! ## What happens elsewhere -/

/-- Between two worlds, only tasks other than `t` have done something. -/
def Elsewhere (t : Tid) (w w' : World Tid Call Op σ Ans) : Prop :=
  ∃ new, w'.trace = new ++ w.trace ∧ ∀ e ∈ new, e.tid ≠ t

theorem Elsewhere.refl (t : Tid) (w : World Tid Call Op σ Ans) : Elsewhere t w w :=
  ⟨[], rfl, by simp⟩

theorem Elsewhere.trans (t : Tid) {w w' w'' : World Tid Call Op σ Ans} (h : Elsewhere t w w')
    (h' : Elsewhere t w' w'') : Elsewhere t w w'' := by
  obtain ⟨new, ht, hn⟩ := h
  obtain ⟨new', ht', hn'⟩ := h'
  refine ⟨new' ++ new, by rw [ht', ht, List.append_assoc], ?_⟩
  intro e he
  rcases List.mem_append.1 he with he | he
  · exact hn' e he
  · exact hn e he

/-- A step of one task happens elsewhere for all others. -/
theorem Elsewhere.push {u t : Tid} (h : u ≠ t) (w : World Tid Call Op σ Ans)
    {e : Event Tid Call Op Ans} (he : e.tid = t) (s : σ) : Elsewhere u w (w.push e s) :=
  ⟨[e], rfl, by simp [he, h.symm]⟩

theorem Elsewhere.suffix (h : Elsewhere t w w') : w.trace <:+ w'.trace := by
  obtain ⟨new, ht, -⟩ := h
  exact ⟨new, ht.symm⟩

/-- The task's own events are the same before and after. -/
theorem Elsewhere.mem_iff (h : Elsewhere t w w') {e : Event Tid Call Op Ans} (he : e.tid = t) :
    e ∈ w'.trace ↔ e ∈ w.trace := by
  obtain ⟨new, ht, hn⟩ := h
  rw [ht, List.mem_append]
  exact ⟨fun hm => hm.elim (fun hm => absurd he (hn e hm)) id, .inr⟩

/-! ## Runs -/

/-- The obligations: every call's body is safe where it is spawned, every further round is safe
where the previous one ended, dropping a task is something the others can live with, and what a
task promises on return is stable. -/
structure Outline (m : Machine Tid Call Op Choice σ R Ans) (C : Contract Tid Call Op σ Ans)
    (post : Tid → R → World Tid Call Op σ Ans → Prop) : Prop where
  stable : ∀ t r, C.Stable t (post t r)
  spawn : ∀ t call w, C.inv w → C.law w (.spawn t call) → (∀ e ∈ w.trace, e.tid ≠ t) →
    C.Admits t w (w.push (.spawn t call) w.shared) ∧
      Safe m C t (post t) (m.body call) (w.push (.spawn t call) w.shared)
  restart : ∀ t r p w, m.restart t r = some p → post t r w → Safe m C t (post t) p w
  cancel : ∀ t w, C.inv w → C.law w (.drop t) →
    C.Admits t w (w.push (.drop t) (m.cancel t w.shared))

/-- What holds of a configuration in which every obligation is met. -/
structure Proved (m : Machine Tid Call Op Choice σ R Ans) (C : Contract Tid Call Op σ Ans)
    (post : Tid → R → World Tid Call Op σ Ans → Prop) (c : Config Tid Call Op σ R Ans) : Prop where
  inv : C.inv c.world
  live : ∀ t p, c.tasks t = .live p → Safe m C t (post t) p c.world
  absent : ∀ t, c.tasks t = .absent → ∀ e ∈ c.world.trace, e.tid ≠ t

variable {post : Tid → R → World Tid Call Op σ Ans → Prop}

theorem Outline.settle (h : Outline m C post) {p : Prog Op Ans R}
    (hp : Safe m C t (post t) p w) : Safe m C t (post t) (m.settle t p) w := by
  cases p with
  | ret r =>
    rw [Machine.settle]
    cases hres : m.restart t r with
    | none => exact hp
    | some q => exact h.restart t r q w hres hp
  | op o k => exact hp

variable {c c' c₀ : Config Tid Call Op σ R Ans} {e : Event Tid Call Op Ans}

/-- What a task promised holds once it has returned. -/
theorem Proved.returned (hc : Proved m C post c) {r : R} (ht : c.tasks t = .live (.ret r)) :
    post t r c.world := hc.live t _ ht

variable [DecidableEq Tid]

/-- Replacing the task that stepped, when the others can live with the step. -/
theorem Outline.update (h : Outline m C post) (hc : Proved m C post c) (s : σ) (x : Task Op R Ans)
    (hadm : C.Admits e.tid c.world (c.world.push e s))
    (hx : ∀ p, x = .live p → Safe m C e.tid (post e.tid) p (c.world.push e s))
    (habs : x ≠ .absent) :
    Proved m C post ⟨c.world.push e s, Function.update c.tasks e.tid x⟩ where
  inv := hadm.1
  live := by
    intro u p hu
    by_cases hut : u = e.tid
    · subst hut
      exact hx p (by simpa using hu)
    · have hu' : c.tasks u = .live p := by simpa [Function.update_of_ne hut] using hu
      exact (hc.live u p hu').stable (h.stable u) (hadm.2 u hut)
  absent := by
    intro u hu e' he'
    have hut : u ≠ e.tid := by
      rintro rfl
      exact habs (by simpa using hu)
    have hu' : c.tasks u = .absent := by simpa [Function.update_of_ne hut] using hu
    rcases List.mem_cons.1 he' with rfl | he'
    · exact hut.symm
    · exact hc.absent u hu' e' he'

/-- What one step does is admitted. -/
theorem Outline.admits (h : Outline m C post) (hc : Proved m C post c) (hs : m.Step c e c')
    (hl : C.law c.world e) : C.Admits e.tid c.world c'.world := by
  cases hs with
  | spawn ht => exact (h.spawn _ _ c.world hc.inv hl (hc.absent _ ht)).1
  | op ht hx => exact (hc.live _ _ ht c.world (C.rely_refl _ _) hc.inv _ _ _ hx hl).1
  | drop _ _ => exact h.cancel _ c.world hc.inv hl

/-- One step keeps what is proved. -/
theorem Outline.step (h : Outline m C post) (hc : Proved m C post c) (hs : m.Step c e c')
    (hl : C.law c.world e) : Proved m C post c' := by
  have hadm := h.admits hc hs hl
  cases hs with
  | @spawn t call ht =>
    obtain ⟨-, hsafe⟩ := h.spawn t call c.world hc.inv hl (hc.absent t ht)
    exact h.update hc _ _ hadm (by rintro p ⟨⟩; exact h.settle hsafe) (by simp)
  | @op t o k ch a s ht hx =>
    obtain ⟨-, hsafe⟩ := hc.live t _ ht c.world (C.rely_refl t _) hc.inv ch a s hx hl
    exact h.update hc _ _ hadm (by rintro p ⟨⟩; exact h.settle hsafe) (by simp)
  | drop _ _ => exact h.update hc _ _ hadm (by rintro p ⟨⟩) (by simp)

/-- **The invariant holds in every world a run reaches**, and every task is safe there. -/
theorem Outline.run (h : Outline m C post) (h₀ : Proved m C post c₀)
    (hr : m.Run C.law c₀ c) : Proved m C post c := by
  induction hr with
  | init => exact h₀
  | step _ hs hl ih => exact h.step ih hs hl

end Interleave

import CodexSdk.Interleave.Contract

/-!
# Programs with a memory

What a task may do next can depend on what its own operations have answered so far.
`Prog.Guarded` carries a memory through a program: `next` is what an operation and its answer make
of it, and `guard` is what an operation needs of it.

The memory of a task is tied to the world by an assertion `J` that the other tasks cannot
invalidate (`Remembers`).  Then in every run each live task has a memory that allows what it is
about to do, and of which `J` holds (`Remembers.run`): what a task is about to do tells something of
the world, and the other way round.
-/

set_option autoImplicit false

namespace Interleave

variable {Tid Call Op Choice σ R S : Type} {Ans : Op → Type} {α β : Type}

/-- From the memory `q` on, whatever the answers, the program does only what its memory allows, and
it returns only where `Q`. -/
def Prog.Guarded (guard : S → Op → Prop) (next : S → (o : Op) → Ans o → S) (Q : α → S → Prop) :
    Prog Op Ans α → S → Prop
  | .ret a, q => Q a q
  | .op o k, q => guard q o ∧ ∀ a, (k a).Guarded guard next Q (next q o a)

section

variable {guard : S → Op → Prop} {next : S → (o : Op) → Ans o → S} {q : S}

theorem Prog.Guarded.mono {Q Q' : α → S → Prop} {p : Prog Op Ans α} (h : p.Guarded guard next Q q)
    (hQ : ∀ a q, Q a q → Q' a q) : p.Guarded guard next Q' q := by
  induction p generalizing q with
  | ret a => exact hQ a q h
  | op o k ih => exact ⟨h.1, fun a => ih a (h.2 a)⟩

theorem Prog.Guarded.bind {Q : β → S → Prop} {p : Prog Op Ans α} {f : α → Prog Op Ans β}
    (h : p.Guarded guard next (fun a q => (f a).Guarded guard next Q q) q) :
    (p >>= f).Guarded guard next Q q := by
  induction p generalizing q with
  | ret a => exact h
  | op o k ih => exact ⟨h.1, fun a => ih a (h.2 a)⟩

end

/-- The memory of each task is about the world, and nobody else makes it wrong.  Tasks that are not
live have the memory `q₀`. -/
structure Remembers (m : Machine Tid Call Op Choice σ R Ans) (C : Contract Tid Call Op σ Ans)
    (law : World Tid Call Op σ Ans → Event Tid Call Op Ans → Prop) (guard : S → Op → Prop)
    (next : S → (o : Op) → Ans o → S) (J : Tid → S → World Tid Call Op σ Ans → Prop) (q₀ : S)
    (Q : Tid → R → S → Prop) : Prop where
  lawful : ∀ w e, law w e → C.law w e
  stable : ∀ t q, C.Stable t (J t q)
  spawn : ∀ {t call w}, J t q₀ w → J t q₀ (w.push (.spawn t call) w.shared)
  op : ∀ {t q o ch a s w}, C.inv w → J t q w → guard q o → m.exec t o ch w.shared = some (a, s) →
    J t (next q o a) (w.push (.op t o a) s)
  drop : ∀ {t w}, law w (.drop t) → J t q₀ (w.push (.drop t) (m.cancel t w.shared))
  body : ∀ t call, (m.body call).Guarded guard next (Q t) q₀
  restart : ∀ {t r p q}, m.restart t r = some p → Q t r q → p.Guarded guard next (Q t) q

/-- Every live task has a memory that allows what it is about to do. -/
structure Remembering (guard : S → Op → Prop) (next : S → (o : Op) → Ans o → S)
    (J : Tid → S → World Tid Call Op σ Ans → Prop) (q₀ : S) (Q : Tid → R → S → Prop)
    (c : Config Tid Call Op σ R Ans) : Prop where
  live : ∀ t p, c.tasks t = .live p → ∃ q, p.Guarded guard next (Q t) q ∧ J t q c.world
  idle : ∀ t, (∀ p, c.tasks t ≠ .live p) → J t q₀ c.world

section

variable {m : Machine Tid Call Op Choice σ R Ans} {C : Contract Tid Call Op σ Ans}
  {law : World Tid Call Op σ Ans → Event Tid Call Op Ans → Prop} {guard : S → Op → Prop}
  {next : S → (o : Op) → Ans o → S} {J : Tid → S → World Tid Call Op σ Ans → Prop} {q₀ : S}
  {Q : Tid → R → S → Prop} {post : Tid → R → World Tid Call Op σ Ans → Prop}
  {c c' c₀ : Config Tid Call Op σ R Ans} {e : Event Tid Call Op Ans}

theorem Remembers.settle (h : Remembers m C law guard next J q₀ Q) {t : Tid} {p : Prog Op Ans R}
    {q : S} (hp : p.Guarded guard next (Q t) q) : (m.settle t p).Guarded guard next (Q t) q := by
  cases p with
  | ret r =>
    rw [Machine.settle]
    cases hres : m.restart t r with
    | none => exact hp
    | some p => exact h.restart hres hp
  | op o k => exact hp

variable [DecidableEq Tid]

/-- One step, of a configuration in which the obligations of an outline are met. -/
theorem Remembers.step (h : Remembers m C law guard next J q₀ Q) (hout : Outline m C post)
    (hproved : Proved m C post c) (hc : Remembering guard next J q₀ Q c) (hs : m.Step c e c')
    (hl : law c.world e) : Remembering guard next J q₀ Q c' := by
  have hadm := hout.admits hproved hs (h.lawful _ _ hl)
  -- the task that stepped; the others remember what they did
  suffices hown : (∀ p, c'.tasks e.tid = .live p →
      ∃ q, p.Guarded guard next (Q e.tid) q ∧ J e.tid q c'.world) ∧
      ((∀ p, c'.tasks e.tid ≠ .live p) → J e.tid q₀ c'.world) by
    refine ⟨fun u p hu => ?_, fun u hu => ?_⟩
    · by_cases hue : u = e.tid
      · subst hue
        exact hown.1 p hu
      · obtain ⟨q, hq, hJ⟩ := hc.live u p ((hs.tasks_ne hue).symm.trans hu)
        exact ⟨q, hq, h.stable u q _ _ (hadm.2 u hue) hJ⟩
    · by_cases hue : u = e.tid
      · subst hue
        exact hown.2 hu
      · rw [hs.tasks_ne hue] at hu
        exact h.stable u q₀ _ _ (hadm.2 u hue) (hc.idle u hu)
  cases hs with
  | @spawn t call ht =>
    have hJ : J t q₀ c.world := hc.idle t (by rw [ht]; exact nofun)
    refine ⟨fun p hp => ⟨q₀, ?_, h.spawn hJ⟩, fun _ => h.spawn hJ⟩
    obtain rfl : m.settle t (m.body call) = p := by simpa [Event.tid] using hp
    exact h.settle (h.body t call)
  | @op t o k ch a s ht hx =>
    obtain ⟨q, ⟨hguard, hk⟩, hJ⟩ := hc.live t _ ht
    refine ⟨fun p hp => ⟨next q o a, ?_, h.op hproved.inv hJ hguard hx⟩, fun hn => ?_⟩
    · obtain rfl : m.settle t (k a) = p := by simpa [Event.tid] using hp
      exact h.settle (hk a)
    · exact absurd (Function.update_self t _ c.tasks) (hn _)
  | @drop t o k ht ha =>
    exact ⟨fun p hp => by simp [Event.tid] at hp, fun _ => h.drop hl⟩

/-- **In every run** each live task has a memory that allows what it is about to do. -/
theorem Remembers.run (h : Remembers m C law guard next J q₀ Q) (hout : Outline m C post)
    (hproved : Proved m C post c₀) (h₀ : Remembering guard next J q₀ Q c₀)
    (hr : m.Run law c₀ c) : Remembering guard next J q₀ Q c := by
  induction hr with
  | init => exact h₀
  | step hr hs hl ih => exact h.step hout (hout.run hproved (hr.mono h.lawful)) ih hs hl

end

end Interleave

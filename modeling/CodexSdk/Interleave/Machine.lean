import Mathlib.Logic.Function.Basic

/-!
# Programs that interleave over a shared state

A `Prog` is a finite tree of atomic operations: it performs one, and goes on according to the
answer.  A `Machine` says what the operations do to a shared state `σ`, and a `Config` is that
state together with the remaining program of every task.  One step lets *one* task perform *one*
operation, so the runs of a machine are all the interleavings of its tasks, and everything the
scheduler and the environment decide is in the `Choice` that accompanies a step.

Two things are specific to cooperative tasks.  A task can be dropped, but only while it is about
to perform an operation that can suspend it (`awaits`), and `cancel` is what its locals do on the
way out.  And a task that serves a loop has a program for one round only: `restart` starts the
next one.

Every step appends what happened to the `trace`, most recent first.  Properties of a run are
properties of its trace, so a history is never something a proof has to reconstruct.
-/

set_option autoImplicit false

namespace Interleave

/-- A program over the operations `Op`, where `o` is answered by an `Ans o`. -/
inductive Prog (Op : Type) (Ans : Op → Type) (α : Type) : Type
  | ret (a : α) : Prog Op Ans α
  | op (o : Op) (k : Ans o → Prog Op Ans α) : Prog Op Ans α

namespace Prog

variable {Op : Type} {Ans : Op → Type} {α β γ : Type}

/-- Sequential composition. -/
def bind : Prog Op Ans α → (α → Prog Op Ans β) → Prog Op Ans β
  | ret a, f => f a
  | op o k, f => op o fun a => (k a).bind f

/-- The program that performs one operation and returns its answer. -/
def perform (o : Op) : Prog Op Ans (Ans o) := op o ret

instance : Monad (Prog Op Ans) where
  pure := ret
  bind := bind

theorem bind_assoc (p : Prog Op Ans α) (f : α → Prog Op Ans β) (g : β → Prog Op Ans γ) :
    (p.bind f).bind g = p.bind fun a => (f a).bind g := by
  induction p with
  | ret a => rfl
  | op o k ih => exact congrArg (op o) (funext fun a => ih a)

@[simp] theorem pure_bind' (a : α) (f : α → Prog Op Ans β) : (pure a : Prog Op Ans α) >>= f = f a :=
  rfl

@[simp] theorem ret_bind (a : α) (f : α → Prog Op Ans β) : (ret a : Prog Op Ans α) >>= f = f a :=
  rfl

@[simp] theorem op_bind (o : Op) (k : Ans o → Prog Op Ans α) (f : α → Prog Op Ans β) :
    op o k >>= f = op o fun a => k a >>= f := rfl

@[simp] theorem perform_bind (o : Op) (f : Ans o → Prog Op Ans β) :
    (perform o : Prog Op Ans (Ans o)) >>= f = op o f := rfl

/-- Every operation the program can come to perform, on some answers, satisfies `P`. -/
def Only (P : Op → Prop) : Prog Op Ans α → Prop
  | ret _ => True
  | op o k => P o ∧ ∀ a, (k a).Only P

theorem Only.bind {P : Op → Prop} {p : Prog Op Ans α} {f : α → Prog Op Ans β}
    (hp : p.Only P) (hf : ∀ a, (f a).Only P) : (p >>= f).Only P := by
  induction p with
  | ret a => exact hf a
  | op o k ih => exact ⟨hp.1, fun a => ih a (hp.2 a)⟩

theorem Only.mono {P P' : Op → Prop} {p : Prog Op Ans α} (hp : p.Only P)
    (h : ∀ o, P o → P' o) : p.Only P' := by
  induction p with
  | ret a => trivial
  | op o k ih => exact ⟨h o hp.1, fun a => ih a (hp.2 a)⟩

theorem Only.op {P : Op → Prop} {o : Op} {k : Ans o → Prog Op Ans α} (ho : P o)
    (hk : ∀ a, (k a).Only P) : (perform o >>= k).Only P := ⟨ho, hk⟩

end Prog

/-! ## Machines -/

variable {Tid Call Op Choice σ R : Type} {Ans : Op → Type}

/-- What happened in one step. -/
inductive Event (Tid Call Op : Type) (Ans : Op → Type)
  | spawn (t : Tid) (call : Call)
  | op (t : Tid) (o : Op) (a : Ans o)
  | drop (t : Tid)

/-- The task an event belongs to. -/
def Event.tid : Event Tid Call Op Ans → Tid
  | spawn t _ => t
  | op t _ _ => t
  | drop t => t

/-- The shared state and the history, most recent event first. -/
structure World (Tid Call Op σ : Type) (Ans : Op → Type) where
  shared : σ
  trace : List (Event Tid Call Op Ans)

/-- The world after `e` left the shared state as `s`. -/
def World.push (w : World Tid Call Op σ Ans) (e : Event Tid Call Op Ans) (s : σ) :
    World Tid Call Op σ Ans := ⟨s, e :: w.trace⟩

@[simp] theorem World.push_shared (w : World Tid Call Op σ Ans) (e : Event Tid Call Op Ans)
    (s : σ) : (w.push e s).shared = s := rfl

@[simp] theorem World.push_trace (w : World Tid Call Op σ Ans) (e : Event Tid Call Op Ans)
    (s : σ) : (w.push e s).trace = e :: w.trace := rfl

/-- A task: not started, running (a task that has returned is running `ret`), or dropped. -/
inductive Task (Op R : Type) (Ans : Op → Type)
  | absent
  | live (p : Prog Op Ans R)
  | dropped

structure Config (Tid Call Op σ R : Type) (Ans : Op → Type) where
  world : World Tid Call Op σ Ans
  tasks : Tid → Task Op R Ans

structure Machine (Tid Call Op Choice σ R : Type) (Ans : Op → Type) where
  /-- The program of a call. -/
  body : Call → Prog Op Ans R
  /-- The effect of an operation, or `none` while it cannot be performed. -/
  exec : Tid → (o : Op) → Choice → σ → Option (Ans o × σ)
  /-- The next round of a task that serves a loop. -/
  restart : Tid → R → Option (Prog Op Ans R)
  /-- The operations a task can be suspended at. -/
  awaits : Op → Bool
  /-- What dropping a task does to the shared state. -/
  cancel : Tid → σ → σ

namespace Machine

variable (m : Machine Tid Call Op Choice σ R Ans)

/-- A task whose round is over goes on with the next one. -/
def settle (t : Tid) : Prog Op Ans R → Prog Op Ans R
  | .ret r => (m.restart t r).getD (.ret r)
  | p => p

variable [DecidableEq Tid]

/-- One step of one task, and the event it leaves in the trace. -/
inductive Step (c : Config Tid Call Op σ R Ans) :
    Event Tid Call Op Ans → Config Tid Call Op σ R Ans → Prop
  | spawn {t : Tid} {call : Call} (ht : c.tasks t = .absent) :
      Step c (.spawn t call)
        ⟨c.world.push (.spawn t call) c.world.shared,
          Function.update c.tasks t (.live (m.settle t (m.body call)))⟩
  | op {t : Tid} {o : Op} {k : Ans o → Prog Op Ans R} {ch : Choice} {a : Ans o} {s : σ}
      (ht : c.tasks t = .live (.op o k)) (hx : m.exec t o ch c.world.shared = some (a, s)) :
      Step c (.op t o a)
        ⟨c.world.push (.op t o a) s, Function.update c.tasks t (.live (m.settle t (k a)))⟩
  | drop {t : Tid} {o : Op} {k : Ans o → Prog Op Ans R} (ht : c.tasks t = .live (.op o k))
      (ha : m.awaits o = true) :
      Step c (.drop t)
        ⟨c.world.push (.drop t) (m.cancel t c.world.shared),
          Function.update c.tasks t .dropped⟩

/-- The runs all of whose steps satisfy `law`, which sees the world before the step. -/
inductive Run (law : World Tid Call Op σ Ans → Event Tid Call Op Ans → Prop)
    (c₀ : Config Tid Call Op σ R Ans) : Config Tid Call Op σ R Ans → Prop
  | init : Run law c₀ c₀
  | step {c c' : Config Tid Call Op σ R Ans} {e : Event Tid Call Op Ans}
      (hr : Run law c₀ c) (hs : m.Step c e c') (hl : law c.world e) : Run law c₀ c'

/-- The law every step satisfies. -/
def anyStep (_ : World Tid Call Op σ Ans) (_ : Event Tid Call Op Ans) : Prop := True

variable {m} {law law' : World Tid Call Op σ Ans → Event Tid Call Op Ans → Prop}
  {c₀ c c' c'' : Config Tid Call Op σ R Ans} {e : Event Tid Call Op Ans}

theorem Run.mono (h : ∀ w e, law w e → law' w e) (hr : m.Run law c₀ c) : m.Run law' c₀ c := by
  induction hr with
  | init => exact .init
  | step _ hs hl ih => exact .step ih hs (h _ _ hl)

theorem Run.trans (h : m.Run law c₀ c) (h' : m.Run law c c') : m.Run law c₀ c' := by
  induction h' with
  | init => exact h
  | step _ hs hl ih => exact .step ih hs hl

theorem Step.trace_eq (h : m.Step c e c') : c'.world.trace = e :: c.world.trace := by
  cases h <;> rfl

/-- A step leaves the other tasks alone. -/
theorem Step.tasks_ne (h : m.Step c e c') {u : Tid} (hu : u ≠ e.tid) : c'.tasks u = c.tasks u := by
  cases h <;> exact Function.update_of_ne hu _ _

/-- The trace only grows. -/
theorem Run.trace_suffix (h : m.Run law c₀ c) : c₀.world.trace <:+ c.world.trace := by
  induction h with
  | init => exact List.suffix_refl _
  | step _ hs _ ih => rw [hs.trace_eq]; exact ih.trans (List.suffix_cons _ _)

/-- A run can be cut at any event of its history. -/
theorem Run.cut (hr : m.Run law c₀ c) (h₀ : c₀.world.trace = [])
    {newer older : List (Event Tid Call Op Ans)} (h : c.world.trace = newer ++ e :: older) :
    ∃ c₁ c₂, m.Run law c₀ c₁ ∧ c₁.world.trace = older ∧ m.Step c₁ e c₂ ∧ m.Run law c₂ c := by
  induction hr generalizing newer with
  | init => simp [h₀] at h
  | @step c c' e' hr hs hl ih =>
    rw [hs.trace_eq] at h
    cases newer with
    | nil =>
      obtain ⟨rfl, rfl⟩ := List.cons.inj h
      exact ⟨c, c', hr, rfl, hs, .init⟩
    | cons e'' newer =>
      obtain ⟨c₁, c₂, hr₁, htrace, hs₁, hr₂⟩ := ih (List.cons.inj h).2
      exact ⟨c₁, c₂, hr₁, htrace, hs₁, hr₂.step hs hl⟩

/-- A run obeys whatever follows from a property of all its events. -/
theorem Run.restrict {P : Event Tid Call Op Ans → Prop} (hr : m.Run law c₀ c)
    (hP : ∀ e ∈ c.world.trace, P e)
    (h : ∀ w e, (∀ e' ∈ w.trace, P e') → P e → law' w e) : m.Run law' c₀ c := by
  induction hr with
  | init => exact .init
  | step _ hs _ ih =>
    rw [hs.trace_eq] at hP
    obtain ⟨hhead, htail⟩ := List.forall_mem_cons.1 hP
    exact (ih htail).step hs (h _ _ htail hhead)

/-- There is no step for a task that has returned. -/
theorem Step.tid_ne (h : m.Step c e c') {t : Tid} {r : R} (ht : c.tasks t = .live (.ret r)) :
    t ≠ e.tid := by
  rintro rfl
  cases h <;> simp_all [Event.tid]

/-- A task that has returned stays returned. -/
theorem Step.returned (h : m.Step c e c') {t : Tid} {r : R} (ht : c.tasks t = .live (.ret r)) :
    c'.tasks t = .live (.ret r) := by
  rw [h.tasks_ne (h.tid_ne ht), ht]

theorem Run.returned (h : m.Run law c₀ c) {t : Tid} {r : R} (ht : c₀.tasks t = .live (.ret r)) :
    c.tasks t = .live (.ret r) := by
  induction h with
  | init => exact ht
  | step _ hs _ ih => exact hs.returned ih

/-- A task that has started was spawned. -/
theorem Run.spawned (h : m.Run law c₀ c) {t : Tid} (h₀ : c₀.tasks t = .absent)
    (ht : c.tasks t ≠ .absent) : ∃ call, .spawn t call ∈ c.world.trace := by
  induction h with
  | init => exact absurd h₀ ht
  | @step c c' e _ hs _ ih =>
    rw [hs.trace_eq]
    by_cases hold : c.tasks t = .absent
    · have hte : t = e.tid := by
        by_contra hne
        exact ht (hs.tasks_ne hne ▸ hold)
      subst hte
      cases hs with
      | spawn _ => exact ⟨_, List.mem_cons_self⟩
      | op htask _ => cases hold.symm.trans htask
      | drop htask _ => cases hold.symm.trans htask
    · obtain ⟨call, hmem⟩ := ih hold
      exact ⟨call, List.mem_cons_of_mem _ hmem⟩

/-- Every live program is at an operation, or has returned for good. -/
theorem Run.settled (h₀ : ∀ t p, c₀.tasks t = .live p → ∃ q, p = m.settle t q)
    (h : m.Run law c₀ c) : ∀ t p, c.tasks t = .live p → ∃ q, p = m.settle t q := by
  induction h with
  | init => exact h₀
  | @step c c' e _ hs _ ih =>
    intro t p ht
    by_cases hte : t = e.tid
    · subst hte
      cases hs with
      | spawn _ => exact ⟨_, by simpa [Event.tid] using ht.symm⟩
      | op _ _ => exact ⟨_, by simpa [Event.tid] using ht.symm⟩
      | drop _ _ => simp [Event.tid] at ht
    · exact ih t p ((hs.tasks_ne hte).symm.trans ht)

/-! ## Running a schedule

The relation above is what properties are stated over; the functions below run a given schedule,
and `runLabels_run` makes what they compute a run. -/

/-- What a schedule prescribes. -/
inductive Label (Tid Call Choice : Type)
  | spawn (t : Tid) (call : Call)
  | run (t : Tid) (ch : Choice)
  | drop (t : Tid)

variable (m)

def stepLabel (c : Config Tid Call Op σ R Ans) :
    Label Tid Call Choice → Option (Config Tid Call Op σ R Ans)
  | .spawn t call => match c.tasks t with
    | .absent => some ⟨c.world.push (.spawn t call) c.world.shared,
        Function.update c.tasks t (.live (m.settle t (m.body call)))⟩
    | _ => none
  | .run t ch => match c.tasks t with
    | .live (.op o k) => (m.exec t o ch c.world.shared).map fun r =>
        ⟨c.world.push (.op t o r.1) r.2, Function.update c.tasks t (.live (m.settle t (k r.1)))⟩
    | _ => none
  | .drop t => match c.tasks t with
    | .live (.op o _) => if m.awaits o then
        some ⟨c.world.push (.drop t) (m.cancel t c.world.shared),
          Function.update c.tasks t .dropped⟩
      else none
    | _ => none

def runLabels (c : Config Tid Call Op σ R Ans) :
    List (Label Tid Call Choice) → Option (Config Tid Call Op σ R Ans)
  | [] => some c
  | l :: ls => (m.stepLabel c l).bind fun c' => runLabels c' ls

variable {m}

theorem stepLabel_step {l : Label Tid Call Choice} (h : m.stepLabel c l = some c') :
    ∃ e, m.Step c e c' := by
  cases l with
  | spawn t call =>
    simp only [stepLabel] at h
    split at h
    · rename_i ht; cases h; exact ⟨_, .spawn ht⟩
    · cases h
  | run t ch =>
    simp only [stepLabel] at h
    split at h
    · rename_i o k ht
      obtain ⟨⟨a, s⟩, hx, rfl⟩ := Option.map_eq_some_iff.1 h
      exact ⟨_, .op ht hx⟩
    · cases h
  | drop t =>
    simp only [stepLabel] at h
    split at h
    · rename_i ht
      split at h
      · rename_i ha; cases h; exact ⟨_, .drop ht ha⟩
      · cases h
    · cases h

/-- **A schedule that goes through is a run.** -/
theorem runLabels_run {ls : List (Label Tid Call Choice)} (h : m.runLabels c ls = some c') :
    m.Run anyStep c c' := by
  induction ls generalizing c with
  | nil => cases h; exact .init
  | cons l ls ih =>
    obtain ⟨c₁, hl, hls⟩ := Option.bind_eq_some_iff.1 h
    obtain ⟨e, hs⟩ := stepLabel_step hl
    exact (Run.step .init hs trivial).trans (ih hls)

end Machine
end Interleave

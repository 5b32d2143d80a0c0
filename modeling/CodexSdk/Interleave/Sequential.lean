import CodexSdk.Interleave.Machine

/-!
# One program by itself

Where nothing else runs, what matters about a program is which exchanges it can have with an
environment that answers as it likes, and what it returns after them: `Yields`.

A `Method` is a program with a local state that it reads and writes, whose operations can fail; an
error of one ends the method there and then, and the state stays as it was at that point.  `Does`
says what a method can do, and `does_bind` takes a method apart into its pieces.

An environment that answers every operation by a function leaves a method no choice:
`Method.against` is the one thing it does.
-/

set_option autoImplicit false

namespace Interleave

variable {Op : Type} {α β : Type}

/-- An operation with its answer. -/
abbrev Exchange (Op : Type) (Ans : Op → Type) := (o : Op) × Ans o

section

variable {Ans : Op → Type}

/-- Answered as in `exchanges`, first one first, the program returns the result. -/
inductive Yields : Prog Op Ans α → List (Exchange Op Ans) → α → Prop
  | ret (a : α) : Yields (.ret a) [] a
  | op {o : Op} {k : Ans o → Prog Op Ans α} {exchanges : List (Exchange Op Ans)} {r : α} (a : Ans o)
      (h : Yields (k a) exchanges r) : Yields (.op o k) (⟨o, a⟩ :: exchanges) r

/-- A program that starts with an operation goes on with its answer. -/
theorem Yields.answered {p : Prog Op Ans α} {o : Op} {k : Ans o → Prog Op Ans α}
    {exchanges : List (Exchange Op Ans)} {r : α} (hp : p = .op o k) (a : Ans o)
    (h : Yields (k a) exchanges r) : Yields p (⟨o, a⟩ :: exchanges) r := by
  rw [hp]
  exact .op a h

/-- A program performs its own operations only. -/
theorem Yields.only {P : Op → Prop} {p : Prog Op Ans α} {exchanges : List (Exchange Op Ans)} {r : α}
    (h : Yields p exchanges r) (hp : p.Only P) : ∀ x ∈ exchanges, P x.1 := by
  induction h with
  | ret a => simp
  | op a h ih => exact List.forall_mem_cons.2 ⟨hp.1, ih (hp.2 a)⟩

theorem yields_ret {a r : α} {exchanges : List (Exchange Op Ans)} :
    Yields (.ret a) exchanges r ↔ exchanges = [] ∧ r = a := by
  constructor
  · rintro ⟨⟩
    exact ⟨rfl, rfl⟩
  · rintro ⟨rfl, rfl⟩
    exact .ret r

theorem yields_op {o : Op} {k : Ans o → Prog Op Ans α} {exchanges : List (Exchange Op Ans)}
    {r : α} : Yields (.op o k) exchanges r ↔
      ∃ a rest, exchanges = ⟨o, a⟩ :: rest ∧ Yields (k a) rest r := by
  constructor
  · rintro ⟨⟩
    exact ⟨_, _, rfl, by assumption⟩
  · rintro ⟨a, rest, rfl, h⟩
    exact .op a h

theorem yields_bind {p : Prog Op Ans α} {f : α → Prog Op Ans β}
    {exchanges : List (Exchange Op Ans)} {r : β} :
    Yields (p.bind f) exchanges r ↔
      ∃ first a rest, exchanges = first ++ rest ∧ Yields p first a ∧ Yields (f a) rest r := by
  induction p generalizing exchanges with
  | ret a =>
    constructor
    · exact fun h => ⟨[], a, exchanges, rfl, .ret a, h⟩
    · rintro ⟨first, b, rest, rfl, hp, h⟩
      obtain ⟨rfl, rfl⟩ := yields_ret.1 hp
      exact h
  | op o k ih =>
    rw [Prog.bind, yields_op]
    constructor
    · rintro ⟨a, rest, rfl, h⟩
      obtain ⟨first, b, rest', rfl, hp, h⟩ := (ih a).1 h
      exact ⟨_, b, rest', rfl, .op a hp, h⟩
    · rintro ⟨first, b, rest, rfl, hp, h⟩
      obtain ⟨a, first', rfl, hk⟩ := yields_op.1 hp
      exact ⟨a, _, rfl, (ih a).2 ⟨first', b, rest, rfl, hk, h⟩⟩

/-- The same of a program that goes on with another one, as long as its result says so. -/
inductive YieldsAll (again : α → Option (Prog Op Ans α)) :
    Prog Op Ans α → List (Exchange Op Ans) → α → Prop
  | done {p : Prog Op Ans α} {exchanges : List (Exchange Op Ans)} {r : α}
      (h : Yields p exchanges r) (hr : again r = none) : YieldsAll again p exchanges r
  | again {p q : Prog Op Ans α} {first rest : List (Exchange Op Ans)} {r r' : α}
      (h : Yields p first r) (hr : again r = some q) (hrest : YieldsAll again q rest r') :
      YieldsAll again p (first ++ rest) r'

/-- What the program does when `answer` answers every operation. -/
def Prog.against (answer : ∀ o, Ans o) : Prog Op Ans α → List (Exchange Op Ans) × α
  | .ret a => ([], a)
  | .op o k =>
    let rest := (k (answer o)).against answer
    (⟨o, answer o⟩ :: rest.1, rest.2)

theorem Prog.against_bind (answer : ∀ o, Ans o) (p : Prog Op Ans α) (f : α → Prog Op Ans β) :
    (p.bind f).against answer =
      ((p.against answer).1 ++ ((f (p.against answer).2).against answer).1,
        ((f (p.against answer).2).against answer).2) := by
  induction p with
  | ret a => rfl
  | op o k ih =>
    rw [Prog.bind, Prog.against, ih, Prog.against, List.cons_append]

/-- It is something the program can do. -/
theorem Prog.yields_against (answer : ∀ o, Ans o) (p : Prog Op Ans α) :
    Yields p (p.against answer).1 (p.against answer).2 := by
  induction p with
  | ret a => exact .ret a
  | op o k ih => exact .op _ (ih _)

end

/-! ## Methods -/

/-- A program with a local state `S`, over operations that answer with a `Res` or fail. -/
def Method (Op : Type) (Res : Op → Type) (E S α : Type) :=
  S → Prog Op (fun o => Except E (Res o)) (Except E α × S)

variable {Res : Op → Type} {E S : Type}

namespace Method

/-- The pieces of a method run one after another until one of them fails. -/
def andThen (x : Method Op Res E S α) (f : α → Method Op Res E S β) : Method Op Res E S β :=
  fun s => (x s).bind fun r => match r.1 with
    | .ok a => f a r.2
    | .error e => .ret (.error e, r.2)

instance : Monad (Method Op Res E S) where
  pure a := fun s => .ret (.ok a, s)
  bind := andThen

/-- One operation. -/
def call (o : Op) : Method Op Res E S (Res o) := fun s => .op o fun r => .ret (r, s)

def fail (e : E) : Method Op Res E S α := fun s => .ret (.error e, s)

/-- The current state. -/
def get : Method Op Res E S S := fun s => .ret (.ok s, s)

def set (s : S) : Method Op Res E S Unit := fun _ => .ret (.ok (), s)

end Method

/-- From the state `s` the method can have these exchanges, return `r`, and leave the state `s'`. -/
def Does (m : Method Op Res E S α) (s : S)
    (exchanges : List (Exchange Op fun o => Except E (Res o))) (r : Except E α) (s' : S) : Prop :=
  Yields (m s) exchanges (r, s')

variable {s s' : S} {exchanges : List (Exchange Op fun o => Except E (Res o))}

theorem does_pure {a : α} {r : Except E α} :
    Does (pure a : Method Op Res E S α) s exchanges r s' ↔
      exchanges = [] ∧ r = .ok a ∧ s' = s := by
  rw [Does]
  exact yields_ret.trans (by rw [Prod.mk.injEq])

theorem does_fail {e : E} {r : Except E α} :
    Does (Method.fail e : Method Op Res E S α) s exchanges r s' ↔
      exchanges = [] ∧ r = .error e ∧ s' = s := by
  rw [Does]
  exact yields_ret.trans (by rw [Prod.mk.injEq])

theorem does_call {o : Op} {r : Except E (Res o)} :
    Does (Method.call o : Method Op Res E S (Res o)) s exchanges r s' ↔
      exchanges = [⟨o, r⟩] ∧ s' = s := by
  rw [Does, Method.call, yields_op]
  constructor
  · rintro ⟨a, rest, rfl, h⟩
    obtain ⟨rfl, hr⟩ := yields_ret.1 h
    cases hr
    exact ⟨rfl, rfl⟩
  · rintro ⟨rfl, rfl⟩
    exact ⟨r, [], rfl, .ret _⟩

/-- **A method in two pieces** fails in the first, or gets through it and does the second. -/
theorem does_bind {x : Method Op Res E S α} {f : α → Method Op Res E S β} {r : Except E β} :
    Does (x >>= f) s exchanges r s' ↔
      (∃ e, Does x s exchanges (.error e) s' ∧ r = .error e) ∨
      ∃ first a s₁ rest, exchanges = first ++ rest ∧ Does x s first (.ok a) s₁ ∧
        Does (f a) s₁ rest r s' := by
  refine yields_bind.trans ?_
  constructor
  · rintro ⟨first, ⟨a | a, s₁⟩, rest, rfl, hx, h⟩
    · obtain ⟨rfl, hr⟩ := yields_ret.1 h
      cases hr
      exact .inl ⟨a, by rwa [List.append_nil], rfl⟩
    · exact .inr ⟨first, a, s₁, rest, rfl, hx, h⟩
  · rintro (⟨e, hx, rfl⟩ | ⟨first, a, s₁, rest, rfl, hx, h⟩)
    · exact ⟨exchanges, (.error e, s'), [], (List.append_nil _).symm, hx, .ret _⟩
    · exact ⟨first, (.ok a, s₁), rest, rfl, hx, h⟩

theorem does_bind_get {f : S → Method Op Res E S β} {r : Except E β} :
    Does (Method.get >>= f) s exchanges r s' ↔ Does (f s) s exchanges r s' := Iff.rfl

theorem does_bind_set {t : S} {f : Unit → Method Op Res E S β} {r : Except E β} :
    Does (Method.set t >>= f) s exchanges r s' ↔ Does (f ()) t exchanges r s' := Iff.rfl

/-- A method that starts with an operation ends when that fails. -/
theorem does_bind_call {o : Op} {f : Res o → Method Op Res E S β} {r : Except E β} :
    Does (Method.call o >>= f) s exchanges r s' ↔
      (∃ e, exchanges = [⟨o, .error e⟩] ∧ r = .error e ∧ s' = s) ∨
      ∃ a rest, exchanges = ⟨o, .ok a⟩ :: rest ∧ Does (f a) s rest r s' := by
  rw [does_bind]
  constructor
  · rintro (⟨e, hcall, rfl⟩ | ⟨first, a, s₁, rest, rfl, hcall, h⟩)
    · obtain ⟨rfl, rfl⟩ := does_call.1 hcall
      exact .inl ⟨e, rfl, rfl, rfl⟩
    · obtain ⟨rfl, rfl⟩ := does_call.1 hcall
      exact .inr ⟨a, rest, rfl, h⟩
  · rintro (⟨e, rfl, rfl, rfl⟩ | ⟨a, rest, rfl, h⟩)
    · exact .inl ⟨e, does_call.2 ⟨rfl, rfl⟩, rfl⟩
    · exact .inr ⟨[⟨o, .ok a⟩], a, s, rest, rfl, does_call.2 ⟨rfl, rfl⟩, h⟩

/-- What a method does when `answer` answers every operation. -/
def Method.against (answer : ∀ o, Except E (Res o)) (m : Method Op Res E S α) (s : S) :
    List (Exchange Op fun o => Except E (Res o)) × Except E α × S :=
  (m s).against answer

section

variable {answer : ∀ o, Except E (Res o)}

theorem Method.against_bind_of_ok {x : Method Op Res E S α} {f : α → Method Op Res E S β} {a : α}
    {first : List (Exchange Op fun o => Except E (Res o))}
    (h : x.against answer s = (first, .ok a, s')) :
    (x >>= f).against answer s =
      (first ++ ((f a).against answer s').1, ((f a).against answer s').2) := by
  refine (Prog.against_bind answer (x s) _).trans ?_
  rw [Method.against] at h
  rw [h]
  rfl

theorem Method.against_bind_of_error {x : Method Op Res E S α} {f : α → Method Op Res E S β} {e : E}
    {first : List (Exchange Op fun o => Except E (Res o))}
    (h : x.against answer s = (first, .error e, s')) :
    (x >>= f).against answer s = (first, .error e, s') := by
  refine (Prog.against_bind answer (x s) _).trans ?_
  rw [Method.against] at h
  rw [h]
  exact congrArg (·, _) (List.append_nil first)

theorem Method.against_call (o : Op) :
    (Method.call o : Method Op Res E S (Res o)).against answer s = ([⟨o, answer o⟩], answer o, s) :=
  rfl

theorem Method.against_pure (a : α) :
    (pure a : Method Op Res E S α).against answer s = ([], .ok a, s) := rfl

theorem Method.against_fail (e : E) :
    (Method.fail e : Method Op Res E S α).against answer s = ([], .error e, s) := rfl

theorem Method.against_bind_pure (x : Method Op Res E S α) (f : α → β) :
    (x >>= fun a => pure (f a)).against answer s =
      ((x.against answer s).1, (x.against answer s).2.1.map f, (x.against answer s).2.2) := by
  rcases hx : x.against answer s with ⟨first, r, s'⟩
  cases r with
  | error e => exact Method.against_bind_of_error hx
  | ok a =>
    rw [Method.against_bind_of_ok hx, Method.against_pure]
    exact congrArg (·, _) (List.append_nil first)

/-- Answered by `answer`, the method succeeds with `a` and leaves the state `s'`. -/
def Method.Succeeds (answer : ∀ o, Except E (Res o)) (m : Method Op Res E S α) (s : S) (a : α)
    (s' : S) : Prop :=
  (m.against answer s).2 = (.ok a, s')

namespace Method

theorem succeeds_pure {a b : α} :
    Succeeds answer (pure a : Method Op Res E S α) s b s' ↔ b = a ∧ s' = s := by
  rw [Succeeds, against_pure, Prod.mk.injEq, Except.ok.injEq]
  exact and_congr eq_comm eq_comm

theorem succeeds_fail {e : E} {b : α} :
    ¬ Succeeds answer (Method.fail e : Method Op Res E S α) s b s' := by
  rw [Succeeds, against_fail]
  exact nofun

theorem succeeds_call {o : Op} {b : Res o} :
    Succeeds answer (Method.call o : Method Op Res E S (Res o)) s b s' ↔
      answer o = .ok b ∧ s' = s := by
  rw [Succeeds, against_call, Prod.mk.injEq]
  exact and_congr_right' eq_comm

/-- **A method in two pieces** succeeds when both do. -/
theorem succeeds_bind {x : Method Op Res E S α} {f : α → Method Op Res E S β} {b : β} :
    Succeeds answer (x >>= f) s b s' ↔
      ∃ a s₁, Succeeds answer x s a s₁ ∧ Succeeds answer (f a) s₁ b s' := by
  rcases hx : x.against answer s with ⟨first, e | a, s₁⟩
  · rw [Succeeds, against_bind_of_error hx]
    constructor
    · exact nofun
    · rintro ⟨a, s₁, h, -⟩
      rw [Succeeds, hx] at h
      cases h
  · rw [Succeeds, against_bind_of_ok hx]
    constructor
    · exact fun h => ⟨a, s₁, by rw [Succeeds, hx], h⟩
    · rintro ⟨a', s₁', h, h'⟩
      rw [Succeeds, hx] at h
      cases h
      exact h'

theorem succeeds_bind_get {f : S → Method Op Res E S β} {b : β} :
    Succeeds answer (Method.get >>= f) s b s' ↔ Succeeds answer (f s) s b s' := Iff.rfl

theorem succeeds_set {t : S} {b : Unit} :
    Succeeds answer (Method.set t : Method Op Res E S Unit) s b s' ↔ s' = t := by
  show (Except.ok (), t) = (Except.ok b, s') ↔ s' = t
  rw [Prod.mk.injEq]
  exact ⟨fun h => h.2.symm, fun h => ⟨rfl, h.symm⟩⟩

end Method

end

end Interleave

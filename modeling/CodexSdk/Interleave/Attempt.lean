import CodexSdk.Interleave.Sequential

/-!
# Programs with errors of their own

An `Attempt` is a program that ends with a result or an error.  What its operations answer is
nothing to it: where one can fail, the attempt says which of its errors that is (`after`).

An attempt is put together from steps that perform nothing (`ofExcept`) and programs whose outcome
it reads, one after another until one fails.  `yields_andThen` takes it apart again.
-/

set_option autoImplicit false

namespace Interleave

variable {Op : Type} {Ans : Op → Type} {E α β : Type}

def Attempt (Op : Type) (Ans : Op → Type) (E α : Type) := Prog Op Ans (Except E α)

namespace Attempt

/-- The second part starts with the result of the first. -/
def andThen (x : Attempt Op Ans E α) (f : α → Attempt Op Ans E β) : Attempt Op Ans E β :=
  Prog.bind x fun
    | .ok a => f a
    | .error e => .ret (.error e)

instance : Monad (Attempt Op Ans E) where
  pure a := .ret (.ok a)
  bind := andThen

/-- A step that performs nothing. -/
def ofExcept (r : Except E α) : Attempt Op Ans E α := .ret r

/-- A program whose outcome is read as a result or an error. -/
def after (p : Prog Op Ans β) (read : β → Except E α) : Attempt Op Ans E α :=
  p.bind fun b => .ret (read b)

end Attempt

open Attempt

variable {exchanges : List (Exchange Op Ans)}

theorem yields_ofExcept {x r : Except E α} :
    Yields (ofExcept x : Attempt Op Ans E α) exchanges r ↔ exchanges = [] ∧ r = x :=
  yields_ret

theorem yields_after {p : Prog Op Ans β} {read : β → Except E α} {r : Except E α} :
    Yields (after p read) exchanges r ↔ ∃ b, Yields p exchanges b ∧ r = read b := by
  rw [after, yields_bind]
  constructor
  · rintro ⟨first, b, rest, rfl, hp, hret⟩
    obtain ⟨rfl, rfl⟩ := yields_ret.1 hret
    exact ⟨b, by rwa [List.append_nil], rfl⟩
  · rintro ⟨b, hp, rfl⟩
    exact ⟨exchanges, b, [], (List.append_nil _).symm, hp, .ret _⟩

/-- **An attempt in two parts** fails in the first, or gets through it and makes the second. -/
theorem yields_andThen {x : Attempt Op Ans E α} {f : α → Attempt Op Ans E β} {r : Except E β} :
    Yields (x >>= f : Attempt Op Ans E β) exchanges r ↔
      (∃ e, Yields x exchanges (.error e) ∧ r = .error e) ∨
      ∃ first a rest, exchanges = first ++ rest ∧ Yields x first (.ok a) ∧ Yields (f a) rest r := by
  refine yields_bind.trans ?_
  constructor
  · rintro ⟨first, a | a, rest, rfl, hx, h⟩
    · obtain ⟨rfl, rfl⟩ := yields_ret.1 h
      exact .inl ⟨a, by rwa [List.append_nil], rfl⟩
    · exact .inr ⟨first, a, rest, rfl, hx, h⟩
  · rintro (⟨e, hx, rfl⟩ | ⟨first, a, rest, rfl, hx, h⟩)
    · exact ⟨exchanges, .error e, [], (List.append_nil _).symm, hx, .ret _⟩
    · exact ⟨first, .ok a, rest, rfl, hx, h⟩

/-- A step that performs nothing decides whether the rest is made. -/
theorem yields_ofExcept_andThen {x : Except E α} {f : α → Attempt Op Ans E β} {r : Except E β} :
    Yields (ofExcept x >>= f : Attempt Op Ans E β) exchanges r ↔
      (∃ e, x = .error e ∧ exchanges = [] ∧ r = .error e) ∨
      ∃ a, x = .ok a ∧ Yields (f a) exchanges r := by
  rw [yields_andThen]
  constructor
  · rintro (⟨e, hx, rfl⟩ | ⟨first, a, rest, rfl, hx, h⟩)
    · obtain ⟨rfl, rfl⟩ := yields_ofExcept.1 hx
      exact .inl ⟨e, rfl, rfl, rfl⟩
    · obtain ⟨rfl, rfl⟩ := yields_ofExcept.1 hx
      exact .inr ⟨a, rfl, h⟩
  · rintro (⟨e, rfl, rfl, rfl⟩ | ⟨a, rfl, h⟩)
    · exact .inl ⟨e, yields_ofExcept.2 ⟨rfl, rfl⟩, rfl⟩
    · exact .inr ⟨[], a, exchanges, rfl, yields_ofExcept.2 ⟨rfl, rfl⟩, h⟩

end Interleave

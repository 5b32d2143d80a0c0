import Mathlib.Data.Option.Basic
import Mathlib.Logic.Function.Basic

/-!
# Unions of compatible assignments

Assignments of values to keys are added to a partial map one after another; one that gives a key
another value than it has is refused.  `addAll_isSome_iff` says when none is: there are never two
different values for a key.  Then the map is the union of what was given (`IsUnion`), which does
not depend on the order (`IsUnion.unique`).

Values are compared by an equivalence `==`, which need not be equality.
-/

set_option autoImplicit false

namespace PartialMap

variable {K V : Type}

/-- The map or one of the assignments gives the key this value. -/
def Gives (f : K → Option V) (l : List (K × V)) (k : K) (v : V) : Prop := f k = some v ∨ (k, v) ∈ l

theorem gives_cons {f : K → Option V} {a : K × V} {l : List (K × V)} {k : K} {v : V} :
    Gives f (a :: l) k v ↔ Gives f [a] k v ∨ (k, v) ∈ l := by
  simp [Gives, or_assoc]

variable [BEq V]

/-- No key is given two different values. -/
def Compatible (f : K → Option V) (l : List (K × V)) : Prop :=
  ∀ k v w, Gives f l k v → Gives f l k w → (v == w) = true

/-- The map holds what is given and nothing else, up to `==`. -/
structure IsUnion (f : K → Option V) (l : List (K × V)) (g : K → Option V) : Prop where
  given : ∀ k w, g k = some w → Gives f l k w
  covers : ∀ k v, Gives f l k v → ∃ w, g k = some w ∧ (w == v) = true

section

variable [EquivBEq V]

theorem isUnion_nil (f : K → Option V) : IsUnion f [] f :=
  ⟨fun _ _ h => .inl h, fun _ v h => ⟨v, h.resolve_right List.not_mem_nil, BEq.rfl⟩⟩

/-- Two unions of the same assignments hold the same. -/
theorem IsUnion.unique {f f' g g' : K → Option V} {l l' : List (K × V)} (h : IsUnion f l g)
    (h' : IsUnion f' l' g') (hgives : ∀ k v, Gives f l k v ↔ Gives f' l' k v) (k : K) :
    Option.Rel (fun v w => (v == w) = true) (g k) (g' k) := by
  cases hv : g k with
  | none =>
    cases hw : g' k with
    | none => exact .none
    | some w =>
      obtain ⟨u, hu, -⟩ := h.covers k w ((hgives k w).2 (h'.given k w hw))
      rw [hv] at hu
      cases hu
  | some v =>
    obtain ⟨w, hw, hsame⟩ := h'.covers k v ((hgives k v).1 (h.given k v hv))
    rw [hw]
    exact .some (BEq.symm hsame)

theorem IsUnion.cons {f f' g : K → Option V} {a : K × V} {l : List (K × V)}
    (ha : IsUnion f [a] f') (h : IsUnion f' l g) : IsUnion f (a :: l) g := by
  constructor
  · intro k w hw
    rw [gives_cons]
    exact (h.given k w hw).imp (fun hk => ha.given k w hk) id
  · intro k v hv
    rcases gives_cons.1 hv with hv | hv
    · obtain ⟨w', hw', hsame'⟩ := ha.covers k v hv
      obtain ⟨w, hw, hsame⟩ := h.covers k w' (.inl hw')
      exact ⟨w, hw, BEq.trans hsame hsame'⟩
    · exact h.covers k v (.inr hv)

theorem IsUnion.compatible {f g : K → Option V} {l : List (K × V)} (h : IsUnion f l g) :
    Compatible f l := by
  intro k v w hv hw
  obtain ⟨u, hu, huv⟩ := h.covers k v hv
  obtain ⟨u', hu', huw⟩ := h.covers k w hw
  obtain rfl := Option.some.inj (hu.symm.trans hu')
  exact BEq.trans (BEq.symm huv) huw

end

variable [DecidableEq K]

/-- One more assignment. -/
def add (f : K → Option V) (a : K × V) : Option (K → Option V) :=
  match f a.1 with
  | none => some (Function.update f a.1 (some a.2))
  | some w => if w == a.2 then some f else none

def addAll (f : K → Option V) (l : List (K × V)) : Option (K → Option V) := l.foldlM add f

theorem addAll_append (f : K → Option V) (l l' : List (K × V)) :
    addAll f (l ++ l') = (addAll f l).bind fun g => addAll g l' :=
  List.foldlM_append

theorem add_of_none {f : K → Option V} {key : K} (h : f key = none) (value : V) :
    add f (key, value) = some (Function.update f key (some value)) := by
  rw [add, h]

theorem add_of_some {f : K → Option V} {key : K} {w : V} (h : f key = some w) (value : V) :
    add f (key, value) = if w == value then some f else none := by
  rw [add, h]

theorem add_of_compatible {f : K → Option V} {a : K × V} (h : Compatible f [a]) :
    ∃ g, add f a = some g := by
  obtain ⟨key, value⟩ := a
  cases hkey : f key with
  | none => exact ⟨_, add_of_none hkey value⟩
  | some w =>
    have hsame := h key w value (.inl hkey) (.inr List.mem_cons_self)
    exact ⟨f, by rw [add_of_some hkey, if_pos hsame]⟩

variable [EquivBEq V]

/-- What an assignment does that is not refused. -/
theorem IsUnion.of_add {f g : K → Option V} {a : K × V} (h : add f a = some g) :
    IsUnion f [a] g := by
  obtain ⟨key, value⟩ := a
  cases hkey : f key with
  | none =>
    rw [add_of_none hkey, Option.some.injEq] at h
    subst h
    constructor
    · intro k w hw
      by_cases hk : k = key
      · subst hk
        rw [Function.update_self, Option.some.injEq] at hw
        exact .inr (hw ▸ List.mem_cons_self)
      · rw [Function.update_of_ne hk] at hw
        exact .inl hw
    · rintro k v (hv | hv)
      · have hk : k ≠ key := by
          rintro rfl
          rw [hkey] at hv
          cases hv
        exact ⟨v, by rw [Function.update_of_ne hk, hv], BEq.rfl⟩
      · obtain ⟨rfl, rfl⟩ := Prod.mk.inj (List.mem_singleton.1 hv)
        exact ⟨v, Function.update_self .., BEq.rfl⟩
  | some w =>
    rw [add_of_some hkey] at h
    split at h
    · rename_i hsame
      rw [Option.some.injEq] at h
      subst h
      refine ⟨fun _ _ hw => .inl hw, ?_⟩
      rintro k v (hv | hv)
      · exact ⟨v, hv, BEq.rfl⟩
      · obtain ⟨rfl, rfl⟩ := Prod.mk.inj (List.mem_singleton.1 hv)
        exact ⟨w, hkey, hsame⟩
    · cases h

/-- **What is made of all assignments** is their union. -/
theorem IsUnion.of_addAll {f g : K → Option V} {l : List (K × V)} (h : addAll f l = some g) :
    IsUnion f l g := by
  induction l generalizing f with
  | nil =>
    obtain rfl := Option.some.inj h
    exact isUnion_nil f
  | cons a l ih =>
    rw [addAll, List.foldlM_cons, Option.bind_eq_bind, Option.bind_eq_some_iff] at h
    obtain ⟨f', ha, hl⟩ := h
    exact (IsUnion.of_add ha).cons (ih hl)

/-- **No assignment is refused** exactly if no key is given two different values. -/
theorem addAll_isSome_iff {f : K → Option V} {l : List (K × V)} :
    (∃ g, addAll f l = some g) ↔ Compatible f l := by
  constructor
  · rintro ⟨g, hg⟩
    exact (IsUnion.of_addAll hg).compatible
  · intro h
    induction l generalizing f with
    | nil => exact ⟨f, rfl⟩
    | cons a l ih =>
      have hone : Compatible f [a] := fun k v w hv hw =>
        h k v w (gives_cons.2 (.inl hv)) (gives_cons.2 (.inl hw))
      obtain ⟨f', ha⟩ := add_of_compatible hone
      have hgiven : ∀ k v, Gives f' l k v → Gives f (a :: l) k v := fun k v hv =>
        gives_cons.2 (hv.imp (fun hk => (IsUnion.of_add ha).given k v hk) id)
      obtain ⟨g, hg⟩ := ih fun k v w hv hw => h k v w (hgiven k v hv) (hgiven k w hw)
      refine ⟨g, ?_⟩
      rw [addAll, List.foldlM_cons, Option.bind_eq_bind, ha]
      exact hg

end PartialMap

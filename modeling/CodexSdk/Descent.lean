import Mathlib.Data.Option.Basic

/-!
# Descending by a path

A value may hold other values, each under a step `child v k = some w`.  `descend child v path` is
where a path of such steps leads to, and `LeafAt` says that it leads to a leaf.

What a step preserves a path preserves (`descend_invariant`), and a map that goes along with the
steps goes along with the paths (`descend_map`).
-/

set_option autoImplicit false

namespace Descent

variable {V W K : Type} {child : V → K → Option V}

def descend (child : V → K → Option V) : V → List K → Option V
  | v, [] => some v
  | v, k :: path => (child v k).bind fun w => descend child w path

/-- There is a leaf at the end of the path. -/
def LeafAt (child : V → K → Option V) (IsLeaf : V → Prop) (v : V) (path : List K) (leaf : V) :
    Prop :=
  descend child v path = some leaf ∧ IsLeaf leaf

theorem descend_nil (v : V) : descend child v [] = some v := by rw [descend]

theorem descend_cons (v : V) (k : K) (path : List K) :
    descend child v (k :: path) = (child v k).bind fun w => descend child w path := by
  rw [descend]

theorem descend_append (v : V) (path path' : List K) : descend child v (path ++ path') =
    (descend child v path).bind fun w => descend child w path' := by
  induction path generalizing v with
  | nil => rw [List.nil_append, descend_nil, Option.bind_some]
  | cons k path ih =>
    rw [List.cons_append, descend_cons, descend_cons, Option.bind_assoc]
    exact congrArg _ (funext ih)

theorem descend_concat (v : V) (path : List K) (k : K) :
    descend child v (path ++ [k]) = (descend child v path).bind fun w => child w k := by
  rw [descend_append]
  refine congrArg _ (funext fun w => ?_)
  rw [descend_cons]
  rcases child w k with _ | a
  · rfl
  · rw [Option.bind_some, descend_nil]

theorem descend_invariant {P : V → Prop} (hchild : ∀ v k w, P v → child v k = some w → P w)
    {v w : V} (hv : P v) {path : List K} (hw : descend child v path = some w) : P w := by
  induction path generalizing v with
  | nil =>
    obtain rfl := Option.some.inj ((descend_nil v).symm.trans hw)
    exact hv
  | cons k path ih =>
    rw [descend_cons, Option.bind_eq_some_iff] at hw
    obtain ⟨a, ha, hw⟩ := hw
    exact ih (hchild v k a hv ha) hw

theorem descend_map {f : V → W} {child' : W → K → Option W}
    (hchild : ∀ v k w, child v k = some w → child' (f v) k = some (f w)) {v w : V}
    {path : List K} (hw : descend child v path = some w) :
    descend child' (f v) path = some (f w) := by
  induction path generalizing v with
  | nil =>
    obtain rfl := Option.some.inj ((descend_nil v).symm.trans hw)
    exact descend_nil _
  | cons k path ih =>
    rw [descend_cons, Option.bind_eq_some_iff] at hw
    obtain ⟨a, ha, hw⟩ := hw
    rw [descend_cons, hchild v k a ha]
    exact ih hw

section

variable {IsLeaf : V → Prop}

theorem leafAt_nil {v leaf : V} : LeafAt child IsLeaf v [] leaf ↔ v = leaf ∧ IsLeaf leaf := by
  rw [LeafAt, descend_nil, Option.some.injEq]

theorem leafAt_cons {v leaf : V} {k : K} {path : List K} : LeafAt child IsLeaf v (k :: path) leaf ↔
    ∃ w, child v k = some w ∧ LeafAt child IsLeaf w path leaf := by
  simp only [LeafAt, descend_cons, Option.bind_eq_some_iff]
  constructor
  · rintro ⟨⟨w, hw, hpath⟩, hleaf⟩
    exact ⟨w, hw, hpath, hleaf⟩
  · rintro ⟨w, hw, hpath, hleaf⟩
    exact ⟨⟨w, hw, hpath⟩, hleaf⟩

/-- A leaf is found by one value only. -/
theorem LeafAt.unique {v a b : V} {path : List K} (h : LeafAt child IsLeaf v path a)
    (h' : LeafAt child IsLeaf v path b) : a = b :=
  Option.some.inj (h.1.symm.trans h'.1)

/-- There is nothing behind a leaf. -/
theorem LeafAt.eq_of_prefix (hchild : ∀ v k, IsLeaf v → child v k = none) {v a b : V}
    {path path' : List K} (h : LeafAt child IsLeaf v path a)
    (h' : LeafAt child IsLeaf v path' b) (hpre : path <+: path') : path = path' := by
  obtain ⟨rest, rfl⟩ := hpre
  rcases rest with _ | ⟨k, rest⟩
  · exact (List.append_nil path).symm
  · have hrest := h'.1
    rw [descend_append, h.1, Option.bind_some, descend_cons, hchild a k h.2] at hrest
    cases hrest

end

end Descent

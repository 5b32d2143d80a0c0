import Mathlib.Data.List.Forall2
import Mathlib.Data.Option.Basic
import CodexSdk.Json

/-!
# Equality of JSON values

`==` of two JSON values.  Objects are equal that have equal values under the same keys, in whatever
order, and numbers of one kind are compared as such: the two zeros of the floats are equal, and an
integer is never equal to a float.  Floats are finite, so this is an equivalence relation.
-/

set_option autoImplicit false

namespace Json

/-- One of the two zeros. -/
def isFloatZero (bits : UInt64) : Bool := bits == 0 || bits == 0x8000000000000000

def Number.same : Number → Number → Bool
  | .posInt n, .posInt m => n == m
  | .negInt n, .negInt m => n == m
  | .float a, .float b => a == b || isFloatZero a && isFloatZero b
  | _, _ => false

theorem Number.same_iff {a b : Number} : a.same b = true ↔
    a = b ∨ ∃ x y, a = .float x ∧ b = .float y ∧ isFloatZero x = true ∧ isFloatZero y = true := by
  cases a <;> cases b <;> simp [Number.same]

theorem Number.same_symm {a b : Number} (h : a.same b = true) : b.same a = true := by
  rw [same_iff] at h ⊢
  rcases h with rfl | ⟨x, y, rfl, rfl, hx, hy⟩
  · exact .inl rfl
  · exact .inr ⟨y, x, rfl, rfl, hy, hx⟩

theorem Number.same_trans {a b c : Number} (h : a.same b = true) (h' : b.same c = true) :
    a.same c = true := by
  rw [same_iff] at h h' ⊢
  rcases h with rfl | ⟨x, y, rfl, rfl, hx, hy⟩
  · exact h'
  · rcases h' with rfl | ⟨_, z, -, rfl, -, hz⟩
    · exact .inr ⟨x, y, rfl, rfl, hx, hy⟩
    · exact .inr ⟨x, z, rfl, rfl, hx, hz⟩

theorem forall₂_imp_mem {α β : Type} {R S : α → β → Prop} {as : List α} {bs : List β}
    (h : List.Forall₂ R as bs) (himp : ∀ a ∈ as, ∀ b, R a b → S a b) : List.Forall₂ S as bs := by
  induction h with
  | nil => exact .nil
  | cons hab _ ih =>
    obtain ⟨ha, hrest⟩ := List.forall_mem_cons.1 himp
    exact .cons (ha _ hab) (ih hrest)

theorem forall₂_trans_mem {α : Type} {R S : α → α → Prop} {as bs cs : List α}
    (h : List.Forall₂ R as bs) (h' : List.Forall₂ R bs cs)
    (himp : ∀ a ∈ as, ∀ b c, R a b → R b c → S a c) : List.Forall₂ S as cs := by
  induction h generalizing cs with
  | nil =>
    cases h'
    exact .nil
  | cons hab _ ih =>
    cases h' with
    | cons hbc hrest =>
      obtain ⟨ha, himp⟩ := List.forall_mem_cons.1 himp
      exact .cons (ha _ _ hab hbc) (ih hrest himp)

theorem rel_symm_mem {α : Type} {R S : α → α → Prop} {x y : Option α} (h : Option.Rel R x y)
    (himp : ∀ a ∈ x, ∀ b, R a b → S b a) : Option.Rel S y x := by
  cases h with
  | none => exact .none
  | some hab => exact .some (himp _ rfl _ hab)

theorem rel_trans_mem {α : Type} {R S : α → α → Prop} {x y z : Option α} (h : Option.Rel R x y)
    (h' : Option.Rel R y z) (himp : ∀ a ∈ x, ∀ b c, R a b → R b c → S a c) :
    Option.Rel S x z := by
  cases h with
  | none =>
    cases h'
    exact .none
  | some hab => cases h' with
    | some hbc => exact .some (himp _ rfl _ _ hab hbc)

theorem Map.get_eq_none_iff {m : Map} {key : String} :
    m.get key = none ↔ key ∉ m.map Prod.fst := by
  rw [Map.get, List.lookup_eq_none_iff, List.mem_map]
  constructor
  · rintro h ⟨p, hp, rfl⟩
    exact bne_iff_ne.1 (h p hp) rfl
  · exact fun h p hp => bne_iff_ne.2 fun hkey => h ⟨p, hp, hkey.symm⟩

namespace Value

/-- `==` of two values. -/
def same : Value → Value → Bool
  | null, null => true
  | bool a, bool b => a == b
  | number a, number b => a.same b
  | string a, string b => a == b
  | array as, array bs =>
    as.length == bs.length && (as.attach.zip bs).all fun p => p.1.1.same p.2
  | object m, object n => (m.map Prod.fst ++ n.map Prod.fst).all fun key =>
    match _h : Map.get m key, Map.get n key with
    | some a, some b => a.same b
    | none, none => true
    | _, _ => false
  | _, _ => false
termination_by v => v
decreasing_by
  · have := List.sizeOf_lt_of_mem p.1.2
    simp
    omega
  · have := Map.sizeOf_get _h
    simp
    omega

theorem same_array {as bs : List Value} :
    (array as).same (array bs) = true ↔ List.Forall₂ (fun a b => a.same b = true) as bs := by
  have hzip : as.zip bs = (as.attach.zip bs).map (Prod.map Subtype.val id) := by
    rw [← List.zip_map_left, List.attach_map_subtype_val]
  rw [same, Bool.and_eq_true, beq_iff_eq, List.all_eq_true, List.forall₂_iff_zip, hzip]
  refine and_congr_right fun _ => ⟨fun h a b hab => ?_, fun h p hp => ?_⟩
  · obtain ⟨p, hp, hpair⟩ := List.mem_map.1 hab
    obtain ⟨rfl, rfl⟩ := Prod.mk.inj hpair
    exact h p hp
  · exact h (List.mem_map_of_mem hp)

theorem same_object {m n : Map} :
    (object m).same (object n) = true ↔
      ∀ key, Option.Rel (fun a b => same a b = true) (m.get key) (n.get key) := by
  rw [same, List.all_eq_true]
  refine ⟨fun h key => ?_, fun h key _ => ?_⟩
  · by_cases hkey : key ∈ m.map Prod.fst ++ n.map Prod.fst
    · have hsame := h key hkey
      split at hsame
      · rename_i a b ha hb
        rw [ha, hb]
        exact .some hsame
      · rename_i ha hb
        rw [ha, hb]
        exact .none
      · cases hsame
    · rw [List.mem_append, not_or] at hkey
      rw [Map.get_eq_none_iff.2 hkey.1, Map.get_eq_none_iff.2 hkey.2]
      exact .none
  · have hrel := h key
    split
    · rename_i a b ha hb
      rw [ha, hb] at hrel
      cases hrel with
      | some hab => exact hab
    · rfl
    · rename_i hsome hnone
      rcases hm : m.get key with _ | a <;> rcases hn : n.get key with _ | b
      · exact (hnone hm hn).elim
      · rw [hm, hn] at hrel
        cases hrel
      · rw [hm, hn] at hrel
        cases hrel
      · exact (hsome a b hm hn).elim

/-- Induction over the entries of arrays and what objects hold under their keys. -/
theorem inductionOn {P : Value → Prop} (null : P null) (bool : ∀ b, P (bool b))
    (number : ∀ n, P (number n)) (string : ∀ s, P (string s))
    (array : ∀ entries, (∀ a ∈ entries, P a) → P (array entries))
    (object : ∀ m : Map, (∀ key a, m.get key = some a → P a) → P (object m)) : ∀ v, P v
  | .null => null
  | .bool b => bool b
  | .number n => number n
  | .string s => string s
  | .array entries => array entries fun a _h => inductionOn null bool number string array object a
  | .object m => object m fun key a _h => inductionOn null bool number string array object a
termination_by v => v
decreasing_by
  · have := List.sizeOf_lt_of_mem _h
    simp
    omega
  · have := Map.sizeOf_get _h
    simp
    omega

theorem same_refl (v : Value) : v.same v = true := by
  induction v using inductionOn with
  | array entries ih => exact same_array.2 (List.forall₂_same.2 ih)
  | object m ih =>
    refine same_object.2 fun key => ?_
    cases h : m.get key with
    | none => exact .none
    | some a => exact .some (ih key a h)
  | number n => simp [same, Number.same_iff]
  | _ => simp [same]

theorem of_array_same {as : List Value} {v : Value} (h : (array as).same v = true) :
    ∃ bs, v = array bs ∧ List.Forall₂ (fun a b => a.same b = true) as bs := by
  cases v with
  | array bs => exact ⟨bs, rfl, same_array.1 h⟩
  | _ => simp [same] at h

theorem of_object_same {m : Map} {v : Value} (h : (object m).same v = true) :
    ∃ n : Map, v = object n ∧
      ∀ key, Option.Rel (fun a b => same a b = true) (m.get key) (n.get key) := by
  cases v with
  | object n => exact ⟨n, rfl, same_object.1 h⟩
  | _ => simp [same] at h

theorem of_number_same {a : Number} {v : Value} (h : (number a).same v = true) :
    ∃ b, v = number b ∧ a.same b = true := by
  cases v with
  | number b =>
    rw [same] at h
    exact ⟨b, rfl, h⟩
  | _ => simp [same] at h

theorem same_symm {v w : Value} (h : v.same w = true) : w.same v = true := by
  induction v using inductionOn generalizing w with
  | array as ih =>
    obtain ⟨bs, rfl, hentries⟩ := of_array_same h
    exact same_array.2 (forall₂_imp_mem hentries fun a ha b hab => ih a ha hab).flip
  | object m ih =>
    obtain ⟨n, rfl, hkeys⟩ := of_object_same h
    exact same_object.2 fun key => rel_symm_mem (hkeys key) fun a ha b hab => ih key a ha hab
  | number a =>
    obtain ⟨b, rfl, hab⟩ := of_number_same h
    rw [same]
    exact Number.same_symm hab
  | _ => cases w <;> simp_all [same]

theorem same_trans {u v w : Value} (h : u.same v = true) (h' : v.same w = true) :
    u.same w = true := by
  induction u using inductionOn generalizing v w with
  | array as ih =>
    obtain ⟨bs, rfl, hentries⟩ := of_array_same h
    obtain ⟨cs, rfl, hentries'⟩ := of_array_same h'
    exact same_array.2
      (forall₂_trans_mem hentries hentries' fun a ha b c hab hbc => ih a ha hab hbc)
  | object m ih =>
    obtain ⟨n, rfl, hkeys⟩ := of_object_same h
    obtain ⟨o, rfl, hkeys'⟩ := of_object_same h'
    exact same_object.2 fun key => rel_trans_mem (hkeys key) (hkeys' key)
      fun a ha b c hab hbc => ih key a ha hab hbc
  | number a =>
    obtain ⟨b, rfl, hab⟩ := of_number_same h
    obtain ⟨c, rfl, hbc⟩ := of_number_same h'
    rw [same]
    exact Number.same_trans hab hbc
  | _ => cases v <;> cases w <;> simp_all [same]

end Value

instance : BEq Value := ⟨Value.same⟩

instance : EquivBEq Value where
  rfl := Value.same_refl _
  symm := Value.same_symm
  trans := Value.same_trans

end Json

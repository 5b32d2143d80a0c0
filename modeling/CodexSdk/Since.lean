import Mathlib.Data.List.Induction

/-!
# What has happened since

A machine that keeps a mark, set by some of its inputs and taken away by others, knows of its past
whether a setting input has come since the last one that takes away.  `Since` states this of the
list of inputs, and `holds_foldl_iff` reads the mark of a machine as such a statement.
-/

set_option autoImplicit false

namespace Past

variable {α σ : Type} {stop stop' p q : α → Prop}

/-- Some element has `p`, and none after it has `stop`. -/
def Since (stop p : α → Prop) (l : List α) : Prop :=
  ∃ before e after, l = before ++ e :: after ∧ p e ∧ ∀ x ∈ after, ¬ stop x

theorem not_since_nil : ¬ Since stop p [] := by
  rintro ⟨before, e, after, h, -⟩
  simp at h

theorem since_concat {l : List α} {e : α} :
    Since stop p (l ++ [e]) ↔ p e ∨ ¬ stop e ∧ Since stop p l := by
  constructor
  · rintro ⟨before, x, after, h, hx, hafter⟩
    rcases List.eq_nil_or_concat after with rfl | ⟨after, y, rfl⟩
    · obtain ⟨-, hxe⟩ := List.append_inj' h rfl
      rw [List.singleton_inj] at hxe
      exact .inl (hxe ▸ hx)
    · rw [List.concat_eq_append, ← List.cons_append, ← List.append_assoc] at h
      obtain ⟨hl, hey⟩ := List.append_inj' h rfl
      rw [List.singleton_inj] at hey
      refine .inr ⟨hey ▸ hafter y (by simp), before, x, after, hl, hx, fun z hz => ?_⟩
      exact hafter z (by simp [hz])
  · rintro (he | ⟨he, before, x, after, rfl, hx, hafter⟩)
    · exact ⟨l, e, [], rfl, he, by simp⟩
    · refine ⟨before, x, after ++ [e], by simp, hx, fun z hz => ?_⟩
      rcases List.mem_append.1 hz with hz | hz
      · exact hafter z hz
      · rwa [List.mem_singleton.1 hz]

/-- What matters is what holds of the elements of the list. -/
theorem Since.imp_of_mem {l : List α} (h : Since stop p l) (hp : ∀ e ∈ l, p e → q e)
    (hstop : ∀ e ∈ l, stop' e → stop e) : Since stop' q l := by
  obtain ⟨before, e, after, rfl, he, hafter⟩ := h
  refine ⟨before, e, after, rfl, hp e (by simp) he, fun x hx hx' => hafter x hx ?_⟩
  exact hstop x (by simp [hx]) hx'

theorem Since.mono {l : List α} (h : Since stop p l) (hp : ∀ e, p e → q e)
    (hstop : ∀ e, stop' e → stop e) : Since stop' q l :=
  h.imp_of_mem (fun e _ => hp e) fun e _ => hstop e

/-- Without an element that stops it is enough that something has happened. -/
theorem since_iff_exists {l : List α} (hstop : ∀ e ∈ l, ¬ stop e) :
    Since stop p l ↔ ∃ e ∈ l, p e := by
  constructor
  · rintro ⟨before, e, after, rfl, he, -⟩
    exact ⟨e, by simp, he⟩
  · rintro ⟨e, hmem, he⟩
    obtain ⟨before, after, rfl⟩ := List.append_of_mem hmem
    exact ⟨before, e, after, rfl, he, fun x hx => hstop x (by simp [hx])⟩

theorem since_or {l : List α} (h : Since stop (fun e => p e ∨ q e) l) :
    Since stop p l ∨ Since stop q l := by
  obtain ⟨before, e, after, hl, he, hafter⟩ := h
  exact he.imp (fun he => ⟨before, e, after, hl, he, hafter⟩)
    fun he => ⟨before, e, after, hl, he, hafter⟩

/-- **The mark of a machine that starts without it**: set by the inputs with `p`, taken away by
those with `stop`, and left alone by the others. -/
theorem holds_foldl_iff (holds : σ → Prop) {step : σ → α → σ}
    (hstep : ∀ s e, holds (step s e) ↔ p e ∨ ¬ stop e ∧ holds s) {s : σ} (hs : ¬ holds s)
    (l : List α) : holds (l.foldl step s) ↔ Since stop p l := by
  induction l using List.reverseRecOn with
  | nil => exact iff_of_false hs not_since_nil
  | append_singleton l e ih =>
    rw [List.foldl_append, List.foldl_cons, List.foldl_nil, hstep, since_concat, ih]

end Past

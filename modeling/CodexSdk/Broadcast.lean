import Mathlib.Data.List.Basic

/-!
# A bounded broadcast channel, as one receiver sees it

A broadcast channel keeps the last `capacity` messages, for all its receivers at once, and each
receiver has a position of its own.  A receiver whose next message has been overwritten is told how
many it missed, and goes on with the oldest one that is still there.

`recv` is one such answer.  `Accounts` relates the answers a receiver has had to what was
published: every message up to its position was handed out, in order, or is covered by a `lagged`.
It follows that a receiver that never lagged has had every message (`Accounts.eq_of_no_lag`), and
that one which stays within `capacity` of the sender never lags (`recv_ne_lagged`).
-/

set_option autoImplicit false

namespace Broadcast

variable {α : Type}

/-- What a receiver is answered. -/
inductive Answer (α : Type)
  | item (a : α)
  | lagged (skipped : Nat)
  | closed

/-- The next answer and the position after it; `none` when there is nothing to receive yet.
`closed` says that no sender is left. -/
def recv (capacity : Nat) (published : List α) (closed : Bool) (pos : Nat) :
    Option (Answer α × Nat) :=
  let oldest := published.length - capacity
  if pos < oldest then some (.lagged (oldest - pos), oldest)
  else match published[pos]? with
    | some a => some (.item a, pos + 1)
    | none => if closed then some (.closed, pos) else none

variable {capacity pos pos' : Nat} {published : List α} {closed : Bool} {answer : Answer α}
  {log : List (Answer α)}

/-- The three kinds of answer. -/
theorem recv_cases (h : recv capacity published closed pos = some (answer, pos')) :
    (∃ a, answer = .item a ∧ published[pos]? = some a ∧ pos' = pos + 1) ∨
    (∃ n, answer = .lagged n ∧ pos' = pos + n ∧ pos' ≤ published.length ∧
      capacity < published.length - pos) ∨
    (answer = .closed ∧ closed = true ∧ published.length ≤ pos ∧ pos' = pos) := by
  rw [recv] at h
  split at h
  · rename_i hlt
    cases h
    exact .inr (.inl ⟨_, rfl, by omega, by omega, by omega⟩)
  · split at h
    · rename_i a ha
      cases h
      exact .inl ⟨a, rfl, ha, rfl⟩
    · rename_i hnone
      split at h
      · rename_i hclosed
        cases h
        exact .inr (.inr ⟨rfl, hclosed, List.getElem?_eq_none_iff.1 hnone, rfl⟩)
      · cases h

/-- **A receiver that keeps up does not lag.** -/
theorem recv_ne_lagged (h : recv capacity published closed pos = some (answer, pos'))
    (hb : published.length - pos ≤ capacity) (n : Nat) : answer ≠ .lagged n := by
  rcases recv_cases h with ⟨a, rfl, -⟩ | ⟨n, rfl, -, -, hlt⟩ | ⟨rfl, -⟩
  · simp
  · omega
  · simp

/-- Every answer but the end of the channel moves the receiver. -/
theorem recv_advances (h : recv capacity published closed pos = some (answer, pos')) :
    pos < pos' ∨ answer = .closed := by
  rw [recv] at h
  split at h
  · cases h
    omega
  · split at h
    · cases h
      omega
    · split at h <;> cases h
      exact .inr rfl

/-- There is nothing to receive only at the end of an open channel. -/
theorem recv_eq_none (h : recv capacity published closed pos = none) :
    published.length ≤ pos ∧ closed = false := by
  rw [recv] at h
  split at h
  · cases h
  · split at h
    · cases h
    · rename_i hnone
      split at h
      · cases h
      · rename_i hclosed
        exact ⟨List.getElem?_eq_none_iff.1 hnone, by simpa using hclosed⟩

/-! ## What the answers account for -/

/-- The answers account for the first `pos` messages published. -/
inductive Accounts (published : List α) : List (Answer α) → Nat → Prop
  | nil : Accounts published [] 0
  | item {log : List (Answer α)} {pos : Nat} {a : α} (h : Accounts published log pos)
      (ha : published[pos]? = some a) : Accounts published (log ++ [.item a]) (pos + 1)
  | lagged {log : List (Answer α)} {pos n : Nat} (h : Accounts published log pos)
      (hn : pos + n ≤ published.length) : Accounts published (log ++ [.lagged n]) (pos + n)
  | closed {log : List (Answer α)} {pos : Nat} (h : Accounts published log pos) :
      Accounts published (log ++ [.closed]) pos

/-- Each answer accounts for what it moves the position over. -/
theorem Accounts.recv (h : Accounts published log pos)
    (hr : recv capacity published closed pos = some (answer, pos')) :
    Accounts published (log ++ [answer]) pos' := by
  rcases recv_cases hr with ⟨a, rfl, ha, rfl⟩ | ⟨n, rfl, rfl, hle, -⟩ | ⟨rfl, -, -, rfl⟩
  · exact h.item ha
  · exact h.lagged hle
  · exact h.closed

/-- Later messages change nothing. -/
theorem Accounts.publish (h : Accounts published log pos) (a : α) :
    Accounts (published ++ [a]) log pos := by
  induction h with
  | nil => exact .nil
  | @item log pos b _ hb ih =>
    have hlt : pos < published.length := (List.getElem?_eq_some_iff.1 hb).1
    exact ih.item (by rw [List.getElem?_append_left hlt, hb])
  | lagged _ hn ih => exact ih.lagged (by simp; omega)
  | closed _ ih => exact ih.closed

theorem Accounts.publish_all (h : Accounts published log pos) (new : List α) :
    Accounts (published ++ new) log pos := by
  induction new generalizing published with
  | nil => rwa [List.append_nil]
  | cons a new ih =>
    rw [← List.singleton_append, ← List.append_assoc]
    exact ih (h.publish a)

theorem Accounts.pos_le (h : Accounts published log pos) : pos ≤ published.length := by
  induction h with
  | nil => exact Nat.zero_le _
  | item _ ha _ => exact (List.getElem?_eq_some_iff.1 ha).1
  | lagged _ hn _ => exact hn
  | closed _ ih => exact ih

theorem Accounts.of_append_closed (h : Accounts published (log ++ [.closed]) pos) :
    Accounts published log pos := by
  generalize hl : log ++ [.closed] = l at h
  cases h with
  | nil => simp at hl
  | item => simpa using List.append_inj_right' hl rfl
  | lagged => simpa using List.append_inj_right' hl rfl
  | closed h => obtain rfl := List.append_inj_left' hl rfl; exact h

/-- The messages a log hands out. -/
def items (log : List (Answer α)) : List α :=
  log.filterMap fun answer => match answer with
    | .item a => some a
    | _ => none

theorem items_append_item (log : List (Answer α)) (a : α) :
    items (log ++ [.item a]) = items log ++ [a] := by
  rw [items, List.filterMap_append]
  rfl

theorem items_append_lagged (log : List (Answer α)) (skipped : Nat) :
    items (log ++ [.lagged skipped]) = items log := by
  rw [items, List.filterMap_append]
  exact List.append_nil _

theorem items_map_item (messages : List α) : items (messages.map .item) = messages := by
  induction messages with
  | nil => rfl
  | cons a messages ih => exact congrArg (a :: ·) ih

/-- **What is handed out was published, in that order.** -/
theorem Accounts.items_sublist (h : Accounts published log pos) :
    (items log).Sublist (published.take pos) := by
  induction h with
  | nil => exact List.nil_sublist _
  | @item log pos a _ ha ih =>
    rw [items, List.filterMap_append, List.take_add_one, ha]
    exact ih.append (List.Sublist.refl _)
  | @lagged log pos n _ _ ih =>
    rw [items, List.filterMap_append]
    simpa [items] using ih.trans (List.take_sublist_take_left (Nat.le_add_right pos n))
  | closed _ ih => simpa [items, List.filterMap_append] using ih

/-- **A receiver that has not lagged has had everything** up to its position. -/
theorem Accounts.eq_of_no_lag (h : Accounts published log pos) (hlag : ∀ n, .lagged n ∉ log)
    (hclosed : .closed ∉ log) : log = (published.take pos).map .item := by
  induction h with
  | nil => rfl
  | @item log pos a _ ha ih =>
    simp only [List.mem_append, not_or] at hlag hclosed
    rw [List.take_add_one, ha, List.map_append, ← ih (fun n => (hlag n).1) hclosed.1]
    rfl
  | @lagged log pos n _ _ _ => exact absurd (by simp) (hlag n)
  | closed _ _ => exact absurd (by simp) hclosed

end Broadcast

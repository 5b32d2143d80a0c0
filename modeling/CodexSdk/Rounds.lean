import Mathlib.Data.List.Basic

/-!
# Loops that react to a stream of inputs

A loop that receives one input after the other, carries a state, and for each input either goes on
in silence, sends one output and goes on, or sends a last output and ends.  `emitted` is what such a
loop sends in all, and `stateAfter` the state it is in, unless it has ended.

`Separates.emitted_cases` is the normal form of a loop whose rounds separate: the outputs are the
image of the inputs before the first ending one, and then the last output.  `emitted_erased` says
which inputs can be left out.
-/

set_option autoImplicit false

namespace Rounds

/-- One round. -/
inductive Round (σ ε : Type)
  | quiet (s : σ)
  | emit (e : ε)
  | finish (e : ε)

variable {σ ι ε : Type} (round : σ → ι → Round σ ε)

/-- Everything the loop sends, started in `s`. -/
def emitted : σ → List ι → List ε
  | _, [] => []
  | s, i :: is => match round s i with
    | .quiet s' => emitted s' is
    | .emit e => e :: emitted s is
    | .finish e => [e]

/-- The state the loop is in after the inputs; `none` when it has ended. -/
def stateAfter : σ → List ι → Option σ
  | s, [] => some s
  | s, i :: is => match round s i with
    | .quiet s' => stateAfter s' is
    | .emit _ => stateAfter s is
    | .finish _ => none

/-- What the loop goes on to send, if it has not ended. -/
def emittedFrom (s : Option σ) (is : List ι) : List ε :=
  match s with
  | some s => emitted round s is
  | none => []

theorem emitted_append (s : σ) (is js : List ι) :
    emitted round s (is ++ js)
      = emitted round s is ++ emittedFrom round (stateAfter round s is) js := by
  induction is generalizing s with
  | nil => rfl
  | cons i is ih =>
    simp only [List.cons_append, emitted, stateAfter]
    cases round s i with
    | quiet s' => exact ih s'
    | emit e => exact congrArg (e :: ·) (ih s)
    | finish e => rfl

theorem stateAfter_append (s : σ) (is js : List ι) :
    stateAfter round s (is ++ js) =
      (stateAfter round s is).bind fun s' => stateAfter round s' js := by
  induction is generalizing s with
  | nil => rfl
  | cons i is ih =>
    simp only [List.cons_append, stateAfter]
    cases round s i with
    | quiet s' => exact ih s'
    | emit e => exact ih s
    | finish e => rfl

/-- An input that leaves no trace, whatever the state. -/
def Invisible (i : ι) : Prop := ∀ s, round s i = .quiet s

variable {round}

theorem emitted_cons_of_invisible {i : ι} (h : Invisible round i) (s : σ) (is : List ι) :
    emitted round s (i :: is) = emitted round s is := by
  rw [emitted, h s]

/-- `js` is `is` without some of its inputs in `D`. -/
inductive Erased (D : ι → Prop) : List ι → List ι → Prop
  | nil : Erased D [] []
  | keep {is js : List ι} (i : ι) (h : Erased D is js) : Erased D (i :: is) (i :: js)
  | drop {is js : List ι} {i : ι} (hi : D i) (h : Erased D is js) : Erased D (i :: is) js

theorem Erased.refl {D : ι → Prop} (is : List ι) : Erased D is is := by
  induction is with
  | nil => exact .nil
  | cons i is ih => exact .keep i ih

/-- Leaving out one input, wherever it stands. -/
theorem Erased.middle {D : ι → Prop} {i : ι} (hi : D i) (is js : List ι) :
    Erased D (is ++ i :: js) (is ++ js) := by
  induction is with
  | nil => exact .drop hi (.refl js)
  | cons j is ih => exact .keep j ih

theorem Erased.map {κ : Type} {f : ι → κ} {D : ι → Prop} {D' : κ → Prop} {is js : List ι}
    (h : Erased D is js) (hD : ∀ i, D i → D' (f i)) : Erased D' (is.map f) (js.map f) := by
  induction h with
  | nil => exact .nil
  | keep i _ ih => exact .keep (f i) ih
  | drop hi _ ih => exact .drop (hD _ hi) ih

/-- **Invisible inputs can be left out**, any number of them and wherever they stand. -/
theorem emitted_erased {D : ι → Prop} {is js : List ι} (h : Erased D is js)
    (hD : ∀ i, D i → Invisible round i) (s : σ) : emitted round s js = emitted round s is := by
  induction h generalizing s with
  | nil => rfl
  | @keep is js i _ ih =>
    rw [emitted, emitted]
    cases round s i with
    | quiet s' => exact ih s'
    | emit e => exact congrArg (e :: ·) (ih s)
    | finish e => rfl
  | @drop is js i hi _ ih => rw [ih, emitted_cons_of_invisible (hD i hi)]

/-- What a round sends, if anything, satisfies `P`. -/
def Round.All (P : ε → Prop) : Round σ ε → Prop
  | .quiet _ => True
  | .emit e | .finish e => P e

theorem emitted_all {P : ε → Prop} (h : ∀ s i, (round s i).All P) (s : σ) (is : List ι) :
    ∀ e ∈ emitted round s is, P e := by
  induction is generalizing s with
  | nil => simp [emitted]
  | cons i is ih =>
    have hround := h s i
    rw [emitted]
    cases hi : round s i with
    | quiet s' => exact ih s'
    | emit e =>
      rw [hi] at hround
      exact List.forall_mem_cons.2 ⟨hround, ih s⟩
    | finish e =>
      rw [hi] at hround
      exact List.forall_mem_cons.2 ⟨hround, by simp⟩

/-- A loop whose rounds separate: `ends` says which inputs end it, `last` what it then sends,
`image` what the other inputs make it send, and `next` how the silent ones change its state. -/
structure Separates (round : σ → ι → Round σ ε) (ends : ι → Bool) (last : σ → ι → ε)
    (image : ι → Option ε) (next : σ → ι → σ) : Prop where
  finish : ∀ s i, ends i = true → round s i = .finish (last s i)
  emit : ∀ s i e, ends i = false → image i = some e → round s i = .emit e ∧ next s i = s
  quiet : ∀ s i, ends i = false → image i = none → round s i = .quiet (next s i)

variable {ends : ι → Bool} {last : σ → ι → ε} {image : ι → Option ε} {next : σ → ι → σ}

/-- An input that does not end a separating loop adds its image to what the loop sends. -/
theorem Separates.emitted_cons (h : Separates round ends last image next) {i : ι}
    (he : ends i = false) (s : σ) (is : List ι) :
    emitted round s (i :: is) = (image i).toList ++ emitted round (next s i) is := by
  rw [emitted]
  cases hi : image i with
  | none => rw [h.quiet s i he hi]; rfl
  | some e => obtain ⟨hr, hn⟩ := h.emit s i e he hi; rw [hr, hn]; rfl

theorem filterMap_cons_toList (i : ι) (is : List ι) :
    (i :: is).filterMap image = (image i).toList ++ is.filterMap image := by
  cases hi : image i <;> simp [hi]

/-- What a separating loop sends for inputs that do not end it, and then for others. -/
theorem Separates.emitted_pre (h : Separates round ends last image next) {pre : List ι}
    (hpre : ∀ i ∈ pre, ends i = false) (s : σ) (is : List ι) :
    emitted round s (pre ++ is) = pre.filterMap image ++ emitted round (pre.foldl next s) is := by
  induction pre generalizing s with
  | nil => rfl
  | cons i pre ih =>
    obtain ⟨hi, hpre⟩ := List.forall_mem_cons.1 hpre
    rw [List.cons_append, h.emitted_cons hi, ih hpre, filterMap_cons_toList, List.append_assoc,
      List.foldl_cons]

/-- What a separating loop sends when an input ends it. -/
theorem Separates.emitted_of_ends (h : Separates round ends last image next) {pre : List ι} {i : ι}
    (hpre : ∀ j ∈ pre, ends j = false) (hi : ends i = true) (post : List ι) (s : σ) :
    emitted round s (pre ++ i :: post) = pre.filterMap image ++ [last (pre.foldl next s) i] := by
  induction pre generalizing s with
  | nil => rw [List.nil_append, emitted, h.finish s i hi]; rfl
  | cons j pre ih =>
    obtain ⟨hj, hpre⟩ := List.forall_mem_cons.1 hpre
    rw [List.cons_append, h.emitted_cons hj, ih hpre, filterMap_cons_toList, List.append_assoc,
      List.foldl_cons]

/-- What a separating loop sends when none does. -/
theorem Separates.emitted_of_not_ends (h : Separates round ends last image next) {is : List ι}
    (hno : ∀ i ∈ is, ends i = false) (s : σ) : emitted round s is = is.filterMap image := by
  induction is generalizing s with
  | nil => rfl
  | cons i is ih =>
    obtain ⟨hi, hno⟩ := List.forall_mem_cons.1 hno
    rw [h.emitted_cons hi, ih hno, filterMap_cons_toList]

/-- **The normal form of a separating loop**: if no input ends it, the outputs are the image of the
inputs; otherwise they are the image of those before the first ending one, and one last output. -/
theorem Separates.emitted_cases (h : Separates round ends last image next) (s : σ)
    (is : List ι) :
    ((∀ i ∈ is, ends i = false) ∧ emitted round s is = is.filterMap image) ∨
    ∃ pre i post, is = pre ++ i :: post ∧ (∀ j ∈ pre, ends j = false) ∧ ends i = true ∧
      emitted round s is = pre.filterMap image ++ [last (pre.foldl next s) i] := by
  cases hfind : is.find? ends with
  | none =>
    have hno : ∀ i ∈ is, ends i = false := by simpa using hfind
    exact .inl ⟨hno, h.emitted_of_not_ends hno s⟩
  | some i =>
    obtain ⟨hi, pre, post, rfl, hpre⟩ := List.find?_eq_some_iff_append.1 hfind
    have hpre' : ∀ j ∈ pre, ends j = false := by simpa using hpre
    exact .inr ⟨pre, i, post, rfl, hpre', hi, h.emitted_of_ends hpre' hi post s⟩

/-! ## Readers

A reader goes through a stream up to the first item that settles it, and answers with its verdict on
that item, or with what it makes of a stream that ends without one. -/

/-- **A reader answers by the first settling item**, whatever state it has gone through. -/
theorem reader_eq {α β : Type} {f : σ → List α → β} {settles : α → Bool} {closed : β}
    {verdict : α → β} (hclosed : ∀ s, f s [] = closed)
    (hsettled : ∀ s x xs, settles x = true → f s (x :: xs) = verdict x)
    (hskipped : ∀ s x xs, settles x = false → ∃ s', f s (x :: xs) = f s' xs) (s : σ)
    (xs : List α) : f s xs = ((xs.find? settles).map verdict).getD closed := by
  induction xs generalizing s with
  | nil => exact hclosed s
  | cons x xs ih =>
    cases hx : settles x with
    | true =>
      rw [hsettled s x xs hx, List.find?_cons_of_pos hx]
      rfl
    | false =>
      obtain ⟨s', hs'⟩ := hskipped s x xs hx
      rw [hs', ih s', List.find?_cons_of_neg (by simp [hx])]

end Rounds

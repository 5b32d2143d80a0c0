import Mathlib.Data.List.Induction
import Mathlib.Data.List.Infix

/-!
# Unix paths

A path as the sequence of its components, by which paths are compared: whether it starts at the
root, and the names below.  Joining, the parent and the ancestors of a path are operations on that
sequence.

A search that goes upwards looks at a path, its parent and so on (`climb`), and stops below some
directories and at others.  `find_climb` says what it finds: an ancestor with nothing between it and
the start at which the search would have ended.
-/

set_option autoImplicit false

namespace Unix

/-- A path that does not start at the root may have a dot as its first name. -/
structure PathBuf where
  rooted : Bool
  names : List String
  deriving DecidableEq

namespace PathBuf

/-- The names between slashes, of which a dot says nothing. -/
def named (parts : List (List Char)) : List String :=
  (parts.filter fun part => !part.isEmpty && part != ['.']).map String.ofList

/-- The components of a text. -/
def parse (text : String) : PathBuf :=
  match text.toList with
  | '/' :: rest => ⟨true, named (rest.splitOn '/')⟩
  | chars => match chars.splitOn '/' with
    | ['.'] :: rest => ⟨false, "." :: named rest⟩
    | parts => ⟨false, named parts⟩

def isAbsolute (p : PathBuf) : Bool := p.rooted

def parent (p : PathBuf) : Option PathBuf :=
  if p.names.isEmpty then none else some ⟨p.rooted, p.names.dropLast⟩

/-- A path that starts at the root replaces the one it is joined to. -/
def join (p q : PathBuf) : PathBuf :=
  if q.rooted then q
  else if p.rooted || !p.names.isEmpty then
    ⟨p.rooted, p.names ++ if q.names.head? = some "." then q.names.tail else q.names⟩
  else q

/-- The text of the components. -/
def display (p : PathBuf) : String :=
  (if p.rooted then "/" else "") ++ "/".intercalate p.names

/-- The path, its parent, and so on. -/
def ancestors (p : PathBuf) : List PathBuf :=
  p.names.inits.reverse.map fun names => ⟨p.rooted, names⟩

/-- The path is the other one or above it. -/
def Above (p q : PathBuf) : Prop := p.rooted = q.rooted ∧ p.names <+: q.names

/-- A text without slashes is one name. -/
theorem parse_name {text : String} (h : '/' ∉ text.toList) (hne : text ≠ "") (hdot : text ≠ ".") :
    parse text = ⟨false, [text]⟩ := by
  have hsplit : text.toList.splitOn '/' = [text.toList] := List.splitOn_eq_singleton h
  have hne' : text.toList ≠ [] := by simpa using hne
  have hdot' : text.toList ≠ ['.'] := fun heq => hdot (String.toList_inj.1 heq)
  rw [parse]
  split
  · rename_i rest heq
    simp [heq] at h
  · rw [hsplit]
    split
    · rename_i rest heq
      exact absurd (List.cons.inj heq).1 hdot'
    · simp [named, hne', hdot']

theorem join_rooted {p q : PathBuf} (hq : q.rooted = false) : (p.join q).rooted = p.rooted := by
  obtain ⟨rooted, names⟩ := p
  rw [join, hq]
  cases rooted <;> cases names <;> simp [hq]

/-- A path that starts with a name is put behind one that starts at the root. -/
theorem join_names {names names' : List String} (h : names'.head? ≠ some ".") :
    join ⟨true, names⟩ ⟨false, names'⟩ = ⟨true, names ++ names'⟩ := by
  rw [join, if_neg h]
  rfl

theorem above_refl (p : PathBuf) : p.Above p := ⟨rfl, List.prefix_refl _⟩

theorem Above.antisymm {p q : PathBuf} (h : p.Above q) (h' : q.Above p) : p = q := by
  obtain ⟨rooted, names⟩ := p
  obtain ⟨rooted', names'⟩ := q
  obtain rfl : rooted = rooted' := h.1
  obtain rfl : names = names' := h.2.eq_of_length (Nat.le_antisymm h.2.length_le h'.2.length_le)
  rfl

/-- Above a path are the path itself and what is above its parent. -/
theorem above_concat {q : PathBuf} {rooted : Bool} {names : List String} {name : String} :
    q.Above ⟨rooted, names ++ [name]⟩ ↔
      q = ⟨rooted, names ++ [name]⟩ ∨ q.Above ⟨rooted, names⟩ := by
  obtain ⟨rooted', names'⟩ := q
  rw [Above, Above, List.prefix_concat_iff, PathBuf.mk.injEq, and_or_left]

theorem above_nil {q : PathBuf} {rooted : Bool} : q.Above ⟨rooted, []⟩ ↔ q = ⟨rooted, []⟩ := by
  obtain ⟨rooted', names'⟩ := q
  rw [Above, List.prefix_nil, PathBuf.mk.injEq]

/-- One of two paths above a third is above the other. -/
theorem Above.total {p q r : PathBuf} (hp : p.Above r) (hq : q.Above r) : p.Above q ∨ q.Above p :=
  (List.prefix_or_prefix_of_prefix hp.2 hq.2).imp (⟨hp.1.trans hq.1.symm, ·⟩)
    (⟨hq.1.trans hp.1.symm, ·⟩)

theorem ancestors_concat (rooted : Bool) (names : List String) (name : String) :
    ancestors ⟨rooted, names ++ [name]⟩ =
      ⟨rooted, names ++ [name]⟩ :: ancestors ⟨rooted, names⟩ := by
  simp [ancestors, List.inits_append]

/-- The parents are followed up to a path that has none. -/
theorem ancestors_eq (p : PathBuf) : p.ancestors = p :: (p.parent.map ancestors).getD [] := by
  obtain ⟨rooted, names⟩ := p
  rcases List.eq_nil_or_concat names with rfl | ⟨names, name, rfl⟩
  · rfl
  · rw [List.concat_eq_append, ancestors_concat]
    simp [parent]

/-! ## Searching upwards -/

section

variable (stopsBelow stopsAt : PathBuf → Bool)

/-- The paths a search looks at, the nearest first. -/
def climb : List PathBuf → List PathBuf
  | [] => []
  | p :: above =>
    if stopsBelow p then [] else p :: if stopsAt p then [] else climb above

variable {stopsBelow stopsAt} {found : PathBuf → Bool}

/-- The search passes the path without an end. -/
def Passed (stopsBelow stopsAt found : PathBuf → Bool) (p : PathBuf) : Prop :=
  stopsBelow p = false ∧ stopsAt p = false ∧ found p = false

theorem find_climb_cons {p q : PathBuf} {above : List PathBuf} :
    (climb stopsBelow stopsAt (p :: above)).find? found = some q ↔
      stopsBelow p = false ∧ found p = true ∧ q = p ∨
        Passed stopsBelow stopsAt found p ∧
          (climb stopsBelow stopsAt above).find? found = some q := by
  rw [climb, Passed]
  cases stopsBelow p with
  | true => simp
  | false => cases hfound : found p with
    | true =>
      simp only [Bool.false_eq_true, if_false, List.find?_cons, hfound]
      simpa using eq_comm
    | false => cases stopsAt p <;> simp [hfound]

/-- What a search that starts at `start` finds. -/
def Finds (stopsBelow stopsAt found : PathBuf → Bool) (start q : PathBuf) : Prop :=
  q.Above start ∧ stopsBelow q = false ∧ found q = true ∧
    ∀ d, q.Above d → d.Above start → d ≠ q → Passed stopsBelow stopsAt found d

/-- The start is found, or is passed on the way to what is found above it. -/
theorem finds_iff (start : PathBuf) {q : PathBuf} : Finds stopsBelow stopsAt found start q ↔
    stopsBelow start = false ∧ found start = true ∧ q = start ∨
      Passed stopsBelow stopsAt found start ∧ q ≠ start ∧
        Finds stopsBelow stopsAt found start q := by
  constructor
  · intro h
    by_cases hq : q = start
    · subst hq
      exact .inl ⟨h.2.1, h.2.2.1, rfl⟩
    · exact .inr ⟨h.2.2.2 start h.1 (above_refl start) fun heq => hq heq.symm, hq, h⟩
  · rintro (⟨hbelow, hfound, rfl⟩ | ⟨-, -, h⟩)
    · exact ⟨above_refl q, hbelow, hfound, fun d hq hd hne => absurd (hd.antisymm hq) hne⟩
    · exact h

theorem finds_concat {rooted : Bool} {names : List String} {name : String} {q : PathBuf}
    (hpassed : Passed stopsBelow stopsAt found ⟨rooted, names ++ [name]⟩)
    (hq : q ≠ ⟨rooted, names ++ [name]⟩) :
    Finds stopsBelow stopsAt found ⟨rooted, names ++ [name]⟩ q ↔
      Finds stopsBelow stopsAt found ⟨rooted, names⟩ q := by
  constructor
  · rintro ⟨habove, hbelow, hfound, hbetween⟩
    exact ⟨(above_concat.1 habove).resolve_left hq, hbelow, hfound,
      fun d hd hd' => hbetween d hd (above_concat.2 (.inr hd'))⟩
  · rintro ⟨habove, hbelow, hfound, hbetween⟩
    refine ⟨above_concat.2 (.inr habove), hbelow, hfound, fun d hd hd' hne => ?_⟩
    rcases above_concat.1 hd' with rfl | hd'
    · exact hpassed
    · exact hbetween d hd hd' hne

/-- **What a search upwards finds**: the nearest ancestor it looks for, if nothing has stopped it
before. -/
theorem find_climb {start q : PathBuf} :
    (climb stopsBelow stopsAt start.ancestors).find? found = some q ↔
      Finds stopsBelow stopsAt found start q := by
  obtain ⟨rooted, names⟩ := start
  induction names using List.reverseRecOn with
  | nil =>
    rw [show ancestors ⟨rooted, []⟩ = [⟨rooted, []⟩] from rfl, find_climb_cons, finds_iff]
    refine or_congr_right (iff_of_false (by simp [climb]) ?_)
    rintro ⟨-, hne, habove, -⟩
    exact hne (above_nil.1 habove)
  | append_singleton names name ih =>
    rw [ancestors_concat, find_climb_cons, ih, finds_iff ⟨rooted, names ++ [name]⟩]
    refine or_congr_right (and_congr_right fun hpassed => ⟨fun h => ?_, fun h => ?_⟩)
    · have hne : q ≠ ⟨rooted, names ++ [name]⟩ := by
        rintro rfl
        have hle := h.1.2.length_le
        simp only [List.length_append, List.length_singleton] at hle
        omega
      exact ⟨hne, (finds_concat hpassed hne).2 h⟩
    · exact (finds_concat hpassed h.1).1 h.2

end

end PathBuf

end Unix

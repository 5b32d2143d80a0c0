import Mathlib.Data.List.DropRight
import Mathlib.Data.List.TakeWhile

/-!
# Text, cut at its separators

The operations a scanner built from string splits is made of, on lists of characters: trimming,
lowering, the segment before the first separator and the part after the last one.

What is proved about each of them is what it does to a text that was put together from pieces: a
piece free of separators is cut off whole (`firstSegment_append`, `rsplitOnce_append`), a piece
that ends in a visible character survives the trimming of what follows it (`trim_append`), and
lowering goes through pieces and separators alike.  The other way round, `trim_spec`,
`firstSegment_spec` and `rsplitOnce_spec` put a text together again from what they made of it.
-/

set_option autoImplicit false

namespace Text

/-- The characters with the Unicode property `White_Space`. -/
def isWhitespace (c : Char) : Bool :=
  let n := c.toNat
  (9 ≤ n && n ≤ 13) || n == 0x20 || n == 0x85 || n == 0xA0 || n == 0x1680 ||
    (0x2000 ≤ n && n ≤ 0x200A) || n == 0x2028 || n == 0x2029 || n == 0x202F || n == 0x205F ||
    n == 0x3000

/-- `str::trim`. -/
def trim (s : List Char) : List Char := (s.dropWhile isWhitespace).rdropWhile isWhitespace

/-- `str::to_ascii_lowercase`: characters outside `A`–`Z` stay. -/
def toAsciiLowercase (s : List Char) : List Char := s.map Char.toLower

/-- `str::split(sep).next()`: the text up to the first separator. -/
def firstSegment (sep : Char → Bool) (s : List Char) : List Char := s.takeWhile fun c => !sep c

/-- `str::rsplit_once`: the text before and after the last `sep`. -/
def rsplitOnce (sep : Char) : List Char → Option (List Char × List Char)
  | [] => none
  | c :: s =>
    match rsplitOnce sep s with
    | some (before, after) => some (c :: before, after)
    | none => if c = sep then some ([], s) else none

/-- `str::split_once`: the text before and after the first `sep`. -/
def splitOnce (sep : Char) : List Char → Option (List Char × List Char)
  | [] => none
  | c :: s => if c = sep then some ([], s)
    else (splitOnce sep s).map fun (before, after) => (c :: before, after)

/-- `str::find`, cutting the text at the end of the first occurrence of the pattern. -/
def splitAfter (pattern : List Char) : List Char → Option (List Char × List Char)
  | [] => if pattern = [] then some ([], []) else none
  | c :: s => if pattern.isPrefixOf (c :: s) then some (pattern, (c :: s).drop pattern.length)
    else (splitAfter pattern s).map fun (before, after) => (c :: before, after)

/-- `str::lines`, with the characters of the current line in reverse. -/
def linesFrom : List Char → List Char → List (List Char)
  | [], [] => []
  | line, [] => [line.reverse]
  | '\r' :: line, '\n' :: s => line.reverse :: linesFrom [] s
  | line, '\n' :: s => line.reverse :: linesFrom [] s
  | line, c :: s => linesFrom (c :: line) s

/-- `str::lines`: a line ends in a newline, or a carriage return and a newline, which are not part
of it; the last line need not end. -/
def lines (s : List Char) : List (List Char) := linesFrom [] s

/-! ## Trimming -/

theorem rdropWhile_append {α : Type} (p : α → Bool) (a b : List α) :
    (a ++ b).rdropWhile p = if b.all p then a.rdropWhile p else a ++ b.rdropWhile p := by
  rw [List.rdropWhile, List.reverse_append, List.dropWhile_append]
  have hall : (b.reverse.dropWhile p).isEmpty = b.all p := by
    rw [Bool.eq_iff_iff, List.isEmpty_iff, List.dropWhile_eq_nil_iff, List.all_eq_true]
    simp only [List.mem_reverse]
  rw [hall]
  split
  · rfl
  · rw [List.reverse_append, List.reverse_reverse, List.rdropWhile]

/-- What follows the last visible character is trimmed by itself. -/
theorem rdropWhile_append_of_last {α : Type} {p : α → Bool} {a : List α} {c : α}
    (hc : p c = false) (b : List α) :
    (a ++ c :: b).rdropWhile p = a ++ c :: b.rdropWhile p := by
  have hcons : (c :: b).rdropWhile p = c :: b.rdropWhile p := by
    have h := rdropWhile_append p [c] b
    rw [List.rdropWhile_singleton, hc] at h
    split at h
    · rename_i hb
      have hnil := List.rdropWhile_eq_nil_iff.2 (List.all_eq_true.1 hb)
      rw [hnil]
      exact h
    · exact h
  rw [rdropWhile_append, List.all_cons, hc, Bool.false_and, if_neg Bool.false_ne_true, hcons]

/-- **Trimming a text that starts and ends visibly**, with more text after it, trims only the end
of what follows. -/
theorem trim_append {a b : List Char} (hhead : ∀ c ∈ a.head?, isWhitespace c = false)
    (hlast : ∃ init c, a = init ++ [c] ∧ isWhitespace c = false) :
    trim (a ++ b) = a ++ b.rdropWhile isWhitespace := by
  obtain ⟨init, c, rfl, hc⟩ := hlast
  have hdrop : (init ++ [c] ++ b).dropWhile isWhitespace = init ++ [c] ++ b := by
    cases init with
    | nil => exact List.dropWhile_cons_of_neg (by simp [hc])
    | cons x rest => exact List.dropWhile_cons_of_neg (by simp [hhead x rfl])
  rw [trim, hdrop, List.append_assoc, List.singleton_append, rdropWhile_append_of_last hc,
    List.append_assoc, List.singleton_append]

theorem trim_spec (s : List Char) : ∃ before after, s = before ++ (trim s ++ after) ∧
    (∀ c ∈ before, isWhitespace c = true) ∧ ∀ c ∈ after, isWhitespace c = true := by
  refine ⟨s.takeWhile isWhitespace, (s.dropWhile isWhitespace).rtakeWhile isWhitespace, ?_,
    fun c hc => List.mem_takeWhile_imp hc, fun c hc => List.mem_rtakeWhile_imp hc⟩
  rw [trim, List.rdropWhile_append_rtakeWhile, List.takeWhile_append_dropWhile]

/-- `t` is `s` without the blanks around it. -/
def Trims (s t : List Char) : Prop :=
  (∃ before after, s = before ++ (t ++ after) ∧ (∀ c ∈ before, isWhitespace c = true) ∧
    ∀ c ∈ after, isWhitespace c = true) ∧
  (∀ c ∈ t.head?, isWhitespace c = false) ∧ ∀ c ∈ t.getLast?, isWhitespace c = false

theorem trim_blank_append {before : List Char} (h : ∀ c ∈ before, isWhitespace c = true)
    (s : List Char) : trim (before ++ s) = trim s := by
  rw [trim, List.dropWhile_append_of_pos h, trim]

theorem trim_eq_nil_iff {s : List Char} : trim s = [] ↔ ∀ c ∈ s, isWhitespace c = true := by
  constructor
  · intro h
    obtain ⟨before, after, hs, hbefore, hafter⟩ := trim_spec s
    rw [h, List.nil_append] at hs
    rw [hs]
    exact fun c hc => (List.mem_append.1 hc).elim (hbefore c) (hafter c)
  · intro h
    have hnil := trim_blank_append h []
    rwa [List.append_nil] at hnil

theorem head_trim (s : List Char) : ∀ c ∈ (trim s).head?, isWhitespace c = false := by
  intro c hc
  rw [trim, Option.mem_def] at hc
  obtain ⟨rest, hrest⟩ := List.rdropWhile_prefix isWhitespace (s.dropWhile isWhitespace)
  have hdrop := List.head?_dropWhile_not isWhitespace s
  have hhead : (s.dropWhile isWhitespace).head? = some c := by
    rw [← hrest, List.head?_append, hc, Option.some_or]
  rwa [hhead] at hdrop

theorem getLast_trim (s : List Char) : ∀ c ∈ (trim s).getLast?, isWhitespace c = false := by
  intro c hc
  have hne : trim s ≠ [] := by
    intro hnil
    rw [hnil] at hc
    cases hc
  rw [List.getLast?_eq_some_getLast hne, Option.mem_some_iff] at hc
  rw [← hc]
  exact Bool.eq_false_iff.2 (List.rdropWhile_last_not isWhitespace _ hne)

/-- **Trimming** takes the blanks around a text, and nothing else. -/
theorem trims_iff {s t : List Char} : Trims s t ↔ trim s = t := by
  constructor
  · rintro ⟨⟨before, after, rfl, hbefore, hafter⟩, hhead, hlast⟩
    rw [trim_blank_append hbefore]
    rcases List.eq_nil_or_concat t with rfl | ⟨init, c, rfl⟩
    · exact trim_eq_nil_iff.2 hafter
    · rw [List.concat_eq_append] at hhead hlast ⊢
      rw [trim_append hhead ⟨init, c, rfl, hlast c (by simp)⟩, List.rdropWhile_eq_nil_iff.2 hafter,
        List.append_nil]
  · rintro rfl
    exact ⟨trim_spec s, head_trim s, getLast_trim s⟩

/-! ## Lowering -/

theorem isAlpha_iff {c : Char} : c.isAlpha = true ↔
    (65 ≤ c.toNat ∧ c.toNat ≤ 90) ∨ (97 ≤ c.toNat ∧ c.toNat ≤ 122) := by
  show (decide (c.val ≥ 'A'.val ∧ c.val ≤ 'Z'.val) ||
    (decide (c.val ≥ 'a'.val) && decide (c.val ≤ 'z'.val))) = true ↔ _
  rw [Bool.or_eq_true, Bool.and_eq_true, decide_eq_true_eq, decide_eq_true_eq, decide_eq_true_eq]
  exact Iff.rfl

theorem isAlphanum_iff {c : Char} : c.isAlphanum = true ↔
    (65 ≤ c.toNat ∧ c.toNat ≤ 90) ∨ (97 ≤ c.toNat ∧ c.toNat ≤ 122) ∨
      (48 ≤ c.toNat ∧ c.toNat ≤ 57) := by
  show (c.isAlpha || (decide (c.val ≥ '0'.val) && decide (c.val ≤ '9'.val))) = true ↔ _
  rw [Bool.or_eq_true, isAlpha_iff, or_assoc, Bool.and_eq_true, decide_eq_true_eq,
    decide_eq_true_eq]
  exact Iff.rfl

theorem toNat_toLower (c : Char) :
    c.toLower.toNat = if 65 ≤ c.toNat ∧ c.toNat ≤ 90 then c.toNat + 32 else c.toNat := by
  delta Char.toLower
  split
  · rename_i h
    have hle : c.toNat ≤ 90 := h.2
    have hdiff : ('a'.val - 'A'.val).toNat = 32 := rfl
    have hval : c.toNat = c.val.toNat := rfl
    rw [if_pos ⟨h.1, hle⟩]
    show (c.val + ('a'.val - 'A'.val)).toNat = c.val.toNat + 32
    rw [UInt32.toNat_add, hdiff]
    omega
  · rename_i h
    exact (if_neg h).symm

/-- Lowering leaves a character that is no letter where it is, and makes no other into it. -/
theorem toLower_eq_iff {c d : Char} (hd : d.isAlpha = false) : c.toLower = d ↔ c = d := by
  rw [Bool.eq_false_iff, Ne, isAlpha_iff] at hd
  rw [← Char.toNat_inj, ← Char.toNat_inj, toNat_toLower]
  split <;> omega

@[simp] theorem toAsciiLowercase_append (a b : List Char) :
    toAsciiLowercase (a ++ b) = toAsciiLowercase a ++ toAsciiLowercase b := List.map_append

@[simp] theorem toAsciiLowercase_cons (c : Char) (s : List Char) :
    toAsciiLowercase (c :: s) = c.toLower :: toAsciiLowercase s := rfl

@[simp] theorem toAsciiLowercase_nil : toAsciiLowercase [] = [] := rfl

/-- A separator is in the lowered text exactly when it was in the text. -/
theorem mem_toAsciiLowercase {d : Char} (hd : d.isAlpha = false) {s : List Char} :
    d ∈ toAsciiLowercase s ↔ d ∈ s := by
  rw [toAsciiLowercase, List.mem_map]
  constructor
  · rintro ⟨c, hc, h⟩
    exact (toLower_eq_iff hd).1 h ▸ hc
  · exact fun h => ⟨d, h, (toLower_eq_iff hd).2 rfl⟩

theorem isAlpha_toLower (c : Char) : c.toLower.isAlpha = c.isAlpha := by
  rw [Bool.eq_iff_iff, isAlpha_iff, isAlpha_iff, toNat_toLower]
  split <;> omega

theorem isAlphanum_toLower (c : Char) : c.toLower.isAlphanum = c.isAlphanum := by
  rw [Bool.eq_iff_iff, isAlphanum_iff, isAlphanum_iff, toNat_toLower]
  split <;> omega

theorem eq_false_of_any {p : Char → Bool} {s : List Char} (h : s.any p = false) :
    ∀ c ∈ s, p c = false := fun c hc =>
  Bool.eq_false_iff.2 (List.any_eq_false.1 h c hc)

/-- A text without letters is what nothing else is lowered to. -/
theorem toAsciiLowercase_eq_iff {s t : List Char} (ht : t.any Char.isAlpha = false) :
    toAsciiLowercase s = t ↔ s = t := by
  constructor
  · rintro rfl
    have hid : ∀ c ∈ s, c.toLower = c := fun c hc => by
      have halpha := eq_false_of_any ht c.toLower (List.mem_map_of_mem hc)
      exact ((toLower_eq_iff halpha).1 rfl).symm
    exact ((List.map_congr_left hid).trans (List.map_id' s)).symm
  · rintro rfl
    have hid : ∀ c ∈ s, c.toLower = c := fun c hc =>
      (toLower_eq_iff (eq_false_of_any ht c hc)).2 rfl
    exact (List.map_congr_left hid).trans (List.map_id' s)

/-! ## Splitting -/

/-- A piece without separators is cut off whole, at the separator that follows it. -/
theorem firstSegment_append {sep : Char → Bool} {a b : List Char}
    (ha : ∀ c ∈ a, sep c = false) (hb : ∀ c ∈ b.head?, sep c = true) :
    firstSegment sep (a ++ b) = a := by
  rw [firstSegment, List.takeWhile_append_of_pos (fun c hc => by simp [ha c hc])]
  cases b with
  | nil => simp
  | cons c rest => rw [List.takeWhile_cons_of_neg (by simp [hb c rfl]), List.append_nil]

theorem firstSegment_eq_self {sep : Char → Bool} {s : List Char} (h : ∀ c ∈ s, sep c = false) :
    firstSegment sep s = s :=
  List.takeWhile_eq_self_iff.2 fun c hc => by rw [h c hc]; rfl

theorem firstSegment_append_left {sep : Char → Bool} {a : List Char}
    (ha : ∀ c ∈ a, sep c = false) (b : List Char) :
    firstSegment sep (a ++ b) = a ++ firstSegment sep b :=
  List.takeWhile_append_of_pos fun c hc => by rw [ha c hc]; rfl

theorem firstSegment_spec (sep : Char → Bool) (s : List Char) :
    ∃ rest, s = firstSegment sep s ++ rest ∧ (∀ c ∈ firstSegment sep s, sep c = false) ∧
      ∀ c ∈ rest.head?, sep c = true := by
  refine ⟨s.dropWhile fun c => !sep c, List.takeWhile_append_dropWhile.symm, fun c hc => ?_,
    fun c hc => ?_⟩
  · have hp := List.mem_takeWhile_imp hc
    rwa [Bool.not_eq_true'] at hp
  · have hp := List.head?_dropWhile_not (fun c => !sep c) s
    rw [hc] at hp
    rwa [← Bool.not_eq_false']

/-- What follows a separator does not matter. -/
theorem firstSegment_append_sep {sep : Char → Bool} {c : Char} (hc : sep c = true)
    (a b : List Char) : firstSegment sep (a ++ c :: b) = firstSegment sep a := by
  induction a with
  | nil => simp [firstSegment, hc]
  | cons d a ih =>
    rw [firstSegment] at ih ⊢
    rw [firstSegment] at ih ⊢
    rw [List.cons_append, List.takeWhile_cons, List.takeWhile_cons, ih]

/-- Where the separators are told apart from the letters, lowering and cutting commute. -/
theorem firstSegment_toAsciiLowercase {sep : Char → Bool} (hsep : ∀ c, sep c.toLower = sep c)
    (s : List Char) :
    firstSegment sep (toAsciiLowercase s) = toAsciiLowercase (firstSegment sep s) := by
  have hcomp : ((fun c => !sep c) ∘ Char.toLower) = fun c => !sep c :=
    funext fun c => congrArg (! ·) (hsep c)
  rw [firstSegment, toAsciiLowercase, List.takeWhile_map, hcomp]
  rfl

theorem rsplitOnce_eq_none {sep : Char} {s : List Char} (h : sep ∉ s) :
    rsplitOnce sep s = none := by
  induction s with
  | nil => rfl
  | cons c s ih =>
    rw [List.mem_cons, not_or] at h
    rw [rsplitOnce, ih h.2]
    exact if_neg (Ne.symm h.1)

/-- The last separator is the one no other follows, whatever comes before it. -/
theorem rsplitOnce_append {sep : Char} (a : List Char) {b : List Char} (hb : sep ∉ b) :
    rsplitOnce sep (a ++ sep :: b) = some (a, b) := by
  induction a with
  | nil => rw [List.nil_append, rsplitOnce, rsplitOnce_eq_none hb]; exact if_pos rfl
  | cons c a ih => rw [List.cons_append, rsplitOnce, ih]

theorem rsplitOnce_spec (sep : Char) (s : List Char) :
    match rsplitOnce sep s with
    | some (before, after) => s = before ++ sep :: after ∧ sep ∉ after
    | none => sep ∉ s := by
  induction s with
  | nil => exact List.not_mem_nil
  | cons c s ih =>
    rw [rsplitOnce]
    match hs : rsplitOnce sep s with
    | some (before, after) =>
      rw [hs] at ih
      exact ⟨congrArg (c :: ·) ih.1, ih.2⟩
    | none =>
      rw [hs] at ih
      by_cases hc : c = sep
      · rw [if_pos hc]
        exact ⟨congrArg (· :: s) hc, ih⟩
      · rw [if_neg hc]
        exact List.not_mem_cons_of_ne_of_not_mem (Ne.symm hc) ih

theorem splitOnce_eq_none {sep : Char} {s : List Char} (h : sep ∉ s) : splitOnce sep s = none := by
  induction s with
  | nil => rfl
  | cons c s ih =>
    rw [List.mem_cons, not_or] at h
    rw [splitOnce, if_neg (Ne.symm h.1), ih h.2, Option.map_none]

/-- The first separator is the one that no other comes before. -/
theorem splitOnce_append {sep : Char} {a : List Char} (ha : sep ∉ a) (b : List Char) :
    splitOnce sep (a ++ sep :: b) = some (a, b) := by
  induction a with
  | nil => exact if_pos rfl
  | cons c a ih =>
    rw [List.mem_cons, not_or] at ha
    rw [List.cons_append, splitOnce, if_neg (Ne.symm ha.1), ih ha.2, Option.map_some]

/-- A pattern is found where its first character first occurs, if it stands there. -/
theorem splitAfter_append {c : Char} {a : List Char} (ha : c ∉ a) (pattern b : List Char) :
    splitAfter (c :: pattern) (a ++ (c :: pattern ++ b)) = some (a ++ c :: pattern, b) := by
  induction a with
  | nil =>
    rw [List.nil_append, List.cons_append, splitAfter, if_pos (by simp)]
    simp
  | cons d a ih =>
    rw [List.mem_cons, not_or] at ha
    have hprefix : (c :: pattern).isPrefixOf (d :: (a ++ (c :: pattern ++ b))) = false := by
      rw [List.isPrefixOf_cons_cons, beq_false_of_ne ha.1, Bool.false_and]
    rw [List.cons_append, splitAfter, hprefix, if_neg Bool.false_ne_true, ih ha.2, Option.map_some]
    rfl

/-- What stands before the first occurrence of a separator determines the text there. -/
theorem append_cons_inj {sep : Char} {a b x y : List Char} (ha : sep ∉ a) (hb : sep ∉ b) :
    a ++ sep :: x = b ++ sep :: y ↔ a = b ∧ x = y := by
  constructor
  · intro h
    have hab : a = b := by
      have hseg := congrArg (firstSegment (· == sep)) h
      rwa [firstSegment_append, firstSegment_append] at hseg
      · exact fun c hc => beq_false_of_ne fun h => hb (h ▸ hc)
      · simp
      · exact fun c hc => beq_false_of_ne fun h => ha (h ▸ hc)
      · simp
    subst hab
    exact ⟨rfl, by simpa using h⟩
  · rintro ⟨rfl, rfl⟩
    rfl

end Text

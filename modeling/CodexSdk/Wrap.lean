import Mathlib.Algebra.Ring.Int.Defs
import Mathlib.Data.List.SplitBy
import CodexSdk.Zipper

/-!
# Greedy word wrapping

A line is a list of elements that have a width, and some of which are blank.  `wrap` puts its words
into rows of at most `limit` columns: each word goes into the current row if it fits there, with the
blanks before it, and else into the next one.  A word that is longer than a row is broken by
elements.  Blanks where a row ends are dropped, those at the start of the line count as a word, and
what is wider than a row is skipped.

`wrapped` says that the rows hold the line and fit.  `length_wrap` counts them: it is the number of
rows the columns of the line would fill, and as many more as the columns that are lost at the ends
of rows make up, the ones that are dropped being taken off.
-/

set_option autoImplicit false

namespace Wrap

open Offset

variable {α : Type}

structure Row (α : Type) where
  cells : List α
  /-- The blanks after them that are not shown. -/
  dropped : List α

/-- What has been wrapped: the rows that are closed, the current one, and the blanks after it. -/
structure Wrapper (α : Type) where
  rows : List (Row α)
  cells : List α
  blanks : List α

/-- The current row ends, and the next one is empty. -/
def Wrapper.close (w : Wrapper α) : Wrapper α := ⟨w.rows ++ [⟨w.cells, w.blanks⟩], [], []⟩

variable (width : α → Nat) (blank : α → Bool) (limit : Nat)

/-- One element of a word that is longer than a row. -/
def putElement (w : Wrapper α) (a : α) : Wrapper α :=
  if total width (w.cells ++ [a]) ≤ limit then { w with cells := w.cells ++ [a] }
  else { w.close with cells := [a] }

/-- A word, or a run of blanks. -/
def putRun (w : Wrapper α) (run : List α) : Wrapper α :=
  if w.cells ≠ [] ∧ run.all blank = true then { w with blanks := w.blanks ++ run }
  else if total width (w.cells ++ w.blanks ++ run) ≤ limit then
    { w with cells := w.cells ++ w.blanks ++ run, blanks := [] }
  else run.foldl (putElement width limit) (if w.cells = [] then w else w.close)

/-- At the end the blanks are shown if they fit. -/
def finish (w : Wrapper α) : Wrapper α :=
  (if total width (w.cells ++ w.blanks) ≤ limit then
    { w with cells := w.cells ++ w.blanks, blanks := [] } else w).close

/-- What a row can hold. -/
def shown (line : List α) : List α := line.filter (width · ≤ limit)

def skipped (line : List α) : List α := line.filter (limit < width ·)

/-- The rows of a line that is wrapped greedily: a run goes into the current row if it fits. -/
def wrap (line : List α) : List (Row α) :=
  (finish width limit <| ((shown width limit line).splitBy fun a b => blank a == blank b).foldl
    (putRun width blank limit) ⟨[], [], []⟩).rows

/-! ## The rows hold the line -/

/-- The elements `done` are in the rows, which fit. -/
structure Packed (w : Wrapper α) (done : List α) : Prop where
  flatten : w.rows.flatMap (fun row => row.cells ++ row.dropped) ++ (w.cells ++ w.blanks) = done
  fits : ∀ row ∈ w.rows, total width row.cells ≤ limit
  dropped_blank : ∀ row ∈ w.rows, row.dropped.all blank = true
  cells_fit : total width w.cells ≤ limit
  blanks_blank : w.blanks.all blank = true
  blanks_nil (h : w.cells = []) : w.blanks = []

section

variable {width blank limit} {w : Wrapper α} {done : List α}

theorem packed_new : Packed width blank limit ⟨[], [], []⟩ [] :=
  ⟨rfl, nofun, nofun, Nat.zero_le _, rfl, fun _ => rfl⟩

theorem Packed.close (h : Packed width blank limit w done) :
    Packed width blank limit w.close done := by
  refine ⟨?_, fun row hrow => ?_, fun row hrow => ?_, Nat.zero_le _, rfl, fun _ => rfl⟩
  · rw [Wrapper.close, List.flatMap_append, List.flatMap_singleton, List.append_nil,
      List.append_nil]
    exact h.flatten
  · rcases List.mem_append.1 hrow with hrow | hrow
    · exact h.fits row hrow
    · rw [List.mem_singleton.1 hrow]
      exact h.cells_fit
  · rcases List.mem_append.1 hrow with hrow | hrow
    · exact h.dropped_blank row hrow
    · rw [List.mem_singleton.1 hrow]
      exact h.blanks_blank

/-- What is put into a row without blanks after it. -/
theorem Packed.extend {more : List α} (h : Packed width blank limit w done) (hne : more ≠ [])
    (hfits : total width (w.cells ++ w.blanks ++ more) ≤ limit) :
    Packed width blank limit { w with cells := w.cells ++ w.blanks ++ more, blanks := [] }
      (done ++ more) := by
  refine ⟨?_, h.fits, h.dropped_blank, hfits, rfl, fun hnil => ?_⟩
  · rw [← h.flatten]
    simp only [List.append_assoc, List.append_nil]
  · exact absurd (List.append_eq_nil_iff.1 hnil).2 hne

theorem Packed.putElement {a : α} (h : Packed width blank limit w done) (hblanks : w.blanks = [])
    (ha : width a ≤ limit) :
    Packed width blank limit (putElement width limit w a) (done ++ [a]) ∧
      (Wrap.putElement width limit w a).blanks = [] := by
  rcases w with ⟨rows, cells, blanks⟩
  obtain rfl : blanks = [] := hblanks
  rw [Wrap.putElement]
  split
  · rename_i hfits
    have hextend := h.extend (List.cons_ne_nil a []) (by rwa [List.append_nil])
    rw [List.append_nil] at hextend
    exact ⟨hextend, rfl⟩
  · exact ⟨h.close.extend (List.cons_ne_nil a []) (by simpa [Wrapper.close] using ha), rfl⟩

theorem Packed.putElements {run : List α} (h : Packed width blank limit w done)
    (hblanks : w.blanks = []) (hrun : ∀ a ∈ run, width a ≤ limit) :
    Packed width blank limit (run.foldl (Wrap.putElement width limit) w) (done ++ run) := by
  induction run generalizing w done with
  | nil => rwa [List.append_nil]
  | cons a run ih =>
    obtain ⟨hput, hblanks⟩ := h.putElement hblanks (hrun a List.mem_cons_self)
    rw [List.append_cons]
    exact ih hput hblanks fun b hb => hrun b (List.mem_cons_of_mem a hb)

theorem Packed.putRun {run : List α} (h : Packed width blank limit w done) (hne : run ≠ [])
    (hrun : ∀ a ∈ run, width a ≤ limit) :
    Packed width blank limit (putRun width blank limit w run) (done ++ run) := by
  rw [Wrap.putRun]
  split
  · rename_i hblank
    refine ⟨?_, h.fits, h.dropped_blank, h.cells_fit, ?_, fun hnil => absurd hnil hblank.1⟩
    · rw [← h.flatten]
      simp only [List.append_assoc]
    · rw [List.all_append, h.blanks_blank, hblank.2]
      rfl
  split
  · rename_i hfits
    exact h.extend hne hfits
  · split
    · rename_i hnil
      exact h.putElements (h.blanks_nil hnil) hrun
    · exact h.close.putElements rfl hrun

/-- What holds of each run holds of the line. -/
theorem packed_foldl {runs : List (List α)} (h : Packed width blank limit w done)
    (hne : [] ∉ runs) (hruns : ∀ run ∈ runs, ∀ a ∈ run, width a ≤ limit) :
    Packed width blank limit (runs.foldl (Wrap.putRun width blank limit) w)
      (done ++ runs.flatten) := by
  induction runs generalizing w done with
  | nil => rwa [List.flatten_nil, List.append_nil]
  | cons run runs ih =>
    rw [List.mem_cons, not_or] at hne
    rw [List.flatten_cons, ← List.append_assoc]
    exact ih (h.putRun (Ne.symm hne.1) (hruns run List.mem_cons_self)) hne.2
      fun run' hrun' => hruns run' (List.mem_cons_of_mem run hrun')

theorem Packed.finish (h : Packed width blank limit w done) :
    Packed width blank limit (finish width limit w) done := by
  rw [Wrap.finish]
  split
  · rename_i hfits
    refine Packed.close ⟨?_, h.fits, h.dropped_blank, hfits, rfl, fun _ => rfl⟩
    rw [← h.flatten, List.append_nil]
  · exact h.close

end

/-- What the rows of a line are. -/
structure Wrapped (line : List α) (rows : List (Row α)) : Prop where
  flatten : rows.flatMap (fun row => row.cells ++ row.dropped) = shown width limit line
  fits : ∀ row ∈ rows, total width row.cells ≤ limit
  dropped_blank : ∀ row ∈ rows, row.dropped.all blank = true

/-- **The rows hold what is shown of the line**, and fit. -/
theorem wrapped (line : List α) :
    Wrapped width blank limit line (wrap width blank limit line) := by
  have hruns : ∀ run ∈ (shown width limit line).splitBy fun a b => blank a == blank b,
      ∀ a ∈ run, width a ≤ limit := by
    intro run hrun a ha
    have hmem : a ∈ shown width limit line := by
      rw [← List.flatten_splitBy (fun a b => blank a == blank b) (shown width limit line)]
      exact List.mem_flatten_of_mem hrun ha
    exact of_decide_eq_true (List.mem_filter.1 hmem).2
  have hpacked := packed_foldl (packed_new : Packed width blank limit _ _)
    (List.nil_notMem_splitBy _ _) hruns
  rw [List.nil_append, List.flatten_splitBy] at hpacked
  have hfinish := hpacked.finish
  have hflatten := hfinish.flatten
  exact ⟨(List.append_nil _).symm.trans hflatten, hfinish.fits, hfinish.dropped_blank⟩

/-- A word goes to the next row when it does not fit, and the blank before it is dropped. -/
example : (wrap (fun _ => 1) (· == ' ') 5 "aaa bbb ccc ddd".toList).map Row.cells =
    ["aaa".toList, "bbb".toList, "ccc".toList, "ddd".toList] := by decide

/-! ## How many rows there are -/

/-- The columns a row leaves free; what it drops is taken off. -/
def free (row : Row α) : Int := limit - total width row.cells - total width row.dropped

/-- The columns of the rows that hold nothing of the line. -/
def lost (line : List α) : Int :=
  ((wrap width blank limit line).map (free width limit)).sum - total width (skipped width limit line)

/-- The rows that the lost columns make up. -/
def lostRows (line : List α) : Int :=
  if total width line = 0 then 0 else lost width blank limit line / limit

/-- `usize::div_ceil`. -/
def divCeil (n d : Nat) : Nat := (n + (d - 1)) / d

section

variable {width limit}

theorem total_shown (line : List α) :
    total width (shown width limit line) + total width (skipped width limit line) =
      total width line := by
  induction line with
  | nil => rfl
  | cons a line ih =>
    rw [shown, skipped] at ih
    rw [shown, skipped, total_cons, ← ih]
    rcases Nat.lt_or_ge limit (width a) with h | h
    · rw [List.filter_cons_of_neg (by simpa using h), List.filter_cons_of_pos (by simpa using h),
        total_cons]
      omega
    · rw [List.filter_cons_of_pos (by simpa using h), List.filter_cons_of_neg (by simpa using h),
        total_cons]
      omega

theorem sum_free (rows : List (Row α)) : (rows.map (free width limit)).sum = limit * rows.length -
    total width (rows.flatMap fun row => row.cells ++ row.dropped) := by
  induction rows with
  | nil => simp
  | cons row rows ih =>
    rw [List.map_cons, List.sum_cons, ih, free, List.flatMap_cons, total_append, total_append,
      List.length_cons]
    push_cast
    rw [Int.mul_add, Int.mul_one]
    omega

/-- The columns of the rows are those of the line and those that are lost. -/
theorem limit_mul_length (blank : α → Bool) (line : List α) :
    (limit * (wrap width blank limit line).length : Int) =
      total width line + lost width blank limit line := by
  have hshown := @total_shown α width limit line
  rw [lost, sum_free, (wrapped width blank limit line).flatten]
  omega

/-- Rounding up is rounding down from the other side. -/
theorem divCeil_eq {n rows : Nat} {lost : Int} (hlimit : 0 < limit)
    (h : (limit * rows : Int) = n + lost) : (divCeil n limit : Int) = rows - lost / limit := by
  have hne : (limit : Int) ≠ 0 := by omega
  have hlost := Int.mul_ediv_add_emod lost limit
  have hnonneg := Int.emod_nonneg lost hne
  have hlt := Int.emod_lt_of_pos lost (show (0 : Int) < limit by omega)
  have hsum : ((n + (limit - 1) : Nat) : Int) =
      (limit - 1 - lost % limit) + limit * (rows - lost / limit) := by
    rw [Int.mul_sub]
    omega
  rw [divCeil, Int.natCast_ediv, hsum, Int.add_mul_ediv_left _ _ hne,
    Int.ediv_eq_zero_of_lt (by omega) (by omega), Int.zero_add]

/-- As long as everything fits there is one row. -/
theorem rows_foldl_of_le {blank : α → Bool} {runs : List (List α)} {w : Wrapper α}
    (hrows : w.rows = []) (h : total width (w.cells ++ w.blanks ++ runs.flatten) ≤ limit) :
    (runs.foldl (putRun width blank limit) w).rows = [] := by
  induction runs generalizing w with
  | nil => exact hrows
  | cons run runs ih =>
    rw [List.flatten_cons, ← List.append_assoc] at h
    rw [List.foldl_cons, putRun]
    split
    · exact ih hrows (by rwa [← List.append_assoc])
    split
    · exact ih hrows (by rwa [List.append_nil])
    · rename_i hover
      rw [total_append] at h
      omega

theorem length_wrap_of_le (blank : α → Bool) {line : List α} (h : total width line ≤ limit) :
    (wrap width blank limit line).length = 1 := by
  have hshown := @total_shown α width limit line
  have hrows : (((shown width limit line).splitBy fun a b => blank a == blank b).foldl
      (putRun width blank limit) ⟨[], [], []⟩).rows = [] := by
    refine rows_foldl_of_le rfl ?_
    rw [List.flatten_splitBy]
    show total width (shown width limit line) ≤ limit
    omega
  rw [wrap, finish]
  split
  · rw [Wrapper.close, hrows]
    rfl
  · rw [Wrapper.close, hrows]
    rfl

/-- **How many rows there are**: those the columns of the line fill, and those that are lost. -/
theorem length_wrap (blank : α → Bool) (hlimit : 0 < limit) (line : List α) :
    ((wrap width blank limit line).length : Int) =
      divCeil (max (total width line) 1) limit + lostRows width blank limit line := by
  rw [lostRows]
  split
  · rename_i hzero
    have hone : divCeil 1 limit = 1 := by
      rw [divCeil, Nat.add_sub_cancel' hlimit, Nat.div_self hlimit]
    rw [length_wrap_of_le blank (by omega), hzero, Nat.max_eq_right (by omega), hone]
    rfl
  · rename_i hpos
    have hceil := divCeil_eq hlimit (@limit_mul_length α width limit blank line)
    rw [Nat.max_eq_left (by omega)]
    omega

end

end Wrap

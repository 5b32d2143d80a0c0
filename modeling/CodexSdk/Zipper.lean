import Mathlib.Algebra.BigOperators.Group.List.Basic
import Mathlib.Algebra.GroupWithZero.Nat

/-!
# A place in a list

A `Zipper` is a list with a place between two of its elements.  The place can also be given by a
number.  When every element has a size, as characters have in UTF-8, it is the size of what stands
before it, its `offset`.

Not every number is one.  `Offset.splitAt?` cuts a list at an offset and fails at any other number,
and so do the operations that are made of it.  `splitAt?_toList`, `insertAt?_toList` and the two
lemmas on `Offset.drain?` say that at the offset of a zipper they do what the zipper does.
-/

set_option autoImplicit false

/-! ## Zippers -/

structure Zipper (α : Type) where
  /-- What stands before the place, the nearest first. -/
  left : List α
  right : List α

namespace Zipper

variable {α : Type}

/-- What stands before the place, in the order of the list. -/
def before (z : Zipper α) : List α := z.left.reverse

def toList (z : Zipper α) : List α := z.before ++ z.right

/-- The place at the end of a list. -/
def atEnd (l : List α) : Zipper α := ⟨l.reverse, []⟩

/-- The place at its start. -/
def atStart (l : List α) : Zipper α := ⟨[], l⟩

def insert (z : Zipper α) (a : α) : Zipper α := ⟨a :: z.left, z.right⟩

def insertList (z : Zipper α) (l : List α) : Zipper α := ⟨l.reverse ++ z.left, z.right⟩

def backspace (z : Zipper α) : Zipper α := ⟨z.left.tail, z.right⟩

def delete (z : Zipper α) : Zipper α := ⟨z.left, z.right.tail⟩

def moveLeft (z : Zipper α) : Zipper α :=
  match z.left with
  | [] => z
  | a :: left => ⟨left, a :: z.right⟩

def moveRight (z : Zipper α) : Zipper α :=
  match z.right with
  | [] => z
  | a :: right => ⟨a :: z.left, right⟩

@[simp] theorem before_atEnd (l : List α) : (atEnd l).before = l := List.reverse_reverse l

@[simp] theorem toList_atEnd (l : List α) : (atEnd l).toList = l := by simp [toList, atEnd, before]

@[simp] theorem toList_atStart (l : List α) : (atStart l).toList = l := rfl

@[simp] theorem before_insertList (z : Zipper α) (l : List α) :
    (z.insertList l).before = z.before ++ l := by
  simp [insertList, before]

theorem insertList_singleton (z : Zipper α) (a : α) : z.insertList [a] = z.insert a := rfl

theorem toList_insertList (z : Zipper α) (l : List α) :
    (z.insertList l).toList = z.before ++ l ++ z.right := by
  rw [toList, before_insertList]
  rfl

theorem length_insertList (z : Zipper α) (l : List α) :
    (z.insertList l).toList.length = z.toList.length + l.length := by
  rw [toList_insertList, toList, List.length_append, List.length_append, List.length_append]
  omega

theorem toList_cons (a : α) (left right : List α) :
    (Zipper.mk (a :: left) right).toList = (Zipper.mk left right).before ++ a :: right := by
  simp [toList, before]

/-- The list is the same wherever the place is. -/
@[simp] theorem toList_moveLeft (z : Zipper α) : z.moveLeft.toList = z.toList := by
  rcases z with ⟨_ | ⟨a, left⟩, right⟩
  · rfl
  · simp [moveLeft, toList, before]

@[simp] theorem toList_moveRight (z : Zipper α) : z.moveRight.toList = z.toList := by
  rcases z with ⟨left, _ | ⟨a, right⟩⟩
  · rfl
  · simp [moveRight, toList, before]

end Zipper

/-! ## Offsets -/

namespace Offset

variable {α : Type} (size : α → Nat)

def total (l : List α) : Nat := (l.map size).sum

/-- The parts before and after an offset. -/
def splitAt? : List α → Nat → Option (List α × List α)
  | l, 0 => some ([], l)
  | [], _ + 1 => none
  | a :: l, n + 1 =>
    if size a ≤ n + 1 then
      (splitAt? l (n + 1 - size a)).map fun (before, after) => (a :: before, after)
    else none

/-- The list with `m` put in at an offset. -/
def insertAt? (l : List α) (offset : Nat) (m : List α) : Option (List α) :=
  (splitAt? size l offset).map fun (before, after) => before ++ m ++ after

/-- The list without what is between two offsets. -/
def drain? (l : List α) (start stop : Nat) : Option (List α) := do
  if stop < start then none
  else
    let (before, rest) ← splitAt? size l start
    let (_, after) ← splitAt? size rest (stop - start)
    return before ++ after

/-- The elements with their offsets, which start at `offset`. -/
def indices : Nat → List α → List (Nat × α)
  | _, [] => []
  | offset, a :: l => (offset, a) :: indices (offset + size a) l

@[simp] theorem total_nil : total size ([] : List α) = 0 := rfl

@[simp] theorem total_cons (a : α) (l : List α) : total size (a :: l) = size a + total size l :=
  List.sum_cons

@[simp] theorem total_append (l m : List α) :
    total size (l ++ m) = total size l + total size m := by
  rw [total, List.map_append, List.sum_append]
  rfl

/-- The last element is where the elements before it end. -/
theorem getLast?_indices (offset : Nat) (l : List α) (a : α) :
    (indices size offset (l ++ [a])).getLast? = some (offset + total size l, a) := by
  induction l generalizing offset with
  | nil => rfl
  | cons b l ih =>
    have hne : indices size (offset + size b) (l ++ [a]) ≠ [] := by
      rcases l with _ | ⟨c, l⟩
      · exact List.cons_ne_nil _ _
      · exact List.cons_ne_nil _ _
    rw [List.cons_append, indices, List.getLast?_cons_of_ne_nil hne, ih, total_cons,
      Nat.add_assoc]

section

variable {size} (hpos : ∀ a, 0 < size a)
include hpos

/-- **At an offset the list is cut.** -/
theorem splitAt?_append (before after : List α) :
    splitAt? size (before ++ after) (total size before) = some (before, after) := by
  induction before with
  | nil => exact splitAt?.eq_1 size after
  | cons a before ih =>
    have h := hpos a
    obtain ⟨n, hn⟩ : ∃ n, size a + total size before = n + 1 :=
      ⟨size a + total size before - 1, by omega⟩
    rw [total_cons, hn, List.cons_append, splitAt?, if_pos (by omega),
      show n + 1 - size a = total size before by omega, ih]
    rfl

theorem insertAt?_append (before after m : List α) :
    insertAt? size (before ++ after) (total size before) m = some (before ++ m ++ after) := by
  rw [insertAt?, splitAt?_append hpos]
  rfl

theorem drain?_append (before middle after : List α) :
    drain? size (before ++ middle ++ after) (total size before)
      (total size before + total size middle) = some (before ++ after) := by
  rw [drain?, if_neg (by omega), List.append_assoc, splitAt?_append hpos, Option.bind_eq_bind,
    Option.bind_some]
  simp only [Nat.add_sub_cancel_left]
  rw [splitAt?_append hpos]
  rfl

end

end Offset

namespace Zipper

variable {α : Type} {size : α → Nat}

/-- The offset of the place. -/
def offset (size : α → Nat) (z : Zipper α) : Nat := Offset.total size z.before

theorem offset_cons (a : α) (left right : List α) :
    (Zipper.mk (a :: left) right).offset size = (Zipper.mk left right).offset size + size a := by
  simp [offset, before]

section

variable (hpos : ∀ a, 0 < size a) (z : Zipper α)
include hpos

theorem splitAt?_toList : Offset.splitAt? size z.toList (z.offset size) = some (z.before, z.right) :=
  Offset.splitAt?_append hpos _ _

theorem insertAt?_toList (l : List α) :
    Offset.insertAt? size z.toList (z.offset size) l = some (z.insertList l).toList := by
  rw [toList_insertList]
  exact Offset.insertAt?_append hpos _ _ _

/-- Between the place and the one to the left of it there is what `backspace` takes away. -/
theorem drain?_backspace :
    Offset.drain? size z.toList (z.moveLeft.offset size) (z.offset size) =
      some z.backspace.toList := by
  rcases z with ⟨_ | ⟨a, left⟩, right⟩
  · exact Offset.drain?_append hpos [] [] right
  · have hdrain := Offset.drain?_append hpos (Zipper.mk left right).before [a] right
    rw [List.append_assoc, List.singleton_append, ← toList_cons, Offset.total_cons,
      Offset.total_nil, Nat.add_zero] at hdrain
    rw [offset_cons]
    exact hdrain

theorem drain?_delete :
    Offset.drain? size z.toList (z.offset size) (z.moveRight.offset size) =
      some z.delete.toList := by
  rcases z with ⟨left, _ | ⟨a, right⟩⟩
  · have hdrain := Offset.drain?_append hpos (Zipper.mk left []).before [] []
    rwa [List.append_nil, Offset.total_nil, Nat.add_zero] at hdrain
  · have hdrain := Offset.drain?_append hpos (Zipper.mk left right).before [a] right
    rw [List.append_assoc, List.singleton_append, Offset.total_cons, Offset.total_nil,
      Nat.add_zero] at hdrain
    have hoffset : (Zipper.mk left (a :: right)).moveRight.offset size =
        (Zipper.mk left (a :: right)).offset size + size a := offset_cons a left right
    rw [hoffset]
    exact hdrain

end

end Zipper

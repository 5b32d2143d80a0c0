import CodexSdk.Paths

/-!
# TOML values

The value of a TOML document, a table being the list of its members, and the JSON value it is
serialized to.  The crate that reads TOML serializes a date or time in a form of its own, which is
a parameter here.
-/

set_option autoImplicit false

namespace Toml

inductive Value
  | string (s : String)
  | integer (n : Int64)
  | float (bits : UInt64)
  | boolean (b : Bool)
  | datetime (text : String)
  | array (entries : List Value)
  | table (members : List (String × Value))

abbrev Table := List (String × Value)

def Table.get (t : Table) (key : String) : Option Value := t.lookup key

/-- Neither an infinity nor NaN: the exponent is not all ones. -/
def isFinite (bits : UInt64) : Bool := bits &&& 0x7ff0000000000000 != 0x7ff0000000000000

/-! ## Serialization -/

section

variable (datetime : String → Json.Value)

mutual

/-- `serde_json::to_value`: a float that is not finite becomes `null`. -/
def Value.toJson : Value → Json.Value
  | .string s => .string s
  | .integer n => .number (.ofI64 n)
  | .float bits => if isFinite bits then .number (.float bits) else .null
  | .boolean b => .bool b
  | .datetime text => datetime text
  | .array entries => .array (arrayToJson entries)
  | .table members => .object (tableToJson members)

def arrayToJson : List Value → List Json.Value
  | [] => []
  | v :: entries => v.toJson :: arrayToJson entries

def tableToJson : List (String × Value) → Json.Map
  | [] => []
  | (key, v) :: members => (key, v.toJson) :: tableToJson members

end

end

mutual

/-- All floats in the value are finite. -/
def Value.finite : Value → Bool
  | .float bits => isFinite bits
  | .array entries => finiteArray entries
  | .table members => finiteTable members
  | _ => true

def finiteArray : List Value → Bool
  | [] => true
  | v :: entries => v.finite && finiteArray entries

def finiteTable : List (String × Value) → Bool
  | [] => true
  | (_, v) :: members => v.finite && finiteTable members

end

mutual

/-- No table in the value has a key twice. -/
def Value.uniqueKeys : Value → Bool
  | .array entries => uniqueKeysArray entries
  | .table members => decide (members.map Prod.fst).Nodup && uniqueKeysTable members
  | _ => true

def uniqueKeysArray : List Value → Bool
  | [] => true
  | v :: entries => v.uniqueKeys && uniqueKeysArray entries

def uniqueKeysTable : List (String × Value) → Bool
  | [] => true
  | (_, v) :: members => v.uniqueKeys && uniqueKeysTable members

end

/-! ## Paths -/

namespace Value

def asTable : Value → Option Table
  | table t => some t
  | _ => none

def get (v : Value) (key : String) : Option Value := v.asTable.bind fun t => t.get key

/-- What is found by following keys into nested tables. -/
def descend (v : Value) (path : List String) : Option Value := Descent.descend get v path

/-- There is a leaf at the end of the path. -/
def Assigns (v : Value) (path : List String) (leaf : Value) : Prop :=
  Descent.LeafAt get (fun w => w.asTable = none) v path leaf

theorem leaf_or_table (v : Value) : v.asTable = none ∨ ∃ t, v = table t := by
  cases v <;> simp [asTable]

theorem get_eq_none {v : Value} (h : v.asTable = none) (key : String) : v.get key = none := by
  rw [get, h, Option.bind_none]

theorem get_table (t : Table) (key : String) : (table t).get key = t.get key := rfl

@[simp] theorem descend_nil (v : Value) : v.descend [] = some v := Descent.descend_nil v

theorem descend_cons (v : Value) (key : String) (path : List String) :
    v.descend (key :: path) = (v.get key).bind fun w => w.descend path :=
  Descent.descend_cons v key path

theorem assigns_nil {v leaf : Value} : v.Assigns [] leaf ↔ v = leaf ∧ leaf.asTable = none :=
  Descent.leafAt_nil

theorem assigns_cons {v leaf : Value} {key : String} {path : List String} :
    v.Assigns (key :: path) leaf ↔ ∃ w, v.get key = some w ∧ w.Assigns path leaf :=
  Descent.leafAt_cons

theorem table_of_get {v w : Value} {key : String} (h : v.get key = some w) :
    ∃ t, v = table t ∧ Table.get t key = some w := by
  rcases v.leaf_or_table with hv | ⟨t, rfl⟩
  · rw [get_eq_none hv] at h
    cases h
  · exact ⟨t, rfl, h⟩

end Value

theorem Table.get_cons (t : Table) (k key : String) (v : Value) :
    Table.get ((k, v) :: t) key = if key = k then some v else t.get key := by
  rw [Table.get, List.lookup_cons]
  by_cases h : key = k
  · rw [if_pos h, beq_iff_eq.2 h]
  · rw [if_neg h, beq_eq_false_iff_ne.2 h, Table.get]

theorem nodup_of_uniqueKeys {t : Table} (h : (Value.table t).uniqueKeys = true) :
    (t.map Prod.fst).Nodup := by
  rw [Value.uniqueKeys, Bool.and_eq_true, decide_eq_true_eq] at h
  exact h.1

theorem uniqueKeys_get {v w : Value} (h : v.uniqueKeys = true) {key : String}
    (hw : v.get key = some w) : w.uniqueKeys = true := by
  obtain ⟨t, rfl, hget⟩ := Value.table_of_get hw
  clear hw
  rw [Value.uniqueKeys, Bool.and_eq_true] at h
  replace h := h.2
  induction t with
  | nil => cases hget
  | cons p t ih =>
    obtain ⟨k, a⟩ := p
    rw [uniqueKeysTable, Bool.and_eq_true] at h
    rw [Table.get_cons] at hget
    split at hget
    · obtain rfl := Option.some.inj hget
      exact h.1
    · exact ih hget h.2

theorem uniqueKeys_descend {v w : Value} (h : v.uniqueKeys = true) {path : List String}
    (hw : v.descend path = some w) : w.uniqueKeys = true :=
  Descent.descend_invariant (fun _ _ _ hv => uniqueKeys_get hv) h hw

/-! ## Paths of the serialized value -/

section

variable {datetime : String → Json.Value}

theorem get_tableToJson (t : Table) (key : String) :
    Json.Map.get (tableToJson datetime t) key = (t.get key).map (Value.toJson datetime) := by
  induction t with
  | nil => rfl
  | cons p t ih =>
    obtain ⟨k, v⟩ := p
    rw [tableToJson, Json.Map.get_cons, Table.get_cons, ih]
    split <;> rfl

theorem keys_tableToJson (t : Table) :
    (tableToJson datetime t).map Prod.fst = t.map Prod.fst := by
  induction t with
  | nil => rfl
  | cons p t ih => rw [tableToJson, List.map_cons, List.map_cons, ih]

theorem tableToJson_eq_nil {t : Table} : tableToJson datetime t = [] ↔ t = [] := by
  rcases t with _ | ⟨p, t⟩
  · exact iff_of_true rfl rfl
  · rw [tableToJson]
    simp

namespace Value

@[simp] theorem toJson_table (t : Table) :
    (table t).toJson datetime = .object (tableToJson datetime t) := by
  rw [toJson]

theorem get_toJson {v w : Value} {key : String} (h : v.get key = some w) :
    (v.toJson datetime).get key = some (w.toJson datetime) := by
  obtain ⟨t, rfl, hw⟩ := table_of_get h
  rw [toJson_table, Json.Value.get_object, get_tableToJson, hw, Option.map_some]

/-- What is in a table is in its serialization. -/
theorem descend_toJson_of_some {v w : Value} {path : List String} (h : v.descend path = some w) :
    (v.toJson datetime).descend path = some (w.toJson datetime) :=
  Descent.descend_map (fun _ _ _ => get_toJson) h

/-- No leaf is serialized to an object. -/
def PlainLeaves (datetime : String → Json.Value) (v : Value) : Prop :=
  ∀ path leaf, v.Assigns path leaf → (leaf.toJson datetime).asObject = none

theorem PlainLeaves.of_get {v w : Value} (h : v.PlainLeaves datetime) {key : String}
    (hw : v.get key = some w) : w.PlainLeaves datetime :=
  fun path leaf hleaf => h (key :: path) leaf (assigns_cons.2 ⟨w, hw, hleaf⟩)

/-- Nothing else is in the serialization then. -/
theorem PlainLeaves.descend_toJson {v : Value} (h : v.PlainLeaves datetime) (path : List String) :
    (v.toJson datetime).descend path = (v.descend path).map (toJson datetime) := by
  induction path generalizing v with
  | nil => rw [Json.Value.descend_nil, descend_nil, Option.map_some]
  | cons key path ih =>
    rw [Json.Value.descend_cons, descend_cons]
    rcases v.leaf_or_table with hv | ⟨t, rfl⟩
    · rw [get_eq_none hv, Json.Value.get_eq_none (h [] v (assigns_nil.2 ⟨rfl, hv⟩))]
      rfl
    · rw [toJson_table, Json.Value.get_object, get_tableToJson, get_table]
      cases hget : Table.get t key with
      | none => rfl
      | some a => exact ih (h.of_get hget)

theorem PlainLeaves.asObject_toJson {v : Value} (h : v.PlainLeaves datetime) {m : Json.Map}
    (hm : v.toJson datetime = .object m) : ∃ t, v = table t ∧ m = tableToJson datetime t := by
  rcases v.leaf_or_table with hv | ⟨t, rfl⟩
  · have hleaf := h [] v (assigns_nil.2 ⟨rfl, hv⟩)
    rw [hm] at hleaf
    cases hleaf
  · rw [toJson_table, Json.Value.object.injEq] at hm
    exact ⟨t, rfl, hm.symm⟩

theorem PlainLeaves.of_descend {v w : Value} (h : v.PlainLeaves datetime) {path : List String}
    (hw : v.descend path = some w) : w.PlainLeaves datetime :=
  Descent.descend_invariant (fun _ _ _ hv ha => hv.of_get ha) h hw

/-- The leaves are those of the table, serialized. -/
theorem PlainLeaves.assigns_toJson {v : Value} (h : v.PlainLeaves datetime) {path : List String}
    {a : Json.Value} : (v.toJson datetime).Assigns path a ↔
      ∃ leaf, v.Assigns path leaf ∧ leaf.toJson datetime = a := by
  rw [Json.Value.assigns_iff, h.descend_toJson, Option.map_eq_some_iff]
  constructor
  · rintro ⟨⟨leaf, hpath, rfl⟩, hleaf⟩
    rcases leaf.leaf_or_table with htable | ⟨t, rfl⟩
    · exact ⟨leaf, ⟨hpath, htable⟩, rfl⟩
    · rw [toJson_table] at hleaf
      cases hleaf
  · rintro ⟨leaf, hleaf, rfl⟩
    exact ⟨⟨leaf, hleaf.1, rfl⟩, h path leaf hleaf⟩

end Value

end

end Toml

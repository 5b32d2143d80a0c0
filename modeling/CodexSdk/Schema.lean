import CodexSdk.Descent
import CodexSdk.Encode

/-!
# Closed object schemas

`enforce_openai_object_constraints` of `schema.rs` walks through a generated JSON Schema and adds
`"additionalProperties": false` to every object it meets whose `type` is `"object"`.

Not every object in a schema is a schema: there are the values of `const` or `default`, say, and
`type` may be a list.  `Place` says what is found where, and `pass_closes_objects_iff` for which
documents the pass closes the schemas of objects and changes nothing else.
-/

set_option autoImplicit false

namespace CodexSdk.Schema

open Json Descent

/-! ## The pass -/

mutual

def enforceOpenaiObjectConstraints : Value → Value
  | .object map =>
    let map := enforceMembers map
    let isObjectSchema := (map.get "type").bind Value.asStr = some "object"
    if isObjectSchema ∧ (map.get "additionalProperties").isNone then
      .object (map.insert "additionalProperties" (.bool false))
    else .object map
  | .array values => .array (enforceValues values)
  | value => value

/-- `values_mut` of a map. -/
def enforceMembers : Map → Map
  | [] => []
  | (key, nested) :: map => (key, enforceOpenaiObjectConstraints nested) :: enforceMembers map

def enforceValues : List Value → List Value
  | [] => []
  | nested :: values => enforceOpenaiObjectConstraints nested :: enforceValues values

end

/-! ## Places in a document -/

/-- A step into a value: to a member of an object, or to an entry of an array. -/
inductive Step
  | key (key : String)
  | index (i : Nat)

def child (v : Value) : Step → Option Value
  | .key key => v.get key
  | .index i => v.asArray.bind fun entries => entries[i]?

/-- What is expected at a place of a schema document. -/
inductive Place
  | schema
  /-- An array of schemas. -/
  | schemas
  /-- A schema or an array of them. -/
  | oneOrMore
  /-- An object whose members are schemas. -/
  | named
  /-- Anything else, such as an instance. -/
  | data
  deriving DecidableEq

/-- What the value of a keyword is. -/
def keyword (key : String) : Place :=
  if key ∈ ["additionalItems", "additionalProperties", "contains", "contentSchema", "else", "if",
    "not", "propertyNames", "then", "unevaluatedItems", "unevaluatedProperties"] then .schema
  else if key ∈ ["allOf", "anyOf", "oneOf", "prefixItems"] then .schemas
  else if key = "items" then .oneOrMore
  else if key ∈ ["$defs", "definitions", "dependencies", "dependentSchemas", "patternProperties",
    "properties"] then .named
  else .data

def Place.next : Place → Step → Place
  | schema, .key key => keyword key
  | oneOrMore, .key key => keyword key
  | oneOrMore, .index _ => schema
  | schemas, .index _ => schema
  | named, .key _ => schema
  | _, _ => data

/-- The place a path leads to from the root. -/
def place (path : List Step) : Place := path.foldl Place.next .schema

/-- The path leads to a schema, if to an object. -/
def IsSchemaPath (path : List Step) : Prop := place path = .schema ∨ place path = .oneOrMore

/-- The type of the schema is `"object"`. -/
def HasObjectType (m : Map) : Prop := m.get "type" = some (.string "object")

/-- The types of the schema are a list with `"object"` in it. -/
def ListsObjectType (m : Map) : Prop :=
  ∃ types, m.get "type" = some (.array types) ∧ Value.string "object" ∈ types

/-- A schema of objects that does not say which other properties they may have. -/
def IsOpen (m : Map) : Prop := m.get "additionalProperties" = none

/-! ## What the pass should do -/

/-- Objects are kept as objects, arrays with their length, and everything else as it is. -/
def Alike : Value → Value → Prop
  | .object _, .object _ => True
  | .array values, .array values' => values.length = values'.length
  | v, w => v = w

/-- No schema of objects is open, everything in the document has stayed, and nothing else has been
added than that a schema of objects is closed; a second pass changes nothing. -/
structure ClosesObjects (s : Value) : Prop where
  closed : ∀ path m, IsSchemaPath path →
    descend child (enforceOpenaiObjectConstraints s) path = some (.object m) →
      HasObjectType m ∨ ListsObjectType m → ¬ IsOpen m
  kept : ∀ path v, descend child s path = some v →
    ∃ v', descend child (enforceOpenaiObjectConstraints s) path = some v' ∧ Alike v v'
  added : ∀ path v', descend child (enforceOpenaiObjectConstraints s) path = some v' →
    descend child s path = none → v' = .bool false ∧
      ∃ p m, path = p ++ [.key "additionalProperties"] ∧ IsSchemaPath p ∧
        descend child s p = some (.object m) ∧ (HasObjectType m ∨ ListsObjectType m)
  idempotent : enforceOpenaiObjectConstraints (enforceOpenaiObjectConstraints s) =
    enforceOpenaiObjectConstraints s

/-- No schema with `"object"` in a list of types is open, and nothing that is not a schema looks
like an open one. -/
structure Regular (s : Value) : Prop where
  lists : ∀ path m, IsSchemaPath path → descend child s path = some (.object m) →
    ListsObjectType m → ¬ IsOpen m
  data : ∀ path m, ¬ IsSchemaPath path → descend child s path = some (.object m) →
    HasObjectType m → ¬ IsOpen m

/-! ## What the pass does to an object -/

theorem get_enforceMembers (m : Map) (key : String) :
    Map.get (enforceMembers m) key = (m.get key).map enforceOpenaiObjectConstraints := by
  induction m with
  | nil => rfl
  | cons p m ih =>
    obtain ⟨k, v⟩ := p
    rw [enforceMembers, Map.get_cons, Map.get_cons, ih]
    split <;> rfl

theorem enforceValues_eq_map (values : List Value) :
    enforceValues values = values.map enforceOpenaiObjectConstraints := by
  induction values with
  | nil => rfl
  | cons v values ih => rw [enforceValues, List.map_cons, ih]

/-- Scalars stay, and nothing becomes one. -/
theorem enforce_eq_string {v : Value} {s : String} :
    enforceOpenaiObjectConstraints v = .string s ↔ v = .string s := by
  cases v with
  | object m =>
    rw [enforceOpenaiObjectConstraints]
    split <;> simp
  | _ => simp [enforceOpenaiObjectConstraints]

theorem asStr_eq_some {v : Value} {s : String} : v.asStr = some s ↔ v = .string s := by
  cases v <;> simp [Value.asStr]

theorem enforce_eq_array {v : Value} {values : List Value} :
    enforceOpenaiObjectConstraints v = .array values ↔
      ∃ values', v = .array values' ∧ enforceValues values' = values := by
  cases v with
  | object m =>
    rw [enforceOpenaiObjectConstraints]
    split <;> simp
  | _ => simp [enforceOpenaiObjectConstraints]

/-! The type of a schema and whether it is open are not changed by what is done within it. -/

theorem hasObjectType_enforceMembers {m : Map} :
    HasObjectType (enforceMembers m) ↔ HasObjectType m := by
  simp only [HasObjectType, get_enforceMembers, Option.map_eq_some_iff, enforce_eq_string,
    exists_eq_right]

theorem listsObjectType_enforceMembers {m : Map} :
    ListsObjectType (enforceMembers m) ↔ ListsObjectType m := by
  simp only [ListsObjectType, get_enforceMembers, Option.map_eq_some_iff, enforce_eq_array]
  constructor
  · rintro ⟨types, ⟨v, hv, types', rfl, rfl⟩, hmem⟩
    rw [enforceValues_eq_map, List.mem_map] at hmem
    obtain ⟨w, hw, hobject⟩ := hmem
    exact ⟨types', hv, enforce_eq_string.1 hobject ▸ hw⟩
  · rintro ⟨types, hv, hmem⟩
    refine ⟨_, ⟨_, hv, types, rfl, rfl⟩, ?_⟩
    rw [enforceValues_eq_map, List.mem_map]
    exact ⟨_, hmem, enforce_eq_string.2 rfl⟩

theorem isOpen_enforceMembers {m : Map} : IsOpen (enforceMembers m) ↔ IsOpen m := by
  rw [IsOpen, get_enforceMembers, Option.map_eq_none_iff, IsOpen]

theorem isObjectSchema_iff {m : Map} :
    (m.get "type").bind Value.asStr = some "object" ↔ HasObjectType m := by
  simp only [HasObjectType, Option.bind_eq_some_iff, asStr_eq_some, exists_eq_right]

theorem enforce_of_open {m : Map} (htype : HasObjectType m) (hopen : IsOpen m) :
    enforceOpenaiObjectConstraints (.object m) =
      .object ((enforceMembers m).insert "additionalProperties" (.bool false)) := by
  have htest := isObjectSchema_iff.2 (hasObjectType_enforceMembers.2 htype)
  have hnone := Option.isNone_iff_eq_none.2 (isOpen_enforceMembers.2 hopen)
  rw [enforceOpenaiObjectConstraints, if_pos ⟨htest, hnone⟩]

theorem enforce_of_not_open {m : Map} (h : ¬ (HasObjectType m ∧ IsOpen m)) :
    enforceOpenaiObjectConstraints (.object m) = .object (enforceMembers m) := by
  rw [enforceOpenaiObjectConstraints, if_neg]
  rintro ⟨htest, hnone⟩
  exact h ⟨hasObjectType_enforceMembers.1 (isObjectSchema_iff.1 htest),
    isOpen_enforceMembers.1 (Option.isNone_iff_eq_none.1 hnone)⟩

theorem exists_enforce_object (m : Map) :
    ∃ m', enforceOpenaiObjectConstraints (.object m) = .object m' := by
  rw [enforceOpenaiObjectConstraints]
  split
  · exact ⟨_, rfl⟩
  · exact ⟨_, rfl⟩

theorem object_of_enforce {v : Value} {m' : Map}
    (h : enforceOpenaiObjectConstraints v = .object m') : ∃ m, v = .object m := by
  cases v with
  | object m => exact ⟨m, rfl⟩
  | _ => simp [enforceOpenaiObjectConstraints] at h

theorem alike_enforce (v : Value) : Alike v (enforceOpenaiObjectConstraints v) := by
  cases v with
  | object m =>
    obtain ⟨m', hm'⟩ := exists_enforce_object m
    rw [hm', Alike]
    exact trivial
  | array values =>
    rw [enforceOpenaiObjectConstraints, enforceValues_eq_map, Alike, List.length_map]
  | _ => simp [enforceOpenaiObjectConstraints, Alike]

/-! ## What the pass does at every place -/

theorem get_enforce_of_some {m : Map} {key : String} {w : Value} (h : m.get key = some w) :
    (enforceOpenaiObjectConstraints (.object m)).get key =
      some (enforceOpenaiObjectConstraints w) := by
  have hget : Map.get (enforceMembers m) key = some (enforceOpenaiObjectConstraints w) := by
    rw [get_enforceMembers, h, Option.map_some]
  by_cases hadds : HasObjectType m ∧ IsOpen m
  · have hkey : key ≠ "additionalProperties" := by
      rintro rfl
      rw [hadds.2] at h
      cases h
    rw [enforce_of_open hadds.1 hadds.2, Value.get_object, Map.get_insert, if_neg hkey, hget]
  · rw [enforce_of_not_open hadds, Value.get_object, hget]

theorem get_of_enforce {m : Map} {key : String} {w' : Value}
    (h : (enforceOpenaiObjectConstraints (.object m)).get key = some w') :
    (∃ w, m.get key = some w ∧ enforceOpenaiObjectConstraints w = w') ∨
      key = "additionalProperties" ∧ w' = .bool false ∧ HasObjectType m ∧ IsOpen m := by
  by_cases hadds : HasObjectType m ∧ IsOpen m
  · rw [enforce_of_open hadds.1 hadds.2, Value.get_object, Map.get_insert] at h
    split at h
    · rename_i hkey
      exact .inr ⟨hkey, (Option.some.inj h).symm, hadds⟩
    · rw [get_enforceMembers, Option.map_eq_some_iff] at h
      exact .inl h
  · rw [enforce_of_not_open hadds, Value.get_object, get_enforceMembers,
      Option.map_eq_some_iff] at h
    exact .inl h

theorem enforce_of_leaf {v : Value} (hobject : v.asObject = none) (harray : v.asArray = none) :
    enforceOpenaiObjectConstraints v = v := by
  cases v <;> simp_all [enforceOpenaiObjectConstraints, Value.asObject, Value.asArray]

/-- A step to something leads to what the pass makes of it. -/
theorem child_enforce {v w : Value} {step : Step} (h : child v step = some w) :
    child (enforceOpenaiObjectConstraints v) step = some (enforceOpenaiObjectConstraints w) := by
  rcases step with key | i
  · cases v with
    | object m => exact get_enforce_of_some h
    | _ => simp [child, Value.get, Value.asObject] at h
  · cases v with
    | array values =>
      rw [enforceOpenaiObjectConstraints, enforceValues_eq_map]
      simp_all [child, Value.asArray]
    | _ => simp [child, Value.asArray] at h

/-- And to nothing else, except to a keyword that has been added. -/
theorem child_of_enforce {v w' : Value} {step : Step}
    (h : child (enforceOpenaiObjectConstraints v) step = some w') :
    (∃ w, child v step = some w ∧ enforceOpenaiObjectConstraints w = w') ∨
      step = .key "additionalProperties" ∧ w' = .bool false ∧
        ∃ m, v = .object m ∧ HasObjectType m ∧ IsOpen m := by
  cases v with
  | object m =>
    rcases step with key | i
    · rcases get_of_enforce h with hw | ⟨rfl, rfl, htype, hopen⟩
      · exact .inl hw
      · exact .inr ⟨rfl, rfl, m, rfl, htype, hopen⟩
    · obtain ⟨m', hm'⟩ := exists_enforce_object m
      rw [hm'] at h
      cases h
  | array values =>
    rw [enforceOpenaiObjectConstraints, enforceValues_eq_map] at h
    rcases step with key | i
    · cases h
    · refine .inl ?_
      simpa [child, Value.asArray] using h
  | _ =>
    rw [enforce_of_leaf rfl rfl] at h
    rcases step with key | i <;> cases h

theorem descend_enforce {v w : Value} {path : List Step} (h : descend child v path = some w) :
    descend child (enforceOpenaiObjectConstraints v) path =
      some (enforceOpenaiObjectConstraints w) :=
  descend_map (fun _ _ _ => child_enforce) h

theorem descend_of_enforce {v w' : Value} {path : List Step}
    (h : descend child (enforceOpenaiObjectConstraints v) path = some w') :
    (∃ w, descend child v path = some w ∧ enforceOpenaiObjectConstraints w = w') ∨
      w' = .bool false ∧ ∃ p m, path = p ++ [.key "additionalProperties"] ∧
        descend child v p = some (.object m) ∧ HasObjectType m ∧ IsOpen m := by
  induction path generalizing v with
  | nil =>
    obtain rfl := Option.some.inj ((descend_nil _).symm.trans h)
    exact .inl ⟨v, descend_nil v, rfl⟩
  | cons step path ih =>
    rw [descend_cons, Option.bind_eq_some_iff] at h
    obtain ⟨a', ha', hw'⟩ := h
    rcases child_of_enforce ha' with ⟨a, ha, rfl⟩ | ⟨rfl, rfl, m, rfl, htype, hopen⟩
    · rcases ih hw' with ⟨w, hw, rfl⟩ | ⟨rfl, p, m, rfl, hm, htype, hopen⟩
      · exact .inl ⟨w, by rw [descend_cons, ha]; exact hw, rfl⟩
      · exact .inr ⟨rfl, step :: p, m, rfl, by rw [descend_cons, ha]; exact hm, htype, hopen⟩
    · -- Nothing is found within what has been added.
      rcases path with _ | ⟨step, path⟩
      · obtain rfl := Option.some.inj ((descend_nil _).symm.trans hw')
        exact .inr ⟨rfl, [], m, rfl, descend_nil _, htype, hopen⟩
      · rw [descend_cons] at hw'
        cases step <;> cases hw'

/-! ## A second pass -/

theorem enforceMembers_eq_self {m : Map}
    (h : ∀ p ∈ m, enforceOpenaiObjectConstraints p.2 = p.2) : enforceMembers m = m := by
  induction m with
  | nil => rfl
  | cons p m ih =>
    obtain ⟨k, v⟩ := p
    obtain ⟨hv, hm⟩ := List.forall_mem_cons.1 h
    rw [enforceMembers, hv, ih hm]

mutual

theorem enforce_enforce (v : Value) :
    enforceOpenaiObjectConstraints (enforceOpenaiObjectConstraints v) =
      enforceOpenaiObjectConstraints v := by
  match v with
  | .object m =>
    have hfixed := enforceMembers_fixed m
    by_cases hadds : HasObjectType m ∧ IsOpen m
    · rw [enforce_of_open hadds.1 hadds.2, enforce_of_not_open, enforceMembers_eq_self]
      · intro p hp
        rcases List.mem_cons.1 hp with rfl | hp
        · rfl
        · exact hfixed p (List.mem_of_mem_filter hp)
      · rintro ⟨-, hopen⟩
        rw [IsOpen, Map.get_insert, if_pos rfl] at hopen
        cases hopen
    · rw [enforce_of_not_open hadds, enforce_of_not_open, enforceMembers_eq_self hfixed]
      rwa [hasObjectType_enforceMembers, isOpen_enforceMembers]
  | .array values =>
    have hfixed := enforceValues_fixed values
    rw [enforceOpenaiObjectConstraints, enforceOpenaiObjectConstraints, enforceValues_eq_map,
      List.map_congr_left hfixed, List.map_id']
  | .null => rfl
  | .bool _ => rfl
  | .number _ => rfl
  | .string _ => rfl

theorem enforceMembers_fixed (m : Map) :
    ∀ p ∈ enforceMembers m, enforceOpenaiObjectConstraints p.2 = p.2 := by
  match m with
  | [] => simp [enforceMembers]
  | (key, v) :: m =>
    rw [enforceMembers, List.forall_mem_cons]
    exact ⟨enforce_enforce v, enforceMembers_fixed m⟩

theorem enforceValues_fixed (values : List Value) :
    ∀ v ∈ enforceValues values, enforceOpenaiObjectConstraints v = v := by
  match values with
  | [] => simp [enforceValues]
  | v :: values =>
    rw [enforceValues, List.forall_mem_cons]
    exact ⟨enforce_enforce v, enforceValues_fixed values⟩

end

/-! ## When the pass does what it should -/

/-- What goes wrong in a document that is not regular: a list of types is overlooked, or something
is closed that is no schema. -/
theorem ClosesObjects.regular {s : Value} (h : ClosesObjects s) : Regular s := by
  constructor
  case lists =>
    intro path m hschema hm hlists hopen
    have hnot : ¬ (HasObjectType m ∧ IsOpen m) := by
      rintro ⟨htype, -⟩
      obtain ⟨types, htypes, -⟩ := hlists
      cases htype.symm.trans htypes
    have hm' := descend_enforce hm
    rw [enforce_of_not_open hnot] at hm'
    exact h.closed path _ hschema hm' (.inr (listsObjectType_enforceMembers.2 hlists))
      (isOpen_enforceMembers.2 hopen)
  case data =>
    intro path m hdata hm htype hopen
    have hnone : descend child s (path ++ [.key "additionalProperties"]) = none := by
      rw [descend_concat, hm]
      exact hopen
    have hadded : descend child (enforceOpenaiObjectConstraints s)
        (path ++ [.key "additionalProperties"]) = some (.bool false) := by
      rw [descend_concat, descend_enforce hm, enforce_of_open htype hopen, Option.bind_some, child,
        Value.get_object, Map.get_insert, if_pos rfl]
    obtain ⟨-, p, -, hpath, hschema, -⟩ := h.added _ _ hadded hnone
    rw [List.append_left_inj] at hpath
    exact hdata (hpath ▸ hschema)

theorem Regular.closed {s : Value} (h : Regular s) {path : List Step} {m' : Map}
    (hschema : IsSchemaPath path)
    (hm' : descend child (enforceOpenaiObjectConstraints s) path = some (.object m'))
    (htype : HasObjectType m' ∨ ListsObjectType m') : ¬ IsOpen m' := by
  rcases descend_of_enforce hm' with ⟨w, hw, henforce⟩ | ⟨hfalse, -⟩
  · obtain ⟨m, rfl⟩ := object_of_enforce henforce
    by_cases hadds : HasObjectType m ∧ IsOpen m
    · rw [enforce_of_open hadds.1 hadds.2, Value.object.injEq] at henforce
      rw [← henforce, IsOpen, Map.get_insert, if_pos rfl]
      exact Option.some_ne_none _
    · rw [enforce_of_not_open hadds, Value.object.injEq] at henforce
      rw [← henforce, hasObjectType_enforceMembers, listsObjectType_enforceMembers] at htype
      rw [← henforce, isOpen_enforceMembers]
      intro hopen
      rcases htype with htype | hlists
      · exact hadds ⟨htype, hopen⟩
      · exact h.lists path m hschema hw hlists hopen
  · cases hfalse

/-- **The pass closes the schemas of objects and changes nothing else** exactly if no schema that
lists `"object"` among its types is open, and nothing that is not a schema has the type `"object"`
and is open. -/
theorem pass_closes_objects_iff (s : Value) : ClosesObjects s ↔ Regular s := by
  refine ⟨ClosesObjects.regular, fun h => ?_⟩
  constructor
  case closed => exact fun path m hschema hm htype => h.closed hschema hm htype
  case kept => exact fun path v hv => ⟨_, descend_enforce hv, alike_enforce v⟩
  case added =>
    intro path v' hv' hnone
    rcases descend_of_enforce hv' with ⟨v, hv, -⟩ | ⟨rfl, p, m, hpath, hm, htype, hopen⟩
    · rw [hnone] at hv
      cases hv
    · have hschema : IsSchemaPath p := by
        by_contra hdata
        exact h.data p m hdata hm htype hopen
      exact ⟨rfl, p, m, hpath, hschema, hm, .inl htype⟩
  case idempotent => exact enforce_enforce s

/-! ## An optional object -/

/-- A schema whose property `inner` is an object or `null`. -/
def optionalInner : Value :=
  .object [("type", .string "object"), ("properties", .object [
    ("inner", .object [("type", .array [.string "object", .string "null"])])])]

/-- It stays open. -/
theorem optional_object_left_open : ¬ ClosesObjects optionalInner := by
  intro h
  let inner : Map := [("type", .array [.string "object", .string "null"])]
  have hplace : place [.key "properties", .key "inner"] = .schema := by decide
  have hinner : descend child (enforceOpenaiObjectConstraints optionalInner)
      [.key "properties", .key "inner"] = some (.object inner) := rfl
  exact h.closed _ inner (.inl hplace) hinner (.inr ⟨_, rfl, List.mem_cons_self⟩) rfl

end CodexSdk.Schema

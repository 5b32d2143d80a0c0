import CodexSdk.Thread.Options
import CodexSdk.Toml

/-!
# The configuration of an agent

`config_map_from_agent` of `agx` turns the file of an agent into one map: the options that have a
type of their own, and then every other member of the file, tables being flattened to dotted keys.
`flattening_loses_nothing_iff` says for which files this can be undone.
-/

set_option autoImplicit false

namespace CodexSdk.Agx

open Json

/-! ## The map -/

inductive AgentApprovalPolicy
  | mode (mode : ApprovalMode)
  | raw (value : Value)

/-- The members of a file that are fields of `AgentConfig`. -/
def agentConfigFields : List String :=
  ["name", "description", "model", "model_provider", "developer_instructions",
    "model_instructions_file", "model_reasoning_effort", "model_reasoning_summary",
    "model_verbosity", "approval_policy", "sandbox_mode", "sandbox_policy", "personality",
    "base_instructions", "web_search"]

/-- The fields that go into the map.  `config` is what is left of the file, so that no key of it is
a field. -/
structure AgentConfig where
  modelVerbosity : Option ModelVerbosity
  approvalPolicy : Option AgentApprovalPolicy
  webSearch : Option WebSearchMode
  config : Toml.Table
  rest : agentConfigFields.all (fun key => (config.get key).isNone) = true
  unique : (Toml.Value.table config).uniqueKeys = true

mutual

def insertConfigValue (map : Map) (key : String) : Value → Map
  | .object object => insertConfigMembers map key object
  | value => map.insert key value

/-- The loop over the members of an object. -/
def insertConfigMembers (map : Map) (key : String) : Map → Map
  | [] => map
  | (childKey, childValue) :: object =>
    insertConfigMembers (insertConfigValue map s!"{key}.{childKey}" childValue) key object

end

/-- The options that have a type of their own. -/
def AgentConfig.typedOptions (config : AgentConfig) : Map :=
  let map : Map := []
  let map := map.insertSome "model_verbosity" (config.modelVerbosity.map (.string ·.asStr))
  let map := map.insertSome "web_search" (config.webSearch.map (.string ·.asStr))
  match config.approvalPolicy with
  | some (.raw value) => map.insert "approval_policy" value
  | _ => map

section

-- What the crate that reads TOML serializes a date or time to.
variable (datetime : String → Value)

def configMapFromAgent (config : AgentConfig) : Map :=
  config.config.foldl
    (fun map (key, value) => insertConfigValue map key (value.toJson datetime)) config.typedOptions

/-- The members that the options with a type do not account for. -/
def untypedMembers (config : AgentConfig) : Map :=
  (configMapFromAgent datetime config).filter fun p => (config.typedOptions.get p.1).isNone

/-! ## What flattening should keep -/

/-- Every leaf of the tables is there under its path with its value, for which JSON has to have a
number if it is one; no two leaves have one key; the options with a type stay; and the tables come
back when the dotted keys are nested. -/
structure LosesNothing (config : AgentConfig) : Prop where
  appears : ∀ path leaf, (Toml.Value.table config.config).Assigns path leaf →
    (configMapFromAgent datetime config).get (dotted path) = some (leaf.toJson datetime) ∧
      leaf.finite = true
  apart : ∀ path path' leaf leaf', (Toml.Value.table config.config).Assigns path leaf →
    (Toml.Value.table config.config).Assigns path' leaf' → dotted path = dotted path' →
      path = path'
  typed : ∀ key value, config.typedOptions.get key = some value →
    (configMapFromAgent datetime config).get key = some value
  recovered : (Value.renest (untypedMembers datetime config) ==
    (Toml.Value.table config.config).toJson datetime) = true

/-- No key of the tables has a dot, no table in them is empty, no date or time becomes an object,
and all floats are finite. -/
structure Flattens (t : Toml.Table) : Prop where
  dotFree : ∀ path v, (Toml.Value.table t).descend path = some v → ∀ key ∈ path, DotFree key
  nonempty : ∀ path, path ≠ [] → (Toml.Value.table t).descend path ≠ some (.table [])
  plain : (Toml.Value.table t).PlainLeaves datetime
  finite : ∀ path leaf, (Toml.Value.table t).Assigns path leaf → leaf.finite = true

end

/-! ## Flattening -/

mutual

/-- What is inserted for a value are its leaves, behind the path of the value. -/
theorem insertConfigValue_eq {path : List String} (h : path ≠ []) (map : Map) (v : Value) :
    insertConfigValue map (dotted path) v =
      map.assignAll (v.leaves.map fun p => (path ++ p.1, p.2)) := by
  cases v with
  | object m =>
    rw [insertConfigValue, Value.leaves]
    exact insertConfigMembers_eq h map m
  | _ => simp [insertConfigValue, Value.leaves, Map.assignAll]

theorem insertConfigMembers_eq {path : List String} (h : path ≠ []) (map : Map) (m : Map) :
    insertConfigMembers map (dotted path) m =
      map.assignAll ((Value.leavesOfMembers m).map fun p => (path ++ p.1, p.2)) := by
  match m with
  | [] => rfl
  | (key, v) :: m =>
    have hkey : s!"{dotted path}.{key}" = dotted (path ++ [key]) := (dotted_concat h key).symm
    rw [insertConfigMembers, hkey, insertConfigValue_eq (by simp), insertConfigMembers_eq h,
      Value.leavesOfMembers, List.map_append, Map.assignAll, Map.assignAll, Map.assignAll,
      List.foldl_append]
    simp [Function.comp_def]

end

section

variable {datetime : String → Value} {config : AgentConfig}

/-- The leaves that are inserted. -/
def flattened (datetime : String → Value) (config : AgentConfig) : List (List String × Value) :=
  ((Toml.Value.table config.config).toJson datetime).leaves

theorem configMapFromAgent_eq : configMapFromAgent datetime config =
    config.typedOptions.assignAll (flattened datetime config) := by
  rw [configMapFromAgent, flattened, Toml.Value.toJson_table, Value.leaves]
  generalize config.typedOptions = map
  induction config.config generalizing map with
  | nil => rfl
  | cons p t ih =>
    obtain ⟨key, v⟩ := p
    have hkey : dotted [key] = key := String.intercalate_singleton
    rw [List.foldl_cons, ih, Toml.tableToJson, Value.leavesOfMembers, Map.assignAll, Map.assignAll,
      List.foldl_append]
    have hvalue := insertConfigValue_eq (List.cons_ne_nil key []) map (v.toJson datetime)
    rw [hkey] at hvalue
    exact congrArg (Map.assignAll · (Value.leavesOfMembers (Toml.tableToJson datetime t))) hvalue

theorem asObject_of_mem_flattened {path : List String} {leaf : Value}
    (h : (path, leaf) ∈ flattened datetime config) : leaf.asObject = none :=
  Value.asObject_of_mem_leaves h

/-! ## The options with a type -/

theorem nodup_typedOptions : (config.typedOptions.map Prod.fst).Nodup := by
  have hnil : (([] : Map).map Prod.fst).Nodup := List.nodup_nil
  have h := Map.nodup_insertSome (Map.nodup_insertSome hnil "model_verbosity"
    (config.modelVerbosity.map (.string ·.asStr))) "web_search"
    (config.webSearch.map (.string ·.asStr))
  rw [AgentConfig.typedOptions]
  split
  · exact Map.nodup_insert h _ _
  · exact h

/-- They are under the names of fields. -/
theorem field_of_typedOptions {key : String} {v : Value}
    (h : config.typedOptions.get key = some v) : key ∈ agentConfigFields ∧ DotFree key := by
  have hkey : key = "model_verbosity" ∨ key = "web_search" ∨ key = "approval_policy" := by
    by_contra hkey
    obtain ⟨hverbosity, hsearch, hpolicy⟩ : key ≠ "model_verbosity" ∧ key ≠ "web_search" ∧
      key ≠ "approval_policy" := by simpa only [not_or] using hkey
    rw [AgentConfig.typedOptions] at h
    split at h
    · rw [Map.get_insert, if_neg hpolicy, Map.get_insertSome, if_neg hsearch, Map.get_insertSome,
        if_neg hverbosity] at h
      cases h
    · rw [Map.get_insertSome, if_neg hsearch, Map.get_insertSome, if_neg hverbosity] at h
      cases h
  rcases hkey with rfl | rfl | rfl <;> simp [agentConfigFields, DotFree]

/-- No key that is written for a path into the tables is one of them. -/
theorem typedOptions_get_dotted {key : String} (h : config.config.get key ≠ none)
    (path : List String) : config.typedOptions.get (dotted (key :: path)) = none := by
  by_contra hsome
  obtain ⟨v, hv⟩ := Option.ne_none_iff_exists'.1 hsome
  obtain ⟨hfield, hdot⟩ := field_of_typedOptions hv
  rcases path with _ | ⟨key', path⟩
  · rw [dotted, String.intercalate_singleton] at hfield
    exact h (Option.isNone_iff_eq_none.1 (List.all_eq_true.1 config.rest key hfield))
  · exact not_dotFree_dotted key key' path hdot

theorem typedOptions_get_of_assigns {path : List String} {leaf : Toml.Value}
    (h : (Toml.Value.table config.config).Assigns path leaf) :
    config.typedOptions.get (dotted path) = none := by
  rcases path with _ | ⟨key, path⟩
  · obtain ⟨rfl, hleaf⟩ := Toml.Value.assigns_nil.1 h
    cases hleaf
  · obtain ⟨w, hw, -⟩ := Toml.Value.assigns_cons.1 h
    rw [Toml.Value.get_table] at hw
    exact typedOptions_get_dotted (hw ▸ Option.some_ne_none w) path

theorem typedOptions_get_of_mem {path : List String} {leaf : Value}
    (h : (path, leaf) ∈ flattened datetime config) :
    config.typedOptions.get (dotted path) = none := by
  rw [flattened, Toml.Value.toJson_table, Value.leaves] at h
  obtain ⟨key, v, q, hmem, -, rfl⟩ := Value.mem_leavesOfMembers.1 h
  refine typedOptions_get_dotted (fun hnone => ?_) q
  have hkey : Map.get (Toml.tableToJson datetime config.config) key = _ :=
    Toml.get_tableToJson config.config key
  rw [hnone, Option.map_none, Map.get_eq_none_iff] at hkey
  exact hkey (List.mem_map.2 ⟨_, hmem, rfl⟩)

/-- The options with a type are kept whatever the tables are. -/
theorem get_typedOption {key : String} {v : Value} (h : config.typedOptions.get key = some v) :
    (configMapFromAgent datetime config).get key = some v := by
  rw [configMapFromAgent_eq, Map.get_assignAll_of_ne, h]
  rintro ⟨path, leaf⟩ hmem rfl
  rw [typedOptions_get_of_mem hmem] at h
  cases h

theorem nodup_configMapFromAgent : ((configMapFromAgent datetime config).map Prod.fst).Nodup := by
  rw [configMapFromAgent_eq]
  exact Map.nodup_assignAll nodup_typedOptions _

theorem nodup_untypedMembers : ((untypedMembers datetime config).map Prod.fst).Nodup :=
  nodup_configMapFromAgent.sublist (List.filter_sublist.map _)

theorem mem_untypedMembers {key : String} {v : Value} :
    (key, v) ∈ untypedMembers datetime config ↔
      (configMapFromAgent datetime config).get key = some v ∧
        config.typedOptions.get key = none := by
  rw [untypedMembers, List.mem_filter, Value.mem_iff_get nodup_configMapFromAgent,
    Option.isNone_iff_eq_none]

/-- What is in the map besides them is a leaf. -/
theorem leaf_of_mem_untypedMembers {key : String} {v : Value}
    (h : (key, v) ∈ untypedMembers datetime config) :
    ∃ path, (path, v) ∈ flattened datetime config ∧ dotted path = key := by
  obtain ⟨hget, hnone⟩ := mem_untypedMembers.1 h
  rw [configMapFromAgent_eq] at hget
  rcases Map.get_assignAll_cases hget with ⟨⟨path, leaf⟩, hmem, hkey, rfl⟩ | htyped
  · exact ⟨path, hmem, hkey⟩
  · rw [hnone] at htyped
    cases htyped

theorem tidy_renest_untypedMembers : (Value.renest (untypedMembers datetime config)).Tidy := by
  refine Value.tidy_renest ?_
  rintro ⟨key, v⟩ hmem
  obtain ⟨path, hpath, -⟩ := leaf_of_mem_untypedMembers hmem
  exact asObject_of_mem_flattened hpath

/-! ## What is kept has been flat -/

theorem LosesNothing.flattens (h : LosesNothing datetime config) :
    Flattens datetime config.config := by
  have htidy := Value.tidy_of_same h.recovered tidy_renest_untypedMembers
  constructor
  case dotFree =>
    intro path v hv key hkey
    refine (htidy path _ ?_ (Toml.Value.descend_toJson_of_some hv)).2 key hkey
    rintro rfl
    exact List.not_mem_nil hkey
  case nonempty =>
    intro path hne hempty
    refine (htidy path _ hne (Toml.Value.descend_toJson_of_some hempty)).1 ?_
    rw [Toml.Value.toJson_table, Toml.tableToJson]
  case plain =>
    intro path leaf hleaf
    have hget := (h.appears path leaf hleaf).1
    obtain ⟨path', hmem, -⟩ := leaf_of_mem_untypedMembers
      (mem_untypedMembers.2 ⟨hget, typedOptions_get_of_assigns hleaf⟩)
    exact asObject_of_mem_flattened hmem
  case finite => exact fun path leaf hleaf => (h.appears path leaf hleaf).2

/-! ## What is flat is kept -/

theorem Flattens.segments_dotted (h : Flattens datetime config.config) {path : List String}
    {leaf : Toml.Value} (hleaf : (Toml.Value.table config.config).Assigns path leaf) :
    segments (dotted path) = path := by
  refine Json.segments_dotted ?_ (h.dotFree path leaf hleaf.1)
  rintro rfl
  obtain ⟨rfl, htable⟩ := Toml.Value.assigns_nil.1 hleaf
  cases htable

theorem Flattens.tidy (h : Flattens datetime config.config) :
    ((Toml.Value.table config.config).toJson datetime).Tidy := by
  intro path w hne hw
  rw [h.plain.descend_toJson, Option.map_eq_some_iff] at hw
  obtain ⟨v, hv, rfl⟩ := hw
  refine ⟨fun hempty => ?_, h.dotFree path v hv⟩
  obtain ⟨t, rfl, ht⟩ := (h.plain.of_descend hv).asObject_toJson hempty
  obtain rfl := Toml.tableToJson_eq_nil.1 ht.symm
  exact h.nonempty path hne hv

theorem Flattens.mem_flattened (h : Flattens datetime config.config) {path : List String}
    {leaf : Value} : (path, leaf) ∈ flattened datetime config ↔
      ∃ v, (Toml.Value.table config.config).Assigns path v ∧ v.toJson datetime = leaf := by
  rw [← h.plain.assigns_toJson]
  refine Value.mem_leaves fun path m hm => ?_
  rw [h.plain.descend_toJson, Option.map_eq_some_iff] at hm
  obtain ⟨v, hv, hvm⟩ := hm
  obtain ⟨t, rfl, rfl⟩ := (h.plain.of_descend hv).asObject_toJson hvm
  rw [Toml.keys_tableToJson]
  exact Toml.nodup_of_uniqueKeys (Toml.uniqueKeys_descend config.unique hv)

theorem Flattens.get (h : Flattens datetime config.config) {path : List String}
    {leaf : Toml.Value} (hleaf : (Toml.Value.table config.config).Assigns path leaf) :
    (configMapFromAgent datetime config).get (dotted path) = some (leaf.toJson datetime) := by
  rw [configMapFromAgent_eq]
  refine Map.get_assignAll_of_forall ⟨_, h.mem_flattened.2 ⟨leaf, hleaf, rfl⟩, rfl⟩ ?_
  rintro ⟨path', leaf'⟩ hmem hkey
  obtain ⟨v, hv, rfl⟩ := h.mem_flattened.1 hmem
  have hpath : path' = path := by
    rw [← h.segments_dotted hv, ← h.segments_dotted hleaf, hkey]
  subst hpath
  rw [Descent.LeafAt.unique hv hleaf]

/-- What is in the map besides the options with a type are the leaves. -/
theorem Flattens.mem_untypedMembers_iff (h : Flattens datetime config.config) {path : List String}
    {leaf : Value} : (∃ key, (key, leaf) ∈ untypedMembers datetime config ∧ segments key = path) ↔
      (path, leaf) ∈ flattened datetime config := by
  constructor
  · rintro ⟨key, hmem, rfl⟩
    obtain ⟨path, hpath, rfl⟩ := leaf_of_mem_untypedMembers hmem
    obtain ⟨v, hv, rfl⟩ := h.mem_flattened.1 hpath
    rw [h.segments_dotted hv]
    exact hpath
  · intro hpath
    obtain ⟨v, hv, rfl⟩ := h.mem_flattened.1 hpath
    exact ⟨dotted path, mem_untypedMembers.2 ⟨h.get hv, typedOptions_get_of_assigns hv⟩,
      h.segments_dotted hv⟩

/-- No path leads on from another, since there is a leaf at the end of each. -/
theorem Flattens.apart_untypedMembers (h : Flattens datetime config.config) :
    (untypedMembers datetime config).Pairwise fun p p' =>
      Value.Apart (segments p.1) (segments p'.1) := by
  have hassigns : ∀ p ∈ untypedMembers datetime config, dotted (segments p.1) = p.1 ∧
      ((Toml.Value.table config.config).toJson datetime).Assigns (segments p.1) p.2 := by
    rintro ⟨key, v⟩ hmem
    obtain ⟨path, hpath, rfl⟩ := leaf_of_mem_untypedMembers hmem
    obtain ⟨leaf, hleaf, rfl⟩ := h.mem_flattened.1 hpath
    rw [h.segments_dotted hleaf]
    exact ⟨rfl, h.plain.assigns_toJson.2 ⟨leaf, hleaf, rfl⟩⟩
  refine List.Pairwise.imp_of_mem (fun {p p'} hp hp' hne => ?_)
    (List.pairwise_map.1 nodup_untypedMembers)
  obtain ⟨hkey, hleaf⟩ := hassigns p hp
  obtain ⟨hkey', hleaf'⟩ := hassigns p' hp'
  constructor
  · intro hpath
    rw [← hkey, ← hkey', hleaf.eq_of_prefix hleaf' hpath] at hne
    exact hne rfl
  · intro hpath
    rw [← hkey, ← hkey', hleaf'.eq_of_prefix hleaf hpath] at hne
    exact hne rfl

theorem Flattens.recovered (h : Flattens datetime config.config) :
    (Value.renest (untypedMembers datetime config) ==
      (Toml.Value.table config.config).toJson datetime) = true := by
  have hleaf : ∀ p ∈ untypedMembers datetime config, p.2.asObject = none := by
    rintro ⟨key, v⟩ hmem
    obtain ⟨path, hpath, -⟩ := leaf_of_mem_untypedMembers hmem
    exact asObject_of_mem_flattened hpath
  refine Value.same_of_assigns tidy_renest_untypedMembers h.tidy fun path leaf => ?_
  rw [Value.assigns_renest h.apart_untypedMembers hleaf, h.mem_untypedMembers_iff,
    h.mem_flattened, h.plain.assigns_toJson]

/-- **Flattening loses nothing** exactly if no key has a dot, no table within is empty, no date or
time is serialized to an object, and all floats are finite. -/
theorem flattening_loses_nothing_iff (datetime : String → Value) (config : AgentConfig) :
    LosesNothing datetime config ↔ Flattens datetime config.config := by
  refine ⟨LosesNothing.flattens, fun h => ?_⟩
  constructor
  case appears => exact fun path leaf hleaf => ⟨h.get hleaf, h.finite path leaf hleaf⟩
  case apart =>
    intro path path' leaf leaf' hleaf hleaf' hdotted
    rw [← h.segments_dotted hleaf, ← h.segments_dotted hleaf', hdotted]
  case typed => exact fun key value hvalue => get_typedOption hvalue
  case recovered => exact h.recovered

end

/-! ## A key that is overwritten -/

/-- What `toml` serializes a date or time to. -/
def privateDatetime (text : String) : Value :=
  .object [("$__toml_private_datetime", .string text)]

/-- `b = 2` in the table `a`, and `"a.b" = 1` beside it. -/
def quotedKey : AgentConfig where
  modelVerbosity := none
  approvalPolicy := none
  webSearch := none
  config := [("a", .table [("b", .integer 2)]), ("a.b", .integer 1)]
  rest := rfl
  unique := rfl

theorem quoted_key_overwrites : ¬ LosesNothing privateDatetime quotedKey := by
  intro h
  have htwo := (h.appears ["a", "b"] (.integer 2) ⟨rfl, rfl⟩).1
  have hone : (configMapFromAgent privateDatetime quotedKey).get (dotted ["a", "b"]) =
      some ((Toml.Value.integer 1).toJson privateDatetime) := rfl
  rw [hone, Option.some.injEq, Toml.Value.toJson, Toml.Value.toJson, Value.number.injEq] at htwo
  exact absurd htwo (by decide)

end CodexSdk.Agx

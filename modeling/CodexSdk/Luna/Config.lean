import CodexSdk.Compatible
import CodexSdk.Encode
import CodexSdk.Equality
import CodexSdk.Luna.Exec
import CodexSdk.Thread.Options

/-!
# The configuration of a thread

`build_thread_config` of `config.rs`: the members of `--config-json`, the `--config` entries and the
dedicated flags, inserted one after another into one map.  A key that has a value already is left
alone if the new value is the same, and is an error otherwise.

`config_is_union` says that this is a union without conflicts, whatever the order.
-/

set_option autoImplicit false

namespace CodexSdk.Luna

open Json Text PartialMap

/-! ## Insertion -/

def insertThreadConfig (config : Map) (key : String) (value : Value) (source : String) :
    Except LunaError Map :=
  match config.get key with
  | some existing =>
    if existing == value then .ok config
    else .error (.usage (s!"conflicting configuration sources for '{key}'; "
      ++ s!"{source} would replace an existing value"))
  | none => .ok (config.insert key value)

/-- A flag that may be absent. -/
def insertFlag (config : Map) (key : String) (value : Option Value) (source : String) :
    Except LunaError Map :=
  match value with
  | some value => insertThreadConfig config key value source
  | none => .ok config

section

-- `serde_json::from_str`, with the text of its error.
variable (parse : String → Except String Value)

def parseJsonValue (raw flag : String) : Except LunaError Value :=
  match parse raw with
  | .ok value => .ok value
  | .error error => .error (.usage s!"failed to parse JSON for {flag}: {error}")

def parseOptionalJsonObject (raw : Option String) (flag : String) :
    Except LunaError (Option Map) :=
  match raw with
  | none => .ok none
  | some raw => do
    match ← parseJsonValue parse raw flag with
    | .object object => return some object
    | _ => throw (.usage s!"{flag} must be a JSON object")

/-- A `--config` entry: `KEY=VALUE`, the value being a JSON text or else a string. -/
def parseConfigEntry (entry : String) : Except LunaError (String × Value) :=
  match splitOnce '=' entry.toList with
  | none => .error (.usage "invalid --config entry; expected KEY=VALUE")
  | some (rawKey, rawValue) =>
    let key := String.ofList (trim rawKey)
    let value := String.ofList (trim rawValue)
    if key = "" then .error (.usage "invalid --config entry; key cannot be empty")
    else if value = "" then
      .error (.usage s!"invalid --config entry for key '{key}'; value cannot be empty")
    else .ok (key, match parse value with
      | .ok parsed => parsed
      | .error _ => .string value)

/-- The body of the loop over the entries. -/
def insertConfigEntry (config : Map) (entry : String) : Except LunaError Map := do
  let (key, parsed) ← parseConfigEntry parse entry
  insertThreadConfig config key parsed "--config"

end

/-! ## The sources -/

/-- The arguments of `build_thread_config`. -/
structure ConfigSources where
  configJson : Option String
  configEntries : List String
  webSearchMode : Option WebSearchMode
  configProfile : Option String
  modelVerbosity : Option ModelVerbosity
  sandboxNetworkAccessEnabled : Option Bool
  sandboxWritableRoots : List String

namespace ConfigSources

def writableRoots (self : ConfigSources) : Option Value :=
  if self.sandboxWritableRoots.isEmpty then none
  else some (.array (self.sandboxWritableRoots.map .string))

/-- The inserts of the flags, in their order. -/
def insertFlags (self : ConfigSources) (config : Map) : Except LunaError Map := do
  let config ← insertFlag config "web_search" (self.webSearchMode.map fun mode =>
    .string mode.asStr) "--web-search-mode"
  let config ← insertFlag config "profile" (self.configProfile.map .string) "--config-profile"
  let config ← insertFlag config "model_verbosity" (self.modelVerbosity.map fun verbosity =>
    .string verbosity.asStr) "--model-verbosity"
  let config ← insertFlag config "sandbox_workspace_write.network_access"
    (self.sandboxNetworkAccessEnabled.map .bool)
    "--sandbox-network-access-enabled/--sandbox-network-access-disabled"
  insertFlag config "sandbox_workspace_write.writable_roots" self.writableRoots
    "--sandbox-writable-root"

end ConfigSources

def buildThreadConfig (parse : String → Except String Value) (sources : ConfigSources) :
    Except LunaError (Option Map) := do
  let config := (← parseOptionalJsonObject parse sources.configJson "--config-json").getD []
  let config ← sources.configEntries.foldlM (insertConfigEntry parse) config
  let config ← sources.insertFlags config
  return if config.isEmpty then none else some config

/-! ## What the sources give -/

namespace ConfigSources

/-- The assignments of the flags. -/
def flags (self : ConfigSources) : Map :=
  let given (key : String) (value : Option Value) : Map := (value.map fun v => (key, v)).toList
  given "web_search" (self.webSearchMode.map fun mode => .string mode.asStr)
    ++ given "profile" (self.configProfile.map .string)
    ++ given "model_verbosity" (self.modelVerbosity.map fun verbosity => .string verbosity.asStr)
    ++ given "sandbox_workspace_write.network_access"
      (self.sandboxNetworkAccessEnabled.map .bool)
    ++ given "sandbox_workspace_write.writable_roots"
      (if self.sandboxWritableRoots = [] then none
        else some (.array (self.sandboxWritableRoots.map .string)))

end ConfigSources

/-- The entry is `key=text`: what stands before its first `=` and what stands after it, each without
the blanks around it, and neither of them empty. -/
structure EntryText (entry : String) (key text : List Char) : Prop where
  split : ∃ rawKey rawText, entry.toList = rawKey ++ '=' :: rawText ∧ '=' ∉ rawKey ∧
    Trims rawKey key ∧ Trims rawText text
  key_ne : key ≠ []
  text_ne : text ≠ []

/-- What an entry gives: its text as JSON, or else as a string. -/
inductive EntryGives (parse : String → Except String Value) (entry : String) :
    String × Value → Prop
  | json {key text : List Char} {value : Value} (h : EntryText entry key text)
      (hvalue : parse (String.ofList text) = .ok value) :
      EntryGives parse entry (String.ofList key, value)
  | text {key text : List Char} {error : String} (h : EntryText entry key text)
      (herror : parse (String.ofList text) = .error error) :
      EntryGives parse entry (String.ofList key, .string (String.ofList text))

/-- The entry has no `=`, or only blanks before the first one or after it. -/
def MalformedEntry (entry : String) : Prop :=
  '=' ∉ entry.toList ∨ ∃ rawKey rawText, entry.toList = rawKey ++ '=' :: rawText ∧ '=' ∉ rawKey ∧
    ((∀ c ∈ rawKey, isWhitespace c = true) ∨ ∀ c ∈ rawText, isWhitespace c = true)

/-- What `--config-json` gives: the members of the object its text is read as. -/
inductive JsonGives (parse : String → Except String Value) : Option String → Map → Prop
  | absent : JsonGives parse none []
  | object {text : String} {object : Map} (h : parse text = .ok (.object object)) :
      JsonGives parse (some text) object

/-- The sources are well-formed, and `members` is what each of them gives: the JSON object, every
entry, every flag. -/
inductive ConfigSources.Members (parse : String → Except String Value) (self : ConfigSources) :
    List Map → Prop
  | mk {object : Map} {entries : List (String × Value)}
      (hobject : JsonGives parse self.configJson object)
      (hentries : List.Forall₂ (EntryGives parse) self.configEntries entries) :
      self.Members parse (object :: (entries ++ self.flags).map fun member => [member])

/-- Two of the sources give different values to a key. -/
def Conflicting (members : List Map) : Prop :=
  ∃ s ∈ members, ∃ s' ∈ members, ∃ key v w,
    Map.get s key = some v ∧ Map.get s' key = some w ∧ (v == w) = false

/-- The map has the keys of the sources, each with the value of the sources that name it. -/
structure UnionOf (members : List Map) (config : Map) : Prop where
  keys : ∀ key, (∃ value, config.get key = some value) ↔
    ∃ s ∈ members, ∃ value, Map.get s key = some value
  values : ∀ s ∈ members, ∀ key value, Map.get s key = some value →
    ∃ value', config.get key = some value' ∧ (value' == value) = true

/-! ## Insertion is the addition of an assignment -/

/-- What a map that may not have come about holds. -/
def held (r : Except LunaError Map) : Option (String → Option Value) := r.toOption.map Map.get

theorem held_bind (g : (String → Option Value) → Option (String → Option Value))
    {f : Map → Except LunaError Map} (h : ∀ m, held (f m) = g m.get)
    (r : Except LunaError Map) : held (r >>= f) = (held r).bind g := by
  cases r with
  | error error => rfl
  | ok m => exact h m

theorem get_insert_eq_update (m : Map) (key : String) (value : Value) :
    (m.insert key value).get = Function.update m.get key (some value) := by
  funext k
  rw [Map.get_insert, Function.update_apply]

theorem held_insertThreadConfig (m : Map) (key : String) (value : Value) (source : String) :
    held (insertThreadConfig m key value source) = add m.get (key, value) := by
  rw [insertThreadConfig]
  cases hkey : m.get key with
  | none =>
    rw [add_of_none hkey, ← get_insert_eq_update]
    rfl
  | some existing =>
    rw [add_of_some hkey]
    dsimp only
    split <;> rfl

theorem held_insertFlag (m : Map) (key : String) (value : Option Value) (source : String) :
    held (insertFlag m key value source) =
      addAll m.get (value.map fun v => (key, v)).toList := by
  cases value with
  | none => rfl
  | some value =>
    rw [insertFlag, held_insertThreadConfig, Option.map_some, Option.toList_some, addAll,
      List.foldlM_cons]
    exact (bind_pure _).symm

/-- A flag, and then what the rest adds. -/
theorem held_insertFlag_bind {f : Map → Except LunaError Map} {l : List (String × Value)}
    (h : ∀ m, held (f m) = addAll m.get l) (m : Map) (key : String) (value : Option Value)
    (source : String) : held (insertFlag m key value source >>= f) =
      addAll m.get ((value.map fun v => (key, v)).toList ++ l) := by
  rw [held_bind (fun g => addAll g l) h, held_insertFlag, addAll_append]

theorem held_insertFlags (sources : ConfigSources) (m : Map) :
    held (sources.insertFlags m) = addAll m.get sources.flags := by
  rw [ConfigSources.flags, List.append_assoc, List.append_assoc, List.append_assoc]
  refine held_insertFlag_bind (fun m => ?_) m _ _ _
  refine held_insertFlag_bind (fun m => ?_) m _ _ _
  refine held_insertFlag_bind (fun m => ?_) m _ _ _
  refine held_insertFlag_bind (fun m => ?_) m _ _ _
  simp only [← List.isEmpty_iff]
  exact held_insertFlag m _ _ _

section

variable (parse : String → Except String Value)

/-- The loop over the entries adds what they give, if all of them are well-formed. -/
theorem held_insertConfigEntries (entries : List String) (m : Map) :
    held (entries.foldlM (insertConfigEntry parse) m) =
      (entries.mapM (parseConfigEntry parse)).toOption.bind (addAll m.get) := by
  induction entries generalizing m with
  | nil => rfl
  | cons entry entries ih =>
    rw [List.foldlM_cons, List.mapM_cons, insertConfigEntry]
    cases hentry : parseConfigEntry parse entry with
    | error error => rfl
    | ok member =>
      have hrest := held_bind
        (fun f => (entries.mapM (parseConfigEntry parse)).toOption.bind (addAll f)) ih
        (insertThreadConfig m member.1 member.2 "--config")
      rw [held_insertThreadConfig] at hrest
      refine hrest.trans ?_
      cases hentries : entries.mapM (parseConfigEntry parse) with
      | error error => cases add m.get (member.1, member.2) <;> rfl
      | ok members => rfl

/-- The map that is built, before it is looked at whether it is empty. -/
def builtConfig (sources : ConfigSources) : Except LunaError Map := do
  let config := (← parseOptionalJsonObject parse sources.configJson "--config-json").getD []
  let config ← sources.configEntries.foldlM (insertConfigEntry parse) config
  sources.insertFlags config

theorem buildThreadConfig_eq (sources : ConfigSources) :
    buildThreadConfig parse sources = (builtConfig parse sources).map fun config =>
      if config.isEmpty then none else some config := by
  rw [buildThreadConfig, builtConfig]
  cases parseOptionalJsonObject parse sources.configJson "--config-json" with
  | error error => rfl
  | ok object =>
    dsimp only [bind, Except.bind]
    cases sources.configEntries.foldlM (insertConfigEntry parse) (object.getD []) with
    | error error => rfl
    | ok config => cases hflags : sources.insertFlags config with
      | error error => simp [hflags, Except.map]
      | ok config => simp [hflags, Except.map]; rfl

theorem held_builtConfig (sources : ConfigSources) :
    held (builtConfig parse sources) =
      (parseOptionalJsonObject parse sources.configJson "--config-json").toOption.bind fun object =>
        (sources.configEntries.mapM (parseConfigEntry parse)).toOption.bind fun entries =>
          addAll (object.getD []).get (entries ++ sources.flags) := by
  rw [builtConfig]
  cases parseOptionalJsonObject parse sources.configJson "--config-json" with
  | error error => rfl
  | ok object =>
    have hflags := held_bind (fun f => addAll f sources.flags)
      (fun m => held_insertFlags sources m)
      (sources.configEntries.foldlM (insertConfigEntry parse) (object.getD []))
    rw [held_insertConfigEntries] at hflags
    refine hflags.trans ?_
    cases sources.configEntries.mapM (parseConfigEntry parse) with
    | error error => rfl
    | ok entries => exact (addAll_append _ entries sources.flags).symm

end

/-! ## The parsers read what is given -/

theorem jsonGives_iff {parse : String → Except String Value} {raw : Option String} {object : Map} :
    JsonGives parse raw object ↔ ∃ parsed,
      parseOptionalJsonObject parse raw "--config-json" = .ok parsed ∧ parsed.getD [] = object := by
  constructor
  · intro h
    cases h with
    | absent => exact ⟨none, rfl, rfl⟩
    | @object text object hobject =>
      exact ⟨some object, by rw [parseOptionalJsonObject, parseJsonValue, hobject]; rfl, rfl⟩
  · rintro ⟨parsed, hparsed, rfl⟩
    cases raw with
    | none =>
      cases hparsed
      exact .absent
    | some text =>
      rw [parseOptionalJsonObject, parseJsonValue] at hparsed
      cases hvalue : parse text with
      | error error =>
        rw [hvalue] at hparsed
        cases hparsed
      | ok value =>
        rw [hvalue] at hparsed
        cases value with
        | object object =>
          cases hparsed
          exact .object hvalue
        | _ => cases hparsed

theorem ofList_eq_empty_iff {l : List Char} : String.ofList l = "" ↔ l = [] := by
  rw [← String.toList_eq_nil_iff, String.toList_ofList]

/-- The value of an entry. -/
def entryValue (parse : String → Except String Value) (text : String) : Value :=
  match parse text with
  | .ok parsed => parsed
  | .error _ => .string text

/-- The parser takes an entry apart at its first `=`. -/
theorem parseConfigEntry_split {parse : String → Except String Value} {entry : String}
    {rawKey rawText : List Char} (h : entry.toList = rawKey ++ '=' :: rawText)
    (hfirst : '=' ∉ rawKey) {member : String × Value} :
    parseConfigEntry parse entry = .ok member ↔ trim rawKey ≠ [] ∧ trim rawText ≠ [] ∧
      (String.ofList (trim rawKey), entryValue parse (String.ofList (trim rawText))) = member := by
  rw [parseConfigEntry, h, splitOnce_append hfirst]
  simp only [ofList_eq_empty_iff]
  by_cases hkey : trim rawKey = []
  · simp [hkey]
  · by_cases htext : trim rawText = []
    · simp [hkey, htext]
    · rw [if_neg hkey, if_neg htext, Except.ok.injEq]
      exact ⟨fun hmember => ⟨hkey, htext, hmember⟩, fun hmember => hmember.2.2⟩

theorem entryGives_iff {parse : String → Except String Value} {entry : String}
    {member : String × Value} : EntryGives parse entry member ↔ ∃ key text,
      EntryText entry key text ∧
        (String.ofList key, entryValue parse (String.ofList text)) = member := by
  constructor
  · rintro (⟨h, hvalue⟩ | ⟨h, herror⟩)
    · exact ⟨_, _, h, by rw [entryValue, hvalue]⟩
    · exact ⟨_, _, h, by rw [entryValue, herror]⟩
  · rintro ⟨key, text, h, rfl⟩
    rw [entryValue]
    cases hvalue : parse (String.ofList text) with
    | ok value => exact .json h hvalue
    | error error => exact .text h hvalue

/-- **The parser of the entries** reads what they give. -/
theorem parseConfigEntry_eq_ok_iff {parse : String → Except String Value} {entry : String}
    {member : String × Value} :
    parseConfigEntry parse entry = .ok member ↔ EntryGives parse entry member := by
  rw [entryGives_iff]
  constructor
  · intro h
    by_cases hmem : '=' ∈ entry.toList
    · obtain ⟨rawKey, rawText, hsplit, hfirst⟩ := List.eq_append_cons_of_mem hmem
      obtain ⟨hkey, htext, hmember⟩ := (parseConfigEntry_split hsplit hfirst).1 h
      exact ⟨_, _, ⟨⟨rawKey, rawText, hsplit, hfirst, trims_iff.2 rfl, trims_iff.2 rfl⟩, hkey,
        htext⟩, hmember⟩
    · rw [parseConfigEntry, splitOnce_eq_none hmem] at h
      cases h
  · rintro ⟨_, _, ⟨⟨rawKey, rawText, hsplit, hfirst, hkey, htext⟩, hkey_ne, htext_ne⟩, hmember⟩
    obtain rfl := trims_iff.1 hkey
    obtain rfl := trims_iff.1 htext
    exact (parseConfigEntry_split hsplit hfirst).2 ⟨hkey_ne, htext_ne, hmember⟩

/-- A malformed entry gives nothing. -/
theorem MalformedEntry.not_gives {entry : String} (h : MalformedEntry entry)
    (parse : String → Except String Value) (member : String × Value) :
    ¬ EntryGives parse entry member := by
  rw [← parseConfigEntry_eq_ok_iff]
  rcases h with h | ⟨rawKey, rawText, hsplit, hfirst, hblank⟩
  · rw [parseConfigEntry, splitOnce_eq_none h]
    simp
  · rw [parseConfigEntry_split hsplit hfirst]
    rintro ⟨hkey, htext, -⟩
    rcases hblank with hblank | hblank
    · exact hkey (trim_eq_nil_iff.2 hblank)
    · exact htext (trim_eq_nil_iff.2 hblank)

theorem mapM_eq_ok_iff {α β ε : Type} {f : α → Except ε β} {l : List α} {r : List β} :
    l.mapM f = .ok r ↔ List.Forall₂ (fun a b => f a = .ok b) l r := by
  induction l generalizing r with
  | nil =>
    rw [List.mapM_nil, List.forall₂_nil_left_iff]
    exact ⟨fun h => (Except.ok.inj h).symm, fun h => congrArg Except.ok h.symm⟩
  | cons a l ih =>
    rw [List.mapM_cons, List.forall₂_cons_left_iff]
    cases ha : f a with
    | error e => simp [bind, Except.bind]
    | ok b =>
      simp only [← ih]
      cases hl : l.mapM f with
      | error e => simp [bind, Except.bind]
      | ok bs => simp [bind, Except.bind, pure, Except.pure, eq_comm]

/-! ## The union -/

theorem isEmpty_iff_get {m : Map} : m.isEmpty = true ↔ ∀ key, m.get key = none := by
  cases m with
  | nil => simp
  | cons p m =>
    refine iff_of_false Bool.false_ne_true fun h => ?_
    have hkey := h p.1
    rw [Map.get_cons, if_pos rfl] at hkey
    cases hkey

section

variable {parse : String → Except String Value} {sources : ConfigSources}

theorem members_iff {members : List Map} : sources.Members parse members ↔
    ∃ object entries,
      parseOptionalJsonObject parse sources.configJson "--config-json" = .ok object ∧
      sources.configEntries.mapM (parseConfigEntry parse) = .ok entries ∧
      object.getD [] :: (entries ++ sources.flags).map (fun member => [member]) = members := by
  constructor
  · rintro ⟨hobject, hentries⟩
    obtain ⟨parsed, hparsed, rfl⟩ := jsonGives_iff.1 hobject
    refine ⟨parsed, _, hparsed, mapM_eq_ok_iff.2 (hentries.imp fun _ _ h => ?_), rfl⟩
    exact parseConfigEntry_eq_ok_iff.2 h
  · rintro ⟨object, entries, hobject, hentries, rfl⟩
    refine .mk (jsonGives_iff.2 ⟨object, hobject, rfl⟩) ((mapM_eq_ok_iff.1 hentries).imp ?_)
    exact fun _ _ => parseConfigEntry_eq_ok_iff.1

theorem ConfigSources.Members.unique {members members' : List Map}
    (h : sources.Members parse members) (h' : sources.Members parse members') :
    members = members' := by
  obtain ⟨object, entries, hobject, hentries, rfl⟩ := members_iff.1 h
  obtain ⟨object', entries', hobject', hentries', rfl⟩ := members_iff.1 h'
  rw [Except.ok.inj (hobject.symm.trans hobject'), Except.ok.inj (hentries.symm.trans hentries')]

/-- What is given is what one of the sources gives. -/
theorem gives_iff {base : Map} {assignments : List (String × Value)} {key : String}
    {value : Value} : Gives base.get assignments key value ↔
      ∃ s ∈ base :: assignments.map (fun member => [member]), Map.get s key = some value := by
  simp only [Gives, List.mem_cons, List.mem_map, exists_eq_or_imp]
  refine or_congr_right ⟨fun h => ⟨_, ⟨_, h, rfl⟩, by simp⟩, ?_⟩
  rintro ⟨_, ⟨member, hmember, rfl⟩, hget⟩
  rw [Map.get_cons] at hget
  split at hget
  · rename_i hkey
    rw [Option.some.injEq] at hget
    rwa [hkey, ← hget]
  · cases hget

theorem compatible_iff {base : Map} {assignments : List (String × Value)} :
    Compatible base.get assignments ↔
      ¬ Conflicting (base :: assignments.map (fun member => [member])) := by
  constructor
  · rintro h ⟨s, hs, s', hs', key, v, w, hv, hw, hne⟩
    have hsame := h key v w (gives_iff.2 ⟨s, hs, hv⟩) (gives_iff.2 ⟨s', hs', hw⟩)
    rw [hne] at hsame
    cases hsame
  · intro h key v w hv hw
    obtain ⟨s, hs, hv⟩ := gives_iff.1 hv
    obtain ⟨s', hs', hw⟩ := gives_iff.1 hw
    by_contra hne
    exact h ⟨s, hs, s', hs', key, v, w, hv, hw, Bool.eq_false_iff.2 hne⟩

theorem held_eq_none {r : Except LunaError Map} (h : held r = none) :
    ∃ error, r = .error error := by
  cases r with
  | error error => exact ⟨error, rfl⟩
  | ok config => cases h

theorem builtConfig_malformed (h : ∀ members, ¬ sources.Members parse members) :
    ∃ error, builtConfig parse sources = .error error := by
  apply held_eq_none
  rw [held_builtConfig]
  cases hobject : parseOptionalJsonObject parse sources.configJson "--config-json" with
  | error error => rfl
  | ok object => cases hentries : sources.configEntries.mapM (parseConfigEntry parse) with
    | error error => rfl
    | ok entries => exact absurd (members_iff.2 ⟨object, entries, hobject, hentries, rfl⟩) (h _)

/-- If all sources are well-formed, a map comes about exactly if none conflict. -/
theorem builtConfig_isOk {members : List Map} (h : sources.Members parse members) :
    (∃ config, builtConfig parse sources = .ok config) ↔ ¬ Conflicting members := by
  obtain ⟨object, entries, hobject, hentries, rfl⟩ := members_iff.1 h
  have hheld := held_builtConfig parse sources
  rw [hobject, hentries] at hheld
  rw [← compatible_iff, ← addAll_isSome_iff]
  cases hbuilt : builtConfig parse sources with
  | error error =>
    rw [hbuilt] at hheld
    refine iff_of_false (by rintro ⟨config, hconfig⟩; cases hconfig) ?_
    rintro ⟨g, hg⟩
    cases hheld.trans hg
  | ok config =>
    rw [hbuilt] at hheld
    exact iff_of_true ⟨config, rfl⟩ ⟨config.get, hheld.symm⟩

/-- It is the union then, in the terms of `IsUnion`. -/
theorem isUnion_builtConfig {config : Map} (h : builtConfig parse sources = .ok config) :
    ∃ (base : Map) (assignments : List (String × Value)),
      sources.Members parse (base :: assignments.map fun member => [member]) ∧
        IsUnion base.get assignments config.get := by
  obtain ⟨members, hmembers⟩ : ∃ members, sources.Members parse members := by
    by_contra hnone
    obtain ⟨error, herror⟩ := builtConfig_malformed (not_exists.1 hnone)
    rw [herror] at h
    cases h
  obtain ⟨object, entries, hobject, hentries, rfl⟩ := members_iff.1 hmembers
  refine ⟨object.getD [], entries ++ sources.flags, hmembers, IsUnion.of_addAll ?_⟩
  have hheld := held_builtConfig parse sources
  rw [hobject, hentries, h] at hheld
  exact hheld.symm

theorem unionOf_of_isUnion {base config : Map} {assignments : List (String × Value)}
    (h : IsUnion base.get assignments config.get) :
    UnionOf (base :: assignments.map fun member => [member]) config := by
  constructor
  · intro key
    constructor
    · rintro ⟨value, hvalue⟩
      obtain ⟨s, hs, hget⟩ := gives_iff.1 (h.given key value hvalue)
      exact ⟨s, hs, value, hget⟩
    · rintro ⟨s, hs, value, hget⟩
      obtain ⟨value', hvalue', -⟩ := h.covers key value (gives_iff.2 ⟨s, hs, hget⟩)
      exact ⟨value', hvalue'⟩
  · intro s hs key value hget
    exact h.covers key value (gives_iff.2 ⟨s, hs, hget⟩)

end

/-! ## The order of the entries -/

section

variable {parse : String → Except String Value} {sources : ConfigSources} {entries : List String}

/-- Entries in another order give the same, in another order. -/
theorem members_perm (h : entries.Perm sources.configEntries) {members : List Map}
    (hmembers : sources.Members parse members) :
    ∃ members', { sources with configEntries := entries }.Members parse members' ∧
      ∀ s, s ∈ members' ↔ s ∈ members := by
  obtain ⟨hobject, hentries⟩ := hmembers
  obtain ⟨parsed, hparsed, hperm⟩ := List.perm_comp_forall₂ h hentries
  refine ⟨_, .mk hobject hparsed, fun s => ?_⟩
  simp only [ConfigSources.flags, List.mem_cons, List.mem_map, List.mem_append, hperm.mem_iff]

theorem Conflicting.congr {members members' : List Map} (h : ∀ s, s ∈ members' ↔ s ∈ members) :
    Conflicting members' ↔ Conflicting members := by
  simp only [Conflicting, h]

/-- Nor does the order change whether a map comes about. -/
theorem builtConfig_perm_isOk (h : entries.Perm sources.configEntries) {config : Map}
    (hbuilt : builtConfig parse sources = .ok config) :
    ∃ config', builtConfig parse { sources with configEntries := entries } = .ok config' := by
  obtain ⟨base, assignments, hmembers, -⟩ := isUnion_builtConfig hbuilt
  obtain ⟨members', hmembers', hmem⟩ := members_perm h hmembers
  rw [builtConfig_isOk hmembers', Conflicting.congr hmem, ← builtConfig_isOk hmembers]
  exact ⟨config, hbuilt⟩

/-- The maps hold the same. -/
theorem builtConfig_perm_get (h : entries.Perm sources.configEntries) {config config' : Map}
    (hbuilt : builtConfig parse sources = .ok config)
    (hbuilt' : builtConfig parse { sources with configEntries := entries } = .ok config')
    (key : String) :
    Option.Rel (fun v w => (v == w) = true) (config.get key) (config'.get key) := by
  obtain ⟨base, assignments, hmembers, hunion⟩ := isUnion_builtConfig hbuilt
  obtain ⟨base', assignments', hmembers', hunion'⟩ := isUnion_builtConfig hbuilt'
  obtain ⟨members', hmembers'', hmem⟩ := members_perm h hmembers
  obtain rfl := hmembers''.unique hmembers'
  exact hunion.unique hunion' (fun k v => by simp only [gives_iff, hmem]) key

end

/-! ## The result -/

/-- The map of a result, with no keys if there is none. -/
def resultMap (r : Option Map) : Map := r.getD []

theorem buildThreadConfig_isOk {parse : String → Except String Value} {sources : ConfigSources} :
    (∃ r, buildThreadConfig parse sources = .ok r) ↔
      ∃ config, builtConfig parse sources = .ok config := by
  rw [buildThreadConfig_eq]
  cases builtConfig parse sources with
  | error error => simp [Except.map]
  | ok config => simp [Except.map]

theorem buildThreadConfig_eq_ok {parse : String → Except String Value} {sources : ConfigSources}
    {r : Option Map} (h : buildThreadConfig parse sources = .ok r) :
    builtConfig parse sources = .ok (resultMap r) ∧
      (r = none ↔ ∀ key, (resultMap r).get key = none) := by
  rw [buildThreadConfig_eq] at h
  cases hbuilt : builtConfig parse sources with
  | error error =>
    rw [hbuilt] at h
    cases h
  | ok config =>
    rw [hbuilt] at h
    have hr : (if config.isEmpty then none else some config) = r := Except.ok.inj h
    by_cases hempty : config.isEmpty = true
    · rw [if_pos hempty] at hr
      obtain rfl := List.isEmpty_iff.1 hempty
      subst hr
      exact ⟨rfl, by simp [resultMap]⟩
    · rw [if_neg hempty] at hr
      subst hr
      have hsome : (some config : Option Map) ≠ none := Option.some_ne_none config
      exact ⟨rfl, iff_of_false hsome fun hget => hempty (isEmpty_iff_get.2 hget)⟩

/-- What `build_thread_config` does with its sources. -/
structure MergesSources (parse : String → Except String Value) (sources : ConfigSources) :
    Prop where
  malformedEntry : ∀ entry ∈ sources.configEntries, MalformedEntry entry →
    ∃ error, buildThreadConfig parse sources = .error error
  malformed : (∀ members, ¬ sources.Members parse members) →
    ∃ error, buildThreadConfig parse sources = .error error
  conflict : ∀ members, sources.Members parse members → Conflicting members →
    ∃ error, buildThreadConfig parse sources = .error error
  succeeds : ∀ members, sources.Members parse members → ¬ Conflicting members →
    ∃ r, buildThreadConfig parse sources = .ok r
  union : ∀ r, buildThreadConfig parse sources = .ok r →
    ∃ members, sources.Members parse members ∧ UnionOf members (resultMap r) ∧
      (r = none ↔ ∀ s ∈ members, ∀ key, Map.get s key = none)
  order : ∀ entries, entries.Perm sources.configEntries → ∀ r,
    buildThreadConfig parse sources = .ok r →
      ∃ r', buildThreadConfig parse { sources with configEntries := entries } = .ok r' ∧
        (r' = none ↔ r = none) ∧
        ∀ key, Option.Rel (fun v w => (v == w) = true) ((resultMap r).get key)
          ((resultMap r').get key)

theorem exists_error_of_not_ok {ε α : Type} {r : Except ε α} (h : ¬ ∃ a, r = .ok a) :
    ∃ error, r = .error error := by
  cases r with
  | error error => exact ⟨error, rfl⟩
  | ok a => exact (h ⟨a, rfl⟩).elim

/-- No key is held if none is given. -/
theorem UnionOf.isEmpty_iff {members : List Map} {config : Map} (h : UnionOf members config) :
    (∀ key, config.get key = none) ↔ ∀ s ∈ members, ∀ key, Map.get s key = none := by
  constructor
  · intro hnone s hs key
    by_contra hsome
    obtain ⟨value, hvalue⟩ := Option.ne_none_iff_exists'.1 hsome
    obtain ⟨value', hvalue'⟩ := (h.keys key).2 ⟨s, hs, value, hvalue⟩
    rw [hnone key] at hvalue'
    cases hvalue'
  · intro hnone key
    by_contra hsome
    obtain ⟨s, hs, value, hvalue⟩ := (h.keys key).1 (Option.ne_none_iff_exists'.1 hsome)
    rw [hnone s hs key] at hvalue
    cases hvalue

theorem rel_none_iff {α : Type} {R : α → α → Prop} {x y : Option α} (h : Option.Rel R x y) :
    y = none ↔ x = none := by
  cases h with
  | none => exact Iff.rfl
  | some _ => simp

/-- **The configuration is the union of its sources**: of a JSON object, entries and flags that do
not conflict, each key with the value of every source that names it, and there is none exactly if
no source names a key.  Malformed and conflicting sources are refused, and the order of the entries
does not matter. -/
theorem config_is_union (parse : String → Except String Value) (sources : ConfigSources) :
    MergesSources parse sources := by
  have hmalformed : (∀ members, ¬ sources.Members parse members) →
      ∃ error, buildThreadConfig parse sources = .error error := by
    intro h
    obtain ⟨error, herror⟩ := builtConfig_malformed h
    exact ⟨error, by rw [buildThreadConfig_eq, herror]; rfl⟩
  constructor
  case malformedEntry =>
    intro entry hentry hblank
    refine hmalformed fun members hmembers => ?_
    obtain ⟨-, hentries⟩ := hmembers
    obtain ⟨i, rfl⟩ := List.mem_iff_get.1 hentry
    exact hblank.not_gives parse _ (hentries.get i.isLt (hentries.length_eq ▸ i.isLt))
  case malformed => exact hmalformed
  case conflict =>
    intro members hmembers hconflict
    refine exists_error_of_not_ok fun hok => ?_
    exact (builtConfig_isOk hmembers).1 (buildThreadConfig_isOk.1 hok) hconflict
  case succeeds =>
    intro members hmembers hconflict
    exact buildThreadConfig_isOk.2 ((builtConfig_isOk hmembers).2 hconflict)
  case union =>
    intro r hr
    obtain ⟨hbuilt, hnone⟩ := buildThreadConfig_eq_ok hr
    obtain ⟨base, assignments, hmembers, hunion⟩ := isUnion_builtConfig hbuilt
    have hof := unionOf_of_isUnion hunion
    exact ⟨_, hmembers, hof, hnone.trans hof.isEmpty_iff⟩
  case order =>
    intro entries hperm r hr
    obtain ⟨hbuilt, hnone⟩ := buildThreadConfig_eq_ok hr
    obtain ⟨r', hr'⟩ := buildThreadConfig_isOk.2 (builtConfig_perm_isOk hperm hbuilt)
    obtain ⟨hbuilt', hnone'⟩ := buildThreadConfig_eq_ok hr'
    have hsame := builtConfig_perm_get hperm hbuilt hbuilt'
    refine ⟨r', hr', ?_, hsame⟩
    rw [hnone, hnone']
    exact forall_congr' fun key => rel_none_iff (hsame key)

end CodexSdk.Luna

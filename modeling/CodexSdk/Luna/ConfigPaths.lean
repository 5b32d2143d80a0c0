import CodexSdk.Luna.Config
import CodexSdk.Paths

/-!
# Two spellings of one setting

`sandbox_workspace_write.network_access` is a key of the flags, and a member of an object of
`--config-json` may say the same by nesting.  `insert_thread_config` compares values under one key,
so it does not see that the two are one path.

`path_conflicts_caught_iff` says when different values for one path are caught: when two sources
differ under one key as well, or when no path is spelled in two ways with different values.
-/

set_option autoImplicit false

namespace CodexSdk.Luna

open Json

/-! ## Conflicts of paths -/

/-- The sources assign different leaves to one path. -/
def PathClash (s s' : Map) : Prop :=
  ∃ path path' v w, (Value.object s).Assigns path v ∧ (Value.object s').Assigns path' w ∧
    dotted path = dotted path' ∧ (v == w) = false

/-- The two spell the path differently. -/
def SpellingClash (s s' : Map) : Prop :=
  ∃ path path' v w, (Value.object s).Assigns path v ∧ (Value.object s').Assigns path' w ∧
    dotted path = dotted path' ∧ (v == w) = false ∧ path ≠ path'

/-- Two of the sources assign different leaves to one path. -/
def PathConflict (members : List Map) : Prop :=
  ¬ members.Pairwise fun s s' => ¬ PathClash s s'

/-- Two of the sources do so by two spellings of it. -/
def SpellingConflict (members : List Map) : Prop :=
  ¬ members.Pairwise fun s s' => ¬ SpellingClash s s'

/-- No configuration comes of sources with such a conflict. -/
def CatchesPathConflicts (parse : String → Except String Value) (sources : ConfigSources) : Prop :=
  ∀ members, sources.Members parse members → PathConflict members →
    ∃ error, buildThreadConfig parse sources = .error error

/-! ## When they are caught -/

/-- Sources that agree under every key differ at a path only if it is spelled in two ways. -/
theorem pathClash_iff {members : List Map} (h : ¬ Conflicting members) {s s' : Map}
    (hs : s ∈ members) (hs' : s' ∈ members) : PathClash s s' ↔ SpellingClash s s' := by
  constructor
  · rintro ⟨path, path', v, w, hv, hw, hdotted, hne⟩
    refine ⟨path, path', v, w, hv, hw, hdotted, hne, ?_⟩
    rintro rfl
    cases path with
    | nil =>
      exact (Value.not_assigns_nil hv).elim
    | cons key rest =>
      obtain ⟨a, ha, hv⟩ := Value.assigns_cons.1 hv
      obtain ⟨b, hb, hw⟩ := Value.assigns_cons.1 hw
      have hkey : (a == b) = true := by
        by_contra hkey
        exact h ⟨s, hs, s', hs', key, a, b, ha, hb, Bool.eq_false_iff.2 hkey⟩
      exact Bool.eq_false_iff.1 hne (hv.same hw hkey)
  · rintro ⟨path, path', v, w, hv, hw, hdotted, hne, -⟩
    exact ⟨path, path', v, w, hv, hw, hdotted, hne⟩

theorem pathConflict_iff {members : List Map} (h : ¬ Conflicting members) :
    PathConflict members ↔ SpellingConflict members := by
  rw [PathConflict, SpellingConflict, not_iff_not]
  exact List.Pairwise.iff_of_mem fun hs hs' => not_congr (pathClash_iff h hs hs')

/-- Well-formed sources are refused exactly if two of them differ under a key. -/
theorem isError_iff {parse : String → Except String Value} {sources : ConfigSources}
    {members : List Map} (h : sources.Members parse members) :
    (∃ error, buildThreadConfig parse sources = .error error) ↔ Conflicting members := by
  rw [← not_iff_not, ← builtConfig_isOk h, ← buildThreadConfig_isOk]
  cases buildThreadConfig parse sources with
  | error error => simp
  | ok r => simp

/-- **Conflicts of paths are caught** exactly if, whenever a path is spelled in two ways with
different values, two sources differ under a key as well. -/
theorem path_conflicts_caught_iff (parse : String → Except String Value)
    (sources : ConfigSources) : CatchesPathConflicts parse sources ↔
      ∀ members, sources.Members parse members →
        Conflicting members ∨ ¬ SpellingConflict members := by
  refine forall₂_congr fun members hmembers => ?_
  rw [isError_iff hmembers]
  by_cases hkey : Conflicting members
  · exact iff_of_true (fun _ => hkey) (.inl hkey)
  · rw [pathConflict_iff hkey, or_iff_right hkey]
    exact forall_congr' fun _ => iff_of_false hkey id

/-! ## A setting sent twice -/

def nestedText : String :=
  "\x7b\"sandbox_workspace_write\": \x7b\"network_access\": true\x7d\x7d"

/-- The reading of that text. -/
def parseNestedText (raw : String) : Except String Value :=
  if raw = nestedText then
    .ok (.object [("sandbox_workspace_write", .object [("network_access", .bool true)])])
  else .error "expected value at line 1 column 1"

/-- `--config-json` allows the network, and a flag denies it. -/
def nestedAndFlag : ConfigSources where
  configJson := some nestedText
  configEntries := []
  webSearchMode := none
  configProfile := none
  modelVerbosity := none
  sandboxNetworkAccessEnabled := some false
  sandboxWritableRoots := []

/-- Both are sent. -/
theorem nested_and_flag_sent : ¬ CatchesPathConflicts parseNestedText nestedAndFlag := by
  intro h
  let nested : Map := [("sandbox_workspace_write", .object [("network_access", .bool true)])]
  let flag : Map := [("sandbox_workspace_write.network_access", .bool false)]
  have hgiven : nestedAndFlag.Members parseNestedText
      (nested :: ([] ++ nestedAndFlag.flags).map fun member => [member]) := .mk (.object rfl) .nil
  have hmembers : nestedAndFlag.Members parseNestedText [nested, flag] := hgiven
  have hclash : PathClash nested flag :=
    ⟨["sandbox_workspace_write", "network_access"], ["sandbox_workspace_write.network_access"],
      .bool true, .bool false, ⟨rfl, rfl⟩, ⟨rfl, rfl⟩, rfl, by simp [BEq.beq, Value.same]⟩
  obtain ⟨error, herror⟩ := h _ hmembers (by simpa [PathConflict] using hclash)
  have hok : buildThreadConfig parseNestedText nestedAndFlag = .ok (some (flag ++ nested)) := by
    rfl
  rw [hok] at herror
  cases herror

end CodexSdk.Luna

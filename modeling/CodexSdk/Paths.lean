import CodexSdk.Descent
import CodexSdk.Encode
import CodexSdk.Equality

/-!
# Paths into nested objects

`v.descend path` is what is found in a value by following the keys of a path into its objects, and
a path assigns a leaf if what is found there is not an object itself.  `dotted` writes a path as one
key, its segments joined by dots, and `segments` reads a key as a path.

Flattening puts all leaves of an object under such keys (`Map.assignAll`), and `Value.renest` makes
an object of them again.  `Value.assigns_renest` says which leaves that object has, and
`Value.same_of_assigns` that the leaves determine an object in which no object is empty.
-/

set_option autoImplicit false

namespace Json

namespace Value

def descend (v : Value) (path : List String) : Option Value := Descent.descend get v path

/-- There is a leaf at the end of the path. -/
def Assigns (v : Value) (path : List String) (leaf : Value) : Prop :=
  Descent.LeafAt get (fun w => w.asObject = none) v path leaf

@[simp] theorem descend_nil (v : Value) : v.descend [] = some v := Descent.descend_nil v

theorem descend_cons (v : Value) (key : String) (path : List String) :
    v.descend (key :: path) = (v.get key).bind fun w => w.descend path :=
  Descent.descend_cons v key path

theorem assigns_iff {v leaf : Value} {path : List String} :
    v.Assigns path leaf ↔ v.descend path = some leaf ∧ leaf.asObject = none := Iff.rfl

theorem assigns_nil {v leaf : Value} : v.Assigns [] leaf ↔ v = leaf ∧ leaf.asObject = none :=
  Descent.leafAt_nil

theorem assigns_cons {v leaf : Value} {key : String} {path : List String} :
    v.Assigns (key :: path) leaf ↔ ∃ w, v.get key = some w ∧ w.Assigns path leaf :=
  Descent.leafAt_cons

theorem get_eq_none {v : Value} (h : v.asObject = none) (key : String) : v.get key = none := by
  rw [get, h, Option.bind_none]

theorem leaf_or_object (v : Value) : v.asObject = none ∨ ∃ m, v = object m := by
  cases v <;> simp [asObject]

theorem assigns_of_leaf {v leaf : Value} (h : v.asObject = none) {path : List String} :
    v.Assigns path leaf ↔ path = [] ∧ leaf = v := by
  rcases path with _ | ⟨key, path⟩
  · rw [assigns_nil]
    constructor
    · exact fun hleaf => ⟨rfl, hleaf.1.symm⟩
    · rintro ⟨-, rfl⟩
      exact ⟨rfl, h⟩
  · simp [assigns_cons, get_eq_none h]

/-- An object is no leaf. -/
theorem not_assigns_nil {m : Map} {leaf : Value} : ¬ (object m).Assigns [] leaf := by
  intro h
  obtain ⟨rfl, hobject⟩ := assigns_nil.1 h
  cases hobject

/-- Equal values hold equal values under every key. -/
theorem get_same {v w : Value} (h : v.same w = true) (key : String) :
    Option.Rel (fun a b => same a b = true) (v.get key) (w.get key) := by
  rcases v.leaf_or_object with hv | ⟨m, rfl⟩
  · rcases w.leaf_or_object with hw | ⟨n, rfl⟩
    · rw [get_eq_none hv, get_eq_none hw]
      exact .none
    · obtain ⟨m, rfl, -⟩ := of_object_same (same_symm h)
      cases hv
  · obtain ⟨n, rfl, hkeys⟩ := of_object_same h
    exact hkeys key

/-- And at the end of every path. -/
theorem descend_same {v w : Value} (h : v.same w = true) (path : List String) :
    Option.Rel (fun a b => same a b = true) (v.descend path) (w.descend path) := by
  induction path generalizing v w with
  | nil => exact .some h
  | cons key path ih =>
    rw [descend_cons, descend_cons]
    have hget := get_same h key
    generalize v.get key = a, w.get key = b at hget
    rcases hget with hkey | -
    · exact ih hkey
    · exact .none

end Value

/-! ## Paths written as keys -/

/-- The path as one key. -/
def dotted (path : List String) : String := ".".intercalate path

/-- The path a key is read as. -/
def segments (key : String) : List String := (key.toList.splitOn '.').map String.ofList

/-- A segment that is not split. -/
def DotFree (key : String) : Prop := '.' ∉ key.toList

theorem dotted_concat {path : List String} (h : path ≠ []) (key : String) :
    dotted (path ++ [key]) = dotted path ++ "." ++ key := by
  rw [dotted, String.intercalate_append_of_ne_nil h (List.cons_ne_nil _ _),
    String.intercalate_singleton, dotted]

theorem segments_dotted {path : List String} (hne : path ≠ []) (h : ∀ key ∈ path, DotFree key) :
    segments (dotted path) = path := by
  have hsplit : (['.'].intercalate (path.map String.toList)).splitOn '.' =
      path.map String.toList :=
    List.splitOn_intercalate '.' (by simpa [DotFree] using h) (by simpa using hne)
  have hdot : ".".toList = ['.'] := rfl
  rw [segments, dotted, String.toList_intercalate, hdot, hsplit, List.map_map]
  simp [Function.comp_def]

theorem not_mem_of_mem_splitOn {α : Type} [BEq α] [LawfulBEq α] {x : α} {xs l : List α}
    (h : l ∈ xs.splitOn x) : x ∉ l := by
  induction xs generalizing l with
  | nil =>
    rw [List.splitOn_nil, List.mem_singleton] at h
    rw [h]
    exact List.not_mem_nil
  | cons a xs ih =>
    rw [List.splitOn_cons_eq_if_modifyHead] at h
    split at h
    · rcases List.mem_cons.1 h with rfl | h
      · exact List.not_mem_nil
      · exact ih h
    · rename_i hne
      generalize hparts : xs.splitOn x = parts at h ih
      rcases parts with _ | ⟨part, parts⟩
      · cases h
      · rcases List.mem_cons.1 h with rfl | h
        · rw [List.mem_cons, not_or]
          exact ⟨fun hx => hne (beq_iff_eq.2 hx.symm), ih List.mem_cons_self⟩
        · exact ih (List.mem_cons_of_mem _ h)

theorem dotFree_of_mem_segments {key s : String} (h : s ∈ segments key) : DotFree s := by
  obtain ⟨t, ht, rfl⟩ := List.mem_map.1 h
  rw [DotFree, String.toList_ofList]
  exact not_mem_of_mem_splitOn ht

/-- A path of more than one segment is a key with a dot in it. -/
theorem not_dotFree_dotted (key key' : String) (path : List String) :
    ¬ DotFree (dotted (key :: key' :: path)) := by
  rw [DotFree, dotted, String.toList_intercalate]
  simp [List.intercalate_cons_cons]

/-! ## Nesting -/

namespace Value

/-- The value with a leaf put at the end of a path; objects on the way are made where there are
none. -/
def nest : Value → Value → List String → Value
  | _, leaf, [] => leaf
  | v, leaf, key :: path =>
    object ((v.asObject.getD []).insert key (((v.get key).getD null).nest leaf path))

/-- The object whose leaves are the values of a map, each at the path its key is read as. -/
def renest (m : Map) : Value :=
  m.foldl (fun v p => v.nest p.2 (segments p.1)) (object [])

@[simp] theorem nest_nil (v leaf : Value) : v.nest leaf [] = leaf := by rw [nest]

theorem get_nest (v leaf : Value) (key k : String) (path : List String) :
    (v.nest leaf (key :: path)).get k =
      if k = key then some (((v.get key).getD null).nest leaf path) else v.get k := by
  have hrest : Map.get (v.asObject.getD []) k = v.get k := by
    rcases v.leaf_or_object with h | ⟨m, rfl⟩
    · rw [h, Option.getD_none, Map.get_nil, get_eq_none h]
    · rfl
  rw [nest, get_object, Map.get_insert, hrest]

theorem asObject_nest_cons (v leaf : Value) (key : String) (path : List String) :
    ∃ m, m ≠ [] ∧ v.nest leaf (key :: path) = object m := by
  rw [nest]
  exact ⟨_, List.cons_ne_nil _ _, rfl⟩

/-- There is nothing behind a leaf. -/
theorem Assigns.eq_of_prefix {v a b : Value} {path path' : List String} (h : v.Assigns path a)
    (h' : v.Assigns path' b) (hpre : path <+: path') : path = path' :=
  Descent.LeafAt.eq_of_prefix (fun _ key hleaf => get_eq_none hleaf key) h h' hpre

/-- Equal values have equal leaves. -/
theorem Assigns.same {v w a b : Value} {path : List String} (h : v.Assigns path a)
    (h' : w.Assigns path b) (hvw : v.same w = true) : a.same b = true := by
  have hpath := descend_same hvw path
  rw [(assigns_iff.1 h).1, (assigns_iff.1 h').1] at hpath
  obtain hsame | - := hpath
  exact hsame

/-- Neither path leads on from the other. -/
def Apart (path path' : List String) : Prop := ¬ path <+: path' ∧ ¬ path' <+: path

theorem apart_cons_cons {key key' : String} {path path' : List String} :
    Apart (key :: path) (key' :: path') ↔ (key = key' → Apart path path') := by
  by_cases h : key = key'
  · subst h
    simp [Apart]
  · simp [Apart, h, Ne.symm h]

/-- **What nesting a leaf changes**: it is found at its path, nothing else is found on the way there
or behind it, and the leaves at all other paths stay. -/
theorem assigns_nest {v leaf : Value} (hleaf : leaf.asObject = none) {path q : List String}
    {a : Value} : (v.nest leaf path).Assigns q a ↔
      (q = path ∧ a = leaf) ∨ (Apart path q ∧ v.Assigns q a) := by
  induction path generalizing v q with
  | nil =>
    have hapart : ¬ Apart [] q := fun h => h.1 List.nil_prefix
    rw [nest_nil, assigns_of_leaf hleaf, or_iff_left fun h => hapart h.1]
  | cons key path ih =>
    rcases q with _ | ⟨key', q⟩
    · -- An object is at the beginning of the path now.
      obtain ⟨m, -, hm⟩ := asObject_nest_cons v leaf key path
      rw [hm]
      refine iff_of_false not_assigns_nil ?_
      rintro (⟨h, -⟩ | ⟨h, -⟩)
      · exact List.cons_ne_nil _ _ h.symm
      · exact h.2 List.nil_prefix
    · rw [assigns_cons, get_nest, apart_cons_cons, List.cons.injEq]
      by_cases hkey : key = key'
      · subst hkey
        simp only [if_true, Option.some.injEq, exists_eq_left', ih, true_and, true_imp_iff,
          assigns_cons]
        refine or_congr_right (and_congr_right fun hapart => ?_)
        cases hget : v.get key with
        | some w => simp
        | none =>
          simp only [Option.getD_none, reduceCtorEq, false_and, exists_false, iff_false]
          rcases q with _ | ⟨key', q⟩
          · exact (hapart.2 List.nil_prefix).elim
          · intro h
            obtain ⟨w, hw, -⟩ := assigns_cons.1 h
            cases hw
      · rw [if_neg (Ne.symm hkey), or_iff_right fun h => hkey h.1.1.symm, assigns_cons]
        exact (and_iff_right fun h => (hkey h).elim).symm

/-- The leaves of an object made of leaves none of whose paths leads on from another. -/
theorem assigns_foldl_nest {l : List (List String × Value)}
    (hapart : l.Pairwise fun p p' => Apart p.1 p'.1) (hleaf : ∀ p ∈ l, p.2.asObject = none)
    {v a : Value} {q : List String} :
    (l.foldl (fun v p => v.nest p.2 p.1) v).Assigns q a ↔
      (q, a) ∈ l ∨ ((∀ p ∈ l, Apart p.1 q) ∧ v.Assigns q a) := by
  induction l generalizing v with
  | nil => simp
  | cons p l ih =>
    obtain ⟨hp, hapart⟩ := List.pairwise_cons.1 hapart
    obtain ⟨hpleaf, hleaf⟩ := List.forall_mem_cons.1 hleaf
    rw [List.foldl_cons, ih hapart hleaf, assigns_nest hpleaf, List.mem_cons, List.forall_mem_cons]
    constructor
    · rintro (h | ⟨h, ⟨rfl, rfl⟩ | ⟨hq, ha⟩⟩)
      · exact .inl (.inr h)
      · exact .inl (.inl rfl)
      · exact .inr ⟨⟨hq, h⟩, ha⟩
    · rintro ((rfl | h) | ⟨⟨hq, h⟩, ha⟩)
      · exact .inr ⟨fun p' hp' => (hp p' hp').symm, .inl ⟨rfl, rfl⟩⟩
      · exact .inl h
      · exact .inr ⟨h, .inr ⟨hq, ha⟩⟩

/-- The leaves that are found after re-nesting. -/
theorem assigns_renest {m : Map}
    (hapart : m.Pairwise fun p p' => Apart (segments p.1) (segments p'.1))
    (hleaf : ∀ p ∈ m, p.2.asObject = none) {path : List String} {leaf : Value} :
    (renest m).Assigns path leaf ↔ ∃ key, (key, leaf) ∈ m ∧ segments key = path := by
  have hfold : renest m =
      (m.map fun p => (segments p.1, p.2)).foldl (fun v p => v.nest p.2 p.1) (object []) := by
    rw [renest, List.foldl_map]
  have hnil : ¬ (object []).Assigns path leaf := by
    rcases path with _ | ⟨key, path⟩
    · exact not_assigns_nil
    · intro h
      obtain ⟨w, hw, -⟩ := assigns_cons.1 h
      cases hw
  rw [hfold, assigns_foldl_nest (List.pairwise_map.2 hapart)
    (by simpa only [List.forall_mem_map] using hleaf), or_iff_left fun h => hnil h.2, List.mem_map]
  constructor
  · rintro ⟨⟨key, v⟩, hmem, hpair⟩
    obtain ⟨rfl, rfl⟩ := Prod.mk.inj hpair
    exact ⟨key, hmem, rfl⟩
  · rintro ⟨key, hmem, rfl⟩
    exact ⟨(key, leaf), hmem, rfl⟩

/-! ## What nesting makes -/

/-- No key in the value has a dot, and no object in it is empty. -/
def Tidy (v : Value) : Prop :=
  ∀ path w, path ≠ [] → v.descend path = some w → w ≠ object [] ∧ ∀ key ∈ path, DotFree key

theorem tidy_iff {v : Value} :
    v.Tidy ↔ ∀ key w, v.get key = some w → DotFree key ∧ w ≠ object [] ∧ w.Tidy := by
  constructor
  · intro h key w hw
    have hkey := h [key] w (List.cons_ne_nil _ _) (by rw [descend_cons, hw]; exact descend_nil w)
    refine ⟨hkey.2 key List.mem_cons_self, hkey.1, fun path a _ ha => ?_⟩
    have hpath := h (key :: path) a (List.cons_ne_nil _ _) (by rw [descend_cons, hw]; exact ha)
    exact ⟨hpath.1, fun k hk => hpath.2 k (List.mem_cons_of_mem _ hk)⟩
  · intro h path a hne ha
    rcases path with _ | ⟨key, path⟩
    · exact (hne rfl).elim
    · rw [descend_cons, Option.bind_eq_some_iff] at ha
      obtain ⟨w, hw, ha⟩ := ha
      obtain ⟨hkey, hempty, htidy⟩ := h key w hw
      by_cases hpath : path = []
      · subst hpath
        obtain rfl := Option.some.inj ((descend_nil w).symm.trans ha)
        exact ⟨hempty, by simpa using hkey⟩
      · obtain ⟨ha, hkeys⟩ := htidy path a hpath ha
        exact ⟨ha, List.forall_mem_cons.2 ⟨hkey, hkeys⟩⟩

theorem tidy_of_get_eq_none {v : Value} (h : ∀ key, v.get key = none) : v.Tidy := by
  rw [tidy_iff]
  intro key w hw
  rw [h key] at hw
  cases hw

theorem tidy_nest {v leaf : Value} (hv : v.Tidy) (hleaf : leaf.asObject = none)
    {path : List String} (hpath : ∀ key ∈ path, DotFree key) : (v.nest leaf path).Tidy := by
  induction path generalizing v with
  | nil =>
    rw [nest_nil]
    exact tidy_of_get_eq_none (get_eq_none hleaf)
  | cons key path ih =>
    obtain ⟨hkey, hpath⟩ := List.forall_mem_cons.1 hpath
    rw [tidy_iff] at hv ⊢
    intro k w hw
    rw [get_nest] at hw
    split at hw
    · rename_i hk
      obtain rfl := Option.some.inj hw
      refine ⟨hk ▸ hkey, ?_, ih ?_ hpath⟩
      · rcases path with _ | ⟨key', path⟩
        · rw [nest_nil]
          rintro rfl
          cases hleaf
        · obtain ⟨m, hm, hnest⟩ := asObject_nest_cons ((v.get key).getD null) leaf key' path
          rw [hnest, Ne, object.injEq]
          exact hm
      · cases hget : v.get key with
        | none => exact tidy_of_get_eq_none fun _ => rfl
        | some w => exact (hv key w hget).2.2
    · exact hv k w hw

theorem tidy_renest {m : Map} (h : ∀ p ∈ m, p.2.asObject = none) : (renest m).Tidy := by
  rw [renest]
  generalize hroot : object [] = v
  have hv : v.Tidy := hroot ▸ tidy_of_get_eq_none fun _ => rfl
  clear hroot
  induction m generalizing v with
  | nil => exact hv
  | cons p m ih =>
    obtain ⟨hp, hm⟩ := List.forall_mem_cons.1 h
    exact ih hm _ (tidy_nest hv hp fun key => dotFree_of_mem_segments)

theorem tidy_of_same {v w : Value} (h : v.same w = true) (hv : v.Tidy) : w.Tidy := by
  intro path b hne hb
  have hpath := descend_same h path
  rw [hb] at hpath
  generalize hdescend : v.descend path = a at hpath
  rcases hpath with hab | -
  obtain ⟨hempty, hkeys⟩ := hv path _ hne hdescend
  refine ⟨?_, hkeys⟩
  rintro rfl
  obtain ⟨n, rfl, hget⟩ := of_object_same (same_symm hab)
  rcases n with _ | ⟨⟨key, a⟩, n⟩
  · exact hempty rfl
  · have hkey := hget key
    rw [Map.get_nil, Map.get_cons, if_pos rfl] at hkey
    cases hkey

theorem exists_assigns {v : Value} (hv : v.Tidy) (hne : v ≠ object []) :
    ∃ path leaf, v.Assigns path leaf := by
  induction v using inductionOn with
  | object m ih =>
    rcases m with _ | ⟨⟨key, w⟩, m⟩
    · exact (hne rfl).elim
    · have hget : Map.get ((key, w) :: m) key = some w := by rw [Map.get_cons, if_pos rfl]
      obtain ⟨-, hw, htidy⟩ := tidy_iff.1 hv key w hget
      obtain ⟨path, leaf, hpath⟩ := ih key w hget htidy hw
      exact ⟨key :: path, leaf, assigns_cons.2 ⟨w, hget, hpath⟩⟩
  | _ => exact ⟨[], _, assigns_nil.2 ⟨rfl, rfl⟩⟩

/-- Under a key of an object there is something in every object with its leaves. -/
theorem exists_get_of_assigns {m n : Map} (hm : (object m).Tidy)
    (h : ∀ path leaf, (object m).Assigns path leaf → (object n).Assigns path leaf) {key : String}
    {a : Value} (ha : m.get key = some a) : ∃ b, n.get key = some b := by
  obtain ⟨-, hne, htidy⟩ := tidy_iff.1 hm key a ha
  obtain ⟨path, leaf, hpath⟩ := exists_assigns htidy hne
  obtain ⟨b, hb, -⟩ := assigns_cons.1 (h (key :: path) leaf (assigns_cons.2 ⟨a, ha, hpath⟩))
  exact ⟨b, hb⟩

/-- **Values with the same leaves are equal**, if no object in them is empty. -/
theorem same_of_assigns {v w : Value} (hv : v.Tidy) (hw : w.Tidy)
    (h : ∀ path leaf, v.Assigns path leaf ↔ w.Assigns path leaf) : v.same w = true := by
  induction v using inductionOn generalizing w with
  | object m ih =>
    obtain ⟨n, rfl⟩ := w.leaf_or_object.resolve_left fun hleaf =>
      not_assigns_nil ((h [] w).2 (assigns_nil.2 ⟨rfl, hleaf⟩))
    refine same_object.2 fun key => ?_
    cases hma : m.get key with
    | none => cases hnb : Map.get n key with
      | none => exact .none
      | some b =>
        obtain ⟨a, ha⟩ := exists_get_of_assigns hw (fun path leaf => (h path leaf).2) hnb
        rw [hma] at ha
        cases ha
    | some a =>
      obtain ⟨b, hnb⟩ := exists_get_of_assigns hv (fun path leaf => (h path leaf).1) hma
      rw [hnb]
      refine .some (ih key a hma (tidy_iff.1 hv key a hma).2.2 (tidy_iff.1 hw key b hnb).2.2 ?_)
      intro path leaf
      simpa [assigns_cons, hma, hnb] using h (key :: path) leaf
  | _ =>
    obtain ⟨rfl, -⟩ := assigns_nil.1 ((h [] _).1 (assigns_nil.2 ⟨rfl, rfl⟩))
    exact same_refl _

/-! ## Flattening -/

/-- No object in the value has a key twice. -/
def UniqueKeys (v : Value) : Prop :=
  ∀ path m, v.descend path = some (object m) → (m.map Prod.fst).Nodup

mutual

/-- The leaves of a value with their paths, in the order of the members. -/
def leaves : Value → List (List String × Value)
  | object m => leavesOfMembers m
  | v => [([], v)]

def leavesOfMembers : Map → List (List String × Value)
  | [] => []
  | (key, v) :: m => v.leaves.map (fun p => (key :: p.1, p.2)) ++ leavesOfMembers m

end

theorem leaves_of_leaf {v : Value} (h : v.asObject = none) : v.leaves = [([], v)] := by
  rw [leaves]
  rintro m rfl
  cases h

theorem mem_leavesOfMembers {m : Map} {path : List String} {leaf : Value} :
    (path, leaf) ∈ leavesOfMembers m ↔
      ∃ key v q, (key, v) ∈ m ∧ (q, leaf) ∈ v.leaves ∧ path = key :: q := by
  induction m with
  | nil => simp [leavesOfMembers]
  | cons p m ih =>
    obtain ⟨k, a⟩ := p
    rw [leavesOfMembers, List.mem_append, ih]
    constructor
    · rintro (h | ⟨key, v, q, hv, hq, rfl⟩)
      · obtain ⟨⟨q, b⟩, hq, hpath⟩ := List.mem_map.1 h
        obtain ⟨rfl, rfl⟩ := Prod.mk.inj hpath
        exact ⟨k, a, q, List.mem_cons_self, hq, rfl⟩
      · exact ⟨key, v, q, List.mem_cons_of_mem _ hv, hq, rfl⟩
    · rintro ⟨key, v, q, hv, hq, rfl⟩
      rcases List.mem_cons.1 hv with hv | hv
      · obtain ⟨rfl, rfl⟩ := Prod.mk.inj hv
        exact .inl (List.mem_map.2 ⟨(q, leaf), hq, rfl⟩)
      · exact .inr ⟨key, v, q, hv, hq, rfl⟩

theorem asObject_of_mem_leaves {v leaf : Value} {path : List String}
    (h : (path, leaf) ∈ v.leaves) : leaf.asObject = none := by
  induction path generalizing v with
  | nil =>
    rcases v.leaf_or_object with hv | ⟨m, rfl⟩
    · rw [leaves_of_leaf hv, List.mem_singleton] at h
      obtain ⟨-, rfl⟩ := Prod.mk.inj h
      exact hv
    · rw [leaves] at h
      obtain ⟨_, _, _, -, -, hpath⟩ := mem_leavesOfMembers.1 h
      exact (List.cons_ne_nil _ _ hpath.symm).elim
  | cons key path ih =>
    rcases v.leaf_or_object with hv | ⟨m, rfl⟩
    · rw [leaves_of_leaf hv, List.mem_singleton] at h
      exact (List.cons_ne_nil _ _ (Prod.mk.inj h).1).elim
    · rw [leaves] at h
      obtain ⟨key', w, q, -, hq, hpath⟩ := mem_leavesOfMembers.1 h
      obtain ⟨rfl, rfl⟩ := List.cons.inj hpath
      exact ih hq

theorem mem_iff_get {m : Map} (h : (m.map Prod.fst).Nodup) {key : String} {v : Value} :
    (key, v) ∈ m ↔ m.get key = some v := by
  induction m with
  | nil => simp
  | cons p m ih =>
    obtain ⟨k, a⟩ := p
    rw [List.map_cons, List.nodup_cons] at h
    rw [List.mem_cons, Map.get_cons, ih h.2, Prod.mk.injEq]
    by_cases hk : key = k
    · subst hk
      have hnone : Map.get m key = none := Map.get_eq_none_iff.2 h.1
      simp [hnone, eq_comm]
    · simp [hk]

theorem UniqueKeys.of_get {m : Map} (h : (object m).UniqueKeys) {key : String} {w : Value}
    (hw : m.get key = some w) : w.UniqueKeys := by
  intro path n hn
  refine h (key :: path) n ?_
  rw [descend_cons, get_object, hw]
  exact hn

/-- **The leaves are what is assigned.** -/
theorem mem_leaves {v : Value} (h : v.UniqueKeys) {path : List String} {leaf : Value} :
    (path, leaf) ∈ v.leaves ↔ v.Assigns path leaf := by
  induction v using inductionOn generalizing path with
  | object m ih =>
    have hkeys := h [] m (descend_nil _)
    rw [leaves, mem_leavesOfMembers]
    constructor
    · rintro ⟨key, w, q, hw, hq, rfl⟩
      rw [mem_iff_get hkeys] at hw
      exact assigns_cons.2 ⟨w, hw, (ih key w hw (h.of_get hw)).1 hq⟩
    · intro hpath
      rcases path with _ | ⟨key, path⟩
      · exact (not_assigns_nil hpath).elim
      · obtain ⟨w, hw, hq⟩ := assigns_cons.1 hpath
        exact ⟨key, w, path, (mem_iff_get hkeys).2 hw, (ih key w hw (h.of_get hw)).2 hq, rfl⟩
  | _ => rw [leaves_of_leaf rfl, List.mem_singleton, Prod.mk.injEq, assigns_of_leaf rfl]

end Value

/-- The map with leaves put under the keys their paths are written as. -/
def Map.assignAll (m : Map) (l : List (List String × Value)) : Map :=
  l.foldl (fun m p => m.insert (dotted p.1) p.2) m

theorem Map.nodup_insert {m : Map} (h : (m.map Prod.fst).Nodup) (key : String) (v : Value) :
    ((m.insert key v).map Prod.fst).Nodup := by
  rw [Map.insert, List.map_cons, List.nodup_cons]
  refine ⟨?_, h.sublist (List.filter_sublist.map _)⟩
  rw [List.mem_map]
  rintro ⟨p, hp, hkey⟩
  exact of_decide_eq_true (List.mem_filter.1 hp).2 hkey

theorem Map.nodup_insertSome {m : Map} (h : (m.map Prod.fst).Nodup) (key : String)
    (v : Option Value) : ((m.insertSome key v).map Prod.fst).Nodup := by
  rcases v with _ | v
  · exact h
  · exact Map.nodup_insert h key v

theorem Map.nodup_assignAll {m : Map} (h : (m.map Prod.fst).Nodup)
    (l : List (List String × Value)) : ((m.assignAll l).map Prod.fst).Nodup := by
  induction l generalizing m with
  | nil => exact h
  | cons p l ih => exact ih (Map.nodup_insert h _ _)

theorem Map.get_assignAll_of_ne {m : Map} {l : List (List String × Value)} {key : String}
    (h : ∀ p ∈ l, dotted p.1 ≠ key) : (m.assignAll l).get key = m.get key := by
  induction l generalizing m with
  | nil => rfl
  | cons p l ih =>
    obtain ⟨hp, hl⟩ := List.forall_mem_cons.1 h
    exact (ih hl).trans (by rw [Map.get_insert, if_neg (Ne.symm hp)])

/-- Leaves with one key are told apart by what is assigned last. -/
theorem Map.get_assignAll_of_forall {m : Map} {l : List (List String × Value)} {key : String}
    {v : Value} (h : ∃ p ∈ l, dotted p.1 = key) (hall : ∀ p ∈ l, dotted p.1 = key → p.2 = v) :
    (m.assignAll l).get key = some v := by
  induction l generalizing m with
  | nil => simp at h
  | cons p l ih =>
    obtain ⟨hp, hl⟩ := List.forall_mem_cons.1 hall
    by_cases hrest : ∃ p ∈ l, dotted p.1 = key
    · exact ih hrest hl
    · have hkey : dotted p.1 = key := by
        obtain ⟨p', hp', hkey⟩ := h
        rcases List.mem_cons.1 hp' with rfl | hp'
        · exact hkey
        · exact (hrest ⟨p', hp', hkey⟩).elim
      refine (Map.get_assignAll_of_ne fun p' hp' hkey' => hrest ⟨p', hp', hkey'⟩).trans ?_
      rw [Map.get_insert, if_pos hkey.symm, hp hkey]

theorem Map.get_assignAll_cases {m : Map} {l : List (List String × Value)} {key : String}
    {v : Value} (h : (m.assignAll l).get key = some v) :
    (∃ p ∈ l, dotted p.1 = key ∧ p.2 = v) ∨ m.get key = some v := by
  induction l generalizing m with
  | nil => exact .inr h
  | cons p l ih =>
    rcases ih h with ⟨p', hp', hkey⟩ | hget
    · exact .inl ⟨p', List.mem_cons_of_mem _ hp', hkey⟩
    · rw [Map.get_insert] at hget
      split at hget
      · rename_i hkey
        exact .inl ⟨p, List.mem_cons_self, hkey.symm, Option.some.inj hget⟩
      · exact .inr hget

end Json

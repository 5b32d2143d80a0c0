import Mathlib.Algebra.Group.Nat.Defs
import Mathlib.Data.List.Basic

/-!
# JSON values, and decoding them field by field

`Json.Value` is the JSON value of a dynamically typed payload, with the three kinds of number such
a value can hold.  An object is the list of its members; every reader below goes through
`Map.get`, so the order of the members is never observed.

`Json.Decode` is a decoder for one type, and the rest of the file is the handful of decoders a
derived struct decoder is assembled from: a required field (`required`), a field with a default
(`defaulted`), an optional one (`optional`), and the members no field has claimed (`extra`).  The
lemmas say when each of them succeeds, so that a struct's decoder is characterised by rewriting
with them and never by unfolding.
-/

set_option autoImplicit false

namespace Json

/-! ## Values -/

/-- A JSON number: a `u64`, a negative `i64`, or a float, kept as its bit pattern. -/
inductive Number
  | posInt (n : UInt64)
  | negInt (n : Int64)
  | float (bits : UInt64)
  deriving DecidableEq

/-- A JSON value. -/
inductive Value
  | null
  | bool (b : Bool)
  | number (n : Number)
  | string (s : String)
  | array (entries : List Value)
  | object (members : List (String × Value))

instance : Inhabited Value := ⟨.null⟩

/-- The members of an object. -/
abbrev Map := List (String × Value)

/-- The value stored under `key`. -/
def Map.get (m : Map) (key : String) : Option Value := m.lookup key

/-- The number an `i64` is written as. -/
def Number.ofI64 (n : Int64) : Number := if n < 0 then .negInt n else .posInt n.toUInt64

/-- The number as an `i64`, when it fits. -/
def Number.asI64 : Number → Option Int64
  | .posInt n => if n.toNat < 2 ^ 63 then some n.toInt64 else none
  | .negInt n => some n
  | .float _ => none

/-- What an `i64` is written as is read back. -/
theorem Number.asI64_ofI64 (n : Int64) : (Number.ofI64 n).asI64 = some n := by
  rw [Number.ofI64]
  split
  · rfl
  · rename_i hn
    have hlt : n.toUInt64.toNat < 2 ^ 63 := by
      rw [Int64.toNat_toUInt64_of_le (Int64.not_lt.1 hn)]
      have hmax := n.toInt_lt
      have hclamp : n.toNatClampNeg = n.toInt.toNat := rfl
      omega
    rw [Number.asI64, if_pos hlt, Int64.toInt64_toUInt64]

/-- The number as a `u64`, when it is one. -/
def Number.asU64 : Number → Option UInt64
  | .posInt n => some n
  | _ => none

namespace Value

def asObject : Value → Option Map
  | object m => some m
  | _ => none

def asArray : Value → Option (List Value)
  | array xs => some xs
  | _ => none

def asStr : Value → Option String
  | string s => some s
  | _ => none

def asBool : Value → Option Bool
  | bool b => some b
  | _ => none

def asI64 : Value → Option Int64
  | number n => n.asI64
  | _ => none

def asU64 : Value → Option UInt64
  | number n => n.asU64
  | _ => none

/-- The member `key` of an object; nothing for every other value. -/
def get (v : Value) (key : String) : Option Value := v.asObject.bind fun m => m.get key

end Value

@[simp] theorem Value.asObject_object (m : Map) : (Value.object m).asObject = some m := rfl

@[simp] theorem Value.asStr_string (s : String) : (Value.string s).asStr = some s := rfl

@[simp] theorem Value.get_object (m : Map) (key : String) :
    (Value.object m).get key = m.get key := rfl

/-! ## Lookup -/

@[simp] theorem Map.get_nil (key : String) : Map.get [] key = none := rfl

@[simp] theorem Map.get_cons (m : Map) (k key : String) (v : Value) :
    Map.get ((k, v) :: m) key = if key = k then some v else m.get key := by
  by_cases h : key = k
  · subst h; simp [Map.get]
  · rw [if_neg h, Map.get, Map.get, List.lookup_cons, beq_false_of_ne h]

/-- A member is smaller than the object it is in: what recursion into a payload rests on. -/
theorem Map.sizeOf_get {m : Map} {key : String} {v : Value} (h : m.get key = some v) :
    sizeOf v < sizeOf m := by
  induction m with
  | nil => cases h
  | cons p rest ih =>
    obtain ⟨k, w⟩ := p
    rw [Map.get_cons] at h
    split at h
    · cases h; simp; omega
    · have := ih h; simp; omega

/-- The members none of the `known` fields has claimed. -/
def Map.extra (known : List String) (m : Map) : Map := m.filter fun p => !known.contains p.1

/-- **What a flattened map collects**: exactly the members that are not fields. -/
theorem Map.get_extra {known : List String} {key : String} (h : key ∉ known) (m : Map) :
    (m.extra known).get key = m.get key := by
  induction m with
  | nil => rfl
  | cons p rest ih =>
    obtain ⟨k, v⟩ := p
    rw [Map.get_cons, Map.extra, List.filter_cons]
    by_cases hk : key = k
    · subst hk
      simp [h]
    · rw [if_neg hk, ← ih]
      split
      · rw [Map.get_cons, if_neg hk, Map.extra]
      · rfl

/-! ## Decoders -/

/-- Why a value does not decode. -/
inductive DecodeError
  | invalidType (expected : String)
  | missingField (field : String)
  | invalidLength
  | noVariant
  deriving DecidableEq

/-- A decoder for `α`. -/
abbrev Decode (α : Type) := Value → Except DecodeError α

namespace Decode

variable {α : Type}

def string : Decode String
  | .string s => .ok s
  | _ => .error (.invalidType "a string")

def bool : Decode Bool
  | .bool b => .ok b
  | _ => .error (.invalidType "a boolean")

def i64 : Decode Int64
  | v => match v.asI64 with
    | some n => .ok n
    | none => .error (.invalidType "i64")

def u64 : Decode UInt64
  | v => match v.asU64 with
    | some n => .ok n
    | none => .error (.invalidType "u64")

def object : Decode Map
  | .object m => .ok m
  | _ => .error (.invalidType "a map")

/-- A list, every entry of which must decode. -/
def vec (d : Decode α) : Decode (List α)
  | .array xs => xs.mapM d
  | _ => .error (.invalidType "a sequence")

/-- `null` is the absent value. -/
def option (d : Decode α) : Decode (Option α)
  | .null => .ok none
  | v => some <$> d v

/-- A payload kept as it is. -/
def value : Decode Value := .ok

end Decode

variable {α : Type}

/-- A field that has to be there. -/
def Map.required (m : Map) (field : String) (d : Decode α) : Except DecodeError α :=
  match m.get field with
  | some v => d v
  | none => .error (.missingField field)

/-- A field with a default.  The default stands for an absent member only: a member that is there
has to decode. -/
def Map.defaulted (m : Map) (field : String) (d : Decode α) (default : α) :
    Except DecodeError α :=
  match m.get field with
  | some v => d v
  | none => .ok default

/-- A field that may be absent or `null`. -/
def Map.optional (m : Map) (field : String) (d : Decode α) : Except DecodeError (Option α) :=
  m.defaulted field (Decode.option d) none

/-! ## When a decoder succeeds -/

/-- A decoder in two parts succeeds when both do. -/
theorem bind_eq_ok {ε β γ : Type} {x : Except ε β} {f : β → Except ε γ} {c : γ} :
    (x >>= f) = .ok c ↔ ∃ b, x = .ok b ∧ f b = .ok c := by
  cases x <;> simp [bind, Except.bind]

theorem map_eq_ok {ε β γ : Type} {x : Except ε β} {f : β → γ} {c : γ} :
    f <$> x = .ok c ↔ ∃ b, x = .ok b ∧ f b = c := by
  cases x <;> simp [Functor.map, Except.map]

theorem pure_eq_ok {ε β : Type} {b c : β} : (pure b : Except ε β) = .ok c ↔ b = c := by
  simp [pure, Except.pure]

theorem Decode.string_eq_ok {v : Value} {s : String} :
    Decode.string v = .ok s ↔ v = .string s := by
  cases v <;> simp [Decode.string]

theorem Decode.object_eq_ok {v : Value} {m : Map} : Decode.object v = .ok m ↔ v = .object m := by
  cases v <;> simp [Decode.object]

/-- A list of uninterpreted payloads always decodes. -/
theorem Decode.mapM_value (xs : List Value) : xs.mapM Decode.value = .ok xs := by
  induction xs with
  | nil => rfl
  | cons x xs ih => rw [List.mapM_cons, ih]; rfl

theorem Decode.vec_value_isOk {v : Value} :
    (∃ xs, Decode.vec Decode.value v = .ok xs) ↔ ∃ xs, v = .array xs := by
  cases v <;> simp [Decode.vec, Decode.mapM_value]

/-- An uninterpreted payload always decodes, `null` as the absent one. -/
theorem Decode.option_value_isOk (v : Value) : ∃ a, Decode.option Decode.value v = .ok a := by
  cases v with
  | null => exact ⟨none, rfl⟩
  | _ => exact ⟨some _, rfl⟩

theorem Decode.option_isOk {d : Decode α} {v : Value} :
    (∃ a, Decode.option d v = .ok a) ↔ v = .null ∨ ∃ a, d v = .ok a := by
  cases v with
  | null => simp [Decode.option]
  | _ =>
    simp only [Decode.option, reduceCtorEq, false_or]
    cases d _ <;> simp [Functor.map, Except.map]

theorem Map.required_eq_ok {m : Map} {field : String} {d : Decode α} {a : α} :
    m.required field d = .ok a ↔ ∃ v, m.get field = some v ∧ d v = .ok a := by
  cases h : m.get field <;> simp [Map.required, h]

theorem Map.defaulted_isOk {m : Map} {field : String} {d : Decode α} {default : α} :
    (∃ a, m.defaulted field d default = .ok a) ↔
      ∀ v, m.get field = some v → ∃ a, d v = .ok a := by
  cases h : m.get field <;> simp [Map.defaulted, h]

theorem Decode.string_isOk {v : Value} : (∃ s, Decode.string v = .ok s) ↔ ∃ s, v = .string s :=
  exists_congr fun _ => Decode.string_eq_ok

theorem Map.optional_isOk {m : Map} {field : String} {d : Decode α} :
    (∃ a, m.optional field d = .ok a) ↔
      ∀ v, m.get field = some v → v = .null ∨ ∃ a, d v = .ok a := by
  rw [Map.optional, Map.defaulted_isOk]
  exact forall₂_congr fun v _ => Decode.option_isOk

end Json

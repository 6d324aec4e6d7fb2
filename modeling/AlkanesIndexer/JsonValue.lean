import Mathlib

/-!
# JSON values

RPC responses, trace events and decoded protostones all reach the indexer as
`serde_json::Value`s.  This file fixes the value type and the accessors the
source chains with `and_then`: every accessor answers `none` on a value of
another shape, it never fails.
-/

namespace AlkanesIndexer

/-- `serde_json::Number`: an unsigned or a negative machine integer, or a
float, which is kept as its bit pattern because no accessor below reads it. -/
inductive JsonNumber where
  | posInt (value : UInt64)
  | negInt (value : Int64)
  | float (bits : UInt64)
  deriving DecidableEq, Repr

inductive JsonValue where
  | null
  | bool (value : Bool)
  | number (value : JsonNumber)
  | string (value : String)
  | array (items : List JsonValue)
  | object (fields : List (String × JsonValue))
  deriving Repr

namespace JsonValue

mutual

def decEq : (left right : JsonValue) → Decidable (left = right)
  | .null, .null => isTrue rfl
  | .bool a, .bool b => decidable_of_iff (a = b) (by simp)
  | .number a, .number b => decidable_of_iff (a = b) (by simp)
  | .string a, .string b => decidable_of_iff (a = b) (by simp)
  | .array xs, .array ys =>
      have := decEqItems xs ys
      decidable_of_iff (xs = ys) (by simp)
  | .object fs, .object gs =>
      have := decEqFields fs gs
      decidable_of_iff (fs = gs) (by simp)
  | .null, .bool _ | .null, .number _ | .null, .string _ | .null, .array _
  | .null, .object _ | .bool _, .null | .bool _, .number _
  | .bool _, .string _ | .bool _, .array _ | .bool _, .object _
  | .number _, .null | .number _, .bool _ | .number _, .string _
  | .number _, .array _ | .number _, .object _ | .string _, .null
  | .string _, .bool _ | .string _, .number _ | .string _, .array _
  | .string _, .object _ | .array _, .null | .array _, .bool _
  | .array _, .number _ | .array _, .string _ | .array _, .object _
  | .object _, .null | .object _, .bool _ | .object _, .number _
  | .object _, .string _ | .object _, .array _ => isFalse (by simp)

def decEqItems : (left right : List JsonValue) → Decidable (left = right)
  | [], [] => isTrue rfl
  | x :: xs, y :: ys =>
      have := decEq x y
      have := decEqItems xs ys
      decidable_of_iff (x = y ∧ xs = ys) (by simp)
  | [], _ :: _ | _ :: _, [] => isFalse (by simp)

def decEqFields :
    (left right : List (String × JsonValue)) → Decidable (left = right)
  | [], [] => isTrue rfl
  | (k, x) :: fs, (l, y) :: gs =>
      have := decEq x y
      have := decEqFields fs gs
      decidable_of_iff (k = l ∧ x = y ∧ fs = gs) (by simp [and_assoc])
  | [], _ :: _ | _ :: _, [] => isFalse (by simp)

end

instance : DecidableEq JsonValue := decEq

/-- `Value::get` with a string index: `none` unless the value is an object
holding the key. -/
def get (value : JsonValue) (key : String) : Option JsonValue :=
  match value with
  | .object fields => (fields.find? fun field => field.1 = key).map Prod.snd
  | _ => none

def asStr : JsonValue → Option String
  | .string value => some value
  | _ => none

def asArray : JsonValue → Option (List JsonValue)
  | .array items => some items
  | _ => none

def asObject : JsonValue → Option (List (String × JsonValue))
  | .object fields => some fields
  | _ => none

def asU64 : JsonValue → Option ℕ
  | .number (.posInt value) => some value.toNat
  | _ => none

/-- `Value::as_i64`: an unsigned number counts when it fits. -/
def asI64 : JsonValue → Option ℤ
  | .number (.posInt value) =>
      if value.toNat < 2 ^ 63 then some value.toNat else none
  | .number (.negInt value) => some value.toInt
  | _ => none

/-- The chain `v.get(k1).and_then(|d| d.get(k2))…` over a list of keys. -/
def getPath (value : JsonValue) : List String → Option JsonValue
  | [] => some value
  | key :: rest => (value.get key).bind fun inner => inner.getPath rest

def strAt (value : JsonValue) (path : List String) : Option String :=
  (value.getPath path).bind asStr

/-- `….and_then(|a| a.as_array()).cloned().unwrap_or_default()`. -/
def arrayAt (value : JsonValue) (path : List String) : List JsonValue :=
  ((value.getPath path).bind asArray).getD []

/-- A signed machine integer as `json!` stores it. -/
def ofInt (value : ℤ) : JsonValue :=
  if 0 ≤ value then .number (.posInt (UInt64.ofNat value.toNat))
  else .number (.negInt (Int64.ofInt value))

end JsonValue

end AlkanesIndexer

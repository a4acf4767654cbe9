/-
  Records in JSON: what a configuration document is made of.

  A record is an object whose known keys occur at most once, other keys being ignored, or
  an array of its fields in order, from which trailing ones may be missing.  `Json.fields?`
  reads both into a list of known members, from which `required`, `optional` and
  `nullable` take the single fields.
-/
import LateralSql.Json.Reader

namespace LateralSql.Json

/-! ## Single values -/

/-- The value of a boolean. -/
def bool? : Json → Option Bool
  | .bool b => some b
  | _ => none

/-- An integer of 32 signed bits. -/
def int32? : Json → Option Int32
  | .int n =>
    if Int32.minValue.toInt ≤ n ∧ n ≤ Int32.maxValue.toInt then some (Int32.ofInt n) else none
  | _ => none

/-- An integer of 64 unsigned bits. -/
def uint64? : Json → Option UInt64
  | .int n => if 0 ≤ n ∧ n < UInt64.size then some n.toNat.toUInt64 else none
  | _ => none

/-- One of the named choices: its name, or an object from its name to null. -/
def choice? {α : Type} (choices : List (String × α)) : Json → Option α
  | .str s => choices.lookup s
  | .obj [(s, .null)] => choices.lookup s
  | _ => none

/-- One of the named choices, also as an object from its name to an empty object. -/
def looseChoice? {α : Type} (choices : List (String × α)) : Json → Option α
  | .obj [(s, .obj [])] => choices.lookup s
  | j => choice? choices j

/-- An array, read item by item. -/
def list? {α : Type} (read : Json → Option α) : Json → Option (List α)
  | .arr items => items.mapM read
  | _ => none

/-- An object from integers, written as keys, to values. -/
def intMap? {α : Type} (read : Json → Option α) : Json → Option (List (Int32 × α))
  | .obj members => members.mapM fun (k, j) => do
    let (n, rest) ← number? k.toList
    guard (rest = [])
    return (← n.int32?, ← read j)
  | _ => none

/-! ## Records -/

/-- The known members of an object, each at most once. -/
def knownOnce? (keys : List String) (members : List (String × Json)) :
    Option (List (String × Json)) :=
  let known := members.filter fun m => m.1 ∈ keys
  if (known.map (·.1)).Nodup then some known else none

/-- The fields of a record with the given keys. -/
def fields? (keys : List String) : Json → Option (List (String × Json))
  | .obj members => knownOnce? keys members
  | .arr items => if items.length ≤ keys.length then some (keys.zip items) else none
  | _ => none

/-- A field that must be there. -/
def required {α : Type} (fields : List (String × Json)) (key : String) (read : Json → Option α) :
    Option α :=
  (fields.lookup key).bind read

/-- A field with a default. -/
def optional {α : Type} (fields : List (String × Json)) (key : String) (default : α)
    (read : Json → Option α) : Option α :=
  match fields.lookup key with
  | some j => read j
  | none => some default

/-- A field that may be missing or null. -/
def nullable {α : Type} (fields : List (String × Json)) (key : String) (read : Json → Option α) :
    Option (Option α) :=
  match fields.lookup key with
  | none => some none
  | some .null => some none
  | some j => (read j).map some

end LateralSql.Json

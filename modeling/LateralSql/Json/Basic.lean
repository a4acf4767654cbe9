/-
  JSON documents.

  An object is the list of its members as they were written, so the order of keys is
  kept and a key may occur twice.  `Json.collapse` gives every key one member: at the
  position of its first occurrence, with the value of its last.
-/
import LateralSql.Keyed

namespace LateralSql

/-- A JSON document. Integer literals that fit 64 bits, signed or unsigned, are integers; other
    numbers are doubles. -/
inductive Json where
  | null
  | bool (b : Bool)
  | int (n : Int)
  | float (x : Float)
  | str (s : String)
  | arr (items : List Json)
  | obj (members : List (String × Json))
  deriving Inhabited, Repr

namespace Json

/-- The value of a key in a list of members. -/
def member? (members : List (String × Json)) (key : String) : Option Json := members.lookup key

/-- A member of an object. -/
def get? : Json → String → Option Json
  | .obj members, key => member? members key
  | _, _ => none

/-- The text of a string. -/
def string? : Json → Option String
  | .str s => some s
  | _ => none

/-- The items of an array. -/
def array? : Json → Option (List Json)
  | .arr items => some items
  | _ => none

/-- The members of an object. -/
def object? : Json → Option (List (String × Json))
  | .obj members => some members
  | _ => none

/-- The document is null. -/
def isNull : Json → Bool
  | .null => true
  | _ => false

mutual

/-- Every object with one member per key. -/
def collapse : Json → Json
  | .arr items => .arr (collapseAll items)
  | .obj members => .obj (lastBy Prod.fst (collapseMembers members))
  | .null => .null
  | .bool b => .bool b
  | .int n => .int n
  | .float x => .float x
  | .str s => .str s
termination_by structural j => j

/-- Every object of the items with one member per key. -/
def collapseAll : List Json → List Json
  | [] => []
  | j :: js => collapse j :: collapseAll js
termination_by structural js => js

/-- Every object in the members with one member per key. -/
def collapseMembers : List (String × Json) → List (String × Json)
  | [] => []
  | (k, j) :: rest => (k, collapse j) :: collapseMembers rest
termination_by structural members => members

end

end Json

end LateralSql

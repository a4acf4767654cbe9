/-
  The three texts of a value.

  * `Value.display` is the plain form for people: texts as they are, lists as `[a, b]`,
    objects as `{ "k": v }`;
  * `Value.serialized` is the compact JSON form;
  * `Value.toJson` is the JSON document of a value, in which JSON texts are read.

  A decimal is written in JSON as the double computed from it.
-/
import LateralSql.Value.Basic
import LateralSql.Json.Printer
import LateralSql.Json.Reader

namespace LateralSql.Value

/-! ## Display -/

mutual

/-- The plain form of a value. -/
def display : Value → String
  | .string s => s
  | .boolean b => if b then "true" else "false"
  | .int n => toString n.toInt
  | .list items => "[" ++ ", ".intercalate (displays items) ++ "]"
  | .json text => text
  | .object members => "\x7b " ++ ", ".intercalate (memberDisplays members) ++ " \x7d"
  | .null => "null"
  | .dateTime t => t.text
  | .decimal d => d.text
termination_by structural v => v

/-- The plain forms of the items of a list. -/
def displays : List Value → List String
  | [] => []
  | v :: vs => display v :: displays vs
termination_by structural vs => vs

/-- The plain forms of members, after their keys in quotes. -/
def memberDisplays : List (String × Value) → List String
  | [] => []
  | (k, v) :: rest => ("\"" ++ k ++ "\": " ++ display v) :: memberDisplays rest
termination_by structural members => members

end

/-! ## Serialized form -/

mutual

/-- The compact JSON text of a value. A JSON text is written as a string; repeated keys are kept. -/
def serialized : Value → String
  | .string s => Json.quote s
  | .boolean b => if b then "true" else "false"
  | .int n => toString n.toInt
  | .list items => Json.brackets (serializedAll items)
  | .json text => Json.quote text
  | .object members => Json.braces (serializedMembers members)
  | .null => "null"
  | .dateTime t => Json.quote t.text
  | .decimal d => Json.floatText (Double.ofDecimal d)
termination_by structural v => v

/-- The compact JSON texts of the items of a list. -/
def serializedAll : List Value → List String
  | [] => []
  | v :: vs => serialized v :: serializedAll vs
termination_by structural vs => vs

/-- The members of an object, with the compact JSON texts of their values. -/
def serializedMembers : List (String × Value) → List (String × String)
  | [] => []
  | (k, v) :: rest => (k, serialized v) :: serializedMembers rest
termination_by structural members => members

end

/-! ## JSON documents -/

mutual

/-- The JSON document of a value. A JSON text that cannot be read stands for itself, and so does
    the text of a decimal beyond the doubles. -/
def toJson : Value → Json
  | .string s => .str s
  | .boolean b => .bool b
  | .int n => .int n.toInt
  | .list items => .arr (toJsonAll items)
  | .json text => (Json.parse? text).getD (.str text)
  | .object members => .obj (lastBy Prod.fst (toJsonMembers members))
  | .null => .null
  | .dateTime t => .str t.text
  | .decimal d =>
    let x := Double.ofDecimal d
    if x.isFinite then .float x else .str d.text
termination_by structural v => v

/-- The JSON documents of the items of a list. -/
def toJsonAll : List Value → List Json
  | [] => []
  | v :: vs => toJson v :: toJsonAll vs
termination_by structural vs => vs

/-- The JSON documents of the members of an object, under their keys. -/
def toJsonMembers : List (String × Value) → List (String × Json)
  | [] => []
  | (k, v) :: rest => (k, toJson v) :: toJsonMembers rest
termination_by structural members => members

end

end LateralSql.Value

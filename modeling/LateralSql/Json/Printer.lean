/-
  Compact JSON text: no blanks, members in order, doubles by their shortest digits.
  In strings only quotes, backslashes and control characters are escaped.
-/
import LateralSql.Json.Basic
import LateralSql.Double.Text

namespace LateralSql.Json

/-! ## Strings -/

/-- The escape for a character of a string, if it needs one. -/
def escape? (c : Char) : Option String :=
  if c = '"' then some "\\\""
  else if c = '\\' then some "\\\\"
  else if c = '\n' then some "\\n"
  else if c = '\r' then some "\\r"
  else if c = '\t' then some "\\t"
  else if c = '\x08' then some "\\b"
  else if c = '\x0c' then some "\\f"
  else if c.toNat < 0x20 then
    some (String.ofList (['\\', 'u', '0', '0'] ++
      [Nat.digitChar (c.toNat / 16), Nat.digitChar (c.toNat % 16)]))
  else none

/-- A string between quotes. -/
def quote (s : String) : String :=
  "\"" ++ String.join (s.toList.map fun c => (escape? c).getD c.toString) ++ "\""

/-! ## Documents -/

/-- The text of a double; JSON has no text for what is not finite. -/
def floatText (x : Float) : String := if x.isFinite then Double.text x else "null"

/-- Items between brackets. -/
def brackets (items : List String) : String := "[" ++ ",".intercalate items ++ "]"

/-- Members between braces. -/
def braces (members : List (String × String)) : String :=
  "\x7b" ++ ",".intercalate (members.map fun m => quote m.1 ++ ":" ++ m.2) ++ "\x7d"

mutual

/-- The compact text of a document. -/
def text : Json → String
  | .null => "null"
  | .bool b => if b then "true" else "false"
  | .int n => toString n
  | .float x => floatText x
  | .str s => quote s
  | .arr items => brackets (texts items)
  | .obj members => braces (memberTexts members)
termination_by structural j => j

/-- The compact texts of the items of an array. -/
def texts : List Json → List String
  | [] => []
  | j :: js => text j :: texts js
termination_by structural js => js

/-- The members of an object, with the compact texts of their values. -/
def memberTexts : List (String × Json) → List (String × String)
  | [] => []
  | (k, j) :: rest => (k, text j) :: memberTexts rest
termination_by structural members => members

end

end LateralSql.Json

/-
  Lists of names as error messages show them: `["a", "b"]`, each name between
  double quotes with a backslash before what would be unreadable.
-/
import LateralSql.Text.Unreadable

namespace LateralSql.Text

/-- The digits of a code point in base sixteen. -/
private def hexDigits (n : Nat) : String := String.ofList (Nat.toDigits 16 n)

/-- A character of a listed name: quotes, backslashes and the usual control characters are escaped
    by letter, other unreadable characters by their code point. -/
def listedChar (c : Char) : String :=
  if c = '"' then "\\\""
  else if c = '\\' then "\\\\"
  else if c = '\n' then "\\n"
  else if c = '\t' then "\\t"
  else if c = '\r' then "\\r"
  else if c = '\x00' then "\\0"
  else if isUnreadable c then
    "\\u\x7b" ++ hexDigits c.toNat ++ "\x7d"
  else c.toString

/-- A listed name. -/
def listedName (s : String) : String := "\"" ++ String.join (s.toList.map listedChar) ++ "\""

/-- A list of names. -/
def listing (names : List String) : String := "[" ++ ", ".intercalate (names.map listedName) ++ "]"

end LateralSql.Text

/-
  The text of a statement as tokens: quoted identifiers, quoted string literals, and
  everything else.

  Values are written as literals (`literal`): text, date-times, JSON texts and objects as
  string literals, lists as arrays, the rest as themselves.
-/
import LateralSql.Text.Quoted
import LateralSql.Value.Text

namespace LateralSql.Sql

/-- What a statement is written with: plain text, identifiers and the texts of literals. -/
inductive Token where
  /-- Text that stands for itself: words, numbers, operators, blanks. -/
  | plain (s : String)
  | ident (name : String)
  | text (s : String)
  deriving Repr, DecidableEq

/-- The text of a token. -/
def Token.write : Token → String
  | plain s => s
  | ident name => Text.quoted '"' name
  | text s => Text.quoted '\'' s

/-- The text of a list of tokens. -/
def writeAll (ts : List Token) : String := String.join (ts.map Token.write)

mutual

/-- A value as a literal. -/
def literal : Value → List Token
  | .null => [.plain "null"]
  | .boolean b => [.plain (if b then "true" else "false")]
  | .int n => [.plain (toString n.toInt)]
  | .decimal d => [.plain d.text]
  | .string s => [.text s]
  | .json s => [.text s]
  | .dateTime t => [.text t.text]
  | .list items => .plain "array[" :: (literals items ++ [.plain "]"])
  | .object members => [.text (Value.object members).serialized]
termination_by structural v => v

/-- Values as literals with commas between them. -/
def literals : List Value → List Token
  | [] => []
  | v :: vs => literal v ++ furtherLiterals vs
termination_by structural vs => vs

/-- Values as literals, each with a comma before it. -/
def furtherLiterals : List Value → List Token
  | [] => []
  | v :: vs => .plain ", " :: (literal v ++ furtherLiterals vs)
termination_by structural vs => vs

end

end LateralSql.Sql

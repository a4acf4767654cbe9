/-
  Quoted text: the text between two quote characters, with every quote inside it
  written twice.  Identifiers use `"`, string literals `'`.
-/

namespace LateralSql.Text

/-- Writes every `q` twice and every other character once. -/
def doubled (q : Char) : List Char → List Char
  | [] => []
  | c :: cs => if c = q then q :: q :: doubled q cs else c :: doubled q cs

/-- `s` between two quotes `q`. -/
def quoted (q : Char) (s : String) : String := String.ofList (q :: doubled q s.toList ++ [q])

end LateralSql.Text

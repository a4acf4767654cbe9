/-
  Statements: the text of a select with its parameters.

  A select is first written as a list of pieces (`Select.pieces`), in which the values of
  parameters still stand at their places.  `inlineTokens` writes those values as literals;
  `bindTokens` writes numbered placeholders, whose values `params` collects.  A typed
  parameter is cast where it is bound, since a placeholder does not show its type.
-/
import LateralSql.Sql.Token
import LateralSql.Sql.Tree
import LateralSql.Query.Settings

namespace LateralSql.Sql

/-- A piece of a statement: a token, or the place of a parameter. -/
inductive Piece where
  | token (t : Token)
  | param (v : Value) (type : Option String)
  deriving Repr

/-! ## Pieces -/

/-- Text that stands for itself. -/
def plain (s : String) : List Piece := [.token (.plain s)]

/-- A quoted identifier. -/
def ident (name : String) : List Piece := [.token (.ident name)]

/-- The pieces between brackets. -/
def parens (ps : List Piece) : List Piece := plain "(" ++ ps ++ plain ")"

/-- The parts with a separator between them. -/
def separated (separator : String) : List (List Piece) → List Piece
  | [] => []
  | [p] => p
  | p :: ps => p ++ plain separator ++ separated separator ps

/-- A name, with that of its table or schema before it. -/
def qualified (qualifier : Option String) (name : String) : List Piece :=
  match qualifier with
  | some q => ident q ++ plain "." ++ ident name
  | none => ident name

/-- The operator of a comparison, with blanks around it. -/
def Comparison.text : Comparison → String
  | eq => " = "
  | ne => " <> "
  | lt => " < "
  | le => " <= "
  | gt => " > "
  | ge => " >= "

/-- The function of an aggregate. -/
def NumericAggregate.text : NumericAggregate → String
  | sum => "sum"
  | avg => "avg"
  | min => "min"
  | max => "max"

/-- The words of a join, with blanks around them. -/
def JoinKind.text : JoinKind → String
  | inner => " inner join "
  | left => " left join "

/-- `distinct` before an argument. -/
def distinctText (distinct : Bool) : List Piece := if distinct then plain "distinct " else []

/-- The names a table is read under. -/
def namePieces (name : Option String) (columns : List String) : List Piece :=
  match name with
  | none => []
  | some n =>
    plain " as " ++ ident n ++
      (if columns.isEmpty then [] else parens (separated ", " (columns.map ident)))

mutual

/-- The pieces of an expression. -/
def Expr.pieces : Expr → List Piece
  | .column c => qualified c.table c.name
  | .star none => plain "*"
  | .star (some t) => ident t ++ plain ".*"
  | .param v => [.param v none]
  | .typed v type => [.param v (some type)]
  | .literal v => (literal v).map .token
  | .countAll => plain "count(*)"
  | .count distinct e => plain "count(" ++ distinctText distinct ++ e.pieces ++ plain ")"
  | .aggregate f e => plain f.text ++ plain "(" ++ e.pieces ++ plain ")"
  | .stringAgg distinct e separator =>
    plain "string_agg(" ++ distinctText distinct ++ e.pieces ++ plain ", " ++ separator.pieces ++
      plain ")"
  | .cast e type => plain "cast(" ++ e.pieces ++ plain " as " ++ plain type ++ plain ")"
  | .call name args => plain name ++ parens (separated ", " (exprPieces args))
  | .unnest e => plain "unnest(" ++ e.pieces ++ plain ")"
  | .compare op l r => l.pieces ++ plain op.text ++ r.pieces
  | .isIn _ [] => plain "1=0"
  | .isIn e (item :: items) =>
    e.pieces ++ plain " in " ++ parens (separated ", " (item.pieces :: exprPieces items))
  | .isNull e => e.pieces ++ plain " is null"
  | .isNotNull e => e.pieces ++ plain " is not null"
  | .equalsAny value array => value.pieces ++ plain " = any" ++ parens array.pieces
  | .hasRows s => plain "exists (" ++ s.pieces ++ plain ")"
  | .hasNoRows s => plain "not exists (" ++ s.pieces ++ plain ")"
  | .cond c => c.pieces
  | .named e name => e.pieces ++ plain " as " ++ ident name
termination_by structural e => e

/-- The pieces of each expression. -/
def exprPieces : List Expr → List (List Piece)
  | [] => []
  | e :: es => e.pieces :: exprPieces es
termination_by structural es => es

/-- A negated conjunction or disjunction needs no brackets of its own. -/
def Cond.pieces : Cond → List Piece
  | .and es => parens (separated " and " (exprPieces es))
  | .or es => parens (separated " or " (exprPieces es))
  | .not (.cond (.and es)) => plain "not" ++ parens (separated " and " (exprPieces es))
  | .not (.cond (.or es)) => plain "not" ++ parens (separated " or " (exprPieces es))
  | .not (.named (.cond (.and es)) _) => plain "not" ++ parens (separated " and " (exprPieces es))
  | .not (.named (.cond (.or es)) _) => plain "not" ++ parens (separated " or " (exprPieces es))
  | .not e => plain "not" ++ parens e.pieces
  | .single e => e.pieces
  | .always => plain "1=1"
  | .never => plain "1=0"
termination_by structural c => c

/-- The pieces of a select, clause by clause.  Without columns it has all of them. -/
def Select.pieces : Select → List Piece
  | ⟨tables, columns, joins, condition, order, limit, offset⟩ =>
    plain "select " ++
      (if columns.isEmpty then plain "*" else separated ", " (exprPieces columns)) ++
      (if tables.isEmpty then [] else plain " from " ++ separated ", " (tablePieces tables)) ++
      joinPieces joins ++
      (if condition.isAlways then [] else plain " where " ++ condition.pieces) ++
      (if order.isEmpty then [] else plain " order by " ++ separated ", " (orderPieces order)) ++
      optionPieces " limit " limit ++
      optionPieces " offset " offset
termination_by structural s => s

/-- An expression after the given word, if there is one. -/
def optionPieces (word : String) : Option Expr → List Piece
  | none => []
  | some e => plain word ++ e.pieces
termination_by structural e => e

/-- The pieces of each table. -/
def tablePieces : List Table → List (List Piece)
  | [] => []
  | t :: ts => t.pieces :: tablePieces ts
termination_by structural ts => ts

/-- The pieces of a table and the names it is read under. -/
def Table.pieces : Table → List Piece
  | ⟨source, name, columns⟩ => source.pieces ++ namePieces name columns
termination_by structural t => t

/-- The pieces of what a table is read from. -/
def Source.pieces : Source → List Piece
  | .table schema name => qualified schema name
  | .query s => parens s.pieces
  | .values rows => parens (plain "values " ++ separated ", " (rowPieces rows))
  | .function schema name args => qualified schema name ++ parens (separated ", " (exprPieces args))
  | .expr e => e.pieces
termination_by structural s => s

/-- The pieces of each row of values. -/
def rowPieces : List (List Expr) → List (List Piece)
  | [] => []
  | row :: rows => parens (separated ", " (exprPieces row)) :: rowPieces rows
termination_by structural rows => rows

/-- The pieces of joins, one after another. -/
def joinPieces : List Join → List Piece
  | [] => []
  | j :: js => j.pieces ++ joinPieces js
termination_by structural js => js

/-- The pieces of a join, whose condition is always written. -/
def Join.pieces : Join → List Piece
  | ⟨kind, table, on, lateral⟩ =>
    plain kind.text ++ (if lateral then plain "lateral " else []) ++ table.pieces ++ plain " on " ++
      (if on.isAlways then plain "true" else on.pieces)
termination_by structural j => j

/-- The pieces of each term of an order. -/
def orderPieces : List SortTerm → List (List Piece)
  | [] => []
  | o :: os => o.pieces :: orderPieces os
termination_by structural os => os

/-- The pieces of what is sorted by, and the direction. -/
def SortTerm.pieces : SortTerm → List Piece
  | ⟨e, .ascending⟩ => e.pieces ++ plain " asc"
  | ⟨e, .descending⟩ => e.pieces ++ plain " desc"
termination_by structural o => o

end

/-! ## Tokens -/

/-- The tokens of a statement with its parameters as literals. -/
def inlineTokens (ps : List Piece) : List Token :=
  ps.flatMap fun p => match p with
    | .token t => [t]
    | .param v _ => literal v

/-- The place of the parameter with the given number. -/
def placeholder (n : Nat) : Option String → List Token
  | none => [.plain ("$" ++ toString n)]
  | some type => [.plain "cast(", .plain ("$" ++ toString n), .plain (" as " ++ type ++ ")")]

/-- The tokens of a statement with placeholders numbered from `n`. -/
def bindTokens : Nat → List Piece → List Token
  | _, [] => []
  | n, .token t :: ps => t :: bindTokens n ps
  | n, .param _ type :: ps => placeholder n type ++ bindTokens (n + 1) ps

/-- The values of the parameters, in order. -/
def params (ps : List Piece) : List Value :=
  ps.filterMap fun p => match p with
    | .token _ => none
    | .param v _ => some v

/-! ## Statements -/

/-- The text of a statement and the values of its placeholders. -/
structure Statement where
  text : String
  params : List Value
  deriving Repr

/-- The statement of a select. -/
def Select.statement (s : Select) : ParamMode → Statement
  | .inline => ⟨writeAll (inlineTokens s.pieces), []⟩
  | .bind => ⟨writeAll (bindTokens 1 s.pieces), params s.pieces⟩

end LateralSql.Sql

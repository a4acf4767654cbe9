/-
  A select under construction: its columns and its joins.

  A column of a table is selected at most once; whoever needs it again reads it under the
  name it has.
-/
import LateralSql.Query.Compiler

namespace LateralSql

/-- The columns and joins of a select so far. -/
structure Draft where
  columns : List Sql.Expr := []
  joins : List Sql.Join := []

/-- Compilation of one select. -/
abbrev Drafting := StateT Draft Compile

namespace Draft

/-- The name under which an expression selects the given column. -/
def columnName? (c : Sql.Column) : Sql.Expr → Option String
  | .named (.column d) name => if d = c then some name else none
  | _ => none

/-- The name under which the column is selected. -/
def nameOf? (d : Draft) (c : Sql.Column) : Option String := d.columns.findSome? (columnName? c)

/-- The draft with a further column. -/
def withColumn (d : Draft) (e : Sql.Expr) : Draft := { d with columns := d.columns ++ [e] }

/-- The draft with a select joined to each of its rows and all columns of that. -/
def withLateral (d : Draft) (s : Sql.Select) (name : String) : Draft where
  columns := d.columns ++ [.star (some name)]
  joins := d.joins ++ [.ofLateral s name]

end Draft

/-- Selects an expression under a fresh name. -/
def selectExpr (e : Sql.Expr) : Drafting String := do
  let name ← freshColumn
  modify (·.withColumn (e.as name))
  return name

/-- Selects a column unless it is, and returns its name. -/
def selectColumn (c : Sql.Column) : Drafting String := do
  match (← get).nameOf? c with
  | some name => return name
  | none => selectExpr (.column c)

/-- Joins a select to each row. -/
def joinLateral (s : Sql.Select) (name : String) : Drafting Unit := modify (·.withLateral s name)

end LateralSql

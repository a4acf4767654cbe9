/-
  The setting in which requests are compiled.

  A `Compiler` holds what all requests share: the schema, the settings and the known
  reference systems.  One request is compiled in `Compile`, which hands out fresh names
  (`t1`, `t2`, … for tables, `x1`, `x2`, … for columns) and stops at the first error.
-/
import LateralSql.Geometry.Crs
import LateralSql.Query.Error
import LateralSql.Query.Settings
import LateralSql.Sql.Tree

namespace LateralSql

/-- What all requests share. -/
structure Compiler where
  schema : Schema
  settings : Settings := {}
  crs : CrsRegistry := {}

/-- How many names have been handed out. -/
structure Names where
  tables : Nat := 0
  columns : Nat := 0
  deriving Repr, DecidableEq

namespace Names

/-- The name of the table with the given number. -/
def tableName (n : Nat) : String := "t" ++ toString n

/-- The name of the column with the given number. -/
def columnName (n : Nat) : String := "x" ++ toString n

end Names

/-- Compilation of one request. -/
abbrev Compile := StateT Names (Except QueryError)

/-- A fault of the model refuses the request. -/
instance : MonadLift (Except ModelError) (Except QueryError) where
  monadLift
    | .ok a => .ok a
    | .error e => .error (.model e)

/-- A name for a table that has not been used in the request. -/
def freshTable : Compile String := do
  let s ← get
  set { s with tables := s.tables + 1 }
  return Names.tableName (s.tables + 1)

/-- A name for a column that has not been used in the request. -/
def freshColumn : Compile String := do
  let s ← get
  set { s with columns := s.columns + 1 }
  return Names.columnName (s.columns + 1)

namespace Compiler

/-- A table of the model, in the default schema if it names none. -/
def table (c : Compiler) (t : TableRef) : Sql.Table :=
  (Sql.Table.ofRef t).inSchema c.settings.defaultSchema

/-- Where the rows of an entity are read from. Under a context that is a function of its values. -/
def entityTable (c : Compiler) (e : Entity) (context : List ContextValue) : Sql.Table :=
  if context.isEmpty then c.table e.table
  else
    (Sql.Table.ofFunction e.table c.settings.contextSuffix
      (context.map fun v => .param v.value)).inSchema c.settings.defaultSchema

end Compiler

/-- An entity whose rows are read under a name. -/
structure Scope where
  entity : Entity
  name : String

/-- The column of a field. -/
def Scope.column (s : Scope) (f : ScalarField) : Sql.Column := Sql.col s.name f.column

end LateralSql

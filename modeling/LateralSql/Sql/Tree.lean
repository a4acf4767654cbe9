/-
  One SQL `select` statement as a tree.

  Expressions, conditions, tables, joins and selects refer to each other: a table may be
  a select, and a condition may test that a select has rows.  Values are kept in three ways: as a
  parameter (`Expr.param`), as a parameter whose type the place of use does not show
  (`Expr.typed`), and as a literal of the text (`Expr.literal`).
-/
import LateralSql.Value.Basic
import LateralSql.Request.Basic

namespace LateralSql.Sql

/-- A column, perhaps of a named table. -/
structure Column where
  table : Option String := none
  name : String
  deriving Repr, DecidableEq

/-- The column `name` of the table read as `table`. -/
def col (table name : String) : Column := ⟨some table, name⟩

/-- How two values are compared. -/
inductive Comparison where
  | eq | ne | lt | le | gt | ge
  deriving Repr, DecidableEq

/-- An aggregate over numbers. -/
inductive NumericAggregate where
  | sum | avg | min | max
  deriving Repr, DecidableEq

/-- How rows are joined: without a match, a left join keeps the row before it. -/
inductive JoinKind where
  | inner | left
  deriving Repr, DecidableEq

mutual

/-- An expression of a statement. -/
inductive Expr where
  | column (c : Column)
  /-- All columns of a table, or of all tables. -/
  | star (table : Option String)
  | param (v : Value)
  | typed (v : Value) (type : String)
  | literal (v : Value)
  | countAll
  | count (distinct : Bool) (e : Expr)
  | aggregate (f : NumericAggregate) (e : Expr)
  | stringAgg (distinct : Bool) (e separator : Expr)
  | cast (e : Expr) (type : String)
  /-- Any other function, by its name. -/
  | call (name : String) (args : List Expr)
  /-- The elements of an array, as rows. -/
  | unnest (e : Expr)
  | compare (op : Comparison) (l r : Expr)
  | isIn (e : Expr) (items : List Expr)
  | isNull (e : Expr)
  | isNotNull (e : Expr)
  /-- The value equals an element of the array. -/
  | equalsAny (value array : Expr)
  | hasRows (s : Select)
  | hasNoRows (s : Select)
  | cond (c : Cond)
  /-- The expression under a name. -/
  | named (e : Expr) (name : String)

/-- A condition on rows. -/
inductive Cond where
  | and (es : List Expr)
  | or (es : List Expr)
  | not (e : Expr)
  | single (e : Expr)
  /-- Holds of every row. -/
  | always
  /-- Holds of no row. -/
  | never

/-- A select: the tables it reads, its columns, joins, condition and order, and the rows it is cut
    down to. -/
structure Select where
  tables : List Table := []
  columns : List Expr := []
  joins : List Join := []
  condition : Cond
  order : List SortTerm := []
  limit : Option Expr := none
  offset : Option Expr := none

/-- What a select reads from, and the names it is read under. -/
structure Table where
  source : Source
  name : Option String := none
  columns : List String := []

/-- What a table is read from: the database, a select, values, a function or an expression. -/
inductive Source where
  | table (schema : Option String) (name : String)
  | query (s : Select)
  | values (rows : List (List Expr))
  /-- A function that yields rows. -/
  | function (schema : Option String) (name : String) (args : List Expr)
  | expr (e : Expr)

/-- A joined table. A lateral one may refer to the tables before it. -/
structure Join where
  kind : JoinKind
  table : Table
  on : Cond
  lateral : Bool := false

/-- An expression to sort by. -/
structure SortTerm where
  expr : Expr
  direction : Direction

end

/-! ## Expressions -/

namespace Expr

/-- The expression without its name. -/
def bare : Expr → Expr
  | named e _ => e
  | e => e

/-- The expression under the given name, in place of any other. -/
def as (e : Expr) (name : String) : Expr := named e.bare name

/-- `l = r` -/
def equals (l r : Expr) : Expr := compare .eq l r

end Expr

/-- `l = r` for two columns. -/
def Column.equals (l r : Column) : Expr := (Expr.column l).equals (.column r)

/-- The value that stands for a number of rows, which has 64 signed bits. -/
def rowCount (n : UInt64) : Value := .int n.toInt64

namespace RowLimit

/-- A number of rows as a parameter. -/
def atMost (n : UInt64) : Expr := .param (rowCount n)

/-- One row, which the text says and no parameter. -/
def one : Expr := .literal (.int 1)

end RowLimit

/-- A number of rows, if there is one, stands for its parameter. -/
instance : Coe (Option UInt64) (Option Expr) := ⟨Option.map RowLimit.atMost⟩

/-! ## Conditions -/

namespace Cond

/-- The condition that an expression states. -/
def ofExpr (e : Expr) : Cond :=
  match e.bare with
  | .cond c => c
  | _ => single e

/-- The condition holds of every row. -/
def isAlways : Cond → Bool
  | always => true
  | _ => false

/-- The condition holds of no row. -/
def isNever : Cond → Bool
  | never => true
  | _ => false

/-- What a condition adds to a conjunction. -/
def conjuncts : Cond → List Expr
  | always => []
  | and es => es
  | c => [.cond c]

/-- What a condition adds to a disjunction. -/
def disjuncts : Cond → List Expr
  | never => []
  | or es => es
  | c => [.cond c]

/-- All of the conditions hold. Conditions that always hold are dropped, nested conjunctions are
    flattened, and one that never holds decides. -/
def all (cs : List Cond) : Cond :=
  if cs.any isNever then never
  else
    match cs.flatMap conjuncts with
    | [] => always
    | [e] => ofExpr e
    | es => and es

/-- One of the conditions holds. Conditions that never hold are dropped, nested disjunctions are
    flattened, and one that always holds decides. -/
def any (cs : List Cond) : Cond :=
  if cs.any isAlways then always
  else
    match cs.flatMap disjuncts with
    | [] => never
    | [e] => ofExpr e
    | es => or es

/-- Both conditions hold. -/
def both (c d : Cond) : Cond := all [c, d]

/-- The condition does not hold. Two negations cancel. -/
def negate : Cond → Cond
  | always => never
  | never => always
  | not e => ofExpr e
  | c => not (.cond c)

/-- `l.a = r.b` for all pairs `(a, b)` of columns. -/
def equalities (pairs : List (String × String)) (l r : String) : Cond :=
  all (pairs.map fun p => single ((col l p.1).equals (col r p.2)))

end Cond

/-! ## Tables and selects -/

namespace Table

/-- A table of the metadata. -/
def ofRef (t : TableRef) : Table := { source := .table t.schema t.name }

/-- A table's function variant, called with the given arguments. -/
def ofFunction (t : TableRef) (suffix : String) (args : List Expr) : Table :=
  { source := .function t.schema (t.name ++ suffix) args }

/-- The rows of a select, as a table. -/
def ofSelect (s : Select) : Table := { source := .query s }

/-- The table read under the given name. -/
def as (t : Table) (name : String) : Table := { t with name := some name }

/-- The table with names for its columns. -/
def withColumns (t : Table) (columns : List String) : Table := { t with columns }

/-- The table in the given schema, unless it is in one. -/
def inSchema (t : Table) (schema : Option String) : Table :=
  match t.source with
  | .table none name => { t with source := .table schema name }
  | .function none name args => { t with source := .function schema name args }
  | _ => t

end Table

/-- The rows of a select for each row, or one row of nulls where there are none. -/
def Join.ofLateral (s : Select) (name : String) : Join :=
  { kind := .left, table := (Table.ofSelect s).as name, on := .always, lateral := true }

namespace Select

/-- The same select with a further condition. -/
def andWhere (s : Select) (c : Cond) : Select := { s with condition := s.condition.both c }

/-- The first row of the select. -/
def first (s : Select) : Select := { s with limit := some RowLimit.one }

end Select

end LateralSql.Sql

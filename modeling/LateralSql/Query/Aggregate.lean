/-
  Aggregates over related rows.

  The aggregates of one request share a select, except those that join the elements of a
  list: they read the elements as rows, so each has a select of its own (`Aggregate.isUnnested`).
-/
import LateralSql.Query.Condition
import LateralSql.Query.Draft
import LateralSql.Row.Assembler

namespace LateralSql

/-! ## Expressions -/

/-- The database's name of a numeric type. -/
def NumericType.sqlName : NumericType → String
  | int => "integer"
  | float => "decimal"

namespace Aggregate

/-- The type of the result: the wanted one, else that of averages and of fractions, else whole
    numbers. -/
def numericType (a : Aggregate) (f : ScalarField) : NumericType :=
  a.resultType.getD (if a.function = .avg ∨ f.type = .float then .float else .int)

/-- An aggregate over the numbers of a column. -/
def numericExpr (a : Aggregate) (f : ScalarField) (column : Sql.Column)
    (function : Sql.NumericAggregate) : Except QueryError Sql.Expr :=
  if !f.type.isNumeric || f.isList then throw (.unsupportedAggregate a.function f.name f.type)
  else if a.distinct then throw (.invalidRequest (.distinct a.function))
  else return .cast (.aggregate function (.column column)) (a.numericType f).sqlName

/-- What stands between joined texts if the request does not say. -/
def defaultSeparator : String := ","

/-- The expression of an aggregate over the field stored in a column. -/
def expr (a : Aggregate) : Option (ScalarField × Sql.Column) → Except QueryError Sql.Expr
  | none =>
    if a.function = .count then
      if a.distinct then throw (.missingInput .distinctCountField) else return .countAll
    else throw (.missingInput .aggregateField)
  | some (f, column) =>
    match a.function with
    | .count => return .count a.distinct (.column column)
    | .join =>
      if f.type = .string then
        return .stringAgg a.distinct (.column column)
          (.param (.string (a.separator.getD defaultSeparator)))
      else throw (.unsupportedAggregate a.function f.name f.type)
    | .sum => a.numericExpr f column .sum
    | .avg => a.numericExpr f column .avg
    | .min => a.numericExpr f column .min
    | .max => a.numericExpr f column .max

end Aggregate

/-! ## Selects -/

/-- An aggregate with the field it reads. -/
abbrev SourcedAggregate := Aggregate × Option ScalarField

namespace SourcedAggregate

/-- Whether the elements of a list have to be read as rows. -/
def isUnnested : SourcedAggregate → Bool
  | (a, some f) => f.isList && a.function = .join
  | (_, none) => false

end SourcedAggregate

/-- The field that an aggregate reads, if it names one. -/
def Aggregate.sourced (target : Entity) (a : Aggregate) : Except ModelError SourcedAggregate :=
  match a.field with
  | none => return (a, none)
  | some name => return (a, some (← target.scalarField name))

/-- A select over related rows, the name it is joined under, and the name of the rows in it. -/
structure AggregateSelect where
  wrapper : String
  source : String
  select : Sql.Select

/-- The related rows that satisfy the filters. -/
def aggregateSelect (c : Compiler) (l : Link) (parent : String) (filters : List Filter) :
    Compile AggregateSelect := do
  let wrapper ← freshTable
  let source ← freshTable
  let correlation ← l.correlate c parent source
  let condition ← conjunction c ⟨l.child, source⟩ filters
  return {
    wrapper, source
    select := {
      tables := [(c.table l.child.table).as source]
      joins := correlation.joins
      condition := correlation.condition.both condition } }

/-- The results of aggregates in one select, and their names. -/
def sharedResults (source : String) : List SourcedAggregate → Compile (List (Sql.Expr × String))
  | [] => return []
  | (a, f) :: rest => do
    let name ← freshColumn
    let e ← a.expr (f.map fun f => (f, Sql.col source f.column))
    return (e.as name, name) :: (← sharedResults source rest)

/-- The aggregates that share a select; the names of their results. -/
def selectShared (c : Compiler) (l : Link) (parent : String) (filters : List Filter)
    (as : List SourcedAggregate) : Drafting (List String) := do
  if as.isEmpty then return []
  else
    let s ← aggregateSelect c l parent filters
    let results ← sharedResults s.source as
    joinLateral { s.select with columns := results.map (·.1) } s.wrapper
    return results.map (·.2)

/-- An aggregate over the elements of a list; the name of its result. -/
def selectUnnested (c : Compiler) (l : Link) (parent : String) (filters : List Filter)
    (a : SourcedAggregate) : Drafting String := do
  let s ← aggregateSelect c l parent filters
  let elements ← freshTable
  let element ← freshColumn
  let name ← freshColumn
  let e ← a.1.expr (a.2.map fun f => (f, Sql.col elements element))
  let list := a.2.map fun f => Sql.Expr.unnest (.column (Sql.col s.source f.column))
  joinLateral
    { s.select with
      columns := [e.as name]
      joins := s.select.joins ++ list.toList.map fun e => {
        kind := .inner
        table := { source := .expr e, name := some elements, columns := [element] }
        on := .always
        lateral := true } }
    s.wrapper
  return name

/-- Merges the results for the elements of a list with and without a property, in the order of the
    list. -/
def unsplit {α β : Type} (p : α → Bool) : List α → List β → List β → List β
  | [], _, _ => []
  | a :: as, yes, no =>
    match p a, yes, no with
    | true, y :: yes, no => y :: unsplit p as yes no
    | false, yes, n :: no => n :: unsplit p as yes no
    | _, _, _ => []

/-- The aggregates over the rows that a field of the entity in scope relates. -/
def selectAggregates (c : Compiler) (s : Scope) (r : AggregateRequest) :
    Drafting (String × FieldReader) := do
  let f ← s.entity.objectField r.field
  let link ← Link.resolve c.schema s.entity f
  let sourced ← (r.aggregates.mapM (Aggregate.sourced link.child) : Except ModelError _)
  let shared ← selectShared c link s.name r.filters (sourced.filter (!·.isUnnested))
  let unnested ← (sourced.filter (·.isUnnested)).mapM (selectUnnested c link s.name r.filters)
  let names := unsplit SourcedAggregate.isUnnested sourced unnested shared
  return (r.label, .object {
    fields := (r.aggregates.map (·.label)).zip (names.map .column) })

end LateralSql

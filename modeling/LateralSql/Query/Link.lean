/-
  Relations down to pairs of columns.

  A relation may be declared on either side and in three ways; a `Link` has two forms
  only.  Either columns of the two tables are equal (`Topology.direct`), or a junction
  table has a row that equals columns of both.  `Link.resolve` finds the link of an object
  field, and `Link.correlate` restricts a query over the child's table to the rows related
  to one parent.
-/
import LateralSql.Query.Compiler

namespace LateralSql

/-- Which columns are equal in related rows. -/
inductive Topology where
  /-- Pairs of a parent's and a child's column. -/
  | direct (pairs : List (String × String))
  /-- Pairs of a junction's and a parent's column, and of a junction's and a child's column. -/
  | junction (table : TableRef) (parent child : List (String × String))
  deriving Repr, DecidableEq

/-- A relation from a parent to a child, by columns. -/
structure Link where
  child : Entity
  topology : Topology
  /-- The types of the parent's columns, as far as a field tells. -/
  parentTypes : List (Option ScalarType)
  deriving Repr, DecidableEq

/-! ## Referenced columns -/

namespace JoinColumn

/-- The column of `e` that a join column refers to. -/
def referencedColumn (e : Entity) (j : JoinColumn) : Except ModelError String :=
  match j.referenced with
  | .column name => .ok name
  | .field name => return (← e.scalarField name).column

/-- The type of the column of `e` that a join column refers to, if a field is stored in it. -/
def referencedType (e : Entity) (j : JoinColumn) : Option ScalarType :=
  match j.referenced with
  | .column name => ((e.fields.filterMap Field.scalar?).find? (·.column = name)).map (·.type)
  | .field name => (e.scalarField name).toOption.map (·.type)

/-- Each join column with the column of `e` it refers to. -/
def pairs (e : Entity) (js : List JoinColumn) : Except ModelError (List (String × String)) :=
  js.mapM fun j => return (j.name, ← j.referencedColumn e)

end JoinColumn

/-! ## Links -/

namespace Link

/-- The link of the field `f` of the entity `parent`. -/
def resolve (s : Schema) (parent : Entity) (f : ObjectField) : Except QueryError Link := do
  let child ← s.entity f.target
  match f.relation with
  | none => throw (.invalidRequest (.embeddedJoin parent.name f.name))
  | some (.joinColumns columns) =>
    let pairs ← JoinColumn.pairs child columns
    return ⟨child, .direct pairs, columns.map (·.referencedType child)⟩
  | some (.joinTable j) =>
    let toParent ← JoinColumn.pairs parent j.joinColumns
    let toChild ← JoinColumn.pairs child j.inverseJoinColumns
    return ⟨child, .junction j.table toParent toChild, j.joinColumns.map (·.referencedType parent)⟩
  | some (.mappedBy owner) =>
    match (← child.objectField owner).relation with
    | some (.joinColumns columns) =>
      let pairs ← JoinColumn.pairs parent columns
      return ⟨child, .direct (pairs.map Prod.swap), columns.map (·.referencedType parent)⟩
    | some (.joinTable j) =>
      let toParent ← JoinColumn.pairs parent j.inverseJoinColumns
      let toChild ← JoinColumn.pairs child j.joinColumns
      return ⟨child, .junction j.table toParent toChild,
        j.inverseJoinColumns.map (·.referencedType parent)⟩
    | _ =>
      throw (.model (.invalidRelation (parent.name ++ "." ++ f.name) (.notOwner child.name owner)))

/-- The parent's columns, in the order of declaration. -/
def parentColumns (l : Link) : List String :=
  match l.topology with
  | .direct pairs => pairs.map (·.1)
  | .junction _ parent _ => parent.map (·.2)

end Link

/-! ## Correlation -/

/-- What ties a query over a child's table to one parent. -/
structure Correlation where
  joins : List Sql.Join := []
  condition : Sql.Cond := .always
  /-- Columns that are null only if there is no related row. -/
  existsColumns : List Sql.Column := []

/-- Ties the child's table, read as `child`, to the row read as `parent`. A junction table is
    joined under a name of its own. -/
def Link.correlate (c : Compiler) (l : Link) (parent child : String) : Compile Correlation :=
  match l.topology with
  | .direct pairs =>
    return {
      condition := .equalities (pairs.map Prod.swap) child parent
      existsColumns := pairs.map fun p => Sql.col child p.2 }
  | .junction table toParent toChild => do
    let junction ← freshTable
    return {
      joins := [{
        kind := .inner
        table := (c.table table).as junction
        on := .equalities toChild junction child }]
      condition := .equalities toParent junction parent
      existsColumns := toChild.map fun p => Sql.col junction p.1 }

end LateralSql

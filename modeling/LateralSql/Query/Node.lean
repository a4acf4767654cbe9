/-
  The select of one node of a request, with the nodes below it.

  A to-one object becomes a select of its own, joined to each row; an embedded object is
  read from the same row; of a to-many object only the key is selected, by which a batch
  finds the related rows later.
-/
import LateralSql.Query.Aggregate
import LateralSql.Query.Keys

namespace LateralSql

/-- The row that a node's rows are related to. -/
structure Parent where
  link : Link
  /-- The name that the row is read under. -/
  name : String
  /-- Whether to select the columns that tell a related row from none. -/
  selectsExists : Bool

/-- The query of a node. -/
structure Node where
  select : Sql.Select
  assembler : Assembler
  /-- The columns that tell a related row from none, if they are selected. -/
  existsColumns : List String

/-- What ties a node read as `name` to its parent, if it has one. -/
def correlateParent (c : Compiler) (parent : Option Parent) (name : String) : Compile Correlation :=
  match parent with
  | some p => p.link.correlate c p.name name
  | none => return {}

/-! ## Scalar fields -/

/-- A selected field and the name of its column. -/
def selectField (c : Compiler) (s : Scope) (f : SelectedField) :
    Drafting (SelectedField × String) := do
  match ← s.entity.field f.name with
  | .object _ => throw (.invalidRequest (.objectSelected s.entity.name f.name))
  | .scalar field =>
    match ← geometryOutput c s.name field f.srid with
    | .column column => return (f, ← selectColumn column)
    | e => return (f, ← selectExpr e)

/-- The column of the first selected field that is a key. -/
def selectedKey? (e : Entity) (selected : List (SelectedField × String)) : Option String :=
  (selected.find? fun p => e.isKey p.1.name).map (·.2)

/-- The column by which rows are told from none: that of a selected key field, else that of the
    first key field, which is selected for this. -/
def selectKey (s : Scope) (selected : List (SelectedField × String)) :
    Drafting (Option String) := do
  match selectedKey? s.entity selected with
  | some name => return some name
  | none =>
    match ← s.entity.keyFields with
    | [] => return none
    | f :: _ => return some (← selectColumn (s.column f))

/-- How the selected fields are read. -/
def columnReaders (selected : List (SelectedField × String)) : List (String × FieldReader) :=
  selected.map fun p => (p.1.label, .column p.2)

/-! ## Objects without a select of their own -/

/-- The label of the key under which the rows of a to-many object are found. -/
def joinLabel (label : String) : String := "$join:" ++ label

/-- The key of a to-many object. -/
def selectJoinKey (c : Compiler) (s : Scope) (f : ObjectField) (label : String) :
    Drafting (String × FieldReader) := do
  let link ← Link.resolve c.schema s.entity f
  let columns ← link.parentColumns.mapM fun column =>
    return (column, ← selectColumn (Sql.col s.name column))
  return (joinLabel label, .joinKey columns)

/-! ## Rows -/

/-- The order of the rows. The columns to sort by are selected. -/
def selectOrder (s : Scope) (k : SortKey) : Drafting Sql.SortTerm := do
  let f ← s.entity.scalarField k.field
  let name ← selectColumn (s.column f)
  return { expr := .column { name }, direction := k.direction }

/-- The columns that tell a related row from none, if the parent wants them selected. -/
def selectExists (parent : Option Parent) (columns : List Sql.Column) : Drafting (List String) :=
  match parent with
  | some p => if p.selectsExists then columns.mapM selectColumn else return []
  | none => return []

/-- The column by which a node without a key tells a related row from none. -/
def selectRelated (checkNull : Option String) (columns : List Sql.Column) :
    Drafting (Option String) := do
  match checkNull, columns with
  | none, column :: _ => return some (← selectColumn column)
  | _, _ => return checkNull

/-- Which rows of a node are wanted, apart from its fields. -/
structure RowCriteria where
  filters : List Filter
  sort : List SortKey
  paging : Option Paging
  keys : List KeyMap

/-- Completes the select of a node once its fields are drafted. -/
def finish (c : Compiler) (s : Scope) (table : Sql.Table) (parent : Option Parent)
    (correlation : Correlation) (r : RowCriteria) (fields : List (String × FieldReader))
    (checkNull : Option String) : Drafting Node := do
  let order ← r.sort.mapM (selectOrder s)
  let filters ← conjunction c s r.filters
  let keys ← keyCriteria s r.keys
  let existsColumns ← selectExists parent correlation.existsColumns
  let checkNull ← selectRelated checkNull correlation.existsColumns
  let draft ← get
  if draft.columns.isEmpty then throw (.invalidRequest (.nothingSelected s.entity.name))
  else
    return {
      select := {
        tables := [table]
        columns := draft.columns
        joins := correlation.joins ++ keys.joins ++ draft.joins
        condition := (correlation.condition.both filters).both keys.condition
        order
        limit := (r.paging.bind (·.limit) : Option UInt64)
        offset := (r.paging.bind (·.offset) : Option UInt64) }
      assembler := { fields, checkNull }
      existsColumns }

/-! ## Nodes -/

mutual

/-- The query of a node, related to the parent's row if there is one. -/
def node (c : Compiler) (parent : Option Parent) : ObjectRequest → Compile Node
  | ⟨entity, selected, objects, aggregates, filters, sort, paging, keys, context⟩ => do
    let entity ← c.schema.entity entity
    let name ← freshTable
    let s : Scope := ⟨entity, name⟩
    let correlation ← correlateParent c parent name
    let drafted : Drafting Node := do
      let selected ← selected.mapM (selectField c s)
      let checkNull ← selectKey s selected
      let objects ← objectReaders c s objects
      let aggregates ← aggregates.mapM (selectAggregates c s)
      finish c s ((c.entityTable entity context).as name) parent correlation
        ⟨filters, sort, paging, keys⟩ (columnReaders selected ++ objects ++ aggregates) checkNull
    drafted.run' {}
termination_by structural r => r

/-- How nested objects are read. -/
def objectReaders (c : Compiler) (s : Scope) : List ObjectFieldRequest →
    Drafting (List (String × FieldReader))
  | [] => return []
  | o :: rest => return (← objectReader c s o) :: (← objectReaders c s rest)
termination_by structural os => os

/-- How a nested object is read. -/
def objectReader (c : Compiler) (s : Scope) : ObjectFieldRequest → Drafting (String × FieldReader)
  | ⟨field, label, request⟩ => do
    let f ← s.entity.objectField field
    if request.entity ≠ f.target then
      throw (.invalidRequest (.otherTarget s.entity.name f.name f.target request.entity))
    else if f.isEmbedded then
      if request.hasRowCriteria then
        throw (.invalidRequest (.embeddedCriteria s.entity.name f.name))
      else
        let target ← c.schema.entity f.target
        return (label, .object { fields := ← embeddedReaders c ⟨target, s.name⟩ request })
    else if f.isList then
      selectJoinKey c s f label
    else
      let wrapper ← freshTable
      let link ← Link.resolve c.schema s.entity f
      let child ← node c (some ⟨link, s.name, false⟩) request
      joinLateral child.select.first wrapper
      return (label, .object child.assembler)
termination_by structural o => o

/-- How the fields of an embedded object are read. -/
def embeddedReaders (c : Compiler) (s : Scope) : ObjectRequest →
    Drafting (List (String × FieldReader))
  | ⟨_, selected, objects, aggregates, _, _, _, _, _⟩ => do
    let selected ← selected.mapM (selectField c s)
    let objects ← objectReaders c s objects
    let aggregates ← aggregates.mapM (selectAggregates c s)
    return columnReaders selected ++ objects ++ aggregates
termination_by structural r => r

end

end LateralSql

/-
  Filters as conditions.

  A test on a field of the entity itself compares its column.  A path through an
  embedded object stays on the same row; a path through a relation asks for the existence of a
  related row.
-/
import LateralSql.Query.Spatial

namespace LateralSql

/-! ## Tests on a field of the entity itself -/

/-- Whether the values of a field have an order that rows can be compared by. -/
def ScalarField.isOrdered (f : ScalarField) : Bool :=
  !f.isList && f.type != .geometry && f.type != .json && f.type != .boolean

/-- A scalar field that a filter names. -/
def Scope.filtered (s : Scope) (name : String) : Except QueryError ScalarField := do
  match ← s.entity.field name with
  | .scalar f => return f
  | .object _ => throw (.unsupportedFilter (s.entity.name ++ "." ++ name) .objectField)

/-- Equality; with null it is a test for null, and for a list it is membership. -/
def equalsCondition (s : Scope) (f : ScalarField) (v : Value) : Except QueryError Sql.Cond :=
  if f.type = .geometry then throw (.unsupportedFilter f.name .geometryEquality)
  else
    let column := Sql.Expr.column (s.column f)
    if v.isNull then return .single (.isNull column)
    else if f.isList then return .single (.equalsAny (.param v) column)
    else return .single (column.equals (.param v))

/-- A comparison by order. -/
def rangeCondition (s : Scope) (f : ScalarField) (op : Sql.Comparison) (v : Value) :
    Except QueryError Sql.Cond :=
  if !f.isOrdered then throw (.unsupportedFilter f.name (.unordered f.typeText))
  else if v.isNull then throw (.unsupportedFilter f.name .nullBound)
  else return .single (.compare op (.column (s.column f)) (.param v))

/-- Equality with one of several values. -/
def inCondition (s : Scope) (f : ScalarField) (vs : List Value) : Except QueryError Sql.Cond :=
  if f.isList || f.type = .geometry then
    throw (.unsupportedFilter f.name (.membership f.typeText))
  else if vs.isEmpty then return .never
  else return .single (.isIn (.column (s.column f)) (vs.map .param))

/-- The condition of a test on a field of the entity in scope. -/
def fieldCondition (c : Compiler) (s : Scope) (name : String) (t : FieldTest) :
    Compile Sql.Cond := do
  let f ← s.filtered name
  match t with
  | .equals v => equalsCondition s f v
  | .greater orEqual v => rangeCondition s f (if orEqual then .ge else .gt) v
  | .lower orEqual v => rangeCondition s f (if orEqual then .le else .lt) v
  | .isIn vs => inCondition s f vs
  | .spatial t => spatialCondition c s f t

/-! ## Paths -/

/-- Some row related to the one read as `parent` satisfies a condition, which is made for the
    related entity in its scope. -/
def existsRelated (c : Compiler) (parent : String) (l : Link) (nested : Scope → Compile Sql.Cond) :
    Compile Sql.Cond := do
  let child ← freshTable
  let correlation ← l.correlate c parent child
  let condition ← nested ⟨l.child, child⟩
  return .single (.hasRows {
    tables := [(c.table l.child.table).as child]
    columns := [.literal (.int 1)]
    joins := correlation.joins
    condition := correlation.condition.both condition })

/-- The condition of a test at the end of a path. -/
def pathCondition (c : Compiler) (t : FieldTest) : FieldPath → Scope → Compile Sql.Cond
  | [], _ => throw .emptyPath
  | [name], s => fieldCondition c s name t
  | name :: next :: rest, s => do
    let f ← s.entity.objectField name
    let target ← c.schema.entity f.target
    if f.isEmbedded then
      pathCondition c t (next :: rest) ⟨target, s.name⟩
    else
      let link ← Link.resolve c.schema s.entity f
      existsRelated c s.name link (pathCondition c t (next :: rest))

/-! ## Filters -/

mutual

/-- The condition of a filter. -/
def condition (c : Compiler) (s : Scope) : Filter → Compile Sql.Cond
  | .test path t => pathCondition c t path s
  | .not f => return (← condition c s f).negate
  | .and fs => return .all (← conditions c s fs)
  | .or fs => return .any (← conditions c s fs)
termination_by structural f => f

/-- The conditions of some filters, in order. -/
def conditions (c : Compiler) (s : Scope) : List Filter → Compile (List Sql.Cond)
  | [] => return []
  | f :: fs => return (← condition c s f) :: (← conditions c s fs)
termination_by structural fs => fs

end

/-- The condition that all filters hold. -/
def conjunction (c : Compiler) (s : Scope) (fs : List Filter) : Compile Sql.Cond :=
  return .all (← conditions c s fs)

end LateralSql

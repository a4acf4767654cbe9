/-
  Keys in queries: as equalities, or as a table of values.
-/
import LateralSql.Query.Compiler

namespace LateralSql

/-- The database's name of the type of a column. -/
def ScalarType.sqlName : ScalarType → String
  | string => "text"
  | int => "bigint"
  | float => "numeric"
  | boolean => "boolean"
  | dateTime => "timestamptz"
  | json => "jsonb"
  | geometry => "geometry"

/-- The value of a key. Its type is given where it is known, since a table of parameters does not
    show it. -/
def keyCell (v : Value) : Option ScalarType → Sql.Expr
  | some type => .typed v type.sqlName
  | none => .param v

/-- The keys as a table of values, with a row for each. -/
def keyTable (keys : JoinKeys) (types : List (Option ScalarType)) (name : String) : Sql.Table where
  source := .values (keys.keys.map fun k => k.values.zipWith keyCell types)
  name := some name
  columns := keys.names

/-- What restricts the rows to those with the given keys. -/
structure KeyCriteria where
  condition : Sql.Cond := .always
  joins : List Sql.Join := []

/-- The criteria for the rows in scope: none without keys, equalities for one key, and a table of
    values for several. -/
def keyCriteria (s : Scope) : List KeyMap → Compile KeyCriteria
  | [] => return {}
  | [key] => do
    let conditions ← key.members.mapM fun m => do
      let f ← s.entity.scalarField m.1
      return Sql.Cond.single ((Sql.Expr.column (s.column f)).equals (.param m.2))
    return { condition := .all conditions }
  | keys => do
    let keys ← JoinKeys.ofList keys
    let name ← freshTable
    let fields ← (keys.names.mapM s.entity.scalarField : Except ModelError _)
    let on := (fields.zip keys.names).map fun p =>
      Sql.Cond.single ((s.column p.1).equals (Sql.col name p.2))
    return {
      joins := [{
        kind := .inner
        table := keyTable keys (fields.map fun f => some f.type) name
        on := .all on }] }

end LateralSql

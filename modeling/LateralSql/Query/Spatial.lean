/-
  Spatial conditions and geometries in a wanted reference system.

  A column holds geometries in its native reference system.  Columns named by a suffix
  hold them in others, and two systems may differ by their label only (`CrsRegistry`).
  A geometry is never transformed for output (`geometryOutput`); the literal of a filter
  is, if need be.

  A large geometry may be stored in segments, one for each tile of a grid that it meets.
  A test is then carried out on each segment against the piece of the literal in the same tile.
-/
import LateralSql.Geometry.Read
import LateralSql.Query.Link

namespace LateralSql

open Sql (col)

/-- A reference system as a value of a query. -/
def sridValue (srid : Srid) : Value := .int srid.toInt64

/-- The column that holds a field's geometries in the reference system `srid`, if there is one. -/
def suffixedColumn? (c : Compiler) (table : String) (f : ScalarField) (srid : Srid) :
    Option Sql.Column :=
  (c.crs.columnSuffix? srid).map fun suffix => col table (f.column ++ suffix)

/-! ## Output -/

/-- A field in the wanted reference system: the native column, a column that holds it in that
    system, or one that holds it in an equivalent system under a new label. -/
def geometryOutput (c : Compiler) (table : String) (f : ScalarField) (srid : Option Srid) :
    Except QueryError Sql.Expr :=
  let native := col table f.column
  match srid with
  | none => return .column native
  | some requested =>
    match f.geometry with
    | none => throw (.invalidRequest (.noReferenceSystem f.name))
    | some info =>
      if requested = info.srid then return .column native
      else
        match suffixedColumn? c table f requested with
        | some column => return .column column
        | none =>
          let source := (c.crs.equivalent? requested).bind fun equivalent =>
            if equivalent = info.srid then some native else suffixedColumn? c table f equivalent
          match source with
          | some column =>
            return .call "ST_SetSRID" [.column column, .param (sridValue requested)]
          | none => throw (.unsupportedReprojection info.srid requested)

/-! ## Tests -/

/-- The function that carries out a spatial operator. -/
def SpatialOperator.function (strategy : SpatialStrategy) :
    SpatialOperator → Except QueryError String
  | contains => return "ST_Contains"
  | within => return "ST_Within"
  | intersects => return "ST_Intersects"
  | touches => return "ST_Touches"
  | operator => throw (.unsupportedSpatialOperator operator strategy)

/-- Whether an operator has a function at all. -/
def SpatialOperator.isPredicate (o : SpatialOperator) : Bool :=
  match o with
  | .srid | .type => false
  | _ => true

/-- The literal of a test and the reference system it is in: the one of the test, else the one
    that the literal declares, else the column's. -/
def SpatialTest.literal (t : SpatialTest) (native : Srid) :
    Except QueryError (Sql.Expr × Srid) := do
  match t.geometry with
  | none => throw (.missingInput .spatialGeometry)
  | some input =>
    match input.read with
    | .error fault => throw (.malformedGeometry input.display fault)
    | .ok g =>
      let srid := (t.srid <|> g.srid).getD native
      let label := Sql.Expr.param (sridValue srid)
      match g.text with
      | .wkt text => return (.call "ST_GeomFromText" [.param (.string text), label], srid)
      | .geoJson text =>
        let parsed := Sql.Expr.call "ST_GeomFromGeoJSON" [.param (.string text)]
        return (.call "ST_SetSRID" [parsed, label], srid)

/-- The geometry of an expression in another reference system. -/
def transformed (e : Sql.Expr) (srid : Srid) : Sql.Expr :=
  .call "ST_Transform" [e, .param (sridValue srid)]

/-- The condition that a function holds of two expressions. -/
def callCondition (function : String) (l r : Sql.Expr) : Sql.Cond :=
  .single (.call function [l, r])

/-- A test on the column itself, or on the column that holds it in the literal's system. -/
def directCondition (c : Compiler) (s : Scope) (f : ScalarField) (info : GeometryInfo)
    (t : SpatialTest) : Except QueryError Sql.Cond := do
  if !t.operator.isPredicate then return .always
  else
    let function ← t.operator.function .direct
    let (literal, srid) ← t.literal info.srid
    let (column, literal) :=
      if srid = info.srid then (s.column f, literal)
      else
        match suffixedColumn? c s.name f srid with
        | some column => (column, literal)
        | none => (s.column f, transformed literal info.srid)
    return callCondition function (.column column) literal

/-- The segments of the row in scope that satisfy a condition with the piece of the literal in their
    tile. -/
def segmentQuery (c : Compiler) (s : Scope) (g : GeometrySegments) (literal : Sql.Expr)
    (condition : Sql.Expr → Sql.Expr → Sql.Cond) : Compile Sql.Select := do
  let pieces ← freshTable
  let tiles ← freshTable
  let segments ← freshTable
  let tile ← freshColumn
  let piece ← freshColumn
  let tileGeometry := Sql.Expr.column (col tiles g.tiles.geometryColumn)
  let owner ← JoinColumn.pairs s.entity g.joinColumns
  let inTiles : Sql.Select := {
    tables := [(c.table g.tiles.table).as tiles]
    columns := [
      (Sql.Expr.column (col tiles g.tiles.idColumn)).as tile,
      (Sql.Expr.call "ST_Intersection" [tileGeometry, literal]).as piece]
    condition := callCondition "ST_Intersects" tileGeometry literal }
  return {
    tables := [(Sql.Table.ofSelect inTiles).as pieces]
    columns := [.literal (.int 1)]
    joins := [{
      kind := .inner
      table := (c.table g.table).as segments
      on := .single ((col segments g.tileColumn).equals (col pieces tile)) }]
    condition := (Sql.Cond.equalities owner segments s.name).both
      (condition (.column (col segments g.geometryColumn)) (.column (col pieces piece))) }

/-- A test on segments: one of them meets the literal, and none fails the test. -/
def segmentedCondition (c : Compiler) (s : Scope) (info : GeometryInfo) (g : GeometrySegments)
    (t : SpatialTest) : Compile Sql.Cond := do
  let function ← t.operator.function .segmented
  let (literal, srid) ← t.literal info.srid
  let literal := if srid = info.srid then literal else transformed literal info.srid
  let overlapping ← segmentQuery c s g literal (callCondition "ST_Intersects")
  if t.operator = .intersects then return .single (.hasRows overlapping)
  else
    let failing ← segmentQuery c s g literal fun l r => (callCondition function l r).negate
    return .all [.single (.hasRows overlapping), .single (.hasNoRows failing)]

/-- The condition of a spatial test on a field. -/
def spatialCondition (c : Compiler) (s : Scope) (f : ScalarField) (t : SpatialTest) :
    Compile Sql.Cond :=
  match f.geometry with
  | none => throw (.unsupportedFilter f.name .notSpatial)
  | some info =>
    match info.segments with
    | none => directCondition c s f info t
    | some g => segmentedCondition c s info g t

end LateralSql

/-
  Reference systems of spatial expressions.

  `InSystem` derives the reference system of a geometry from those of the columns it is read from:
  a literal is in the system of its label, a transformed geometry in the new one, and a geometry
  may be given another label only if the registry says that the two systems have the same
  coordinates.  `geometryPairs` lists the geometries that a function takes together, at any depth.
  Spatial tests never take geometries of different systems together, and a field put out in a
  system is in it.
-/
import LateralSql.Proofs.ColumnSharing
import LateralSql.Proofs.Correlations
import LateralSql.Proofs.Outcomes

namespace LateralSql

open Sql (Cond Expr Join Select SortTerm Source Table col)

/-! ## Geometries of one system -/

/-- A geometry whose text has been labelled with a reference system. -/
inductive Labelled : GeometryText → Srid → Expr → Prop
  | wkt (text : String) (srid : Srid) :
      Labelled (.wkt text) srid
        (.call "ST_GeomFromText" [.param (.string text), .param (.int srid.toInt64)])
  | geoJson (text : String) (srid : Srid) :
      Labelled (.geoJson text) srid (.call "ST_SetSRID"
        [.call "ST_GeomFromGeoJSON" [.param (.string text)], .param (.int srid.toInt64)])

namespace Sql

/-- Two geometries that a function takes, and the tables in scope there. -/
structure GeometryPair where
  scope : List Table
  left : Expr
  right : Expr

/-- The functions that take two geometries. -/
def spatialFunctions : List String :=
  ["ST_Contains", "ST_Within", "ST_Intersects", "ST_Touches", "ST_Intersection"]

/-- The geometries that a call takes together. -/
def callPairs (scope : List Table) (name : String) : List Expr → List GeometryPair
  | [l, r] => if name ∈ spatialFunctions then [⟨scope, l, r⟩] else []
  | _ => []

mutual

/-- The geometries that functions take together in an expression, at any depth. -/
def Expr.geometryPairs (scope : List Table) : Expr → List GeometryPair
  | .column _ => []
  | .star _ => []
  | .param _ => []
  | .typed _ _ => []
  | .literal _ => []
  | .countAll => []
  | .count _ e => e.geometryPairs scope
  | .aggregate _ e => e.geometryPairs scope
  | .stringAgg _ e separator => e.geometryPairs scope ++ separator.geometryPairs scope
  | .cast e _ => e.geometryPairs scope
  | .call name args => callPairs scope name args ++ exprPairs scope args
  | .unnest e => e.geometryPairs scope
  | .compare _ l r => l.geometryPairs scope ++ r.geometryPairs scope
  | .isIn e items => e.geometryPairs scope ++ exprPairs scope items
  | .isNull e => e.geometryPairs scope
  | .isNotNull e => e.geometryPairs scope
  | .equalsAny value array => value.geometryPairs scope ++ array.geometryPairs scope
  | .hasRows s => s.geometryPairs scope
  | .hasNoRows s => s.geometryPairs scope
  | .cond c => c.geometryPairs scope
  | .named e _ => e.geometryPairs scope
termination_by structural e => e

/-- The geometries that are taken together in expressions. -/
def exprPairs (scope : List Table) : List Expr → List GeometryPair
  | [] => []
  | e :: es => e.geometryPairs scope ++ exprPairs scope es
termination_by structural es => es

/-- The geometries that are taken together in a condition. -/
def Cond.geometryPairs (scope : List Table) : Cond → List GeometryPair
  | .and es => exprPairs scope es
  | .or es => exprPairs scope es
  | .not e => e.geometryPairs scope
  | .single e => e.geometryPairs scope
  | .always => []
  | .never => []
termination_by structural c => c

/-- The tables of a select are in scope in its columns, its conditions and its order. -/
def Select.geometryPairs (outer : List Table) : Select → List GeometryPair
  | ⟨tables, columns, joins, condition, order, limit, offset⟩ =>
    tablePairs outer tables ++
    joinPairs outer (tables ++ joins.map (·.table) ++ outer) joins ++
    exprPairs (tables ++ joins.map (·.table) ++ outer) columns ++
    condition.geometryPairs (tables ++ joins.map (·.table) ++ outer) ++
    orderPairs (tables ++ joins.map (·.table) ++ outer) order ++
    optionPairs outer limit ++ optionPairs outer offset
termination_by structural s => s

/-- The geometries that are taken together in an expression, if there is one. -/
def optionPairs (scope : List Table) : Option Expr → List GeometryPair
  | none => []
  | some e => e.geometryPairs scope
termination_by structural e => e

/-- The geometries that are taken together in tables. -/
def tablePairs (scope : List Table) : List Table → List GeometryPair
  | [] => []
  | t :: ts => t.geometryPairs scope ++ tablePairs scope ts
termination_by structural ts => ts

/-- The geometries that are taken together in a table. -/
def Table.geometryPairs (scope : List Table) : Table → List GeometryPair
  | ⟨source, _, _⟩ => source.geometryPairs scope
termination_by structural t => t

/-- The geometries that are taken together in what a table is read from. -/
def Source.geometryPairs (scope : List Table) : Source → List GeometryPair
  | .table _ _ => []
  | .query s => s.geometryPairs scope
  | .values rows => rowPairs scope rows
  | .function _ _ args => exprPairs scope args
  | .expr e => e.geometryPairs scope
termination_by structural s => s

/-- The geometries that are taken together in rows of values. -/
def rowPairs (scope : List Table) : List (List Expr) → List GeometryPair
  | [] => []
  | row :: rows => exprPairs scope row ++ rowPairs scope rows
termination_by structural rows => rows

/-- A lateral table is read where the others are in scope, and so is the condition of a join. -/
def joinPairs (outer scope : List Table) : List Join → List GeometryPair
  | [] => []
  | j :: js => j.geometryPairs outer scope ++ joinPairs outer scope js
termination_by structural js => js

/-- The geometries that are taken together in a joined table and its condition. -/
def Join.geometryPairs (outer scope : List Table) : Join → List GeometryPair
  | ⟨_, table, on, lateral⟩ =>
    table.geometryPairs (if lateral then scope else outer) ++ on.geometryPairs scope
termination_by structural j => j

/-- The geometries that are taken together in an order. -/
def orderPairs (scope : List Table) : List SortTerm → List GeometryPair
  | [] => []
  | t :: ts => t.geometryPairs scope ++ orderPairs scope ts
termination_by structural ts => ts

/-- The geometries that are taken together in what is sorted by. -/
def SortTerm.geometryPairs (scope : List Table) : SortTerm → List GeometryPair
  | ⟨e, _⟩ => e.geometryPairs scope
termination_by structural t => t

end

/-! ### Conditions -/

namespace Cond

variable {scope : List Table} {p : GeometryPair}

end Cond

end Sql

/-! ## Literals -/

/-- The literal of a test on a column of the given native system: its text under the label of the
    test, else under the one it declares, else under the native one, or this transformed to the
    native system. -/
inductive TestLiteral (t : SpatialTest) (native : Srid) : Expr → Srid → Prop
  | labelled {input : GeometryInput} {g : Geometry} {e : Expr} : t.geometry = some input →
      input.read = .ok g → Labelled g.text ((t.srid <|> g.srid).getD native) e →
      TestLiteral t native e ((t.srid <|> g.srid).getD native)
  | transformed {input : GeometryInput} {g : Geometry} {e : Expr} : t.geometry = some input →
      input.read = .ok g → Labelled g.text ((t.srid <|> g.srid).getD native) e →
      TestLiteral t native (.call "ST_Transform" [e, .param (.int native.toInt64)]) native

theorem Labelled.geometryPairs {text : GeometryText} {srid : Srid} {e : Expr}
    (h : Labelled text srid e) (scope : List Table) : e.geometryPairs scope = [] := by
  cases h <;> rfl

namespace TestLiteral

variable {t : SpatialTest} {native srid : Srid} {e : Expr}

/-- A literal is one geometry. -/
theorem geometryPairs (h : TestLiteral t native e srid) (scope : List Table) :
    e.geometryPairs scope = [] := by
  cases h with
  | labelled _ _ hlabel => exact hlabel.geometryPairs scope
  | @transformed _ _ e _ _ hlabel =>
    change [] ++ (e.geometryPairs scope ++ ([] ++ [])) = []
    rw [hlabel.geometryPairs]
    rfl

end TestLiteral

/-- The left geometry is a column of the given table. -/
def Sql.GeometryPair.Reads (p : Sql.GeometryPair) (source : Source) (column : String) : Prop :=
  ∃ name t, p.left = .column (col name column) ∧ p.scope.find? (·.name = some name) = some t ∧
    t.source = source

section
variable {c : Compiler} {s : Scope} {f : ScalarField} {info : GeometryInfo} {g : GeometrySegments}
  {t : SpatialTest} {literal : Expr} {tiles tile piece : String} {scope : List Table}

end

section
variable {c : Compiler} {s : Scope} {inTiles : Select} {pieces segments tile : String}
  {owner : List (String × String)} {condition : Cond}

end

section
variable {c : Compiler} {table : String} {f : ScalarField} {info : GeometryInfo}

end

section
variable {c : Compiler} {s : Scope} {f : SelectedField} {d d' : Draft} {n n' : Names}

end

/-! ## All spatial expressions -/

end LateralSql

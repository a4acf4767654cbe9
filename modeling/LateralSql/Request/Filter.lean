/-
  Filters over the fields of an entity.

  A filter combines leaves by `not`, `and` and `or`.  A leaf tests one field, reached by a
  path: any number of object fields, then the tested field.
-/
import LateralSql.Value.Basic
import LateralSql.Json.Basic
import LateralSql.Schema.Basic

namespace LateralSql

/-- The names of object fields to follow, and last that of the tested field. -/
abbrev FieldPath := List String

namespace FieldPath

/-- A path written with dots. -/
def ofText (s : String) : FieldPath := (s.toList.splitOn '.').map String.ofList

/-- The path with dots between its names. -/
def display (p : FieldPath) : String := ".".intercalate p

/-- Whether the path leads to a field of the entity itself. -/
def isLeaf (p : FieldPath) : Bool := p.length = 1

/-- The path after its first name, if it goes on. -/
def rest? : FieldPath → Option FieldPath
  | _ :: name :: rest => some (name :: rest)
  | _ => none

end FieldPath

/-! ## Spatial tests -/

/-- How a geometry is compared with that of a field. -/
inductive SpatialOperator where
  | contains | within | intersects | touches
  /-- Tests the reference system only. -/
  | srid
  /-- Tests the kind of geometry only. -/
  | type
  deriving Repr, DecidableEq

namespace SpatialOperator

/-- The name of an operator, as requests and messages write it. -/
def name : SpatialOperator → String
  | contains => "Contains"
  | within => "Within"
  | intersects => "Intersects"
  | touches => "Touches"
  | srid => "Srid"
  | type => "Type"

/-- All operators. -/
def all : List SpatialOperator := [contains, within, intersects, touches, srid, type]

end SpatialOperator

/-- A geometry as a client writes it. -/
inductive GeometryInput where
  | wkt (text : String)
  | geoJson (members : List (String × Json))
  deriving Repr

/-- A comparison of a field with a geometry. -/
structure SpatialTest where
  operator : SpatialOperator
  geometry : Option GeometryInput := none
  /-- The reference system of the geometry, if it is not the column's. -/
  srid : Option Srid := none
  deriving Repr

/-! ## Filters -/

/-- What is asked of one field. -/
inductive FieldTest where
  | equals (value : Value)
  | greater (orEqual : Bool) (value : Value)
  | lower (orEqual : Bool) (value : Value)
  | isIn (values : List Value)
  | spatial (test : SpatialTest)
  deriving Repr

/-- A condition on rows: tests on fields that are reached by paths, put together by connectives. -/
inductive Filter where
  | test (path : FieldPath) (test : FieldTest)
  | not (filter : Filter)
  | and (filters : List Filter)
  | or (filters : List Filter)
  deriving Repr

namespace Filter

/-- The path of a single test. -/
def path? : Filter → Option FieldPath
  | test path _ => some path
  | _ => none

/-- A single test seen from the first object field of its path. -/
def stripHop? : Filter → Option Filter
  | test path t => path.rest?.map (test · t)
  | _ => none

end Filter

end LateralSql

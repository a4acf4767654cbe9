/-
  Geometries as they are handed to the database: the text of a literal, its kind, and
  the reference system it declares.
-/
import LateralSql.Schema.Basic
import LateralSql.Text.Digits

namespace LateralSql

/-- The kinds of geometries. -/
inductive GeometryKind where
  | point | lineString | polygon | multiPoint | multiLineString | multiPolygon | geometryCollection
  deriving Repr, DecidableEq

namespace GeometryKind

/-- The name of a kind, as literals write it. -/
def name : GeometryKind → String
  | point => "Point"
  | lineString => "LineString"
  | polygon => "Polygon"
  | multiPoint => "MultiPoint"
  | multiLineString => "MultiLineString"
  | multiPolygon => "MultiPolygon"
  | geometryCollection => "GeometryCollection"

/-- All kinds, those whose names contain another's name first. -/
def all : List GeometryKind :=
  [geometryCollection, multiPolygon, multiLineString, multiPoint, polygon, lineString, point]

end GeometryKind

/-- The text of a geometry and the language it is written in. -/
inductive GeometryText where
  | wkt (text : String)
  | geoJson (text : String)
  deriving Repr, DecidableEq

/-- A geometry that has been checked. -/
structure Geometry where
  kind : GeometryKind
  /-- The reference system that the literal declares. -/
  srid : Option Srid
  text : GeometryText
  deriving Repr, DecidableEq

/-- Why a literal is no geometry. -/
inductive GeometryFault where
  | notWellKnownText
  | unknownType
  /-- The named member is not an array. -/
  | notAnArray (member : String)
  | unsupportedCrs (name : String)
  deriving Repr, DecidableEq

/-- The fault in words, for messages. -/
def GeometryFault.reason : GeometryFault → String
  | notWellKnownText => "not well-known text"
  | unknownType => "missing or unknown geometry type"
  | notAnArray member => "`" ++ member ++ "` must be an array"
  | unsupportedCrs name => "unsupported crs `" ++ name ++ "`"

/-- The identifier written by an optional sign and digits, if it has 32 bits. -/
def Srid.read? (s : List Char) : Option Srid := do
  let n ← Text.integer? ['+', '-'] s
  guard (Int32.minValue.toInt ≤ n ∧ n ≤ Int32.maxValue.toInt)
  return Int32.ofInt n

end LateralSql

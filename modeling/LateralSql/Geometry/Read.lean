/-
  Reading the geometry of a client, in either language.
-/
import LateralSql.Geometry.WellKnownText
import LateralSql.Geometry.GeoJson
import LateralSql.Request.Filter

namespace LateralSql

/-- The literal as a client wrote it, for messages. -/
def GeometryInput.display : GeometryInput → String
  | wkt text => text
  | geoJson members => Json.text (.obj members)

/-- Checks a literal and finds its kind and reference system. -/
def GeometryInput.read : GeometryInput → Except GeometryFault Geometry
  | wkt text =>
    match WellKnownText.read? text with
    | some g => .ok g
    | none => .error .notWellKnownText
  | geoJson members => GeoJson.read members

end LateralSql

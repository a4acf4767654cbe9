/-
  GeoJSON geometries: objects with a type and an array of coordinates, or of geometries
  for a collection.  A `crs` member may name the reference system; it is not part of the text
  handed to the database.
-/
import LateralSql.Geometry.Basic
import LateralSql.Json.Printer

namespace LateralSql.GeoJson

/-- The member that holds the contents of a kind. -/
def contents : GeometryKind → String
  | .geometryCollection => "geometries"
  | _ => "coordinates"

/-- The name of the reference system, `crs.properties.name`. -/
def crsName? (members : List (String × Json)) : Option String := do
  let crs ← Json.member? members "crs"
  let properties ← crs.get? "properties"
  let name ← properties.get? "name"
  name.string?

/-- The text after a start that it must have. -/
def after? (start : List Char) (s : List Char) : Option (List Char) :=
  if start.isPrefixOf s then some (s.drop start.length) else none

/-- The identifier in `EPSG:n` or `urn:ogc:def:crs:EPSG::n`. -/
def crsSrid? (name : String) : Option Srid := do
  let cs := name.toList
  let code ← (after? "EPSG:".toList cs).orElse fun _ => after? "urn:ogc:def:crs:EPSG::".toList cs
  Srid.read? code

/-- The kind that the `type` member names. -/
def kind? (members : List (String × Json)) : Option GeometryKind := do
  let type ← Json.member? members "type"
  let name ← type.string?
  GeometryKind.all.find? fun k => k.name = name

/-- Reads the members of a geometry object. -/
def read (members : List (String × Json)) : Except GeometryFault Geometry := do
  let some kind := kind? members | throw .unknownType
  let some (.arr _) := Json.member? members (contents kind) | throw (.notAnArray (contents kind))
  let srid ← match crsName? members with
    | none => pure none
    | some name =>
      match crsSrid? name with
      | some srid => pure (some srid)
      | none => throw (.unsupportedCrs name)
  let text := Json.text (.obj (members.filter fun m => m.1 ≠ "crs"))
  return ⟨kind, srid, .geoJson text⟩

end LateralSql.GeoJson

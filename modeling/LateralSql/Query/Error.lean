/-
  Why a request cannot be compiled.

  `QueryError` lists the causes, `QueryError.message` words them, and `QueryError.kind` tells
  a request or model that asks for the impossible from a value that cannot be used.
-/
import LateralSql.Geometry.Basic
import LateralSql.Request.Basic

namespace LateralSql

/-- The type of a field's values, for messages. -/
def ScalarField.typeText (f : ScalarField) : String :=
  if f.isList then "list of " ++ f.type.name else f.type.name

/-- Why a field does not take a test. -/
inductive FilterFault where
  | objectField
  | geometryEquality
  /-- The values of the type have no order that rows could be compared by. -/
  | unordered (type : String)
  | nullBound
  | membership (type : String)
  | notSpatial
  deriving Repr, DecidableEq

/-- The fault in words, for messages. -/
def FilterFault.reason : FilterFault → String
  | objectField => "object fields are filtered through their own fields"
  | geometryEquality => "geometry fields are compared with spatial filters"
  | unordered type => "range comparisons are not supported on " ++ type ++ " fields"
  | nullBound => "cannot compare against null"
  | membership type => "`in` is not supported on " ++ type ++ " fields"
  | notSpatial => "spatial filters need a geometry field"

/-- Why a request makes no sense for the model. -/
inductive RequestFault where
  /-- An object field is selected like a scalar one. -/
  | objectSelected (entity field : String)
  /-- The nested request is for another entity than the field's target. -/
  | otherTarget (entity field target requested : String)
  | embeddedCriteria (entity field : String)
  | embeddedJoin (entity field : String)
  | nothingSelected (entity : String)
  | noReferenceSystem (field : String)
  | distinct (function : AggregateFunction)
  deriving Repr, DecidableEq

/-- An entity's field, for messages. -/
def qualifiedField (entity field : String) : String := "`" ++ entity ++ "." ++ field ++ "`"

/-- The fault in words, for messages. -/
def RequestFault.reason : RequestFault → String
  | objectSelected entity field =>
    qualifiedField entity field ++ " is an object field and needs a nested request"
  | otherTarget entity field target requested =>
    qualifiedField entity field ++ " points at `" ++ target ++ "`, not `" ++ requested ++ "`"
  | embeddedCriteria entity field =>
    "embedded object " ++ qualifiedField entity field ++
      " cannot be filtered, sorted, paged or keyed"
  | embeddedJoin entity field =>
    qualifiedField entity field ++ " is embedded and cannot be joined"
  | nothingSelected entity => "nothing is selected from `" ++ entity ++ "`"
  | noReferenceSystem field => "`" ++ field ++ "` is not a geometry field and has no SRID"
  | distinct function =>
    "distinct is only supported for COUNT and JOIN, not " ++ function.name

/-- What a request leaves out. -/
inductive MissingInput where
  | distinctCountField | aggregateField | spatialGeometry
  deriving Repr, DecidableEq

/-- The missing input in words, for messages. -/
def MissingInput.name : MissingInput → String
  | distinctCountField => "field of a distinct count"
  | aggregateField => "aggregate field"
  | spatialGeometry => "spatial filter geometry"

/-- How spatial tests on a column are carried out. -/
inductive SpatialStrategy where
  /-- On the column itself. -/
  | direct
  /-- On the segments that the geometry is split into. -/
  | segmented
  deriving Repr, DecidableEq

/-- The name of a strategy, for messages. -/
def SpatialStrategy.name : SpatialStrategy → String
  | direct => "direct"
  | segmented => "segmented"

/-- Why a request cannot be compiled. -/
inductive QueryError where
  | model (e : ModelError)
  | unsupportedFilter (field : String) (fault : FilterFault)
  | unsupportedAggregate (function : AggregateFunction) (field : String) (type : ScalarType)
  | unsupportedSpatialOperator (operator : SpatialOperator) (strategy : SpatialStrategy)
  | invalidRequest (fault : RequestFault)
  | missingInput (what : MissingInput)
  | malformedGeometry (input : String) (fault : GeometryFault)
  | unsupportedReprojection (native requested : Srid)
  /-- A filter's path names no field at all. -/
  | emptyPath
  deriving Repr, DecidableEq

/-- What is to blame for an error. -/
inductive ErrorKind where
  | configuration | data
  deriving Repr, DecidableEq

namespace QueryError

/-- The message of an error. -/
def message : QueryError → String
  | model e => e.message
  | unsupportedFilter field fault => "Unsupported filter on `" ++ field ++ "`: " ++ fault.reason
  | unsupportedAggregate function field type =>
    "Aggregate " ++ function.name ++ " is not supported on `" ++ field ++ "` of type " ++ type.name
  | unsupportedSpatialOperator operator strategy =>
    "Spatial operator " ++ operator.name ++ " is not supported by the " ++ strategy.name ++
      " strategy"
  | invalidRequest fault => "Invalid request: " ++ fault.reason
  | missingInput what => "Missing required input: " ++ what.name
  | malformedGeometry input fault => "Malformed geometry `" ++ input ++ "`: " ++ fault.reason
  | unsupportedReprojection native requested =>
    "Cannot reproject geometry from SRID " ++ toString native.toInt ++ " to SRID " ++
      toString requested.toInt ++ ": no equivalent SRID known"
  | emptyPath => "Empty field path"

/-- What is to blame: the given data in the case of geometries, and else the configuration. -/
def kind : QueryError → ErrorKind
  | malformedGeometry _ _ | unsupportedReprojection _ _ => .data
  | _ => .configuration

/-- Whether the same request could succeed later. Compilation depends on the request and the model
    only, so it could not. -/
def retryable (_ : QueryError) : Bool := false

end QueryError

end LateralSql
